import Mathlib
import SignatureSearch.Proofs.DatabaseAnswers
import SignatureSearch.Proofs.StoreCreation

/-! An index that has been created. Creating it a second time finds everything in its place, whatever
has been put into its database since then. -/
namespace SignatureSearch

namespace Disk

variable {d d' d'' : Disk}

lemma isDirectory_of_walk {path last : Path} {parts : List String}
    (hw : d.walk path parts = .ok last) (hl : d.isDirectory last = true) :
    d.isDirectory path = true := by
  cases parts with
  | nil =>
    cases hw
    exact hl
  | cons part parts =>
    rw [walk] at hw
    cases he : d.enter path part with
    | error fault => simp [he] at hw
    | ok next => exact (enter_ok_iff.mp he).1

/-- Where all directories exist none is made. -/
lemma makeAlong_of_walk {made : Bool} {path last : Path} {parts : List String}
    (hw : d.walk path parts = .ok last) (hl : d.isDirectory last = true) :
    d.makeAlong made path parts = (d, .ok ()) := by
  induction parts generalizing path with
  | nil => rfl
  | cons part parts ih =>
    rw [walk] at hw
    cases he : d.enter path part with
    | error fault => simp [he] at hw
    | ok next =>
      simp only [he] at hw
      have hnext : d.isDirectory next = true := isDirectory_of_walk hw hl
      rw [makeAlong, he]
      simp only [hnext, if_true]
      exact ih hw

/-- Directories that have been made need not be made again. -/
lemma makeDirectories_again {text : String} (h : d.makeDirectories text = (d', .ok ()))
    (hk : d'.Keeps d'') : d''.makeDirectories text = (d'', .ok ()) := by
  unfold Disk.makeDirectories at h ⊢
  split_ifs at h ⊢ with hbytes
  · simp at h
  · obtain ⟨-, last, hwalk, hlast⟩ := makeAlong_ok (isDirectory_origin text) h
    exact makeAlong_of_walk (hk.walk hwalk) (hk.directory last hlast)

end Disk

namespace IndexStore

variable {s : IndexStore} {d d' d'' : Disk} {locked : Option ℕ}

lemma initDirectory_again (h : s.initDirectory d = (d', .ok ())) (hk : d'.Keeps d'') :
    s.initDirectory d'' = (d'', .ok ()) := by
  by_cases hreaches'' : d''.reaches s.shown = true
  · exact if_pos hreaches''
  · unfold initDirectory at h ⊢
    rw [if_neg hreaches'']
    split_ifs at h with hreaches
    · cases h
      exact absurd (hk.reaches hreaches) hreaches''
    · exact Disk.makeDirectories_again h hk

/-- A database that has been created, or was there, is ready. -/
lemma state_of_initDatabase (h : s.initDatabase d locked = .ok d') :
    ∃ file, s.state d' = .ready file := by
  rcases initDatabase_cases h with ⟨rfl, hready⟩ | ⟨rfl, hstate⟩
  · exact hready
  · have hkeeps : d.Keeps (s.putDatabase d (.ofDatabase .empty)) :=
      Disk.keeps_put (entry_ne_directory hstate) _
    obtain ⟨hparent, hbytes⟩ := canOpen_of_state hstate
    have hentry := Disk.entryAt_content d s.databasePath (.ofDatabase .empty) s.databasePath
    rw [if_pos rfl] at hentry
    exact ⟨_, state_of_file ⟨hkeeps.directory _ hparent, hbytes⟩ hentry⟩

lemma contains_database {file : DatabaseFile} (h : s.state d = .ready file) :
    d.contains s.databasePath = true := by
  have hentry := Disk.entryAt_of_file (entry_of_ready h).2
  exact Disk.contains_of_entry hentry

/-- Writing a file where nothing was leaves the database ready. -/
lemma state_write {text : String} {content : Content} {file : DatabaseFile}
    (hs : s.state d = .ready file) (hr : d.reaches text = false)
    (h : d.write text content = .ok d') : s.state d' = .ready file := by
  have hkeeps := (Disk.write_ok h).1
  obtain ⟨hopen, hfile⟩ := entry_of_ready hs
  obtain ⟨path, hlocate, -, rfl⟩ := Disk.exists_of_write h
  have hne : path ≠ s.databasePath := by
    rintro rfl
    have hreaches := Disk.reaches_iff.mpr ⟨_, hlocate, contains_database hs⟩
    simp [hr] at hreaches
  have hentry := Disk.entryAt_content d path content s.databasePath
  rw [if_neg hne, Disk.entryAt_of_file hfile] at hentry
  obtain ⟨number, database, lost⟩ := file
  exact state_of_file ⟨hkeeps.directory _ hopen.1, hopen.2⟩ hentry

/-- What `init` has done it need not do again. -/
theorem created_of_init (h : s.init d locked = (d', .ok ())) : s.Created d' := by
  obtain ⟨d₁, d₂, hdirectory, hdatabase, hsettings⟩ := init_ok h
  obtain ⟨hkeeps, hreaches⟩ := initSettings_ok hsettings
  obtain ⟨file, hstate⟩ := state_of_initDatabase hdatabase
  have hready : s.state d' = .ready file := by
    rcases initSettings_cases hsettings with ⟨rfl, -⟩ | ⟨hmissing, hwrite⟩
    · exact hstate
    · exact state_write hstate hmissing hwrite
  exact ⟨initDirectory_again hdirectory ((initDatabase_ok hdatabase).trans hkeeps),
    ⟨file, hready⟩, hreaches⟩

/-- A created index stays so when its database gets another content. -/
lemma Created.put {file : DatabaseFile} (h : s.Created d) (hs : s.state d = .ready file)
    (database : Database) (lost : Parts) :
    s.Created (s.putDatabase d (.database database lost)) := by
  have hkeeps : d.Keeps (s.putDatabase d (.database database lost)) := by
    refine Disk.keeps_put ?_ _
    rw [Disk.entryAt_of_file (entry_of_ready hs).2]
    nofun
  exact ⟨initDirectory_again h.directory hkeeps, ⟨_, state_of_ready hs database lost⟩,
    hkeeps.reaches h.settings⟩

end IndexStore

end SignatureSearch
