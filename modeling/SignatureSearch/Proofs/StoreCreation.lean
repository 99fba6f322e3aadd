import Mathlib
import SignatureSearch.Proofs.StoreInPlace

/-! Creating an index. What is made and written on the way never takes away a file or directory, so
what has been reached stays within reach, and an index that is present after its creation is in its
place. -/
namespace SignatureSearch

namespace Disk

/-- All directories are still there, and something at every path where something was. -/
structure Keeps (d d' : Disk) : Prop where
  directory : ∀ path, d.isDirectory path = true → d'.isDirectory path = true
  contains : ∀ path, d.contains path = true → d'.contains path = true

variable {d d' d'' : Disk}

lemma Keeps.refl (d : Disk) : d.Keeps d := ⟨fun _ => id, fun _ => id⟩

lemma Keeps.trans (h : d.Keeps d') (g : d'.Keeps d'') : d.Keeps d'' :=
  ⟨fun path hpath => g.directory path (h.directory path hpath),
    fun path hpath => g.contains path (h.contains path hpath)⟩

lemma enter_ok_iff {path path' : Path} {part : String} : d.enter path part = .ok path' ↔
    d.isDirectory path = true ∧ part.utf8ByteSize ≤ maxNameBytes ∧ path' = path.follow part := by
  unfold enter
  split_ifs with hdirectory hbytes
  · simp [hdirectory, hbytes]
  · simp [hdirectory, Nat.le_of_not_lt hbytes, eq_comm]
  · simp [hdirectory]

section Kept

variable (h : d.Keeps d')
include h

lemma Keeps.walk {path path' : Path} {parts : List String} (hw : d.walk path parts = .ok path') :
    d'.walk path parts = .ok path' := by
  induction parts generalizing path with
  | nil => exact hw
  | cons part parts ih =>
    rw [Disk.walk] at hw ⊢
    cases he : d.enter path part with
    | error fault => simp [he] at hw
    | ok next =>
      obtain ⟨hdirectory, hbytes, hnext⟩ := enter_ok_iff.mp he
      have he' : d'.enter path part = .ok next :=
        enter_ok_iff.mpr ⟨h.directory path hdirectory, hbytes, hnext⟩
      rw [he] at hw
      rw [he']
      exact ih hw

lemma Keeps.locate {text : String} {path : Path} (hl : d.locate text = .ok path) :
    d'.locate text = .ok path := by
  unfold Disk.locate at hl ⊢
  split_ifs at hl ⊢
  exact h.walk hl

end Kept

lemma reaches_iff {text : String} :
    d.reaches text = true ↔ ∃ path, d.locate text = .ok path ∧ d.contains path = true := by
  unfold reaches find
  cases hl : d.locate text with
  | error fault => simp
  | ok path =>
    by_cases hc : d.contains path = true
    · simp [hc]
    · simp [hc]

/-- What has been reached is still reached. -/
lemma Keeps.reaches (h : d.Keeps d') {text : String} (hr : d.reaches text = true) :
    d'.reaches text = true := by
  obtain ⟨path, hlocate, hcontains⟩ := reaches_iff.mp hr
  exact reaches_iff.mpr ⟨path, h.locate hlocate, h.contains path hcontains⟩

lemma contains_of_entry {path : Path} {entry : Entry} (h : d.entryAt path = some entry) :
    d.contains path = true := by
  cases entry with
  | directory => simp [contains, isDirectory, h]
  | file file => simp [contains, file?, h]

/-- A change of one entry keeps the others; the one it changes must stay a directory. -/
lemma keeps_of_entry {path : Path} {entry : Entry}
    (he : ∀ other, d'.entryAt other = if path = other then some entry else d.entryAt other)
    (hd : d.entryAt path = some .directory → entry = .directory) : d.Keeps d' := by
  have hdirectory : ∀ other, d.isDirectory other = true → d'.isDirectory other = true := by
    intro other hother
    simp only [isDirectory, Bool.or_eq_true, beq_iff_eq] at hother ⊢
    refine hother.imp_right fun hentry => ?_
    rw [he]
    split_ifs with heq
    · subst heq
      rw [hd hentry]
    · exact hentry
  refine ⟨hdirectory, fun other hother => ?_⟩
  by_cases heq : path = other
  · have hentry := he other
    rw [if_pos heq] at hentry
    exact contains_of_entry hentry
  · simp only [contains, Bool.or_eq_true] at hother ⊢
    refine hother.imp (fun hfile => ?_) (hdirectory other)
    have hentry := he other
    rw [if_neg heq] at hentry
    rwa [file?, hentry]

lemma keeps_put {path : Path} (h : d.entryAt path ≠ some .directory) (content : Content) :
    d.Keeps (d.put path content) := by
  exact keeps_of_entry (entryAt_content d path content) fun hd => absurd hd h

lemma contains_put (path : Path) (content : Content) :
    (d.put path content).contains path = true := by
  exact contains_of_entry ((entryAt_content d path content path).trans (if_pos rfl))

lemma entryAt_addDirectory (path other : Path) : (d.addDirectory path).entryAt other =
    if path = other then some .directory else d.entryAt other := by
  rw [addDirectory, entryAt, entryAt, Std.TreeMap.getElem?_insert]
  simp only [Std.compare_eq_iff_eq]

lemma keeps_addDirectory (path : Path) : d.Keeps (d.addDirectory path) :=
  keeps_of_entry (entryAt_addDirectory path) fun _ => rfl

/-- Making directories leads to the last of them. -/
lemma makeAlong_ok {made : Bool} {path : Path} {parts : List String}
    (hd : d.isDirectory path = true) (h : d.makeAlong made path parts = (d', .ok ())) :
    d.Keeps d' ∧ ∃ last, d'.walk path parts = .ok last ∧ d'.isDirectory last = true := by
  induction parts generalizing d made path with
  | nil =>
    cases h
    exact ⟨.refl _, path, rfl, hd⟩
  | cons part parts ih =>
    rw [makeAlong] at h
    cases he : d.enter path part with
    | error fault => simp [he] at h
    | ok next =>
      obtain ⟨-, hbytes, hnext⟩ := enter_ok_iff.mp he
      have hrest : ∃ d₁ made, d.Keeps d₁ ∧ d₁.isDirectory next = true ∧
          d₁.makeAlong made next parts = (d', .ok ()) := by
        simp only [he] at h
        split_ifs at h with hdirectory hcontains hmade
        · exact ⟨d, made, .refl d, hdirectory, h⟩
        · simp at h
        · simp at h
        · refine ⟨_, true, keeps_addDirectory next, ?_, h⟩
          simp [isDirectory, entryAt_addDirectory]
      obtain ⟨d₁, made, hkeeps, hdirectory, hmake⟩ := hrest
      obtain ⟨hkeeps', last, hwalk, hlast⟩ := ih hdirectory hmake
      have hall := hkeeps.trans hkeeps'
      refine ⟨hall, last, ?_, hlast⟩
      have he' : d'.enter path part = .ok next :=
        enter_ok_iff.mpr ⟨hall.directory path hd, hbytes, hnext⟩
      rw [walk, he']
      exact hwalk

lemma isDirectory_origin (text : String) : d.isDirectory (Path.origin text) = true := by
  unfold Path.origin
  split_ifs <;> simp [isDirectory]

lemma makeDirectories_ok {text : String} (ht : text ≠ "")
    (h : d.makeDirectories text = (d', .ok ())) : d.Keeps d' ∧ d'.reaches text = true := by
  unfold makeDirectories at h
  split_ifs at h with hbytes
  · simp at h
  · obtain ⟨hkeeps, last, hwalk, hlast⟩ := makeAlong_ok (isDirectory_origin text) h
    refine ⟨hkeeps, reaches_iff.mpr ⟨last, ?_, ?_⟩⟩
    · rw [locate, if_neg ht, if_neg hbytes, hwalk]
    · simp [contains, hlast]

lemma exists_of_write {text : String} {content : Content} (h : d.write text content = .ok d') :
    ∃ path, d.locate text = .ok path ∧ d.isDirectory path = false ∧ d' = d.put path content := by
  unfold write at h
  cases hl : d.locate text with
  | error fault => simp [hl] at h
  | ok path =>
    simp only [hl] at h
    split_ifs at h with hdirectory
    cases h
    exact ⟨path, rfl, by simpa using hdirectory, rfl⟩

lemma write_ok {text : String} {content : Content} (h : d.write text content = .ok d') :
    d.Keeps d' ∧ d'.reaches text = true := by
  obtain ⟨path, hlocate, hdirectory, rfl⟩ := exists_of_write h
  have hentry : d.entryAt path ≠ some .directory := by
    intro hentry
    simp [isDirectory, hentry] at hdirectory
  have hkeeps := keeps_put hentry content
  exact ⟨hkeeps, reaches_iff.mpr ⟨path, hkeeps.locate hlocate, contains_put path content⟩⟩

end Disk

namespace IndexStore

variable {s : IndexStore} {d d' : Disk} {locked : Option ℕ}

/-- A database that is ready stays; otherwise an empty one is put in place. -/
lemma initDatabase_cases (h : s.initDatabase d locked = .ok d') :
    (d' = d ∧ ∃ file, s.state d = .ready file) ∨
      d' = s.putDatabase d (.ofDatabase .empty) ∧ s.state d ≠ .closed := by
  unfold initDatabase at h
  split at h
  · next hstate =>
    cases h
    exact .inr ⟨rfl, by rw [hstate]; nofun⟩
  · next file hstate =>
    split_ifs at h
    · cases h
    · cases h
      exact .inr ⟨rfl, by rw [hstate]; nofun⟩
  · next file hstate =>
    cases h
    exact .inl ⟨rfl, file, hstate⟩
  all_goals cases h

lemma initSettings_cases (h : s.initSettings d = .ok d') :
    (d' = d ∧ d.reaches s.shownSettings = true) ∨ d.reaches s.shownSettings = false ∧
      d.write s.shownSettings (.bytes Settings.defaultText.toUTF8) = .ok d' := by
  unfold initSettings at h
  split_ifs at h with hreaches
  · cases h
    exact .inl ⟨rfl, hreaches⟩
  · exact .inr ⟨by simpa using hreaches, h⟩

/-- Creating an index succeeds when its three parts do. -/
lemma init_ok (h : s.init d locked = (d', .ok ())) : ∃ d₁ d₂,
    s.initDirectory d = (d₁, .ok ()) ∧ s.initDatabase d₁ locked = .ok d₂ ∧
      s.initSettings d₂ = .ok d' := by
  unfold init at h
  split at h
  · cases h
  · next d₁ hdirectory =>
    split at h
    · cases h
    · next d₂ hdatabase =>
      split at h
      · cases h
      · next d₃ hsettings =>
        cases h
        exact ⟨d₁, d₂, hdirectory, hdatabase, hsettings⟩

lemma initDatabase_ok (h : s.initDatabase d locked = .ok d') : d.Keeps d' := by
  rcases initDatabase_cases h with ⟨rfl, -⟩ | ⟨rfl, hstate⟩
  · exact .refl _
  · exact Disk.keeps_put (entry_ne_directory hstate) _

lemma initDirectory_ok (hs : s.shown ≠ "") (h : s.initDirectory d = (d', .ok ())) :
    d.Keeps d' ∧ d'.reaches s.shown = true := by
  unfold initDirectory at h
  split_ifs at h with hreaches
  · cases h
    exact ⟨.refl d, hreaches⟩
  · exact Disk.makeDirectories_ok hs h

lemma initSettings_ok (h : s.initSettings d = .ok d') :
    d.Keeps d' ∧ d'.reaches s.shownSettings = true := by
  rcases initSettings_cases h with ⟨rfl, hreaches⟩ | ⟨-, hwrite⟩
  · exact ⟨.refl _, hreaches⟩
  · exact Disk.write_ok hwrite

/-- An index that is present once it has been created is in its place. -/
theorem inPlace_of_init {file : DatabaseFile} (hs : s.shown ≠ "")
    (h : s.init d locked = (d', .ok ())) (hp : s.isPresent d' = true)
    (hr : s.state d' = .ready file) (hw : file.lost = .none) : s.InPlace d' file := by
  obtain ⟨d₁, d₂, hdirectory, hdatabase, hsettings⟩ := init_ok h
  have hkeeps := initDatabase_ok hdatabase
  obtain ⟨-, hreached⟩ := initDirectory_ok hs hdirectory
  obtain ⟨hkeeps', hreached'⟩ := initSettings_ok hsettings
  exact ⟨(hkeeps.trans hkeeps').reaches hreached, hreached', hp, hr, hw⟩

end IndexStore

end SignatureSearch
