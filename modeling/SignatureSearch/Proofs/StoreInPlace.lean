import Mathlib
import SignatureSearch.Proofs.DatabaseScan
import SignatureSearch.Store.IndexStore

/-! An index in its place. Once an index has been created, giving the file of its database another
content moves nothing: every written path still leads to where it led, so the index stays in its
place and creating it again changes nothing. -/
namespace SignatureSearch

namespace Disk

/-- Files and directories stand at the same paths. -/
structure SameTree (d d' : Disk) : Prop where
  file : ∀ path, (d'.file? path).isSome = (d.file? path).isSome
  directory : ∀ path, d'.isDirectory path = d.isDirectory path

section Tree

variable {d d' : Disk} (h : d.SameTree d')
include h

lemma SameTree.contains (path : Path) : d'.contains path = d.contains path := by
  rw [Disk.contains, h.file, h.directory, Disk.contains]

lemma SameTree.enter (path : Path) (part : String) : d'.enter path part = d.enter path part := by
  rw [Disk.enter, h.directory, h.contains, Disk.enter]

lemma SameTree.walk (path : Path) (parts : List String) :
    d'.walk path parts = d.walk path parts := by
  induction parts generalizing path with
  | nil => rfl
  | cons part parts ih =>
    rw [Disk.walk, Disk.walk, h.enter]
    cases d.enter path part with
    | error fault => rfl
    | ok path => exact ih path

/-- Every written path leads to where it led. -/
lemma SameTree.find (text : String) : d'.find text = d.find text := by
  have hlocate : d'.locate text = d.locate text := by
    rw [Disk.locate, h.walk, Disk.locate]
  rw [Disk.find, hlocate, Disk.find]
  simp only [h.contains]

lemma SameTree.reaches (text : String) : d'.reaches text = d.reaches text := by
  rw [Disk.reaches, h.find, Disk.reaches]

end Tree

variable {d : Disk} {path : Path} {file : File}

lemma entryAt_of_file (h : d.file? path = some file) : d.entryAt path = some (.file file) := by
  unfold Disk.file? at h
  split at h
  · next hentry =>
    cases h
    exact hentry
  · cases h

lemma entryAt_put (h : d.file? path = some file) (content : Content) (other : Path) :
    (d.put path content).entryAt other =
      if path = other then some (.file { file with content }) else d.entryAt other := by
  rw [put, h, entryAt, entryAt, Std.TreeMap.getElem?_insert]
  simp only [Std.compare_eq_iff_eq]

/-- The number that the file at a path has, or gets when it is created. -/
def numberAt (d : Disk) (path : Path) : ℕ := ((d.file? path).map File.number).getD d.created

lemma entryAt_content (d : Disk) (path : Path) (content : Content) (other : Path) :
    (d.put path content).entryAt other =
      if path = other then some (.file ⟨d.numberAt path, content⟩) else d.entryAt other := by
  cases hfile : d.file? path with
  | some file =>
    rw [entryAt_put hfile, numberAt, hfile]
    rfl
  | none =>
    rw [put, numberAt, hfile, entryAt, entryAt, Std.TreeMap.getElem?_insert]
    simp only [Std.compare_eq_iff_eq]
    rfl

/-- Writing into a file moves nothing. -/
lemma sameTree_put (h : d.file? path = some file) (content : Content) :
    d.SameTree (d.put path content) := by
  have hentry := entryAt_of_file h
  constructor
  · intro other
    rw [Disk.file?, entryAt_put h, Disk.file?]
    split_ifs with heq
    · subst heq
      rw [hentry]
      rfl
    · rfl
  · intro other
    rw [isDirectory, entryAt_put h, isDirectory]
    split_ifs with heq
    · subst heq
      rw [hentry]
      rfl
    · rfl

end Disk

namespace IndexStore

variable {s : IndexStore} {d : Disk} {file : DatabaseFile}

def CanOpen (s : IndexStore) (d : Disk) : Prop :=
  d.isDirectory (Path.parent s.databasePath) = true ∧
    (Path.text s.databasePath).utf8ByteSize ≤ maxDatabasePathBytes

lemma state_of_file (h : s.CanOpen d) {content : File}
    (he : d.entryAt s.databasePath = some (.file content)) : s.state d = stateOfFile content := by
  obtain ⟨hparent, hbytes⟩ := h
  simp only [state, hparent, Bool.not_true, Bool.false_or, decide_eq_true_eq]
  rw [if_neg (by omega), he]

lemma state_closed (h : ¬ s.CanOpen d) : s.state d = .closed := by
  rw [state, if_pos]
  simp only [CanOpen, not_and_or, Bool.not_eq_true] at h
  simpa using h

lemma canOpen_of_state (h : s.state d ≠ .closed) : s.CanOpen d := by
  by_contra hopen
  exact h (state_closed hopen)

lemma entry_ne_directory (h : s.state d ≠ .closed) :
    d.entryAt s.databasePath ≠ some .directory := by
  obtain ⟨hparent, hbytes⟩ := canOpen_of_state h
  intro hentry
  apply h
  simp only [state, hparent, Bool.not_true, Bool.false_or, decide_eq_true_eq]
  rw [if_neg (by omega), hentry]

lemma entry_of_ready (h : s.state d = .ready file) : s.CanOpen d ∧
    d.file? s.databasePath = some ⟨file.number, .database file.database file.lost⟩ := by
  unfold state at h
  simp only at h
  split_ifs at h with hclosed
  simp only [Bool.or_eq_true, Bool.not_eq_true', decide_eq_true_eq, not_or, Bool.not_eq_false,
    not_lt] at hclosed
  refine ⟨hclosed, ?_⟩
  split at h
  · cases h
  · cases h
  · next content hentry =>
    rw [Disk.file?, hentry]
    unfold stateOfFile at h
    split at h
    · next hcontent =>
      cases h
      rw [← hcontent]
    · cases h
    · split_ifs at h

/-- Another content of the database is found in the same file. -/
lemma state_of_ready (h : s.state d = .ready file) (database : Database) (lost : Parts) :
    s.state (s.putDatabase d (.database database lost)) = .ready ⟨file.number, database, lost⟩ := by
  obtain ⟨hopen, hfile⟩ := entry_of_ready h
  have htree := Disk.sameTree_put hfile (.database database lost)
  have hentry := Disk.entryAt_put hfile (.database database lost) s.databasePath
  rw [if_pos rfl] at hentry
  exact state_of_file ⟨(htree.directory _).trans hopen.1, hopen.2⟩ hentry

structure Created (s : IndexStore) (d : Disk) : Prop where
  directory : s.initDirectory d = (d, .ok ())
  database : ∃ file, s.state d = .ready file
  settings : d.reaches s.shownSettings = true

lemma Created.init (h : s.Created d) (locked : Option ℕ) : s.init d locked = (d, .ok ()) := by
  obtain ⟨file, hstate⟩ := h.database
  have hdatabase : s.initDatabase d locked = .ok d := by
    unfold initDatabase
    rw [hstate]
  have hsettings : s.initSettings d = .ok d := if_pos h.settings
  rw [IndexStore.init, h.directory]
  simp only [hdatabase, hsettings]

/-- The index has been created, and its database is whole. -/
structure InPlace (s : IndexStore) (d : Disk) (file : DatabaseFile) : Prop where
  directory : d.reaches s.shown = true
  settings : d.reaches s.shownSettings = true
  present : s.isPresent d = true
  database : s.state d = .ready file
  whole : file.lost = .none

namespace InPlace

variable (h : s.InPlace d file)
include h

/-- Creating the index again changes nothing. -/
lemma init (locked : Option ℕ) : s.init d locked = (d, .ok ()) := by
  have hcreated : s.Created d := ⟨if_pos h.directory, ⟨file, h.database⟩, h.settings⟩
  exact hcreated.init locked

lemma openDatabase (parts : Parts) : s.openDatabase d parts = .ok file := by
  have hmeet : file.lost.meet parts = false := by
    rw [h.whole]
    rfl
  rw [IndexStore.openDatabase, if_pos h.present, h.database]
  simp [hmeet]

lemma openWriter : s.openWriter d none = .ok (.start file) := by
  rw [IndexStore.openWriter, h.openDatabase]
  rfl

lemma scan (view : View) (scan : Scan) : s.scan d view scan = file.database.scan view scan := by
  rw [IndexStore.scan, h.openDatabase]

lemma fileOf? {w : Writer} (hw : w.file = file.number) :
    s.fileOf? d w = some ⟨file.number, .database file.database file.lost⟩ := by
  have hfile : s.file? d = some ⟨file.number, .database file.database file.lost⟩ :=
    (entry_of_ready h.database).2
  rw [IndexStore.fileOf?, hfile, hw]
  simp

/-- The index stays in its place when a whole database is put there. -/
lemma put (database : Database) :
    s.InPlace (s.putDatabase d (.ofDatabase database)) ⟨file.number, database, .none⟩ := by
  have htree := Disk.sameTree_put (entry_of_ready h.database).2 (.ofDatabase database)
  refine ⟨?_, ?_, ?_, ?_, rfl⟩
  · rw [← h.directory]
    exact htree.reaches _
  · rw [← h.settings]
    exact htree.reaches _
  · rw [← h.present]
    exact htree.reaches _
  · exact state_of_ready h.database database .none

end InPlace

end IndexStore

end SignatureSearch
