import Mathlib
import SignatureSearch.Store.IndexStore

/-! Failures of a catalog. There are three reasons why a catalog cannot be read, and nothing else on
the way to a new index fails for one of them. -/
namespace SignatureSearch

/-- A path does not exist, a file is no text, or its text is no JSON. -/
def Failure.OfCatalog (failure : Failure) : Prop :=
  match failure.cause with
  | .missingPath _ | .malformedJson | .file .notUtf8 => True
  | _ => False

lemma not_ofCatalog_file {fault : FileFault} (h : fault ≠ .notUtf8) :
    ¬ (Failure.ofCause (.file fault)).OfCatalog := by
  cases fault with
  | notUtf8 => exact absurd rfl h
  | _ => exact id

lemma exists_of_mapM_error {α β ε : Type} {f : α → Except ε β} {as : List α} {e : ε}
    (h : as.mapM f = .error e) : ∃ a ∈ as, f a = .error e := by
  induction as with
  | nil => cases h
  | cons a as ih =>
    rw [List.mapM_cons] at h
    cases hf : f a with
    | error e' =>
      rw [hf] at h
      cases h
      exact ⟨a, List.mem_cons_self, hf⟩
    | ok b =>
      cases hrest : as.mapM f with
      | error e' =>
        rw [hf, hrest] at h
        cases h
        obtain ⟨a', ha', hfa'⟩ := ih hrest
        exact ⟨a', List.mem_cons_of_mem a ha', hfa'⟩
      | ok bs =>
        rw [hf, hrest] at h
        cases h

namespace CatalogFile

variable {d : Disk} {failure : Failure}

lemma ofPath_failure {shown : String} (h : ofPath d shown = .error failure) :
    failure.OfCatalog := by
  unfold ofPath at h
  split at h
  · cases h
    trivial
  · cases h

lemma readDocuments_failure {file : CatalogFile} (h : readDocuments d file = .error failure) :
    failure.OfCatalog := by
  unfold readDocuments at h
  split at h
  · cases h
    trivial
  · split at h
    · cases h
      trivial
    · cases h

lemma readAll_failure {paths : List String} (h : readAll d paths = .error failure) :
    failure.OfCatalog := by
  unfold readAll discover at h
  cases hlists : paths.mapM (ofPath d) with
  | error failure' =>
    rw [hlists] at h
    cases h
    obtain ⟨shown, -, hshown⟩ := exists_of_mapM_error hlists
    exact ofPath_failure hshown
  | ok lists =>
    rw [hlists] at h
    simp only [Except.map] at h
    cases hcontents : lists.flatten.mapM (readDocuments d) with
    | error failure' =>
      rw [hcontents] at h
      cases h
      obtain ⟨file, -, hfile⟩ := exists_of_mapM_error hcontents
      exact readDocuments_failure hfile
    | ok contents => simp [hcontents] at h

end CatalogFile

/-! ### Failures on the way to an index -/

namespace Disk

variable {d : Disk} {path : Path} {text : String} {fault : FileFault}

lemma enter_fault {part : String} (h : d.enter path part = .error fault) : fault ≠ .notUtf8 := by
  unfold enter at h
  split_ifs at h <;> cases h <;> nofun

lemma walk_fault {parts : List String} (h : d.walk path parts = .error fault) :
    fault ≠ .notUtf8 := by
  induction parts generalizing path with
  | nil => cases h
  | cons part parts ih =>
    rw [walk] at h
    cases he : d.enter path part with
    | error fault' =>
      simp only [he] at h
      cases h
      exact enter_fault he
    | ok next =>
      simp only [he] at h
      exact ih h

lemma locate_fault (h : d.locate text = .error fault) : fault ≠ .notUtf8 := by
  unfold locate at h
  split_ifs at h
  · cases h
    nofun
  · cases h
    nofun
  · exact walk_fault h

lemma makeAlong_fault {d' : Disk} {made : Bool} {parts : List String}
    (h : d.makeAlong made path parts = (d', .error fault)) : fault ≠ .notUtf8 := by
  induction parts generalizing d made path with
  | nil => cases h
  | cons part parts ih =>
    rw [makeAlong] at h
    cases he : d.enter path part with
    | error fault' =>
      simp only [he] at h
      cases h
      exact enter_fault he
    | ok next =>
      simp only [he] at h
      split_ifs at h
      · exact ih h
      · cases h
        nofun
      · cases h
        nofun
      · exact ih h

lemma write_fault {content : Content} (h : d.write text content = .error fault) :
    fault ≠ .notUtf8 := by
  unfold write at h
  cases hl : d.locate text with
  | error fault' =>
    simp only [hl] at h
    cases h
    exact locate_fault hl
  | ok path =>
    simp only [hl] at h
    split_ifs at h
    cases h
    nofun

end Disk

namespace IndexStore

variable {s : IndexStore} {d d' : Disk} {locked : Option ℕ} {fault : FileFault} {failure : Failure}

lemma initDirectory_fault (h : s.initDirectory d = (d', .error fault)) : fault ≠ .notUtf8 := by
  unfold initDirectory Disk.makeDirectories at h
  split_ifs at h
  · cases h
  · cases h
    nofun
  · exact Disk.makeAlong_fault h

lemma initSettings_fault (h : s.initSettings d = .error fault) : fault ≠ .notUtf8 := by
  unfold initSettings at h
  split_ifs at h
  exact Disk.write_fault h

lemma initDatabase_failure (h : s.initDatabase d locked = .error failure) :
    ¬ failure.OfCatalog := by
  unfold initDatabase at h
  split at h
  · cases h
  · split_ifs at h
    cases h
    exact id
  · cases h
  all_goals
    cases h
    exact id

lemma init_failure (h : s.init d locked = (d', .error failure)) : ¬ failure.OfCatalog := by
  unfold init at h
  split at h
  · next hdirectory =>
    cases h
    exact not_ofCatalog_file (initDirectory_fault hdirectory)
  · split at h
    · next hdatabase =>
      cases h
      exact initDatabase_failure hdatabase
    · split at h
      · next hsettings =>
        cases h
        exact not_ofCatalog_file (initSettings_fault hsettings)
      · cases h

lemma openDatabase_failure {parts : Parts} (h : s.openDatabase d parts = .error failure) :
    ¬ failure.OfCatalog := by
  unfold openDatabase at h
  by_cases hp : s.isPresent d = true
  · rw [if_pos hp] at h
    split at h
    · split_ifs at h
      cases h
      exact id
    all_goals
      cases h
      exact id
  · rw [if_neg hp] at h
    cases h
    exact id

lemma openWriter_failure (h : s.openWriter d locked = .error failure) : ¬ failure.OfCatalog := by
  unfold openWriter at h
  split at h
  · next hopen =>
    cases h
    exact openDatabase_failure hopen
  · split_ifs at h
    cases h
    exact id

end IndexStore

lemma Writer.advance_failure {w w' after : Writer} {inPlace : Bool} {failure : Failure}
    (h : w.advance after inPlace = (w', .error failure)) : ¬ failure.OfCatalog := by
  unfold Writer.advance at h
  split at h
  · cases h
  · cases h
    exact id

end SignatureSearch
