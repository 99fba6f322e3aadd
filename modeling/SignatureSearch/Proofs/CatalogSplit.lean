import Mathlib
import SignatureSearch.Proofs.JsonReading
import SignatureSearch.Proofs.Rebuilding

/-! A catalog in several files. Texts that are read one by one are read to the same documents when
they are joined by new lines, so it does not matter how a catalog is split over files. -/
namespace SignatureSearch

/-! ### Streams -/

namespace Json

lemma readValues_skipBlanks (fuel : ℕ) (cs : List Char) :
    readValues (fuel + 1) (skipBlanks cs) = readValues (fuel + 1) cs := by
  rw [readValues, readValues, skipBlanks_idem]

/-- A stream is empty, or its first value ends where another one can begin. -/
lemma readValues_iff {fuel : ℕ} {cs : List Char} {values : List Json} :
    readValues (fuel + 1) cs = some values ↔
      skipBlanks cs = [] ∧ values = [] ∨
      ∃ c tail v after others, skipBlanks cs = c :: tail ∧ readFirst (c :: tail) = some (v, after) ∧
        (isSelfDelimiting c || endsScalar after) = true ∧
        readValues fuel after = some others ∧ values = v :: others := by
  rw [readValues]
  constructor
  · intro h
    split at h
    · next hskip =>
      cases h
      exact .inl ⟨hskip, rfl⟩
    · next c tail hskip =>
      split at h
      · cases h
      · next v after hfirst =>
        split_ifs at h with hends
        split at h
        · cases h
        · next others hothers =>
          cases h
          exact .inr ⟨c, tail, v, after, others, hskip, hfirst, hends, hothers, rfl⟩
  · rintro (⟨hskip, rfl⟩ | ⟨c, tail, v, after, others, hskip, hfirst, hends, hothers, rfl⟩)
    · simp only [hskip]
    · simp only [hskip, hfirst, hends, if_true, hothers]

/-- More steps do not change what a stream is read to. -/
lemma readValues_mono {fuel steps : ℕ} {cs : List Char} {values : List Json} (hsteps : fuel ≤ steps)
    (h : readValues fuel cs = some values) : readValues steps cs = some values := by
  induction fuel generalizing steps cs values with
  | zero => cases h
  | succ fuel ih =>
    obtain ⟨steps, rfl⟩ : ∃ k, steps = k + 1 := ⟨steps - 1, by omega⟩
    refine readValues_iff.mpr ?_
    rcases readValues_iff.mp h with hnil | ⟨c, tail, v, after, others, hskip, hfirst, hends,
      hothers, rfl⟩
    · exact .inl hnil
    · exact .inr ⟨c, tail, v, after, others, hskip, hfirst, hends,
        ih (Nat.le_of_succ_le_succ hsteps) hothers, rfl⟩

lemma readFirst_append {more : List Char} (hmore : EndsNumber more) {cs rest : List Char} {v : Json}
    (h : readFirst cs = some (v, rest)) : readFirst (cs ++ more) = some (v, rest ++ more) := by
  refine readValue_append hmore ?_ h
  rw [enoughFuel, enoughFuel, List.length_append]
  omega

lemma endsScalar_append {cs : List Char} (h : endsScalar cs = true) (more : List Char) :
    endsScalar (cs ++ '\n' :: more) = true := by
  cases cs with
  | nil => rfl
  | cons c cs => exact h

/-- A stream goes on behind a new line with what is read there. -/
lemma readValues_append {fuel steps : ℕ} {cs more : List Char} {values others : List Json}
    (h : readValues fuel cs = some values) (hmore : readValues steps more = some others) :
    readValues (fuel + steps) (cs ++ '\n' :: more) = some (values ++ others) := by
  induction fuel generalizing cs values with
  | zero => cases h
  | succ fuel ih =>
    rw [Nat.succ_add]
    rcases readValues_iff.mp h with ⟨hskip, rfl⟩ | ⟨c, tail, v, after, behind, hskip, hfirst,
      hends, hbehind, rfl⟩
    · -- Only blanks are left of the first text.
      have hblank : skipBlanks (cs ++ '\n' :: more) = skipBlanks more := by
        have hcs : cs.dropWhile isBlank = [] := hskip
        rw [skipBlanks, List.dropWhile_append, hcs]
        rfl
      rw [← readValues_skipBlanks, hblank, readValues_skipBlanks, List.nil_append]
      exact readValues_mono (by omega) hmore
    · have hnewline : EndsNumber ('\n' :: more) := endsNumber_cons (by decide) more
      have hends' : (isSelfDelimiting c || endsScalar (after ++ '\n' :: more)) = true := by
        rw [Bool.or_eq_true] at hends ⊢
        exact hends.imp_right fun hscalar => endsScalar_append hscalar more
      exact readValues_iff.mpr (.inr ⟨c, tail ++ '\n' :: more, v, after ++ '\n' :: more,
        behind ++ others, skipBlanks_append hskip _, readFirst_append hnewline hfirst, hends',
        ih hbehind, rfl⟩)

lemma readStream?_append {text more : String} {values others : List Json}
    (h : readStream? text = some values) (hmore : readStream? more = some others) :
    readStream? (text ++ "\n" ++ more) = some (values ++ others) := by
  have hchars : (text ++ "\n" ++ more).toList = text.toList ++ '\n' :: more.toList := by simp
  have happend := readValues_append h hmore
  rw [readStream?, hchars]
  refine readValues_mono (le_of_eq ?_) happend
  rw [List.length_append, List.length_cons]
  omega

end Json

/-! ### Documents -/

namespace Catalog

/-- Each of the texts can be read, to the documents in its place. -/
abbrev ReadTo (texts : List String) (contents : List (List Json)) : Prop :=
  List.Forall₂ (fun text documents => readDocuments? text = some documents) texts contents

lemma readDocuments?_append {text more : String} {documents others : List Json}
    (h : readDocuments? text = some documents) (hmore : readDocuments? more = some others) :
    readDocuments? (text ++ "\n" ++ more) = some (documents ++ others) := by
  obtain ⟨values, hvalues, rfl⟩ := Option.map_eq_some_iff.mp h
  obtain ⟨values', hvalues', rfl⟩ := Option.map_eq_some_iff.mp hmore
  rw [readDocuments?, Json.readStream?_append hvalues hvalues', Option.map_some,
    List.flatMap_append]

lemma readDocuments?_joined {texts : List String} {contents : List (List Json)}
    (h : ReadTo texts contents) :
    readDocuments? ("\n".intercalate texts) = some contents.flatten := by
  induction h with
  | nil => rfl
  | @cons text documents texts contents htext htexts ih =>
    cases htexts with
    | nil =>
      rw [List.flatten_singleton]
      simpa using htext
    | cons =>
      rw [String.intercalate_cons_cons]
      exact readDocuments?_append htext ih

end Catalog

/-! ### Files -/

/-- The catalog files that paths stand for hold these texts, in this order. -/
def Disk.HoldsCatalog (d : Disk) (paths texts : List String) : Prop :=
  ∃ files, CatalogFile.discover d paths = .ok files ∧
    List.Forall₂ (fun file text => d.textAt? file.path = some text) files texts

/-- Paths that lead to files stand for just these files. -/
lemma Disk.holdsCatalog_of_files {d : Disk} {paths texts : List String}
    (h : List.Forall₂ (fun shown text => ∃ path, d.find shown = .ok path ∧
      d.textAt? path = some text) paths texts) : d.HoldsCatalog paths texts := by
  have hfiles : ∃ files : List CatalogFile,
      List.Forall₂ (fun shown list => CatalogFile.ofPath d shown = .ok list) paths
        (files.map fun file => [file]) ∧
      List.Forall₂ (fun file text => d.textAt? file.path = some text) files texts := by
    induction h with
    | nil => exact ⟨[], .nil, .nil⟩
    | @cons shown text _ _ hfile _ ih =>
      obtain ⟨path, hfind, htext⟩ := hfile
      obtain ⟨files, hpaths, htexts⟩ := ih
      have hpath : CatalogFile.ofPath d shown = .ok [⟨shown, path⟩] := by
        rw [CatalogFile.ofPath, hfind]
        simp only [CatalogFile.isSome_file?_of_text htext, if_true]
      exact ⟨⟨shown, path⟩ :: files, .cons hpath hpaths, .cons htext htexts⟩
  obtain ⟨files, hpaths, htexts⟩ := hfiles
  refine ⟨files, ?_, htexts⟩
  rw [CatalogFile.discover, mapM_ok_iff.mpr hpaths, Except.map, ← List.flatMap_def,
    List.flatMap_singleton']

lemma CatalogFile.readAll_of_texts {d : Disk} {paths texts : List String}
    {contents : List (List Json)} (h : d.HoldsCatalog paths texts)
    (hread : Catalog.ReadTo texts contents) : readAll d paths = .ok contents.flatten := by
  obtain ⟨files, hfiles, htexts⟩ := h
  have hdocuments : List.Forall₂ (fun file documents => readDocuments d file = .ok documents)
      files contents := by
    clear hfiles
    induction htexts generalizing contents with
    | nil =>
      cases hread
      exact .nil
    | cons htext _ ih =>
      cases hread with
      | cons hdocument hrest =>
        exact .cons (readDocuments_ok_iff.mpr ⟨_, htext, hdocument⟩) (ih hrest)
  rw [readAll, hfiles]
  simp only [mapM_ok_iff.mpr hdocuments, Except.map]

namespace IndexStore

variable {s s' : IndexStore} {d d' e e' : Disk} {locked locked' : Option ℕ}
  {paths paths' : List String} {documents : List Json} {n m : ℕ}

/-- Indexes that are built from the same documents answer alike. -/
lemma rebuild_alike (hread : CatalogFile.readAll d paths = .ok documents)
    (hread' : CatalogFile.readAll d' paths' = .ok documents) {stats stats' : IndexStats}
    (h : s.rebuild d locked paths n = (e, .ok stats))
    (h' : s'.rebuild d' locked' paths' m = (e', .ok stats')) :
    stats = stats' ∧ s.AnswersAlike e s' e' := by
  obtain ⟨documents₁, d₁, file, hfrom, -, hw, rfl, rfl⟩ := writable_of_rebuild h
  obtain ⟨documents₂, d₂, file', hfrom', -, hw', rfl, rfl⟩ := writable_of_rebuild h'
  obtain rfl : documents₁ = documents := Except.ok.inj (hfrom.symm.trans hread)
  obtain rfl : documents₂ = documents₁ := Except.ok.inj (hfrom'.symm.trans hread')
  have hfigures := Database.rebuilt_figures file.database file'.database s.format s'.format
    documents₂ n m
  exact ⟨hfigures.stats, hw.answers.alike hw'.answers⟩

/-- Where nothing has been indexed, documents that can be read can be indexed. -/
lemma IsFresh.rebuild_ok (h : s.IsFresh d) (hread : CatalogFile.readAll d paths = .ok documents)
    (n : ℕ) : ∃ e stats, s.rebuild d none paths n = (e, .ok stats) := by
  obtain ⟨d₁, file, hinit, hw⟩ := h.writable (rebuiltParts documents n)
  exact ⟨_, _, hw.rebuild hread hinit⟩

end IndexStore

/-- Texts that can be read one by one can be read when they are joined by new lines, to all their
documents in order. So files that hold the texts are indexed like one file that holds the joined
text: on one disk both do the same, and wherever both succeed, as they do where nothing has been
indexed, the figures and all answers are the same. -/
theorem split_catalog {texts : List String} {contents : List (List Json)}
    (h : Catalog.ReadTo texts contents) :
    Catalog.readDocuments? ("\n".intercalate texts) = some contents.flatten ∧
    ∀ (s s' : IndexStore) (d d' : Disk) (paths paths' : List String),
      d.HoldsCatalog paths texts → d'.HoldsCatalog paths' ["\n".intercalate texts] →
      (d = d' → ∀ locked n, s.rebuild d locked paths n = s.rebuild d locked paths' n) ∧
      (s.IsFresh d → s'.IsFresh d' → ∀ n m, ∃ e e' stats stats',
        s.rebuild d none paths n = (e, .ok stats) ∧
        s'.rebuild d' none paths' m = (e', .ok stats') ∧
        stats = stats' ∧ s.AnswersAlike e s' e') ∧
      ∀ locked locked' n m e e' stats stats', s.rebuild d locked paths n = (e, .ok stats) →
        s'.rebuild d' locked' paths' m = (e', .ok stats') →
        stats = stats' ∧ s.AnswersAlike e s' e' := by
  have hjoined := Catalog.readDocuments?_joined h
  refine ⟨hjoined, fun s s' d d' paths paths' hd hd' => ?_⟩
  have hread := CatalogFile.readAll_of_texts hd h
  have hread' : CatalogFile.readAll d' paths' = .ok contents.flatten := by
    have hone := CatalogFile.readAll_of_texts hd' (.cons hjoined .nil)
    rwa [List.flatten_singleton] at hone
  refine ⟨?_, fun hs hs' n m => ?_, fun locked locked' n m e e' stats stats' hr hr' => ?_⟩
  · rintro rfl locked n
    rw [IndexStore.rebuild, IndexStore.rebuild, hread, hread']
  · obtain ⟨e, stats, hr⟩ := hs.rebuild_ok hread n
    obtain ⟨e', stats', hr'⟩ := hs'.rebuild_ok hread' m
    exact ⟨e, e', stats, stats', hr, hr', IndexStore.rebuild_alike hread hread' hr hr'⟩
  · exact IndexStore.rebuild_alike hread hread' hr hr'

def splitTexts : List String :=
  ["\x7b\"type\":\"type\",\"name\":\"M\"\x7d 7", "[null,\x7b\"type\":\"type\",\"name\":\"N\"\x7d]"]

def splitDisk : Disk :=
  let texts := splitTexts.zip [["b.json"], ["a.json"]]
  (texts.foldl (fun d file => d.put file.2 (.bytes file.1.toUTF8)) Disk.empty).put ["c.json"]
    (.bytes ("\n".intercalate splitTexts).toUTF8)

/-- The two files are indexed like the third one. -/
theorem split_catalog_sample :
    ∃ e e' stats, (IndexStore.under "r").rebuild splitDisk none ["b.json", "a.json"] 1 =
        (e, .ok stats) ∧
      (IndexStore.under "q").rebuild splitDisk none ["c.json"] 9 = (e', .ok stats) ∧
      stats.types = 2 ∧ stats.skipped = 2 ∧
      (IndexStore.under "r").AnswersAlike e (IndexStore.under "q") e' := by
  have hread : Catalog.ReadTo splitTexts
      [[.object [("name", .string "M"), ("type", .string "type")],
        .number (.integer ⟨7, by decide, by decide⟩)],
      [.null, .object [("name", .string "N"), ("type", .string "type")]]] :=
    .cons (by decide +kernel) (.cons (by decide +kernel) .nil)
  have hsplit : splitDisk.HoldsCatalog ["b.json", "a.json"] splitTexts :=
    Disk.holdsCatalog_of_files (.cons ⟨["b.json"], by decide +kernel, by decide +kernel⟩
      (.cons ⟨["a.json"], by decide +kernel, by decide +kernel⟩ .nil))
  have hjoined : splitDisk.HoldsCatalog ["c.json"] ["\n".intercalate splitTexts] :=
    Disk.holdsCatalog_of_files (.cons ⟨["c.json"], by decide +kernel, by decide +kernel⟩ .nil)
  have hr : (IndexStore.under "r").IsFresh splitDisk :=
    ⟨_, 3, Prod.ext rfl (by decide +kernel), by decide +kernel, by decide +kernel⟩
  have hq : (IndexStore.under "q").IsFresh splitDisk :=
    ⟨_, 3, Prod.ext rfl (by decide +kernel), by decide +kernel, by decide +kernel⟩
  have hstats : ((IndexStore.under "r").rebuild splitDisk none ["b.json", "a.json"] 1).2 =
      .ok ⟨2, 0, 2, [("by-assembly", 2), ("by-name", 2), ("by-type-assembly", 2)], true⟩ := by
    decide +kernel
  obtain ⟨-, hfresh, -⟩ := (split_catalog hread).2 _ _ _ _ _ _ hsplit hjoined
  obtain ⟨e, e', stats, stats', he, he', rfl, halike⟩ := hfresh hr hq 1 9
  rw [he, Except.ok.injEq] at hstats
  subst hstats
  exact ⟨e, e', _, he, he', rfl, rfl, halike⟩

end SignatureSearch
