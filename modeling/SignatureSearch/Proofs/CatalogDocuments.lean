import Mathlib
import SignatureSearch.Proofs.CatalogSplit
import SignatureSearch.Proofs.JsonProgress

/-! The documents of a catalog text. A text is read exactly if it is a stream of values to its end,
and its documents are those that its values hold, in order. A document is taken out of its value
unchanged, unless the value looks like a wrapping without being one. -/
namespace SignatureSearch

/-! ### Streams -/

namespace Json

/-- The next value of a stream. Behind a number, a truth value or null the text must end or go on
with a blank or a mark. -/
def NextValue (cs : List Char) (v : Json) (after : List Char) : Prop :=
  ∃ c tail, skipBlanks cs = c :: tail ∧ Begins (c :: tail) v after ∧
    (isSelfDelimiting c || endsScalar after) = true

/-- The text begins with these values, one after the other, and `rest` comes behind them. -/
inductive Stream : List Char → List Json → List Char → Prop
  | nil (cs : List Char) : Stream cs [] cs
  | cons {cs after rest : List Char} {v : Json} {values : List Json} (next : NextValue cs v after)
      (more : Stream after values rest) : Stream cs (v :: values) rest

/-- Something comes, but no value. -/
def Malformed (cs : List Char) : Prop := skipBlanks cs ≠ [] ∧ ∀ v after, ¬NextValue cs v after

variable {fuel : ℕ} {cs after rest : List Char} {v : Json} {values : List Json}

lemma NextValue.length_lt (h : NextValue cs v after) : after.length < cs.length := by
  obtain ⟨c, tail, hskip, hbegins, -⟩ := h
  have hlength := length_skipBlanks cs
  rw [hskip] at hlength
  exact hbegins.length_lt.trans_le hlength

lemma NextValue.not_blank (h : NextValue cs v after) : skipBlanks cs ≠ [] := by
  obtain ⟨c, tail, hskip, -⟩ := h
  simp [hskip]

lemma NextValue.unique {v' : Json} {after' : List Char} (h : NextValue cs v after)
    (h' : NextValue cs v' after') : v = v' ∧ after = after' := by
  obtain ⟨c, tail, hskip, hbegins, -⟩ := h
  obtain ⟨c', tail', hskip', hbegins', -⟩ := h'
  rw [hskip, List.cons.injEq] at hskip'
  obtain ⟨rfl, rfl⟩ := hskip'
  have hfirst := (readFirst_iff.mpr hbegins).symm.trans (readFirst_iff.mpr hbegins')
  simpa using hfirst

lemma readValues_succ_iff :
    readValues (fuel + 1) cs = some values ↔ skipBlanks cs = [] ∧ values = [] ∨
      ∃ v after others, NextValue cs v after ∧ readValues fuel after = some others ∧
        values = v :: others := by
  rw [readValues_iff]
  refine or_congr_right ?_
  constructor
  · rintro ⟨c, tail, v, after, others, hskip, hfirst, hends, hothers, hvalues⟩
    exact ⟨v, after, others, ⟨c, tail, hskip, readFirst_iff.mp hfirst, hends⟩, hothers, hvalues⟩
  · rintro ⟨v, after, others, ⟨c, tail, hskip, hbegins, hends⟩, hothers, hvalues⟩
    exact ⟨c, tail, v, after, others, hskip, readFirst_iff.mpr hbegins, hends, hothers, hvalues⟩

lemma stream_of_readValues (h : readValues fuel cs = some values) :
    ∃ rest, Stream cs values rest ∧ skipBlanks rest = [] := by
  induction fuel generalizing cs values with
  | zero => cases h
  | succ fuel ih =>
    rcases readValues_succ_iff.mp h with ⟨hblank, rfl⟩ | ⟨v, after, others, hnext, hothers, rfl⟩
    · exact ⟨cs, .nil cs, hblank⟩
    · obtain ⟨rest, hmore, hblank⟩ := ih hothers
      exact ⟨rest, .cons hnext hmore, hblank⟩

/-- A step for each character is enough for a stream. -/
lemma Stream.readValues (h : Stream cs values rest) (hblank : skipBlanks rest = [])
    (hfuel : cs.length < fuel) : readValues fuel cs = some values := by
  induction h generalizing fuel with
  | nil cs =>
    obtain ⟨fuel, rfl⟩ : ∃ k, fuel = k + 1 := ⟨fuel - 1, by omega⟩
    exact readValues_succ_iff.mpr (.inl ⟨hblank, rfl⟩)
  | cons next more ih =>
    obtain ⟨fuel, rfl⟩ : ∃ k, fuel = k + 1 := ⟨fuel - 1, by omega⟩
    have hlength := next.length_lt
    exact readValues_succ_iff.mpr (.inr ⟨_, _, _, next, ih hblank (by omega), rfl⟩)

lemma exists_malformed (hfuel : cs.length < fuel) (h : readValues fuel cs = none) :
    ∃ values rest, Stream cs values rest ∧ Malformed rest := by
  induction fuel generalizing cs with
  | zero => omega
  | succ fuel ih =>
    have hblank : skipBlanks cs ≠ [] := by
      intro hblank
      rw [readValues_succ_iff.mpr (.inl ⟨hblank, rfl⟩)] at h
      cases h
    by_cases hnext : ∃ v after, NextValue cs v after
    · obtain ⟨v, after, hnext⟩ := hnext
      have hlength := hnext.length_lt
      have hrest : readValues fuel after = none := by
        by_contra hsome
        obtain ⟨others, hothers⟩ := Option.ne_none_iff_exists'.mp hsome
        rw [readValues_succ_iff.mpr (.inr ⟨v, after, others, hnext, hothers, rfl⟩)] at h
        cases h
      obtain ⟨values, rest, hmore, hmalformed⟩ := ih (by omega) hrest
      exact ⟨v :: values, rest, .cons hnext hmore, hmalformed⟩
    · exact ⟨[], cs, .nil cs, hblank, fun v after hv => hnext ⟨v, after, hv⟩⟩

/-- One malformed value spoils the whole stream. -/
lemma Stream.readValues_malformed (h : Stream cs values rest) (hrest : Malformed rest) :
    Json.readValues fuel cs = none := by
  by_contra hsome
  obtain ⟨all, hall⟩ := Option.ne_none_iff_exists'.mp hsome
  clear hsome
  induction h generalizing fuel all with
  | nil cs =>
    cases fuel with
    | zero => cases hall
    | succ fuel =>
      rcases readValues_succ_iff.mp hall with ⟨hblank, -⟩ | ⟨v, after, -, hnext, -⟩
      · exact hrest.1 hblank
      · exact hrest.2 v after hnext
  | cons next more ih =>
    cases fuel with
    | zero => cases hall
    | succ fuel =>
      rcases readValues_succ_iff.mp hall with ⟨hblank, -⟩ | ⟨v, after, others, hnext, hothers, -⟩
      · exact next.not_blank hblank
      · obtain ⟨rfl, rfl⟩ := next.unique hnext
        exact ih hrest others hothers

/-- A text is read to the values of which it is the stream. -/
theorem readStream?_eq_some_iff {text : String} :
    readStream? text = some values ↔
      ∃ rest, Stream text.toList values rest ∧ skipBlanks rest = [] := by
  constructor
  · exact stream_of_readValues
  · rintro ⟨rest, h, hblank⟩
    exact h.readValues hblank (Nat.lt_succ_self _)

/-- A text is refused if a value of its stream is malformed. -/
theorem readStream?_eq_none_iff {text : String} :
    readStream? text = none ↔ ∃ values rest, Stream text.toList values rest ∧ Malformed rest := by
  constructor
  · exact exists_malformed (Nat.lt_succ_self _)
  · rintro ⟨values, rest, h, hrest⟩
    exact h.readValues_malformed hrest

end Json

/-! ### Documents -/

namespace Catalog

/-- The value is a document as it stands: no array, and an object only if it has a type or neither
of the fields that wrap documents. -/
def IsDocument : Json → Prop
  | .array _ => False
  | .object fields => (fields.lookup "type").isSome ∨
      fields.lookup "docs" = none ∧ fields.lookup "rows" = none
  | _ => True

/-- The documents that a value holds. -/
inductive Unpacks : Json → List Json → Prop
  | items (items : List Json) : Unpacks (.array items) items
  | bulk {fields : List (String × Json)} {docs : List Json} (untyped : fields.lookup "type" = none)
      (hd : fields.lookup "docs" = some (.array docs)) : Unpacks (.object fields) docs
  | listing {fields : List (String × Json)} {rows : List Json}
      (untyped : fields.lookup "type" = none)
      (hd : ∀ docs, fields.lookup "docs" ≠ some (.array docs))
      (hr : fields.lookup "rows" = some (.array rows)) :
      Unpacks (.object fields) (rows.filterMap fun row => row.field? "doc")
  | whole {v : Json} (h : IsDocument v) : Unpacks v [v]
  /-- Fields `docs` and `rows` that are no arrays get lost. -/
  | stripped {fields : List (String × Json)} (untyped : fields.lookup "type" = none)
      (hd : ∀ docs, fields.lookup "docs" ≠ some (.array docs))
      (hr : ∀ rows, fields.lookup "rows" ≠ some (.array rows))
      (h : fields.lookup "docs" ≠ none ∨ fields.lookup "rows" ≠ none) :
      Unpacks (.object fields)
        [.object (fields.filter fun field => field.1 ≠ "docs" ∧ field.1 ≠ "rows")]

lemma withoutField_eq_self {name : String} {fields : List (String × Json)}
    (h : fields.lookup name = none) : withoutField name fields = fields := by
  refine List.filter_eq_self.mpr fun field hfield => ?_
  have hne := List.lookup_eq_none_iff.mp h field hfield
  exact bne_iff_ne.mpr (bne_iff_ne.mp hne).symm

lemma withoutField_withoutField (fields : List (String × Json)) :
    withoutField "rows" (withoutField "docs" fields) =
      fields.filter fun field => field.1 ≠ "docs" ∧ field.1 ≠ "rows" := by
  rw [withoutField, withoutField, List.filter_filter]
  refine List.filter_congr fun field _ => ?_
  rw [Bool.eq_iff_iff]
  simp [and_comm]

lemma envelopeDocuments_typed {fields : List (String × Json)}
    (h : (fields.lookup "type").isSome) : envelopeDocuments (.object fields) = [.object fields] :=
  if_pos h

/-- Without a field `docs` that holds documents the field `rows` is looked at. -/
lemma envelopeDocuments_rows {fields : List (String × Json)} (untyped : fields.lookup "type" = none)
    (hd : ∀ docs, fields.lookup "docs" ≠ some (.array docs)) :
    envelopeDocuments (.object fields) =
      match fields.lookup "rows" with
      | some (.array rows) => rows.filterMap rowDocument?
      | _ => [.object (withoutField "rows" (withoutField "docs" fields))] := by
  have hrows : (withoutField "docs" fields).lookup "rows" = fields.lookup "rows" :=
    lookup_filter_ne (by decide) fields
  unfold envelopeDocuments
  dsimp only
  rw [hrows, if_neg (by simp [untyped])]
  cases hdocs : fields.lookup "docs" with
  | none => rfl
  | some value =>
    cases value with
    | array docs => exact absurd hdocs (hd docs)
    | _ => rfl

lemma envelopeDocuments_stripped {fields : List (String × Json)}
    (untyped : fields.lookup "type" = none)
    (hd : ∀ docs, fields.lookup "docs" ≠ some (.array docs))
    (hr : ∀ rows, fields.lookup "rows" ≠ some (.array rows)) :
    envelopeDocuments (.object fields) =
      [.object (withoutField "rows" (withoutField "docs" fields))] := by
  rw [envelopeDocuments_rows untyped hd]
  split
  · next rows hrows => exact absurd hrows (hr rows)
  · rfl

lemma Unpacks.eq_envelopeDocuments {v : Json} {documents : List Json} (h : Unpacks v documents) :
    documents = envelopeDocuments v := by
  cases h with
  | items items => rfl
  | bulk untyped hd => simp [envelopeDocuments, untyped, hd]
  | listing untyped hd hr =>
    rw [envelopeDocuments_rows untyped hd, hr]
    rfl
  | stripped untyped hd hr h =>
    rw [envelopeDocuments_stripped untyped hd hr, withoutField_withoutField]
  | whole h =>
    cases v with
    | array items => exact h.elim
    | object fields =>
      by_cases htype : (fields.lookup "type").isSome
      · exact (envelopeDocuments_typed htype).symm
      · obtain ⟨hdocs, hrows⟩ := h.resolve_left htype
        have untyped : fields.lookup "type" = none := Option.not_isSome_iff_eq_none.mp htype
        rw [envelopeDocuments_stripped untyped (by simp [hdocs]) (by simp [hrows]),
          withoutField_eq_self hdocs, withoutField_eq_self hrows]
    | _ => rfl

lemma unpacks_neither {fields : List (String × Json)} (untyped : fields.lookup "type" = none)
    (hd : ∀ docs, fields.lookup "docs" ≠ some (.array docs))
    (hr : ∀ rows, fields.lookup "rows" ≠ some (.array rows)) :
    Unpacks (.object fields) (envelopeDocuments (.object fields)) := by
  rw [envelopeDocuments_stripped untyped hd hr]
  by_cases hplain : fields.lookup "docs" = none ∧ fields.lookup "rows" = none
  · obtain ⟨hdocs, hrows⟩ := hplain
    rw [withoutField_eq_self hdocs, withoutField_eq_self hrows]
    exact .whole (.inr ⟨hdocs, hrows⟩)
  · rw [withoutField_withoutField]
    exact .stripped untyped hd hr (not_and_or.mp hplain)

lemma unpacks_untyped {fields : List (String × Json)} (untyped : fields.lookup "type" = none) :
    Unpacks (.object fields) (envelopeDocuments (.object fields)) := by
  by_cases hdocs : ∃ docs, fields.lookup "docs" = some (.array docs)
  · obtain ⟨docs, hd⟩ := hdocs
    have hbulk : envelopeDocuments (.object fields) = docs := by
      simp [envelopeDocuments, untyped, hd]
    rw [hbulk]
    exact .bulk untyped hd
  · have hd := not_exists.mp hdocs
    by_cases hrows : ∃ rows, fields.lookup "rows" = some (.array rows)
    · obtain ⟨rows, hr⟩ := hrows
      rw [envelopeDocuments_rows untyped hd, hr]
      exact .listing untyped hd hr
    · exact unpacks_neither untyped hd (not_exists.mp hrows)

/-- A value holds the documents that are taken out of it, and no others. -/
lemma unpacks_iff {v : Json} {documents : List Json} :
    Unpacks v documents ↔ documents = envelopeDocuments v := by
  refine ⟨Unpacks.eq_envelopeDocuments, ?_⟩
  rintro rfl
  cases v with
  | array items => exact .items items
  | object fields =>
    by_cases htype : (fields.lookup "type").isSome
    · rw [envelopeDocuments_typed htype]
      exact .whole (.inl htype)
    · exact unpacks_untyped (Option.not_isSome_iff_eq_none.mp htype)
  | _ => exact .whole trivial

lemma unpacks_all_iff {values : List Json} {parts : List (List Json)} :
    List.Forall₂ Unpacks values parts ↔ parts = values.map envelopeDocuments := by
  constructor
  · intro h
    induction h with
    | nil => rfl
    | cons hv _ ih => rw [List.map_cons, ← ih, unpacks_iff.mp hv]
  · rintro rfl
    induction values with
    | nil => exact .nil
    | cons v values ih => exact .cons (unpacks_iff.mpr rfl) ih

/-- A text has documents exactly if it is a stream of values to its end, and they are what the values
hold: the items of an array; of an object without a type the items of `docs`, or else the documents
in `rows`; and every other value itself. It is unchanged, unless it is an object without a type and
has a field `docs` or `rows` that is no array: then it is left without these fields. A text in which
a value is malformed has no documents at all. -/
theorem documents_of_text (text : String) :
    (∀ documents, readDocuments? text = some documents ↔
      ∃ values parts rest, Json.Stream text.toList values rest ∧ Json.skipBlanks rest = [] ∧
        List.Forall₂ Unpacks values parts ∧ documents = parts.flatten) ∧
    (readDocuments? text = none ↔
      ∃ values rest, Json.Stream text.toList values rest ∧ Json.Malformed rest) := by
  refine ⟨fun documents => ?_, ?_⟩
  · rw [readDocuments?, Option.map_eq_some_iff]
    constructor
    · rintro ⟨values, hvalues, rfl⟩
      obtain ⟨rest, hstream, hblank⟩ := Json.readStream?_eq_some_iff.mp hvalues
      exact ⟨values, _, rest, hstream, hblank, unpacks_all_iff.mpr rfl, List.flatMap_def⟩
    · rintro ⟨values, parts, rest, hstream, hblank, hparts, rfl⟩
      refine ⟨values, Json.readStream?_eq_some_iff.mpr ⟨rest, hstream, hblank⟩, ?_⟩
      rw [unpacks_all_iff.mp hparts, List.flatMap_def]
  · rw [readDocuments?, Option.map_eq_none_iff, Json.readStream?_eq_none_iff]

/-- An object of which a field gets lost: `docs` is looked at, but is no array. -/
theorem documents_of_text_stripped :
    let text := "\x7b\"docs\":5,\"name\":\"M\"\x7d"
    let value : Json := .object [("docs", .number (.integer ⟨5, by decide, by decide⟩)),
      ("name", .string "M")]
    Json.readStream? text = some [value] ∧
      readDocuments? text = some [.object [("name", .string "M")]] ∧
      readDocuments? text ≠ some [value] := by
  decide +kernel

end Catalog

end SignatureSearch
