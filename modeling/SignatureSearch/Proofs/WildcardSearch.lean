import Mathlib
import SignatureSearch.Proofs.SignatureRows

/-! Searches with a wildcard at one end, and searches for all signatures. The sentinels of the scan
enclose the keys with one more type at least and no others, so the answer is all signatures of that
form. -/
namespace SignatureSearch

/-- The prototype ends in `rest`, with at least one type in front. -/
def EndsIn (rest prototype : List TypeNode) : Prop :=
  ∃ front, front ≠ [] ∧ prototype = front ++ rest

/-- The prototype begins with `front`, with at least one type behind. -/
def BeginsWith (front prototype : List TypeNode) : Prop :=
  ∃ rest, rest ≠ [] ∧ prototype = front ++ rest

lemma beginsWith_iff (front prototype : List TypeNode) :
    BeginsWith front prototype ↔ front <+: prototype ∧ front ≠ prototype := by
  constructor
  · rintro ⟨rest, hne, rfl⟩
    exact ⟨List.prefix_append front rest, fun h => hne (by simpa using h)⟩
  · rintro ⟨⟨rest, rfl⟩, hne⟩
    exact ⟨rest, fun h => hne (by simp [h]), rfl⟩

lemma endsIn_iff (rest prototype : List TypeNode) :
    EndsIn rest prototype ↔ BeginsWith rest.reverse prototype.reverse := by
  constructor
  · rintro ⟨front, hne, rfl⟩
    exact ⟨front.reverse, by simpa using hne, List.reverse_append⟩
  · rintro ⟨more, hne, h⟩
    refine ⟨more.reverse, by simpa using hne, ?_⟩
    rw [← List.reverse_reverse prototype, h, List.reverse_append, List.reverse_reverse]

instance (front prototype : List TypeNode) : Decidable (BeginsWith front prototype) :=
  decidable_of_iff _ (beginsWith_iff front prototype).symm

instance (rest prototype : List TypeNode) : Decidable (EndsIn rest prototype) :=
  decidable_of_iff _ (endsIn_iff rest prototype).symm

instance : (v : Json) → Decidable v.BelowHigh
  | .object ((name, _) :: _) =>
    inferInstanceAs (Decidable (Json.compareText name (String.ofList [highSuffix]) = .lt))
  | .object [] | .null | .bool _ | .number _ | .string _ | .array _ => isTrue trivial

/-- The scan for continuations selects the signatures that begin so in the order of the view. -/
lemma filter_continuations (reverse : Bool) {front : List TypeNode} (hf : TypeNode.AllPlain front)
    {documents : List Json}
    (hb : ∀ s ∈ signatures documents, ∀ node ∈ s.1, node.toJson.BelowHigh) (limit : ℕ) :
    ((sortedSignatures reverse (signatures documents)).filter fun s =>
      (Plan.continuations (front.map TypeNode.toJson) limit).covers
        (TypeNode.signatureKey (turned reverse s.1)).encode) =
      (sortedSignatures reverse (signatures documents)).filter fun s =>
        BeginsWith front (turned reverse s.1) := by
  refine List.filter_congr fun s hs => ?_
  have hmem : s ∈ signatures documents := List.mem_mergeSort.mp hs
  have hturned := (canonical_of_signature hmem).mono (turned_subset reverse s.1)
  have hbelow : ∀ node ∈ turned reverse s.1, node.toJson.BelowHigh :=
    fun node hnode => hb s hmem node (turned_subset reverse s.1 hnode)
  rw [Bool.eq_iff_iff, decide_eq_true_iff]
  exact covers_signatureKey hf hturned hbelow limit

/-- A leading wildcard finds the signatures that end in the rest of the query, in the order of their
types from the last to the first; any other query with a closing wildcard finds those that begin
with the rest of it, in the order of their types. Every signature in the documents is found as often
as it occurs, equal ones in the order of the documents, up to the limit. -/
theorem search_wildcard (documents : List Json) (batchSize limit : ℕ) (options : SearchOptions)
    {text : String} {prototype : List TypeNode}
    (hq : Query.parse text = .ok ⟨none, some prototype⟩)
    (hb : ∀ s ∈ signatures documents, ∀ node ∈ s.1, node.toJson.BelowHigh) :
    (∀ rest, prototype = .atom TypeNode.wildcard :: rest →
      ((MemoryStore.empty.write documents batchSize).1.engine limit).search text options =
        .ok (signatureResponse text options prototype
          (((sortedSignatures true (signatures documents)).filter fun s => EndsIn rest s.1).take
            (options.effectiveLimit limit)))) ∧
    (∀ front, prototype = front ++ [.atom TypeNode.wildcard] →
      (∀ rest, prototype ≠ .atom TypeNode.wildcard :: rest) →
      ((MemoryStore.empty.write documents batchSize).1.engine limit).search text options =
        .ok (signatureResponse text options prototype
          (((sortedSignatures false (signatures documents)).filter fun s =>
            BeginsWith front s.1).take (options.effectiveLimit limit)))) := by
  have hplain := Query.plain_of_parse hq
  constructor
  · rintro rest rfl
    have hrest : TypeNode.AllPlain rest.reverse :=
      hplain.mono (List.reverse_subset.mpr (List.subset_cons_self _ rest))
    have hends : ((sortedSignatures true (signatures documents)).filter fun s =>
        BeginsWith rest.reverse (turned true s.1)) =
        (sortedSignatures true (signatures documents)).filter fun s => EndsIn rest s.1 :=
      List.filter_congr fun s _ => decide_eq_decide.mpr (endsIn_iff rest s.1).symm
    rw [search_signature hq documents batchSize limit options (ofPrototype_leading rest _),
      filter_continuations true hrest hb, hends]
    rfl
  · rintro front rfl hfirst
    have hfront : TypeNode.AllPlain front := hplain.mono (List.subset_append_left front _)
    have hscan : closingScan front (.atom TypeNode.wildcard) (options.effectiveLimit limit) =
        Plan.continuations (front.map TypeNode.toJson) (options.effectiveLimit limit) := rfl
    rw [search_signature hq documents batchSize limit options
      (ofPrototype_closing front _ _ hfirst), hscan, filter_continuations false hfront hb]
    rfl

/-- Of the sample, `_ -> b` finds `g` and `h`, and `a -> _` finds `g` but not `f`: a wildcard stands
for at least one type. -/
theorem search_wildcard_sample :
    ((MemoryStore.empty.write [sampleType.toJson] 2).1.engine 10).search ": _ -> b" .none =
      .ok ⟨": _ -> b", none, none, some "_ -> b", some (.bySignature
        [⟨.array [.string "a", .string "b"],
          .object [("name", .string "g"), ("type", sampleOwner)], some "a -> b"⟩,
        ⟨.array [.string "c", .string "b"],
          .object [("name", .string "h"), ("type", sampleOwner)], some "c -> b"⟩])⟩ ∧
    ((MemoryStore.empty.write [sampleType.toJson] 2).1.engine 10).search ": a -> _" .none =
      .ok ⟨": a -> _", none, none, some "a -> _", some (.bySignature
        [⟨.array [.string "a", .string "b"],
          .object [("name", .string "g"), ("type", sampleOwner)], some "a -> b"⟩])⟩ := by
  have hsorted (reverse : Bool) : sortedSignatures reverse (signatures [sampleType.toJson]) =
      signatures [sampleType.toJson] :=
    List.mergeSort_of_pairwise (by cases reverse <;> decide)
  have hleading := (search_wildcard [sampleType.toJson] 2 10 .none
    (show Query.parse ": _ -> b" = .ok ⟨none, some [.atom "_", .atom "b"]⟩ from rfl)
    (by decide)).1 [.atom "b"] rfl
  have hclosing := (search_wildcard [sampleType.toJson] 2 10 .none
    (show Query.parse ": a -> _" = .ok ⟨none, some [.atom "a", .atom "_"]⟩ from rfl)
    (by decide)).2 [.atom "a"] rfl (by simp [TypeNode.wildcard])
  rw [hsorted] at hleading hclosing
  exact ⟨hleading.trans (by decide), hclosing.trans (by decide)⟩

/-! ### All signatures -/

lemma beginsWith_nil (prototype : List TypeNode) : BeginsWith [] prototype ↔ prototype ≠ [] := by
  simp [beginsWith_iff, eq_comm]

/-- A query of a signature without types finds the signatures that have a type. -/
lemma search_nil (documents : List Json) (batchSize limit : ℕ) (options : SearchOptions)
    {text : String} (hq : Query.parse text = .ok ⟨none, some []⟩)
    (hb : ∀ s ∈ signatures documents, ∀ node ∈ s.1, node.toJson.BelowHigh) :
    ((MemoryStore.empty.write documents batchSize).1.engine limit).search text options =
      .ok (signatureResponse text options []
        (((sortedSignatures false (signatures documents)).filter fun s => s.1 ≠ []).take
          (options.effectiveLimit limit))) := by
  have hnil : TypeNode.AllPlain [] := trivial
  have hplan : Plan.ofPrototype [] (options.effectiveLimit limit) =
      turnedPlan false (Plan.continuations (([] : List TypeNode).map TypeNode.toJson)
        (options.effectiveLimit limit)) := rfl
  have hall : ((sortedSignatures false (signatures documents)).filter fun s =>
      BeginsWith [] (turned false s.1)) =
      (sortedSignatures false (signatures documents)).filter fun s => s.1 ≠ [] :=
    List.filter_congr fun s _ => decide_eq_decide.mpr (beginsWith_nil s.1)
  rw [search_signature hq documents batchSize limit options hplan,
    filter_continuations false hnil hb, hall]
  rfl

/-- A query of a signature without types finds every signature in the documents that has a type,
each as often as it occurs, in the order of their types, equal ones in the order of the documents.
A signature without types stands below the least key of the scan, and is the only one left out. -/
theorem search_universal (documents : List Json) (batchSize limit : ℕ) (options : SearchOptions)
    {text : String} (hq : Query.parse text = .ok ⟨none, some []⟩)
    (hb : ∀ s ∈ signatures documents, ∀ node ∈ s.1, node.toJson.BelowHigh)
    (hlimit : (signatures documents).length ≤ options.effectiveLimit limit) :
    ((MemoryStore.empty.write documents batchSize).1.engine limit).search text options =
        .ok (signatureResponse text options []
          ((sortedSignatures false (signatures documents)).filter fun s => s.1 ≠ [])) ∧
      ((∀ s ∈ signatures documents, s.1 ≠ []) →
        ((MemoryStore.empty.write documents batchSize).1.engine limit).search text options =
          .ok (signatureResponse text options []
            (sortedSignatures false (signatures documents)))) := by
  have hanswer := search_nil documents batchSize limit options hq hb
  rw [List.take_of_length_le ((length_filter_sorted_le false _ _).trans hlimit)] at hanswer
  refine ⟨hanswer, fun htypes => ?_⟩
  have hkept : ((sortedSignatures false (signatures documents)).filter fun s => s.1 ≠ []) =
      sortedSignatures false (signatures documents) :=
    List.filter_eq_self.mpr fun s hs => decide_eq_true (htypes s (List.mem_mergeSort.mp hs))
  rw [hanswer, hkept]

/-- Of the sample, `: ` finds all three methods. -/
theorem search_universal_sample :
    ((MemoryStore.empty.write [sampleType.toJson] 2).1.engine 10).search ": " .none =
      .ok ⟨": ", none, none, some "", some (.bySignature
        [⟨.array [.string "a"], .object [("name", .string "f"), ("type", sampleOwner)], some "a"⟩,
        ⟨.array [.string "a", .string "b"],
          .object [("name", .string "g"), ("type", sampleOwner)], some "a -> b"⟩,
        ⟨.array [.string "c", .string "b"],
          .object [("name", .string "h"), ("type", sampleOwner)], some "c -> b"⟩])⟩ := by
  have hsorted : sortedSignatures false (signatures [sampleType.toJson]) =
      signatures [sampleType.toJson] := List.mergeSort_of_pairwise (by decide)
  have hanswer := (search_universal [sampleType.toJson] 2 10 .none
    (show Query.parse ": " = .ok ⟨none, some []⟩ from rfl) (by decide) (by decide)).2 (by decide)
  rw [hsorted] at hanswer
  exact hanswer.trans (by decide)

def typelessMethod : CatalogDocument := { sampleType with methods := [⟨"f", some []⟩] }

/-- The method has a signature, but `: ` does not find it. -/
theorem search_universal_typeless :
    Query.parse ": " = .ok ⟨none, some []⟩ ∧
      signatures [typelessMethod.toJson] =
        [([], .object [("name", .string "f"), ("type", sampleOwner)])] ∧
      (signatures [typelessMethod.toJson]).length ≤ SearchOptions.none.effectiveLimit 10 ∧
      ((MemoryStore.empty.write [typelessMethod.toJson] 2).1.engine 10).search ": " .none =
        .ok (signatureResponse ": " .none [] []) := by
  have hsignatures : signatures [typelessMethod.toJson] =
      [([], .object [("name", .string "f"), ("type", sampleOwner)])] := rfl
  have hanswer := search_nil [typelessMethod.toJson] 2 10 .none
    (show Query.parse ": " = .ok ⟨none, some []⟩ from rfl) (by decide)
  rw [hsignatures, sortedSignatures, List.mergeSort_singleton] at hanswer
  exact ⟨rfl, hsignatures, by decide, hanswer⟩

end SignatureSearch
