import Mathlib
import SignatureSearch.Proofs.NameRanges
import SignatureSearch.Proofs.SignatureRows

/-! Searches for signatures by their last type, without wildcards at the ends. A name at the end
stands for the names that continue it, with anything behind; any other type stands for itself at the
end of the signature. -/
namespace SignatureSearch

/-- The first type is a name in the range of `name`: one that continues it, or the upper bound with
nothing behind. -/
def BeginsInRange (name : String) : List TypeNode → Prop
  | .atom s :: rest => Json.Continues name s ∨ s = upperBound name ∧ rest = []
  | _ => False

instance (name : String) : (nodes : List TypeNode) → Decidable (BeginsInRange name nodes)
  | .atom s :: rest =>
    inferInstanceAs (Decidable (Json.Continues name s ∨ s = upperBound name ∧ rest = []))
  | [] | .list _ :: _ | .tuple _ :: _ | .array _ :: _ | .generic _ _ :: _ | .byRef _ :: _
  | .raw _ :: _ => isFalse id

/-- The prototype begins with `front`, and a name in the range of `name` comes next. -/
def NamedBehind (front : List TypeNode) (name : String) (prototype : List TypeNode) : Prop :=
  ∃ more, prototype = front ++ more ∧ BeginsInRange name more

lemma namedBehind_iff (front : List TypeNode) (name : String) (prototype : List TypeNode) :
    NamedBehind front name prototype ↔
      front <+: prototype ∧ BeginsInRange name (prototype.drop front.length) := by
  constructor
  · rintro ⟨more, rfl, h⟩
    rw [List.drop_left]
    exact ⟨List.prefix_append front more, h⟩
  · rintro ⟨⟨more, rfl⟩, h⟩
    rw [List.drop_left] at h
    exact ⟨more, rfl, h⟩

instance (front : List TypeNode) (name : String) (prototype : List TypeNode) :
    Decidable (NamedBehind front name prototype) :=
  decidable_of_iff _ (namedBehind_iff front name prototype).symm

/-- A structured type never has the JSON form of a name. -/
lemma toJson_eq_string {node : TypeNode} (h : node.Canonical) (s : String) :
    node.toJson = .string s ↔ node = .atom s := by
  constructor
  · intro hs
    rw [← TypeNode.ofJson_toJson node h, hs]
    rfl
  · rintro rfl
    rfl

lemma inNameRange_itemsToJson {nodes : List TypeNode} (h : TypeNode.AllCanonical nodes)
    (name : String) :
    Json.InNameRange name (TypeNode.itemsToJson nodes) ↔ BeginsInRange name nodes := by
  cases nodes with
  | nil => simp [Json.InNameRange, TypeNode.itemsToJson, BeginsInRange]
  | cons node rest =>
    have hstring := toJson_eq_string h.1
    have hrest : TypeNode.itemsToJson rest = [] ↔ rest = [] := by
      simp [TypeNode.itemsToJson_eq]
    constructor
    · rintro ⟨s, items, hitems, hs⟩
      rw [TypeNode.itemsToJson, List.cons.injEq, hstring] at hitems
      obtain ⟨rfl, rfl⟩ := hitems
      rwa [hrest] at hs
    · intro hbegins
      cases node with
      | atom s =>
        refine ⟨s, TypeNode.itemsToJson rest, rfl, ?_⟩
        rw [hrest]
        exact hbegins
      | _ => exact absurd hbegins id

/-- The signatures in the scan for a last type that is a name. -/
lemma covers_closing_name {front prototype : List TypeNode} (hf : TypeNode.AllPlain front)
    (hp : TypeNode.AllCanonical prototype) {name : String} (hname : name ≠ TypeNode.wildcard)
    (limit : ℕ) :
    (closingScan front (.atom name) limit).covers (TypeNode.signatureKey prototype).encode = true ↔
      NamedBehind front name prototype := by
  have hwild : ¬(TypeNode.atom name).isWildcard = true := by
    rw [isWildcard_iff, TypeNode.atom.injEq]
    exact hname
  have hfree := TypeNode.AllPlain.numberFree front hf
  rw [TypeNode.itemsToJson_eq] at hfree
  unfold closingScan
  rw [if_neg hwild, TypeNode.signatureKey, Json.covers_name hfree]
  simp only [itemsToJson_eq_append hf hp]
  constructor
  · rintro ⟨-, ⟨more, rfl, rfl⟩, hrange⟩
    have hmore := hp.mono (List.subset_append_right front more)
    exact ⟨more, rfl, (inNameRange_itemsToJson hmore name).mp hrange⟩
  · rintro ⟨more, rfl, hbegins⟩
    have hmore := hp.mono (List.subset_append_right front more)
    exact ⟨_, ⟨more, rfl, rfl⟩, (inNameRange_itemsToJson hmore name).mpr hbegins⟩

/-- The signatures in the scan for a last type that is no name. -/
lemma covers_closing_structured {front prototype : List TypeNode} {last : TypeNode}
    (hf : TypeNode.AllPlain (front ++ [last])) (hp : TypeNode.AllCanonical prototype)
    (hlast : ∀ name, last ≠ .atom name) (limit : ℕ) :
    (closingScan front last limit).covers (TypeNode.signatureKey prototype).encode = true ↔
      prototype = front ++ [last] := by
  have hscan : closingScan front last limit =
      .exact (TypeNode.signatureKey (front ++ [last])) limit := by
    have hkey : TypeNode.signatureKey (front ++ [last]) =
        .array (front.map TypeNode.toJson ++ [last.toJson]) := by
      rw [TypeNode.signatureKey, TypeNode.itemsToJson_eq, List.map_append, List.map_singleton]
    rw [hkey]
    cases last with
    | atom name => exact absurd rfl (hlast name)
    | _ => rfl
  have hfree : (TypeNode.signatureKey (front ++ [last])).NumberFree :=
    TypeNode.AllPlain.numberFree _ hf
  rw [hscan, Json.covers_exact_iff hfree,
    TypeNode.signatureKey_inj hp (TypeNode.AllPlain.canonical _ hf)]

/-- A query whose first and last types are no wildcards finds, if its last type is a name, the
signatures that have the types in front of it in common with the query, and then a name in the range
of that name; and if its last type is no name, the signatures that equal the query. All of them are
found, in the order of their keys, equal ones in the order of the documents. -/
theorem search_last_type (documents : List Json) (batchSize limit : ℕ) (options : SearchOptions)
    {text : String} {front : List TypeNode} {last : TypeNode}
    (hq : Query.parse text = .ok ⟨none, some (front ++ [last])⟩)
    (hfirst : ∀ rest, front ++ [last] ≠ .atom TypeNode.wildcard :: rest)
    (hlast : last ≠ .atom TypeNode.wildcard)
    (hlimit : (signatures documents).length ≤ options.effectiveLimit limit) :
    (∀ name, last = .atom name →
      ((MemoryStore.empty.write documents batchSize).1.engine limit).search text options =
        .ok (signatureResponse text options (front ++ [last])
          ((sortedSignatures false (signatures documents)).filter fun s =>
            NamedBehind front name s.1))) ∧
    ((∀ name, last ≠ .atom name) →
      ((MemoryStore.empty.write documents batchSize).1.engine limit).search text options =
        .ok (signatureResponse text options (front ++ [last])
          ((sortedSignatures false (signatures documents)).filter fun s =>
            s.1 = front ++ [last]))) := by
  have hplain := Query.plain_of_parse hq
  have hfront : TypeNode.AllPlain front := hplain.mono (List.subset_append_left front _)
  have hanswer := search_signature_whole hq documents batchSize limit options
    (ofPrototype_closing front last _ hfirst) hlimit
  have hcanonical : ∀ s ∈ sortedSignatures false (signatures documents),
      TypeNode.AllCanonical s.1 := fun s hs => canonical_of_signature (List.mem_mergeSort.mp hs)
  constructor
  · rintro name rfl
    have hname : name ≠ TypeNode.wildcard := fun h => hlast (by rw [h])
    rw [hanswer]
    refine congrArg (fun found => Except.ok (signatureResponse text options _ found))
      (List.filter_congr fun s hs => ?_)
    rw [Bool.eq_iff_iff, decide_eq_true_iff]
    exact covers_closing_name hfront (hcanonical s hs) hname _
  · intro hstructured
    rw [hanswer]
    refine congrArg (fun found => Except.ok (signatureResponse text options _ found))
      (List.filter_congr fun s hs => ?_)
    rw [Bool.eq_iff_iff, decide_eq_true_iff]
    exact covers_closing_structured hplain (hcanonical s hs) hstructured _

def listType : CatalogDocument :=
  { sampleType with
    methods := [⟨"h", some [.keyword "a", .keyword "b", .keyword "c"]⟩,
      ⟨"f", some [.keyword "a", .keyword "bar"]⟩,
      ⟨"g", some [.keyword "a", .genericApp (.named "list") [.keyword "b"]]⟩] }

/-- Of these, `a -> b` finds `h` and `f`, and `a -> b list` finds `g`. -/
theorem search_last_type_sample :
    ((MemoryStore.empty.write [listType.toJson] 2).1.engine 10).search ": a -> b" .none =
      .ok ⟨": a -> b", none, none, some "a -> b", some (.bySignature
        [⟨.array [.string "a", .string "b", .string "c"],
          .object [("name", .string "h"), ("type", sampleOwner)], some "a -> b -> c"⟩,
        ⟨.array [.string "a", .string "bar"],
          .object [("name", .string "f"), ("type", sampleOwner)], some "a -> bar"⟩])⟩ ∧
    ((MemoryStore.empty.write [listType.toJson] 2).1.engine 10).search ": a -> b list" .none =
      .ok ⟨": a -> b list", none, none, some "a -> b list", some (.bySignature
        [⟨.array [.string "a", .object [("args", .array [.string "b"]),
            ("tyCon", .string "list")]],
          .object [("name", .string "g"), ("type", sampleOwner)], some "a -> b list"⟩])⟩ := by
  have hsorted : sortedSignatures false (signatures [listType.toJson]) =
      signatures [listType.toJson] := List.mergeSort_of_pairwise (by decide)
  have hname := (search_last_type [listType.toJson] 2 10 .none
    (show Query.parse ": a -> b" = .ok ⟨none, some ([.atom "a"] ++ [.atom "b"])⟩ from rfl)
    (by simp [TypeNode.wildcard]) (by simp [TypeNode.wildcard]) (by decide)).1 "b" rfl
  have hlist := (search_last_type [listType.toJson] 2 10 .none
    (show Query.parse ": a -> b list" = .ok ⟨none, some
      ([.atom "a"] ++ [.generic (.atom "list") [.atom "b"]])⟩ from rfl)
    (by simp [TypeNode.wildcard]) (by simp) (by decide)).2 (by simp)
  rw [hsorted] at hname hlist
  exact ⟨hname.trans (by decide), hlist.trans (by decide)⟩

end SignatureSearch
