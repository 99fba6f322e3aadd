import Mathlib
import SignatureSearch.Proofs.KeyRanges
import SignatureSearch.Proofs.MemoryScan
import SignatureSearch.Proofs.ParsedNodes

/-! Rows of signatures. A search by signature visits the signatures of the documents in the order of
their keys, in reading order or from the last type to the first, and shows those in its range. -/
namespace SignatureSearch

/-- The signatures of methods and properties, in the order of the documents, with the values of
their rows: the name of the member and the type that owns it. -/
def signatures (documents : List Json) : List (List TypeNode × Json) :=
  (documents.filterMap CatalogDocument.converted?).flatMap fun d =>
    d.signatureMembers.filterMap fun member => member.prototype.map fun nodes =>
      (CatalogNode.normalizeAll nodes,
        .object [("name", .string member.name), ("type", d.key.toJson)])

def shownSignature (s : List TypeNode × Json) : ResultRow :=
  ⟨TypeNode.signatureKey s.1, s.2, some (TypeNode.signatureText s.1)⟩

/-- The answer to a search for a signature. -/
def signatureResponse (text : String) (options : SearchOptions) (prototype : List TypeNode)
    (found : List (List TypeNode × Json)) : SearchResponse :=
  ⟨text, options.token, none, some (TypeNode.signatureText prototype),
    some (.bySignature (found.map shownSignature))⟩

/-- The types of a signature in the order in which a view is keyed. -/
def turned (reverse : Bool) (prototype : List TypeNode) : List TypeNode :=
  if reverse then prototype.reverse else prototype

def turnedRow (reverse : Bool) (s : List TypeNode × Json) : Row :=
  ⟨TypeNode.signatureKey (turned reverse s.1), s.2⟩

def turnedPlan (reverse : Bool) (scan : Scan) : Plan :=
  ⟨if reverse then .bySignatureReverse else .bySignature, .bySignature reverse, scan⟩

/-- Signatures in the order of their keys; equal ones stay as they are. -/
def sortedSignatures (reverse : Bool) (list : List (List TypeNode × Json)) :
    List (List TypeNode × Json) :=
  list.mergeSort fun a b => (TypeNode.signatureKey (turned reverse a.1)).collatesUpTo
    (TypeNode.signatureKey (turned reverse b.1))

lemma turned_turned (reverse : Bool) (prototype : List TypeNode) :
    turned reverse (turned reverse prototype) = prototype := by
  cases reverse <;> simp [turned]

lemma turned_subset (reverse : Bool) (prototype : List TypeNode) :
    turned reverse prototype ⊆ prototype := by
  cases reverse <;> simp [turned]

namespace TypeNode

lemma itemsToJson_eq (nodes : List TypeNode) : itemsToJson nodes = nodes.map toJson := by
  induction nodes with
  | nil => rfl
  | cons node rest ih => rw [itemsToJson, ih, List.map_cons]

lemma ofItems_eq (items : List Json) : ofItems items = items.map ofJson := by
  induction items with
  | nil => rfl
  | cons item rest ih => rw [ofItems, ih, List.map_cons]

lemma keyNodes_signatureKey {nodes : List TypeNode} (h : AllCanonical nodes) :
    Plan.keyNodes (signatureKey nodes) = nodes := ofItems_itemsToJson nodes h

lemma signatureKey_inj {a b : List TypeNode} (ha : AllCanonical a)
    (hb : AllCanonical b) :
    signatureKey a = signatureKey b ↔ a = b := by
  constructor
  · intro h
    rw [← keyNodes_signatureKey ha, h, keyNodes_signatureKey hb]
  · rintro rfl
    rfl

end TypeNode

lemma signatureRow_turned (reverse : Bool) {s : List TypeNode × Json}
    (h : TypeNode.AllCanonical s.1) :
    Plan.signatureRow reverse (turnedRow reverse s) = shownSignature s := by
  have hnodes := TypeNode.keyNodes_signatureKey (h.mono (turned_subset reverse s.1))
  have hback := turned_turned reverse s.1
  unfold Plan.signatureRow turnedRow
  rw [hnodes]
  cases reverse
  · rfl
  · simp only [if_true]
    rw [show (turned true s.1).reverse = s.1 from hback]
    rfl

lemma canonical_of_signatureOf {owner : MemberKey} {member : CatalogMember}
    {s : List TypeNode × Json} (h : DocumentRows.signatureOf? owner member = some s) :
    TypeNode.AllCanonical s.1 := by
  obtain ⟨nodes, -, rfl⟩ := Option.map_eq_some_iff.mp h
  exact CatalogNode.canonical_normalizeAll nodes

lemma canonical_of_signature {documents : List Json} {s : List TypeNode × Json}
    (h : s ∈ signatures documents) : TypeNode.AllCanonical s.1 := by
  obtain ⟨d, -, hs⟩ := List.mem_flatMap.mp h
  obtain ⟨member, -, hmember⟩ := List.mem_filterMap.mp hs
  exact canonical_of_signatureOf hmember

lemma length_filter_sorted_le (reverse : Bool) (list : List (List TypeNode × Json))
    (found : List TypeNode × Json → Bool) :
    ((sortedSignatures reverse list).filter found).length ≤ list.length := by
  refine (List.length_filter_le _ _).trans ?_
  rw [sortedSignatures, List.length_mergeSort]

lemma documentRows_signature (reverse : Bool) (scan : Scan) (documents : List Json) :
    documentRows (turnedPlan reverse scan).view documents =
      (signatures documents).map (turnedRow reverse) := by
  unfold documentRows signatures
  rw [List.map_flatMap]
  cases reverse <;> rfl

lemma answer_map {α : Type} (scan : Scan) (row : α → Row) (list : List α) :
    scan.answer (list.map row) =
      (((list.mergeSort fun a b => (row a).key.collatesUpTo (row b).key).filter fun a =>
        scan.covers (row a).key.encode).take scan.limit).map row := by
  have hsort : ((list.map row).mergeSort fun a b => a.key.collatesUpTo b.key) =
      (list.mergeSort fun a b => (row a).key.collatesUpTo (row b).key).map row := by
    rw [List.map_mergeSort]
    intro a _ b _
    rfl
  rw [Scan.answer, hsort, List.map_take, List.filter_map]
  rfl

/-- A plan for a signature asks for as many rows as are wanted. -/
lemma Plan.limit_ofPrototype (prototype : List TypeNode) (limit : ℕ) :
    (Plan.ofPrototype prototype limit).scan.limit = limit := by
  cases prototype with
  | nil => rfl
  | cons first rest =>
    rw [Plan.ofPrototype]
    split_ifs
    · rfl
    · dsimp only
      split_ifs
      · rfl
      · split <;> rfl

/-- A search for a signature shows the signatures in the range of its scan, in the order of the view
and up to the limit. -/
theorem search_signature {text : String} {prototype : List TypeNode}
    (hq : Query.parse text = .ok ⟨none, some prototype⟩) (documents : List Json) (batchSize : ℕ)
    (limit : ℕ) (options : SearchOptions) {reverse : Bool} {scan : Scan}
    (hplan : Plan.ofPrototype prototype (options.effectiveLimit limit) =
      turnedPlan reverse scan) :
    ((MemoryStore.empty.write documents batchSize).1.engine limit).search text options =
      .ok (signatureResponse text options prototype
        (((sortedSignatures reverse (signatures documents)).filter fun s =>
          scan.covers (TypeNode.signatureKey (turned reverse s.1)).encode).take scan.limit)) := by
  have hrows := MemoryStore.scan_write documents batchSize (turnedPlan reverse scan).view scan
  rw [documentRows_signature, answer_map] at hrows
  have hshown (found : List (List TypeNode × Json)) (hf : ∀ s ∈ found, s ∈ signatures documents) :
      (turnedPlan reverse scan).shapeRows (found.map (turnedRow reverse)) =
        .bySignature (found.map shownSignature) := by
    refine congrArg SearchResults.bySignature ?_
    rw [List.map_map]
    exact List.map_congr_left fun s hs =>
      signatureRow_turned reverse (canonical_of_signature (hf s hs))
  unfold Engine.search
  rw [hq]
  simp only [Plan.ofQuery, hplan, MemoryStore.engine]
  rw [show (turnedPlan reverse scan).scan = scan from rfl, hrows, hshown _ fun s hs => ?_]
  · rfl
  · exact List.mem_mergeSort.mp (List.mem_filter.mp (List.mem_of_mem_take hs)).1

/-- If the limit cuts nothing, all signatures in the range are shown. -/
lemma search_signature_whole {text : String} {prototype : List TypeNode}
    (hq : Query.parse text = .ok ⟨none, some prototype⟩) (documents : List Json) (batchSize : ℕ)
    (limit : ℕ) (options : SearchOptions) {reverse : Bool} {scan : Scan}
    (hplan : Plan.ofPrototype prototype (options.effectiveLimit limit) =
      turnedPlan reverse scan)
    (hlimit : (signatures documents).length ≤ options.effectiveLimit limit) :
    ((MemoryStore.empty.write documents batchSize).1.engine limit).search text options =
      .ok (signatureResponse text options prototype
        ((sortedSignatures reverse (signatures documents)).filter fun s =>
          scan.covers (TypeNode.signatureKey (turned reverse s.1)).encode)) := by
  have hscan : scan.limit = options.effectiveLimit limit := by
    have h := Plan.limit_ofPrototype prototype (options.effectiveLimit limit)
    rwa [hplan] at h
  rw [search_signature hq documents batchSize limit options hplan, hscan,
    List.take_of_length_le ((length_filter_sorted_le reverse _ _).trans hlimit)]

/-! ### Plans of signatures -/

lemma isWildcard_iff (node : TypeNode) :
    node.isWildcard = true ↔ node = .atom TypeNode.wildcard := by
  cases node <;> simp [TypeNode.isWildcard]

lemma ofPrototype_leading (rest : List TypeNode) (limit : ℕ) :
    Plan.ofPrototype (.atom TypeNode.wildcard :: rest) limit =
      turnedPlan true (Plan.continuations (rest.reverse.map TypeNode.toJson) limit) := rfl

def closingScan (front : List TypeNode) (last : TypeNode) (limit : ℕ) : Scan :=
  let start := front.map TypeNode.toJson
  if last.isWildcard then Plan.continuations start limit
  else
    match last with
    | .atom name => .between (.array (start ++ [.string name]))
        (.array (start ++ [.string (upperBound name)])) limit
    | other => .exact (.array (start ++ [other.toJson])) limit

lemma ofPrototype_closing (front : List TypeNode) (last : TypeNode) (limit : ℕ)
    (h : ∀ rest, front ++ [last] ≠ .atom TypeNode.wildcard :: rest) :
    Plan.ofPrototype (front ++ [last]) limit = turnedPlan false (closingScan front last limit) := by
  obtain ⟨first, rest, hsplit⟩ := List.exists_cons_of_ne_nil (show front ++ [last] ≠ [] by simp)
  have hfirst : ¬first.isWildcard = true := by
    rw [isWildcard_iff]
    rintro rfl
    exact h rest hsplit
  have hlast : (first :: rest).getLast (List.cons_ne_nil first rest) = last := by
    simp [← hsplit]
  have hfront : (first :: rest).dropLast = front := by
    rw [← hsplit, List.dropLast_concat]
  rw [hsplit, Plan.ofPrototype, if_neg hfirst]
  simp only [hlast, hfront, closingScan]
  split_ifs
  · rfl
  · cases last <;> rfl

/-- The key of a signature begins with that of another exactly if the signature does. -/
lemma itemsToJson_eq_append {front prototype : List TypeNode} (hf : TypeNode.AllPlain front)
    (hp : TypeNode.AllCanonical prototype) (rest : List Json) :
    TypeNode.itemsToJson prototype = front.map TypeNode.toJson ++ rest ↔
      ∃ more, prototype = front ++ more ∧ rest = TypeNode.itemsToJson more := by
  constructor
  · intro hitems
    have hback := TypeNode.ofItems_itemsToJson front (TypeNode.AllPlain.canonical front hf)
    have hsplit : prototype = front ++ TypeNode.ofItems rest := by
      rw [← TypeNode.ofItems_itemsToJson prototype hp, hitems, ← TypeNode.itemsToJson_eq,
        TypeNode.ofItems_eq, List.map_append, ← TypeNode.ofItems_eq, ← TypeNode.ofItems_eq, hback]
    refine ⟨TypeNode.ofItems rest, hsplit, ?_⟩
    rw [hsplit, TypeNode.itemsToJson_eq, List.map_append, List.append_cancel_left_eq] at hitems
    rw [TypeNode.itemsToJson_eq, hitems]
  · rintro ⟨more, rfl, rfl⟩
    simp only [TypeNode.itemsToJson_eq, List.map_append]

/-- The keys of signatures that continue others. -/
lemma covers_signatureKey {front prototype : List TypeNode} (hf : TypeNode.AllPlain front)
    (hp : TypeNode.AllCanonical prototype) (hb : ∀ node ∈ prototype, node.toJson.BelowHigh)
    (limit : ℕ) :
    (Plan.continuations (front.map TypeNode.toJson) limit).covers
        (TypeNode.signatureKey prototype).encode = true ↔
      ∃ rest, rest ≠ [] ∧ prototype = front ++ rest := by
  have hfree := TypeNode.AllPlain.numberFree front hf
  rw [TypeNode.itemsToJson_eq] at hfree
  have hbelow : ∀ item ∈ TypeNode.itemsToJson prototype, item.BelowHigh := by
    rw [TypeNode.itemsToJson_eq]
    intro item hitem
    obtain ⟨node, hnode, rfl⟩ := List.mem_map.mp hitem
    exact hb node hnode
  rw [TypeNode.signatureKey, Json.covers_continuations hfree hbelow]
  simp only [itemsToJson_eq_append hf hp]
  constructor
  · rintro ⟨rest, hne, more, rfl, rfl⟩
    exact ⟨more, by simpa [TypeNode.itemsToJson_eq] using hne, rfl⟩
  · rintro ⟨more, hne, rfl⟩
    exact ⟨_, by simpa [TypeNode.itemsToJson_eq] using hne, more, rfl, rfl⟩

/-- A type `N.M` with the methods `f : a`, `g : a -> b` and `h : c -> b`. -/
def sampleType : CatalogDocument where
  docType := CatalogDocument.typeDocument
  revision := "1"
  namespaceName := "N"
  name := "M"
  assembly := none
  assemblyName := none
  methods := [⟨"f", some [.keyword "a"]⟩, ⟨"g", some [.keyword "a", .keyword "b"]⟩,
    ⟨"h", some [.keyword "c", .keyword "b"]⟩]
  properties := []
  events := []
  fields := []

def sampleOwner : Json :=
  .object [("_rev", .string "1"), ("name", .string "M"), ("namespace", .string "N")]

end SignatureSearch
