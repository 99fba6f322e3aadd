import Mathlib
import SignatureSearch.Proofs.SignatureRows

/-! The form of nodes loses nothing. A value and the node it stands for determine each other, and so
do a node of a catalog or a query and its form. Keys of signatures are therefore distinct, and a row
is shown as the same signature from either view. -/
namespace SignatureSearch

namespace TypeNode

inductive PartOf (t : TypeNode) : TypeNode → Prop
  | self : PartOf t t
  | item {items : List TypeNode} {item : TypeNode} (hi : item ∈ items) (h : PartOf t item) :
      PartOf t (.list items)
  | component {items : List TypeNode} {item : TypeNode} (hi : item ∈ items) (h : PartOf t item) :
      PartOf t (.tuple items)
  | element {element : TypeNode} (h : PartOf t element) : PartOf t (.array element)
  | con {con : TypeNode} {args : List TypeNode} (h : PartOf t con) : PartOf t (.generic con args)
  | arg {con arg : TypeNode} {args : List TypeNode} (ha : arg ∈ args) (h : PartOf t arg) :
      PartOf t (.generic con args)
  | referent {element : TypeNode} (h : PartOf t element) : PartOf t (.byRef element)

lemma PartOf.canonical {t u : TypeNode} (h : t.PartOf u) (hu : u.Canonical) : t.Canonical := by
  induction h with
  | self => exact hu
  | item hi h ih => exact ih ((allCanonical_iff _).mp hu _ hi)
  | component hi h ih => exact ih ((allCanonical_iff _).mp hu _ hi)
  | element h ih => exact ih hu
  | con h ih => exact ih hu.1
  | arg ha h ih => exact ih ((allCanonical_iff _).mp hu.2 _ ha)
  | referent h ih => exact ih hu

/-- The nodes of catalogs and of queries, with their parts. -/
inductive Occurs : TypeNode → Prop
  | normalized (n : CatalogNode) : Occurs n.normalize
  | parsed {tokens : List Lexeme} {start : ℕ} {fragment : Query.Fragment}
      {prototype : List TypeNode} {node : TypeNode}
      (h : Query.parseFragment tokens start = .ok fragment)
      (hp : fragment.query.prototype = some prototype) (hn : node ∈ prototype) : Occurs node
  | part {t u : TypeNode} (h : t.PartOf u) (hu : Occurs u) : Occurs t

theorem Occurs.canonical {t : TypeNode} (h : t.Occurs) : t.Canonical := by
  induction h with
  | normalized n => exact CatalogNode.canonical_normalize n
  | parsed h hp hn =>
    exact Plain.canonical _ (Query.all_of_parseFragment Query.keptByReader_plain h _ hp _ hn)
  | part h hu ih => exact h.canonical ih

end TypeNode

/-- The signature of a member as it is shown, if it has a prototype. -/
def shownMember? (owner : MemberKey) (member : CatalogMember) : Option ResultRow :=
  member.prototype.map fun nodes =>
    ⟨TypeNode.signatureKey (CatalogNode.normalizeAll nodes),
      DocumentRows.entryJson member.name owner,
      some (TypeNode.signatureText (CatalogNode.normalizeAll nodes))⟩

/-- The rows of a document in either view of signatures are shown alike. -/
lemma shapeRows_ofDocument (reverse : Bool) (scan : Scan) (d : CatalogDocument) :
    (turnedPlan reverse scan).shapeRows
        ((DocumentRows.ofDocument d).inView (turnedPlan reverse scan).view) =
      .bySignature (d.signatureMembers.filterMap (shownMember? d.key)) := by
  have hrows : (DocumentRows.ofDocument d).inView (turnedPlan reverse scan).view =
      (d.signatureMembers.filterMap (DocumentRows.signatureOf? d.key)).map
        (turnedRow reverse) := by
    cases reverse <;> rfl
  have hshown : d.signatureMembers.filterMap (shownMember? d.key) =
      (d.signatureMembers.filterMap (DocumentRows.signatureOf? d.key)).map shownSignature := by
    rw [List.map_filterMap]
    refine List.filterMap_congr fun member _ => ?_
    simp [shownMember?, DocumentRows.signatureOf?, shownSignature, Function.comp_def]
  rw [hrows, hshown]
  refine congrArg SearchResults.bySignature ?_
  rw [List.map_map]
  refine List.map_congr_left fun s hs => ?_
  obtain ⟨member, -, hmember⟩ := List.mem_filterMap.mp hs
  exact signatureRow_turned reverse (canonical_of_signatureOf hmember)

/-- Every value is the form of the node that it stands for. A node of a catalog or a query is
recovered from its form, so that signatures of such nodes have the same key only if they are equal.
The row of a method or property in the reverse view is shown as its row in the other view is, by the
key and the text of its signature. -/
theorem form_lossless :
    (∀ v : Json, (TypeNode.ofJson v).toJson = v) ∧
    (∀ t : TypeNode, t.Occurs → TypeNode.ofJson t.toJson = t) ∧
    (∀ a b : List TypeNode, (∀ t ∈ a, t.Occurs) → (∀ t ∈ b, t.Occurs) →
      TypeNode.signatureKey a = TypeNode.signatureKey b → a = b) ∧
    ∀ (d : CatalogDocument) (scan : Scan),
      Plan.shapeRows ⟨.bySignature, .bySignature false, scan⟩
          (DocumentRows.ofDocument d).bySignature =
        .bySignature (d.signatureMembers.filterMap (shownMember? d.key)) ∧
      Plan.shapeRows ⟨.bySignatureReverse, .bySignature true, scan⟩
          (DocumentRows.ofDocument d).bySignatureReverse =
        .bySignature (d.signatureMembers.filterMap (shownMember? d.key)) := by
  refine ⟨TypeNode.toJson_ofJson, fun t ht => TypeNode.ofJson_toJson t ht.canonical,
    fun a b ha hb hkey => ?_, fun d scan => ?_⟩
  · have hcanonical : TypeNode.AllCanonical a :=
      (TypeNode.allCanonical_iff a).mpr fun t ht => (ha t ht).canonical
    have hcanonical' : TypeNode.AllCanonical b :=
      (TypeNode.allCanonical_iff b).mpr fun t ht => (hb t ht).canonical
    exact (TypeNode.signatureKey_inj hcanonical hcanonical').mp hkey
  · exact ⟨shapeRows_ofDocument false scan d, shapeRows_ofDocument true scan d⟩

/-- The type `int list` of a catalog and the one of the query `: int list` are recovered from their
form, and have the same key because they are the same. -/
theorem form_lossless_sample :
    let indexed := CatalogNode.genericApp (.named "list") [.keyword "int"]
    let queried := TypeNode.generic (.atom "list") [.atom "int"]
    TypeNode.ofJson indexed.normalize.toJson = indexed.normalize ∧
      TypeNode.ofJson (TypeNode.atom "int").toJson = .atom "int" ∧
      TypeNode.signatureKey [indexed.normalize] = TypeNode.signatureKey [queried] ∧
      [indexed.normalize] = [queried] := by
  intro indexed queried
  have hindexed : indexed.normalize.Occurs := .normalized indexed
  have hread : Query.parseFragment [.colon, .name "int", .name "list"] 0 =
      .ok ⟨⟨none, some [queried]⟩, 3, none⟩ := rfl
  have hqueried : queried.Occurs := .parsed hread rfl (List.mem_singleton_self _)
  have hatom : (TypeNode.atom "int").Occurs :=
    .part (.arg (List.mem_singleton_self _) .self) hqueried
  obtain ⟨-, hrecovered, hinjective, -⟩ := form_lossless
  refine ⟨hrecovered _ hindexed, hrecovered _ hatom, rfl, ?_⟩
  exact hinjective _ _ (by simpa using hindexed) (by simpa using hqueried) rfl

end SignatureSearch
