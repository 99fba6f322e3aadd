import Mathlib
import SignatureSearch.Proofs.Batches
import SignatureSearch.Proofs.CatalogShapes
import SignatureSearch.Proofs.CatalogSplit
import SignatureSearch.Proofs.NodeForm

/-! Nesting of what is indexed. The form of a type expression nests no deeper than the catalog node
that it comes from, so the keys and values of all rows nest no deeper than the reader allows, if the
documents were read from a text. -/
namespace SignatureSearch

namespace Json

/-- The values of a stream are read one by one, none deeper than the reader allows. -/
theorem nesting_readValues : ∀ {fuel : ℕ} {cs : List Char} {values : List Json},
    readValues fuel cs = some values → ∀ v ∈ values, v.nesting ≤ nestingLimit
  | fuel + 1, cs, values, h => by
    rcases readValues_iff.mp h with ⟨-, rfl⟩ | ⟨_, _, v, _, others, -, hfirst, -, hothers, rfl⟩
    · simp
    · exact List.forall_mem_cons.mpr ⟨nesting_readValue hfirst, nesting_readValues hothers⟩

end Json

/-! ### Forms -/

namespace CatalogNode

def form (n : CatalogNode) : Json := n.normalize.toJson

def forms (nodes : List CatalogNode) : List Json := TypeNode.itemsToJson (normalizeAll nodes)

lemma form_unknown (v : Json) : (unknown v).form = v := TypeNode.toJson_ofJson v

lemma form_array (element : CatalogNode) :
    (array element).form = .object [("array", element.form)] := rfl

lemma form_byRef (element : CatalogNode) :
    (byRef element).form = .object [("byRef", element.form)] := rfl

lemma form_func (prototype : List CatalogNode) :
    (func prototype).form = .array (forms prototype) := rfl

lemma form_tuple (args : List CatalogNode) :
    (tuple args).form = .object [("tuple", .array (forms args))] := rfl

lemma form_genericApp (con : CatalogNode) (args : List CatalogNode) :
    (genericApp con args).form =
      .object [("args", .array (forms args)), ("tyCon", con.form)] := rfl

open Json

lemma forms_eq (nodes : List CatalogNode) : forms nodes = nodes.map form := by
  induction nodes with
  | nil => rfl
  | cons node rest ih =>
    rw [List.map_cons, ← ih]
    rfl

lemma nesting_forms_of {items : List Json}
    (h : ∀ v ∈ items, (ofJson v).form.nesting ≤ v.nesting) :
    itemsNesting (forms (items.map ofJson)) ≤ itemsNesting items := by
  rw [itemsNesting_le_iff, forms_eq, List.map_map]
  intro w hw
  obtain ⟨v, hv, rfl⟩ := List.mem_map.mp hw
  exact (h v hv).trans (itemsNesting_le_iff.mp le_rfl v hv)

/-- The form of a node nests no deeper than the value that it was read from, whether the value has a
known shape, with its body in either form, or another one. -/
lemma Reads.nesting_form_le {v : Json} {n : CatalogNode} (h : Reads v n) :
    n.form.nesting ≤ v.nesting := by
  induction h with
  | element ht hf h ih =>
    have hbody := hf.within.nesting_le
    cases ht <;>
    · simp only [form_array, form_byRef, nesting, fieldsNesting]
      omega
  | nodes ht hf h ih =>
    have hbody := hf.within.nesting_le
    have hitems := nesting_forms_of ih
    rw [nesting] at hbody
    cases ht <;>
    · simp only [form_func, form_tuple, nesting, fieldsNesting]
      omega
  | name ht hf =>
    cases ht <;> exact Nat.zero_le _
  | application hc ha h hi ih ihi =>
    have hcon := hc.within.nesting_le
    have hargs := ha.within.nesting_le
    have hitems := nesting_forms_of ihi
    rw [nesting] at hargs
    simp only [form_genericApp, nesting, fieldsNesting]
    omega
  | unknown h => rw [form_unknown]

theorem nesting_form (v : Json) : (ofJson v).form.nesting ≤ v.nesting :=
  (reads_ofJson v).nesting_form_le

lemma nesting_nodes {v : Json} {nodes : List CatalogNode} (h : nodes? v = some nodes) :
    itemsNesting (forms nodes) + 1 ≤ v.nesting := by
  cases v with
  | array items =>
    have hitems := nesting_forms_of fun v (_ : v ∈ items) => nesting_form v
    rw [nodes?, Option.some.injEq] at h
    rw [← h, ofItems_eq, nesting]
    omega
  | _ => simp [nodes?] at h

end CatalogNode

/-! ### Documents -/

lemma CatalogMember.nesting_prototype {v : Json} {m : CatalogMember} {nodes : List CatalogNode}
    (h : ofJson? v = some m) (hm : m.prototype = some nodes) :
    Json.itemsNesting (CatalogNode.forms nodes) + 1 ≤ v.nesting := by
  simp only [ofJson?, Option.pure_def, Option.bind_eq_bind, Option.bind_eq_some_iff] at h
  obtain ⟨r, hr, name, -, h⟩ := h
  split at h
  · cases h
    cases hm
  · cases h
    cases hm
  · next field _ hfield =>
    obtain ⟨nodes', hnodes, h⟩ := Option.bind_eq_some_iff.mp h
    cases h
    cases hm
    exact (CatalogNode.nesting_nodes hnodes).trans (Record.within_of_field? hr hfield).nesting_le

namespace Catalog

lemma nesting_withoutField (name : String) (fields : List (String × Json)) :
    Json.fieldsNesting (withoutField name fields) ≤ Json.fieldsNesting fields :=
  Json.fieldsNesting_le_iff.mpr fun field hfield =>
    Json.fieldsNesting_le_iff.mp le_rfl field (List.mem_filter.mp hfield).1

lemma nesting_envelopeDocuments {v document : Json} (h : document ∈ envelopeDocuments v) :
    document.nesting ≤ v.nesting := by
  cases v with
  | array items => exact (Json.Within.item h .self).nesting_le
  | object fields =>
    have hdocs := nesting_withoutField "docs" fields
    have hrows := nesting_withoutField "rows" (withoutField "docs" fields)
    have hfield {name : String} {items : List Json} {item : Json} {fields : List (String × Json)}
        (hitems : fields.lookup name = some (.array items)) (hitem : item ∈ items) :
        item.nesting ≤ Json.fieldsNesting fields :=
      (Json.Within.item hitem .self).nesting_le.trans
        (Json.fieldsNesting_le_iff.mp le_rfl _ (Json.mem_of_lookup hitems))
    rw [Json.nesting]
    simp only [envelopeDocuments] at h
    split_ifs at h
    · rw [List.mem_singleton.mp h, Json.nesting]
    · split at h
      · next docs hlookup =>
        exact (hfield hlookup h).trans (Nat.le_succ _)
      · split at h
        · next rows hlookup =>
          obtain ⟨row, hrow, hdocument⟩ := List.mem_filterMap.mp h
          have hle := (Json.Within.of_field? hdocument).nesting_le.trans (hfield hlookup hrow)
          exact hle.trans (hdocs.trans (Nat.le_succ _))
        · rw [List.mem_singleton.mp h, Json.nesting]
          exact Nat.succ_le_succ (hrows.trans hdocs)
  | _ => rw [List.mem_singleton.mp h]

theorem nesting_readDocuments {text : String} {documents : List Json}
    (h : readDocuments? text = some documents) :
    ∀ document ∈ documents, document.nesting ≤ Json.nestingLimit := by
  obtain ⟨values, hvalues, rfl⟩ := Option.map_eq_some_iff.mp h
  intro document hdocument
  obtain ⟨v, hv, hdocument⟩ := List.mem_flatMap.mp hdocument
  exact (nesting_envelopeDocuments hdocument).trans (Json.nesting_readValues hvalues v hv)

end Catalog

/-! ### Rows -/

structure Row.Fits (row : Row) : Prop where
  key : row.key.nesting ≤ Json.nestingLimit
  value : row.value.nesting ≤ Json.nestingLimit

namespace DocumentRows

lemma nesting_signatureKey {nodes : List TypeNode} {n : ℕ}
    (h : Json.itemsNesting (TypeNode.itemsToJson nodes) + 1 ≤ n) {other : List TypeNode}
    (ho : other ⊆ nodes) : (TypeNode.signatureKey other).nesting ≤ n := by
  rw [TypeNode.signatureKey, Json.nesting]
  refine (Nat.succ_le_succ (Json.itemsNesting_le_iff.mpr fun item hitem => ?_)).trans h
  rw [TypeNode.itemsToJson_eq] at hitem
  obtain ⟨node, hnode, rfl⟩ := List.mem_map.mp hitem
  refine Json.itemsNesting_le_iff.mp le_rfl _ ?_
  rw [TypeNode.itemsToJson_eq]
  exact List.mem_map_of_mem (ho hnode)

/-- Only the key of a signature nests more than two containers. -/
lemma fits_of_key {key : Json} (hkey : key.nesting ≤ Json.nestingLimit) (name : String)
    (owner : MemberKey) : (Row.mk key (entryJson name owner)).Fits :=
  ⟨hkey, (by decide : 2 ≤ Json.nestingLimit)⟩

lemma fits_signature {v : Json} {d : CatalogDocument} (h : CatalogDocument.ofJson? v = some d)
    (hv : v.nesting ≤ Json.nestingLimit) {s : List TypeNode × Json}
    (hs : s ∈ d.signatureMembers.filterMap (signatureOf? d.key)) {nodes : List TypeNode}
    (hnodes : nodes ⊆ s.1) : (Row.mk (TypeNode.signatureKey nodes) s.2).Fits := by
  obtain ⟨member, hmember, hsignature⟩ := List.mem_filterMap.mp hs
  obtain ⟨prototype, hprototype, rfl⟩ := Option.map_eq_some_iff.mp hsignature
  obtain ⟨item, hitem, hdecode⟩ := CatalogDocument.exists_member h
    (List.mem_append_left _ (List.mem_append_left _ hmember))
  have hforms := CatalogMember.nesting_prototype hdecode hprototype
  have hnesting := hforms.trans (hitem.nesting_le.trans hv)
  exact fits_of_key (nesting_signatureKey hnesting hnodes) member.name d.key

lemma fits_ofDocument {v : Json} {d : CatalogDocument} (h : CatalogDocument.ofJson? v = some d)
    (hv : v.nesting ≤ Json.nestingLimit) (view : View) :
    ∀ row ∈ (ofDocument d).inView view, row.Fits := by
  have hone : 1 ≤ Json.nestingLimit := by decide
  have hname (name : String) (kind : MemberKind) : (Row.mk (nameKey name kind) d.key.toJson).Fits :=
    ⟨hone, hone⟩
  intro row hrow
  cases view with
  | byName =>
    rcases List.mem_cons.mp hrow with rfl | hrow
    · exact hname _ _
    · obtain ⟨member, -, rfl⟩ := List.mem_map.mp hrow
      exact hname _ _
  | bySignature =>
    obtain ⟨s, hs, rfl⟩ := List.mem_map.mp hrow
    exact fits_signature h hv hs (List.Subset.refl _)
  | bySignatureReverse =>
    obtain ⟨s, hs, rfl⟩ := List.mem_map.mp hrow
    exact fits_signature h hv hs (List.reverse_subset.mpr (List.Subset.refl _))
  | byAssembly =>
    obtain rfl := List.mem_singleton.mp hrow
    refine ⟨?_, hone⟩
    cases d.assembly <;> exact Nat.zero_le _
  | byTypeAssembly =>
    obtain rfl := List.mem_singleton.mp hrow
    refine ⟨Nat.zero_le _, ?_⟩
    rw [AssemblyRef.toJson]
    split <;> exact hone

end DocumentRows

theorem fits_documentRows {documents : List Json}
    (h : ∀ document ∈ documents, document.nesting ≤ Json.nestingLimit) (view : View) :
    ∀ row ∈ documentRows view documents, row.Fits := by
  intro row hrow
  obtain ⟨d, hd, hrow⟩ := List.mem_flatMap.mp hrow
  obtain ⟨document, hdocument, hconverted⟩ := List.mem_filterMap.mp hd
  rw [CatalogDocument.converted?] at hconverted
  split_ifs at hconverted
  exact DocumentRows.fits_ofDocument hconverted (h document hdocument) view row hrow

end SignatureSearch
