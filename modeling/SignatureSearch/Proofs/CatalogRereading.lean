import Mathlib
import SignatureSearch.Indexing
import SignatureSearch.Proofs.CatalogShapes

/-! Catalogs that are written and read again. A node is written in the form of its shape, whatever
form it was read from, and a value of no known shape as it is. Reading this again gives the same
nodes and documents, and so the same rows. -/
namespace SignatureSearch

namespace CatalogNode

def children : CatalogNode → List CatalogNode
  | array element => [element]
  | byRef element => [element]
  | func prototype => prototype
  | genericApp con args => con :: args
  | tuple args => args
  | _ => []

/-- The node is the other one, or a part of it at any depth. -/
inductive PartOf (m : CatalogNode) : CatalogNode → Prop
  | self : PartOf m m
  | child {c n : CatalogNode} (hc : c ∈ n.children) (h : PartOf m c) : PartOf m n

lemma itemsToJson_eq (nodes : List CatalogNode) : itemsToJson nodes = nodes.map toJson := by
  induction nodes with
  | nil => rfl
  | cons node rest ih => rw [itemsToJson, ih, List.map_cons]

lemma ofItems_reread {items : List Json} (h : ∀ v ∈ items, ofJson (ofJson v).toJson = ofJson v) :
    ofItems (itemsToJson (items.map ofJson)) = items.map ofJson := by
  rw [ofItems_eq, itemsToJson_eq, List.map_map, List.map_map]
  exact List.map_congr_left h

namespace Reads

variable {v : Json} {m n : CatalogNode}

/-- What is written for a node is read as that node. -/
lemma reread (h : Reads v n) : ofJson n.toJson = n := by
  induction h with
  | element ht _ _ ih =>
    cases ht <;> simp [toJson, tagged, ofJson, ofTagged?, ofBody?, nodeField?, ih]
  | nodes ht _ _ ih =>
    have hitems := ofItems_reread ih
    cases ht <;> simp [toJson, tagged, ofJson, ofTagged?, ofBody?, nodesField?, nodes?, hitems]
  | name ht _ =>
    cases ht <;> simp [toJson, tagged, ofJson, ofTagged?, ofBody?, nameField?, Json.string?]
  | application _ _ _ _ ih ihi =>
    have hitems := ofItems_reread ihi
    simp [toJson, tagged, ofJson, ofTagged?, ofBody?, nodeField?, nodesField?, nodes?, ih, hitems]
  | unknown h => exact h

/-- A node of no known shape is the value that it was read from. -/
lemma eq_unknown (h : Reads v n) (hn : n.isKnown = false) : n = .unknown v := by
  cases h with
  | element ht | nodes ht | name ht => cases ht <;> simp [isKnown] at hn
  | application => simp [isKnown] at hn
  | unknown => rfl

/-- The nodes that a node is made of were read from values inside its own. -/
lemma exists_child (h : Reads v n) (hm : m ∈ n.children) : ∃ w, w.Within v ∧ ofJson w = m := by
  have hbody (tag : String) (body : Json) : body.Within (.object [(tag, body)]) :=
    .field (List.mem_singleton_self _) .self
  cases h with
  | @element tag make body v ht hf =>
    obtain rfl : m = ofJson v := by cases ht <;> simpa [children] using hm
    exact ⟨v, hf.within.trans (hbody tag body), rfl⟩
  | @nodes tag name make body items ht hf =>
    obtain ⟨v, hv, rfl⟩ : ∃ v ∈ items, ofJson v = m := by cases ht <;> simpa [children] using hm
    exact ⟨v, .trans (.item hv .self) (hf.within.trans (hbody tag body)), rfl⟩
  | name ht => cases ht <;> simp [children] at hm
  | @application body v items hc ha =>
    rcases List.mem_cons.mp hm with rfl | hm
    · exact ⟨v, hc.within.trans (hbody _ body), rfl⟩
    · obtain ⟨w, hw, rfl⟩ := List.mem_map.mp hm
      exact ⟨w, .trans (.item hw .self) (ha.within.trans (hbody _ body)), rfl⟩
  | unknown => simp [children] at hm

end Reads

lemma ofJson_toJson_ofJson (v : Json) : ofJson (ofJson v).toJson = ofJson v :=
  (reads_ofJson v).reread

/-- Every part of a node was read from a value inside the one that the node was read from, and is
that value if it has no known shape. -/
lemma PartOf.exists_within {v : Json} {part : CatalogNode} (h : part.PartOf (ofJson v)) :
    ∃ w, w.Within v ∧ ofJson w = part ∧ (part.isKnown = false → part.toJson = w) := by
  -- On the way down to the part the value changes along with the node.
  generalize hn : ofJson v = n at h
  induction h generalizing v with
  | self =>
    subst hn
    refine ⟨v, .self, rfl, fun hunknown => ?_⟩
    rw [(reads_ofJson v).eq_unknown hunknown]
    rfl
  | child hc _ ih =>
    subst hn
    obtain ⟨u, hu, rfl⟩ := (reads_ofJson v).exists_child hc
    obtain ⟨w, hw, hpart⟩ := ih rfl
    exact ⟨w, hw.trans hu, hpart⟩

lemma nodes?_reread {v : Json} {nodes : List CatalogNode} (h : nodes? v = some nodes) :
    nodes? (.array (itemsToJson nodes)) = some nodes := by
  rw [nodes?_eq] at h
  obtain ⟨items, -, rfl⟩ := Option.map_eq_some_iff.mp h
  exact congrArg some (ofItems_reread fun v _ => ofJson_toJson_ofJson v)

end CatalogNode

/-! ### Documents -/

lemma CatalogMember.reread {v : Json} {m : CatalogMember} (h : ofJson? v = some m) :
    ofJson? m.toJson = some m := by
  simp only [ofJson?, Option.pure_def, Option.bind_eq_bind, Option.bind_eq_some_iff] at h
  obtain ⟨r, -, name, -, h⟩ := h
  split at h
  · cases h
    rfl
  · cases h
    rfl
  · next field _ _ =>
    obtain ⟨nodes, hnodes, h⟩ := Option.bind_eq_some_iff.mp h
    cases h
    have hreread := CatalogNode.nodes?_reread hnodes
    simp [toJson, ofJson?, Record.ofJson?, Record.string?, Record.field?, List.lookup_cons,
      Json.string?, hreread]

lemma mapM_reread {members : List CatalogMember}
    (h : ∀ m ∈ members, CatalogMember.ofJson? m.toJson = some m) :
    (members.map CatalogMember.toJson).mapM CatalogMember.ofJson? = some members := by
  induction members with
  | nil => rfl
  | cons m rest ih =>
    obtain ⟨hm, hrest⟩ := List.forall_mem_cons.mp h
    rw [List.map_cons, List.mapM_cons, hm, ih hrest]
    rfl

namespace CatalogDocument

/-- What is written for a document is read as that document. -/
theorem reread {v : Json} {d : CatalogDocument} (h : ofJson? v = some d) :
    ofJson? d.toJson = some d := by
  obtain ⟨r, hr, hfield⟩ : ∃ r : Record, (∀ names, Record.ofJson? names d.toJson = some r) ∧
      ∀ name, r.field? name = d.toJson.field? name := ⟨⟨false, _⟩, fun _ => rfl, fun _ => rfl⟩
  have htext (name : String) {text : String} (h : d.toJson.field? name = some (.string text)) :
      r.stringOrEmpty? name = some text := by
    simp [Record.stringOrEmpty?, hfield, h, Json.string?]
  have hoptional (name : String) {text : Option String}
      (h : d.toJson.field? name = some (optionalText text)) : r.optional? name = some text := by
    cases text <;> simp [Record.optional?, hfield, h, optionalText, Json.string?]
  have hmembers (name : String) {members : List CatalogMember}
      (h : d.toJson.field? name = some (.array (members.map CatalogMember.toJson)))
      (hm : ∀ m ∈ members, CatalogMember.ofJson? m.toJson = some m) :
      r.listOrEmpty? name CatalogMember.ofJson? = some members := by
    simp [Record.listOrEmpty?, hfield, h, Json.array?, mapM_reread hm]
  have hmember : ∀ m ∈ d.methods ++ d.properties ++ d.events ++ d.fields,
      CatalogMember.ofJson? m.toJson = some m := by
    intro m hm
    obtain ⟨item, -, hitem⟩ := exists_member h hm
    exact CatalogMember.reread hitem
  simp only [List.forall_mem_append] at hmember
  obtain ⟨⟨⟨hmethods, hproperties⟩, hevents⟩, hfields⟩ := hmember
  have htype : r.stringOrEmpty? "type" = some d.docType := htext "type" rfl
  have hrevision : r.stringOrEmpty? "_rev" = some d.revision := htext "_rev" rfl
  have hnamespace : r.stringOrEmpty? "namespace" = some d.namespaceName := htext "namespace" rfl
  have hname : r.stringOrEmpty? "name" = some d.name := htext "name" rfl
  have hassembly : r.optional? "assembly" = some d.assembly := hoptional "assembly" rfl
  have hassemblyName : r.optional? "assemblyName" = some d.assemblyName :=
    hoptional "assemblyName" rfl
  simp [ofJson?, hr, htype, hrevision, hnamespace, hname, hassembly, hassemblyName,
    hmembers "methods" rfl hmethods, hmembers "properties" rfl hproperties,
    hmembers "events" rfl hevents, hmembers "fields" rfl hfields]

end CatalogDocument

/-- Every value is read as a node, and what is written for the node is read as the same node, which
has the same normal form and key. A part of the node that has no known shape is written as the value
that it was read from. What is written for a document is read as the same document, and so has the
same rows in all views. -/
theorem reading_stable :
    (∀ v : Json,
      let node := CatalogNode.ofJson v
      let again := CatalogNode.ofJson node.toJson
      again = node ∧ again.normalize = node.normalize ∧
      again.normalize.toJson = node.normalize.toJson ∧
      ∀ part : CatalogNode, part.PartOf node →
        ∃ w, w.Within v ∧ CatalogNode.ofJson w = part ∧
          (part.isKnown = false → part.toJson = w)) ∧
    ∀ (v : Json) (d : CatalogDocument), CatalogDocument.ofJson? v = some d →
      CatalogDocument.ofJson? d.toJson = some d ∧
      (CatalogDocument.ofJson? d.toJson).map DocumentRows.ofDocument =
        some (DocumentRows.ofDocument d) := by
  refine ⟨fun v => ?_, fun v d h => ?_⟩
  · have hnode := CatalogNode.ofJson_toJson_ofJson v
    exact ⟨hnode, congrArg _ hnode, congrArg _ (congrArg _ hnode),
      fun part hpart => hpart.exists_within⟩
  · have hreread := CatalogDocument.reread h
    exact ⟨hreread, by rw [hreread, Option.map_some]⟩

/-- A method that takes an array of something of no known shape, with the body of the array given by
place. -/
theorem reading_stable_sample :
    let pointer := Json.object [("pointer", .object [("to", .string "int")])]
    let v := Json.object [("array", .array [pointer])]
    let method := Json.object [("name", .string "f"), ("prototype", .array [v, .null])]
    let d : CatalogDocument :=
      ⟨"", "", "", "M", none, none, [⟨"f", some [.array (.unknown pointer), .unknown .null]⟩], [],
        [], []⟩
    (CatalogNode.unknown pointer).PartOf (CatalogNode.ofJson v) ∧
      (∃ w, w.Within v ∧ CatalogNode.ofJson w = .unknown pointer ∧ pointer = w) ∧
      CatalogDocument.ofJson? (.object [("methods", .array [method]), ("name", .string "M")]) =
        some d ∧
      CatalogDocument.ofJson? d.toJson = some d := by
  intro pointer v method d
  have hpart : (CatalogNode.unknown pointer).PartOf (CatalogNode.ofJson v) :=
    .child (List.mem_singleton_self _) .self
  have hread : CatalogDocument.ofJson?
      (.object [("methods", .array [method]), ("name", .string "M")]) = some d := rfl
  obtain ⟨hnodes, hdocuments⟩ := reading_stable
  obtain ⟨w, hw, hfrom, hwritten⟩ := (hnodes v).2.2.2 _ hpart
  exact ⟨hpart, ⟨w, hw, hfrom, hwritten rfl⟩, hread, (hdocuments _ d hread).1⟩

end SignatureSearch
