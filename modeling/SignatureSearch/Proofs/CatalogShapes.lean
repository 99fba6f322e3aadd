import Mathlib
import SignatureSearch.Catalog

/-! Shapes of catalog nodes. A value is read as a node of a known shape where it has one field, the
tag, and its body has the fields of the shape, by name or by place. Any other value is kept as it
is, so whatever is proved of nodes that are read is proved shape by shape. -/
namespace SignatureSearch

/-! ### Values inside values -/

namespace Json

lemma mem_of_lookup {name : String} {v : Json} {fields : List (String × Json)}
    (h : fields.lookup name = some v) : (name, v) ∈ fields := by
  induction fields with
  | nil => simp at h
  | cons field rest ih =>
    obtain ⟨other, value⟩ := field
    rw [List.lookup_cons] at h
    split at h
    · next heq =>
      cases h
      simp [eq_of_beq heq]
    · exact List.mem_cons_of_mem _ (ih h)

/-- The value is the other one, or stands inside it. -/
inductive Within (w : Json) : Json → Prop
  | self : Within w w
  | item {items : List Json} {item : Json} (hi : item ∈ items) (h : Within w item) :
      Within w (.array items)
  | field {fields : List (String × Json)} {name : String} {value : Json}
      (hf : (name, value) ∈ fields) (h : Within w value) : Within w (.object fields)

lemma Within.trans {u v w : Json} (h : u.Within v) (g : v.Within w) : u.Within w := by
  induction g with
  | self => exact h
  | item hi _ ih => exact .item hi ih
  | field hf _ ih => exact .field hf ih

lemma Within.of_field? {name : String} {v w : Json} (h : v.field? name = some w) : w.Within v := by
  cases v with
  | object fields => exact .field (mem_of_lookup h) .self
  | _ => simp [field?] at h

lemma Within.of_array? {v item : Json} {items : List Json} (h : v.array? = some items)
    (hi : item ∈ items) : item.Within v := by
  cases v with
  | array items' =>
    cases h
    exact .item hi .self
  | _ => simp [array?] at h

lemma itemsNesting_le_iff {items : List Json} {n : ℕ} :
    itemsNesting items ≤ n ↔ ∀ item ∈ items, item.nesting ≤ n := by
  induction items with
  | nil => simp [itemsNesting]
  | cons item rest ih => simp [itemsNesting, ih]

lemma fieldsNesting_le_iff {fields : List (String × Json)} {n : ℕ} :
    fieldsNesting fields ≤ n ↔ ∀ field ∈ fields, field.2.nesting ≤ n := by
  induction fields with
  | nil => simp [fieldsNesting]
  | cons field rest ih => simp [fieldsNesting, ih]

lemma Within.nesting_le {v w : Json} (h : w.Within v) : w.nesting ≤ v.nesting := by
  induction h with
  | self => exact le_rfl
  | @item items item hi _ ih =>
    have hitem := itemsNesting_le_iff.mp le_rfl item hi
    rw [nesting]
    omega
  | @field fields name value hf _ ih =>
    have hvalue : value.nesting ≤ _ := fieldsNesting_le_iff.mp le_rfl _ hf
    rw [nesting]
    omega

end Json

/-- A value in a field of a record with these fields. -/
def HasField (names : List String) (name : String) (body v : Json) : Prop :=
  ∃ r, Record.ofJson? names body = some r ∧ r.field? name = some v

lemma Record.within_of_field? {names : List String} {body v : Json} {r : Record} {name : String}
    (hr : ofJson? names body = some r) (hv : r.field? name = some v) : v.Within body := by
  cases body with
  | object fields =>
    cases hr
    exact .field (Json.mem_of_lookup hv) .self
  | array items =>
    rw [ofJson?] at hr
    split_ifs at hr
    cases hr
    exact .item (List.of_mem_zip (Json.mem_of_lookup hv)).2 .self
  | _ => simp [ofJson?] at hr

lemma exists_of_mem_mapM {α β : Type} {f : α → Option β} {as : List α} {bs : List β} {b : β}
    (h : as.mapM f = some bs) (hb : b ∈ bs) : ∃ a ∈ as, f a = some b := by
  induction as generalizing bs with
  | nil =>
    cases h
    simp at hb
  | cons a as ih =>
    simp only [List.mapM_cons, Option.pure_def, Option.bind_eq_bind, Option.bind_eq_some_iff,
      Option.some.injEq] at h
    obtain ⟨first, hfirst, rest, hrest, rfl⟩ := h
    rcases List.mem_cons.mp hb with rfl | hb
    · exact ⟨a, by simp, hfirst⟩
    · obtain ⟨a', ha', hb'⟩ := ih hrest hb
      exact ⟨a', by simp [ha'], hb'⟩

/-- What was decoded from a list in a field came from a value inside it. -/
lemma Record.exists_of_mem_listOrEmpty {α : Type} {names : List String} {v : Json} {r : Record}
    {name : String} {decode : Json → Option α} {list : List α} {a : α}
    (hr : ofJson? names v = some r) (h : r.listOrEmpty? name decode = some list) (ha : a ∈ list) :
    ∃ item, item.Within v ∧ decode item = some a := by
  unfold listOrEmpty? at h
  split at h
  · cases h
    simp at ha
  · next field hfield =>
    obtain ⟨items, hitems, hlist⟩ := Option.bind_eq_some_iff.mp h
    obtain ⟨item, hitem, hdecode⟩ := exists_of_mem_mapM hlist ha
    exact ⟨item, .trans (.of_array? hitems hitem) (within_of_field? hr hfield), hdecode⟩

/-- The members of a document were read from values inside it. -/
lemma CatalogDocument.exists_member {v : Json} {d : CatalogDocument} (h : ofJson? v = some d)
    {m : CatalogMember} (hm : m ∈ d.methods ++ d.properties ++ d.events ++ d.fields) :
    ∃ item, item.Within v ∧ CatalogMember.ofJson? item = some m := by
  simp only [ofJson?, Option.pure_def, Option.bind_eq_bind, Option.bind_eq_some_iff] at h
  obtain ⟨r, hr, _, -, _, -, _, -, _, -, _, -, _, -, methods, hmethods, properties, hproperties,
    events, hevents, fields, hfields, h⟩ := h
  cases h
  simp only [List.mem_append] at hm
  rcases hm with ((hm | hm) | hm) | hm
  · exact Record.exists_of_mem_listOrEmpty hr hmethods hm
  · exact Record.exists_of_mem_listOrEmpty hr hproperties hm
  · exact Record.exists_of_mem_listOrEmpty hr hevents hm
  · exact Record.exists_of_mem_listOrEmpty hr hfields hm

lemma HasField.within {names : List String} {name : String} {body v : Json}
    (h : HasField names name body v) : v.Within body := by
  obtain ⟨r, hr, hv⟩ := h
  exact Record.within_of_field? hr hv

lemma HasField.ofFields {fields : List (String × Json)} {name : String} {v : Json}
    (h : fields.lookup name = some v) (names : List String) :
    HasField names name (.object fields) v := ⟨_, rfl, h⟩

lemma HasField.ofItem (name : String) (v : Json) : HasField [name] name (.array [v]) v :=
  ⟨_, rfl, by simp [Record.field?]⟩

namespace CatalogNode

/-! ### The reader by fields -/

lemma ofItems_eq (items : List Json) : ofItems items = items.map ofJson := by
  induction items with
  | nil => rfl
  | cons item rest ih => rw [ofItems, ih, List.map_cons]

lemma nodes?_eq (v : Json) : nodes? v = v.array?.map (List.map ofJson) := by
  cases v with
  | array items => exact congrArg some (ofItems_eq items)
  | _ => rfl

section Fields

variable (name : String) (fields : List (String × Json))

lemma nodeField?_eq : nodeField? name fields = (fields.lookup name).map ofJson := by
  induction fields with
  | nil => rfl
  | cons field rest ih =>
    rw [nodeField?, ih, List.lookup_cons]
    by_cases h : field.1 = name
    · simp [h]
    · simp [h, beq_eq_false_iff_ne.mpr (Ne.symm h)]

lemma nodesField?_eq : nodesField? name fields = (fields.lookup name).bind nodes? := by
  induction fields with
  | nil => rfl
  | cons field rest ih =>
    rw [nodesField?, ih, List.lookup_cons]
    by_cases h : field.1 = name
    · simp [h]
    · simp [h, beq_eq_false_iff_ne.mpr (Ne.symm h)]

lemma nameField?_eq : nameField? fields = (fields.lookup "name").bind Json.string? := by
  induction fields with
  | nil => rfl
  | cons field rest ih =>
    rw [nameField?, ih, List.lookup_cons]
    by_cases h : field.1 = "name"
    · simp [h]
    · simp [h, beq_eq_false_iff_ne.mpr (Ne.symm h)]

end Fields

/-! ### Shapes -/

inductive ElementTag : String → (CatalogNode → CatalogNode) → Prop
  | array : ElementTag "array" array
  | byRef : ElementTag "byRef" byRef

/-- Tags of a node around several others, with the field that holds these. -/
inductive NodesTag : String → String → (List CatalogNode → CatalogNode) → Prop
  | func : NodesTag "func" "prototype" func
  | tuple : NodesTag "tuple" "args" tuple

inductive NameTag : String → (String → CatalogNode) → Prop
  | generic : NameTag "generic" generic
  | keyword : NameTag "keyword" keyword
  | named : NameTag "def" named

/-- Nodes as they are read, shape by shape. -/
inductive Reads : Json → CatalogNode → Prop
  | element {tag : String} {make : CatalogNode → CatalogNode} {body v : Json}
      (ht : ElementTag tag make) (hf : HasField ["element"] "element" body v)
      (h : Reads v (ofJson v)) : Reads (.object [(tag, body)]) (make (ofJson v))
  | nodes {tag name : String} {make : List CatalogNode → CatalogNode} {body : Json}
      {items : List Json} (ht : NodesTag tag name make)
      (hf : HasField [name] name body (.array items)) (h : ∀ v ∈ items, Reads v (ofJson v)) :
      Reads (.object [(tag, body)]) (make (items.map ofJson))
  | name {tag : String} {make : String → CatalogNode} {body : Json} {name : String}
      (ht : NameTag tag make) (hf : HasField ["name"] "name" body (.string name)) :
      Reads (.object [(tag, body)]) (make name)
  | application {body v : Json} {items : List Json}
      (hc : HasField ["tyCon", "args"] "tyCon" body v)
      (ha : HasField ["tyCon", "args"] "args" body (.array items)) (h : Reads v (ofJson v))
      (hi : ∀ w ∈ items, Reads w (ofJson w)) :
      Reads (.object [("genericApp", body)]) (genericApp (ofJson v) (items.map ofJson))
  | unknown {v : Json} (h : ofJson v = unknown v) : Reads v (unknown v)

section Shapes

/- The parts of a value have been read already. -/
variable {tag : String} {body : Json} {n : CatalogNode}
  (hread : ∀ v : Json, v.Within body → Reads v (ofJson v))
include hread

lemma Reads.element_of {make : CatalogNode → CatalogNode} (ht : ElementTag tag make) {v : Json}
    (hf : HasField ["element"] "element" body v) :
    Reads (.object [(tag, body)]) (make (ofJson v)) :=
  .element ht hf (hread v hf.within)

lemma Reads.nodes_of {make : List CatalogNode → CatalogNode} {name : String}
    (ht : NodesTag tag name make) {v : Json} (hf : HasField [name] name body v)
    {nodes : List CatalogNode} (hn : nodes? v = some nodes) :
    Reads (.object [(tag, body)]) (make nodes) := by
  rw [nodes?_eq] at hn
  obtain ⟨items, hitems, rfl⟩ := Option.map_eq_some_iff.mp hn
  obtain rfl : v = .array items := by cases v <;> simp_all [Json.array?]
  exact .nodes ht hf fun w hw => hread w (.trans (.item hw .self) hf.within)

lemma Reads.application_of {v w : Json} (hc : HasField ["tyCon", "args"] "tyCon" body v)
    (ha : HasField ["tyCon", "args"] "args" body w) {nodes : List CatalogNode}
    (hn : nodes? w = some nodes) :
    Reads (.object [("genericApp", body)]) (genericApp (ofJson v) nodes) := by
  rw [nodes?_eq] at hn
  obtain ⟨items, hitems, rfl⟩ := Option.map_eq_some_iff.mp hn
  obtain rfl : w = .array items := by cases w <;> simp_all [Json.array?]
  exact .application hc ha (hread v hc.within) fun u hu =>
    hread u (.trans (.item hu .self) ha.within)

omit hread in
lemma Reads.name_of {make : String → CatalogNode} (ht : NameTag tag make) {v : Json}
    (hf : HasField ["name"] "name" body v) {name : String} (hn : v.string? = some name) :
    Reads (.object [(tag, body)]) (make name) := by
  obtain rfl : v = .string name := by cases v <;> simp_all [Json.string?]
  exact .name ht hf

end Shapes

lemma reads_of_fields {tag : String} {fields : List (String × Json)} {n : CatalogNode}
    (hread : ∀ v : Json, v.Within (.object fields) → Reads v (ofJson v))
    (h : ofBody? tag (.object fields) = some n) : Reads (.object [(tag, .object fields)]) n := by
  have helement {make : CatalogNode → CatalogNode} (ht : ElementTag tag make)
      (h : (nodeField? "element" fields).map make = some n) :
      Reads (.object [(tag, .object fields)]) n := by
    rw [nodeField?_eq, Option.map_map] at h
    obtain ⟨v, hv, rfl⟩ := Option.map_eq_some_iff.mp h
    exact .element_of hread ht (.ofFields hv _)
  have hnodes {make : List CatalogNode → CatalogNode} {name : String} (ht : NodesTag tag name make)
      (h : (nodesField? name fields).map make = some n) :
      Reads (.object [(tag, .object fields)]) n := by
    obtain ⟨nodes, hnodes, rfl⟩ := Option.map_eq_some_iff.mp h
    rw [nodesField?_eq] at hnodes
    obtain ⟨v, hv, hn⟩ := Option.bind_eq_some_iff.mp hnodes
    exact .nodes_of hread ht (.ofFields hv _) hn
  have hname {make : String → CatalogNode} (ht : NameTag tag make)
      (h : (nameField? fields).map make = some n) : Reads (.object [(tag, .object fields)]) n := by
    obtain ⟨name, hname, rfl⟩ := Option.map_eq_some_iff.mp h
    rw [nameField?_eq] at hname
    obtain ⟨v, hv, hn⟩ := Option.bind_eq_some_iff.mp hname
    exact .name_of ht (.ofFields hv _) hn
  rw [ofBody?] at h
  split_ifs at h with ht ht ht ht ht ht ht ht <;> subst ht
  · exact helement .array h
  · exact helement .byRef h
  · exact hnodes .func h
  · exact hname .generic h
  · rw [nodeField?_eq, nodesField?_eq] at h
    split at h
    · next con args hcon hargs =>
      cases h
      obtain ⟨v, hv, rfl⟩ := Option.map_eq_some_iff.mp hcon
      obtain ⟨w, hw, hn⟩ := Option.bind_eq_some_iff.mp hargs
      exact .application_of hread (.ofFields hv _) (.ofFields hw _) hn
    · cases h
  · exact hname .keyword h
  · exact hnodes .tuple h
  · exact hname .named h

lemma reads_of_items {tag : String} {items : List Json} {n : CatalogNode}
    (hread : ∀ v : Json, v.Within (.array items) → Reads v (ofJson v))
    (h : ofBodyItems? tag items = some n) : Reads (.object [(tag, .array items)]) n := by
  cases items with
  | nil => simp [ofBodyItems?] at h
  | cons first rest =>
    rw [ofBodyItems?] at h
    split_ifs at h with happlication hone ht ht ht ht ht ht ht
    · subst happlication
      obtain ⟨nodes, hnodes, rfl⟩ := Option.map_eq_some_iff.mp h
      cases rest with
      | nil => simp [onlyNodes?] at hnodes
      | cons second more =>
        rw [onlyNodes?] at hnodes
        split_ifs at hnodes with hmore
        obtain rfl : more = [] := by simpa using hmore
        have hc : HasField ["tyCon", "args"] "tyCon" (.array [first, second]) first :=
          ⟨_, rfl, by simp [Record.field?]⟩
        have ha : HasField ["tyCon", "args"] "args" (.array [first, second]) second :=
          ⟨_, rfl, by simp [Record.field?, List.lookup_cons]⟩
        exact .application_of hread hc ha hnodes
    all_goals
      obtain rfl : rest = [] := by simpa using hone
      subst ht
    · cases h
      exact .element_of hread .array (.ofItem _ _)
    · cases h
      exact .element_of hread .byRef (.ofItem _ _)
    · obtain ⟨nodes, hn, rfl⟩ := Option.map_eq_some_iff.mp h
      exact .nodes_of hread .func (.ofItem _ _) hn
    · obtain ⟨name, hn, rfl⟩ := Option.map_eq_some_iff.mp h
      exact .name_of .generic (.ofItem _ _) hn
    · obtain ⟨name, hn, rfl⟩ := Option.map_eq_some_iff.mp h
      exact .name_of .keyword (.ofItem _ _) hn
    · obtain ⟨nodes, hn, rfl⟩ := Option.map_eq_some_iff.mp h
      exact .nodes_of hread .tuple (.ofItem _ _) hn
    · obtain ⟨name, hn, rfl⟩ := Option.map_eq_some_iff.mp h
      exact .name_of .named (.ofItem _ _) hn

lemma reads_of_body {tag : String} {body : Json} {n : CatalogNode}
    (hread : ∀ v : Json, v.Within body → Reads v (ofJson v)) (h : ofBody? tag body = some n) :
    Reads (.object [(tag, body)]) n := by
  cases body with
  | object fields => exact reads_of_fields hread h
  | array items =>
    rw [ofBody?] at h
    exact reads_of_items hread h
  | _ => simp [ofBody?] at h

/-- Every value is read as a node of a known shape or kept as it is. -/
theorem reads_ofJson (v : Json) : Reads v (ofJson v) := by
  -- The parts of a node can stand anywhere in the body, so the induction is on nesting: whatever is
  -- inside the body nests less than the value.
  induction hn : v.nesting using Nat.strong_induction_on generalizing v with
  | _ depth ih =>
    cases v with
    | object fields =>
      cases ht : ofTagged? fields with
      | none =>
        have hunknown : ofJson (.object fields) = unknown (.object fields) := by
          rw [ofJson, ht, Option.getD_none]
        rw [hunknown]
        exact .unknown hunknown
      | some n =>
        rw [ofJson, ht, Option.getD_some]
        cases fields with
        | nil => simp [ofTagged?] at ht
        | cons field rest =>
          obtain ⟨tag, body⟩ := field
          rw [ofTagged?] at ht
          split_ifs at ht with hrest
          obtain rfl : rest = [] := by simpa using hrest
          refine reads_of_body (fun w hw => ?_) ht
          have hle := hw.nesting_le
          rw [Json.nesting, Json.fieldsNesting, Json.fieldsNesting] at hn
          exact ih w.nesting (by omega) w rfl
    | _ => exact .unknown rfl

end CatalogNode

end SignatureSearch
