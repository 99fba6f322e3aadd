import Mathlib
import SignatureSearch.Catalog
import SignatureSearch.Proofs.Rendering

/-! The JSON form of nodes. Every value stands for one node, whose form is that value again. Nodes
that come from a catalog or a query are recovered from their form, and the form of a node that a
query can denote holds no number, so that its place among the keys is its own. -/
namespace SignatureSearch

namespace TypeNode

mutual

def same : TypeNode → TypeNode → Bool
  | .atom m, .atom n => decide (m = n)
  | .list as, .list bs => sameItems as bs
  | .tuple as, .tuple bs => sameItems as bs
  | .array a, .array b => same a b
  | .generic c as, .generic d bs => same c d && sameItems as bs
  | .byRef a, .byRef b => same a b
  | .raw v, .raw w => decide (v = w)
  | _, _ => false

def sameItems : List TypeNode → List TypeNode → Bool
  | [], [] => true
  | a :: as, b :: bs => same a b && sameItems as bs
  | _, _ => false

end

mutual

theorem same_eq : ∀ a b : TypeNode, same a b = true ↔ a = b
  | .atom _, b => by cases b <;> simp [same]
  | .list as, b => by
    cases b with
    | list bs => simp [same, sameItems_eq as bs]
    | _ => simp [same]
  | .tuple as, b => by
    cases b with
    | tuple bs => simp [same, sameItems_eq as bs]
    | _ => simp [same]
  | .array a, b => by
    cases b with
    | array b => simp [same, same_eq a b]
    | _ => simp [same]
  | .generic c as, b => by
    cases b with
    | generic d bs => simp [same, same_eq c d, sameItems_eq as bs]
    | _ => simp [same]
  | .byRef a, b => by
    cases b with
    | byRef b => simp [same, same_eq a b]
    | _ => simp [same]
  | .raw _, b => by cases b <;> simp [same]

theorem sameItems_eq : ∀ as bs : List TypeNode, sameItems as bs = true ↔ as = bs
  | [], bs => by cases bs <;> simp [sameItems]
  | a :: as, bs => by
    cases bs with
    | nil => simp [sameItems]
    | cons b bs => simp [sameItems, same_eq a b, sameItems_eq as bs]

end

instance : DecidableEq TypeNode := fun a b => decidable_of_iff _ (same_eq a b)

/-! ### Reading the form back -/

mutual

/-- Values are kept as they are only where they stand for no other node. -/
def Canonical : TypeNode → Prop
  | .atom _ => True
  | .list items => AllCanonical items
  | .tuple items => AllCanonical items
  | .array element => element.Canonical
  | .generic con args => con.Canonical ∧ AllCanonical args
  | .byRef element => element.Canonical
  | .raw value => ofJson value = .raw value

def AllCanonical : List TypeNode → Prop
  | [] => True
  | item :: rest => item.Canonical ∧ AllCanonical rest

end

lemma allCanonical_iff (items : List TypeNode) :
    AllCanonical items ↔ ∀ item ∈ items, item.Canonical := by
  induction items with
  | nil => simp [AllCanonical]
  | cons item rest ih => simp [AllCanonical, ih]

lemma AllCanonical.mono {items more : List TypeNode} (h : AllCanonical more)
    (hs : items ⊆ more) : AllCanonical items := by
  rw [allCanonical_iff] at *
  exact fun item hitem => h item (hs hitem)

mutual

theorem ofJson_toJson : ∀ t : TypeNode, t.Canonical → ofJson t.toJson = t
  | .atom _, _ => rfl
  | .list items, h => congrArg TypeNode.list (ofItems_itemsToJson items h)
  | .tuple items, h => by
    simp [toJson, ofJson, ofFields?, ofArray?, ofItems_itemsToJson items h]
  | .array element, h => by simp [toJson, ofJson, ofFields?, ofJson_toJson element h]
  | .generic con args, h => by
    simp [toJson, ofJson, ofFields?, ofArray?, ofJson_toJson con h.1, ofItems_itemsToJson args h.2]
  | .byRef element, h => by simp [toJson, ofJson, ofFields?, ofJson_toJson element h]
  | .raw _, h => h

theorem ofItems_itemsToJson : ∀ items : List TypeNode, AllCanonical items →
    ofItems (itemsToJson items) = items
  | [], _ => rfl
  | item :: rest, h => by
    rw [itemsToJson, ofItems, ofJson_toJson item h.1, ofItems_itemsToJson rest h.2]

end

mutual

theorem toJson_ofJson : ∀ v : Json, (ofJson v).toJson = v
  | .null | .bool _ | .number _ | .string _ => rfl
  | .array items => congrArg Json.array (itemsToJson_ofItems items)
  | .object fields => by
    cases h : ofFields? fields with
    | none => simp [ofJson, h, toJson]
    | some t =>
      rw [ofJson, h]
      exact toJson_ofFields fields t h

theorem itemsToJson_ofItems : ∀ items : List Json, itemsToJson (ofItems items) = items
  | [] => rfl
  | item :: rest => by rw [ofItems, itemsToJson, toJson_ofJson item, itemsToJson_ofItems rest]

theorem toJson_ofArray : ∀ (v : Json) (items : List TypeNode), ofArray? v = some items →
    .array (itemsToJson items) = v
  | .array values, items, h => by
    rw [ofArray?, Option.some.injEq] at h
    exact congrArg Json.array (h ▸ itemsToJson_ofItems values)
  | .null, _, h | .bool _, _, h | .number _, _, h | .string _, _, h | .object _, _, h => by
    simp [ofArray?] at h

theorem toJson_ofFields : ∀ (fields : List (String × Json)) (t : TypeNode),
    ofFields? fields = some t → t.toJson = .object fields
  | [(name, value)], t, h => by
    rw [ofFields?] at h
    split_ifs at h with htuple harray href
    · obtain ⟨items, hitems, rfl⟩ := Option.map_eq_some_iff.mp h
      rw [toJson, toJson_ofArray value items hitems, htuple]
    · cases h
      rw [toJson, toJson_ofJson value, harray]
    · cases h
      rw [toJson, toJson_ofJson value, href]
  | [(name, value), (second, con)], t, h => by
    rw [ofFields?] at h
    split_ifs at h with hnames
    obtain ⟨items, hitems, rfl⟩ := Option.map_eq_some_iff.mp h
    rw [toJson, toJson_ofArray value items hitems, toJson_ofJson con, hnames.1, hnames.2]

end

mutual

theorem canonical_ofJson : ∀ v : Json, (ofJson v).Canonical
  | .null => by simp [ofJson, Canonical]
  | .bool _ => by simp [ofJson, Canonical]
  | .number _ => by simp [ofJson, Canonical]
  | .string _ => by simp [ofJson, Canonical]
  | .array items => by simpa [ofJson, Canonical] using canonical_ofItems items
  | .object fields => by
    cases h : ofFields? fields with
    | none => simp [ofJson, h, Canonical]
    | some t =>
      rw [ofJson, h]
      exact canonical_ofFields fields t h

theorem canonical_ofItems : ∀ items : List Json, AllCanonical (ofItems items)
  | [] => by simp [ofItems, AllCanonical]
  | item :: rest => by
    rw [ofItems]
    exact ⟨canonical_ofJson item, canonical_ofItems rest⟩

theorem canonical_ofArray : ∀ (v : Json) (items : List TypeNode), ofArray? v = some items →
    AllCanonical items
  | .array values, items, h => by
    rw [ofArray?, Option.some.injEq] at h
    exact h ▸ canonical_ofItems values
  | .null, _, h | .bool _, _, h | .number _, _, h | .string _, _, h | .object _, _, h => by
    simp [ofArray?] at h

theorem canonical_ofFields : ∀ (fields : List (String × Json)) (t : TypeNode),
    ofFields? fields = some t → t.Canonical
  | [(name, value)], t, h => by
    rw [ofFields?] at h
    split_ifs at h
    · obtain ⟨items, hitems, rfl⟩ := Option.map_eq_some_iff.mp h
      exact canonical_ofArray value items hitems
    · cases h
      exact canonical_ofJson value
    · cases h
      exact canonical_ofJson value
  | [(name, value), (second, con)], t, h => by
    rw [ofFields?] at h
    split_ifs at h
    obtain ⟨items, hitems, rfl⟩ := Option.map_eq_some_iff.mp h
    exact ⟨canonical_ofJson con, canonical_ofArray value items hitems⟩

end

end TypeNode

namespace CatalogNode

mutual

theorem canonical_normalize : ∀ n : CatalogNode, n.normalize.Canonical
  | .array element => canonical_normalize element
  | .byRef element => canonical_normalize element
  | .func prototype => canonical_normalizeAll prototype
  | .generic _ => trivial
  | .genericApp con args => ⟨canonical_normalize con, canonical_normalizeAll args⟩
  | .keyword _ => trivial
  | .tuple args => canonical_normalizeAll args
  | .named _ => trivial
  | .unknown value => TypeNode.canonical_ofJson value

theorem canonical_normalizeAll : ∀ nodes : List CatalogNode,
    TypeNode.AllCanonical (normalizeAll nodes)
  | [] => trivial
  | node :: rest => ⟨canonical_normalize node, canonical_normalizeAll rest⟩

end

end CatalogNode

/-! ### Nodes of queries -/

namespace TypeNode

mutual

/-- A node that the text of a query can denote: nothing is passed by reference or kept as it is. -/
def Plain : TypeNode → Prop
  | .atom _ => True
  | .list items => AllPlain items
  | .tuple items => AllPlain items
  | .array element => element.Plain
  | .generic con args => con.Plain ∧ AllPlain args
  | .byRef _ => False
  | .raw _ => False

def AllPlain : List TypeNode → Prop
  | [] => True
  | item :: rest => item.Plain ∧ AllPlain rest

end

lemma allPlain_iff (items : List TypeNode) : AllPlain items ↔ ∀ item ∈ items, item.Plain := by
  induction items with
  | nil => simp [AllPlain]
  | cons item rest ih => simp [AllPlain, ih]

lemma AllPlain.mono {items more : List TypeNode} (h : AllPlain more) (hs : items ⊆ more) :
    AllPlain items := by
  rw [allPlain_iff] at *
  exact fun item hitem => h item (hs hitem)

mutual

theorem Plain.canonical : ∀ t : TypeNode, t.Plain → t.Canonical
  | .atom _, _ => trivial
  | .list items, h => AllPlain.canonical items h
  | .tuple items, h => AllPlain.canonical items h
  | .array element, h => Plain.canonical element h
  | .generic con args, h => ⟨Plain.canonical con h.1, AllPlain.canonical args h.2⟩

theorem AllPlain.canonical : ∀ items : List TypeNode, AllPlain items → AllCanonical items
  | [], _ => trivial
  | item :: rest, h => ⟨Plain.canonical item h.1, AllPlain.canonical rest h.2⟩

end

mutual

theorem plain_of_renderable : ∀ t : TypeNode, t.isRenderable = true → t.Plain
  | .atom _, _ => trivial
  | .list items, h => by
    simp only [isRenderable, Bool.and_eq_true] at h
    exact allPlain_of_renderable items h.2
  | .tuple items, h => by
    simp only [isRenderable, Bool.and_eq_true] at h
    exact allPlain_of_renderable items h.2
  | .array element, h => plain_of_renderable element h
  | .generic con args, h => by
    simp only [isRenderable, Bool.and_eq_true] at h
    exact ⟨plain_of_renderable con h.1.2, allPlain_of_renderable args h.2⟩
  | .byRef _, h => by simp [isRenderable] at h
  | .raw _, h => by simp [isRenderable] at h

theorem allPlain_of_renderable : ∀ items : List TypeNode, areRenderable items = true →
    AllPlain items
  | [], _ => trivial
  | item :: rest, h => by
    simp only [areRenderable, Bool.and_eq_true] at h
    exact ⟨plain_of_renderable item h.1, allPlain_of_renderable rest h.2⟩

end

end TypeNode

namespace Json

mutual

def NumberFree : Json → Prop
  | .number _ => False
  | .array items => ItemsNumberFree items
  | .object fields => FieldsNumberFree fields
  | _ => True

def ItemsNumberFree : List Json → Prop
  | [] => True
  | item :: rest => item.NumberFree ∧ ItemsNumberFree rest

def FieldsNumberFree : List (String × Json) → Prop
  | [] => True
  | (_, value) :: rest => value.NumberFree ∧ FieldsNumberFree rest

end

end Json

mutual

theorem TypeNode.Plain.numberFree : ∀ t : TypeNode, t.Plain → t.toJson.NumberFree
  | .atom _, _ => trivial
  | .list items, h => TypeNode.AllPlain.numberFree items h
  | .tuple items, h => ⟨TypeNode.AllPlain.numberFree items h, trivial⟩
  | .array element, h => ⟨TypeNode.Plain.numberFree element h, trivial⟩
  | .generic con args, h =>
    ⟨TypeNode.AllPlain.numberFree args h.2, TypeNode.Plain.numberFree con h.1, trivial⟩

theorem TypeNode.AllPlain.numberFree : ∀ items : List TypeNode, TypeNode.AllPlain items →
    Json.ItemsNumberFree (TypeNode.itemsToJson items)
  | [], _ => trivial
  | item :: rest, h =>
    ⟨TypeNode.Plain.numberFree item h.1, TypeNode.AllPlain.numberFree rest h.2⟩

end

end SignatureSearch
