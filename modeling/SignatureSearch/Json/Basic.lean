import SignatureSearch.Number.Binary64

/-! JSON values. Numbers keep the distinction between whole numbers of 64 bits and binary64
numbers, and objects list their fields; `Json.ofFields` puts fields in ascending order of name. -/

namespace SignatureSearch

/-- A whole number that fits in 64 bits, with or without a sign. -/
structure WordInt where
  value : Int
  lower : -(1 <<< 63 : Nat) ≤ value
  upper : value < (1 <<< 64 : Nat)
  deriving DecidableEq, Repr

def WordInt.ofInt? (n : Int) : Option WordInt :=
  if h : -(1 <<< 63 : Nat) ≤ n ∧ n < (1 <<< 64 : Nat) then some ⟨n, h.1, h.2⟩ else none

inductive Number
  | integer (n : WordInt)
  | float (x : Binary64)
  deriving DecidableEq, Repr

def Number.toBinary64 : Number → Binary64
  | .integer n => Binary64.ofInt n.value
  | .float x => x

inductive Json
  | null
  | bool (value : Bool)
  | number (value : Number)
  | string (value : String)
  | array (items : List Json)
  | object (fields : List (String × Json))
  deriving Repr, Inhabited

namespace Json

mutual

/-- Equality as a Boolean function. -/
def same : Json → Json → Bool
  | .null, .null => true
  | .bool a, .bool b => a == b
  | .number a, .number b => decide (a = b)
  | .string a, .string b => decide (a = b)
  | .array as, .array bs => sameItems as bs
  | .object as, .object bs => sameFields as bs
  | _, _ => false

def sameItems : List Json → List Json → Bool
  | [], [] => true
  | a :: as, b :: bs => same a b && sameItems as bs
  | _, _ => false

def sameFields : List (String × Json) → List (String × Json) → Bool
  | [], [] => true
  | (k, a) :: as, (l, b) :: bs => decide (k = l) && same a b && sameFields as bs
  | _, _ => false

end

mutual

theorem same_iff : ∀ a b : Json, same a b = true ↔ a = b
  | .null, b => by cases b <;> simp [same]
  | .bool _, b => by cases b <;> simp [same]
  | .number _, b => by cases b <;> simp [same]
  | .string _, b => by cases b <;> simp [same]
  | .array as, b => by
    cases b with
    | array bs => simp [same, sameItems_iff as bs]
    | _ => simp [same]
  | .object as, b => by
    cases b with
    | object bs => simp [same, sameFields_iff as bs]
    | _ => simp [same]

theorem sameItems_iff : ∀ as bs : List Json, sameItems as bs = true ↔ as = bs
  | [], bs => by cases bs <;> simp [sameItems]
  | a :: as, bs => by
    cases bs with
    | nil => simp [sameItems]
    | cons b bs => simp [sameItems, same_iff a b, sameItems_iff as bs]

theorem sameFields_iff : ∀ as bs : List (String × Json), sameFields as bs = true ↔ as = bs
  | [], bs => by cases bs <;> simp [sameFields]
  | (k, a) :: as, bs => by
    cases bs with
    | nil => simp [sameFields]
    | cons b bs =>
      obtain ⟨l, b⟩ := b
      simp [sameFields, same_iff a b, sameFields_iff as bs]

end

instance : DecidableEq Json := fun a b => decidable_of_iff _ (same_iff a b)

mutual

/-- How deep containers are nested: zero for a scalar. -/
def nesting : Json → Nat
  | .array items => itemsNesting items + 1
  | .object fields => fieldsNesting fields + 1
  | _ => 0

def itemsNesting : List Json → Nat
  | [] => 0
  | item :: rest => max (nesting item) (itemsNesting rest)

def fieldsNesting : List (String × Json) → Nat
  | [] => 0
  | (_, value) :: rest => max (nesting value) (fieldsNesting rest)

end

/-- Inserts a field before the first greater name; an equal name gets the new value. -/
def insertField (name : String) (value : Json) : List (String × Json) → List (String × Json)
  | [] => [(name, value)]
  | (other, old) :: rest =>
    if name < other then (name, value) :: (other, old) :: rest
    else if name = other then (name, value) :: rest
    else (other, old) :: insertField name value rest

/-- The object with these fields, in ascending order; of equal names the last one counts. -/
def ofFields (fields : List (String × Json)) : Json :=
  .object (fields.foldl (fun sorted field => insertField field.1 field.2 sorted) [])

mutual

/-- Every object lists its fields in strictly ascending order of name. -/
def Sorted : Json → Prop
  | .array items => ItemsSorted items
  | .object fields => fields.Pairwise (fun a b => a.1 < b.1) ∧ FieldsSorted fields
  | _ => True

def ItemsSorted : List Json → Prop
  | [] => True
  | item :: rest => Sorted item ∧ ItemsSorted rest

def FieldsSorted : List (String × Json) → Prop
  | [] => True
  | (_, value) :: rest => Sorted value ∧ FieldsSorted rest

end

/-- The field of an object; other values have none. -/
def field? (name : String) : Json → Option Json
  | .object fields => fields.lookup name
  | _ => none

def item? (index : Nat) : Json → Option Json
  | .array items => items[index]?
  | _ => none

def string? : Json → Option String
  | .string s => some s
  | _ => none

def array? : Json → Option (List Json)
  | .array items => some items
  | _ => none

end Json

end SignatureSearch
