import SignatureSearch.Json.Basic

/-! Records in JSON. A record is an object, whose unknown fields are ignored, or an array of its
fields in their order. -/

namespace SignatureSearch

/-- The fields of a record that are present. -/
structure Record where
  /-- Given as an array. -/
  positional : Bool
  fields : List (String × Json)
  deriving DecidableEq, Repr

namespace Record

/-- The record with these fields; an array may leave fields off at its end, but have none more. -/
def ofJson? (names : List String) : Json → Option Record
  | .object fields => some ⟨false, fields⟩
  | .array items => if items.length ≤ names.length then some ⟨true, names.zip items⟩ else none
  | _ => none

def field? (r : Record) (name : String) : Option Json := r.fields.lookup name

def string? (r : Record) (name : String) : Option String := (r.field? name).bind Json.string?

def stringOrEmpty? (r : Record) (name : String) : Option String :=
  match r.field? name with
  | none => some ""
  | some v => v.string?

/-- A text or null; null also when it is not there. -/
def optional? (r : Record) (name : String) : Option (Option String) :=
  match r.field? name with
  | none => some none
  | some .null => some none
  | some v => v.string?.map some

/-- A text or null, that an array cannot leave off. -/
def presentOptional? (r : Record) (name : String) : Option (Option String) :=
  if r.positional ∧ (r.field? name).isNone then none else r.optional? name

def listOrEmpty? {α : Type} (r : Record) (name : String) (decode : Json → Option α) :
    Option (List α) :=
  match r.field? name with
  | none => some []
  | some v => v.array?.bind (List.mapM decode)

end Record

end SignatureSearch
