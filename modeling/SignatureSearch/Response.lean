import SignatureSearch.Json.Record
import SignatureSearch.Plan

/-! Answers to searches, and their JSON form. -/

namespace SignatureSearch

namespace ResultRow

def toJson (r : ResultRow) : Json :=
  .object ([("key", r.key), ("value", r.value)] ++
    (r.signature.map fun s => ("signature", Json.string s)).toList)

def ofJson? (v : Json) : Option ResultRow := do
  let r ← Record.ofJson? ["key", "value", "signature"] v
  return ⟨← r.field? "key", ← r.field? "value", ← r.presentOptional? "signature"⟩

end ResultRow

namespace SearchResults

def toJson : SearchResults → Json
  | .byName rows => .object [("byName", .array (rows.map ResultRow.toJson))]
  | .bySignature rows => .object [("bySignature", .array (rows.map ResultRow.toJson))]

def ofJson? : Json → Option SearchResults
  | .object [(tag, .array rows)] => do
    let rows ← rows.mapM ResultRow.ofJson?
    if tag = "byName" then return .byName rows
    else if tag = "bySignature" then return .bySignature rows
    else none
  | _ => none

end SearchResults

/-- The answer to a query. It repeats the text of the query and the token of the caller. -/
structure SearchResponse where
  query : String
  token : Option String
  /-- The name that was searched for. -/
  name : Option String
  /-- The text of the signature that was searched for. -/
  prototype : Option String
  /-- Nothing if the query was empty. -/
  results : Option SearchResults
  deriving DecidableEq, Repr

namespace SearchResponse

def rows (r : SearchResponse) : List ResultRow := (r.results.map SearchResults.rows).getD []

/-- A field that is left out when it is empty. -/
def optionalField (name : String) (value : Option Json) : List (String × Json) :=
  (value.map fun v => (name, v)).toList

def toJson (r : SearchResponse) : Json :=
  .object (("query", .string r.query) :: optionalField "token" (r.token.map .string) ++
    optionalField "name" (r.name.map .string) ++
    optionalField "prototype" (r.prototype.map .string) ++
    optionalField "results" (r.results.map SearchResults.toJson))

/-- The results in a field; null counts as none. -/
def resultsField? (r : Record) : Option (Option SearchResults) :=
  match r.field? "results" with
  | none => if r.positional then none else some none
  | some .null => some none
  | some v => (SearchResults.ofJson? v).map some

def ofJson? (v : Json) : Option SearchResponse := do
  let r ← Record.ofJson? ["query", "token", "name", "prototype", "results"] v
  return {
    query := ← r.string? "query"
    token := ← r.presentOptional? "token"
    name := ← r.presentOptional? "name"
    prototype := ← r.presentOptional? "prototype"
    results := ← resultsField? r }

end SearchResponse

end SignatureSearch
