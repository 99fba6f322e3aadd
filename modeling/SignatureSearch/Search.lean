import SignatureSearch.Failure
import SignatureSearch.Indexing
import SignatureSearch.Query.Parser
import SignatureSearch.Response

/-! Searching. A search reads a query, plans one scan, runs it on a store and shows the rows. Any
store that can scan will do. -/

namespace SignatureSearch

/-- The reading side of a store. -/
abbrev Scanner := View → Scan → Except Failure (List Row)

structure SearchOptions where
  /-- The most rows wanted; the limit of the engine is not exceeded. -/
  limit : Option Nat
  /-- A text that the answer repeats. -/
  token : Option String
  deriving DecidableEq, Repr

namespace SearchOptions

def none : SearchOptions := ⟨.none, .none⟩

def effectiveLimit (o : SearchOptions) (engineLimit : Nat) : Nat :=
  match o.limit with
  | some limit => min limit engineLimit
  | .none => engineLimit

end SearchOptions

/-- A store to search, and the most rows of an answer. -/
structure Engine where
  scan : Scanner
  limit : Nat

namespace Engine

/-- Answers a query. Nothing is scanned for an empty query. -/
def search (e : Engine) (text : String) (options : SearchOptions) :
    Except SearchError SearchResponse :=
  match Query.parse text with
  | .error error => .error (.parse error)
  | .ok query =>
    let response (results : Option SearchResults) : SearchResponse :=
      ⟨text, options.token, query.name, query.prototype.map TypeNode.signatureText, results⟩
    match Plan.ofQuery query (options.effectiveLimit e.limit) with
    | .conflict => .error .conflict
    | .nothing => .ok (response none)
    | .scan plan =>
      match e.scan plan.view plan.scan with
      | .error failure => .error (.storage (failure.within ("Failed to scan " ++ plan.view.text)))
      | .ok rows => .ok (response (some (plan.shapeRows rows)))

def lookup {α : Type} (e : Engine) (view : View) (key : String) (decode : Json → Option α)
    (activity : String) : Except Failure (List α) :=
  match e.scan view (.exact (.string key) e.limit) with
  | .error failure => .error failure
  | .ok rows =>
    match rows.mapM fun row => decode row.value with
    | some values => .ok values
    | none => during activity (failWith .malformedJson)

def typesInAssembly (e : Engine) (assembly : String) : Except Failure (List MemberKey) :=
  e.lookup .byAssembly assembly MemberKey.ofJson? "Malformed by-assembly row"

def findType (e : Engine) (fullName : String) : Except Failure (List AssemblyRef) :=
  e.lookup .byTypeAssembly fullName AssemblyRef.ofJson? "Malformed by-type-assembly row"

end Engine

def MemoryStore.engine (s : MemoryStore) (limit : Nat) : Engine :=
  ⟨fun view scan => .ok (s.scan view scan), limit⟩

def MemoryStore.insertBatches (s : MemoryStore) (batches : List Batch) : MemoryStore :=
  batches.foldl (fun s batch => s.insert batch.view batch.rows) s

def MemoryStore.write (s : MemoryStore) (documents : List Json) (batchSize : Nat) :
    MemoryStore × BuildSummary :=
  let build := Build.ofDocuments documents batchSize
  (s.insertBatches build.allBatches, build.summary)

end SignatureSearch
