import SignatureSearch.Query
import SignatureSearch.Scan

/-! Plans. A query becomes one scan of one view:

* a name: the names that begin with it;
* the empty signature: all signatures;
* a signature after a leading wildcard: the signatures that end so, in the reverse view;
* a signature before a closing wildcard: the signatures that begin so;
* a signature that ends in a name: that name taken as the beginning of one;
* any other signature: itself. -/

namespace SignatureSearch

inductive ResultShape
  | byName
  /-- In the reverse view the keys are turned around first. -/
  | bySignature (reverse : Bool)
  deriving DecidableEq, Repr

/-- A scan that answers a query. -/
structure Plan where
  view : View
  shape : ResultShape
  scan : Scan
  deriving DecidableEq, Repr

/-- A row as it is shown; signatures come with their text. -/
structure ResultRow where
  key : Json
  value : Json
  signature : Option String
  deriving DecidableEq, Repr

inductive SearchResults
  | byName (rows : List ResultRow)
  | bySignature (rows : List ResultRow)
  deriving DecidableEq, Repr

def SearchResults.rows : SearchResults → List ResultRow
  | byName rows => rows
  | bySignature rows => rows

namespace Plan

inductive Outcome
  /-- An empty query: nothing is scanned. -/
  | nothing
  /-- A query of both a name and a signature. -/
  | conflict
  | scan (plan : Plan)
  deriving DecidableEq, Repr

def defaultLimit : Nat := 100

/-- The keys that continue `start` by at least one item. -/
def continuations (start : List Json) (limit : Nat) : Scan :=
  .between (.array (start ++ [lowSentinel])) (.array (start ++ [highSentinel])) limit

def ofName (name : String) (limit : Nat) : Plan :=
  ⟨.byName, .byName,
    .between (.array [.string name]) (.array [.string (upperBound name)]) limit⟩

def forward (scan : Scan) : Plan := ⟨.bySignature, .bySignature false, scan⟩

def ofPrototype (prototype : List TypeNode) (limit : Nat) : Plan :=
  match prototype with
  | [] => forward (continuations [] limit)
  | first :: rest =>
    if first.isWildcard then
      ⟨.bySignatureReverse, .bySignature true,
        continuations (rest.reverse.map TypeNode.toJson) limit⟩
    else
      let last := (first :: rest).getLast (List.cons_ne_nil first rest)
      let start := (first :: rest).dropLast.map TypeNode.toJson
      if last.isWildcard then forward (continuations start limit)
      else
        match last with
        | .atom name =>
          forward (.between (.array (start ++ [.string name]))
            (.array (start ++ [.string (upperBound name)])) limit)
        | other => forward (.exact (.array (start ++ [other.toJson])) limit)

/-- The plan of a query. A query of a name and a signature has none, and an empty query needs
none. -/
def ofQuery (q : Query) (limit : Nat) : Outcome :=
  match q.name, q.prototype with
  | some _, some _ => .conflict
  | some name, none => .scan (ofName name limit)
  | none, some prototype => .scan (ofPrototype prototype limit)
  | none, none => .nothing

/-- The nodes of a signature key; any other key counts as one node. -/
def keyNodes : Json → List TypeNode
  | .array items => TypeNode.ofItems items
  | other => [TypeNode.ofJson other]

def signatureRow (reverse : Bool) (row : Row) : ResultRow :=
  let nodes := if reverse then (keyNodes row.key).reverse else keyNodes row.key
  ⟨TypeNode.signatureKey nodes, row.value, some (TypeNode.signatureText nodes)⟩

def shapeRows (p : Plan) (rows : List Row) : SearchResults :=
  match p.shape with
  | .byName => .byName (rows.map fun row => ⟨row.key, row.value, none⟩)
  | .bySignature reverse => .bySignature (rows.map (signatureRow reverse))

end Plan

end SignatureSearch
