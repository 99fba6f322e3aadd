import SignatureSearch.TypeNode

/-! Queries: a member name, a signature, both or neither. -/

namespace SignatureSearch

/-- A query that was read. Planning refuses one with both parts; one with neither finds nothing. -/
structure Query where
  name : Option String
  prototype : Option (List TypeNode)
  deriving Repr, Inhabited

/-- Why lexemes do not form a query. `position` counts the lexemes before the offending one. -/
inductive ParseError
  /-- Something else stands where a type must. -/
  | expectingType (position : Nat) (found : String)
  /-- Something that cannot follow a type. -/
  | unexpected (position : Nat) (found : String)
  /-- A group opens inside too many others. -/
  | tooDeep (position : Nat)
  deriving DecidableEq, Repr

namespace ParseError

def position : ParseError → Nat
  | expectingType position _ => position
  | unexpected position _ => position
  | tooDeep position => position

def message : ParseError → String
  | expectingType _ _ => "expecting type"
  | unexpected _ found => "unexpected '" ++ found ++ "'"
  | tooDeep _ => "type nested too deeply"

end ParseError

namespace Query

def empty : Query := ⟨none, none⟩

def ofName (name : String) : Query := ⟨some name, none⟩

def ofPrototype (prototype : List TypeNode) : Query := ⟨none, some prototype⟩

def isEmpty (q : Query) : Bool := q.name.isNone && q.prototype.isNone

end Query

end SignatureSearch
