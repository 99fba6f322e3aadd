import SignatureSearch.Json.Basic

/-! Rows of an index. An index has five views, each a sequence of rows in the order of their
keys. -/

namespace SignatureSearch

/-- A sorted sequence of rows. -/
inductive View
  /-- From `[name, kind]` to the owner. -/
  | byName
  /-- From a signature to a member. -/
  | bySignature
  /-- From a signature, last type first, to a member. -/
  | bySignatureReverse
  /-- From an assembly to a type. -/
  | byAssembly
  /-- From the full name of a type to its assembly. -/
  | byTypeAssembly
  deriving DecidableEq, Repr

namespace View

def all : List View := [byName, bySignature, bySignatureReverse, byAssembly, byTypeAssembly]

def text : View → String
  | byName => "by-name"
  | bySignature => "by-signature"
  | bySignatureReverse => "by-signature-reverse"
  | byAssembly => "by-assembly"
  | byTypeAssembly => "by-type-assembly"

def ofText? (s : String) : Option View := all.find? fun view => view.text == s

def rank : View → Nat
  | byName => 0
  | bySignature => 1
  | bySignatureReverse => 2
  | byAssembly => 3
  | byTypeAssembly => 4

end View

/-- What a name in the catalog names. -/
inductive MemberKind
  | type
  | method
  | property
  | event
  | field
  deriving DecidableEq, Repr

namespace MemberKind

def all : List MemberKind := [type, method, property, event, field]

def text : MemberKind → String
  | type => "type"
  | method => "method"
  | property => "property"
  | event => "event"
  | field => "field"

def ofText? (s : String) : Option MemberKind := all.find? fun kind => kind.text == s

end MemberKind

structure Row where
  key : Json
  value : Json
  deriving DecidableEq, Repr

end SignatureSearch
