import SignatureSearch.Json.Record
import SignatureSearch.TypeNode
import SignatureSearch.Row

/-! Catalog documents. A document describes a type and its members. The prototypes of members are
made of tagged nodes such as `{"keyword": {"name": "int"}}`; any value that is not a node of a known
shape is kept as it is. `CatalogNode.normalize` maps nodes to type expressions. -/

namespace SignatureSearch

inductive CatalogNode
  | array (element : CatalogNode)
  | byRef (element : CatalogNode)
  | func (prototype : List CatalogNode)
  | generic (name : String)
  | genericApp (con : CatalogNode) (args : List CatalogNode)
  | keyword (name : String)
  | tuple (args : List CatalogNode)
  | named (name : String)
  /-- A value of another shape. -/
  | unknown (value : Json)
  deriving Repr, Inhabited

namespace CatalogNode

mutual

/-- Reads a node; every value is one. -/
def ofJson : Json → CatalogNode
  | .object fields => (ofTagged? fields).getD (.unknown (.object fields))
  | value => .unknown value

def ofItems : List Json → List CatalogNode
  | [] => []
  | item :: rest => ofJson item :: ofItems rest

/-- A node of a known shape: an object with one field, the tag. -/
def ofTagged? : List (String × Json) → Option CatalogNode
  | [] => none
  | (tag, body) :: rest => if rest.isEmpty then ofBody? tag body else none

/-- The node of a tag. Its body is an object or an array of the same fields. -/
def ofBody? (tag : String) : Json → Option CatalogNode
  | .object fields =>
    if tag = "array" then (nodeField? "element" fields).map .array
    else if tag = "byRef" then (nodeField? "element" fields).map .byRef
    else if tag = "func" then (nodesField? "prototype" fields).map .func
    else if tag = "generic" then (nameField? fields).map .generic
    else if tag = "genericApp" then
      match nodeField? "tyCon" fields, nodesField? "args" fields with
      | some con, some args => some (.genericApp con args)
      | _, _ => none
    else if tag = "keyword" then (nameField? fields).map .keyword
    else if tag = "tuple" then (nodesField? "args" fields).map .tuple
    else if tag = "def" then (nameField? fields).map .named
    else none
  | .array items => ofBodyItems? tag items
  | _ => none

/-- The node of a tag with a body in array form. -/
def ofBodyItems? (tag : String) : List Json → Option CatalogNode
  | [] => none
  | first :: rest =>
    if tag = "genericApp" then (onlyNodes? rest).map (.genericApp (ofJson first))
    else if rest.isEmpty then
      if tag = "array" then some (.array (ofJson first))
      else if tag = "byRef" then some (.byRef (ofJson first))
      else if tag = "func" then (nodes? first).map .func
      else if tag = "generic" then first.string?.map .generic
      else if tag = "keyword" then first.string?.map .keyword
      else if tag = "tuple" then (nodes? first).map .tuple
      else if tag = "def" then first.string?.map .named
      else none
    else none

def nodes? : Json → Option (List CatalogNode)
  | .array items => some (ofItems items)
  | _ => none

/-- The nodes of the only item. -/
def onlyNodes? : List Json → Option (List CatalogNode)
  | [] => none
  | item :: rest => if rest.isEmpty then nodes? item else none

def nodeField? (name : String) : List (String × Json) → Option CatalogNode
  | [] => none
  | (other, value) :: rest => if other = name then some (ofJson value) else nodeField? name rest

/-- The nodes in a field that holds an array. -/
def nodesField? (name : String) : List (String × Json) → Option (List CatalogNode)
  | [] => none
  | (other, value) :: rest => if other = name then nodes? value else nodesField? name rest

def nameField? : List (String × Json) → Option String
  | [] => none
  | (other, value) :: rest => if other = "name" then value.string? else nameField? rest

end

def isKnown : CatalogNode → Bool
  | .unknown _ => false
  | _ => true

def tagged (tag : String) (body : List (String × Json)) : Json := .object [(tag, .object body)]

mutual

def toJson : CatalogNode → Json
  | .array element => tagged "array" [("element", element.toJson)]
  | .byRef element => tagged "byRef" [("element", element.toJson)]
  | .func prototype => tagged "func" [("prototype", .array (itemsToJson prototype))]
  | .generic name => tagged "generic" [("name", .string name)]
  | .genericApp con args =>
    tagged "genericApp" [("args", .array (itemsToJson args)), ("tyCon", con.toJson)]
  | .keyword name => tagged "keyword" [("name", .string name)]
  | .tuple args => tagged "tuple" [("args", .array (itemsToJson args))]
  | .named name => tagged "def" [("name", .string name)]
  | .unknown value => value

def itemsToJson : List CatalogNode → List Json
  | [] => []
  | item :: rest => item.toJson :: itemsToJson rest

end

mutual

/-- The type expression that a node stands for. -/
def normalize : CatalogNode → TypeNode
  | .array element => .array element.normalize
  | .byRef element => .byRef element.normalize
  | .func prototype => .list (normalizeAll prototype)
  | .generic name => .atom name
  | .genericApp con args => .generic con.normalize (normalizeAll args)
  | .keyword name => .atom name
  | .tuple args => .tuple (normalizeAll args)
  | .named name => .atom name
  | .unknown value => TypeNode.ofJson value

def normalizeAll : List CatalogNode → List TypeNode
  | [] => []
  | item :: rest => item.normalize :: normalizeAll rest

end

end CatalogNode

/-- The identity of a type. -/
structure MemberKey where
  revision : String
  namespaceName : String
  name : String
  deriving DecidableEq, Repr

namespace MemberKey

/-- The name with its namespace in front, unless that is empty. -/
def fullName (k : MemberKey) : String :=
  if k.namespaceName = "" then k.name else k.namespaceName ++ "." ++ k.name

def ofJson? (v : Json) : Option MemberKey := do
  let r ← Record.ofJson? ["_rev", "namespace", "name"] v
  return ⟨← r.string? "_rev", ← r.string? "namespace", ← r.string? "name"⟩

def toJson (k : MemberKey) : Json :=
  .object [("_rev", .string k.revision), ("name", .string k.name),
    ("namespace", .string k.namespaceName)]

end MemberKey

/-- The assembly that defines a type. -/
structure AssemblyRef where
  revision : String
  assemblyName : Option String
  deriving DecidableEq, Repr

namespace AssemblyRef

def ofJson? (v : Json) : Option AssemblyRef := do
  let r ← Record.ofJson? ["_rev", "assemblyName"] v
  return ⟨← r.string? "_rev", ← r.presentOptional? "assemblyName"⟩

def toJson (a : AssemblyRef) : Json :=
  match a.assemblyName with
  | some name => .object [("_rev", .string a.revision), ("assemblyName", .string name)]
  | none => .object [("_rev", .string a.revision)]

end AssemblyRef

structure CatalogMember where
  name : String
  prototype : Option (List CatalogNode)
  deriving Repr, Inhabited

namespace CatalogMember

def ofJson? (v : Json) : Option CatalogMember := do
  let r ← Record.ofJson? ["name", "prototype"] v
  let name ← r.string? "name"
  match r.field? "prototype" with
  | none => return ⟨name, none⟩
  | some .null => return ⟨name, none⟩
  | some v => return ⟨name, some (← CatalogNode.nodes? v)⟩

def toJson (m : CatalogMember) : Json :=
  match m.prototype with
  | some nodes =>
    .object [("name", .string m.name), ("prototype", .array (CatalogNode.itemsToJson nodes))]
  | none => .object [("name", .string m.name)]

end CatalogMember

/-- A document of the catalog. Only a document of the type `"type"` describes a type. -/
structure CatalogDocument where
  docType : String
  revision : String
  namespaceName : String
  name : String
  assembly : Option String
  assemblyName : Option String
  methods : List CatalogMember
  properties : List CatalogMember
  events : List CatalogMember
  fields : List CatalogMember
  deriving Repr, Inhabited

namespace CatalogDocument

/-- The value of the field `type` of documents that describe a type. -/
def typeDocument : String := "type"

def isType (d : CatalogDocument) : Bool := d.docType == typeDocument

def ofJson? (v : Json) : Option CatalogDocument := do
  let r ← Record.ofJson? ["type", "_rev", "namespace", "name", "assembly", "assemblyName",
    "methods", "properties", "events", "fields"] v
  return {
    docType := ← r.stringOrEmpty? "type"
    revision := ← r.stringOrEmpty? "_rev"
    namespaceName := ← r.stringOrEmpty? "namespace"
    name := ← r.stringOrEmpty? "name"
    assembly := ← r.optional? "assembly"
    assemblyName := ← r.optional? "assemblyName"
    methods := ← r.listOrEmpty? "methods" CatalogMember.ofJson?
    properties := ← r.listOrEmpty? "properties" CatalogMember.ofJson?
    events := ← r.listOrEmpty? "events" CatalogMember.ofJson?
    fields := ← r.listOrEmpty? "fields" CatalogMember.ofJson? }

def optionalText : Option String → Json
  | some s => .string s
  | none => .null

def toJson (d : CatalogDocument) : Json :=
  .object [("_rev", .string d.revision), ("assembly", optionalText d.assembly),
    ("assemblyName", optionalText d.assemblyName),
    ("events", .array (d.events.map CatalogMember.toJson)),
    ("fields", .array (d.fields.map CatalogMember.toJson)),
    ("methods", .array (d.methods.map CatalogMember.toJson)), ("name", .string d.name),
    ("namespace", .string d.namespaceName),
    ("properties", .array (d.properties.map CatalogMember.toJson)), ("type", .string d.docType)]

def key (d : CatalogDocument) : MemberKey := ⟨d.revision, d.namespaceName, d.name⟩

def fullName (d : CatalogDocument) : String :=
  if d.namespaceName = "" then d.name else d.namespaceName ++ "." ++ d.name

def members (d : CatalogDocument) : List (MemberKind × CatalogMember) :=
  d.methods.map (fun m => (.method, m)) ++ d.properties.map (fun m => (.property, m)) ++
    d.events.map (fun m => (.event, m)) ++ d.fields.map (fun m => (.field, m))

/-- The members that have rows in the signature views. -/
def signatureMembers (d : CatalogDocument) : List CatalogMember := d.methods ++ d.properties

end CatalogDocument

end SignatureSearch
