import SignatureSearch.Json.Printer

/-! Type expressions. A node has a JSON form, on which index keys are built, and a display text. -/

namespace SignatureSearch

inductive TypeNode
  /-- A type, a type variable or a constructor by its name. -/
  | atom (name : String)
  /-- A nested signature, such as the type of a function argument. -/
  | list (items : List TypeNode)
  | tuple (items : List TypeNode)
  | array (element : TypeNode)
  | generic (con : TypeNode) (args : List TypeNode)
  /-- An argument passed by reference; no query text denotes it. -/
  | byRef (element : TypeNode)
  /-- A shape that is not recognized, kept as it is. -/
  | raw (value : Json)
  deriving Repr, Inhabited

namespace TypeNode

mutual

def toJson : TypeNode → Json
  | .atom name => .string name
  | .list items => .array (itemsToJson items)
  | .tuple items => .object [("tuple", .array (itemsToJson items))]
  | .array element => .object [("array", element.toJson)]
  | .generic con args => .object [("args", .array (itemsToJson args)), ("tyCon", con.toJson)]
  | .byRef element => .object [("byRef", element.toJson)]
  | .raw value => value

def itemsToJson : List TypeNode → List Json
  | [] => []
  | item :: rest => item.toJson :: itemsToJson rest

end

mutual

/-- The node that a JSON value stands for; every value stands for one. -/
def ofJson : Json → TypeNode
  | .string name => .atom name
  | .array items => .list (ofItems items)
  | .object fields => (ofFields? fields).getD (.raw (.object fields))
  | value => .raw value

def ofItems : List Json → List TypeNode
  | [] => []
  | item :: rest => ofJson item :: ofItems rest

def ofArray? : Json → Option (List TypeNode)
  | .array items => some (ofItems items)
  | _ => none

/-- The node of an object of a known shape: one field `tuple`, `array` or `byRef`, or the two
fields `args` and `tyCon`. -/
def ofFields? : List (String × Json) → Option TypeNode
  | [] => none
  | (name, value) :: rest =>
    match rest with
    | [] =>
      if name = "tuple" then (ofArray? value).map .tuple
      else if name = "array" then some (.array (ofJson value))
      else if name = "byRef" then some (.byRef (ofJson value))
      else none
    | (second, con) :: more =>
      match more with
      | [] =>
        if name = "args" ∧ second = "tyCon" then (ofArray? value).map (.generic (ofJson con))
        else none
      | _ :: _ => none

end

/-- The name that matches anything at either end of a signature. -/
def wildcard : String := "_"

def isWildcard : TypeNode → Bool
  | .atom name => name == wildcard
  | _ => false

def signatureKey (nodes : List TypeNode) : Json := .array (itemsToJson nodes)

/-- The constructors that are written behind their only argument. -/
def postfixConstructors : List String := ["array", "list", "option"]

def isPostfix : TypeNode → Bool
  | .atom name => postfixConstructors.contains name
  | _ => false

def isTuple : TypeNode → Bool
  | .tuple _ => true
  | _ => false

/-- Encloses the text of a tuple where it is an operand. -/
def operandText (node : TypeNode) (text : String) : String :=
  if node.isTuple then "(" ++ text ++ ")" else text

mutual

def text : TypeNode → String
  | .atom name => name
  | .list items => "(" ++ " -> ".intercalate (texts items) ++ ")"
  | .tuple items => " * ".intercalate (operandTexts items)
  | .array element => operandText element element.text ++ " array"
  | .generic con args =>
    match args with
    | [arg] =>
      if con.isPostfix then operandText arg arg.text ++ " " ++ con.text
      else con.text ++ "<" ++ arg.text ++ ">"
    | args => con.text ++ "<" ++ ", ".intercalate (texts args) ++ ">"
  | .byRef element => (TypeNode.byRef element).toJson.text
  | .raw value => value.text

def texts : List TypeNode → List String
  | [] => []
  | item :: rest => item.text :: texts rest

def operandTexts : List TypeNode → List String
  | [] => []
  | item :: rest => operandText item item.text :: operandTexts rest

end

def signatureText (nodes : List TypeNode) : String := " -> ".intercalate (texts nodes)

end TypeNode

end SignatureSearch
