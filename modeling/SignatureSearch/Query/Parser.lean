import SignatureSearch.Lexeme
import SignatureSearch.Query

/-! Reading a query. The reader takes one lexeme at a time and keeps the groups that are open as a
stack, so that every beginning of an accepted text is accepted. A query is a name, or a signature
after `:`, or a signature that starts with a name or a parenthesis. Constructors behind a type apply
to the type read last, in a tuple to its last component. -/

namespace SignatureSearch

namespace Query

def maxDepth : Nat := 128

/-- What may come next in a signature. The type under construction has the components `earlier` and
`last`; outside a tuple there are no earlier ones. -/
inductive Slot
  /-- A type must come. -/
  | type
  /-- A component of a tuple must come, or the tuple ends. -/
  | component (earlier : List TypeNode) (last : TypeNode)
  /-- A type is complete: it can be extended. -/
  | suffix (earlier : List TypeNode) (last : TypeNode)
  deriving Repr

/-- A signature under construction: its finished elements and the one in work. -/
structure Level where
  elements : List TypeNode
  slot : Slot
  deriving Repr

inductive Frame
  /-- A parenthesis. -/
  | group (outer : Level)
  /-- Type arguments, with those that are complete. -/
  | arguments (outer : Level) (args : List TypeNode)
  deriving Repr

/-- The open groups, innermost first, around the level that is being read. -/
structure Reading where
  name : Option String
  level : Level
  frames : List Frame
  deriving Repr

inductive Stage
  | start
  /-- A single name, or another lexeme in its place. -/
  | named (name : String)
  | signature (reading : Reading)
  deriving Repr

inductive Step
  | next (stage : Stage)
  /-- A closing parenthesis outside all groups ends the query. -/
  | closed (query : Query)
  deriving Repr

/-- Components that make up one element: a single component is no tuple. -/
def joinComponents (earlier : List TypeNode) (last : TypeNode) : TypeNode :=
  if earlier.isEmpty then last else .tuple (earlier ++ [last])

namespace Level

def empty : Level := ⟨[], .type⟩

def finish (l : Level) : List TypeNode :=
  match l.slot with
  | .type => l.elements
  | .component earlier last => l.elements ++ [joinComponents earlier last]
  | .suffix earlier last => l.elements ++ [joinComponents earlier last]

def addType (l : Level) (node : TypeNode) : Level :=
  match l.slot with
  | .type => { l with slot := .suffix [] node }
  | .component earlier last => { l with slot := .suffix (earlier ++ [last]) node }
  | .suffix _ _ => l

def mapLast (l : Level) (f : TypeNode → TypeNode) : Level :=
  match l.slot with
  | .suffix earlier last => { l with slot := .suffix earlier (f last) }
  | _ => l

end Level

def applyPostfix (con : String) (operand : TypeNode) : TypeNode :=
  if con = "array" then .array operand else .generic (.atom con) [operand]

/-- The node of a group: one element stands for itself. -/
def groupNode (elements : List TypeNode) : TypeNode :=
  match elements with
  | [only] => only
  | _ => .list elements

/-- The arguments with one more, unless it is empty. -/
def addArgument (args : List TypeNode) (elements : List TypeNode) : List TypeNode :=
  if elements.isEmpty then args else args ++ [groupNode elements]

def Frame.close (frame : Frame) (elements : List TypeNode) : Level :=
  match frame with
  | .group outer => outer.addType (groupNode elements)
  | .arguments outer args => outer.mapLast fun con => .generic con (addArgument args elements)

def finishAll : List TypeNode → List Frame → List TypeNode
  | elements, [] => elements
  | elements, frame :: frames => finishAll (frame.close elements).finish frames

namespace Reading

def finish (r : Reading) : Query := ⟨r.name, some (finishAll r.level.finish r.frames)⟩

def openGroup (r : Reading) (frame : Frame) (position : Nat) : Except ParseError Reading :=
  if r.frames.length < maxDepth then .ok { r with level := .empty, frames := frame :: r.frames }
  else .error (.tooDeep position)

/-- Closes the innermost group or begins its next argument, if the lexeme does that; `none` if it
has another meaning. -/
def close? (r : Reading) (t : Lexeme) : Option Step :=
  match t, r.frames with
  | .closeParen, [] => some (.closed r.finish)
  | .closeParen, .group outer :: frames =>
    some (.next (.signature
      { r with level := (Frame.group outer).close r.level.finish, frames := frames }))
  | .comma, .arguments outer args :: frames =>
    some (.next (.signature
      { r with
        level := .empty
        frames := .arguments outer (addArgument args r.level.finish) :: frames }))
  | .greater, .arguments outer args :: frames =>
    some (.next (.signature
      { r with level := (Frame.arguments outer args).close r.level.finish, frames := frames }))
  | _, _ => none

def nextElement (r : Reading) : Reading := { r with level := ⟨r.level.finish, .type⟩ }

def withLevel (r : Reading) (level : Level) : Except ParseError Step :=
  .ok (.next (.signature { r with level := level }))

/-- Reads a lexeme where a type must come. -/
def stepType (r : Reading) (position : Nat) (t : Lexeme) : Except ParseError Step :=
  match t with
  | .openParen => (r.openGroup (.group r.level) position).map fun r => .next (.signature r)
  | .name name => r.withLevel (r.level.addType (.atom name))
  | other => .error (.expectingType position other.text)

def step (r : Reading) (position : Nat) (t : Lexeme) : Except ParseError Step :=
  match r.level.slot with
  | .type => r.stepType position t
  | .component _ _ =>
    if t = .arrow then .ok (.next (.signature r.nextElement))
    else
      match r.close? t with
      | some step => .ok step
      | none => r.stepType position t
  | .suffix earlier last =>
    if t = .arrow then .ok (.next (.signature r.nextElement))
    else
      match r.close? t with
      | some step => .ok step
      | none =>
        match t with
        | .star => r.withLevel { r.level with slot := .component earlier last }
        | .less => (r.openGroup (.arguments r.level []) position).map fun r => .next (.signature r)
        | .name con => r.withLevel (r.level.mapLast (applyPostfix con))
        | other => .error (.unexpected position other.text)

end Reading

namespace Stage

/-- The query that ends here. Groups that are still open count as closed. -/
def finish : Stage → Query
  | start => .empty
  | named name => .ofName name
  | signature reading => reading.finish

def step (stage : Stage) (position : Nat) (t : Lexeme) : Except ParseError Step :=
  match stage with
  | start =>
    match t with
    | .colon => .ok (.next (.signature ⟨none, .empty, []⟩))
    | .openParen => Reading.step ⟨none, .empty, []⟩ position t
    | other => .ok (.next (.named other.text))
  | named name =>
    match t with
    | .colon => .ok (.next (.signature ⟨some name, .empty, []⟩))
    | other => Reading.step ⟨none, ⟨[], .suffix [] (.atom name)⟩, []⟩ position other
  | signature reading => reading.step position t

end Stage

structure Fragment where
  query : Query
  /-- The position after the last lexeme that was read. -/
  next : Nat
  /-- The lexeme that ended the query, unless the lexemes did. -/
  closedBy : Option Lexeme
  deriving Repr

/-- Reads on from a stage; `position` is that of the first lexeme given. -/
def read (stage : Stage) (position : Nat) : List Lexeme → Except ParseError Fragment
  | [] => .ok ⟨stage.finish, position, none⟩
  | t :: rest =>
    match stage.step position t with
    | .error e => .error e
    | .ok (.closed query) => .ok ⟨query, position + 1, some t⟩
    | .ok (.next stage) => read stage (position + 1) rest

/-- Reads from a position to the end or to a closing parenthesis outside all groups. -/
def parseFragment (tokens : List Lexeme) (start : Nat) : Except ParseError Fragment :=
  read .start start (tokens.drop start)

def ofLexemes (tokens : List Lexeme) : Except ParseError Query :=
  (parseFragment tokens 0).map Fragment.query

def parse (text : String) : Except ParseError Query := ofLexemes (Lexeme.tokenize text)

end Query

end SignatureSearch
