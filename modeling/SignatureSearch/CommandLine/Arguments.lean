import SignatureSearch.Number.Count

/-! Arguments of the command line. Options may be long or short, short ones may be joined, and a
value may follow its option after an equals sign or as the next argument. A lone `--` ends the
options. -/

namespace SignatureSearch

namespace CommandLine

inductive Command
  | index (paths : List String) (force quiet : Bool)
  | query (text : String) (json pretty : Bool) (limit : Option Nat) (plain : Bool)
  | assembly (name : String) (json pretty : Bool)
  | type (fullName : String) (json pretty : Bool)
  | serve (port : Nat) (host : String)
  | stats (json pretty : Bool)
  | clear (yes : Bool)
  deriving DecidableEq, Repr

inductive Invocation
  | run (root : String) (command : Command)
  | version
  | help
  /-- The arguments are no proper use of the program. -/
  | misuse
  deriving DecidableEq, Repr

inductive ValueKind
  | text
  /-- A path is not empty. -/
  | path
  | count
  | port
  deriving DecidableEq, Repr

def ValueKind.accepts : ValueKind → String → Bool
  | text, _ => true
  | path, value => value != ""
  | count, value => (Count.parse? value).isSome
  | port, value => (Count.parsePort? value).isSome

inductive OptionKind
  | flag
  /-- A flag that may be repeated. -/
  | counted
  | value (kind : ValueKind)
  | help
  | version
  deriving DecidableEq, Repr

structure OptionSpec where
  long : String
  short : Option Char
  kind : OptionKind
  deriving DecidableEq, Repr

def OptionSpec.takesValue (option : OptionSpec) : Bool :=
  match option.kind with
  | .value _ => true
  | _ => false

def OptionSpec.acceptsValue (option : OptionSpec) (value : String) : Bool :=
  match option.kind with
  | .value kind => kind.accepts value
  | _ => false

/-- The options and the positional arguments of a level of the command line. -/
structure Level where
  options : List OptionSpec
  /-- How many positional arguments are accepted; `none` stands for any number. -/
  positionals : Option Nat
  /-- What positional arguments have to be. -/
  positionalKind : ValueKind
  /-- Whether the first positional argument is a command, which takes the rest. -/
  commands : Bool
  deriving DecidableEq, Repr

structure Parsed where
  /-- Flags that were given. -/
  flags : List String
  /-- Values of options that were given. -/
  values : List (String × String)
  positionals : List String
  deriving DecidableEq, Repr

namespace Parsed

def empty : Parsed := ⟨[], [], []⟩

def has (p : Parsed) (name : String) : Bool := p.flags.contains name

def value? (p : Parsed) (name : String) : Option String := p.values.lookup name

end Parsed

inductive LevelResult
  | done (parsed : Parsed)
  /-- A command and its arguments. -/
  | command (parsed : Parsed) (name : String) (rest : List String)
  | version
  | help
  | misuse
  deriving DecidableEq, Repr

namespace Level

/-- Records a flag. A flag is given once only, unless it is counted. -/
def addFlag (p : Parsed) (option : OptionSpec) : Option Parsed :=
  if option.kind = .flag ∧ p.has option.long then none
  else some { p with flags := option.long :: p.flags }

/-- Records a value; an option has one only. -/
def addValue (p : Parsed) (option : OptionSpec) (value : String) : Option Parsed :=
  if option.acceptsValue value && (p.value? option.long).isNone then
    some { p with values := (option.long, value) :: p.values }
  else none

inductive Cluster
  | done (parsed : Parsed)
  /-- The last option takes its value from the next argument. -/
  | pending (parsed : Parsed) (option : OptionSpec)
  | version
  | help
  | misuse
  deriving DecidableEq, Repr

def readCluster (l : Level) (p : Parsed) : List Char → Cluster
  | [] => .done p
  | c :: rest =>
    match l.options.find? fun option => option.short == some c with
    | none => .misuse
    | some option =>
      match option.kind with
      | .help => .help
      | .version => .version
      | .value _ =>
        match rest with
        | [] => .pending p option
        | first :: more =>
          match addValue p option (String.ofList (if first = '=' then more else rest)) with
          | none => .misuse
          | some p => .done p
      | _ =>
        match addFlag p option with
        | none => .misuse
        | some p => l.readCluster p rest

/-- Reads a long option, without its dashes. -/
def readLong (l : Level) (p : Parsed) (text : List Char) : Cluster :=
  let name := String.ofList (text.takeWhile (· != '='))
  let attached := text.dropWhile (· != '=')
  match l.options.find? fun option => option.long == name with
  | none => .misuse
  | some option =>
    if option.takesValue then
      match attached with
      | [] => .pending p option
      | _ :: value =>
        match addValue p option (String.ofList value) with
        | none => .misuse
        | some p => .done p
    else if !attached.isEmpty then .misuse
    else
      match option.kind with
      | .help => .help
      | .version => .version
      | _ =>
        match addFlag p option with
        | none => .misuse
        | some p => .done p

def hasRoom (l : Level) (p : Parsed) : Bool :=
  match l.positionals with
  | some n => p.positionals.length < n
  | none => true

def addPositional (l : Level) (p : Parsed) (text : String) : Option Parsed :=
  if l.hasRoom p && l.positionalKind.accepts text then
    some { p with positionals := p.positionals ++ [text] }
  else none

def isOption (argument : String) : Bool :=
  match argument.toList with
  | '-' :: _ :: _ => true
  | _ => false

/-- Records positional arguments, after the end of the options. -/
def addPositionals (l : Level) (p : Parsed) (arguments : List String) : LevelResult :=
  match arguments.foldl (fun p text => p.bind fun p => l.addPositional p text) (some p) with
  | some p => .done p
  | none => .misuse

/-- Reads arguments; `waiting` is an option that still needs its value. -/
def read (l : Level) (waiting : Option OptionSpec) (p : Parsed) : List String → LevelResult
  | [] => if waiting.isSome then .misuse else .done p
  | argument :: rest =>
    match waiting with
    | some option =>
      if isOption argument then .misuse
      else
        match addValue p option argument with
        | none => .misuse
        | some p => l.read none p rest
    | none =>
      if argument = "--" then
        if l.commands then .misuse else l.addPositionals p rest
      else if isOption argument then
        let cluster := match argument.toList with
          | '-' :: '-' :: text => l.readLong p text
          | _ :: text => l.readCluster p text
          | [] => .misuse
        match cluster with
        | .done p => l.read none p rest
        | .pending p option => l.read (some option) p rest
        | .version => .version
        | .help => .help
        | .misuse => .misuse
      else if l.commands then .command p argument rest
      else
        match l.addPositional p argument with
        | none => .misuse
        | some p => l.read none p rest

end Level

def rootOption : OptionSpec := ⟨"root", none, .value .path⟩

def helpOption : OptionSpec := ⟨"help", some 'h', .help⟩

def topLevel : Level :=
  ⟨[⟨"verbose", some 'v', .counted⟩, rootOption, helpOption, ⟨"version", some 'V', .version⟩],
    some 0, .text, true⟩

def commandLevel (options : List OptionSpec) (positionals : Option Nat)
    (positionalKind : ValueKind) : Level :=
  ⟨options ++ [rootOption, helpOption], positionals, positionalKind, false⟩

def jsonOptions : List OptionSpec := [⟨"json", none, .flag⟩, ⟨"pretty", none, .flag⟩]

def levels : List (String × Level) :=
  [("index", commandLevel [⟨"force", some 'f', .flag⟩, ⟨"quiet", some 'q', .flag⟩] none .path),
    ("query", commandLevel (jsonOptions ++
      [⟨"limit", some 'l', .value .count⟩, ⟨"plain", none, .flag⟩]) (some 1) .text),
    ("assembly", commandLevel jsonOptions (some 1) .text),
    ("type", commandLevel jsonOptions (some 1) .text),
    ("serve", commandLevel
      [⟨"port", some 'p', .value .port⟩, ⟨"host", none, .value .text⟩] (some 0) .text),
    ("stats", commandLevel jsonOptions (some 0) .text),
    ("clear", commandLevel [⟨"yes", some 'y', .flag⟩] (some 0) .text)]

def command? (name : String) (p : Parsed) : Option Command :=
  let json := p.has "json"
  let pretty := p.has "pretty"
  match name, p.positionals with
  | "index", first :: more => some (.index (first :: more) (p.has "force") (p.has "quiet"))
  | "query", [text] =>
    some (.query text json pretty ((p.value? "limit").bind Count.parse?) (p.has "plain"))
  | "assembly", [assembly] => some (.assembly assembly json pretty)
  | "type", [fullName] => some (.type fullName json pretty)
  | "serve", [] =>
    some (.serve (((p.value? "port").bind Count.parsePort?).getD 7878)
      ((p.value? "host").getD "127.0.0.1"))
  | "stats", [] => some (.stats json pretty)
  | "clear", [] => some (.clear (p.has "yes"))
  | _, _ => none

/-- Whether the arguments of the command `help` name a command. -/
def helpInvocation (arguments : List String) : Invocation :=
  match arguments with
  | [] => .help
  | [name] => if name = "help" ∨ (levels.lookup name).isSome then .help else .misuse
  | _ => .misuse

/-- What the arguments of the program lead to. A root given to the command counts before one given
to the program. -/
def parse (arguments : List String) : Invocation :=
  match topLevel.read none .empty arguments with
  | .done _ => .misuse
  | .version => .version
  | .help => .help
  | .misuse => .misuse
  | .command top name rest =>
    if name = "help" then helpInvocation rest
    else
      match levels.lookup name with
      | none => .misuse
      | some level =>
        match level.read none .empty rest with
        | .done p =>
          match command? name p with
          | some command => .run ((p.value? "root").getD ((top.value? "root").getD ".")) command
          | none => .misuse
        | .help => .help
        | _ => .misuse

end CommandLine

end SignatureSearch
