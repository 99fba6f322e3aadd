import SignatureSearch.CommandLine.Arguments
import SignatureSearch.Render
import SignatureSearch.Store.IndexStore
import SignatureSearch.Text.Quoted

/-! Running a command on a disk. A command prints on two channels and ends with an exit code: 0 for
success, 1 for a failure, 2 for improper arguments. -/

namespace SignatureSearch

namespace CommandLine

structure Outcome where
  exitCode : Nat
  output : String
  messages : String
  deriving DecidableEq, Repr

structure Measurements where
  elapsed : String
  indexBytes : Nat
  lastUpdated : String
  deriving DecidableEq, Repr

inductive CommandError
  /-- There is no index to search. -/
  | nothingToSearch (shown : String)
  /-- There is no index to report on. -/
  | nothingToReport (shown : String)
  | storage (failure : Failure)
  | search (error : SearchError)
  | cannotServe (address : String)
  deriving DecidableEq, Repr

def CommandError.message : CommandError → String
  | nothingToSearch shown =>
    "No index found in " ++ shown ++ ".\n\n" ++
      "Run 'fsindex index <PATH>' to build it from catalog files first.\n\n" ++
      "Example:\n" ++
      "$ fsindex index catalog/          # Index every .json file under catalog/\n" ++
      "$ fsindex query ': int -> _'      # Search by signature"
  | nothingToReport shown =>
    "No index found in " ++ shown ++ ". Run 'fsindex index <PATH>' first."
  | storage failure => failure.message
  | search error => error.message
  | cannotServe address => "Failed to bind to " ++ address ++ ": not supported"

/-- What a command does: it prints on both channels, and it may fail. -/
structure Report where
  output : String
  messages : String
  error : Option CommandError
  deriving DecidableEq, Repr

namespace Report

def ofOutput (output : String) : Report := ⟨output, "", none⟩

def ofError (error : CommandError) : Report := ⟨"", "", some error⟩

/-- A message in a colour on a line of its own, with empty lines around it. -/
def notice (color text : String) : String := "\n" ++ Style.colored true color text ++ "\n\n"

def warned (warning : String) (r : Report) : Report := { r with messages := warning ++ r.messages }

/-- The outcome: a failure is printed last, in red. -/
def outcome (r : Report) : Outcome :=
  match r.error with
  | none => ⟨0, r.output, r.messages⟩
  | some error => ⟨1, r.output, r.messages ++ notice "31" ("Error: " ++ error.message)⟩

end Report

def jsonLine (pretty : Bool) (v : Json) : String :=
  (if pretty then v.prettyText else v.text) ++ "\n"

def formatWarning (s : IndexStore) (d : Disk) : String :=
  match s.isCurrent d with
  | .ok false =>
    Report.notice "33" ("The index was built by a different version of fsindex and may give " ++
      "wrong results.\nRun 'fsindex index --force <PATH>' to rebuild it.")
  | _ => ""

/-- Runs a command on an index that must exist, with the configured limit. -/
def withEngine (s : IndexStore) (d : Disk) (f : Engine → Report) : Report :=
  if s.isPresent d then
    Report.warned (formatWarning s d)
      (match s.settings d with
        | .error failure => .ofError (.storage failure)
        | .ok settings => f (s.engine d settings.limit))
  else .ofError (.nothingToSearch s.shown)

def query (text : String) (json pretty : Bool) (limit : Option Nat) (e : Engine) : Report :=
  match e.search text ⟨limit, none⟩ with
  | .error error => .ofError (.search error)
  | .ok response =>
    .ofOutput (if json then jsonLine pretty response.toJson else Render.response false response)

/-- The identity of a type, with the fields in the order of the record. -/
def keyJson (k : MemberKey) : Json :=
  .object [("_rev", .string k.revision), ("namespace", .string k.namespaceName),
    ("name", .string k.name)]

def assembly (name : String) (json pretty : Bool) (e : Engine) : Report :=
  match e.typesInAssembly name with
  | .error failure => .ofError (.storage failure)
  | .ok keys =>
    .ofOutput (
      if json then jsonLine pretty (.array (keys.map keyJson))
      else if keys.isEmpty then "No types found in assembly '" ++ name ++ "'.\n"
      else String.join (keys.map fun key => key.fullName ++ "\n"))

def assemblyLine (a : AssemblyRef) : String :=
  a.assemblyName.getD "<unknown assembly>" ++ "  (rev " ++ a.revision ++ ")\n"

def type (fullName : String) (json pretty : Bool) (e : Engine) : Report :=
  match e.findType fullName with
  | .error failure => .ofError (.storage failure)
  | .ok refs =>
    .ofOutput (
      if json then jsonLine pretty (.array (refs.map AssemblyRef.toJson))
      else if refs.isEmpty then "Type '" ++ fullName ++ "' not found.\n"
      else String.join (refs.map assemblyLine))

/-- A quotient with two decimals; a half goes to the even neighbour. -/
def twoDecimals (n d : Nat) : String :=
  let hundredths := Binary64.roundHalfEven (100 * n) d
  toString (hundredths / 100) ++ "." ++ toString (hundredths / 10 % 10) ++
    toString (hundredths % 10)

/-- A size in the largest unit that it fills. -/
def sizeText (bytes : Nat) : String :=
  if 1 <<< 30 ≤ bytes then twoDecimals bytes (1 <<< 30) ++ " GB"
  else if 1 <<< 20 ≤ bytes then twoDecimals bytes (1 <<< 20) ++ " MB"
  else if 1 <<< 10 ≤ bytes then twoDecimals bytes (1 <<< 10) ++ " KB"
  else toString bytes ++ " bytes"

def padRight (width : Nat) (text : String) : String :=
  text ++ String.ofList (List.replicate (width - text.length) ' ')

def padLeft (width : Nat) (text : String) : String :=
  String.ofList (List.replicate (width - text.length) ' ') ++ text

def statsJson (m : Measurements) (stats : IndexStats) : Json :=
  let count (n : Nat) : Json :=
    match WordInt.ofInt? n with
    | some n => .number (.integer n)
    | none => .null
  .object [("total_types", count stats.types), ("total_members", count stats.members),
    ("skipped_documents", count stats.skipped),
    ("rows_by_view", .object (stats.rowsByView.map fun entry => (entry.1, count entry.2))),
    ("index_size_bytes", count m.indexBytes), ("last_updated", .string m.lastUpdated)]

def statsText (m : Measurements) (stats : IndexStats) : String :=
  "fsindex Index Statistics\n" ++
    "========================\n" ++
    "Types indexed:     " ++ toString stats.types ++ "\n" ++
    "Members indexed:   " ++ toString stats.members ++ "\n" ++
    "Documents skipped: " ++ toString stats.skipped ++ "\n" ++
    "Index size:        " ++ sizeText m.indexBytes ++ "\n" ++
    "Last updated:      " ++ m.lastUpdated ++ "\n" ++
    (if stats.rowsByView.isEmpty then ""
    else
      "\nRows by view:\n" ++
        String.join (stats.rowsByView.map fun entry =>
          "  " ++ padRight 22 entry.1 ++ " " ++ padLeft 8 (toString entry.2) ++ "\n"))

def stats (s : IndexStore) (d : Disk) (m : Measurements) (json pretty : Bool) : Report :=
  if s.isPresent d then
    Report.warned (formatWarning s d)
      (match s.stats d with
        | .error failure => .ofError (.storage failure)
        | .ok stats =>
          .ofOutput (if json then jsonLine pretty (statsJson m stats) else statsText m stats))
  else .ofError (.nothingToReport s.shown)

def indexText (m : Measurements) (stats : IndexStats) : String :=
  "Indexing complete in " ++ m.elapsed ++ "!\n" ++
    "  Types indexed:     " ++ toString stats.types ++ "\n" ++
    "  Members indexed:   " ++ toString stats.members ++ "\n" ++
    (if stats.skipped = 0 then ""
    else "  Documents skipped: " ++ toString stats.skipped ++ "\n") ++
    "  Index size:        " ++ sizeText m.indexBytes ++ "\n"

/-- Removes the index first, if that is asked for. -/
def prepared (s : IndexStore) (d : Disk) (force : Bool) : Except Failure Disk :=
  if force then s.clear d else .ok d

/-- Rebuilds the index. `locked` is the number of the file on which a transaction is open elsewhere;
an index that is removed and created anew has another file. -/
def index (s : IndexStore) (d : Disk) (locked : Option Nat) (m : Measurements)
    (paths : List String) (force quiet : Bool) : Disk × Report :=
  match prepared s d force with
  | .error failure => (d, .ofError (.storage failure))
  | .ok d =>
    match s.settings d with
    | .error failure => (d, .ofError (.storage failure))
    | .ok settings =>
      match s.rebuild d locked paths settings.batchSize with
      | (d, .error failure) => (d, .ofError (.storage failure))
      | (d, .ok stats) => (d, .ofOutput (if quiet then "" else indexText m stats))

/-- Whether the first line of an input is the letter `y`, in either case and with blanks around. -/
def confirms (input : String) : Bool :=
  let line := input.toList.takeWhile (· != '\n')
  let trimmed := ((line.dropWhile Lexeme.isBlank).reverse.dropWhile Lexeme.isBlank).reverse
  trimmed == ['y'] || trimmed == ['Y']

/-- What a command asks before it reads its input; its output begins with the question. -/
def question? (s : IndexStore) (d : Disk) : Command → Option String
  | .clear false =>
    if s.isPresent d then
      some ("This will delete the fsindex index at: " ++ Quoted.encode s.shown ++ "\n" ++
        "Are you sure? [y/N] ")
    else none
  | _ => none

def clear (s : IndexStore) (d : Disk) (yes : Bool) (input : String) : Disk × Report :=
  let question := (question? s d (.clear yes)).getD ""
  if s.isPresent d then
    if yes || confirms input then
      match s.clear d with
      | .error failure => (d, ⟨question, "", some (.storage failure)⟩)
      | .ok d =>
        (d, ⟨question, Style.colored true "32" "Index cleared successfully." ++ "\n", none⟩)
    else (d, .ofOutput (question ++ "Cancelled.\n"))
  else (d, .ofOutput "No index to clear.\n")

def serve (port : Nat) (host : String) (_ : Engine) : Report :=
  let address := host ++ ":" ++ toString port
  ⟨"Starting fsindex HTTP server...\n" ++
    "  Address: http://" ++ address ++ "\n" ++
    "\nEndpoints:\n" ++
    "  GET  /search?q=<query>&limit=<n>&token=<token>\n" ++
    "  GET  /stats\n" ++
    "  GET  /health\n" ++
    "\nPress Ctrl+C to stop.\n", "", some (.cannotServe address)⟩

/-- Runs a command. `locked` is the number of the file on which a transaction is open
elsewhere. -/
def runCommand (s : IndexStore) (d : Disk) (locked : Option Nat) (m : Measurements)
    (input : String) : Command → Disk × Report
  | .index paths force quiet => index s d locked m paths force quiet
  | .query text json pretty limit _ => (d, withEngine s d (query text json pretty limit))
  | .assembly name json pretty => (d, withEngine s d (assembly name json pretty))
  | .type fullName json pretty => (d, withEngine s d (type fullName json pretty))
  | .serve port host => (d, withEngine s d (serve port host))
  | .stats json pretty => (d, stats s d m json pretty)
  | .clear yes => clear s d yes input

def versionText : String := "fsindex 0.3.0\n"

def usageText : String := "Usage: fsindex [OPTIONS] <COMMAND>\n"

def run (d : Disk) (locked : Option Nat) (m : Measurements) (arguments : List String)
    (input : String) (format : String := IndexStore.ownFormat) : Disk × Outcome :=
  match parse arguments with
  | .version => (d, ⟨0, versionText, ""⟩)
  | .help => (d, ⟨0, usageText, ""⟩)
  | .misuse => (d, ⟨2, "", usageText⟩)
  | .run root command =>
    let (d, report) := runCommand (.under root format) d locked m input command
    (d, report.outcome)

end CommandLine

end SignatureSearch
