import SignatureSearch.Search
import SignatureSearch.Settings
import SignatureSearch.Store.CatalogFiles
import SignatureSearch.Store.Writer

/-! An index on disk: a directory that holds a database and a settings file. Writing goes through a
transaction, which works on a copy of the database and replaces the database when it is committed;
only one transaction can be open at a time. -/

namespace SignatureSearch

/-- The place of an index, and the format of the rows that a program writes into it. -/
structure IndexStore where
  /-- How the path of the directory is written. -/
  shown : String
  /-- Any text: it differs between programs whose rows differ. -/
  format : String
  deriving DecidableEq, Repr

inductive DatabaseState
  /-- Nothing, in a directory that could hold a file. -/
  | missing
  /-- Nothing that can be opened as a file. -/
  | closed
  /-- A file of one byte at most: a database without tables. -/
  | blank (file : Nat)
  /-- A file of another kind. -/
  | foreign
  | malformed
  | ready (file : DatabaseFile)
  deriving DecidableEq

namespace IndexStore

/-- The format of the rows of a program that is not told another one. -/
def ownFormat : String := "5c1e6f0b92d7a384"

def under (root : String) (format : String := ownFormat) : IndexStore :=
  ⟨Path.join root [".fsindex"], format⟩

def shownDatabase (s : IndexStore) : String := Path.join s.shown ["index.db"]

def shownSettings (s : IndexStore) : String := Path.join s.shown ["config.toml"]

/-- The path in the name of a database. A name that begins with `file:` is a URI, whose path ends
before a query or fragment. -/
def pathInName (name : String) : String :=
  if name.startsWith "file:" then
    String.ofList ((name.toList.drop 5).takeWhile fun c => c != '?' && c != '#')
  else name

/-- Where the database is looked for. Directories on the way are not looked at. -/
def databasePath (s : IndexStore) : Path :=
  let text := pathInName s.shownDatabase
  (Path.parts text).foldl Path.follow (Path.origin text)

def file? (s : IndexStore) (d : Disk) : Option File := d.file? s.databasePath

/-- The most bytes of a path, counted from the working directory, at which a database can be
opened. -/
def maxDatabasePathBytes : Nat := 488

def stateOfFile (file : File) : DatabaseState :=
  match file.content with
  | .database database lost => .ready ⟨file.number, database, lost⟩
  | .malformed => .malformed
  | .bytes content => if content.size ≤ 1 then .blank file.number else .foreign

def state (s : IndexStore) (d : Disk) : DatabaseState :=
  let path := s.databasePath
  if !d.isDirectory path.parent || maxDatabasePathBytes < path.text.utf8ByteSize then .closed
  else
    match d.entryAt path with
    | none => .missing
    | some .directory => .closed
    | some (.file file) => stateOfFile file

def putDatabase (s : IndexStore) (d : Disk) (content : Content) : Disk :=
  d.put s.databasePath content

def isPresent (s : IndexStore) (d : Disk) : Bool := d.reaches s.shownDatabase

def settings (s : IndexStore) (d : Disk) : Except Failure Settings :=
  match d.find s.shownSettings with
  | .error _ => .ok Settings.default
  | .ok path =>
    match d.file? path with
    | some ⟨_, .bytes content⟩ => Settings.load (some content)
    | some _ => during "Failed to read config.toml" (failWith (.file .notUtf8))
    | none => during "Failed to read config.toml" (failWith (.file .isDirectory))

/-! ### Creating an index -/

/-- Makes the directory of the index, unless something stands in its place. -/
def initDirectory (s : IndexStore) (d : Disk) : Disk × Except FileFault Unit :=
  if d.reaches s.shown then (d, .ok ()) else d.makeDirectories s.shown

/-- Creates the database, unless there is one. `locked` is the number of the file on which a
transaction is open. -/
def initDatabase (s : IndexStore) (d : Disk) (locked : Option Nat) : Except Failure Disk :=
  match s.state d with
  | .missing => .ok (s.putDatabase d (.ofDatabase .empty))
  | .blank file =>
    if locked = some file then failWith (.database .locked)
    else .ok (s.putDatabase d (.ofDatabase .empty))
  | .ready _ => .ok d
  | .foreign => failWith (.database .notDatabase)
  | .malformed => failWith (.database .malformed)
  | .closed =>
    during "Failed to create index.db" (failWith (.database (.cannotOpen s.shownDatabase)))

/-- Writes the default settings, unless there are settings. -/
def initSettings (s : IndexStore) (d : Disk) : Except FileFault Disk :=
  if d.reaches s.shownSettings then .ok d
  else d.write s.shownSettings (.bytes Settings.defaultText.toUTF8)

/-- Creates the index with its settings, as far as they are missing. What has been created stays
when the rest cannot be. -/
def init (s : IndexStore) (d : Disk) (locked : Option Nat) : Disk × Except Failure Unit :=
  match s.initDirectory d with
  | (d, .error fault) => (d, failWith (.file fault))
  | (d, .ok ()) =>
    match s.initDatabase d locked with
    | .error failure => (d, .error failure)
    | .ok d =>
      match s.initSettings d with
      | .error fault => (d, failWith (.file fault))
      | .ok d => (d, .ok ())

/-! ### Reading -/

/-- The committed database. `parts` are those that are used. -/
def openDatabase (s : IndexStore) (d : Disk) (parts : Parts) : Except Failure DatabaseFile :=
  if s.isPresent d then
    match s.state d with
    | .ready file => if file.lost.meet parts then failWith (.database .malformed) else .ok file
    | .missing => failWith .noIndex
    | .blank _ =>
      failWith (.database (.noTable (if parts.statistics then "statistics" else "rows")))
    | .foreign => failWith (.database .notDatabase)
    | .malformed => failWith (.database .malformed)
    | .closed =>
      during "Failed to open index.db" (failWith (.database (.cannotOpen s.shownDatabase)))
  else failWith .noIndex

def scan (s : IndexStore) (d : Disk) (view : View) (scan : Scan) : Except Failure (List Row) :=
  match s.openDatabase d .justRows with
  | .error failure => .error failure
  | .ok file => file.database.scan view scan

def engine (s : IndexStore) (d : Disk) (limit : Nat) : Engine := ⟨s.scan d, limit⟩

/-- Whether the rows of the index have the format; a missing index counts as current. -/
def isCurrent (s : IndexStore) (d : Disk) : Except Failure Bool :=
  if s.isPresent d then
    (s.openDatabase d .justStatistics).map fun file => file.database.isCurrent s.format
  else .ok true

def stats (s : IndexStore) (d : Disk) : Except Failure IndexStats :=
  if s.isPresent d then
    (s.openDatabase d (.union .justRows .justStatistics)).map fun file => file.database.stats
  else .ok IndexStats.none

/-! ### Writing -/

def clear (s : IndexStore) (d : Disk) : Except Failure Disk :=
  match d.find s.shown with
  | .error _ => .ok d
  | .ok path =>
    if d.isDirectory path then .ok (d.removeDirectory path)
    else failWith (.file .notDirectory)

/-- Opens a transaction on a disk where the index has been created. `locked` is the number of the
file on which another one is open. -/
def openWriter (s : IndexStore) (d : Disk) (locked : Option Nat) : Except Failure Writer :=
  match s.openDatabase d .none with
  | .error failure => .error failure
  | .ok file =>
    if locked = some file.number then
      during "Failed to start index transaction" (failWith (.database .locked))
    else .ok (.start file)

/-- The file of a transaction, if it is still in its place. -/
def fileOf? (s : IndexStore) (d : Disk) (w : Writer) : Option File :=
  (s.file? d).filter fun file => file.number == w.file

/-- Makes the writes of a transaction visible. -/
def commit (s : IndexStore) (d : Disk) (w : Writer) : Except Failure Disk :=
  match w.committed? (s.fileOf? d w) with
  | .error fault => during "Failed to commit index transaction" (failWith (.database fault))
  | .ok none => .ok d
  | .ok (some content) => .ok (s.putDatabase d content)

def rebuildWrites (s : IndexStore) (documents : List Json) (batchSize : Nat) (w : Writer) :
    Writer :=
  let (w, summary) := w.clearRows.write documents batchSize
  w.recordStats s.format summary.types summary.members summary.skipped

/-- Replaces the rows of the index by those of catalog files. All files are read before anything is
written. -/
def rebuild (s : IndexStore) (d : Disk) (locked : Option Nat) (paths : List String)
    (batchSize : Nat) : Disk × Except Failure IndexStats :=
  match CatalogFile.readAll d paths with
  | .error failure => (d, .error failure)
  | .ok documents =>
    match s.init d locked with
    | (d, .error failure) => (d, .error failure)
    | (d, .ok ()) =>
      match s.openWriter d locked with
      | .error failure => (d, .error failure)
      | .ok w =>
        match w.advance (s.rebuildWrites documents batchSize w) true with
        | (_, .error failure) => (d, .error failure)
        | (w, .ok ()) =>
          match s.commit d w with
          | .error failure => (d, .error failure)
          | .ok d => (d, s.stats d)

end IndexStore

end SignatureSearch
