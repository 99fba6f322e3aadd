import SignatureSearch.Store.IndexStore

/-! Sessions on an index on disk: operations one after the other, with at most one open transaction.
Writing operations outside a transaction are transactions of their own. -/

namespace SignatureSearch

/-- A disk with an index, and the open transaction. -/
structure Session where
  store : IndexStore
  disk : Disk
  writer : Option Writer

namespace Session

inductive Operation
  | init
  | existence
  | clear
  | begin
  | commit
  | rollback
  | insert (view : View) (rows : List Row)
  /-- Converts documents, if they could be read. -/
  | write (documents : Except Failure (List Json)) (batchSize : Nat)
  | clearRows
  | recordStats (types members skipped : Nat)
  | scan (view : View) (scan : Scan)
  | search (text : String) (options : SearchOptions) (limit : Nat)
  | typesInAssembly (assembly : String) (limit : Nat)
  | findType (fullName : String) (limit : Nat)
  | stats
  | currency
  | settings
  | rebuild (paths : List String) (batchSize : Nat)
  | writeFile (path : String) (content : ByteArray)
  /-- Sets a statistic in the database itself. -/
  | setStatistic (name text : String)
  /-- Adds a row to the database itself. -/
  | insertRaw (row : StoredRow)

inductive Answer
  | done
  | failed (failure : Failure)
  | searchFailed (error : SearchError)
  /-- There was no transaction to commit. -/
  | noWriter
  /-- The database itself could not be changed. -/
  | refused
  | changed
  | truth (value : Bool)
  | rowsWritten (count : Nat)
  | built (summary : BuildSummary)
  | rows (rows : List Row)
  | response (response : SearchResponse)
  | types (keys : List MemberKey)
  | assemblies (refs : List AssemblyRef)
  | stats (stats : IndexStats)
  | settings (settings : Settings)
  deriving DecidableEq, Repr

def start (store : IndexStore) (disk : Disk) : Session := ⟨store, disk, none⟩

def answer {α : Type} (result : Except Failure α) (f : α → Answer) : Answer :=
  match result with
  | .ok a => f a
  | .error failure => .failed failure

/-- The number of the file on which a transaction is open. -/
def locked (s : Session) : Option Nat := s.writer.map Writer.file

def initThen (s : Session) (f : Session → Answer × Session) : Answer × Session :=
  match s.store.init s.disk s.locked with
  | (disk, .error failure) => (.failed failure, { s with disk := disk })
  | (disk, .ok ()) => f { s with disk := disk }

/-- Opens a transaction; one that was open is dropped. -/
def begin (s : Session) : Answer × Session :=
  initThen { s with writer := none } fun s =>
    match s.store.openWriter s.disk none with
    | .error failure => (.failed failure, s)
    | .ok writer => (.done, { s with writer := some writer })

def commit (s : Session) : Answer × Session :=
  match s.writer with
  | none => (.noWriter, s)
  | some writer =>
    match s.store.commit s.disk writer with
    | .error failure => (.failed failure, { s with writer := none })
    | .ok disk => (.rowsWritten writer.rowsWritten, { s with disk := disk, writer := none })

/-- What a write makes of a transaction, and its answer. `inPlace` tells whether the file of the
transaction is still in its place. -/
def attempt (f : Writer → Except Failure (Writer × Answer)) (w : Writer) (inPlace : Bool) :
    Writer × Except Failure Answer :=
  match f w.unmarked with
  | .error failure => (w, .error failure)
  | .ok (after, answer) =>
    match w.advance after inPlace with
    | (w, .error failure) => (w, .error failure)
    | (w, .ok ()) => (w, .ok answer)

/-- Writes into the open transaction, or into one of its own that is committed at once. -/
def withWriter (s : Session) (f : Writer → Except Failure (Writer × Answer)) :
    Answer × Session :=
  match s.writer with
  | some w =>
    let (w, result) := attempt f w (s.store.fileOf? s.disk w).isSome
    (answer result id, { s with writer := some w })
  | none =>
    initThen s fun s =>
      match s.store.openWriter s.disk none with
      | .error failure => (.failed failure, s)
      | .ok w =>
        match attempt f w true with
        | (_, .error failure) => (.failed failure, s)
        | (w, .ok answer) =>
          match s.store.commit s.disk w with
          | .error failure => (.failed failure, s)
          | .ok disk => (answer, { s with disk := disk })

/-- Changes parts of the database itself, which an open transaction on its file prevents. Where
there is no file, an empty one is left behind. -/
def changeDatabase (s : Session) (parts : Parts) (f : Database → Database) : Answer × Session :=
  match s.store.state s.disk with
  | .ready file =>
    if s.locked = some file.number || file.lost.meet parts then (.refused, s)
    else
      let content := Content.database (f file.database) file.lost
      (.changed, { s with disk := s.store.putDatabase s.disk content })
  | .missing =>
    (.refused, { s with disk := s.store.putDatabase s.disk (.bytes ByteArray.empty) })
  | _ => (.refused, s)

/-- Writes a file. A transaction takes note when that is its own. -/
def writeFile (s : Session) (path : String) (content : ByteArray) : Answer × Session :=
  match s.disk.writeDeep path (.bytes content) with
  | (disk, .error fault) => (.failed (.ofCause (.file fault)), { s with disk := disk })
  | (disk, .ok ()) =>
    let isOwn (w : Writer) : Bool :=
      match disk.find path with
      | .ok path => (disk.file? path).map File.number == some w.file
      | .error _ => false
    (.done, ⟨s.store, disk, s.writer.map fun w => if isOwn w then w.spoil else w⟩)

/-- Does one operation. Reading operations look at committed rows only. -/
def perform (s : Session) : Operation → Answer × Session
  | .init => s.initThen fun s => (.done, s)
  | .existence => (.truth (s.store.isPresent s.disk), s)
  | .clear =>
    match s.store.clear s.disk with
    | .error failure => (.failed failure, { s with writer := none })
    | .ok disk => (.done, { s with disk := disk, writer := none })
  | .begin => s.begin
  | .commit => s.commit
  | .rollback => (.truth s.writer.isSome, { s with writer := none })
  | .insert view rows =>
    s.withWriter fun w =>
      .ok (w.insert view rows, .rowsWritten (w.insert view rows).rowsWritten)
  | .write documents batchSize =>
    s.withWriter fun w =>
      documents.map fun documents =>
        ((w.write documents batchSize).1, .built (w.write documents batchSize).2)
  | .clearRows => s.withWriter fun w => .ok (w.clearRows, .done)
  | .recordStats types members skipped =>
    s.withWriter fun w => .ok (w.recordStats s.store.format types members skipped, .done)
  | .scan view scan => (answer (s.store.scan s.disk view scan) .rows, s)
  | .search text options limit =>
    match (s.store.engine s.disk limit).search text options with
    | .ok response => (.response response, s)
    | .error error => (.searchFailed error, s)
  | .typesInAssembly assembly limit =>
    (answer ((s.store.engine s.disk limit).typesInAssembly assembly) .types, s)
  | .findType fullName limit =>
    (answer ((s.store.engine s.disk limit).findType fullName) .assemblies, s)
  | .stats => (answer (s.store.stats s.disk) .stats, s)
  | .currency => (answer (s.store.isCurrent s.disk) .truth, s)
  | .settings => (answer (s.store.settings s.disk) .settings, s)
  | .rebuild paths batchSize =>
    let (disk, result) := s.store.rebuild s.disk s.locked paths batchSize
    (answer result .stats, { s with disk := disk })
  | .writeFile path content => s.writeFile path content
  | .setStatistic name text => s.changeDatabase .justStatistics fun d => d.setStatistic name text
  | .insertRaw row => s.changeDatabase .added fun d => d.insertRaw row

def run (s : Session) : List Operation → List Answer × Session
  | [] => ([], s)
  | operation :: rest =>
    let (answer, s) := s.perform operation
    let (answers, s) := run s rest
    (answer :: answers, s)

end Session

end SignatureSearch
