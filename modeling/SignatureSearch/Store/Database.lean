import SignatureSearch.Failure
import SignatureSearch.Json.Printer
import SignatureSearch.Json.Reader
import SignatureSearch.Scan
import SignatureSearch.Indexing
import SignatureSearch.Number.Count

/-! The database of an index on disk: rows in the order of insertion, each with its encoded key and
the JSON texts of key and value, and statistics. A scan sorts the rows that it finds by key; rows of
equal keys keep their order. -/

namespace SignatureSearch

structure StoredRow where
  view : String
  key : KeyBytes
  keyText : String
  valueText : String
  deriving DecidableEq, Repr

structure Database where
  rows : List StoredRow
  /-- Texts by name; each name occurs once. -/
  statistics : List (String × String)
  deriving DecidableEq, Repr

/-- Some of the parts of a database. -/
structure Parts where
  rows : Bool
  /-- The count of all rows that were ever added. -/
  rowCount : Bool
  statistics : Bool
  deriving DecidableEq, Repr

namespace Parts

def none : Parts := ⟨false, false, false⟩

def all : Parts := ⟨true, true, true⟩

def added : Parts := ⟨true, true, false⟩

def justRows : Parts := ⟨true, false, false⟩

def justStatistics : Parts := ⟨false, false, true⟩

def union (a b : Parts) : Parts :=
  ⟨a.rows || b.rows, a.rowCount || b.rowCount, a.statistics || b.statistics⟩

def others (a : Parts) : Parts := ⟨!a.rows, !a.rowCount, !a.statistics⟩

def meet (a b : Parts) : Bool :=
  (a.rows && b.rows) || (a.rowCount && b.rowCount) || (a.statistics && b.statistics)

end Parts

structure IndexStats where
  types : Nat
  members : Nat
  skipped : Nat
  /-- Row counts of the views that have rows, in ascending order of their names. -/
  rowsByView : List (String × Nat)
  /-- Whether there is an index on disk. -/
  onDisk : Bool
  deriving DecidableEq, Repr

namespace Database

def empty : Database := ⟨[], []⟩

def storedRow (view : View) (row : Row) : StoredRow :=
  ⟨view.text, row.key.encode, row.key.text, row.value.text⟩

def insert (d : Database) (view : View) (rows : List Row) : Database :=
  { d with rows := d.rows ++ rows.map (storedRow view) }

def insertBatches (d : Database) (batches : List Batch) : Database :=
  batches.foldl (fun d batch => d.insert batch.view batch.rows) d

def insertRaw (d : Database) (row : StoredRow) : Database := { d with rows := d.rows ++ [row] }

def clearRows (d : Database) : Database := { d with rows := [] }

def setStatistic (d : Database) (name text : String) : Database :=
  { d with statistics := (name, text) :: d.statistics.filter fun entry => entry.1 != name }

/-- Records the counts of documents and the format of the rows. -/
def recordStats (d : Database) (format : String) (types members skipped : Nat) : Database :=
  (((d.setStatistic "total_types" (toString types)).setStatistic "total_members"
    (toString members)).setStatistic "skipped_documents" (toString skipped)).setStatistic
    "schema_hash" format

/-- The most rows that a scan can ask for. -/
def maxRows : Nat := (1 <<< 63) - 1

def decodeRow (row : StoredRow) : Except Failure Row :=
  match Json.read? row.keyText with
  | none => during "Corrupt key in index.db" (failWith .malformedJson)
  | some key =>
    match Json.read? row.valueText with
    | none => during "Corrupt value in index.db" (failWith .malformedJson)
    | some value => .ok ⟨key, value⟩

def select (d : Database) (view : View) (scan : Scan) : List StoredRow :=
  let lower := scan.lower.encode
  let upper := scan.upper.encode
  let found := d.rows.filter fun row =>
    row.view == view.text && Scan.isBetween lower upper row.key
  (found.mergeSort fun a b => compare a.key b.key != .gt).take (min scan.limit maxRows)

def scan (d : Database) (view : View) (scan : Scan) : Except Failure (List Row) :=
  (d.select view scan).mapM decodeRow

/-- The count in a statistic; zero if there is none. -/
def counter (d : Database) (name : String) : Nat :=
  ((d.statistics.lookup name).bind Count.parse?).getD 0

/-- Counts one more of a name, in a list in ascending order. -/
def countOne (name : String) : List (String × Nat) → List (String × Nat)
  | [] => [(name, 1)]
  | (other, n) :: rest =>
    if name < other then (name, 1) :: (other, n) :: rest
    else if name = other then (other, n + 1) :: rest
    else (other, n) :: countOne name rest

def rowsByView (d : Database) : List (String × Nat) :=
  d.rows.foldl (fun counts row => countOne row.view counts) []

def stats (d : Database) : IndexStats :=
  ⟨d.counter "total_types", d.counter "total_members", d.counter "skipped_documents",
    d.rowsByView, true⟩

/-- Whether the rows have this format; without a record they count as current. -/
def isCurrent (d : Database) (format : String) : Bool :=
  match d.statistics.lookup "schema_hash" with
  | some text => text == format
  | none => true

end Database

def IndexStats.none : IndexStats := ⟨0, 0, 0, [], false⟩

end SignatureSearch
