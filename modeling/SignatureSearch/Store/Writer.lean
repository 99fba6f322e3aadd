import SignatureSearch.Store.Disk

/-! Open transactions on the database of an index. A transaction works on a copy of the database,
and belongs to the file that held the database when it was opened. Nothing can be changed once that
file has been moved, unless something had been changed before; and where the file has been
overwritten, only the parts that had been changed before are still at hand. -/

namespace SignatureSearch

structure DatabaseFile where
  number : Nat
  database : Database
  lost : Parts
  deriving DecidableEq, Repr

structure Writer where
  /-- The number of the file. -/
  file : Nat
  database : Database
  rowsWritten : Nat
  changed : Parts
  /-- What can be read neither in the file nor here. -/
  lost : Parts
  /-- Whether a change has failed because of that. -/
  hasFailed : Bool
  deriving DecidableEq, Repr

namespace Writer

def start (file : DatabaseFile) : Writer :=
  ⟨file.number, file.database, 0, .none, file.lost, false⟩

/-- Adds rows; without rows nothing is changed. -/
def insert (w : Writer) (view : View) (rows : List Row) : Writer :=
  { w with
    database := w.database.insert view rows
    rowsWritten := w.rowsWritten + rows.length
    changed := if rows.isEmpty then w.changed else w.changed.union .added }

def insertBatches (w : Writer) (batches : List Batch) : Writer :=
  batches.foldl (fun w batch => w.insert batch.view batch.rows) w

def write (w : Writer) (documents : List Json) (batchSize : Nat) : Writer × BuildSummary :=
  let build := Build.ofDocuments documents batchSize
  (w.insertBatches build.allBatches, build.summary)

def clearRows (w : Writer) : Writer :=
  { w with database := w.database.clearRows, changed := w.changed.union .justRows }

def recordStats (w : Writer) (format : String) (types members skipped : Nat) : Writer :=
  { w with
    database := w.database.recordStats format types members skipped
    changed := w.changed.union .justStatistics }

/-- Takes note that the file has been overwritten. -/
def spoil (w : Writer) : Writer := { w with lost := w.changed.others }

/-- The transaction without the record of what it changed. -/
def unmarked (w : Writer) : Writer := { w with changed := .none }

/-- Why a transaction cannot change some parts. `inPlace` tells whether its file is still in its
place. -/
def refusal? (w : Writer) (parts : Parts) (inPlace : Bool) : Option DatabaseFault :=
  if parts = .none then none
  else if w.hasFailed || w.lost.meet parts then some .malformed
  else if !inPlace && w.changed = .none then some .moved
  else none

/-- Goes over into what has been made of the transaction without its record, if all that was changed
on the way can be changed. -/
def advance (w after : Writer) (inPlace : Bool) : Writer × Except Failure Unit :=
  match w.refusal? after.changed inPlace with
  | none => ({ after with changed := w.changed.union after.changed }, .ok ())
  | some fault =>
    ({ w with hasFailed := w.hasFailed || fault = .malformed }, failWith (.database fault))

/-- The most bytes of a file that ends before the statistics of a new database. -/
def bytesBeforeStatistics : Nat := 20480

/-- What a file with this content holds once the transaction is committed; `none` if it stays as it
is. -/
def contentOver (w : Writer) : Content → Option Content
  | .bytes content =>
    if w.changed = .none then none
    else if w.lost.statistics && content.size ≤ bytesBeforeStatistics then some .malformed
    else some (.database w.database w.lost)
  | _ => some (.database w.database w.lost)

/-- What the file holds once the transaction is committed. `file?` is the file, if it is still in
its place. -/
def committed? (w : Writer) (file? : Option File) : Except DatabaseFault (Option Content) :=
  if w.hasFailed then .error .malformed
  else
    match file? with
    | some file => .ok (w.contentOver file.content)
    | none => if w.changed = .none then .ok none else .error .moved

end Writer

end SignatureSearch
