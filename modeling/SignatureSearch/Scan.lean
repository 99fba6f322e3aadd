import SignatureSearch.Collation
import SignatureSearch.Row

/-! Scans: the rows of a view whose keys lie in a range, in the order of the keys and cut to a
limit. -/

namespace SignatureSearch

inductive ScanRange
  | exact (key : Json)
  /-- Both ends belong to the range. -/
  | between (first last : Json)
  deriving DecidableEq, Repr

/-- A scan of one view. Rows beyond the limit are left out without notice. -/
structure Scan where
  range : ScanRange
  limit : Nat
  deriving DecidableEq, Repr

namespace Scan

def exact (key : Json) (limit : Nat) : Scan := ⟨.exact key, limit⟩

def between (first last : Json) (limit : Nat) : Scan := ⟨.between first last, limit⟩

def lower (s : Scan) : Json :=
  match s.range with
  | .exact key => key
  | .between first _ => first

def upper (s : Scan) : Json :=
  match s.range with
  | .exact key => key
  | .between _ last => last

/-- Whether an encoded key lies between two others or is one of them. -/
def isBetween (lower upper key : KeyBytes) : Bool :=
  compare lower key != .gt && compare key upper != .gt

def covers (s : Scan) (key : KeyBytes) : Bool := isBetween s.lower.encode s.upper.encode key

end Scan

/-- A row in memory, with its place in the store. -/
structure MemoryEntry where
  view : View
  key : KeyBytes
  sequence : Nat
  row : Row
  deriving Repr

/-- The order of entries: by view, then by key, then by insertion. -/
def MemoryEntry.order (a b : MemoryEntry) : Ordering :=
  (compare a.view.rank b.view.rank).then
    ((compare a.key b.key).then (compare a.sequence b.sequence))

def MemoryEntry.standsUpTo (a b : MemoryEntry) : Bool := a.order b != .gt

/-- Rows in memory, kept in the order of their entries. -/
structure MemoryStore where
  entries : List MemoryEntry
  inserted : Nat
  deriving Repr

namespace MemoryStore

def empty : MemoryStore := ⟨[], 0⟩

def size (s : MemoryStore) : Nat := s.entries.length

def newEntries (view : View) : Nat → List Row → List MemoryEntry
  | _, [] => []
  | inserted, row :: rows =>
    ⟨view, row.key.encode, inserted + 1, row⟩ :: newEntries view (inserted + 1) rows

/-- Adds rows. Rows of equal keys are all kept, in the order of insertion. -/
def insert (s : MemoryStore) (view : View) (rows : List Row) : MemoryStore :=
  let added := (newEntries view s.inserted rows).mergeSort MemoryEntry.standsUpTo
  ⟨s.entries.merge added MemoryEntry.standsUpTo, s.inserted + rows.length⟩

def scan (s : MemoryStore) (view : View) (scan : Scan) : List Row :=
  let lower := scan.lower.encode
  let upper := scan.upper.encode
  let found := s.entries.filter fun entry =>
    entry.view == view && Scan.isBetween lower upper entry.key
  (found.take scan.limit).map MemoryEntry.row

end MemoryStore

end SignatureSearch
