import SignatureSearch.Failure
import SignatureSearch.Toml.Reader

/-! Settings of an index, kept as TOML text. -/

namespace SignatureSearch

structure Settings where
  /-- The most rows that a query returns. -/
  limit : Nat
  /-- The rows that are handed to the store at once. -/
  batchSize : Nat
  deriving DecidableEq, Repr

namespace Settings

def default : Settings := ⟨100, 5000⟩

def defaultText : String :=
  "[search]\nlimit = 100  # maximum rows returned per query\n\n" ++
    "[index]\nbatch_size = 5000  # rows per insert batch\n"

/-- A count: a whole number that is not negative. -/
def count? : Toml.Node → Option Nat
  | .integer n => if 0 ≤ n then some n.toNat else none
  | _ => none

def countOr? (byDefault : Nat) : Option Toml.Node → Option Nat
  | none => some byDefault
  | some node => count? node

/-- The only setting of a section. A section may also be an array that begins with the setting, and
a date counts as a section without entries. -/
def sectionCount? (entries : Toml.Entries) (heading key : String) (byDefault : Nat) : Option Nat :=
  match entries.lookup heading with
  | none => some byDefault
  | some (.table _ inner) => countOr? byDefault (inner.lookup key)
  | some (.array items) => countOr? byDefault items.head?
  | some .moment => some byDefault
  | some _ => none

/-- Reads settings. Sections and entries that are not known are ignored. -/
def parse? (text : String) : Option Settings := do
  let entries ← Toml.read? text
  let limit ← sectionCount? entries "search" "limit" default.limit
  let batchSize ← sectionCount? entries "index" "batch_size" default.batchSize
  return ⟨limit, batchSize⟩

def load (content : Option ByteArray) : Except Failure Settings :=
  match content with
  | none => .ok default
  | some bytes =>
    match String.fromUTF8? bytes with
    | none => during "Failed to read config.toml" (failWith (.file .notUtf8))
    | some text =>
      match parse? text with
      | none => during "Failed to parse config.toml" (failWith .malformedSettings)
      | some settings => .ok settings

end Settings

end SignatureSearch
