/-! The tree of a TOML text: tables with the way they came into being, which decides how they may be
extended later. -/

namespace SignatureSearch

namespace Toml

/-- How a table came into being. -/
inductive TableKind
  /-- By a header of its own. -/
  | header
  /-- As a part of a longer header. -/
  | implied
  /-- As a part of a dotted key. -/
  | dotted
  /-- As a value in braces. -/
  | inline
  deriving DecidableEq, Repr

inductive Node
  | integer (n : Int)
  | moment
  /-- A text, a truth value or a number with a fraction. -/
  | other
  | array (items : List Node)
  | table (kind : TableKind) (entries : List (String × Node))
  /-- The tables of a repeated header. -/
  | tables (elements : List (List (String × Node)))
  deriving Repr, Inhabited

abbrev Entries := List (String × Node)

def replace (key : String) (node : Node) (entries : Entries) : Entries :=
  entries.map fun entry => if entry.1 = key then (key, node) else entry

def changeLast (f : Entries → Option Entries) (elements : List Entries) : Option (List Entries) :=
  match elements.getLast? with
  | none => none
  | some last => (f last).map fun last => elements.dropLast ++ [last]

/-- Adds a value under a dotted key. Only tables that came into being by dotted keys can be
extended; tables in between may also be parts of headers. -/
def addValue : List String → String → Node → Entries → Option Entries
  | [], key, node, entries =>
    if (entries.lookup key).isSome then none else some (entries ++ [(key, node)])
  | part :: path, key, node, entries =>
    match entries.lookup part with
    | none => (addValue path key node []).map fun inner => entries ++ [(part, .table .dotted inner)]
    | some (.table kind inner) =>
      if kind = .dotted ∨ (kind = .implied ∧ path ≠ []) then
        (addValue path key node inner).map fun inner => replace part (.table kind inner) entries
      else none
    | some (.tables elements) =>
      if path = [] then none
      else
        (changeLast (addValue path key node) elements).map fun elements =>
          replace part (.tables elements) entries
    | some _ => none

def addHeader : List String → Entries → Option Entries
  | [], _ => none
  | part :: path, entries =>
    if path.isEmpty then
      match entries.lookup part with
      | none => some (entries ++ [(part, .table .header [])])
      | some (.table .implied inner) => some (replace part (.table .header inner) entries)
      | some _ => none
    else
      match entries.lookup part with
      | none => (addHeader path []).map fun inner => entries ++ [(part, .table .implied inner)]
      | some (.table kind inner) =>
        if kind = .inline then none
        else (addHeader path inner).map fun inner => replace part (.table kind inner) entries
      | some (.tables elements) =>
        (changeLast (addHeader path) elements).map fun elements =>
          replace part (.tables elements) entries
      | some _ => none

def addElement : List String → Entries → Option Entries
  | [], _ => none
  | part :: path, entries =>
    if path.isEmpty then
      match entries.lookup part with
      | none => some (entries ++ [(part, .tables [[]])])
      | some (.tables elements) => some (replace part (.tables (elements ++ [[]])) entries)
      | some _ => none
    else
      match entries.lookup part with
      | none => (addElement path []).map fun inner => entries ++ [(part, .table .implied inner)]
      | some (.table kind inner) =>
        if kind = .inline then none
        else (addElement path inner).map fun inner => replace part (.table kind inner) entries
      | some (.tables elements) =>
        (changeLast (addElement path) elements).map fun elements =>
          replace part (.tables elements) entries
      | some _ => none

/-- Adds a value in the table of a header that was read before. -/
def addBelow : List String → (Entries → Option Entries) → Entries → Option Entries
  | [], add, entries => add entries
  | part :: path, add, entries =>
    match entries.lookup part with
    | some (.table kind inner) =>
      (addBelow path add inner).map fun inner => replace part (.table kind inner) entries
    | some (.tables elements) =>
      (changeLast (addBelow path add) elements).map fun elements =>
        replace part (.tables elements) entries
    | _ => none

end Toml

end SignatureSearch
