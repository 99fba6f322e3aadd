import SignatureSearch.Catalog
import SignatureSearch.Response

/-! Answers as text for a terminal: a header with the count of rows, and a line per row behind a
connector. Colours are escape sequences around parts of the text. -/

namespace SignatureSearch

namespace Style

def sequence (code : String) : String := "\x1b[" ++ code ++ "m"

/-- Encloses a text in an attribute and its end, if colours are used. -/
def enclose (colors : Bool) (first last text : String) : String :=
  if colors then sequence first ++ text ++ sequence last else text

def bold (colors : Bool) (text : String) : String := enclose colors "1" "0" text

def dimmed (colors : Bool) (text : String) : String := enclose colors "2" "0" text

def colored (colors : Bool) (code text : String) : String := enclose colors code "39" text

end Style

namespace Render

/-- The name of the type that a value identifies; the value itself if it identifies none. -/
def ownerName (v : Json) : String :=
  match MemberKey.ofJson? v with
  | some key => key.fullName
  | none => v.text

/-- A text in an array, or a question mark. -/
def itemText (v : Json) (index : Nat) : String := ((v.item? index).bind Json.string?).getD "?"

def kindColor? (kind : String) : Option String :=
  if kind = "type" then some "36"
  else if kind = "method" then some "32"
  else if kind = "property" then some "34"
  else if kind = "event" then some "35"
  else if kind = "field" then some "33"
  else none

def kindBadge (colors : Bool) (kind : String) : String :=
  let badge := "[" ++ kind ++ "]"
  match kindColor? kind with
  | some code => Style.colored colors code badge
  | none => badge

def ownerText (colors : Bool) (owner : String) : String := Style.dimmed colors ("in " ++ owner)

def nameLine (colors : Bool) (row : ResultRow) : String :=
  kindBadge colors (itemText row.key 1) ++ " " ++ Style.bold colors (itemText row.key 0) ++ "  " ++
    ownerText colors (ownerName row.value)

def signatureLine (colors : Bool) (row : ResultRow) : String :=
  let name := ((row.value.field? "name").bind Json.string?).getD "?"
  let owner := ((row.value.field? "type").map ownerName).getD ""
  Style.bold colors name ++ " : " ++ Style.colored colors "32" (row.signature.getD "") ++ "  " ++
    ownerText colors owner

def rowLines (colors : Bool) : SearchResults → List String
  | .byName rows => rows.map (nameLine colors)
  | .bySignature rows => rows.map (signatureLine colors)

def entry (colors : Bool) (connector line : String) : String :=
  "  " ++ Style.dimmed colors connector ++ " " ++ line ++ "\n"

/-- Lines behind connectors; the last one has the closing connector. -/
def entries (colors : Bool) : List String → List String
  | [] => []
  | [line] => [entry colors "└─" line]
  | line :: next :: rest => entry colors "├─" line :: entries colors (next :: rest)

def headerText (r : SearchResponse) : String :=
  match r.name, r.prototype with
  | some name, _ => "name: " ++ name
  | none, some prototype => ": " ++ prototype
  | none, none => r.query

def tally (count : Nat) : String :=
  "(" ++ toString count ++ (if count = 1 then " result)" else " results)")

def header (colors : Bool) (r : SearchResponse) (count : Nat) : String :=
  Style.bold colors (Style.colored colors "96" (headerText r)) ++ " " ++
    Style.dimmed colors (tally count) ++ "\n"

def response (colors : Bool) (r : SearchResponse) : String :=
  match r.results with
  | none => "Empty query.\n"
  | some results =>
    if results.rows.isEmpty then "No results found.\n"
    else
      header colors r results.rows.length ++
        String.join (entries colors (rowLines colors results))

end Render

end SignatureSearch
