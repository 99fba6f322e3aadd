/-! Paths. A path as it is written is a text whose parts are separated by slashes; a path itself is
the list of names that lead to a file or directory. -/

namespace SignatureSearch

/-- The names from the working directory to a file; an absolute path begins with `"/"`, and one that
leaves the working directory with `".."`. -/
abbrev Path := List String

namespace Path

def splitSlashes : List Char → List (List Char)
  | [] => [[]]
  | c :: cs =>
    if c = '/' then [] :: splitSlashes cs
    else
      match splitSlashes cs with
      | [] => [[c]]
      | part :: rest => (c :: part) :: rest

def parts (text : String) : List String := (splitSlashes text.toList).map String.ofList

def origin (text : String) : Path := if text.startsWith "/" then ["/"] else []

def parent (path : Path) : Path :=
  match path.getLast? with
  | none => [".."]
  | some last =>
    if last = ".." then path ++ [".."]
    else if last = "/" then path
    else path.dropLast

def follow (path : Path) (part : String) : Path :=
  if part = "" ∨ part = "." then path
  else if part = ".." then parent path
  else path ++ [part]

def isBelow (directory path : Path) : Bool :=
  directory.isPrefixOf path &&
    match path.drop directory.length with
    | [] => false
    | name :: _ => name != ".." && name != "/"

def text (path : Path) : String := "/".intercalate path

def join (directory : String) (path : Path) : String :=
  if directory.endsWith "/" then directory ++ path.text else directory ++ "/" ++ path.text

end Path

end SignatureSearch
