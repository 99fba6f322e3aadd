import SignatureSearch.Failure
import SignatureSearch.Store.Database
import SignatureSearch.Store.Path
import Std.Data.TreeMap.Basic

/-! Files and directories. A disk maps paths to files and directories in ascending order of the
paths, so that what a directory holds comes right after it, each directory in place of its name. A
file keeps its number for as long as it exists, whatever is written into it. -/

namespace SignatureSearch

-- Contents are compared by this instance whichever others are in scope.
instance decideBytes : DecidableEq ByteArray := ByteArray.instDecidableEq

inductive Content
  | bytes (content : ByteArray)
  /-- A database of which parts may be lost. -/
  | database (content : Database) (lost : Parts)
  /-- A database that ends too early. -/
  | malformed
  deriving DecidableEq

def Content.text? : Content → Option String
  | bytes content => String.fromUTF8? content
  | _ => none

/-- A database with all its parts. -/
def Content.ofDatabase (content : Database) : Content := .database content .none

structure File where
  number : Nat
  content : Content
  deriving DecidableEq

inductive Entry
  | directory
  | file (file : File)
  deriving DecidableEq

structure Disk where
  entries : Std.TreeMap Path Entry
  /-- How many files have been created; the number of the next one. -/
  created : Nat

namespace Disk

def empty : Disk := ⟨∅, 0⟩

def entryAt (d : Disk) (path : Path) : Option Entry := d.entries[path]?

def file? (d : Disk) (path : Path) : Option File :=
  match d.entryAt path with
  | some (.file file) => some file
  | _ => none

/-- The working directory and those around it always exist. -/
def isDirectory (d : Disk) (path : Path) : Bool :=
  path.all (fun name => name = ".." || name = "/") || d.entryAt path == some .directory

def contains (d : Disk) (path : Path) : Bool := (d.file? path).isSome || d.isDirectory path

/-! ### Following written paths -/

def maxNameBytes : Nat := 255

def maxPathBytes : Nat := 4095

/-- Looks up one part of a written path, which only a directory allows. -/
def enter (d : Disk) (path : Path) (part : String) : Except FileFault Path :=
  if d.isDirectory path then
    if maxNameBytes < part.utf8ByteSize then .error .nameTooLong else .ok (path.follow part)
  else .error (if d.contains path then .notDirectory else .notFound)

def walk (d : Disk) (path : Path) : List String → Except FileFault Path
  | [] => .ok path
  | part :: rest =>
    match d.enter path part with
    | .error fault => .error fault
    | .ok path => walk d path rest

/-- The path that a written one stands for. Nothing need exist there, but the parts on the way must
be directories. -/
def locate (d : Disk) (text : String) : Except FileFault Path :=
  if text = "" then .error .notFound
  else if maxPathBytes < text.utf8ByteSize then .error .nameTooLong
  else d.walk (Path.origin text) (Path.parts text)

def find (d : Disk) (text : String) : Except FileFault Path :=
  match d.locate text with
  | .error fault => .error fault
  | .ok path => if d.contains path then .ok path else .error .notFound

/-- Whether a written path leads to a file or directory. -/
def reaches (d : Disk) (text : String) : Bool :=
  match d.find text with
  | .ok _ => true
  | .error _ => false

/-! ### Changes -/

def addDirectory (d : Disk) (path : Path) : Disk :=
  { d with entries := d.entries.insert path .directory }

/-- Gives a file its content; a file that is created gets the next number. -/
def put (d : Disk) (path : Path) (content : Content) : Disk :=
  match d.file? path with
  | some file => { d with entries := d.entries.insert path (.file { file with content }) }
  | none => ⟨d.entries.insert path (.file ⟨d.created, content⟩), d.created + 1⟩

/-- Makes the directories on the way along parts, as far as they are missing. `made` tells whether
one has been made: what is then in the way of another is found present, and otherwise no directory.
Directories that have been made stay when a later one cannot be. -/
def makeAlong (d : Disk) (made : Bool) (path : Path) :
    List String → Disk × Except FileFault Unit
  | [] => (d, .ok ())
  | part :: rest =>
    match d.enter path part with
    | .error fault => (d, .error fault)
    | .ok path =>
      if d.isDirectory path then makeAlong d made path rest
      else if d.contains path then
        (d, .error (if made || rest.isEmpty then .present else .notDirectory))
      else makeAlong (d.addDirectory path) true path rest

/-- Makes a directory and those around it, as far as they are missing. -/
def makeDirectories (d : Disk) (text : String) : Disk × Except FileFault Unit :=
  if maxPathBytes < text.utf8ByteSize then (d, .error .nameTooLong)
  else d.makeAlong false (Path.origin text) (Path.parts text)

def write (d : Disk) (text : String) (content : Content) : Except FileFault Disk :=
  match d.locate text with
  | .error fault => .error fault
  | .ok path => if d.isDirectory path then .error .isDirectory else .ok (d.put path content)

/-- Writes a file and makes the directories around it. -/
def writeDeep (d : Disk) (text : String) (content : Content) : Disk × Except FileFault Unit :=
  match d.makeAlong false (Path.origin text) (Path.parts text).dropLast with
  | (d, .error fault) => (d, .error fault)
  | (d, .ok ()) =>
    match d.write text content with
    | .error fault => (d, .error fault)
    | .ok d => (d, .ok ())

def removeDirectory (d : Disk) (path : Path) : Disk :=
  { d with entries := d.entries.filter fun other _ => !path.isPrefixOf other }

end Disk

end SignatureSearch
