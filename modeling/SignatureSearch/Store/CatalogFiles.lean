import SignatureSearch.Store.Disk

/-! Catalog files. A catalog is given by paths: a file, whatever its name, or a directory, whose
files of the three catalog extensions are read in the order of their names. -/

namespace SignatureSearch

structure CatalogFile where
  shown : String
  path : Path
  deriving DecidableEq, Repr

namespace CatalogFile

/-- The extension of a file name: what follows the last point, unless that begins the name. -/
def extension? (name : String) : Option String :=
  match name.toList.reverse.span (· != '.') with
  | (_, []) => none
  | (_, [_]) => none
  | (letters, _) => some (String.ofList letters.reverse)

def extensions : List String := ["json", "jsonl", "ndjson"]

/-- Whether a file found in a directory belongs to the catalog. -/
def isCatalogFile (path : Path) : Bool :=
  match path.getLast?.bind extension? with
  | some extension => extensions.contains extension
  | none => false

def within (d : Disk) (shown : String) (directory : Path) : List CatalogFile :=
  (d.entries.toList.filter fun entry =>
    directory.isBelow entry.1 && (d.file? entry.1).isSome && isCatalogFile entry.1).map
    fun entry => ⟨Path.join shown (entry.1.drop directory.length), entry.1⟩

def ofPath (d : Disk) (shown : String) : Except Failure (List CatalogFile) :=
  match d.find shown with
  | .error _ => failWith (.missingPath shown)
  | .ok path => .ok (if (d.file? path).isSome then [⟨shown, path⟩] else within d shown path)

def discover (d : Disk) (paths : List String) : Except Failure (List CatalogFile) :=
  (paths.mapM (ofPath d)).map List.flatten

def readDocuments (d : Disk) (file : CatalogFile) : Except Failure (List Json) :=
  match (d.file? file.path).bind fun file => file.content.text? with
  | none => during ("Failed to read catalog file: " ++ file.shown) (failWith (.file .notUtf8))
  | some text =>
    match Catalog.readDocuments? text with
    | none =>
      during ("Failed to parse catalog file: " ++ file.shown)
        (during "Invalid JSON in catalog" (failWith .malformedJson))
    | some documents => .ok documents

def readAll (d : Disk) (paths : List String) : Except Failure (List Json) :=
  match discover d paths with
  | .error failure => .error failure
  | .ok files => (files.mapM (readDocuments d)).map List.flatten

end CatalogFile

end SignatureSearch
