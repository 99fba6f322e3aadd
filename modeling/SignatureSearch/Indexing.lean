import SignatureSearch.Json.Reader
import SignatureSearch.Catalog

/-! From catalog text to rows. `readDocuments?` splits a text into documents,
`DocumentRows.ofDocument` gives the rows of one document in all views, and `Build.ofDocuments`
gathers the rows of many documents into batches. -/

namespace SignatureSearch

namespace Catalog

def rowDocument? (row : Json) : Option Json := row.field? "doc"

def withoutField (name : String) (fields : List (String × Json)) : List (String × Json) :=
  fields.filter fun field => field.1 != name

/-- The documents of one value: the items of an array; for an object without the field `type`, the
items of `docs`, or else the documents of the rows in `rows`; any other value is a document itself.
A field `docs` or `rows` that was looked at and is no array is left out of the document. -/
def envelopeDocuments : Json → List Json
  | .array items => items
  | .object fields =>
    if (fields.lookup "type").isSome then [.object fields]
    else
      match fields.lookup "docs" with
      | some (.array docs) => docs
      | _ =>
        let fields := withoutField "docs" fields
        match fields.lookup "rows" with
        | some (.array rows) => rows.filterMap rowDocument?
        | _ => [.object (withoutField "rows" fields)]
  | other => [other]

/-- The documents of a text, which is a stream of JSON values. -/
def readDocuments? (text : String) : Option (List Json) :=
  (Json.readStream? text).map fun values => values.flatMap envelopeDocuments

end Catalog

structure DocumentRows where
  byName : List Row
  bySignature : List Row
  bySignatureReverse : List Row
  byAssembly : List Row
  byTypeAssembly : List Row
  deriving DecidableEq, Repr

namespace DocumentRows

def inView (r : DocumentRows) : View → List Row
  | .byName => r.byName
  | .bySignature => r.bySignature
  | .bySignatureReverse => r.bySignatureReverse
  | .byAssembly => r.byAssembly
  | .byTypeAssembly => r.byTypeAssembly

/-- The members that have rows: one row by name is that of the type itself. -/
def memberCount (r : DocumentRows) : Nat := r.byName.length - 1

def nameKey (name : String) (kind : MemberKind) : Json := .array [.string name, .string kind.text]

def entryJson (name : String) (owner : MemberKey) : Json :=
  .object [("name", .string name), ("type", owner.toJson)]

/-- The signature of a member, if it has a prototype, with the value of its rows. -/
def signatureOf? (owner : MemberKey) (member : CatalogMember) : Option (List TypeNode × Json) :=
  member.prototype.map fun nodes =>
    (CatalogNode.normalizeAll nodes, entryJson member.name owner)

def ofDocument (d : CatalogDocument) : DocumentRows :=
  let owner := d.key
  let signatures := d.signatureMembers.filterMap (signatureOf? owner)
  { byName := ⟨nameKey d.name .type, owner.toJson⟩ ::
      d.members.map fun member => ⟨nameKey member.2.name member.1, owner.toJson⟩
    bySignature := signatures.map fun s => ⟨TypeNode.signatureKey s.1, s.2⟩
    bySignatureReverse := signatures.map fun s => ⟨TypeNode.signatureKey s.1.reverse, s.2⟩
    byAssembly := [⟨CatalogDocument.optionalText d.assembly, owner.toJson⟩]
    byTypeAssembly := [⟨.string d.fullName, (AssemblyRef.mk d.revision d.assemblyName).toJson⟩] }

/-- The rows of a value: none unless it is a well-formed document that describes a type. -/
def ofJson? (v : Json) : Option DocumentRows :=
  if (v.field? "type").bind Json.string? = some CatalogDocument.typeDocument then
    (CatalogDocument.ofJson? v).map ofDocument
  else none

end DocumentRows

/-- Rows handed to a store in one piece. -/
structure Batch where
  view : View
  rows : List Row
  deriving DecidableEq, Repr

/-- The outcome of converting documents, while it is gathered. -/
structure Build where
  types : Nat
  members : Nat
  skipped : Nat
  /-- The full batches, in the order they are handed over. -/
  batches : List Batch
  /-- The rows of each view that do not fill a batch yet. -/
  pending : View → List Row
  /-- The count of all rows of a view. -/
  rowCount : View → Nat

namespace Build

def empty : Build := ⟨0, 0, 0, [], fun _ => [], fun _ => 0⟩

/-- Adds rows of one view, and hands over a batch once it has `batchSize` rows. -/
def addRows (batchSize : Nat) (b : Build) (view : View) (rows : List Row) : Build :=
  let gathered := b.pending view ++ rows
  let full := decide (batchSize ≤ gathered.length)
  { b with
    batches := if full then b.batches ++ [⟨view, gathered⟩] else b.batches
    pending := fun other =>
      if other = view then (if full then [] else gathered) else b.pending other
    rowCount := fun other =>
      if other = view then b.rowCount other + rows.length else b.rowCount other }

def addDocument (batchSize : Nat) (b : Build) (document : Json) : Build :=
  match DocumentRows.ofJson? document with
  | none => { b with skipped := b.skipped + 1 }
  | some rows =>
    View.all.foldl (fun b view => b.addRows batchSize view (rows.inView view))
      { b with types := b.types + 1, members := b.members + rows.memberCount }

/-- Converts documents. Batches have at least one row. -/
def ofDocuments (documents : List Json) (batchSize : Nat) : Build :=
  documents.foldl (addDocument (max batchSize 1)) empty

/-- The rows left over at the end, as batches. -/
def leftovers (b : Build) : List Batch :=
  (View.all.map fun view => (⟨view, b.pending view⟩ : Batch)).filter fun batch =>
    !batch.rows.isEmpty

/-- Everything that is handed to the store, in order. -/
def allBatches (b : Build) : List Batch := b.batches ++ b.leftovers

end Build

structure BuildSummary where
  types : Nat
  members : Nat
  skipped : Nat
  /-- Row counts of all views, or nothing at all if no document was converted. -/
  rowsByView : List (View × Nat)
  deriving DecidableEq, Repr

def Build.summary (b : Build) : BuildSummary :=
  ⟨b.types, b.members, b.skipped,
    if b.types = 0 then [] else View.all.map fun view => (view, b.rowCount view)⟩

end SignatureSearch
