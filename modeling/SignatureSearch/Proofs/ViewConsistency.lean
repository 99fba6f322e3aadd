import Mathlib
import SignatureSearch.Proofs.SignatureRows

/-! Views and figures of a build. A document is converted as a whole or skipped as a whole, and
the figures follow from the documents that are converted; the two views of signatures mirror each
other. -/
namespace SignatureSearch

/-- The key with its items in reverse order. -/
def Json.reversed : Json → Json
  | .array items => .array items.reverse
  | other => other

/-- The row whose key is turned around. -/
def Row.mirrored (row : Row) : Row := ⟨row.key.reversed, row.value⟩

/-! ### Sums over documents -/

section Sums

variable {α β : Type}

lemma sum_map_filterMap (f : α → Option β) (g : β → ℕ) (list : List α) :
    ((list.filterMap f).map g).sum = (list.map fun a => ((f a).map g).getD 0).sum := by
  induction list with
  | nil => rfl
  | cons a rest ih =>
    cases hf : f a with
    | none => simp [hf, ih]
    | some b => simp [hf, ih]

lemma flatMap_filterMap (f : α → Option β) {γ : Type} (g : β → List γ) (list : List α) :
    (list.filterMap f).flatMap g = list.flatMap fun a => ((f a).map g).getD [] := by
  induction list with
  | nil => rfl
  | cons a rest ih =>
    cases hf : f a with
    | none => simp [hf, ih]
    | some b => simp [hf, ih]

end Sums

namespace CatalogDocument

lemma members_length (d : CatalogDocument) : d.members.length =
    d.methods.length + d.properties.length + d.events.length + d.fields.length := by
  simp [members, Nat.add_assoc]

end CatalogDocument

namespace DocumentRows

lemma byName_length (d : CatalogDocument) :
    (ofDocument d).byName.length = 1 + d.members.length := by
  simp [ofDocument, Nat.add_comm]

lemma memberCount_ofDocument (d : CatalogDocument) :
    (ofDocument d).memberCount = d.members.length := by
  rw [memberCount, byName_length]
  omega

end DocumentRows

lemma turnedRow_mirrored (s : List TypeNode × Json) :
    turnedRow true s = (turnedRow false s).mirrored := by
  have hkey : TypeNode.signatureKey s.1.reverse = (TypeNode.signatureKey s.1).reversed := by
    rw [TypeNode.signatureKey, TypeNode.signatureKey, TypeNode.itemsToJson_eq,
      TypeNode.itemsToJson_eq, List.map_reverse]
    rfl
  exact congrArg (Row.mk · s.2) hkey

/-! ### Figures -/

namespace Build

variable {batchSize : ℕ}

/-- What no rows of a view change, the rows of a document do not change. -/
lemma addViews_eq {α : Type} (f : Build → α)
    (hf : ∀ b view rows, f (addRows batchSize b view rows) = f b) (b : Build)
    (rows : DocumentRows) (views : List View) :
    f (views.foldl (fun b view => b.addRows batchSize view (rows.inView view)) b) = f b := by
  induction views generalizing b with
  | nil => rfl
  | cons view views ih => rw [List.foldl_cons, ih, hf]

/-- A figure that each document raises by an amount of its own is their sum. -/
lemma figure_addDocuments (figure : Build → ℕ) (amount : Json → ℕ)
    (hf : ∀ b document, figure (addDocument batchSize b document) = figure b + amount document)
    (b : Build) (documents : List Json) :
    figure (documents.foldl (addDocument batchSize) b) =
      figure b + (documents.map amount).sum := by
  induction documents generalizing b with
  | nil => simp
  | cons document documents ih =>
    rw [List.foldl_cons, ih, hf, List.map_cons, List.sum_cons, Nat.add_assoc]

lemma types_addDocument (b : Build) (document : Json) :
    (b.addDocument batchSize document).types =
      b.types + ((CatalogDocument.converted? document).map fun _ => 1).getD 0 := by
  rw [addDocument, DocumentRows.ofJson?_eq]
  cases CatalogDocument.converted? document with
  | none => rfl
  | some d => exact addViews_eq Build.types (fun _ _ _ => rfl) _ _ _

lemma members_addDocument (b : Build) (document : Json) :
    (b.addDocument batchSize document).members =
      b.members + ((CatalogDocument.converted? document).map fun d => d.members.length).getD 0 := by
  rw [addDocument, DocumentRows.ofJson?_eq]
  cases CatalogDocument.converted? document with
  | none => rfl
  | some d =>
    rw [Option.map_some, Option.map_some, Option.getD_some, ← DocumentRows.memberCount_ofDocument]
    exact addViews_eq Build.members (fun _ _ _ => rfl) _ _ _

/-- Each document is converted or skipped. -/
lemma total_addDocument (b : Build) (document : Json) :
    (b.addDocument batchSize document).types + (b.addDocument batchSize document).skipped =
      b.types + b.skipped + 1 := by
  rw [addDocument]
  cases DocumentRows.ofJson? document with
  | none => exact (Nat.add_assoc _ _ _).symm
  | some rows =>
    simp only [addViews_eq (fun b => b.types + b.skipped) (fun _ _ _ => rfl)]
    exact Nat.add_right_comm _ _ _

lemma types_ofDocuments (documents : List Json) (batchSize : ℕ) :
    (ofDocuments documents batchSize).types =
      (documents.filterMap CatalogDocument.converted?).length := by
  rw [ofDocuments, figure_addDocuments types _ types_addDocument, ← sum_map_filterMap]
  simp [empty]

lemma members_ofDocuments (documents : List Json) (batchSize : ℕ) :
    (ofDocuments documents batchSize).members =
      ((documents.filterMap CatalogDocument.converted?).map fun d => d.members.length).sum := by
  rw [ofDocuments, figure_addDocuments members _ members_addDocument, ← sum_map_filterMap]
  simp [empty]

lemma total_ofDocuments (documents : List Json) (batchSize : ℕ) :
    (ofDocuments documents batchSize).types + (ofDocuments documents batchSize).skipped =
      documents.length := by
  have htotal := figure_addDocuments (fun b => b.types + b.skipped) (fun _ => 1)
    (@total_addDocument (max batchSize 1)) empty documents
  rw [ofDocuments, htotal]
  simp [empty]

/-! ### Counts of rows -/

def Counts (b : Build) : Prop := ∀ view, b.rowCount view = (b.gathered view).length

lemma Counts.addRows {b : Build} (h : b.Counts) (view : View) (rows : List Row) :
    (b.addRows batchSize view rows).Counts := by
  intro other
  rw [gathered_addRows, List.length_append, ← h other]
  by_cases heq : other = view
  · simp [Build.addRows, heq]
  · simp [Build.addRows, heq]

lemma Counts.addViews {b : Build} (h : b.Counts) (rows : DocumentRows) (views : List View) :
    (views.foldl (fun b view => b.addRows batchSize view (rows.inView view)) b).Counts := by
  induction views generalizing b with
  | nil => exact h
  | cons view views ih => exact ih (h.addRows view _)

lemma Counts.addDocument {b : Build} (h : b.Counts) (document : Json) :
    (b.addDocument batchSize document).Counts := by
  rw [Build.addDocument]
  cases DocumentRows.ofJson? document with
  | none => exact h
  | some rows =>
    have hb : ({ b with types := b.types + 1, members := b.members + rows.memberCount } :
        Build).Counts := h
    exact hb.addViews rows View.all

lemma Counts.addDocuments {b : Build} (h : b.Counts) (documents : List Json) :
    (documents.foldl (Build.addDocument batchSize) b).Counts := by
  induction documents generalizing b with
  | nil => exact h
  | cons document documents ih => exact ih (h.addDocument document)

lemma rowCount_ofDocuments (documents : List Json) (batchSize : ℕ) (view : View) :
    (ofDocuments documents batchSize).rowCount view = (documentRows view documents).length := by
  have hempty : empty.Counts := fun _ => rfl
  rw [ofDocuments, hempty.addDocuments documents view, gathered_addDocuments]
  rfl

end Build

/-! ### Consistency -/

/-- The rows of the views and the figures fit the documents and each other. -/
structure ConsistentViews (documents : List Json) (rows : View → List Row)
    (summary : BuildSummary) : Prop where
  /-- A document contributes its rows to all views, or nothing to any. -/
  whole : ∀ view, rows view = documents.flatMap fun document =>
    ((DocumentRows.ofJson? document).map fun r => r.inView view).getD []
  types : summary.types = documents.countP fun document =>
    (DocumentRows.ofJson? document).isSome
  skipped : summary.skipped = documents.countP fun document =>
    (DocumentRows.ofJson? document).isNone
  total : summary.types + summary.skipped = documents.length
  members : summary.members = ((documents.filterMap CatalogDocument.converted?).map fun d =>
    d.methods.length + d.properties.length + d.events.length + d.fields.length).sum
  byName : (rows .byName).length = summary.types + summary.members
  byAssembly : (rows .byAssembly).length = summary.types
  byTypeAssembly : (rows .byTypeAssembly).length = summary.types
  /-- There is one row for every method or property that has a prototype. -/
  bySignature : rows .bySignature = (documents.filterMap CatalogDocument.converted?).flatMap
    fun d => (d.methods ++ d.properties).filterMap fun member => member.prototype.map fun nodes =>
      ⟨TypeNode.signatureKey (CatalogNode.normalizeAll nodes),
        DocumentRows.entryJson member.name d.key⟩
  mirror : rows .bySignatureReverse = (rows .bySignature).map Row.mirrored

lemma documentRows_length (view : View) (documents : List Json) :
    (documentRows view documents).length =
      ((documents.filterMap CatalogDocument.converted?).map fun d =>
        ((DocumentRows.ofDocument d).inView view).length).sum := by
  rw [documentRows, List.length_flatMap]

/-- Whatever the documents and the size of the batches, the views that are written are consistent
with each other and with the figures that are reported. -/
theorem views_consistent (documents : List Json) (batchSize : ℕ) :
    ConsistentViews documents
      (fun view =>
        viewRows view ((Build.ofDocuments documents batchSize).allBatches.flatMap Batch.items))
      (Build.ofDocuments documents batchSize).summary := by
  have hrows (view : View) := Build.viewRows_allBatches documents batchSize view
  have htypes : (Build.ofDocuments documents batchSize).summary.types =
      (documents.filterMap CatalogDocument.converted?).length :=
    Build.types_ofDocuments documents batchSize
  have hmembers : (Build.ofDocuments documents batchSize).summary.members =
      ((documents.filterMap CatalogDocument.converted?).map fun d => d.members.length).sum :=
    Build.members_ofDocuments documents batchSize
  have htotal : (Build.ofDocuments documents batchSize).summary.types +
      (Build.ofDocuments documents batchSize).summary.skipped = documents.length :=
    Build.total_ofDocuments documents batchSize
  have hconverted : (documents.filterMap CatalogDocument.converted?).length =
      documents.countP fun document => (DocumentRows.ofJson? document).isSome := by
    rw [List.length_filterMap_eq_countP]
    simp only [DocumentRows.ofJson?_eq, Option.isSome_map]
  have hothers : documents.length =
      (documents.countP fun document => (DocumentRows.ofJson? document).isSome) +
        documents.countP fun document => (DocumentRows.ofJson? document).isNone := by
    rw [List.length_eq_countP_add_countP fun document => (DocumentRows.ofJson? document).isSome]
    refine congrArg _ (List.countP_congr fun document _ => ?_)
    cases DocumentRows.ofJson? document <;> simp
  have hsignatures (reverse : Bool) :=
    documentRows_signature reverse (.exact .null 0) documents
  constructor
  case whole =>
    intro view
    simp only [hrows, documentRows, flatMap_filterMap, DocumentRows.ofJson?_eq, Option.map_map,
      Function.comp_def]
  case types => rw [htypes, hconverted]
  case skipped => omega
  case total => exact htotal
  case members => simp only [hmembers, CatalogDocument.members_length]
  case byName =>
    rw [hrows, documentRows_length, htypes, hmembers]
    simp only [DocumentRows.inView, DocumentRows.byName_length, List.sum_map_add]
    simp
  case byAssembly =>
    rw [hrows, documentRows_length, htypes]
    simp [DocumentRows.inView, DocumentRows.ofDocument]
  case byTypeAssembly =>
    rw [hrows, documentRows_length, htypes]
    simp [DocumentRows.inView, DocumentRows.ofDocument]
  case bySignature =>
    rw [hrows]
    refine (hsignatures false).trans ?_
    rw [signatures, List.map_flatMap]
    refine List.flatMap_congr fun d _ => ?_
    simp only [List.map_filterMap, Option.map_map]
    rfl
  case mirror =>
    rw [hrows, hrows]
    refine (hsignatures true).trans ?_
    rw [show documentRows .bySignature documents = _ from hsignatures false, List.map_map]
    exact List.map_congr_left fun s _ => turnedRow_mirrored s

end SignatureSearch
