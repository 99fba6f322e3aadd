import Mathlib
import SignatureSearch.Indexing

/-! Batches. Rows of a view are handed over in batches of any size, and the rest at the end; read
one batch after the other they are the rows of all documents, in order. -/
namespace SignatureSearch

def Batch.items (b : Batch) : List (View × Row) := b.rows.map fun row => (b.view, row)

def viewRows (view : View) (items : List (View × Row)) : List Row :=
  (items.filter fun item => item.1 == view).map Prod.snd

lemma viewRows_append (view : View) (items more : List (View × Row)) :
    viewRows view (items ++ more) = viewRows view items ++ viewRows view more := by
  simp [viewRows]

lemma viewRows_items (view : View) (b : Batch) :
    viewRows view b.items = if b.view = view then b.rows else [] := by
  by_cases h : b.view = view <;> simp [viewRows, Batch.items, List.filter_map, Function.comp_def, h]

/-- The document in a value, if the value is a well-formed document that describes a type. -/
def CatalogDocument.converted? (v : Json) : Option CatalogDocument :=
  if (v.field? "type").bind Json.string? = some typeDocument then ofJson? v else none

lemma DocumentRows.ofJson?_eq (v : Json) :
    ofJson? v = (CatalogDocument.converted? v).map ofDocument := by
  unfold ofJson? CatalogDocument.converted?
  split_ifs <;> rfl

/-- The rows of a view that documents contribute, in order. -/
def documentRows (view : View) (documents : List Json) : List Row :=
  (documents.filterMap CatalogDocument.converted?).flatMap fun d =>
    (DocumentRows.ofDocument d).inView view

lemma View.mem_all (view : View) : view ∈ View.all := by cases view <;> decide

namespace Build

/-- The rows of a view so far: those handed over and those left. -/
def gathered (b : Build) (view : View) : List Row :=
  viewRows view (b.batches.flatMap Batch.items) ++ b.pending view

lemma gathered_addRows (batchSize : ℕ) (b : Build) (view other : View) (rows : List Row) :
    (b.addRows batchSize view rows).gathered other =
      b.gathered other ++ if other = view then rows else [] := by
  unfold gathered addRows
  dsimp only
  by_cases hfull : batchSize ≤ (b.pending view).length + rows.length
  · rcases eq_or_ne other view with rfl | hne
    · simp [hfull, viewRows_append, viewRows_items]
    · simp [hfull, viewRows_append, viewRows_items, hne, hne.symm]
  · rcases eq_or_ne other view with rfl | hne
    · simp [hfull]
    · simp [hfull, hne]

lemma gathered_addViews (batchSize : ℕ) (b : Build) (rows : DocumentRows) (views : List View)
    (hn : views.Nodup) (other : View) :
    (views.foldl (fun b view => b.addRows batchSize view (rows.inView view)) b).gathered other =
      b.gathered other ++ if other ∈ views then rows.inView other else [] := by
  induction views generalizing b with
  | nil => simp
  | cons view views ih =>
    have hview := (List.nodup_cons.mp hn).1
    rw [List.foldl_cons, ih _ (List.nodup_cons.mp hn).2, gathered_addRows, List.append_assoc]
    rcases eq_or_ne other view with rfl | hne
    · simp [hview]
    · simp [hne]

lemma gathered_addDocument (batchSize : ℕ) (b : Build) (document : Json) (view : View) :
    (b.addDocument batchSize document).gathered view =
      b.gathered view ++ documentRows view [document] := by
  rw [addDocument, DocumentRows.ofJson?_eq]
  cases h : CatalogDocument.converted? document with
  | none => simp [documentRows, h, gathered]
  | some d =>
    simp only [Option.map_some]
    rw [gathered_addViews _ _ _ _ (by decide)]
    simp [documentRows, h, View.mem_all, gathered]

lemma gathered_addDocuments (batchSize : ℕ) (b : Build) (documents : List Json) (view : View) :
    (documents.foldl (addDocument batchSize) b).gathered view =
      b.gathered view ++ documentRows view documents := by
  induction documents generalizing b with
  | nil => simp [documentRows]
  | cons document documents ih =>
    rw [List.foldl_cons, ih, gathered_addDocument, List.append_assoc]
    simp [documentRows, List.filterMap_cons]
    cases CatalogDocument.converted? document <;> simp

lemma viewRows_rest (b : Build) (views : List View) (hn : views.Nodup) (view : View) :
    viewRows view (((views.map fun v => (⟨v, b.pending v⟩ : Batch)).filter fun batch =>
      !batch.rows.isEmpty).flatMap Batch.items) = if view ∈ views then b.pending view else [] := by
  induction views with
  | nil => rfl
  | cons v views ih =>
    have ih := ih (List.nodup_cons.mp hn).2
    have hv := (List.nodup_cons.mp hn).1
    rcases eq_or_ne view v with rfl | hne
    · rcases hp : b.pending view with _ | ⟨row, rows⟩ <;>
        simp [hp, viewRows_append, viewRows_items, ih, hv]
    · rcases hp : b.pending v with _ | ⟨row, rows⟩ <;>
        simp [hp, viewRows_append, viewRows_items, ih, hne, hne.symm]

lemma viewRows_leftovers (b : Build) (view : View) :
    viewRows view (b.leftovers.flatMap Batch.items) = b.pending view := by
  rw [leftovers, viewRows_rest b View.all (by decide) view, if_pos (View.mem_all view)]

/-- The batches of a view hold the rows of all documents, in order, whatever their size. -/
theorem viewRows_allBatches (documents : List Json) (batchSize : ℕ) (view : View) :
    viewRows view ((ofDocuments documents batchSize).allBatches.flatMap Batch.items) =
      documentRows view documents := by
  rw [allBatches, List.flatMap_append, viewRows_append, viewRows_leftovers, ← gathered,
    ofDocuments, gathered_addDocuments]
  rfl

end Build

end SignatureSearch
