import Mathlib
import SignatureSearch.Proofs.DatabaseAnswers
import SignatureSearch.Proofs.ViewConsistency

/-! Batches in any order. Where the rows of a view are cut into batches, and which view is the first
to hand over what is left at the end, shows in no answer of the store that takes them. -/
namespace SignatureSearch

/-- Batches of different views can change places. -/
lemma viewRows_perm {batches others : List Batch} (h : batches.Perm others)
    (hn : (batches.map Batch.view).Nodup) (view : View) :
    viewRows view (batches.flatMap Batch.items) = viewRows view (others.flatMap Batch.items) := by
  induction h with
  | nil => rfl
  | cons b _ ih =>
    rw [List.map_cons, List.nodup_cons] at hn
    rw [List.flatMap_cons, List.flatMap_cons, viewRows_append, viewRows_append, ih hn.2]
  | swap a b rest =>
    have hne : b.view ≠ a.view := by
      intro heq
      simp [heq] at hn
    simp only [List.flatMap_cons, viewRows_append, viewRows_items]
    split_ifs with hb ha
    · exact absurd (hb.trans ha.symm) hne
    · simp
    · simp
    · simp
  | trans h₁ _ ih₁ ih₂ => exact (ih₁ hn).trans (ih₂ ((h₁.map Batch.view).nodup hn))

/-- Batches with the same rows in every view are all empty, or not. -/
lemma isEmpty_items {batches others : List Batch}
    (hv : ∀ view, viewRows view (batches.flatMap Batch.items) =
      viewRows view (others.flatMap Batch.items)) :
    (batches.flatMap Batch.items).isEmpty = (others.flatMap Batch.items).isEmpty := by
  have hperm : (batches.flatMap Batch.items).Perm (others.flatMap Batch.items) := by
    refine perm_of_filter Prod.fst fun view => ?_
    have hitems (items : List (View × Row)) : (items.filter fun item => item.1 == view) =
        (viewRows view items).map fun row => (view, row) := by
      rw [viewRows, List.map_map]
      refine (List.map_id _).symm.trans (List.map_congr_left fun item hitem => ?_)
      have heq : item.1 = view := by simpa using (List.mem_filter.mp hitem).2
      exact Prod.ext heq rfl
    rw [hitems, hitems, hv]
  exact hperm.isEmpty_eq

namespace Build

/-- These batches are handed over for documents; those left at the end come in any order. -/
def Delivers (documents : List Json) (batchSize : ℕ) (batches : List Batch) : Prop :=
  ∃ rest, rest.Perm (ofDocuments documents batchSize).leftovers ∧
    batches = (ofDocuments documents batchSize).batches ++ rest

lemma delivers_allBatches (documents : List Json) (batchSize : ℕ) :
    Delivers documents batchSize (ofDocuments documents batchSize).allBatches :=
  ⟨_, .rfl, rfl⟩

lemma leftovers_nodup (b : Build) : (b.leftovers.map Batch.view).Nodup := by
  have hviews : ((View.all.map fun view => (⟨view, b.pending view⟩ : Batch)).map Batch.view) =
      View.all := by
    rw [List.map_map]
    rfl
  refine List.Nodup.sublist (List.filter_sublist.map Batch.view) ?_
  rw [hviews]
  decide

variable {documents : List Json} {batchSize : ℕ} {batches : List Batch}

lemma Delivers.viewRows (h : Delivers documents batchSize batches) (view : View) :
    viewRows view (batches.flatMap Batch.items) = documentRows view documents := by
  obtain ⟨rest, hrest, rfl⟩ := h
  have hn : (rest.map Batch.view).Nodup :=
    (hrest.map Batch.view).nodup_iff.mpr (leftovers_nodup _)
  rw [← viewRows_allBatches documents batchSize view, allBatches, List.flatMap_append,
    List.flatMap_append, viewRows_append, viewRows_append, viewRows_perm hrest hn]

/-- The summary tells of the documents and nothing of the batches. -/
lemma summary_ofDocuments (documents : List Json) (batchSize : ℕ) :
    (ofDocuments documents batchSize).summary =
      ⟨(documents.filterMap CatalogDocument.converted?).length,
        ((documents.filterMap CatalogDocument.converted?).map fun d => d.members.length).sum,
        documents.length - (documents.filterMap CatalogDocument.converted?).length,
        if (documents.filterMap CatalogDocument.converted?).length = 0 then []
        else View.all.map fun view => (view, (documentRows view documents).length)⟩ := by
  have htotal := total_ofDocuments documents batchSize
  have htypes := types_ofDocuments documents batchSize
  have hskipped : (ofDocuments documents batchSize).skipped =
      documents.length - (documents.filterMap CatalogDocument.converted?).length := by omega
  rw [summary, htypes, members_ofDocuments, hskipped]
  simp only [rowCount_ofDocuments]

end Build

/-! ### Transactions -/

namespace Writer

/-- Transactions on one file that differ only in how the rows of views are mixed. -/
structure Agrees (w w' : Writer) : Prop where
  file : w.file = w'.file
  database : w.database.Agrees w'.database
  changed : w.changed = w'.changed
  lost : w.lost = w'.lost
  hasFailed : w.hasFailed = w'.hasFailed

lemma changed_insertBatches (w : Writer) (batches : List Batch) :
    (w.insertBatches batches).changed =
      if (batches.flatMap Batch.items).isEmpty then w.changed else w.changed.union .added := by
  have hadded : ∀ parts : Parts, (parts.union .added).union .added = parts.union .added := by
    intro parts
    cases parts
    simp [Parts.union, Parts.added]
  induction batches generalizing w with
  | nil => rfl
  | cons b batches ih =>
    have hstep : w.insertBatches (b :: batches) = (w.insert b.view b.rows).insertBatches batches :=
      rfl
    rw [hstep, ih, List.flatMap_cons, Batch.items]
    cases b.rows with
    | nil => rfl
    | cons row rows =>
      simp only [Writer.insert, List.isEmpty_cons, Bool.false_eq_true, if_false, hadded, ite_self]
      rfl

lemma database_insertBatches (w : Writer) (batches : List Batch) :
    (w.insertBatches batches).database = w.database.insertBatches batches := by
  induction batches generalizing w with
  | nil => rfl
  | cons b batches ih => exact ih (w.insert b.view b.rows)

/-- Nothing else changes. -/
lemma insertBatches_eq {α : Type} {f : Writer → α}
    (hf : ∀ w view rows, f (Writer.insert w view rows) = f w) (w : Writer)
    (batches : List Batch) : f (w.insertBatches batches) = f w := by
  induction batches generalizing w with
  | nil => rfl
  | cons b batches ih => exact (ih (w.insert b.view b.rows)).trans (hf w b.view b.rows)

lemma agrees_insertBatches (w : Writer) {batches others : List Batch}
    (hv : ∀ view, viewRows view (batches.flatMap Batch.items) =
      viewRows view (others.flatMap Batch.items)) :
    (w.insertBatches batches).Agrees (w.insertBatches others) := by
  have hfields {α : Type} {f : Writer → α}
      (hf : ∀ w view rows, f (Writer.insert w view rows) = f w) :
      f (w.insertBatches batches) = f (w.insertBatches others) :=
    (insertBatches_eq hf w batches).trans (insertBatches_eq hf w others).symm
  have hempty := isEmpty_items hv
  constructor
  case file => exact hfields (f := Writer.file) fun _ _ _ => rfl
  case database =>
    rw [database_insertBatches, database_insertBatches]
    exact (Database.Agrees.refl _).insertBatches hv
  case changed => rw [changed_insertBatches, changed_insertBatches, hempty]
  case lost => exact hfields (f := Writer.lost) fun _ _ _ => rfl
  case hasFailed => exact hfields (f := Writer.hasFailed) fun _ _ _ => rfl

/-- At most the rows tell the contents apart that the file gets. -/
lemma Agrees.contentOver {w w' : Writer} (h : w.Agrees w') (content : Content) :
    w.contentOver content = w'.contentOver content ∨
      w.contentOver content = some (.database w.database w.lost) ∧
        w'.contentOver content = some (.database w'.database w.lost) := by
  cases content with
  | bytes bytes =>
    simp only [Writer.contentOver]
    rw [h.changed, h.lost]
    split_ifs
    · exact .inl rfl
    · exact .inl rfl
    · exact .inr ⟨rfl, rfl⟩
  | database | malformed =>
    rw [h.lost]
    exact .inr ⟨congrArg (fun lost => some (Content.database w.database lost)) h.lost, rfl⟩

lemma Agrees.committed? {w w' : Writer} (h : w.Agrees w') (file? : Option File) :
    w.committed? file? = w'.committed? file? ∨
      w.committed? file? = .ok (some (.database w.database w.lost)) ∧
        w'.committed? file? = .ok (some (.database w'.database w.lost)) := by
  cases file? with
  | none =>
    left
    rw [Writer.committed?, Writer.committed?, h.hasFailed, h.changed]
  | some file =>
    simp only [Writer.committed?]
    rw [h.hasFailed]
    split_ifs
    · exact .inl rfl
    · rcases h.contentOver file.content with heq | ⟨hw, hw'⟩
      · exact .inl (congrArg Except.ok heq)
      · exact .inr ⟨congrArg Except.ok hw, congrArg Except.ok hw'⟩

end Writer

namespace IndexStore

/-- Both transactions cannot be committed for the same reason, or the index answers alike after
either. -/
def CommitsAlike (s : IndexStore) (d : Disk) (w w' : Writer) : Prop :=
  (∃ failure, s.commit d w = .error failure ∧ s.commit d w' = .error failure) ∨
    ∃ d₁ d₂, s.commit d w = .ok d₁ ∧ s.commit d w' = .ok d₂ ∧ s.AnswersAlike d₁ s d₂

lemma commitsAlike {w w' : Writer} (h : w.Agrees w') (s : IndexStore) (d : Disk) :
    s.CommitsAlike d w w' := by
  have hfile : s.fileOf? d w = s.fileOf? d w' := by
    rw [fileOf?, h.file, fileOf?]
  rcases h.committed? (s.fileOf? d w') with heq | ⟨hw, hw'⟩
  · have hcommit : s.commit d w = s.commit d w' := by
      rw [commit, hfile, heq, commit]
    cases hresult : s.commit d w' with
    | error failure => exact .inl ⟨failure, hcommit.trans hresult, hresult⟩
    | ok d' => exact .inr ⟨d', d', hcommit.trans hresult, hresult, .refl s d'⟩
  · refine .inr ⟨_, _, ?_, ?_, answersAlike_put h.database s d w.lost⟩
    · rw [commit, hfile, hw]
    · rw [commit, hw']

end IndexStore

/-- Whatever the size of the batches, and in whatever order those left at the end are handed over,
a store gets the rows of all documents in every view, in order. The summary counts these rows, and
neither the summary nor any answer of a store depends on the batches. -/
theorem delivered_alike (documents : List Json) {n m : ℕ} {batches others : List Batch}
    (h : Build.Delivers documents n batches) (g : Build.Delivers documents m others) :
    (∀ view, viewRows view (batches.flatMap Batch.items) = documentRows view documents) ∧
    (Build.ofDocuments documents n).summary.rowsByView =
      (if (documents.filterMap CatalogDocument.converted?).length = 0 then []
      else View.all.map fun view =>
        (view, (viewRows view (batches.flatMap Batch.items)).length)) ∧
    (Build.ofDocuments documents n).summary = (Build.ofDocuments documents m).summary ∧
    (∀ earlier view scan,
      ((MemoryStore.empty.insertBatches earlier).insertBatches batches).scan view scan =
        ((MemoryStore.empty.insertBatches earlier).insertBatches others).scan view scan) ∧
    ∀ (s : IndexStore) (d : Disk) (w : Writer),
      s.CommitsAlike d (w.insertBatches batches) (w.insertBatches others) := by
  have hviews (view : View) : viewRows view (batches.flatMap Batch.items) =
      viewRows view (others.flatMap Batch.items) := by
    rw [h.viewRows, g.viewRows]
  refine ⟨h.viewRows, ?_, ?_, ?_, ?_⟩
  · rw [Build.summary_ofDocuments]
    simp only [h.viewRows]
  · rw [Build.summary_ofDocuments, Build.summary_ofDocuments]
  · intro earlier view scan
    have hearlier := MemoryStore.empty_holds.insertBatches earlier
    rw [(hearlier.insertBatches batches).scan, (hearlier.insertBatches others).scan]
    simp only [viewRows_append, hviews]
  · intro s d w
    exact IndexStore.commitsAlike (w.agrees_insertBatches hviews) s d

/-- Batches of four rows and of one row, the former with what is left at the end turned around. -/
theorem delivered_alike_sample :
    let documents := [sampleType.toJson, .null, sampleType.toJson]
    let batches := (Build.ofDocuments documents 4).batches ++
      (Build.ofDocuments documents 4).leftovers.reverse
    Build.Delivers documents 4 batches ∧
      batches ≠ (Build.ofDocuments documents 0).allBatches ∧
      ∀ view scan, (MemoryStore.empty.insertBatches batches).scan view scan =
        (MemoryStore.empty.insertBatches (Build.ofDocuments documents 0).allBatches).scan
          view scan := by
  intro documents batches
  have hbatches : Build.Delivers documents 4 batches := ⟨_, List.reverse_perm _, rfl⟩
  have hothers := Build.delivers_allBatches documents 0
  have hscan := (delivered_alike documents hbatches hothers).2.2.2.1 []
  exact ⟨hbatches, by decide +kernel, hscan⟩

end SignatureSearch
