import Mathlib
import SignatureSearch.Proofs.StoreInPlace

/-! Databases that answer alike. What is read from a database depends only on the rows of each view,
in order, on three counts and on the format that is recorded; how rows of different views are mixed
does not show. -/
namespace SignatureSearch

/-- Elements of every kind in the same order are the same elements. -/
lemma perm_of_filter {α β : Type} [DecidableEq α] [DecidableEq β] (kind : α → β) {l l' : List α}
    (h : ∀ b, (l.filter fun a => kind a == b) = l'.filter fun a => kind a == b) : l.Perm l' := by
  refine List.perm_iff_count.mpr fun a => ?_
  have hself : (kind a == kind a) = true := beq_self_eq_true _
  rw [← List.count_filter (l := l) (p := fun x => kind x == kind a) hself, h,
    List.count_filter (l := l') (p := fun x => kind x == kind a) hself]

lemma lookup_filter_ne {α : Type} {name other : String} (hne : other ≠ name)
    (list : List (String × α)) :
    (list.filter fun entry => entry.1 != name).lookup other = list.lookup other := by
  induction list with
  | nil => rfl
  | cons entry rest ih =>
    obtain ⟨first, text⟩ := entry
    by_cases hfirst : first = name
    · subst hfirst
      simp [ih, List.lookup_cons, beq_eq_false_iff_ne.mpr hne]
    · simp [hfirst, ih, List.lookup_cons]

namespace Database

def countNames : List String := ["total_types", "total_members", "skipped_documents"]

/-- Every view has the same rows in the same order. -/
def SameRows (a b : Database) : Prop := ∀ view : String,
  (a.rows.filter fun row => row.view == view) = b.rows.filter fun row => row.view == view

structure SameFigures (a b : Database) : Prop where
  rows : a.SameRows b
  counts : ∀ name ∈ countNames, a.statistics.lookup name = b.statistics.lookup name

/-- The same figures, and rows of one format. -/
structure Agrees (a b : Database) : Prop extends a.SameFigures b where
  format : a.statistics.lookup "schema_hash" = b.statistics.lookup "schema_hash"

lemma Agrees.refl (d : Database) : d.Agrees d := ⟨⟨fun _ => rfl, fun _ _ => rfl⟩, rfl⟩

lemma countOne_comm (name other : String) (counts : List (String × ℕ)) :
    countOne name (countOne other counts) = countOne other (countOne name counts) := by
  induction counts with
  | nil =>
    rcases lt_trichotomy name other with h | rfl | h
    · simp [countOne, h, h.ne', h.not_gt]
    · rfl
    · simp [countOne, h, h.ne', h.not_gt]
  | cons entry rest ih =>
    -- Both names go before the first entry, into it or behind it; only then the rest matters.
    obtain ⟨first, n⟩ := entry
    have hname := lt_trichotomy name first
    have hother := lt_trichotomy other first
    have hboth := lt_trichotomy name other
    simp only [countOne]
    split_ifs <;> simp only [countOne] <;> split_ifs <;> grind

section Reading

variable {a b : Database} (h : a.SameFigures b)
include h

lemma SameFigures.perm : a.rows.Perm b.rows := perm_of_filter StoredRow.view h.rows

lemma SameFigures.select (view : View) (scan : Scan) : a.select view scan = b.select view scan := by
  have hfound (d : Database) : (d.rows.filter fun row =>
      row.view == view.text && Scan.isBetween scan.lower.encode scan.upper.encode row.key) =
      (d.rows.filter fun row => row.view == view.text).filter fun row =>
        Scan.isBetween scan.lower.encode scan.upper.encode row.key := by
    rw [List.filter_filter]
    exact List.filter_congr fun row _ => Bool.and_comm _ _
  simp only [Database.select]
  rw [hfound a, hfound b, h.rows]

lemma SameFigures.scan (view : View) (scan : Scan) : a.scan view scan = b.scan view scan := by
  rw [Database.scan, h.select, Database.scan]

lemma SameFigures.rowsByView : a.rowsByView = b.rowsByView := by
  refine h.perm.foldl_eq' (fun x _ y _ counts => ?_) []
  exact countOne_comm y.view x.view counts

lemma SameFigures.counter {name : String} (hn : name ∈ countNames) :
    a.counter name = b.counter name := by
  rw [Database.counter, h.counts name hn, Database.counter]

lemma SameFigures.stats : a.stats = b.stats := by
  rw [Database.stats, h.rowsByView, h.counter (by decide), h.counter (by decide),
    h.counter (by decide), Database.stats]

end Reading

lemma Agrees.isCurrent {a b : Database} (h : a.Agrees b) (format : String) :
    a.isCurrent format = b.isCurrent format := by
  rw [Database.isCurrent, h.format, Database.isCurrent]

/-! ### Writing -/

lemma rows_insertBatches (d : Database) (batches : List Batch) :
    (d.insertBatches batches).rows =
      d.rows ++ (batches.flatMap Batch.items).map fun item => storedRow item.1 item.2 := by
  induction batches generalizing d with
  | nil => simp [insertBatches]
  | cons b batches ih =>
    have hstep : d.insertBatches (b :: batches) = (d.insert b.view b.rows).insertBatches batches :=
      rfl
    rw [hstep, ih, Database.insert, List.flatMap_cons, List.map_append, ← List.append_assoc,
      Batch.items, List.map_map]
    rfl

lemma holds_insertBatches {d : Database} (h : d.rows = []) (batches : List Batch) :
    (d.insertBatches batches).Holds (batches.flatMap Batch.items) := by
  rw [Holds, rows_insertBatches, h, List.nil_append]

lemma statistics_insertBatches (d : Database) (batches : List Batch) :
    (d.insertBatches batches).statistics = d.statistics := by
  induction batches generalizing d with
  | nil => rfl
  | cons b batches ih => exact ih (d.insert b.view b.rows)

/-- The stored rows of a view are those of its rows. -/
lemma filter_storedRows (items : List (View × Row)) (view : View) :
    ((items.map fun item => storedRow item.1 item.2).filter fun row => row.view == view.text) =
      (viewRows view items).map (storedRow view) := by
  induction items with
  | nil => rfl
  | cons item rest ih =>
    obtain ⟨other, row⟩ := item
    have hrest : viewRows view ((other, row) :: rest) =
        viewRows view [(other, row)] ++ viewRows view rest :=
      viewRows_append view [(other, row)] rest
    rw [List.map_cons, hrest, List.map_append, ← ih]
    by_cases heq : other = view
    · simp [heq, storedRow, viewRows]
    · have htext : other.text ≠ view.text := fun htext => heq (View.text_inj htext)
      simp [heq, htext, storedRow, viewRows]

lemma filter_storedRows_other (items : List (View × Row)) {name : String}
    (hn : ∀ view : View, view.text ≠ name) :
    ((items.map fun item => storedRow item.1 item.2).filter fun row => row.view == name) = [] := by
  refine List.filter_eq_nil_iff.mpr fun row hrow => ?_
  obtain ⟨item, -, rfl⟩ := List.mem_map.mp hrow
  simpa [storedRow] using hn item.1

/-- Batches with the same rows in every view add the same rows. -/
lemma SameRows.insertBatches {a b : Database} (h : a.SameRows b) {batches others : List Batch}
    (hv : ∀ view, viewRows view (batches.flatMap Batch.items) =
      viewRows view (others.flatMap Batch.items)) :
    (a.insertBatches batches).SameRows (b.insertBatches others) := by
  intro name
  rw [rows_insertBatches, rows_insertBatches, List.filter_append, List.filter_append, h]
  by_cases hname : ∃ view : View, view.text = name
  · obtain ⟨view, rfl⟩ := hname
    rw [filter_storedRows, filter_storedRows, hv]
  · have hn : ∀ view : View, view.text ≠ name := fun view hview => hname ⟨view, hview⟩
    rw [filter_storedRows_other _ hn, filter_storedRows_other _ hn]

lemma Agrees.insertBatches {a b : Database} (h : a.Agrees b) {batches others : List Batch}
    (hv : ∀ view, viewRows view (batches.flatMap Batch.items) =
      viewRows view (others.flatMap Batch.items)) :
    (a.insertBatches batches).Agrees (b.insertBatches others) := by
  refine ⟨⟨h.rows.insertBatches hv, fun name hname => ?_⟩, ?_⟩
  · rw [statistics_insertBatches, statistics_insertBatches]
    exact h.counts name hname
  · rw [statistics_insertBatches, statistics_insertBatches]
    exact h.format

lemma lookup_setStatistic (d : Database) (name text other : String) :
    (d.setStatistic name text).statistics.lookup other =
      if other = name then some text else d.statistics.lookup other := by
  simp only [setStatistic, List.lookup_cons]
  by_cases h : other = name
  · simp [h]
  · simp [h, beq_eq_false_iff_ne.mpr h, lookup_filter_ne h]

/-- Recording the counts covers up those of before. -/
lemma SameRows.recordStats {a b : Database} (h : a.SameRows b) (format other : String)
    (types members skipped : ℕ) :
    (a.recordStats format types members skipped).SameFigures
      (b.recordStats other types members skipped) := by
  refine ⟨h, fun name hname => ?_⟩
  simp only [countNames, List.mem_cons, List.not_mem_nil, or_false] at hname
  simp only [Database.recordStats, lookup_setStatistic]
  rcases hname with rfl | rfl | rfl <;> simp

lemma isCurrent_recordStats (d : Database) (format : String) (types members skipped : ℕ) :
    (d.recordStats format types members skipped).isCurrent format = true := by
  rw [isCurrent, Database.recordStats, lookup_setStatistic, if_pos rfl]
  exact beq_self_eq_true format

end Database

/-! ### On disk -/

namespace Disk

/-- What is put into a file does not matter to the tree. -/
lemma sameTree_contents (d : Disk) (path : Path) (content other : Content) :
    (d.put path content).SameTree (d.put path other) := by
  constructor
  · intro place
    rw [file?, file?, entryAt_content, entryAt_content]
    split_ifs <;> rfl
  · intro place
    rw [isDirectory, isDirectory, entryAt_content, entryAt_content]
    split_ifs <;> rfl

end Disk

namespace IndexStore

variable {s : IndexStore} {d : Disk}

/-- A database that has been put in place stands there, unless nothing there can be opened. -/
lemma state_put (s : IndexStore) (d : Disk) (lost : Parts) :
    (∀ database, s.state (s.putDatabase d (.database database lost)) = .closed) ∨
      ∃ number, ∀ database,
        s.state (s.putDatabase d (.database database lost)) = .ready ⟨number, database, lost⟩ := by
  have hentry (database : Database) :
      (s.putDatabase d (.database database lost)).entryAt s.databasePath =
        some (.file ⟨d.numberAt s.databasePath, .database database lost⟩) := by
    rw [putDatabase, Disk.entryAt_content, if_pos rfl]
  have htree (database : Database) := Disk.sameTree_contents d s.databasePath
    (.database .empty lost) (.database database lost)
  by_cases hopen : s.CanOpen (s.putDatabase d (.database .empty lost))
  · right
    refine ⟨d.numberAt s.databasePath, fun database => ?_⟩
    have hopen' : s.CanOpen (s.putDatabase d (.database database lost)) :=
      ⟨((htree database).directory _).trans hopen.1, hopen.2⟩
    exact state_of_file hopen' (hentry database)
  · left
    intro database
    have hopen' : ¬ s.CanOpen (s.putDatabase d (.database database lost)) := fun h =>
      hopen ⟨((htree database).directory _).symm.trans h.1, h.2⟩
    exact state_closed hopen'

/-- Whether a database that has been put in place can be read does not depend on its rows. -/
lemma openDatabase_put (s : IndexStore) (d : Disk) (lost parts : Parts) :
    ∃ result : Except Failure ℕ, ∀ database,
      s.openDatabase (s.putDatabase d (.database database lost)) parts =
        result.map fun number => ⟨number, database, lost⟩ := by
  have hpresent (database : Database) : s.isPresent (s.putDatabase d (.database database lost)) =
      s.isPresent (s.putDatabase d (.database .empty lost)) :=
    (Disk.sameTree_contents d s.databasePath (.database .empty lost)
      (.database database lost)).reaches _
  by_cases hp : s.isPresent (s.putDatabase d (.database .empty lost)) = true
  · rcases state_put s d lost with hstate | ⟨number, hstate⟩
    · refine ⟨during "Failed to open index.db"
        (failWith (.database (.cannotOpen s.shownDatabase))), fun database => ?_⟩
      simp only [openDatabase, hpresent, hp, hstate]
      rfl
    · by_cases hmeet : lost.meet parts = true
      · refine ⟨failWith (.database .malformed), fun database => ?_⟩
        simp only [openDatabase, hpresent, hp, hstate, hmeet]
        rfl
      · refine ⟨.ok number, fun database => ?_⟩
        simp only [openDatabase, hpresent, hp, hstate, hmeet]
        rfl
  · refine ⟨failWith .noIndex, fun database => ?_⟩
    simp only [openDatabase, hpresent, hp]
    rfl

/-- Two indexes answer alike whatever is read from them. -/
structure AnswersAlike (s : IndexStore) (d : Disk) (s' : IndexStore) (d' : Disk) : Prop where
  scan : ∀ view scan, s.scan d view scan = s'.scan d' view scan
  stats : s.stats d = s'.stats d'
  isCurrent : s.isCurrent d = s'.isCurrent d'

lemma AnswersAlike.refl (s : IndexStore) (d : Disk) : s.AnswersAlike d s d :=
  ⟨fun _ _ => rfl, rfl, rfl⟩

/-- Databases that agree answer alike in each other's place. -/
lemma answersAlike_put {a b : Database} (h : a.Agrees b) (s : IndexStore) (d : Disk)
    (lost : Parts) :
    s.AnswersAlike (s.putDatabase d (.database a lost)) s
      (s.putDatabase d (.database b lost)) := by
  have hpresent : s.isPresent (s.putDatabase d (.database a lost)) =
      s.isPresent (s.putDatabase d (.database b lost)) :=
    (Disk.sameTree_contents d s.databasePath (.database b lost) (.database a lost)).reaches _
  constructor
  · intro view scan
    obtain ⟨result, hresult⟩ := openDatabase_put s d lost .justRows
    rw [IndexStore.scan, hresult a, IndexStore.scan, hresult b]
    cases result with
    | error failure => rfl
    | ok number => exact h.scan view scan
  · obtain ⟨result, hresult⟩ := openDatabase_put s d lost (.union .justRows .justStatistics)
    rw [IndexStore.stats, hpresent, hresult a, IndexStore.stats, hresult b]
    cases result with
    | error failure => rfl
    | ok number => simp only [Except.map, h.stats]
  · obtain ⟨result, hresult⟩ := openDatabase_put s d lost .justStatistics
    rw [IndexStore.isCurrent, hpresent, hresult a, IndexStore.isCurrent, hresult b]
    cases result with
    | error failure => rfl
    | ok number => simp only [Except.map, h.isCurrent]

end IndexStore

end SignatureSearch
