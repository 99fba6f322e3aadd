import Mathlib
import SignatureSearch.Proofs.Batches
import SignatureSearch.Search

/-! Rows in memory. The entries of a store are the rows inserted so far, numbered and kept in order.
A scan of a view answers like a stable sort of that view's rows by key, from which the rows in the
range are taken up to the limit. -/
namespace SignatureSearch

/-- The rows that a scan of these rows must find: in the order of keys, rows of one key as given. -/
def Scan.answer (s : Scan) (rows : List Row) : List Row :=
  ((rows.mergeSort fun a b => a.key.collatesUpTo b.key).filter fun row =>
    s.covers row.key.encode).take s.limit

/-! ### Orders -/

section Orders

variable {α : Type} (cmp : α → α → Ordering) [Std.TransCmp cmp]

lemma upTo_trans (a b c : α) (hab : (cmp a b != .gt) = true) (hbc : (cmp b c != .gt) = true) :
    (cmp a c != .gt) = true := by
  rw [bne_iff_ne] at *
  exact Ordering.isLE_iff_ne_gt.mp (Std.TransCmp.isLE_trans (Ordering.isLE_iff_ne_gt.mpr hab)
    (Ordering.isLE_iff_ne_gt.mpr hbc))

lemma upTo_total (a b : α) : ((cmp a b != .gt) || (cmp b a != .gt)) = true := by
  have h : cmp a b = (cmp b a).swap := Std.OrientedCmp.eq_swap
  cases hc : cmp b a <;> simp_all

end Orders

namespace MemoryEntry

instance : Std.TransCmp MemoryEntry.order :=
  inferInstanceAs (Std.TransCmp (compareLex (compareOn fun e : MemoryEntry => e.view.rank)
    (compareLex (compareOn MemoryEntry.key) (compareOn MemoryEntry.sequence))))

lemma standsUpTo_iff {a b : MemoryEntry} (hv : a.view = b.view) :
    a.standsUpTo b = true ↔ compare a.key b.key = .lt ∨
      compare a.key b.key = .eq ∧ a.sequence ≤ b.sequence := by
  unfold standsUpTo order
  rw [hv, Std.compare_self, Ordering.eq_then]
  cases compare a.key b.key <;> simp [Nat.compare_ne_gt]

lemma sequence_eq {a b : MemoryEntry} (hab : a.standsUpTo b = true) (hba : b.standsUpTo a = true) :
    a.sequence = b.sequence := by
  have h : a.order b = (b.order a).swap := Std.OrientedCmp.eq_swap
  have heq : a.order b = .eq := by
    unfold standsUpTo at hab hba
    cases hc : b.order a <;> simp_all
  simp only [order, Ordering.then_eq_eq] at heq
  exact Nat.compare_eq_eq.mp heq.2.2

def ofItem (item : (View × Row) × ℕ) : MemoryEntry :=
  ⟨item.1.1, item.1.2.key.encode, item.2 + 1, item.1.2⟩

end MemoryEntry

def numbered (items : List (View × Row)) : List MemoryEntry := items.zipIdx.map MemoryEntry.ofItem

lemma newEntries_eq (view : View) (inserted : ℕ) (rows : List Row) :
    MemoryStore.newEntries view inserted rows =
      ((rows.map fun row => (view, row)).zipIdx inserted).map MemoryEntry.ofItem := by
  induction rows generalizing inserted with
  | nil => rfl
  | cons row rows ih =>
    rw [MemoryStore.newEntries, ih]
    rfl

lemma numbered_append (items : List (View × Row)) (view : View) (rows : List Row) :
    numbered (items ++ rows.map fun row => (view, row)) =
      numbered items ++ MemoryStore.newEntries view items.length rows := by
  rw [newEntries_eq, numbered, numbered, List.zipIdx_append, List.map_append, Nat.zero_add]

lemma key_of_numbered {items : List (View × Row)} {e : MemoryEntry} (h : e ∈ numbered items) :
    e.key = e.row.key.encode := by
  obtain ⟨item, -, rfl⟩ := List.mem_map.mp h
  rfl

lemma numbered_pairwise (items : List (View × Row)) :
    (numbered items).Pairwise fun a b => a.sequence < b.sequence := by
  have h : ((numbered items).map MemoryEntry.sequence) = List.range' 1 items.length := by
    simp only [numbered, List.map_map]
    rw [← List.zipIdx_map_snd 1 items, List.zipIdx_succ]
    simp [Function.comp_def, MemoryEntry.ofItem]
  rw [← List.pairwise_map (f := MemoryEntry.sequence) (R := (· < ·)), h]
  exact List.pairwise_lt_range'

lemma rows_of_numbered (view : View) (items : List (View × Row)) :
    ((numbered items).filter fun e => e.view == view).map MemoryEntry.row =
      viewRows view items := by
  have h : viewRows view (items.zipIdx.map Prod.fst) = viewRows view items := by
    rw [List.zipIdx_map_fst]
  rw [← h, viewRows, numbered, List.filter_map, List.filter_map, List.map_map, List.map_map]
  rfl

/-- Sorting by key alone keeps entries of one key as they are numbered. -/
lemma mergeSort_key_pairwise (view : View) (entries : List MemoryEntry)
    (hv : ∀ e ∈ entries, e.view = view)
    (hn : entries.Pairwise fun a b => a.sequence < b.sequence) :
    (entries.mergeSort fun a b => compare a.key b.key != .gt).Pairwise fun a b =>
      a.standsUpTo b = true := by
  have trans := upTo_trans (compareOn MemoryEntry.key)
  have total := upTo_total (compareOn MemoryEntry.key)
  induction entries with
  | nil => simp
  | cons e rest ih =>
    obtain ⟨lower, upper, hsort, hrest, hlower⟩ := List.mergeSort_cons trans total e rest
    have hsorted := List.pairwise_mergeSort trans total (e :: rest)
    have ih := ih (fun x hx => hv x (by simp [hx])) hn.of_cons
    simp only [compareOn] at hsort hrest hlower hsorted
    have hmem (x : MemoryEntry) (hx : x ∈ lower ++ upper) : x ∈ rest := by
      rw [← hrest] at hx
      exact List.mem_mergeSort.mp hx
    rw [hsort] at hsorted ⊢
    rw [hrest] at ih
    rw [List.pairwise_append, List.pairwise_cons] at hsorted
    rw [List.pairwise_append] at ih
    refine List.pairwise_append.mpr ⟨ih.1, List.pairwise_cons.mpr ⟨fun x hx => ?_, ih.2.1⟩, ?_⟩
    · have hx' := hmem x (by simp [hx])
      have hkey := hsorted.2.1.1 x hx
      have hlt := (List.pairwise_cons.mp hn).1 x hx'
      rw [MemoryEntry.standsUpTo_iff (by rw [hv e (by simp), hv x (by simp [hx'])])]
      cases hc : compare e.key x.key
      · exact .inl rfl
      · exact .inr ⟨rfl, hlt.le⟩
      · simp [hc] at hkey
    · intro x hx y hy
      rcases List.mem_cons.mp hy with rfl | hy
      · have hx' := hmem x (by simp [hx])
        have hgt := hlower x hx
        rw [MemoryEntry.standsUpTo_iff (by rw [hv y (by simp), hv x (by simp [hx'])])]
        exact .inl (Std.OrientedCmp.lt_of_gt (by simpa using hgt))
      · exact ih.2.2 x hx y hy

namespace MemoryStore

/-- The store holds exactly these rows, inserted in this order. -/
structure Holds (s : MemoryStore) (items : List (View × Row)) : Prop where
  entries : s.entries.Perm (numbered items)
  sorted : s.entries.Pairwise fun a b => a.standsUpTo b = true
  inserted : s.inserted = items.length

lemma empty_holds : empty.Holds [] := ⟨.rfl, .nil, rfl⟩

lemma Holds.insert {s : MemoryStore} {items : List (View × Row)} (h : s.Holds items) (view : View)
    (rows : List Row) : (s.insert view rows).Holds (items ++ rows.map fun row => (view, row)) := by
  have trans := upTo_trans MemoryEntry.order
  have total := upTo_total MemoryEntry.order
  refine ⟨?_, ?_, by simp [MemoryStore.insert, h.inserted]⟩
  · rw [numbered_append, ← h.inserted]
    refine List.Perm.trans (List.merge_perm_append _) (h.entries.append (List.mergeSort_perm _ _))
  · exact List.pairwise_merge trans total _ _ h.sorted (List.pairwise_mergeSort trans total _)

lemma Holds.insertBatches {s : MemoryStore} {items : List (View × Row)} (h : s.Holds items)
    (batches : List Batch) :
    (s.insertBatches batches).Holds (items ++ batches.flatMap Batch.items) := by
  induction batches generalizing s items with
  | nil => simpa [MemoryStore.insertBatches] using h
  | cons b batches ih =>
    rw [List.flatMap_cons, ← List.append_assoc]
    exact ih (h.insert b.view b.rows)

/-- The entries of a view, in order. -/
lemma Holds.view_entries {s : MemoryStore} {items : List (View × Row)} (h : s.Holds items)
    (view : View) :
    (s.entries.filter fun e => e.view == view) =
      ((numbered items).filter fun e => e.view == view).mergeSort fun a b =>
        compare a.key b.key != .gt := by
  have hn := numbered_pairwise items
  refine List.Perm.eq_of_pairwise (fun a b ha hb hab hba => ?_) (h.sorted.filter _)
    (mergeSort_key_pairwise view _ (fun e he => ?_) (hn.filter _))
    ((h.entries.filter _).trans (List.mergeSort_perm _ _).symm)
  · have ha' := h.entries.mem_iff.mp (List.mem_filter.mp ha).1
    have hb' := (List.mem_filter.mp (List.mem_mergeSort.mp hb)).1
    have hs := MemoryEntry.sequence_eq hab hba
    have hnodup : ((numbered items).map MemoryEntry.sequence).Nodup :=
      List.pairwise_map.mpr (hn.imp Nat.ne_of_lt)
    exact List.inj_on_of_nodup_map hnodup ha' hb' hs
  · simpa using (List.mem_filter.mp he).2

lemma Holds.view_rows {s : MemoryStore} {items : List (View × Row)} (h : s.Holds items)
    (view : View) :
    (s.entries.filter fun e => e.view == view).map MemoryEntry.row =
      (viewRows view items).mergeSort fun a b => a.key.collatesUpTo b.key := by
  rw [h.view_entries, ← rows_of_numbered]
  refine List.map_mergeSort fun a ha b hb => ?_
  rw [key_of_numbered (List.mem_filter.mp ha).1, key_of_numbered (List.mem_filter.mp hb).1]
  rfl

theorem Holds.scan {s : MemoryStore} {items : List (View × Row)} (h : s.Holds items) (view : View)
    (scan : Scan) : s.scan view scan = scan.answer (viewRows view items) := by
  rw [Scan.answer, ← h.view_rows, List.filter_map, ← List.map_take, List.filter_filter]
  simp only [MemoryStore.scan]
  refine congrArg (fun found => (found.take scan.limit).map MemoryEntry.row)
    (List.filter_congr fun e he => ?_)
  have hkey := key_of_numbered (h.entries.mem_iff.mp he)
  simp only [Function.comp_apply, Scan.covers, ← hkey, Bool.and_comm]

/-- A scan of written documents answers for the rows that they contribute to the view. -/
theorem scan_write (documents : List Json) (batchSize : ℕ) (view : View) (scan : Scan) :
    (empty.write documents batchSize).1.scan view scan =
      scan.answer (documentRows view documents) := by
  rw [← Build.viewRows_allBatches documents batchSize view]
  exact (empty_holds.insertBatches _).scan view scan

end MemoryStore

end SignatureSearch
