import Mathlib
import SignatureSearch.Proofs.JsonRoundTrip
import SignatureSearch.Proofs.MemoryScan
import SignatureSearch.Store.Database

/-! Rows in a database. Stored rows are found by their views and encoded keys and read back from
their texts, so a scan of a database answers for the rows that were inserted. -/
namespace SignatureSearch

/-! ### Sorting and selecting -/

section Sorting

variable {α : Type}

lemma append_unique {p : α → Bool} {l₁ l₂ m₁ m₂ : List α} (hl₁ : ∀ a ∈ l₁, p a = true)
    (hl₂ : ∀ a ∈ l₂, p a = false) (hm₁ : ∀ a ∈ m₁, p a = true) (hm₂ : ∀ a ∈ m₂, p a = false)
    (h : l₁ ++ l₂ = m₁ ++ m₂) : l₁ = m₁ ∧ l₂ = m₂ := by
  have hfilter := congrArg (List.filter p) h
  rw [List.filter_append, List.filter_append, List.filter_eq_self.mpr hl₁,
    List.filter_eq_self.mpr hm₁, List.filter_eq_nil_iff.mpr (by simpa using hl₂),
    List.filter_eq_nil_iff.mpr (by simpa using hm₂), List.append_nil, List.append_nil] at hfilter
  subst hfilter
  exact ⟨rfl, List.append_cancel_left h⟩

/-- Sorting keeps those of one key in order, so it does not matter whether one selects before. -/
lemma filter_mergeSort {le : α → α → Bool} (trans : ∀ a b c, le a b → le b c → le a c)
    (total : ∀ a b, le a b || le b a) (p : α → Bool) (l : List α) :
    (l.mergeSort le).filter p = (l.filter p).mergeSort le := by
  induction l with
  | nil => simp
  | cons a l ih =>
    obtain ⟨lower, upper, hsort, hrest, hlower⟩ := List.mergeSort_cons trans total a l
    have hupper : ∀ b ∈ upper, le a b = true := by
      have hsorted := List.pairwise_mergeSort trans total (a :: l)
      rw [hsort, List.pairwise_append, List.pairwise_cons] at hsorted
      exact hsorted.2.1.1
    have hparts : lower.filter p ++ upper.filter p = (l.filter p).mergeSort le := by
      rw [← List.filter_append, ← hrest, ih]
    rw [hsort, List.filter_append]
    cases hp : p a with
    | false => simp [hp, hparts]
    | true =>
      obtain ⟨lower', upper', hsort', hrest', hlower'⟩ :=
        List.mergeSort_cons trans total a (l.filter p)
      have hupper' : ∀ b ∈ upper', le a b = true := by
        have hsorted := List.pairwise_mergeSort trans total (a :: l.filter p)
        rw [hsort', List.pairwise_append, List.pairwise_cons] at hsorted
        exact hsorted.2.1.1
      obtain ⟨h₁, h₂⟩ := append_unique (p := fun b => !le a b)
        (fun b hb => hlower b (List.mem_filter.mp hb).1)
        (fun b hb => by simp [hupper b (List.mem_filter.mp hb).1]) hlower'
        (fun b hb => by simp [hupper' b hb]) (hparts.trans hrest')
      rw [List.filter_cons_of_pos hp, List.filter_cons_of_pos hp, h₁, h₂, hsort']

end Sorting

/-! ### Stored rows -/

structure Row.Readable (row : Row) : Prop where
  key : row.key.Readable
  value : row.value.Readable

lemma View.text_inj {a b : View} (h : a.text = b.text) : a = b := by
  cases a <;> cases b <;> first | rfl | exact absurd h (by decide)

namespace Database

lemma decodeRow_storedRow {row : Row} (h : row.Readable) (view : View) :
    decodeRow (storedRow view row) = .ok row := by
  rw [decodeRow, storedRow]
  simp only [Json.read?_text h.key, Json.read?_text h.value]

lemma mapM_decodeRow {rows : List Row} (h : ∀ row ∈ rows, row.Readable) (view : View) :
    (rows.map (storedRow view)).mapM decodeRow = .ok rows := by
  induction rows with
  | nil => rfl
  | cons row rows ih =>
    obtain ⟨hrow, hrows⟩ := List.forall_mem_cons.mp h
    rw [List.map_cons, List.mapM_cons, decodeRow_storedRow hrow, ih hrows]
    rfl

/-- The database holds exactly these rows, inserted in this order. -/
def Holds (d : Database) (items : List (View × Row)) : Prop :=
  d.rows = items.map fun item => storedRow item.1 item.2

variable {d : Database} {items : List (View × Row)}

lemma Holds.insert (h : d.Holds items) (b : Batch) :
    (d.insert b.view b.rows).Holds (items ++ b.items) := by
  rw [Holds, Database.insert, h, Batch.items, List.map_append, List.map_map]
  rfl

/-- The stored rows of a view in a range. -/
lemma Holds.filter_rows (h : d.Holds items) (view : View) (scan : Scan) :
    (d.rows.filter fun row =>
      row.view == view.text && Scan.isBetween scan.lower.encode scan.upper.encode row.key) =
      ((viewRows view items).filter fun row => scan.covers row.key.encode).map
        (storedRow view) := by
  rw [h, List.filter_map, viewRows, List.filter_map, List.filter_filter, List.map_map]
  have hview : ∀ item : View × Row, (item.1.text == view.text) = (item.1 == view) := fun item =>
    Bool.eq_iff_iff.mpr (by simpa using ⟨View.text_inj, congrArg View.text⟩)
  rw [List.filter_congr (fun item _ => by
    rw [Function.comp_apply, storedRow, hview, Bool.and_comm])]
  refine List.map_congr_left fun item hitem => ?_
  have hitem := (List.mem_filter.mp hitem).2
  simp only [Bool.and_eq_true, beq_iff_eq] at hitem
  rw [Function.comp_apply, hitem.2]

/-- Sorting the stored rows of a range is sorting the rows. -/
lemma mergeSort_storedRows (view : View) (scan : Scan) (rows : List Row) :
    ((rows.filter fun row => scan.covers row.key.encode).map (storedRow view)).mergeSort
        (fun a b => compare a.key b.key != .gt) =
      ((rows.mergeSort fun a b => a.key.collatesUpTo b.key).filter fun row =>
        scan.covers row.key.encode).map (storedRow view) := by
  have trans := upTo_trans (compareOn fun row : Row => row.key.encode)
  have total := upTo_total (compareOn fun row : Row => row.key.encode)
  have hsort := filter_mergeSort trans total (fun row => scan.covers row.key.encode) rows
  have hmap := List.map_mergeSort (f := storedRow view)
    (r := fun a b => compareOn (fun row : Row => row.key.encode) a b != .gt)
    (s := fun a b => compare a.key b.key != .gt)
    (l := rows.filter fun row => scan.covers row.key.encode) fun a _ b _ => rfl
  rw [← hmap, ← hsort]
  rfl

/-- The rows that a scan selects are those it must find, as far as they can be counted. -/
lemma Holds.select_take (h : d.Holds items) (view : View) (scan : Scan) :
    d.select view scan =
      ((scan.answer (viewRows view items)).take maxRows).map (storedRow view) := by
  simp only [Database.select]
  rw [h.filter_rows, mergeSort_storedRows, ← List.map_take, Scan.answer, List.take_take,
    Nat.min_comm]

lemma Holds.select (h : d.Holds items) (view : View) (scan : Scan)
    (hlimit : min scan.limit (viewRows view items).length ≤ maxRows) :
    d.select view scan = (scan.answer (viewRows view items)).map (storedRow view) := by
  have hfound := List.length_filter_le (fun row : Row => scan.covers row.key.encode)
    ((viewRows view items).mergeSort fun a b => a.key.collatesUpTo b.key)
  rw [List.length_mergeSort] at hfound
  rw [h.select_take, List.take_of_length_le]
  rw [Scan.answer, List.length_take]
  omega

theorem Holds.scan (h : d.Holds items) (view : View) (scan : Scan)
    (hread : ∀ row ∈ viewRows view items, row.Readable)
    (hlimit : min scan.limit (viewRows view items).length ≤ maxRows) :
    d.scan view scan = .ok (scan.answer (viewRows view items)) := by
  rw [Database.scan, h.select view scan hlimit]
  refine mapM_decodeRow (fun row hrow => hread row ?_) view
  exact List.mem_mergeSort.mp (List.mem_filter.mp (List.mem_of_mem_take hrow)).1

end Database

end SignatureSearch
