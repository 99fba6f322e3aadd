import Mathlib
import SignatureSearch.Proofs.SessionHistory
import SignatureSearch.Proofs.StoreCreation

/-! Insertions on both backends. Whatever batches are inserted, in transactions that are committed,
dropped or left open and in insertions of their own, a scan of the index on disk answers like one of
a store in memory that holds the committed batches. -/
namespace SignatureSearch

structure Insertions where
  committed : List Batch
  /-- Those of the open transaction. -/
  pending : Option (List Batch)

namespace Insertions

def none : Insertions := ⟨[], .none⟩

def after (i : Insertions) : Session.Operation → Insertions
  | .begin => ⟨i.committed, some []⟩
  | .commit => ⟨i.committed ++ i.pending.getD [], .none⟩
  | .rollback => ⟨i.committed, .none⟩
  | .insert view rows =>
    match i.pending with
    | .none => ⟨i.committed ++ [⟨view, rows⟩], .none⟩
    | some batches => ⟨i.committed, some (batches ++ [⟨view, rows⟩])⟩
  | _ => i

end Insertions

/-- The batches that a run commits. -/
def committedBatches (operations : List Session.Operation) : List Batch :=
  (operations.foldl Insertions.after .none).committed

/-- The operation changes rows only by inserting some. -/
def Session.Operation.OnlyInserts (operation : Session.Operation) : Prop :=
  match operation with
  | .write .. | .clearRows => False
  | _ => operation.IsTransactional

def batchItems (batches : List Batch) : List (View × Row) := batches.flatMap Batch.items

/-- The rows of a view that a run commits, in the order of their insertion. -/
def committedRows (view : View) (operations : List Session.Operation) : List Row :=
  viewRows view (batchItems (committedBatches operations))

lemma Database.Holds.insertBatch {d : Database} {batches : List Batch}
    (h : d.Holds (batchItems batches)) (b : Batch) :
    (d.insert b.view b.rows).Holds (batchItems (batches ++ [b])) := by
  have hitems : batchItems (batches ++ [b]) = batchItems batches ++ b.items := by simp [batchItems]
  rw [hitems]
  exact h.insert b

structure History.Holds (h : History) (i : Insertions) : Prop where
  committed : h.committed.Holds (batchItems i.committed)
  pending : Option.Rel (fun copy batches => copy.Holds (batchItems (i.committed ++ batches)))
    h.pending i.pending

namespace History

variable {h : History} {i : Insertions} {operation : Session.Operation}

lemma Holds.after (hi : h.Holds i) (ho : operation.OnlyInserts) (format : String) :
    (h.after format operation).Holds (i.after operation) := by
  obtain ⟨committed, pending⟩ := h
  obtain ⟨batches, inserted⟩ := i
  obtain ⟨hcommitted, hpending⟩ := hi
  cases operation with
  | begin => exact ⟨hcommitted, .some (by simpa [Insertions.after] using hcommitted)⟩
  | commit =>
    cases hpending with
    | none => exact ⟨by simpa [History.after, Insertions.after] using hcommitted, .none⟩
    | some hcopy => exact ⟨hcopy, .none⟩
  | rollback => exact ⟨hcommitted, .none⟩
  | insert view rows =>
    cases hpending with
    | none => exact ⟨hcommitted.insertBatch ⟨view, rows⟩, .none⟩
    | some hcopy =>
      refine ⟨hcommitted, .some ?_⟩
      have hinsert := hcopy.insertBatch ⟨view, rows⟩
      rwa [List.append_assoc] at hinsert
  | recordStats =>
    cases hpending with
    | none => exact ⟨hcommitted, .none⟩
    | some hcopy => exact ⟨hcommitted, .some hcopy⟩
  | write | clearRows => exact ho.elim
  | _ => exact ⟨hcommitted, hpending⟩

lemma Holds.afterAll (hi : h.Holds i) {operations : List Session.Operation}
    (ho : ∀ operation ∈ operations, operation.OnlyInserts) (format : String) :
    (operations.foldl (History.after format) h).Holds (operations.foldl Insertions.after i) := by
  induction operations generalizing h i with
  | nil => exact hi
  | cons operation rest ih =>
    obtain ⟨hoperation, hrest⟩ := List.forall_mem_cons.mp ho
    exact ih (hi.after hoperation format) hrest

end History

lemma Session.Operation.OnlyInserts.isTransactional {operation : Session.Operation}
    (h : operation.OnlyInserts) : operation.IsTransactional := by
  cases operation with
  | write | clearRows => exact h.elim
  | _ => exact h

/-- After the same insertions an index in memory and one on disk, which was empty before, answer
every scan alike: with the rows of the view in the order of their keys, those of one key in the
order of their insertion, from the range and up to the limit. Rows on disk are numbered by 63 bits,
so no more can be asked for. -/
theorem scan_backends {store : IndexStore} {disk : Disk} {number : ℕ} {database : Database}
    (hplace : store.InPlace disk ⟨number, database, .none⟩) (hempty : database.rows = [])
    {operations : List Session.Operation} (ho : ∀ operation ∈ operations, operation.OnlyInserts)
    (view : View) (scan : Scan) (hread : ∀ row ∈ committedRows view operations, row.Readable)
    (hcount : min scan.limit (committedRows view operations).length ≤ Database.maxRows) :
    (MemoryStore.empty.insertBatches (committedBatches operations)).scan view scan =
        scan.answer (committedRows view operations) ∧
      store.scan ((Session.start store disk).run operations).2.disk view scan =
        .ok (scan.answer (committedRows view operations)) := by
  have hmemory := MemoryStore.empty_holds.insertBatches (committedBatches operations)
  have hsession := (Session.start_holds hplace).run operations fun operation hoperation =>
    (ho operation hoperation).isTransactional
  obtain ⟨-, number', hplace', -⟩ := hsession
  have hstart : (History.mk database none).Holds .none := ⟨hempty, .none⟩
  refine ⟨hmemory.scan view scan, ?_⟩
  rw [hplace'.scan]
  exact (hstart.afterAll ho store.format).committed.scan view scan hread hcount

def sampleDisk : Disk := ((IndexStore.under "r").init .empty none).1

/-- Two batches are committed, a third one is dropped. -/
def sampleOperations : List Session.Operation :=
  [.begin, .insert .byName [⟨.string "b", .null⟩, ⟨.string "a", .bool true⟩], .commit,
    .insert .byName [⟨.string "a", .bool false⟩],
    .begin, .insert .byName [⟨.string "a", .null⟩], .rollback]

theorem scan_backends_sample :
    (IndexStore.under "r").scan
        ((Session.start (IndexStore.under "r") sampleDisk).run sampleOperations).2.disk
        .byName (.between (.string "a") (.string "b") 2) =
      .ok [⟨.string "a", .bool true⟩, ⟨.string "a", .bool false⟩] := by
  have hinit : (IndexStore.under "r").init .empty none = (sampleDisk, .ok ()) :=
    Prod.ext rfl (by decide +kernel)
  have hplace : (IndexStore.under "r").InPlace sampleDisk ⟨0, .empty, .none⟩ :=
    IndexStore.inPlace_of_init (by decide +kernel) hinit (by decide +kernel) (by decide +kernel) rfl
  have hinserts : ∀ operation ∈ sampleOperations, operation.OnlyInserts := by
    simp [sampleOperations, Session.Operation.OnlyInserts, Session.Operation.IsTransactional]
  have hread : ∀ row ∈ committedRows .byName sampleOperations, row.Readable := by
    intro row hrow
    fin_cases hrow <;> exact ⟨⟨trivial, by decide, trivial⟩, ⟨trivial, by decide, trivial⟩⟩
  have hscan := (scan_backends hplace rfl hinserts .byName
    (.between (.string "a") (.string "b") 2) hread (by decide)).2
  have hanswer : Scan.answer (.between (.string "a") (.string "b") 2)
      (committedRows .byName sampleOperations) =
        [⟨.string "a", .bool true⟩, ⟨.string "a", .bool false⟩] := by cbv
  rw [hscan, hanswer]

end SignatureSearch
