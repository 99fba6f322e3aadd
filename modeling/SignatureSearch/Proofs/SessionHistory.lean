import Mathlib
import SignatureSearch.Proofs.StoreInPlace
import SignatureSearch.Store.Session

/-! Transactions. A session on an index in its place does to the disk what the history of its
operations says: a transaction works on a copy of the committed database, which takes the place of
that database when the transaction is committed and is dropped otherwise. -/
namespace SignatureSearch

structure History where
  committed : Database
  /-- The copy of the open transaction. -/
  pending : Option Database

namespace History

def write (h : History) (f : Database → Database) : History :=
  match h.pending with
  | none => ⟨f h.committed, none⟩
  | some copy => ⟨h.committed, some (f copy)⟩

def after (format : String) (h : History) : Session.Operation → History
  | .begin => ⟨h.committed, some h.committed⟩
  | .commit => ⟨h.pending.getD h.committed, none⟩
  | .rollback => ⟨h.committed, none⟩
  | .insert view rows => h.write fun d => d.insert view rows
  | .write (.ok documents) batchSize =>
    h.write fun d => d.insertBatches (Build.ofDocuments documents batchSize).allBatches
  | .clearRows => h.write Database.clearRows
  | .recordStats types members skipped =>
    h.write fun d => d.recordStats format types members skipped
  | _ => h

end History

/-- The operation reads, or writes in transactions. -/
def Session.Operation.IsTransactional : Session.Operation → Prop
  | .clear | .rebuild .. | .writeFile .. | .setStatistic .. | .insertRaw .. => False
  | _ => True

namespace Writer

structure Holds (w : Writer) (file : ℕ) (database : Database) : Prop where
  file : w.file = file
  database : w.database = database
  whole : w.lost = .none
  sound : w.hasFailed = false

variable {w : Writer} {file : ℕ} {database : Database}

/-- A sound transaction on a whole file in its place can change anything. -/
lemma Holds.refusal? (h : w.Holds file database) (parts : Parts) :
    w.refusal? parts true = none := by
  have hmeet : w.lost.meet parts = false := by
    rw [h.whole]
    rfl
  simp [Writer.refusal?, h.sound, hmeet]

/-- Every transaction can do this, and it does so to its copy. -/
def Writes (f : Writer → Except Failure (Writer × Session.Answer)) (g : Database → Database) :
    Prop :=
  ∀ {w file database}, Holds w file database →
    ∃ w' answer, f w = .ok (w', answer) ∧ w'.Holds file (g database)

lemma Holds.insert (h : w.Holds file database) (view : View) (rows : List Row) :
    (w.insert view rows).Holds file (database.insert view rows) :=
  ⟨h.file, congrArg (·.insert view rows) h.database, h.whole, h.sound⟩

lemma Holds.insertBatches (h : w.Holds file database) (batches : List Batch) :
    (w.insertBatches batches).Holds file (database.insertBatches batches) := by
  induction batches generalizing w database with
  | nil => exact h
  | cons b batches ih => exact ih (h.insert b.view b.rows)

lemma Holds.attempt (h : w.Holds file database)
    {f : Writer → Except Failure (Writer × Session.Answer)} {g : Database → Database}
    (hf : Writes f g) :
    ∃ w' answer, Session.attempt f w true = (w', .ok answer) ∧ w'.Holds file (g database) := by
  have hunmarked : w.unmarked.Holds file database := ⟨h.file, h.database, h.whole, h.sound⟩
  obtain ⟨w', answer, hw', hholds⟩ := hf hunmarked
  refine ⟨{ w' with changed := w.changed.union w'.changed }, answer, ?_, hholds.file,
    hholds.database, hholds.whole, hholds.sound⟩
  rw [Session.attempt, hw']
  simp only [advance, h.refusal?]

end Writer

lemma IndexStore.InPlace.commit {s : IndexStore} {d : Disk} {file : DatabaseFile} {w : Writer}
    {database : Database} (h : s.InPlace d file) (hw : w.Holds file.number database) :
    s.commit d w = .ok (s.putDatabase d (.ofDatabase database)) := by
  have hcommitted : w.committed? (s.fileOf? d w) = .ok (some (.ofDatabase database)) := by
    rw [h.fileOf? hw.file]
    simp [Writer.committed?, hw.sound, Writer.contentOver, hw.whole, hw.database,
      Content.ofDatabase]
  rw [IndexStore.commit, hcommitted]

namespace Session

/-- Disk and open transaction hold what the history says. -/
def Holds (s : Session) (store : IndexStore) (h : History) : Prop :=
  s.store = store ∧ ∃ number, store.InPlace s.disk ⟨number, h.committed, .none⟩ ∧
    Option.Rel (fun w copy => w.Holds number copy) s.writer h.pending

lemma start_holds {store : IndexStore} {disk : Disk} {number : ℕ} {database : Database}
    (h : store.InPlace disk ⟨number, database, .none⟩) :
    (start store disk).Holds store ⟨database, none⟩ := ⟨rfl, number, h, .none⟩

variable {s : Session} {store : IndexStore} {h : History}

lemma initThen_inPlace {file : DatabaseFile} (hplace : s.store.InPlace s.disk file)
    (f : Session → Answer × Session) : s.initThen f = f s := by
  rw [initThen, hplace.init]

lemma Holds.begin (hs : s.Holds store h) : s.begin.2.Holds store (h.after store.format .begin) := by
  obtain ⟨rfl, number, hplace, -⟩ := hs
  have hplace' : (Session.mk s.store s.disk none).store.InPlace s.disk _ := hplace
  rw [Session.begin, initThen_inPlace hplace', hplace.openWriter]
  exact ⟨rfl, number, hplace, .some ⟨rfl, rfl, rfl, rfl⟩⟩

lemma Holds.commit (hs : s.Holds store h) :
    s.commit.2.Holds store (h.after store.format .commit) := by
  obtain ⟨store', disk, writer⟩ := s
  obtain ⟨committed, pending⟩ := h
  obtain ⟨hstore, number, hplace, hwriter⟩ := hs
  obtain rfl : store' = store := hstore
  cases hwriter with
  | none => exact ⟨rfl, number, hplace, .none⟩
  | some hw =>
    rw [Session.commit]
    simp only [hplace.commit hw]
    exact ⟨rfl, number, hplace.put _, .none⟩

lemma Holds.withWriter (hs : s.Holds store h)
    {f : Writer → Except Failure (Writer × Answer)} {g : Database → Database}
    (hf : Writer.Writes f g) : (s.withWriter f).2.Holds store (h.write g) := by
  obtain ⟨store', disk, writer⟩ := s
  obtain ⟨committed, pending⟩ := h
  obtain ⟨hstore, number, hplace, hwriter⟩ := hs
  obtain rfl : store' = store := hstore
  cases hwriter with
  | none =>
    have hplace' : (Session.mk store' disk none).store.InPlace disk _ := hplace
    have hstart : (Writer.start ⟨number, committed, .none⟩).Holds number committed :=
      ⟨rfl, rfl, rfl, rfl⟩
    obtain ⟨w, answer, hattempt, hw⟩ := hstart.attempt hf
    rw [Session.withWriter]
    simp only
    rw [initThen_inPlace hplace']
    simp only [hplace.openWriter, hattempt, hplace.commit hw]
    exact ⟨rfl, number, hplace.put _, .none⟩
  | some hw =>
    obtain ⟨w, answer, hattempt, hw'⟩ := hw.attempt hf
    rw [Session.withWriter]
    simp only [hplace.fileOf? hw.file, Option.isSome_some, hattempt]
    exact ⟨rfl, number, hplace, .some hw'⟩

/-- What fails in every transaction leaves the session as it is. -/
lemma Holds.withWriter_failed (hs : s.Holds store h)
    {f : Writer → Except Failure (Writer × Answer)} {failure : Failure}
    (hf : ∀ w, f w = .error failure) : (s.withWriter f).2.Holds store h := by
  obtain ⟨store', disk, writer⟩ := s
  obtain ⟨committed, pending⟩ := h
  obtain ⟨hstore, number, hplace, hwriter⟩ := hs
  obtain rfl : store' = store := hstore
  cases hwriter with
  | none =>
    have hplace' : (Session.mk store' disk none).store.InPlace disk _ := hplace
    rw [Session.withWriter]
    simp only
    rw [initThen_inPlace hplace']
    simp only [hplace.openWriter, attempt, hf]
    exact ⟨rfl, number, hplace, .none⟩
  | some hw =>
    rw [Session.withWriter]
    simp only [attempt, hf]
    exact ⟨rfl, number, hplace, .some hw⟩

/-- One operation goes on with the history. -/
theorem Holds.perform (hs : s.Holds store h) {operation : Operation}
    (ho : operation.IsTransactional) :
    (s.perform operation).2.Holds store (h.after store.format operation) := by
  cases operation with
  | begin => exact hs.begin
  | commit => exact hs.commit
  | rollback =>
    obtain ⟨rfl, number, hplace, -⟩ := hs
    exact ⟨rfl, number, hplace, .none⟩
  | insert view rows => exact hs.withWriter fun hw => ⟨_, _, rfl, hw.insert view rows⟩
  | write documents batchSize =>
    cases documents with
    | error failure => exact hs.withWriter_failed fun w => rfl
    | ok documents => exact hs.withWriter fun hw => ⟨_, _, rfl, hw.insertBatches _⟩
  | clearRows =>
    exact hs.withWriter fun hw =>
      ⟨_, _, rfl, hw.file, congrArg Database.clearRows hw.database, hw.whole, hw.sound⟩
  | recordStats types members skipped =>
    obtain rfl : s.store = store := hs.1
    exact hs.withWriter fun hw => ⟨_, _, rfl, hw.file,
      congrArg (·.recordStats s.store.format types members skipped) hw.database, hw.whole,
      hw.sound⟩
  | init =>
    obtain ⟨rfl, number, hplace, hwriter⟩ := hs
    rw [Session.perform, initThen_inPlace hplace]
    exact ⟨rfl, number, hplace, hwriter⟩
  | search text options limit =>
    rw [Session.perform]
    split <;> exact hs
  | existence | scan | typesInAssembly | findType | stats | currency | settings => exact hs
  | _ => exact ho.elim

/-- A run of operations leads to what their history says. -/
theorem Holds.run (hs : s.Holds store h) (operations : List Operation)
    (ho : ∀ operation ∈ operations, operation.IsTransactional) :
    (s.run operations).2.Holds store (operations.foldl (History.after store.format) h) := by
  induction operations generalizing s h with
  | nil => exact hs
  | cons operation rest ih =>
    obtain ⟨hoperation, hrest⟩ := List.forall_mem_cons.mp ho
    exact ih (hs.perform hoperation) hrest

end Session

end SignatureSearch
