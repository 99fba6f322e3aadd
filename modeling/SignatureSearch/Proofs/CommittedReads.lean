import Mathlib
import SignatureSearch.Proofs.BackendScan
import SignatureSearch.Proofs.CreatedStore

/-! Reading beside transactions. A session can be settled: the writes of a transaction are held back
until it is committed and then done all at once, and of one that is never committed only the
creation of the index remains. Nothing that is read tells the two sessions apart. -/
namespace SignatureSearch

namespace Session

/-- The operation looks at what is committed. -/
def Operation.isRead : Operation → Bool
  | .existence | .scan .. | .search .. | .typesInAssembly .. | .findType .. | .stats | .currency
  | .settings => true
  | _ => false

def Operation.isWrite : Operation → Bool
  | .insert .. | .write .. | .clearRows | .recordStats .. => true
  | _ => false

def Answer.isCommitted : Answer → Bool
  | .rowsWritten _ => true
  | _ => false

abbrev Transcript := List (Operation × Answer)

def transcript (s : Session) (operations : List Operation) : Transcript :=
  operations.zip (s.run operations).1

def Transcript.reads (t : Transcript) : Transcript := t.filter fun entry => entry.1.isRead

/-! ### Settling -/

/-- What is done in place of an operation, and the writes that are then held back for the open
transaction. -/
def settle (held : Option (List Operation)) (operation : Operation) (answer : Answer) :
    List Operation × Option (List Operation) :=
  match operation with
  | .begin => ([.init], if answer = .done then some [] else none)
  | .rollback => ([], none)
  | .commit =>
    match held with
    | some writes => (if answer.isCommitted then .begin :: (writes ++ [.commit]) else [], none)
    | none => ([], none)
  | operation =>
    match held with
    | some writes =>
      if operation.isWrite then ([], some (writes ++ [operation])) else ([operation], some writes)
    | none => ([operation], none)

/-- The operations of a settled session. -/
def settled (held : Option (List Operation)) : Transcript → List Operation
  | [] => []
  | (operation, answer) :: rest =>
    (settle held operation answer).1 ++ settled (settle held operation answer).2 rest

/-! ### Runs -/

lemma run_append (s : Session) (front rest : List Operation) :
    (s.run (front ++ rest)).2 = ((s.run front).2.run rest).2 := by
  induction front generalizing s with
  | nil => rfl
  | cons operation front ih => exact ih (s.perform operation).2

lemma transcript_cons (s : Session) (operation : Operation) (rest : List Operation) :
    s.transcript (operation :: rest) =
      (operation, (s.perform operation).1) :: (s.perform operation).2.transcript rest := rfl

lemma transcript_append (s : Session) (front rest : List Operation) :
    s.transcript (front ++ rest) = s.transcript front ++ (s.run front).2.transcript rest := by
  induction front generalizing s with
  | nil => rfl
  | cons operation front ih =>
    rw [List.cons_append, transcript_cons, transcript_cons, ih, List.cons_append]
    rfl

lemma operation_of_mem {s : Session} {operations : List Operation} {entry : Operation × Answer}
    (h : entry ∈ s.transcript operations) : entry.1 ∈ operations := (List.of_mem_zip h).1

/-- The session after its open transaction has been dropped. -/
def closed (s : Session) : Session := start s.store s.disk

lemma closed_eq {s : Session} (h : s.writer = none) : s.closed = s := by
  obtain ⟨store, disk, writer⟩ := s
  cases h
  rfl

/-- Beside its transaction, the first session is led by the operations to where the last one is
beside its own; they read what the history has read, and no commit of theirs fails. -/
structure Replays (s : Session) (operations : List Operation) (history : Transcript)
    (s' : Session) : Prop where
  state : (s.closed.run operations).2 = s'.closed
  reads : (s.closed.transcript operations).reads = history.reads
  commits : ∀ entry ∈ s.closed.transcript operations, entry.1 = .commit → entry.2.isCommitted

lemma Replays.append {s s' s'' : Session} {front rest : List Operation} {h h' : Transcript}
    (hf : s.Replays front h s') (hr : s'.Replays rest h' s'') :
    s.Replays (front ++ rest) (h ++ h') s'' := by
  have htranscript := transcript_append s.closed front rest
  rw [hf.state] at htranscript
  constructor
  · rw [run_append, hf.state, hr.state]
  · rw [htranscript, Transcript.reads, List.filter_append]
    exact (congrArg₂ _ hf.reads hr.reads).trans (List.filter_append _ _).symm
  · rw [htranscript]
    intro entry hentry
    exact (List.mem_append.mp hentry).elim (hf.commits entry) (hr.commits entry)

/-! ### One operation -/

variable {s : Session} {operation : Operation}

lemma perform_read (s : Session) (h : operation.isRead = true) :
    s.perform operation = ((s.closed.perform operation).1, s) := by
  cases operation with
  | search text options limit =>
    rw [perform, perform]
    cases hsearch : (s.store.engine s.disk limit).search text options with
    | ok response => simp only [closed, start, hsearch]
    | error error => simp only [closed, start, hsearch]
  | existence | scan | typesInAssembly | findType | stats | currency | settings => rfl
  | _ => cases h

lemma perform_write (s : Session) (h : operation.isWrite = true) :
    ∃ f, s.perform operation = s.withWriter f := by
  cases operation with
  | insert | write | clearRows | recordStats => exact ⟨_, by rw [perform]⟩
  | _ => cases h

/-- A write of its own opens no transaction. -/
lemma withWriter_closed (s : Session) (hs : s.writer = none)
    (f : Writer → Except Failure (Writer × Answer)) :
    (s.withWriter f).2.store = s.store ∧ (s.withWriter f).2.writer = none := by
  obtain ⟨store, disk, writer⟩ := s
  obtain rfl : writer = none := hs
  unfold withWriter initThen
  simp only
  split
  · exact ⟨rfl, rfl⟩
  · split
    · exact ⟨rfl, rfl⟩
    · split
      · exact ⟨rfl, rfl⟩
      · split <;> exact ⟨rfl, rfl⟩

/-- A write into the open transaction changes nothing else. -/
lemma withWriter_open (s : Session) {w : Writer} (hs : s.writer = some w)
    (f : Writer → Except Failure (Writer × Answer)) :
    ∃ w', (s.withWriter f).2 = { s with writer := some w' } := by
  rw [withWriter, hs]
  exact ⟨_, rfl⟩

lemma reads_eq_nil {operations : List Operation} (s : Session)
    (h : ∀ operation ∈ operations, operation.isRead = false) :
    (s.transcript operations).reads = [] := by
  refine List.filter_eq_nil_iff.mpr fun entry hentry => ?_
  rw [h entry.1 (operation_of_mem hentry)]
  exact Bool.false_ne_true

lemma replays_one {s' : Session} {other : Operation} {answer answer' : Answer}
    (h : s.closed.perform other = (answer', s'.closed))
    (hread : Transcript.reads [(other, answer')] = Transcript.reads [(operation, answer)])
    (hcommit : other ≠ .commit) : s.Replays [other] [(operation, answer)] s' := by
  have htranscript : s.closed.transcript [other] = [(other, answer')] := by
    rw [transcript_cons, h]
    rfl
  constructor
  · exact congrArg Prod.snd h
  · rw [htranscript, hread]
  · rw [htranscript]
    intro entry hentry heq
    obtain rfl := List.mem_singleton.mp hentry
    exact absurd heq hcommit

lemma replays_nothing {s' : Session} {answer : Answer} (h : s.closed = s'.closed)
    (hread : operation.isRead = false) : s.Replays [] [(operation, answer)] s' := by
  refine ⟨h, ?_, fun entry hentry => ?_⟩
  · simp [Transcript.reads, hread, transcript]
  · cases hentry

/-- The writes held back lead from a transaction that has just been opened to the session. -/
structure Opened (s : Session) (writes : List Operation) : Prop where
  created : s.store.Created s.disk
  opened : ∃ w, s.store.openWriter s.disk none = .ok w ∧
    (run { s with writer := some w } writes).2 = s
  writing : ∀ operation ∈ writes, operation.isWrite = true

def Holding (s : Session) : Option (List Operation) → Prop
  | none => s.writer = none
  | some writes => (∃ w, s.writer = some w) ∧ s.Opened writes

/-- What is held back afterwards makes up the open transaction, and what is done in place of the
operation replays it. -/
structure Settles (s : Session) (held : Option (List Operation)) (operation : Operation) : Prop where
  holding : (s.perform operation).2.Holding (settle held operation (s.perform operation).1).2
  replays : s.Replays (settle held operation (s.perform operation).1).1
    [(operation, (s.perform operation).1)] (s.perform operation).2

variable {held : Option (List Operation)}

lemma settle_read (h : operation.isRead = true) (answer : Answer) :
    settle held operation answer = ([operation], held) := by
  cases operation with
  | existence | scan | search | typesInAssembly | findType | stats | currency | settings =>
    cases held <;> rfl
  | _ => cases h

lemma settle_write (h : operation.isWrite = true) (answer : Answer) :
    settle held operation answer =
      match held with
      | some writes => ([], some (writes ++ [operation]))
      | none => ([operation], none) := by
  cases operation with
  | insert | write | clearRows | recordStats => cases held <;> rfl
  | _ => cases h

lemma isRead_of_isWrite (h : operation.isWrite = true) : operation.isRead = false := by
  cases operation with
  | insert | write | clearRows | recordStats => rfl
  | _ => cases h

lemma not_commit_of_isWrite (h : operation.isWrite = true) : operation ≠ .commit := by
  rintro rfl
  cases h

lemma Holding.read (hs : s.Holding held) (h : operation.isRead = true) :
    s.Settles held operation := by
  have hperform := perform_read s h
  have hcommit : operation ≠ .commit := by
    rintro rfl
    cases h
  constructor
  · rw [hperform, settle_read h]
    exact hs
  · rw [hperform, settle_read h]
    exact replays_one (perform_read s.closed h) rfl hcommit

lemma Holding.write (hs : s.Holding held) (h : operation.isWrite = true) :
    s.Settles held operation := by
  obtain ⟨f, hperform⟩ := perform_write s h
  cases held with
  | none =>
    -- Both sessions are in one state, without a transaction, and stay so.
    obtain ⟨-, hclosed⟩ := withWriter_closed s hs f
    constructor
    · rw [settle_write h, hperform]
      exact hclosed
    · have hself : s.closed.perform operation =
          ((s.perform operation).1, (s.perform operation).2.closed) := by
        rw [closed_eq hs, closed_eq (by rw [hperform]; exact hclosed)]
      rw [settle_write h]
      exact replays_one hself rfl (not_commit_of_isWrite h)
  | some writes =>
    obtain ⟨⟨w, hw⟩, hcreated, ⟨w₀, hopen, hrun⟩, hwriting⟩ := hs
    obtain ⟨w', hw'⟩ := withWriter_open s hw f
    have hresult : (s.perform operation).2 = { s with writer := some w' } := by rw [hperform, hw']
    constructor
    · rw [settle_write h, hresult]
      refine ⟨⟨w', rfl⟩, hcreated, ⟨w₀, hopen, ?_⟩, ?_⟩
      · rw [run_append, hrun, ← hresult]
        rfl
      · intro other hother
        rcases List.mem_append.mp hother with hother | hother
        · exact hwriting other hother
        · rw [List.mem_singleton.mp hother]
          exact h
    · rw [settle_write h, hresult]
      exact replays_nothing rfl (isRead_of_isWrite h)

lemma init_ne_commit : Operation.init ≠ .commit := by
  intro h
  cases h

lemma perform_init_created (h : s.store.Created s.disk) : s.perform .init = (.done, s) := by
  rw [perform, initThen, h.init]

lemma Holding.init (hs : s.Holding held) : s.Settles held .init := by
  cases held with
  | none =>
    have hclosed : (s.perform .init).2.writer = none := by
      rw [perform, initThen]
      cases s.store.init s.disk s.locked with
      | mk disk result => cases result <;> exact hs
    have hself : s.closed.perform .init = ((s.perform .init).1, (s.perform .init).2.closed) := by
      rw [closed_eq hs, closed_eq hclosed]
    exact ⟨hclosed, replays_one hself rfl init_ne_commit⟩
  | some writes =>
    have hcreated := hs.2.created
    have hperform := perform_init_created hcreated
    have hself : s.closed.perform .init = (.done, s.closed) := perform_init_created hcreated
    constructor
    · rw [hperform]
      exact hs
    · rw [hperform]
      exact replays_one hself rfl init_ne_commit

/-- Opening a transaction does to the disk what creating the index does. -/
lemma settles_begin (s : Session) (held : Option (List Operation)) : s.Settles held .begin := by
  cases hinit : s.store.init s.disk none with
  | mk disk result =>
    cases result with
    | error failure =>
      have hbegin : s.perform .begin = (.failed failure, start s.store disk) := by
        simp only [perform, begin, initThen, locked, Option.map_none, hinit]
        rfl
      have hself : s.closed.perform .init = (.failed failure, start s.store disk) := by
        simp only [perform, initThen, locked, closed, start, Option.map_none, hinit]
      constructor
      · rw [hbegin]
        rfl
      · rw [hbegin]
        exact replays_one hself rfl init_ne_commit
    | ok =>
      have hself : s.closed.perform .init = (.done, start s.store disk) := by
        simp only [perform, initThen, locked, closed, start, Option.map_none, hinit]
      cases hopen : s.store.openWriter disk none with
      | error failure =>
        have hbegin : s.perform .begin = (.failed failure, start s.store disk) := by
          simp only [perform, begin, initThen, locked, Option.map_none, hinit, hopen]
          rfl
        constructor
        · rw [hbegin]
          rfl
        · rw [hbegin]
          exact replays_one hself rfl init_ne_commit
      | ok w =>
        have hbegin : s.perform .begin = (.done, ⟨s.store, disk, some w⟩) := by
          simp only [perform, begin, initThen, locked, Option.map_none, hinit, hopen]
        constructor
        · rw [hbegin]
          exact ⟨⟨w, rfl⟩, IndexStore.created_of_init hinit, ⟨w, hopen, rfl⟩,
            List.forall_mem_nil _⟩
        · rw [hbegin]
          exact replays_one hself rfl init_ne_commit

/-- What has been held back and is then done at once is committed like the open transaction. -/
lemma Opened.replays {writes : List Operation} (h : s.Opened writes) {count : ℕ} {s' : Session}
    (hcommit : s.perform .commit = (.rowsWritten count, s')) (hs' : s'.writer = none) :
    s.Replays (.begin :: (writes ++ [.commit])) [(.commit, .rowsWritten count)] s' := by
  obtain ⟨hcreated, ⟨w, hopen, hrun⟩, hwriting⟩ := h
  -- The index exists, so opening the transaction again leaves the disk as it is.
  have hbegin : s.closed.perform .begin = (.done, { s with writer := some w }) := by
    simp only [perform, begin, initThen, locked, closed, start, Option.map_none, hcreated.init,
      hopen]
  have hrest : ({ s with writer := some w } : Session).transcript (writes ++ [.commit]) =
      ({ s with writer := some w } : Session).transcript writes ++
        [(.commit, .rowsWritten count)] := by
    rw [transcript_append, hrun, transcript_cons, hcommit]
    rfl
  have htranscript : s.closed.transcript (.begin :: (writes ++ [.commit])) =
      (.begin, .done) :: (({ s with writer := some w } : Session).transcript writes ++
        [(.commit, .rowsWritten count)]) := by
    rw [transcript_cons, hbegin, hrest]
  have hreads := reads_eq_nil { s with writer := some w } fun other hother =>
    isRead_of_isWrite (hwriting other hother)
  constructor
  · have hafter : (s.closed.run (.begin :: (writes ++ [.commit]))).2 =
        (({ s with writer := some w } : Session).run (writes ++ [.commit])).2 :=
      congrArg (fun r => (run r.2 (writes ++ [.commit])).2) hbegin
    rw [hafter, run_append, hrun, closed_eq hs']
    exact congrArg Prod.snd hcommit
  · rw [htranscript, ← List.singleton_append, Transcript.reads, List.filter_append,
      List.filter_append]
    rw [Transcript.reads] at hreads
    rw [hreads]
    rfl
  · rw [htranscript]
    intro entry hentry heq
    rcases List.mem_cons.mp hentry with rfl | hentry
    · cases heq
    · rcases List.mem_append.mp hentry with hentry | hentry
      · exact absurd heq (not_commit_of_isWrite (hwriting _ (operation_of_mem hentry)))
      · rw [List.mem_singleton.mp hentry]
        rfl

lemma Holding.commit (hs : s.Holding held) : s.Settles held .commit := by
  cases held with
  | none =>
    have hperform : s.perform .commit = (.noWriter, s) := by
      rw [perform, Session.commit, hs]
    constructor
    · rw [hperform]
      exact hs
    · rw [hperform]
      exact replays_nothing rfl rfl
  | some writes =>
    obtain ⟨⟨w, hw⟩, hopened⟩ := hs
    cases hcommit : s.store.commit s.disk w with
    | error failure =>
      have hperform : s.perform .commit = (.failed failure, s.closed) := by
        simp only [perform, Session.commit, hw, hcommit]
        rfl
      constructor
      · rw [hperform]
        rfl
      · rw [hperform]
        exact replays_nothing rfl rfl
    | ok disk =>
      have hperform : s.perform .commit = (.rowsWritten w.rowsWritten, start s.store disk) := by
        simp only [perform, Session.commit, hw, hcommit]
        rfl
      constructor
      · rw [hperform]
        rfl
      · rw [hperform]
        exact hopened.replays hperform rfl

lemma settles_rollback (s : Session) (held : Option (List Operation)) :
    s.Settles held .rollback := ⟨rfl, replays_nothing rfl rfl⟩

/-! ### All operations -/

lemma Holding.settles (hs : s.Holding held) (ho : operation.IsTransactional) :
    s.Settles held operation := by
  cases operation with
  | init => exact hs.init
  | begin => exact settles_begin s held
  | commit => exact hs.commit
  | rollback => exact settles_rollback s held
  | insert | write | clearRows | recordStats => exact hs.write rfl
  | existence | scan | search | typesInAssembly | findType | stats | currency | settings =>
    exact hs.read rfl
  | _ => exact ho.elim

lemma Holding.run (hs : s.Holding held) (operations : List Operation)
    (ho : ∀ operation ∈ operations, operation.IsTransactional) :
    s.Replays (settled held (s.transcript operations)) (s.transcript operations)
      (s.run operations).2 := by
  -- The rest of a run can begin within a transaction, with writes that are held back.
  induction operations generalizing s held with
  | nil =>
    refine ⟨rfl, rfl, fun entry hentry => ?_⟩
    cases hentry
  | cons operation rest ih =>
    obtain ⟨hoperation, hrest⟩ := List.forall_mem_cons.mp ho
    have hstep := hs.settles hoperation
    rw [transcript_cons]
    exact hstep.replays.append (ih hstep.holding hrest)

end Session

/-- Whatever operations come one after the other, what is read is what is read in the settled
session, where every transaction is committed, its writes are done together and nothing else comes
between them. Both sessions leave the same disk. -/
theorem reads_committed (store : IndexStore) (disk : Disk) (operations : List Session.Operation)
    (ho : ∀ operation ∈ operations, operation.IsTransactional) :
    let session := Session.start store disk
    let history := session.transcript operations
    let replayed := session.transcript (Session.settled none history)
    replayed.reads = history.reads ∧
      (∀ entry ∈ replayed, entry.1 = .commit → entry.2.isCommitted) ∧
      (session.run (Session.settled none history)).2.disk = (session.run operations).2.disk := by
  intro session history replayed
  have hstart : session.Holding none := rfl
  have hrun := hstart.run operations ho
  have hdisk := congrArg Session.disk hrun.state
  exact ⟨hrun.reads, hrun.commits, hdisk⟩

/-- One transaction is dropped, one is committed and one is left open. -/
theorem reads_committed_sample :
    let scan : Session.Operation := .scan .byName (.between (.string "a") (.string "c") 5)
    let operations : List Session.Operation :=
      [.begin, .insert .byName [⟨.string "a", .null⟩], scan, .begin,
        .insert .byName [⟨.string "b", .null⟩], .commit, .begin, .clearRows, scan]
    let session := Session.start (IndexStore.under "r") sampleDisk
    (∀ operation ∈ operations, operation.IsTransactional) ∧
      (session.transcript (Session.settled none (session.transcript operations))).reads.map
        Prod.snd = [.rows [], .rows [⟨.string "b", .null⟩]] := by
  intro scan operations session
  have ho : ∀ operation ∈ operations, operation.IsTransactional := by
    simp [operations, scan, Session.Operation.IsTransactional]
  have hreads := (reads_committed (IndexStore.under "r") sampleDisk operations ho).1
  have hrows : (session.transcript operations).reads.map Prod.snd =
      [.rows [], .rows [⟨.string "b", .null⟩]] := by decide +kernel
  exact ⟨ho, (congrArg _ hreads).trans hrows⟩

end SignatureSearch
