import Mathlib
import SignatureSearch.CommandLine.Run
import SignatureSearch.Proofs.BatchOrder
import SignatureSearch.Proofs.CatalogFailures
import SignatureSearch.Proofs.CatalogKept

/-! Rebuilding an index. A rebuild that succeeds leaves nothing of the old index to be seen, and one
that fails because of the catalog leaves the old index as it was. -/
namespace SignatureSearch

/-! ### The database of a rebuilt index -/

def rebuiltParts (documents : List Json) (batchSize : ℕ) : Parts :=
  ⟨true, !((Build.ofDocuments documents batchSize).allBatches.flatMap Batch.items).isEmpty, true⟩

lemma viewRows_batchSize (documents : List Json) (n m : ℕ) (view : View) :
    viewRows view ((Build.ofDocuments documents n).allBatches.flatMap Batch.items) =
      viewRows view ((Build.ofDocuments documents m).allBatches.flatMap Batch.items) := by
  rw [Build.viewRows_allBatches, Build.viewRows_allBatches]

lemma rebuiltParts_batchSize (documents : List Json) (n m : ℕ) :
    rebuiltParts documents n = rebuiltParts documents m := by
  rw [rebuiltParts, isEmpty_items (viewRows_batchSize documents n m), rebuiltParts]

namespace Database

def rebuilt (d : Database) (format : String) (documents : List Json) (batchSize : ℕ) : Database :=
  let build := Build.ofDocuments documents batchSize
  (d.clearRows.insertBatches build.allBatches).recordStats format build.types build.members
    build.skipped

/-- Neither what was there before nor the size of the batches shows. -/
lemma rebuilt_figures (d e : Database) (format other : String) (documents : List Json) (n m : ℕ) :
    (d.rebuilt format documents n).SameFigures (e.rebuilt other documents m) := by
  have hsummary : (Build.ofDocuments documents n).summary =
      (Build.ofDocuments documents m).summary := by
    rw [Build.summary_ofDocuments, Build.summary_ofDocuments]
  have htypes : (Build.ofDocuments documents n).types = (Build.ofDocuments documents m).types :=
    congrArg BuildSummary.types hsummary
  have hmembers : (Build.ofDocuments documents n).members =
      (Build.ofDocuments documents m).members := congrArg BuildSummary.members hsummary
  have hskipped : (Build.ofDocuments documents n).skipped =
      (Build.ofDocuments documents m).skipped := congrArg BuildSummary.skipped hsummary
  have hcleared : d.clearRows.SameRows e.clearRows := fun _ => rfl
  rw [rebuilt, rebuilt, htypes, hmembers, hskipped]
  exact (hcleared.insertBatches (viewRows_batchSize documents n m)).recordStats _ _ _ _ _

lemma isCurrent_rebuilt (d : Database) (format : String) (documents : List Json) (n : ℕ) :
    (d.rebuilt format documents n).isCurrent format = true := isCurrent_recordStats _ format _ _ _

end Database

namespace Writer

variable (s : IndexStore) (documents : List Json) (batchSize : ℕ) (w : Writer)

lemma file_rebuildWrites : (s.rebuildWrites documents batchSize w).file = w.file :=
  insertBatches_eq (f := Writer.file) (fun _ _ _ => rfl) w.clearRows _

lemma lost_rebuildWrites : (s.rebuildWrites documents batchSize w).lost = w.lost :=
  insertBatches_eq (f := Writer.lost) (fun _ _ _ => rfl) w.clearRows _

lemma hasFailed_rebuildWrites :
    (s.rebuildWrites documents batchSize w).hasFailed = w.hasFailed :=
  insertBatches_eq (f := Writer.hasFailed) (fun _ _ _ => rfl) w.clearRows _

lemma database_rebuildWrites : (s.rebuildWrites documents batchSize w).database =
    w.database.rebuilt s.format documents batchSize := by
  let build := Build.ofDocuments documents batchSize
  exact congrArg
    (fun d : Database => d.recordStats s.format build.types build.members build.skipped)
    (database_insertBatches w.clearRows build.allBatches)

lemma changed_rebuildWrites (file : DatabaseFile) :
    (s.rebuildWrites documents batchSize (.start file)).changed =
      rebuiltParts documents batchSize := by
  let batches := (Build.ofDocuments documents batchSize).allBatches
  have hchanged := changed_insertBatches (Writer.start file).clearRows batches
  have hparts : (s.rebuildWrites documents batchSize (.start file)).changed =
      (((Writer.start file).clearRows.insertBatches batches).changed).union .justStatistics := rfl
  rw [hparts, hchanged, rebuiltParts]
  cases (batches.flatMap Batch.items).isEmpty <;> rfl

/-- A new transaction can change whatever is not lost. -/
lemma advance_start {file : DatabaseFile} {after w : Writer} :
    (Writer.start file).advance after true = (w, .ok ()) ↔
      file.lost.meet after.changed = false ∧ w = after := by
  have hrefusal : (Writer.start file).refusal? after.changed true =
      if file.lost.meet after.changed then some .malformed else none := by
    by_cases hnone : after.changed = .none
    · simp [refusal?, hnone, Parts.meet, Parts.none]
    · simp [refusal?, hnone, Writer.start]
  have hchanged : (Writer.start file).changed.union after.changed = after.changed := by
    simp [Writer.start, Parts.union, Parts.none]
  rw [advance, hrefusal]
  cases file.lost.meet after.changed with
  | false =>
    simp only [hchanged, Bool.false_eq_true, if_false, Prod.mk.injEq, and_true, true_and]
    exact eq_comm
  | true => simp [failWith]

end Writer

/-! ### A rebuild that succeeds -/

namespace IndexStore

/-- The index answers like this database. -/
structure Answers (s : IndexStore) (d : Disk) (database : Database) : Prop where
  scan : ∀ view scan, s.scan d view scan = database.scan view scan
  stats : s.stats d = .ok database.stats
  isCurrent : s.isCurrent d = .ok (database.isCurrent s.format)

/-- Indexes rebuilt from the same documents answer alike, each in its own format. -/
lemma Answers.alike {s s' : IndexStore} {d d' : Disk} {a b : Database} {documents : List Json}
    {n m : ℕ} (h : s.Answers d (a.rebuilt s.format documents n))
    (h' : s'.Answers d' (b.rebuilt s'.format documents m)) : s.AnswersAlike d s' d' := by
  have hfigures := Database.rebuilt_figures a b s.format s'.format documents n m
  constructor
  · intro view scan
    rw [h.scan, h'.scan, hfigures.scan]
  · rw [h.stats, h'.stats, hfigures.stats]
  · rw [h.isCurrent, h'.isCurrent, Database.isCurrent_rebuilt, Database.isCurrent_rebuilt]

/-- A transaction can be opened on this file and write these parts. -/
structure Writable (s : IndexStore) (d : Disk) (locked : Option ℕ) (file : DatabaseFile)
    (parts : Parts) : Prop where
  present : s.isPresent d = true
  state : s.state d = .ready file
  unlocked : locked ≠ some file.number
  whole : file.lost.meet parts = false

def rebuiltDisk (s : IndexStore) (d : Disk) (file : DatabaseFile) (documents : List Json)
    (batchSize : ℕ) : Disk :=
  s.putDatabase d (.database (file.database.rebuilt s.format documents batchSize) file.lost)

variable {s : IndexStore} {d d₁ d' : Disk} {locked : Option ℕ} {file : DatabaseFile}
  {paths : List String} {documents : List Json} {n : ℕ}

lemma openWriter_ok_iff {w : Writer} : s.openWriter d locked = .ok w ↔
    ∃ file, s.isPresent d = true ∧ s.state d = .ready file ∧ locked ≠ some file.number ∧
      w = .start file := by
  have hmeet (parts : Parts) : parts.meet .none = false := by simp [Parts.meet, Parts.none]
  unfold openWriter openDatabase
  by_cases hp : s.isPresent d = true
  · rw [if_pos hp]
    cases hs : s.state d with
    | ready file =>
      by_cases hl : locked = some file.number
      · simp [hp, hmeet, hl, during, failWith]
      · simp [hp, hmeet, hl, eq_comm]
    | _ => simp [failWith, during]
  · simp [hp, failWith]

namespace Writable

variable (h : s.Writable d₁ locked file (rebuiltParts documents n))
include h

lemma state_rebuilt : s.state (s.rebuiltDisk d₁ file documents n) =
    .ready ⟨file.number, file.database.rebuilt s.format documents n, file.lost⟩ :=
  state_of_ready h.state _ _

/-- The index can be rebuilt again. -/
lemma again (other : Option ℕ) (hother : other ≠ some file.number) (m : ℕ) :
    s.Writable (s.rebuiltDisk d₁ file documents n) other
      ⟨file.number, file.database.rebuilt s.format documents n, file.lost⟩
      (rebuiltParts documents m) := by
  have htree := Disk.sameTree_put (entry_of_ready h.state).2
    (.database (file.database.rebuilt s.format documents n) file.lost)
  have hwhole := h.whole
  rw [rebuiltParts_batchSize documents n m] at hwhole
  exact ⟨(htree.reaches _).trans h.present, h.state_rebuilt, hother, hwhole⟩

lemma answers : s.Answers (s.rebuiltDisk d₁ file documents n)
    (file.database.rebuilt s.format documents n) := by
  have hpresent := (h.again locked h.unlocked n).present
  have hwhole := h.whole
  simp only [Parts.meet, rebuiltParts, Bool.and_true, Bool.or_eq_false_iff] at hwhole
  obtain ⟨⟨hrows, -⟩, hstatistics⟩ := hwhole
  constructor
  · intro view scan
    rw [IndexStore.scan, openDatabase, if_pos hpresent, h.state_rebuilt]
    simp [Parts.meet, Parts.justRows, hrows]
  · rw [IndexStore.stats, openDatabase, if_pos hpresent, if_pos hpresent, h.state_rebuilt]
    simp [Parts.meet, Parts.union, Parts.justRows, Parts.justStatistics, hrows, hstatistics,
      Except.map]
  · rw [IndexStore.isCurrent, openDatabase, if_pos hpresent, if_pos hpresent, h.state_rebuilt]
    simp [Parts.meet, Parts.justStatistics, hstatistics, Except.map]

lemma commit : s.commit d₁ (s.rebuildWrites documents n (.start file)) =
    .ok (s.rebuiltDisk d₁ file documents n) := by
  have hfile : s.file? d₁ = some ⟨file.number, .database file.database file.lost⟩ :=
    (entry_of_ready h.state).2
  have hnumber : (s.rebuildWrites documents n (.start file)).file = file.number :=
    Writer.file_rebuildWrites s documents n (.start file)
  have hfailed : (s.rebuildWrites documents n (.start file)).hasFailed = false :=
    Writer.hasFailed_rebuildWrites s documents n (.start file)
  have hlost : (s.rebuildWrites documents n (.start file)).lost = file.lost :=
    Writer.lost_rebuildWrites s documents n (.start file)
  rw [IndexStore.commit, fileOf?, hfile, hnumber]
  simp only [Option.filter_some, beq_self_eq_true, if_true, Writer.committed?, hfailed,
    Bool.false_eq_true, if_false, Writer.contentOver, hlost, Writer.database_rebuildWrites]
  rfl

/-- Where the transaction can be opened the index is rebuilt. -/
lemma rebuild (hread : CatalogFile.readAll d paths = .ok documents)
    (hinit : s.init d locked = (d₁, .ok ())) :
    s.rebuild d locked paths n = (s.rebuiltDisk d₁ file documents n,
      .ok (file.database.rebuilt s.format documents n).stats) := by
  have hopen : s.openWriter d₁ locked = .ok (.start file) :=
    openWriter_ok_iff.mpr ⟨file, h.present, h.state, h.unlocked, rfl⟩
  have hadvance : (Writer.start file).advance (s.rebuildWrites documents n (.start file)) true =
      (s.rebuildWrites documents n (.start file), .ok ()) := by
    rw [Writer.advance_start, Writer.changed_rebuildWrites]
    exact ⟨h.whole, rfl⟩
  rw [IndexStore.rebuild, hread]
  simp only [hinit, hopen, hadvance, h.commit, h.answers.stats]

end Writable

/-- Once the catalog has been read, the index is rebuilt, or it has been created at most. -/
lemma rebuild_cases (hread : CatalogFile.readAll d paths = .ok documents) (s : IndexStore)
    (locked : Option ℕ) (n : ℕ) :
    (∃ failure, s.rebuild d locked paths n = ((s.init d locked).1, .error failure) ∧
      ¬ failure.OfCatalog) ∨
    ∃ d₁ file, s.init d locked = (d₁, .ok ()) ∧
      s.Writable d₁ locked file (rebuiltParts documents n) := by
  cases hinit : s.init d locked with
  | mk d₁ result =>
    cases result with
    | error failure =>
      refine .inl ⟨failure, ?_, init_failure hinit⟩
      rw [rebuild, hread]
      simp only [hinit]
    | ok =>
      cases hopen : s.openWriter d₁ locked with
      | error failure =>
        refine .inl ⟨failure, ?_, openWriter_failure hopen⟩
        rw [rebuild, hread]
        simp only [hinit, hopen]
      | ok w =>
        obtain ⟨file, hpresent, hstate, hunlocked, rfl⟩ := openWriter_ok_iff.mp hopen
        cases hadvance : (Writer.start file).advance (s.rebuildWrites documents n (.start file))
          true with
        | mk w result =>
          cases result with
          | error failure =>
            refine .inl ⟨failure, ?_, Writer.advance_failure hadvance⟩
            rw [rebuild, hread]
            simp only [hinit, hopen, hadvance]
          | ok =>
            have hwhole := (Writer.advance_start.mp hadvance).1
            rw [Writer.changed_rebuildWrites] at hwhole
            exact .inr ⟨d₁, file, rfl, hpresent, hstate, hunlocked, hwhole⟩

/-! ### The two outcomes -/

/-- Nothing has been indexed: the index can be created, and then holds no rows and no figures. -/
def IsFresh (s : IndexStore) (d : Disk) : Prop := ∃ d₁ number,
  s.init d none = (d₁, .ok ()) ∧ s.isPresent d₁ = true ∧ s.state d₁ = .ready ⟨number, .empty, .none⟩

/-- The index is that of these paths: it answers like one that is built from them where nothing has
been indexed before, and building it again changes no answer. -/
structure Rebuilt (s : IndexStore) (d : Disk) (paths : List String) (d' : Disk) : Prop where
  fresh : ∀ (s₀ : IndexStore) (d₀ : Disk) (m : ℕ), s₀.IsFresh d₀ →
    CatalogFile.readAll d₀ paths = CatalogFile.readAll d paths →
    ∃ d₁ stats, s₀.rebuild d₀ none paths m = (d₁, .ok stats) ∧ s.AnswersAlike d' s₀ d₁
  again : ∀ locked m, s.AnswersAlike (s.rebuild d' locked paths m).1 s d'
  repeats : ∀ m documents, CatalogFile.readAll d' paths = .ok documents →
    (s.rebuild d' none paths m).2 = s.stats d'

lemma IsFresh.writable {s₀ : IndexStore} {d₀ : Disk} (h : s₀.IsFresh d₀) (parts : Parts) :
    ∃ d₁ file, s₀.init d₀ none = (d₁, .ok ()) ∧ s₀.Writable d₁ none file parts := by
  obtain ⟨d₁, number, hinit, hpresent, hstate⟩ := h
  exact ⟨d₁, _, hinit, hpresent, hstate, nofun, rfl⟩

section Outcomes

variable (hinit : s.init d locked = (d₁, .ok ()))
  (h : s.Writable d₁ locked file (rebuiltParts documents n))
include hinit h

lemma Writable.created_rebuilt : s.Created (s.rebuiltDisk d₁ file documents n) :=
  (created_of_init hinit).put h.state (file.database.rebuilt s.format documents n) file.lost

variable (hread : CatalogFile.readAll d paths = .ok documents)
include hread

/-- What is read from the catalog afterwards, if it can be read, is what was read before. -/
lemma Writable.readAll_rebuilt {documents' : List Json}
    (hread' : CatalogFile.readAll (s.rebuiltDisk d₁ file documents n) paths = .ok documents') :
    documents' = documents := by
  have hkeeps := (keepsCatalog_init hinit).trans
    (keepsCatalog_putDatabase h.state (file.database.rebuilt s.format documents n) file.lost)
  exact CatalogFile.readAll_kept hkeeps hread hread'

lemma Writable.rebuilt : s.Rebuilt d paths (s.rebuiltDisk d₁ file documents n) := by
  have hcreated := h.created_rebuilt hinit
  constructor
  case fresh =>
    intro s₀ d₀ m hfresh hcatalog
    obtain ⟨d₂, file₀, hinit₀, hwritable₀⟩ := hfresh.writable (rebuiltParts documents m)
    refine ⟨_, _, hwritable₀.rebuild (hcatalog.trans hread) hinit₀, ?_⟩
    exact h.answers.alike hwritable₀.answers
  case again =>
    -- The database may have been a catalog file itself, so that the catalog cannot be read again.
    intro locked' m
    cases hread' : CatalogFile.readAll (s.rebuiltDisk d₁ file documents n) paths with
    | error failure =>
      rw [IndexStore.rebuild, hread']
      exact .refl s _
    | ok documents' =>
      obtain rfl := h.readAll_rebuilt hinit hread hread'
      rcases rebuild_cases hread' s locked' m with ⟨failure, heq, -⟩ | ⟨d₂, file', hinit', hw⟩
      · rw [heq, hcreated.init]
        exact .refl s _
      · rw [hw.rebuild hread' hinit']
        exact hw.answers.alike h.answers
  case repeats =>
    intro m documents' hread'
    obtain rfl := h.readAll_rebuilt hinit hread hread'
    have hagain := h.again none nofun m
    have hstats := (Database.rebuilt_figures (file.database.rebuilt s.format documents' n)
      file.database s.format s.format documents' m n).stats
    rw [hagain.rebuild hread' (hcreated.init none), h.answers.stats, ← hstats]

end Outcomes

/-- What a rebuild that succeeded has read, where it began to write, and what it left. -/
lemma writable_of_rebuild {stats : IndexStats}
    (h : s.rebuild d locked paths n = (d', .ok stats)) : ∃ documents d₁ file,
      CatalogFile.readAll d paths = .ok documents ∧ s.init d locked = (d₁, .ok ()) ∧
      s.Writable d₁ locked file (rebuiltParts documents n) ∧
      d' = s.rebuiltDisk d₁ file documents n ∧
      stats = (file.database.rebuilt s.format documents n).stats := by
  cases hread : CatalogFile.readAll d paths with
  | error failure =>
    rw [rebuild, hread] at h
    cases h
  | ok documents =>
    rcases rebuild_cases hread s locked n with ⟨failure, heq, -⟩ | ⟨d₁, file, hinit, hw⟩
    · rw [heq] at h
      cases h
    · rw [hw.rebuild hread hinit] at h
      cases h
      exact ⟨documents, d₁, file, rfl, hinit, hw, rfl, rfl⟩

lemma rebuild_ok {stats : IndexStats} (h : s.rebuild d locked paths n = (d', .ok stats)) :
    s.stats d' = .ok stats ∧ s.Rebuilt d paths d' := by
  obtain ⟨documents, d₁, file, hread, hinit, hw, rfl, rfl⟩ := writable_of_rebuild h
  exact ⟨hw.answers.stats, hw.rebuilt hinit hread⟩

lemma rebuild_failed {failure : Failure} (h : s.rebuild d locked paths n = (d', .error failure))
    (hf : failure.OfCatalog) : d' = d := by
  cases hread : CatalogFile.readAll d paths with
  | error failure' =>
    rw [rebuild, hread] at h
    cases h
    rfl
  | ok documents =>
    rcases rebuild_cases hread s locked n with ⟨failure', heq, hother⟩ | ⟨d₁, file, hinit, hw⟩
    · rw [heq] at h
      cases h
      exact absurd hf hother
    · rw [hw.rebuild hread hinit] at h
      cases h

/-- What is left after an attempt to build an index from these paths, which may have failed. -/
structure AllOrNothing (s : IndexStore) (d : Disk) (paths : List String) (d' : Disk)
    (failure? : Option Failure) : Prop where
  all : failure? = none → s.Rebuilt d paths d'
  nothing : ∀ failure ∈ failure?, failure.OfCatalog → d' = d
  unread : ∀ failure, CatalogFile.readAll d paths = .error failure → failure? ≠ none ∧ d' = d

lemma allOrNothing_ok {stats : IndexStats} (h : s.rebuild d locked paths n = (d', .ok stats)) :
    s.AllOrNothing d paths d' none := by
  refine ⟨fun _ => (rebuild_ok h).2, nofun, fun failure hread => ?_⟩
  rw [rebuild, hread] at h
  cases h

lemma allOrNothing_failed {failure : Failure}
    (h : s.rebuild d locked paths n = (d', .error failure)) :
    s.AllOrNothing d paths d' (some failure) := by
  refine ⟨nofun, fun other hother => ?_, fun other hread => ⟨nofun, ?_⟩⟩
  · cases hother
    exact rebuild_failed h
  · rw [rebuild, hread] at h
    cases h
    rfl

/-- The command does the same with the size of batches in the settings, or stops before. -/
lemma allOrNothing_command (s : IndexStore) (d : Disk) (locked : Option ℕ)
    (m : CommandLine.Measurements) (paths : List String) (quiet : Bool) : ∃ failure?,
    (CommandLine.index s d locked m paths false quiet).2.error = failure?.map .storage ∧
      s.AllOrNothing d paths (CommandLine.index s d locked m paths false quiet).1 failure? := by
  have hprepared : CommandLine.prepared s d false = .ok d := rfl
  rw [CommandLine.index, hprepared]
  simp only
  cases hsettings : s.settings d with
  | error failure => exact ⟨some failure, rfl, nofun, fun _ _ _ => rfl, fun _ _ => ⟨nofun, rfl⟩⟩
  | ok settings =>
    simp only
    cases hrebuild : s.rebuild d locked paths settings.batchSize with
    | mk d' result =>
      cases result with
      | error failure => exact ⟨some failure, rfl, allOrNothing_failed hrebuild⟩
      | ok stats => exact ⟨none, rfl, allOrNothing_ok hrebuild⟩

end IndexStore

/-- Building an index from paths replaces whatever has been indexed before, as a whole, and answers
with the figures of the new index. If a path is missing, or what it leads to cannot be read, nothing
is changed. So it is with the command. -/
theorem rebuild_wholesale (s : IndexStore) (d : Disk) (locked : Option ℕ) (paths : List String) :
    (∀ n d' stats, s.rebuild d locked paths n = (d', .ok stats) →
      s.stats d' = .ok stats ∧ s.AllOrNothing d paths d' none) ∧
    (∀ n d' failure, s.rebuild d locked paths n = (d', .error failure) →
      s.AllOrNothing d paths d' (some failure)) ∧
    (∀ failure, CatalogFile.readAll d paths = .error failure → failure.OfCatalog) ∧
    ∀ m input quiet d' report,
      CommandLine.runCommand s d locked m input (.index paths false quiet) = (d', report) →
      ∃ failure?, report.error = failure?.map .storage ∧ s.AllOrNothing d paths d' failure? := by
  refine ⟨fun n d' stats h => ?_, fun n d' failure h => ?_, fun failure => ?_, ?_⟩
  · exact ⟨(IndexStore.rebuild_ok h).1, IndexStore.allOrNothing_ok h⟩
  · exact IndexStore.allOrNothing_failed h
  · exact CatalogFile.readAll_failure
  · intro m input quiet d' report h
    have hcommand := IndexStore.allOrNothing_command s d locked m paths quiet
    rw [CommandLine.runCommand] at h
    rwa [h] at hcommand

def sampleCatalog : Disk :=
  let text := "\x7b\"type\":\"type\",\"_rev\":\"1\",\"namespace\":\"N\",\"name\":\"M\"\x7d"
  let old := (Database.empty.insert .byName [⟨.string "a", .null⟩]).recordStats "old" 9 9 9
  (((IndexStore.under "r").init .empty none).1.put (IndexStore.under "r").databasePath
    (.ofDatabase old)).put ["c.json"] (.bytes text.toUTF8)

/-- The catalog is indexed there and where nothing has been indexed; with a path that does not exist
it is not. -/
theorem rebuild_wholesale_sample :
    (IndexStore.under "q").IsFresh sampleCatalog ∧
    (∃ d' stats d₁ stats₁,
      (IndexStore.under "r").rebuild sampleCatalog none ["c.json"] 3 = (d', .ok stats) ∧
      (IndexStore.under "q").rebuild sampleCatalog none ["c.json"] 7 = (d₁, .ok stats₁) ∧
      stats.types = 1 ∧ (IndexStore.under "r").AnswersAlike d' (IndexStore.under "q") d₁) ∧
    ((IndexStore.under "r").rebuild sampleCatalog none ["c.json", "d.json"] 3).1 =
      sampleCatalog := by
  have hfresh : (IndexStore.under "q").IsFresh sampleCatalog :=
    ⟨_, 3, Prod.ext rfl (by decide +kernel), by decide +kernel, by decide +kernel⟩
  have hstats : ((IndexStore.under "r").rebuild sampleCatalog none ["c.json"] 3).2 =
      .ok ⟨1, 0, 0, [("by-assembly", 1), ("by-name", 1), ("by-type-assembly", 1)], true⟩ := by
    decide +kernel
  have hmissing : ((IndexStore.under "r").rebuild sampleCatalog none ["c.json", "d.json"] 3).2 =
      .error (.ofCause (.missingPath "d.json")) := by decide +kernel
  obtain ⟨hok, -⟩ := rebuild_wholesale (IndexStore.under "r") sampleCatalog none ["c.json"]
  obtain ⟨-, hall⟩ := hok 3 _ _ (Prod.ext rfl hstats)
  obtain ⟨d₁, stats₁, hrebuild, halike⟩ := (hall.all rfl).fresh _ _ 7 hfresh rfl
  obtain ⟨-, hfailed, -⟩ :=
    rebuild_wholesale (IndexStore.under "r") sampleCatalog none ["c.json", "d.json"]
  have hnothing := (hfailed 3 _ _ (Prod.ext rfl hmissing)).nothing _ rfl trivial
  exact ⟨hfresh, ⟨_, _, d₁, stats₁, Prod.ext rfl hstats, hrebuild, rfl, halike⟩, hnothing⟩

end SignatureSearch
