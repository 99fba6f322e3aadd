import Mathlib
import SignatureSearch.Proofs.BackendScan
import SignatureSearch.Proofs.DatabaseAnswers
import SignatureSearch.Proofs.SignatureRows

/-! Lookups of assemblies and types. A lookup scans a view for one text, and the rows of one key
keep the order of the documents, so the answers are read off the documents themselves. -/
namespace SignatureSearch

/-! ### Scans for one key -/

/-- Rows of one key stay in the order in which they were given. -/
lemma Scan.answer_exact {key : Json} (h : key.NumberFree) (limit : ℕ) (rows : List Row) :
    (Scan.exact key limit).answer rows = (rows.filter fun row => row.key = key).take limit := by
  have trans := upTo_trans (compareOn fun row : Row => row.key.encode)
  have total := upTo_total (compareOn fun row : Row => row.key.encode)
  have hsort := filter_mergeSort trans total (fun row : Row => decide (row.key = key)) rows
  have hcovers : (fun row : Row => (Scan.exact key limit).covers row.key.encode) =
      fun row => decide (row.key = key) := by
    funext row
    rw [Bool.eq_iff_iff, decide_eq_true_iff]
    exact Json.covers_exact_iff h limit
  have hsorted : (rows.filter fun row => row.key = key).Pairwise fun a b =>
      (compareOn (fun row : Row => row.key.encode) a b != .gt) = true := by
    refine List.pairwise_of_forall_mem_list fun a ha b hb => ?_
    have ha : a.key = key := of_decide_eq_true (List.mem_filter.mp ha).2
    have hb : b.key = key := of_decide_eq_true (List.mem_filter.mp hb).2
    rw [compareOn, ha, hb, Std.compare_self]
    rfl
  rw [List.mergeSort_of_pairwise hsorted] at hsort
  rw [Scan.answer, hcovers]
  exact congrArg (List.take limit) hsort

namespace Engine

/-- A lookup gives the values of the rows with that key, if all values can be decoded. -/
lemma lookup_eq {α β : Type} (e : Engine) {view : View} {name : String} {list : List β}
    {row : β → Row} {decode : Json → Option α} {result : β → α} (activity : String)
    (hscan : e.scan view (.exact (.string name) e.limit) =
      .ok ((Scan.exact (.string name) e.limit).answer (list.map row)))
    (hdecode : ∀ b, decode (row b).value = some (result b)) :
    e.lookup view name decode activity =
      .ok (((list.filter fun b => (row b).key = .string name).take e.limit).map result) := by
  have hrows : (Scan.exact (.string name) e.limit).answer (list.map row) =
      ((list.filter fun b => (row b).key = .string name).take e.limit).map row := by
    have hfree : (Json.string name).NumberFree := trivial
    rw [Scan.answer_exact hfree, List.filter_map, List.map_take]
    rfl
  have hvalues (found : List β) :
      (found.map row).mapM (fun row => decode row.value) = some (found.map result) := by
    induction found with
    | nil => rfl
    | cons b found ih =>
      rw [List.map_cons, List.mapM_cons, hdecode, ih]
      rfl
  rw [lookup, hscan, hrows]
  simp only [hvalues]

end Engine

/-! ### Rows of assemblies and types -/

/-- The documents that describe types, in order. -/
def typeDocuments (documents : List Json) : List CatalogDocument :=
  documents.filterMap CatalogDocument.converted?

def CatalogDocument.assemblyRef (d : CatalogDocument) : AssemblyRef := ⟨d.revision, d.assemblyName⟩

def CatalogDocument.assemblyRow (d : CatalogDocument) : Row :=
  ⟨optionalText d.assembly, d.key.toJson⟩

def CatalogDocument.typeRow (d : CatalogDocument) : Row :=
  ⟨.string d.fullName, d.assemblyRef.toJson⟩

lemma documentRows_byAssembly (documents : List Json) :
    documentRows .byAssembly documents =
      (typeDocuments documents).map CatalogDocument.assemblyRow := by
  rw [List.map_eq_flatMap]
  rfl

lemma documentRows_byTypeAssembly (documents : List Json) :
    documentRows .byTypeAssembly documents =
      (typeDocuments documents).map CatalogDocument.typeRow := by
  rw [List.map_eq_flatMap]
  rfl

/-- A type has one full name, whether it is put together from its document or from its key. -/
lemma CatalogDocument.fullName_key (d : CatalogDocument) : d.key.fullName = d.fullName := rfl

lemma MemberKey.ofJson?_toJson (k : MemberKey) : ofJson? k.toJson = some k := rfl

lemma AssemblyRef.ofJson?_toJson (a : AssemblyRef) : ofJson? a.toJson = some a := by
  obtain ⟨revision, _ | name⟩ := a <;> rfl

lemma optionalText_eq_string (text : Option String) (name : String) :
    CatalogDocument.optionalText text = .string name ↔ text = some name := by
  cases text <;> simp [CatalogDocument.optionalText]

lemma Json.readable_string (s : String) : (Json.string s).Readable :=
  ⟨trivial, by simp [nesting, nestingLimit], trivial⟩

lemma readable_optionalText (text : Option String) :
    (CatalogDocument.optionalText text).Readable := by
  cases text with
  | none => exact ⟨trivial, by simp [CatalogDocument.optionalText, Json.nesting], trivial⟩
  | some s => exact Json.readable_string s

lemma MemberKey.readable_toJson (k : MemberKey) : k.toJson.Readable := by
  refine ⟨⟨?_, trivial, trivial, trivial, trivial⟩, ?_, trivial, trivial, trivial, trivial⟩
  · simp only [List.pairwise_cons, List.forall_mem_cons]
    decide
  · simp [toJson, Json.nesting, Json.fieldsNesting, Json.nestingLimit]

lemma AssemblyRef.readable_toJson (a : AssemblyRef) : a.toJson.Readable := by
  obtain ⟨revision, _ | name⟩ := a
  · refine ⟨⟨List.pairwise_singleton _ _, trivial, trivial⟩, ?_, trivial, trivial⟩
    simp [toJson, Json.nesting, Json.fieldsNesting, Json.nestingLimit]
  · refine ⟨⟨?_, trivial, trivial, trivial⟩, ?_, trivial, trivial, trivial⟩
    · simp only [List.pairwise_cons, List.forall_mem_cons]
      decide
    · simp [toJson, Json.nesting, Json.fieldsNesting, Json.nestingLimit]

lemma readable_byAssembly (documents : List Json) :
    ∀ row ∈ documentRows .byAssembly documents, row.Readable := by
  intro row hrow
  rw [documentRows_byAssembly] at hrow
  obtain ⟨d, -, rfl⟩ := List.mem_map.mp hrow
  exact ⟨readable_optionalText d.assembly, d.key.readable_toJson⟩

lemma readable_byTypeAssembly (documents : List Json) :
    ∀ row ∈ documentRows .byTypeAssembly documents, row.Readable := by
  intro row hrow
  rw [documentRows_byTypeAssembly] at hrow
  obtain ⟨d, -, rfl⟩ := List.mem_map.mp hrow
  exact ⟨Json.readable_string d.fullName, d.assemblyRef.readable_toJson⟩

/-! ### Lookups in an index of documents -/

/-- The engine looks at an index, in memory or on disk, which was empty before these documents were
written into it. Rows on disk are numbered by 63 bits. -/
inductive Engine.Indexes (documents : List Json) : Engine → Prop
  | memory (batchSize limit : ℕ) :
    Indexes documents ((MemoryStore.empty.write documents batchSize).1.engine limit)
  | disk {store : IndexStore} {disk : Disk} {number : ℕ} {database : Database}
    (inPlace : store.InPlace disk ⟨number, database, .none⟩) (empty : database.rows = [])
    (batchSize limit : ℕ)
    (counted : min limit (typeDocuments documents).length ≤ Database.maxRows) :
    Indexes documents (store.engine
      ((Session.start store disk).perform (.write (.ok documents) batchSize)).2.disk limit)

/-- Documents that are written outside a transaction are in the database at once. -/
lemma IndexStore.InPlace.scan_write {store : IndexStore} {disk : Disk} {number : ℕ}
    {database : Database} (h : store.InPlace disk ⟨number, database, .none⟩)
    (documents : List Json) (batchSize : ℕ) (view : View) (scan : Scan) :
    store.scan ((Session.start store disk).perform (.write (.ok documents) batchSize)).2.disk
        view scan =
      (database.insertBatches (Build.ofDocuments documents batchSize).allBatches).scan view
        scan := by
  have htransactional : (Session.Operation.write (.ok documents) batchSize).IsTransactional :=
    trivial
  obtain ⟨-, number', hplace, -⟩ := (Session.start_holds h).perform htransactional
  exact hplace.scan view scan

/-- A database with the batches of the documents answers a scan with the rows of the documents, if
these can be read back. -/
lemma Database.Holds.scan_documents {database : Database} {documents : List Json} {batchSize : ℕ}
    (h : database.Holds ((Build.ofDocuments documents batchSize).allBatches.flatMap Batch.items))
    {view : View} (hread : ∀ row ∈ documentRows view documents, row.Readable) {scan : Scan}
    (hcount : min scan.limit (documentRows view documents).length ≤ Database.maxRows) :
    database.scan view scan = .ok (scan.answer (documentRows view documents)) := by
  have hrows := Build.viewRows_allBatches documents batchSize view
  have hscan := h.scan view scan (by rwa [hrows]) (by rwa [hrows])
  rwa [hrows] at hscan

variable {documents : List Json} {e : Engine}

/-- An index answers a scan for one key with the rows of the documents, as long as they can be read
back from a disk. -/
lemma Engine.Indexes.scan (h : e.Indexes documents) {view : View} (key : Json)
    (hread : ∀ row ∈ documentRows view documents, row.Readable)
    (hlength : (documentRows view documents).length = (typeDocuments documents).length) :
    e.scan view (.exact key e.limit) =
      .ok ((Scan.exact key e.limit).answer (documentRows view documents)) := by
  cases h with
  | memory batchSize limit =>
    exact congrArg Except.ok (MemoryStore.scan_write documents batchSize view (.exact key limit))
  | disk hplace hempty batchSize limit hcounted =>
    have hcount : min limit (documentRows view documents).length ≤ Database.maxRows := by
      rwa [hlength]
    exact (hplace.scan_write documents batchSize view _).trans
      ((Database.holds_insertBatches hempty _).scan_documents hread hcount)

lemma Engine.Indexes.scan_byAssembly (h : e.Indexes documents) (key : Json) :
    e.scan .byAssembly (.exact key e.limit) = .ok ((Scan.exact key e.limit).answer
      ((typeDocuments documents).map CatalogDocument.assemblyRow)) := by
  have hrows := documentRows_byAssembly documents
  rw [← hrows]
  exact h.scan key (readable_byAssembly documents) (by rw [hrows, List.length_map])

lemma Engine.Indexes.scan_byTypeAssembly (h : e.Indexes documents) (key : Json) :
    e.scan .byTypeAssembly (.exact key e.limit) = .ok ((Scan.exact key e.limit).answer
      ((typeDocuments documents).map CatalogDocument.typeRow)) := by
  have hrows := documentRows_byTypeAssembly documents
  rw [← hrows]
  exact h.scan key (readable_byTypeAssembly documents) (by rw [hrows, List.length_map])

lemma Engine.Indexes.typesInAssembly (h : e.Indexes documents) (name : String) :
    e.typesInAssembly name = .ok ((((typeDocuments documents).filter fun d =>
      d.assembly = some name).take e.limit).map CatalogDocument.key) := by
  have hkey : (fun d : CatalogDocument => decide (d.assemblyRow.key = .string name)) =
      fun d => decide (d.assembly = some name) := by
    funext d
    exact decide_eq_decide.mpr (optionalText_eq_string d.assembly name)
  have hlookup := e.lookup_eq "Malformed by-assembly row" (h.scan_byAssembly (.string name))
    fun d => d.key.ofJson?_toJson
  rw [hkey] at hlookup
  exact hlookup

lemma Engine.Indexes.findType (h : e.Indexes documents) (name : String) :
    e.findType name = .ok ((((typeDocuments documents).filter fun d =>
      d.fullName = name).take e.limit).map CatalogDocument.assemblyRef) := by
  have hkey : (fun d : CatalogDocument => decide (d.typeRow.key = .string name)) =
      fun d => decide (d.fullName = name) := by
    funext d
    exact decide_eq_decide.mpr (by rw [CatalogDocument.typeRow, Json.string.injEq])
  have hlookup := e.lookup_eq "Malformed by-type-assembly row"
    (h.scan_byTypeAssembly (.string name)) fun d => d.assemblyRef.ofJson?_toJson
  rw [hkey] at hlookup
  exact hlookup

/-- An assembly is looked up as the keys of the documents that name it, and a type as what the
documents of that full name say about its assembly, both in the order of the documents and up to the
limit. The key of a type that was found by its assembly leads back to the revision of that type. -/
theorem lookups_exact (h : e.Indexes documents) (name : String) :
    e.typesInAssembly name = .ok ((((typeDocuments documents).filter fun d =>
        d.assembly = some name).take e.limit).map CatalogDocument.key) ∧
      e.findType name = .ok ((((typeDocuments documents).filter fun d =>
        (if d.namespaceName = "" then d.name else d.namespaceName ++ "." ++ d.name) = name).take
          e.limit).map fun d => ⟨d.revision, d.assemblyName⟩) ∧
      ∀ e' : Engine, e'.Indexes documents → (typeDocuments documents).length ≤ e'.limit →
        ∀ keys, e.typesInAssembly name = .ok keys → ∀ k ∈ keys,
          ∃ refs, e'.findType k.fullName = .ok refs ∧ ∃ ref ∈ refs, ref.revision = k.revision := by
  refine ⟨h.typesInAssembly name, h.findType name, ?_⟩
  intro e' h' hlimit keys hkeys k hk
  rw [h.typesInAssembly, Except.ok.injEq] at hkeys
  subst hkeys
  obtain ⟨d, hd, rfl⟩ := List.mem_map.mp hk
  have hdocument : d ∈ typeDocuments documents :=
    (List.mem_filter.mp (List.mem_of_mem_take hd)).1
  have hnamed : d ∈ (typeDocuments documents).filter fun other =>
      other.fullName = d.key.fullName :=
    List.mem_filter.mpr ⟨hdocument, decide_eq_true d.fullName_key.symm⟩
  refine ⟨_, h'.findType d.key.fullName, d.assemblyRef, List.mem_map_of_mem ?_, rfl⟩
  rw [List.take_of_length_le ((List.length_filter_le _ _).trans hlimit)]
  exact hnamed

/-- The sample and two types of an assembly `A`, the second one outside any namespace. -/
def assemblyDocuments : List Json :=
  [{ sampleType with revision := "2", assembly := some "A", assemblyName := some "A, Version=1" },
    sampleType, { sampleType with revision := "3", namespaceName := "", assembly := some "A" }].map
    CatalogDocument.toJson

/-- On disk, with a limit of two: the assembly has two types, and two documents describe `N.M`. -/
theorem lookups_exact_sample :
    let e := (IndexStore.under "r").engine
      ((Session.start (IndexStore.under "r") sampleDisk).perform
        (.write (.ok assemblyDocuments) 2)).2.disk 2
    e.typesInAssembly "A" = .ok [⟨"2", "N", "M"⟩, ⟨"3", "", "M"⟩] ∧
      e.findType "N.M" = .ok [⟨"2", some "A, Version=1"⟩, ⟨"1", none⟩] ∧
      ∃ refs, ((MemoryStore.empty.write assemblyDocuments 1).1.engine 3).findType "M" = .ok refs ∧
        ∃ ref ∈ refs, ref.revision = "3" := by
  intro e
  have hinit : (IndexStore.under "r").init .empty none = (sampleDisk, .ok ()) :=
    Prod.ext rfl (by decide +kernel)
  have hplace : (IndexStore.under "r").InPlace sampleDisk ⟨0, .empty, .none⟩ :=
    IndexStore.inPlace_of_init (by decide +kernel) hinit (by decide +kernel) (by decide +kernel) rfl
  have hdisk : e.Indexes assemblyDocuments := .disk hplace rfl 2 2 (by decide)
  have hmemory : ((MemoryStore.empty.write assemblyDocuments 1).1.engine 3).Indexes
      assemblyDocuments := .memory 1 3
  have hassembly : e.typesInAssembly "A" = .ok [⟨"2", "N", "M"⟩, ⟨"3", "", "M"⟩] :=
    (lookups_exact hdisk "A").1.trans (by decide)
  have htype := (lookups_exact hdisk "N.M").2.1
  have hback := (lookups_exact hdisk "A").2.2 _ hmemory (by decide) _ hassembly
    ⟨"3", "", "M"⟩ (by decide)
  exact ⟨hassembly, htype.trans (by decide), hback⟩

end SignatureSearch
