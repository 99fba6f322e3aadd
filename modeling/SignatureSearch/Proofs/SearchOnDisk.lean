import Mathlib
import SignatureSearch.Proofs.CatalogShapes
import SignatureSearch.Proofs.Lookups
import SignatureSearch.Proofs.NameSearch
import SignatureSearch.Proofs.Rebuilding

/-! Searches of an index on disk. Documents that are written into an empty index, or an index is
rebuilt from, are found there as they are found in memory, by every query, if the types of their
signatures can be read back. -/
namespace SignatureSearch

/-! ### Rows that can be read back -/

namespace Json

lemma itemsSorted_iff {items : List Json} :
    ItemsSorted items ↔ ∀ item ∈ items, item.Sorted := by
  induction items with
  | nil => simp [ItemsSorted]
  | cons item rest ih => simp [ItemsSorted, ih]

lemma itemsReadBack_iff {items : List Json} :
    ItemsReadBack items ↔ ∀ item ∈ items, item.FloatsReadBack := by
  induction items with
  | nil => simp [ItemsReadBack]
  | cons item rest ih => simp [ItemsReadBack, ih]

lemma Readable.mono {items others : List Json} (h : (Json.array items).Readable)
    (hsub : others ⊆ items) : (Json.array others).Readable := by
  have hsorted := itemsSorted_iff.mp h.sorted
  have hfloats := itemsReadBack_iff.mp h.floats
  have hnesting : itemsNesting others ≤ itemsNesting items :=
    itemsNesting_le_iff.mpr fun item hitem => itemsNesting_le_iff.mp le_rfl item (hsub hitem)
  refine ⟨itemsSorted_iff.mpr fun item hitem => hsorted item (hsub hitem), ?_,
    itemsReadBack_iff.mpr fun item hitem => hfloats item (hsub hitem)⟩
  exact (Nat.succ_le_succ hnesting).trans h.nesting

end Json

lemma readable_nameKey (name : String) (kind : MemberKind) :
    (DocumentRows.nameKey name kind).Readable :=
  ⟨⟨trivial, trivial, trivial⟩, (by decide : 1 ≤ Json.nestingLimit), ⟨trivial, trivial, trivial⟩⟩

lemma readable_entryJson (name : String) (owner : MemberKey) :
    (DocumentRows.entryJson name owner).Readable := by
  have howner := owner.readable_toJson
  refine ⟨⟨?_, trivial, howner.sorted, trivial⟩, (by decide : 2 ≤ Json.nestingLimit), trivial,
    howner.floats, trivial⟩
  simp only [List.pairwise_cons, List.forall_mem_cons]
  decide

lemma readable_atoms (names : List String) :
    (TypeNode.signatureKey (names.map TypeNode.atom)).Readable := by
  have hitem : ∀ item ∈ TypeNode.itemsToJson (names.map TypeNode.atom),
      item.Sorted ∧ item.nesting ≤ 0 ∧ item.FloatsReadBack := by
    rw [TypeNode.itemsToJson_eq, List.map_map]
    intro item hitem
    obtain ⟨name, -, rfl⟩ := List.mem_map.mp hitem
    exact ⟨trivial, le_rfl, trivial⟩
  have hnesting := Json.itemsNesting_le_iff.mpr fun item h => (hitem item h).2.1
  exact ⟨Json.itemsSorted_iff.mpr fun item h => (hitem item h).1,
    (Nat.succ_le_succ hnesting).trans (by decide),
    Json.itemsReadBack_iff.mpr fun item h => (hitem item h).2.2⟩

lemma readable_turnedRow {documents : List Json} {s : List TypeNode × Json}
    (hs : s ∈ signatures documents) (h : (TypeNode.signatureKey s.1).Readable) (reverse : Bool) :
    (turnedRow reverse s).Readable := by
  refine ⟨h.mono ?_, ?_⟩
  · rw [TypeNode.itemsToJson_eq, TypeNode.itemsToJson_eq]
    exact List.map_subset _ (turned_subset reverse s.1)
  · obtain ⟨d, -, hs⟩ := List.mem_flatMap.mp hs
    obtain ⟨member, -, hmember⟩ := List.mem_filterMap.mp hs
    obtain ⟨nodes, -, rfl⟩ := Option.map_eq_some_iff.mp hmember
    exact readable_entryJson member.name d.key

/-- Only the types of a signature can keep a row from being read back. -/
lemma readable_documentRows {documents : List Json}
    (h : ∀ s ∈ signatures documents, (TypeNode.signatureKey s.1).Readable) (view : View) :
    ∀ row ∈ documentRows view documents, row.Readable := by
  have hsignatures (reverse : Bool) (scan : Scan) :
      ∀ row ∈ documentRows (turnedPlan reverse scan).view documents, row.Readable := by
    intro row hrow
    rw [documentRows_signature] at hrow
    obtain ⟨s, hs, rfl⟩ := List.mem_map.mp hrow
    exact readable_turnedRow hs (h s hs) reverse
  cases view with
  | byName =>
    intro row hrow
    rw [documentRows_byName] at hrow
    obtain ⟨e, -, rfl⟩ := List.mem_map.mp hrow
    exact ⟨readable_nameKey e.name e.kind, e.owner.readable_toJson⟩
  | bySignature => exact hsignatures false (.exact .null 0)
  | bySignatureReverse => exact hsignatures true (.exact .null 0)
  | byAssembly => exact readable_byAssembly documents
  | byTypeAssembly => exact readable_byTypeAssembly documents

/-! ### Searches -/

lemma SearchOptions.effectiveLimit_le (options : SearchOptions) (limit : ℕ) :
    options.effectiveLimit limit ≤ limit := by
  unfold effectiveLimit
  split
  · exact min_le_right _ _
  · exact le_rfl

namespace Plan

/-- Whatever the plan is, it asks for as many rows as are wanted. -/
lemma limit_ofQuery {query : Query} {limit : ℕ} {plan : Plan}
    (h : ofQuery query limit = .scan plan) : plan.scan.limit = limit := by
  unfold ofQuery at h
  split at h
  · cases h
  · cases h
    rfl
  · cases h
    exact limit_ofPrototype _ limit
  · cases h

end Plan

/-- Stores that are scanned alike up to the limit are searched alike. -/
lemma Engine.search_of_scans {limit : ℕ} {scans others : Scanner}
    (h : ∀ view scan, scan.limit ≤ limit → scans view scan = others view scan) (text : String)
    (options : SearchOptions) :
    (Engine.mk scans limit).search text options = (Engine.mk others limit).search text options := by
  unfold search
  cases Query.parse text with
  | error error => rfl
  | ok query =>
    cases hplan : Plan.ofQuery query (options.effectiveLimit limit) with
    | nothing => simp only [hplan]
    | conflict => simp only [hplan]
    | scan plan =>
      have hlimit : plan.scan.limit ≤ limit := by
        rw [Plan.limit_ofQuery hplan]
        exact options.effectiveLimit_le limit
      simp only [hplan, h plan.view plan.scan hlimit]

section OnDisk

variable {documents : List Json}
  (hread : ∀ s ∈ signatures documents, (TypeNode.signatureKey s.1).Readable) {limit : ℕ}
  (hcount : ∀ view, min limit (documentRows view documents).length ≤ Database.maxRows)
include hread hcount

/-- A store that answers scans like a database with the batches of the documents is searched like a
store in memory, which may have got them in other batches. -/
lemma Engine.search_of_holds {database : Database} {n : ℕ}
    (hholds : database.Holds ((Build.ofDocuments documents n).allBatches.flatMap Batch.items))
    {scans : Scanner} (hscans : ∀ view scan, scans view scan = database.scan view scan) (m : ℕ)
    (text : String) (options : SearchOptions) :
    (Engine.mk scans limit).search text options =
      ((MemoryStore.empty.write documents m).1.engine limit).search text options := by
  refine search_of_scans (fun view scan hlimit => ?_) text options
  have hrows : min scan.limit (documentRows view documents).length ≤ Database.maxRows :=
    (min_le_min_right _ hlimit).trans (hcount view)
  have hdisk := hholds.scan_documents (readable_documentRows hread view) hrows
  have hmemory := MemoryStore.scan_write documents m view scan
  exact (hscans view scan).trans (hdisk.trans (congrArg Except.ok hmemory.symm))

/-- An index on disk, which was empty before documents were written into it, answers every search as
a store in memory does that holds the same documents: with the same rows in the same order, whatever
the size of the batches was on either side. Rows on disk are numbered by 63 bits. -/
theorem search_on_disk {store : IndexStore} {disk : Disk} {number : ℕ} {database : Database}
    (hplace : store.InPlace disk ⟨number, database, .none⟩) (hempty : database.rows = [])
    (n m : ℕ) (text : String) (options : SearchOptions) :
    (store.engine ((Session.start store disk).perform (.write (.ok documents) n)).2.disk
        limit).search text options =
      ((MemoryStore.empty.write documents m).1.engine limit).search text options := by
  have hholds := Database.holds_insertBatches hempty (Build.ofDocuments documents n).allBatches
  exact Engine.search_of_holds hread hcount hholds (hplace.scan_write documents n) m text options

/-- After a rebuild that succeeded, whatever had been indexed before, every search is answered from
the documents of the catalog alone. -/
theorem search_rebuilt {store : IndexStore} {disk disk' : Disk} {locked : Option ℕ}
    {paths : List String} (hcatalog : CatalogFile.readAll disk paths = .ok documents) {n : ℕ}
    {stats : IndexStats} (h : store.rebuild disk locked paths n = (disk', .ok stats)) (m : ℕ)
    (text : String) (options : SearchOptions) :
    (store.engine disk' limit).search text options =
      ((MemoryStore.empty.write documents m).1.engine limit).search text options := by
  obtain ⟨_, _, file, hread', -, hwritable, rfl, -⟩ := IndexStore.writable_of_rebuild h
  obtain rfl := Except.ok.inj (hcatalog.symm.trans hread')
  have hholds : (file.database.rebuilt store.format documents n).Holds
      ((Build.ofDocuments documents n).allBatches.flatMap Batch.items) :=
    Database.holds_insertBatches rfl _
  exact Engine.search_of_holds hread hcount hholds hwritable.answers.scan m text options

end OnDisk

/-- On disk too, `a -> _` finds `g` of the sample. -/
theorem search_on_disk_sample :
    ((IndexStore.under "r").engine ((Session.start (IndexStore.under "r") sampleDisk).perform
        (.write (.ok [sampleType.toJson]) 2)).2.disk 10).search ": a -> _" .none =
      .ok ⟨": a -> _", none, none, some "a -> _", some (.bySignature
        [⟨.array [.string "a", .string "b"],
          .object [("name", .string "g"), ("type", sampleOwner)], some "a -> b"⟩])⟩ := by
  have hinit : (IndexStore.under "r").init .empty none = (sampleDisk, .ok ()) :=
    Prod.ext rfl (by decide +kernel)
  have hplace : (IndexStore.under "r").InPlace sampleDisk ⟨0, .empty, .none⟩ :=
    IndexStore.inPlace_of_init (by decide +kernel) hinit (by decide +kernel) (by decide +kernel) rfl
  have hread : ∀ s ∈ signatures [sampleType.toJson], (TypeNode.signatureKey s.1).Readable := by
    intro s hs
    have hs : s.1 ∈ [["a"], ["a", "b"], ["c", "b"]].map (List.map TypeNode.atom) :=
      List.mem_map_of_mem (f := Prod.fst) hs
    obtain ⟨names, -, hnames⟩ := List.mem_map.mp hs
    exact hnames ▸ readable_atoms names
  have hcount : ∀ view,
      min 10 (documentRows view [sampleType.toJson]).length ≤ Database.maxRows := fun view =>
    (min_le_left _ _).trans (by decide)
  have hsorted : sortedSignatures false (signatures [sampleType.toJson]) =
      signatures [sampleType.toJson] := List.mergeSort_of_pairwise (by decide)
  have hmemory := search_signature
    (show Query.parse ": a -> _" = .ok ⟨none, some [.atom "a", .atom "_"]⟩ from rfl)
    [sampleType.toJson] 1 10 .none
    (show Plan.ofPrototype [.atom "a", .atom "_"] 10 = turnedPlan false _ from rfl)
  rw [hsorted] at hmemory
  exact (search_on_disk hread hcount hplace rfl 2 1 ": a -> _" .none).trans
    (hmemory.trans (by decide))

end SignatureSearch
