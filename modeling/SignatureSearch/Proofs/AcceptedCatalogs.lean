import Mathlib
import SignatureSearch.Proofs.FormNesting
import SignatureSearch.Proofs.Lookups

/-! Catalogs that are accepted. Whatever could be read from a text can be read again from the index
on disk: after any run that writes only such documents, every scan succeeds. -/
namespace SignatureSearch

/-- The row that the texts of a row are read as. -/
def Row.reread (row : Row) : Row := ⟨row.key.reread, row.value.reread⟩

/-! ### Databases -/

namespace Database

def Decodes (d : Database) : Prop := ∀ row ∈ d.rows, ∃ read, decodeRow row = .ok read

variable {d : Database}

lemma decodes_of_empty (h : d.rows = []) : d.Decodes := by
  intro row hrow
  rw [h] at hrow
  cases hrow

lemma decodeRow_fits {row : Row} (h : row.Fits) (view : View) :
    decodeRow (storedRow view row) = .ok row.reread := by
  rw [decodeRow, storedRow]
  simp only [Json.read?_text_reread h.key, Json.read?_text_reread h.value]
  rfl

lemma mapM_decodeRow_fits {rows : List Row} (h : ∀ row ∈ rows, row.Fits) (view : View) :
    (rows.map (storedRow view)).mapM decodeRow = .ok (rows.map Row.reread) := by
  refine mapM_ok_iff.mpr ?_
  rw [List.forall₂_map_left_iff, List.forall₂_map_right_iff, List.forall₂_same]
  exact fun row hrow => decodeRow_fits (h row hrow) view

/-- A scan decodes only rows that are stored. -/
lemma Decodes.scan (h : d.Decodes) (view : View) (scan : Scan) :
    ∃ rows, d.scan view scan = .ok rows := by
  have hselect : ∀ row ∈ d.select view scan, ∃ read, decodeRow row = .ok read := fun row hrow =>
    h row (List.mem_filter.mp (List.mem_mergeSort.mp (List.mem_of_mem_take hrow))).1
  rw [Database.scan]
  generalize d.select view scan = selected at hselect
  induction selected with
  | nil => exact ⟨[], rfl⟩
  | cons row rest ih =>
    obtain ⟨hrow, hrest⟩ := List.forall_mem_cons.mp hselect
    obtain ⟨read, hread⟩ := hrow
    obtain ⟨rows, hrows⟩ := ih hrest
    exact ⟨read :: rows, by rw [List.mapM_cons, hread, hrows]; rfl⟩

lemma Decodes.insert (h : d.Decodes) (view : View) {rows : List Row}
    (hrows : ∀ row ∈ rows, row.Fits) : (d.insert view rows).Decodes := by
  intro stored hstored
  rcases List.mem_append.mp hstored with hstored | hstored
  · exact h stored hstored
  · obtain ⟨row, hrow, rfl⟩ := List.mem_map.mp hstored
    exact ⟨_, decodeRow_fits (hrows row hrow) view⟩

lemma Decodes.insertBatches (h : d.Decodes) {batches : List Batch}
    (hb : ∀ b ∈ batches, ∀ row ∈ b.rows, row.Fits) : (d.insertBatches batches).Decodes := by
  induction batches generalizing d with
  | nil => exact h
  | cons b batches ih =>
    obtain ⟨hfirst, hrest⟩ := List.forall_mem_cons.mp hb
    exact ih (h.insert b.view hfirst) hrest

end Database

/-! ### Documents -/

namespace Catalog

/-- Documents that were read from texts. -/
def Accepted (documents : List Json) : Prop := ∀ document ∈ documents,
  ∃ text accepted, readDocuments? text = some accepted ∧ document ∈ accepted

variable {documents : List Json}

lemma accepted_of_text {text : String} (h : readDocuments? text = some documents) :
    Accepted documents := fun _ hdocument => ⟨text, documents, h, hdocument⟩

lemma Accepted.fits_rows (h : Accepted documents) (view : View) :
    ∀ row ∈ documentRows view documents, row.Fits := by
  refine fits_documentRows (fun document hdocument => ?_) view
  obtain ⟨text, accepted, haccepted, hmem⟩ := h document hdocument
  exact nesting_readDocuments haccepted document hmem

lemma Accepted.fits_batches (h : Accepted documents) (batchSize : ℕ) :
    ∀ b ∈ (Build.ofDocuments documents batchSize).allBatches, ∀ row ∈ b.rows, row.Fits := by
  intro b hb row hrow
  refine h.fits_rows b.view row ?_
  rw [← Build.viewRows_allBatches documents batchSize, viewRows]
  have hitem : (b.view, row) ∈ b.items := List.mem_map_of_mem hrow
  exact List.mem_map.mpr ⟨(b.view, row),
    List.mem_filter.mpr ⟨List.mem_flatMap.mpr ⟨b, hb, hitem⟩, beq_self_eq_true _⟩, rfl⟩

lemma accepted_of_readAll {d : Disk} {paths : List String}
    (h : CatalogFile.readAll d paths = .ok documents) : Accepted documents := by
  obtain ⟨lists, contents, -, hcontents, rfl⟩ := CatalogFile.readAll_ok_iff.mp h
  intro document hdocument
  obtain ⟨content, hcontent, hdocument⟩ := List.mem_flatten.mp hdocument
  obtain ⟨file, hfile⟩ := exists_of_forall₂ hcontents.flip hcontent
  obtain ⟨text, -, htext⟩ := CatalogFile.readDocuments_ok_iff.mp hfile
  exact ⟨text, content, htext, hdocument⟩

end Catalog

/-! ### Runs -/

/-- The operation reads, or writes in transactions only what was accepted. -/
def Session.Operation.WritesAccepted : Session.Operation → Prop
  | .insert _ rows => ∀ row ∈ rows, row.Fits
  | .write (.ok documents) _ => Catalog.Accepted documents
  | operation => operation.IsTransactional

lemma Session.Operation.WritesAccepted.isTransactional {operation : Session.Operation}
    (h : operation.WritesAccepted) : operation.IsTransactional := by
  cases operation with
  | write documents batchSize => trivial
  | insert view rows => trivial
  | _ => exact h

/-- Every row can be read, whether it has been committed or not. -/
structure History.Decodes (h : History) : Prop where
  committed : h.committed.Decodes
  pending : ∀ copy ∈ h.pending, copy.Decodes

namespace History

variable {h : History}

lemma decodes_settled {d : Database} (hd : d.Decodes) : (History.mk d none).Decodes := by
  refine ⟨hd, fun copy hcopy => ?_⟩
  cases hcopy

lemma Decodes.write (hd : h.Decodes) {f : Database → Database}
    (hf : ∀ d : Database, d.Decodes → (f d).Decodes) : (h.write f).Decodes := by
  obtain ⟨committed, pending⟩ := h
  obtain ⟨hcommitted, hpending⟩ := hd
  cases pending with
  | none => exact decodes_settled (hf _ hcommitted)
  | some copy =>
    refine ⟨hcommitted, fun copy' hcopy' => ?_⟩
    cases hcopy'
    exact hf _ (hpending copy rfl)

lemma Decodes.after (hd : h.Decodes) {operation : Session.Operation}
    (ho : operation.WritesAccepted) (format : String) : (h.after format operation).Decodes := by
  cases operation with
  | begin =>
    refine ⟨hd.committed, fun copy hcopy => ?_⟩
    cases hcopy
    exact hd.committed
  | commit =>
    refine decodes_settled ?_
    cases hpending : h.pending with
    | none => simpa using hd.committed
    | some copy => simpa using hd.pending copy hpending
  | rollback => exact decodes_settled hd.committed
  | insert view rows => exact hd.write fun d hdecodes => hdecodes.insert view ho
  | write documents batchSize =>
    cases documents with
    | error failure => exact hd
    | ok documents =>
      have haccepted : Catalog.Accepted documents := ho
      exact hd.write fun d hdecodes => hdecodes.insertBatches (haccepted.fits_batches batchSize)
  | clearRows => exact hd.write fun d _ => Database.decodes_of_empty rfl
  | recordStats types members skipped =>
    exact hd.write (f := fun d => d.recordStats format types members skipped)
      fun d hdecodes => hdecodes
  | _ => exact hd

lemma Decodes.afterAll (hd : h.Decodes) {operations : List Session.Operation}
    (ho : ∀ operation ∈ operations, operation.WritesAccepted) (format : String) :
    (operations.foldl (History.after format) h).Decodes := by
  induction operations generalizing h with
  | nil => exact hd
  | cons operation rest ih =>
    obtain ⟨hoperation, hrest⟩ := List.forall_mem_cons.mp ho
    exact ih (hd.after hoperation format) hrest

end History

namespace IndexStore

/-- After a run that writes only what was accepted, every scan succeeds. -/
lemma InPlace.scan_run {store : IndexStore} {disk : Disk} {number : ℕ} {database : Database}
    (h : store.InPlace disk ⟨number, database, .none⟩) (hdecodes : database.Decodes)
    {operations : List Session.Operation}
    (ho : ∀ operation ∈ operations, operation.WritesAccepted) (view : View) (scan : Scan) :
    ∃ rows, store.scan ((Session.start store disk).run operations).2.disk view scan = .ok rows := by
  obtain ⟨-, number', hplace, -⟩ := (Session.start_holds h).run operations
    fun operation hoperation => (ho operation hoperation).isTransactional
  obtain ⟨rows, hrows⟩ :=
    ((History.decodes_settled hdecodes).afterAll ho store.format).committed.scan view scan
  exact ⟨rows, (hplace.scan view scan).trans hrows⟩

/-- Documents that are written into an empty index are scanned as their texts are read. -/
lemma InPlace.scan_accepted {store : IndexStore} {disk : Disk} {number : ℕ} {database : Database}
    (h : store.InPlace disk ⟨number, database, .none⟩) (hempty : database.rows = [])
    {documents : List Json} (hd : Catalog.Accepted documents) (batchSize : ℕ) (view : View)
    (scan : Scan) :
    store.scan ((Session.start store disk).perform (.write (.ok documents) batchSize)).2.disk
        view scan =
      .ok (((scan.answer (documentRows view documents)).take Database.maxRows).map
        Row.reread) := by
  have hholds := Database.holds_insertBatches hempty
    (Build.ofDocuments documents batchSize).allBatches
  rw [h.scan_write, Database.scan, hholds.select_take, Build.viewRows_allBatches]
  refine Database.mapM_decodeRow_fits (fun row hrow => hd.fits_rows view row ?_) view
  exact List.mem_mergeSort.mp
    (List.mem_filter.mp (List.mem_of_mem_take (List.mem_of_mem_take hrow))).1

lemma scan_rebuilt {s : IndexStore} {d d' : Disk} {locked : Option ℕ} {paths : List String} {n : ℕ}
    {stats : IndexStats} (h : s.rebuild d locked paths n = (d', .ok stats)) (view : View)
    (scan : Scan) : ∃ rows, s.scan d' view scan = .ok rows := by
  obtain ⟨documents, d₁, file, hread, -, hw, rfl, -⟩ := writable_of_rebuild h
  have haccepted := Catalog.accepted_of_readAll hread
  have hcleared : file.database.clearRows.Decodes := Database.decodes_of_empty rfl
  have hrebuilt : (file.database.rebuilt s.format documents n).Decodes :=
    hcleared.insertBatches (haccepted.fits_batches n)
  rw [hw.answers.scan]
  exact hrebuilt.scan view scan

end IndexStore

/-- Whatever is accepted can be read back. The form of a node nests no deeper than the node, known
or unknown, so the keys and values of the rows of a text nest at most 127 containers. Written into
an index that could be read, with other accepted texts before and after, in transactions that are
committed or not, they leave an index of which every scan succeeds, and so does every scan after a
rebuild. Of an index that was empty, a scan gives just the rows that it must find, as their texts
are read: with every binary64 number as its decimal is read. -/
theorem accepted_readable {text : String} {documents : List Json}
    (h : Catalog.readDocuments? text = some documents) :
    (∀ v : Json, (CatalogNode.ofJson v).normalize.toJson.nesting ≤ v.nesting) ∧
    (∀ view, ∀ row ∈ documentRows view documents,
      row.key.nesting ≤ 127 ∧ row.value.nesting ≤ 127) ∧
    (∀ (store : IndexStore) (disk : Disk) (number : ℕ) (database : Database),
      store.InPlace disk ⟨number, database, .none⟩ → ∀ (batchSize : ℕ) (view : View) (scan : Scan),
      (database.Decodes → ∀ before after : List Session.Operation,
        (∀ operation ∈ before ++ after, operation.WritesAccepted) →
        ∃ rows, store.scan ((Session.start store disk).run
          (before ++ .write (.ok documents) batchSize :: after)).2.disk view scan = .ok rows) ∧
      (database.rows = [] →
        store.scan ((Session.start store disk).perform (.write (.ok documents) batchSize)).2.disk
            view scan =
          .ok (((scan.answer (documentRows view documents)).take Database.maxRows).map
            Row.reread))) ∧
    ∀ (store : IndexStore) (disk disk' : Disk) (locked : Option ℕ) (paths : List String) (n : ℕ)
      (stats : IndexStats), store.rebuild disk locked paths n = (disk', .ok stats) →
      ∀ view scan, ∃ rows, store.scan disk' view scan = .ok rows := by
  have haccepted := Catalog.accepted_of_text h
  refine ⟨CatalogNode.nesting_form, fun view row hrow => ?_, ?_, ?_⟩
  · have hfits := haccepted.fits_rows view row hrow
    exact ⟨hfits.key, hfits.value⟩
  · intro store disk number database hplace batchSize view scan
    refine ⟨fun hdecodes before after ho => hplace.scan_run hdecodes ?_ view scan,
      fun hempty => hplace.scan_accepted hempty haccepted batchSize view scan⟩
    intro operation hoperation
    rcases List.mem_append.mp hoperation with hbefore | hrest
    · exact ho operation (List.mem_append_left _ hbefore)
    · rcases List.mem_cons.mp hrest with rfl | hafter
      · exact haccepted
      · exact ho operation (List.mem_append_right _ hafter)
  · intro store disk disk' locked paths n stats hrebuild view scan
    exact IndexStore.scan_rebuilt hrebuild view scan

/-- A type with a method. In the prototype there are a tuple, with its body in array form, and a
value of another shape that holds a binary64 number. -/
def acceptedText : String :=
  "\x7b\"type\":\"type\",\"name\":\"M\",\"methods\":[\x7b\"name\":\"f\",\"prototype\":[" ++
    "\x7b\"tuple\":[[\x7b\"keyword\":\x7b\"name\":\"a\"\x7d\x7d]]\x7d,\x7b\"x\":1.5\x7d]\x7d]\x7d"

def threeHalves : Json := .number (.float ⟨false, 0x3FF8 <<< 48, by decide⟩)

def acceptedDocuments : List Json :=
  [.object [("methods", .array [.object [("name", .string "f"), ("prototype", .array
      [.object
          [("tuple", .array [.array [.object [("keyword", .object [("name", .string "a")])]]])],
        .object [("x", threeHalves)]])]]),
    ("name", .string "M"), ("type", .string "type")]]

theorem accepted_readable_sample :
    let key := .array [.object [("tuple", .array [.string "a"])], .object [("x", threeHalves)]]
    (IndexStore.under "r").scan ((Session.start (IndexStore.under "r") sampleDisk).perform
          (.write (.ok acceptedDocuments) 1)).2.disk .bySignature (.exact key 5) =
        .ok [⟨key, DocumentRows.entryJson "f" ⟨"", "", "M"⟩⟩] ∧
      ∃ rows, (IndexStore.under "r").scan ((Session.start (IndexStore.under "r") sampleDisk).run
          [.begin, .write (.ok acceptedDocuments) 1, .commit]).2.disk .byName
          (.exact (DocumentRows.nameKey "M" .type) 5) = .ok rows := by
  intro key
  have hinit : (IndexStore.under "r").init .empty none = (sampleDisk, .ok ()) :=
    Prod.ext rfl (by decide +kernel)
  have hplace : (IndexStore.under "r").InPlace sampleDisk ⟨0, .empty, .none⟩ :=
    IndexStore.inPlace_of_init (by decide +kernel) hinit (by decide +kernel) (by decide +kernel) rfl
  have hread : Catalog.readDocuments? acceptedText = some acceptedDocuments := by decide +kernel
  have hwritten := (accepted_readable hread).2.2.1 _ _ _ _ hplace 1
  refine ⟨((hwritten .bySignature (.exact key 5)).2 rfl).trans ?_,
    (hwritten .byName _).1 (Database.decodes_of_empty rfl) [.begin] [.commit] ?_⟩
  · decide +kernel
  · simp [Session.Operation.WritesAccepted, Session.Operation.IsTransactional]

end SignatureSearch
