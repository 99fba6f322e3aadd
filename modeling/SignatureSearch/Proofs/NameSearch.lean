import Mathlib
import SignatureSearch.Proofs.NameRanges
import SignatureSearch.Proofs.SignatureRows

/-! Searches by name. A name finds the entries whose names begin with it, in the order of their
names, but not those that go on with a character from `highSuffix` on: these stand above the upper
bound of the scan. -/
namespace SignatureSearch

/-- A name in the catalog: of a type or of a member, with the type that owns it. -/
structure NameEntry where
  name : String
  kind : MemberKind
  owner : MemberKey
  deriving DecidableEq

/-- The names in the documents, in order: that of each type before those of its members. -/
def nameEntries (documents : List Json) : List NameEntry :=
  (documents.filterMap CatalogDocument.converted?).flatMap fun d =>
    ⟨d.name, .type, d.key⟩ :: d.members.map fun member => ⟨member.2.name, member.1, d.key⟩

namespace NameEntry

/-- By code points of the name, then by the text of the kind. -/
def order (a b : NameEntry) : Ordering :=
  (Json.compareText a.name b.name).then (Json.compareText a.kind.text b.kind.text)

def row (e : NameEntry) : Row := ⟨DocumentRows.nameKey e.name e.kind, e.owner.toJson⟩

def shown (e : NameEntry) : ResultRow :=
  ⟨DocumentRows.nameKey e.name e.kind, e.owner.toJson, none⟩

end NameEntry

/-- Entries in order; those of one name and kind stay as they are. -/
def sortedEntries (entries : List NameEntry) : List NameEntry :=
  entries.mergeSort fun a b => a.order b != .gt

/-- The answer to a search for a name. -/
def nameResponse (text : String) (options : SearchOptions) (name : String)
    (found : List NameEntry) : SearchResponse :=
  ⟨text, options.token, some name, none, some (.byName (found.map NameEntry.shown))⟩

lemma collate_nameKey (a b : NameEntry) :
    (DocumentRows.nameKey a.name a.kind).collate (DocumentRows.nameKey b.name b.kind) =
      a.order b := by
  rw [Json.collate_eq_order]
  simp only [DocumentRows.nameKey, Json.order, Json.orderItems, Ordering.then_eq, NameEntry.order]

lemma documentRows_byName (documents : List Json) :
    documentRows .byName documents = (nameEntries documents).map NameEntry.row := by
  unfold documentRows nameEntries
  rw [List.map_flatMap]
  refine congrArg (List.flatMap · _) (funext fun d => ?_)
  simp [DocumentRows.inView, DocumentRows.ofDocument, NameEntry.row]

lemma covers_nameKey (name : String) (limit : ℕ) (e : NameEntry) :
    (Plan.ofName name limit).scan.covers (DocumentRows.nameKey e.name e.kind).encode = true ↔
      Json.Continues name e.name := by
  have hfree : Json.ItemsNumberFree [] := trivial
  refine (Json.covers_name hfree name [.string e.name, .string e.kind.text] limit).trans ?_
  constructor
  · rintro ⟨more, rfl, s, rest, hitems, h⟩
    rw [List.cons.injEq, Json.string.injEq] at hitems
    obtain ⟨rfl, rfl⟩ := hitems
    -- The kind stands behind the name, so the name is not the bound itself.
    exact h.resolve_right (by simp)
  · intro h
    exact ⟨_, rfl, e.name, [.string e.kind.text], rfl, .inl h⟩

/-- A scan for a name finds the entries that continue it, in order and up to the limit. -/
lemma scan_ofName (documents : List Json) (batchSize limit : ℕ) (name : String) :
    (MemoryStore.empty.write documents batchSize).1.scan .byName (Plan.ofName name limit).scan =
      (((sortedEntries (nameEntries documents)).filter fun e =>
        Json.Continues name e.name).take limit).map NameEntry.row := by
  have hsort : (fun a b : NameEntry => a.row.key.collatesUpTo b.row.key) =
      fun a b => a.order b != .gt := by
    funext a b
    rw [Json.collatesUpTo, NameEntry.row, NameEntry.row, collate_nameKey]
  have hcovers : (fun e : NameEntry =>
      (Plan.ofName name limit).scan.covers e.row.key.encode) =
        fun e => decide (Json.Continues name e.name) := by
    funext e
    rw [Bool.eq_iff_iff, decide_eq_true_iff]
    exact covers_nameKey name limit e
  rw [MemoryStore.scan_write, documentRows_byName, answer_map, hsort, hcovers, ← sortedEntries]
  rfl

lemma search_continued (documents : List Json) (batchSize limit : ℕ) (options : SearchOptions)
    {text name : String} (ht : Lexeme.tokenize text = [.name name]) :
    ((MemoryStore.empty.write documents batchSize).1.engine limit).search text options =
      .ok (nameResponse text options name
        (((sortedEntries (nameEntries documents)).filter fun e =>
          Json.Continues name e.name).take (options.effectiveLimit limit))) := by
  have hq : Query.parse text = .ok (.ofName name) := by
    rw [Query.parse, ht]
    rfl
  have hscan := scan_ofName documents batchSize (options.effectiveLimit limit) name
  unfold Engine.search
  rw [hq]
  simp only [Query.ofName, Plan.ofQuery, MemoryStore.engine]
  rw [show (Plan.ofName name (options.effectiveLimit limit)).view = .byName from rfl, hscan]
  simp only [Plan.shapeRows, Plan.ofName, List.map_map]
  rfl

/-- A query of one name finds the entries whose names are that name or go on behind it with a
character below `highSuffix`: each once, by code points of the name, then by the text of the kind,
then in the order of the documents. -/
theorem search_name (documents : List Json) (batchSize limit : ℕ) (options : SearchOptions)
    {text name : String} (ht : Lexeme.tokenize text = [.name name])
    (hlimit : (nameEntries documents).length ≤ options.effectiveLimit limit) :
    ((MemoryStore.empty.write documents batchSize).1.engine limit).search text options =
      .ok (nameResponse text options name
        ((sortedEntries (nameEntries documents)).filter fun e => Json.Continues name e.name)) := by
  have hlength : ((sortedEntries (nameEntries documents)).filter fun e =>
      Json.Continues name e.name).length ≤ options.effectiveLimit limit := by
    refine (List.length_filter_le _ _).trans ?_
    rw [sortedEntries, List.length_mergeSort]
    exact hlimit
  rw [search_continued documents batchSize limit options ht, List.take_of_length_le hlength]

/-- Of the sample, `f` finds the method of that name. -/
theorem search_name_sample :
    ((MemoryStore.empty.write [sampleType.toJson] 2).1.engine 10).search "f" .none =
      .ok ⟨"f", none, some "f", none, some (.byName
        [⟨.array [.string "f", .string "method"],
          MemberKey.toJson ⟨"1", "N", "M"⟩, none⟩])⟩ := by
  have hentries : nameEntries [sampleType.toJson] =
      [⟨"M", .type, ⟨"1", "N", "M"⟩⟩, ⟨"f", .method, ⟨"1", "N", "M"⟩⟩,
        ⟨"g", .method, ⟨"1", "N", "M"⟩⟩, ⟨"h", .method, ⟨"1", "N", "M"⟩⟩] := rfl
  have hsorted : sortedEntries (nameEntries [sampleType.toJson]) =
      nameEntries [sampleType.toJson] := by
    rw [hentries]
    exact List.mergeSort_of_pairwise (by decide)
  have h := search_name [sampleType.toJson] 2 10 .none
    (show Lexeme.tokenize "f" = [.name "f"] from rfl) (by rw [hentries]; decide)
  rw [hsorted, hentries] at h
  exact h.trans rfl

def astralType : CatalogDocument := { sampleType with name := "a😀", methods := [] }

/-- The name begins with `a`, but the search for `a` does not find it: it stands above the upper
bound of `a`. -/
theorem search_name_above_bound :
    Lexeme.tokenize "a" = [.name "a"] ∧
      nameEntries [astralType.toJson] = [⟨"a😀", .type, ⟨"1", "N", "a😀"⟩⟩] ∧
      "a".toList <+: "a😀".toList ∧ Json.compareText "a😀" (upperBound "a") = .gt ∧
      ((MemoryStore.empty.write [astralType.toJson] 2).1.engine 10).search "a" .none =
        .ok (nameResponse "a" .none "a" []) := by
  have hentries : nameEntries [astralType.toJson] = [⟨"a😀", .type, ⟨"1", "N", "a😀"⟩⟩] := rfl
  have hsearch := search_continued [astralType.toJson] 2 10 .none
    (show Lexeme.tokenize "a" = [.name "a"] from rfl)
  rw [hentries, sortedEntries, List.mergeSort_singleton] at hsearch
  exact ⟨rfl, hentries, by decide, by decide, hsearch⟩

end SignatureSearch
