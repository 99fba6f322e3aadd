import Mathlib
import SignatureSearch.Proofs.CatalogShapes
import SignatureSearch.Proofs.PrintableText
import SignatureSearch.Render

/-! Answers in colour. Colours put sequences around parts of the text and nothing else: without its
sequences a coloured answer is the plain one. -/
namespace SignatureSearch

namespace Style

/-! ### Texts without sequences -/

def isParameter (c : Char) : Bool := c.isDigit || c == ';'

/-- How long the sequence is that a text begins with; zero if it begins with none. -/
def sequenceLength : List Char → ℕ
  | '\x1b' :: '[' :: cs =>
    if (cs.dropWhile isParameter).head? = some 'm' then (cs.takeWhile isParameter).length + 3
    else 0
  | _ => 0

/-- The text without its sequences; the next `skip` characters belong to one. -/
def dropSequences : ℕ → List Char → List Char
  | _, [] => []
  | skip + 1, _ :: cs => dropSequences skip cs
  | 0, c :: cs =>
    match sequenceLength (c :: cs) with
    | 0 => c :: dropSequences 0 cs
    | rest + 1 => dropSequences rest cs

def plain (s : String) : String := String.ofList (dropSequences 0 s.toList)

lemma sequenceLength_of_ne {c : Char} (h : c ≠ '\x1b') (cs : List Char) :
    sequenceLength (c :: cs) = 0 := by
  unfold sequenceLength
  split
  · next heq => exact absurd (List.cons.inj heq).1 h
  · rfl

lemma dropSequences_append (cs rest : List Char) :
    dropSequences cs.length (cs ++ rest) = dropSequences 0 rest := by
  induction cs with
  | nil => rfl
  | cons c cs ih => exact ih

/-- A text without escape characters. -/
def Clean (s : String) : Prop := '\x1b' ∉ s.toList

instance (s : String) : Decidable (Clean s) := inferInstanceAs (Decidable ('\x1b' ∉ s.toList))

lemma Clean.append {a b : String} (h : Clean a) (g : Clean b) : Clean (a ++ b) := by
  rw [Clean, String.toList_append, List.mem_append, not_or]
  exact ⟨h, g⟩

lemma Clean.of_printable {s : String} (h : Printable s.toList) : Clean s :=
  fun hs => absurd (h _ hs) (by decide)

/-- In front of any other text, only sequences have to be dropped to get the second text from the
first. -/
def Fades (colored text : String) : Prop :=
  ∀ rest : List Char,
    dropSequences 0 (colored.toList ++ rest) = text.toList ++ dropSequences 0 rest

namespace Fades

variable {a b x y : String}

lemma plain_eq (h : Fades a x) : plain a = x := by
  have hall := h []
  rw [List.append_nil, dropSequences, List.append_nil] at hall
  rw [plain, hall, String.ofList_toList]

lemma append (h : Fades a x) (g : Fades b y) : Fades (a ++ b) (x ++ y) := by
  intro rest
  rw [String.toList_append, String.toList_append, List.append_assoc, h, g, List.append_assoc]

lemma of_clean {s : String} (h : Clean s) : Fades s s := by
  intro rest
  unfold Clean at h
  generalize s.toList = cs at h ⊢
  induction cs with
  | nil => rfl
  | cons c cs ih =>
    obtain ⟨hc, hcs⟩ := not_or.mp (List.mem_cons.not.mp h)
    rw [List.cons_append, dropSequences, sequenceLength_of_ne (Ne.symm hc), ih hcs]
    rfl

lemma sequence {code : String} (h : code.toList.all isParameter = true) :
    Fades (sequence code) "" := by
  intro rest
  have hcode := List.all_eq_true.mp h
  have hlength : sequenceLength ('\x1b' :: '[' :: (code.toList ++ 'm' :: rest)) =
      code.toList.length + 3 := by
    rw [sequenceLength, List.takeWhile_append_of_pos hcode, List.dropWhile_append_of_pos hcode]
    simp [isParameter]
  have hskip := dropSequences_append ('[' :: (code.toList ++ ['m'])) rest
  have htext : (Style.sequence code).toList ++ rest =
      '\x1b' :: '[' :: (code.toList ++ 'm' :: rest) := by
    simp [Style.sequence]
  rw [List.cons_append, List.append_assoc, List.singleton_append, List.length_cons,
    List.length_append, List.length_singleton] at hskip
  rw [htext, dropSequences, hlength]
  exact hskip

/-- Inside a text the end of an attribute is dropped like its beginning. -/
lemma enclose {first last : String} (hf : first.toList.all isParameter = true)
    (hl : last.toList.all isParameter = true) (h : Fades a x) :
    Fades (enclose true first last a) (enclose false first last x) := by
  have hall := ((Fades.sequence hf).append h).append (Fades.sequence hl)
  rwa [String.empty_append, String.append_empty] at hall

lemma bold (h : Fades a x) : Fades (bold true a) (bold false x) :=
  .enclose (by decide) (by decide) h

lemma dimmed (h : Fades a x) : Fades (dimmed true a) (dimmed false x) :=
  .enclose (by decide) (by decide) h

lemma colored {code : String} (hc : code.toList.all isParameter = true) (h : Fades a x) :
    Fades (colored true code a) (colored false code x) :=
  .enclose hc (by decide) h

lemma join_map {α : Type} {f g : α → String} {l : List α} (h : ∀ a ∈ l, Fades (f a) (g a)) :
    Fades (String.join (l.map f)) (String.join (l.map g)) := by
  induction l with
  | nil => exact .of_clean (by decide : Clean "")
  | cons a l ih =>
    obtain ⟨ha, hl⟩ := List.forall_mem_cons.mp h
    rw [List.map_cons, List.map_cons, String.join_cons, String.join_cons]
    exact ha.append (ih hl)

end Fades

end Style

/-! ### Strings of answers -/

namespace Json

lemma Within.of_item? {index : ℕ} {v w : Json} (h : v.item? index = some w) : w.Within v := by
  cases v with
  | array items => exact .item (List.mem_of_getElem? h) .self
  | _ => simp [item?] at h

lemma Within.string {v w : Json} (hw : w.Within v) {s : String} (h : w.string? = some s) :
    (Json.string s).Within v := by
  cases w with
  | string t =>
    cases h
    exact hw
  | _ => simp [string?] at h

end Json

lemma Record.within_of_string? {names : List String} {v : Json} {r : Record} {name s : String}
    (hr : ofJson? names v = some r) (hs : r.string? name = some s) :
    (Json.string s).Within v := by
  obtain ⟨w, hw, hs⟩ := Option.bind_eq_some_iff.mp hs
  exact (within_of_field? hr hw).string hs

lemma MemberKey.within {v : Json} {key : MemberKey} (h : ofJson? v = some key) :
    (Json.string key.namespaceName).Within v ∧ (Json.string key.name).Within v := by
  simp only [ofJson?, Option.pure_def, Option.bind_eq_bind, Option.bind_eq_some_iff] at h
  obtain ⟨r, hr, revision, -, namespaceName, hnamespace, name, hname, h⟩ := h
  cases h
  exact ⟨Record.within_of_string? hr hnamespace, Record.within_of_string? hr hname⟩

/-- A string in the row. The names of fields are left out: they are only ever shown escaped. -/
def ResultRow.HasText (row : ResultRow) (s : String) : Prop :=
  (Json.string s).Within row.key ∨ (Json.string s).Within row.value ∨ row.signature = some s

/-- A string of the answer. -/
def SearchResponse.HasText (r : SearchResponse) (s : String) : Prop :=
  r.query = s ∨ r.token = some s ∨ r.name = some s ∨ r.prototype = some s ∨
    ∃ row ∈ r.rows, row.HasText s

namespace Render

open Style

section Values

variable {v : Json} (h : ∀ s, (Json.string s).Within v → Clean s)
include h

lemma clean_ownerName : Clean (ownerName v) := by
  unfold ownerName
  split
  · next key hkey =>
    obtain ⟨hnamespace, hname⟩ := MemberKey.within hkey
    unfold MemberKey.fullName
    split_ifs
    · exact h _ hname
    · exact ((h _ hnamespace).append (by decide)).append (h _ hname)
  · exact .of_printable (Json.printable_text v)

lemma clean_itemText (index : ℕ) : Clean (itemText v index) := by
  unfold itemText
  cases hs : (v.item? index).bind Json.string? with
  | none => exact (by decide : Clean "?")
  | some s =>
    obtain ⟨w, hw, hs⟩ := Option.bind_eq_some_iff.mp hs
    exact h s ((Json.Within.of_item? hw).string hs)

end Values

/-! ### Lines -/

lemma kindBadge_plain (kind : String) : kindBadge false kind = "[" ++ kind ++ "]" := by
  unfold kindBadge
  cases kindColor? kind <;> rfl

/-- The text of a row found by name, and the one in colours. -/
lemma nameLine_texts {row : ResultRow} {name kind owner : String}
    (hname : itemText row.key 0 = name) (hkind : itemText row.key 1 = kind)
    (howner : ownerName row.value = owner) :
    nameLine false row = "[" ++ kind ++ "] " ++ name ++ "  in " ++ owner ∧
      nameLine true row = kindBadge true kind ++ " " ++ ("\x1b[1m" ++ name ++ "\x1b[0m") ++ "  " ++
        ("\x1b[2m" ++ ("in " ++ owner) ++ "\x1b[0m") := by
  have hbadge : "] " = "]" ++ " " := rfl
  have hin : "  in " = "  " ++ "in " := rfl
  rw [nameLine, nameLine, hname, hkind, howner, kindBadge_plain, hbadge, hin]
  refine ⟨?_, rfl⟩
  simp only [String.append_assoc]
  rfl

/-- The text of a row found by signature, and the one in colours. -/
lemma signatureLine_texts {row : ResultRow} {name signature owner : String}
    (hname : ((row.value.field? "name").bind Json.string?).getD "?" = name)
    (hsignature : row.signature.getD "" = signature)
    (howner : ((row.value.field? "type").map ownerName).getD "" = owner) :
    signatureLine false row = name ++ " : " ++ signature ++ "  in " ++ owner ∧
      signatureLine true row = ("\x1b[1m" ++ name ++ "\x1b[0m") ++ " : " ++
        ("\x1b[32m" ++ signature ++ "\x1b[39m") ++ "  " ++
        ("\x1b[2m" ++ ("in " ++ owner) ++ "\x1b[0m") := by
  have hin : "  in " = "  " ++ "in " := rfl
  rw [signatureLine, signatureLine, hname, hsignature, howner, hin]
  refine ⟨?_, rfl⟩
  simp only [String.append_assoc]
  rfl

lemma fades_kindBadge {kind : String} (h : Clean kind) :
    Fades (kindBadge true kind) (kindBadge false kind) := by
  have hbadge : Fades ("[" ++ kind ++ "]") ("[" ++ kind ++ "]") :=
    .of_clean (((by decide : Clean "[").append h).append (by decide))
  have hcode : ∀ code, kindColor? kind = some code → code.toList.all isParameter = true := by
    intro code hc
    unfold kindColor? at hc
    split_ifs at hc <;> cases hc <;> decide
  unfold kindBadge
  cases hc : kindColor? kind with
  | none => exact hbadge
  | some code => exact hbadge.colored (hcode code hc)

lemma fades_ownerText {owner : String} (h : Clean owner) :
    Fades (ownerText true owner) (ownerText false owner) :=
  .dimmed (.of_clean ((by decide : Clean "in ").append h))

lemma fades_nameLine {row : ResultRow} (h : ∀ s, row.HasText s → Clean s) :
    Fades (nameLine true row) (nameLine false row) := by
  have hkey (index : ℕ) : Clean (itemText row.key index) :=
    clean_itemText (fun s hs => h s (.inl hs)) index
  have howner : Clean (ownerName row.value) := clean_ownerName fun s hs => h s (.inr (.inl hs))
  have hname := ((fades_kindBadge (hkey 1)).append (.of_clean (by decide : Clean " "))).append
    (.bold (.of_clean (hkey 0)))
  exact (hname.append (.of_clean (by decide : Clean "  "))).append (fades_ownerText howner)

lemma fades_signatureLine {row : ResultRow} (h : ∀ s, row.HasText s → Clean s) :
    Fades (signatureLine true row) (signatureLine false row) := by
  have hvalue : ∀ s, (Json.string s).Within row.value → Clean s := fun s hs => h s (.inr (.inl hs))
  have hname : Clean (((row.value.field? "name").bind Json.string?).getD "?") := by
    cases hs : (row.value.field? "name").bind Json.string? with
    | none => exact (by decide : Clean "?")
    | some s =>
      obtain ⟨w, hw, hs⟩ := Option.bind_eq_some_iff.mp hs
      exact hvalue s ((Json.Within.of_field? hw).string hs)
  have hsignature : Clean (row.signature.getD "") := by
    cases hs : row.signature with
    | none => exact (by decide : Clean "")
    | some s => exact h s (.inr (.inr hs))
  have howner : Clean (((row.value.field? "type").map ownerName).getD "") := by
    cases hw : row.value.field? "type" with
    | none => exact (by decide : Clean "")
    | some w => exact clean_ownerName fun s hs => hvalue s (hs.trans (.of_field? hw))
  have htype := ((Fades.bold (.of_clean hname)).append (.of_clean (by decide : Clean " : "))).append
    (Fades.colored (by decide : "32".toList.all isParameter = true) (.of_clean hsignature))
  exact (htype.append (.of_clean (by decide : Clean "  "))).append (fades_ownerText howner)

def rowLine (colors : Bool) (results : SearchResults) (row : ResultRow) : String :=
  match results with
  | .byName _ => nameLine colors row
  | .bySignature _ => signatureLine colors row

lemma rowLines_eq (colors : Bool) (results : SearchResults) :
    rowLines colors results = results.rows.map (rowLine colors results) := by
  cases results <;> rfl

lemma fades_rowLine (results : SearchResults) {row : ResultRow}
    (h : ∀ s, row.HasText s → Clean s) :
    Fades (rowLine true results row) (rowLine false results row) := by
  cases results with
  | byName rows => exact fades_nameLine h
  | bySignature rows => exact fades_signatureLine h

lemma fades_entry {connector a x : String} (hc : Clean connector) (h : Fades a x) :
    Fades (entry true connector a) (entry false connector x) := by
  have hconnector := (Fades.of_clean (by decide : Clean "  ")).append (.dimmed (.of_clean hc))
  have hline := (hconnector.append (.of_clean (by decide : Clean " "))).append h
  exact hline.append (.of_clean (by decide : Clean "\n"))

/-- Only the last line has the closing connector. -/
lemma entries_snoc (colors : Bool) (front : List String) (last : String) :
    entries colors (front ++ [last]) =
      front.map (entry colors "├─") ++ [entry colors "└─" last] := by
  induction front with
  | nil => rfl
  | cons line front ih =>
    cases front with
    | nil => rfl
    | cons next rest => exact congrArg (entry colors "├─" line :: ·) ih

/-! ### Answers -/

/-- The text of the header, and the one in colours. -/
lemma header_texts (r : SearchResponse) (count : ℕ) :
    header false r count = headerText r ++ " " ++ tally count ++ "\n" ∧
      header true r count =
        ("\x1b[1m" ++ ("\x1b[96m" ++ headerText r ++ "\x1b[39m") ++ "\x1b[0m") ++ " " ++
          ("\x1b[2m" ++ tally count ++ "\x1b[0m") ++ "\n" := ⟨rfl, rfl⟩

lemma fades_header {r : SearchResponse} (h : ∀ s, r.HasText s → Clean s) (count : ℕ) :
    Fades (header true r count) (header false r count) := by
  have htext : Clean (headerText r) := by
    unfold headerText
    split
    · next name hname =>
      exact (by decide : Clean "name: ").append (h name (.inr (.inr (.inl hname))))
    · next prototype hname hprototype =>
      exact (by decide : Clean ": ").append (h prototype (.inr (.inr (.inr (.inl hprototype)))))
    · exact h _ (.inl rfl)
  have htally : Clean (tally count) := by
    have hcount : Clean (toString count) := by
      refine .of_printable ?_
      rw [show (toString count).toList = Nat.toDigits 10 count from Nat.toList_repr]
      exact .digits count
    unfold tally
    split_ifs
    · exact ((by decide : Clean "(").append hcount).append (by decide : Clean " result)")
    · exact ((by decide : Clean "(").append hcount).append (by decide : Clean " results)")
  have hquery := Fades.bold
    (Fades.colored (by decide : "96".toList.all isParameter = true) (.of_clean htext))
  have hline := (hquery.append (.of_clean (by decide : Clean " "))).append
    (.dimmed (.of_clean htally))
  exact hline.append (.of_clean (by decide : Clean "\n"))

section Response

variable {r : SearchResponse} {results : SearchResults}

lemma response_none (hr : r.results = none) (colors : Bool) :
    response colors r = "Empty query.\n" := by
  rw [response, hr]

lemma response_nil (hr : r.results = some results) (hrows : results.rows = []) (colors : Bool) :
    response colors r = "No results found.\n" := by
  simp only [response, hr, hrows, List.isEmpty_nil, if_pos]

/-- A header, then an entry per row. -/
lemma response_snoc (hr : r.results = some results) {front : List ResultRow} {last : ResultRow}
    (hrows : results.rows = front ++ [last]) (colors : Bool) :
    response colors r =
      header colors r results.rows.length ++
        (String.join (front.map fun row => entry colors "├─" (rowLine colors results row)) ++
          entry colors "└─" (rowLine colors results last)) := by
  have hentries : entries colors (rowLines colors results) =
      (front.map fun row => entry colors "├─" (rowLine colors results row)) ++
        [entry colors "└─" (rowLine colors results last)] := by
    rw [rowLines_eq, hrows, List.map_append, List.map_singleton, entries_snoc, List.map_map]
    rfl
  have hany : results.rows.isEmpty = false := by simp [hrows]
  simp only [response, hr, hany, hentries, String.join_append, String.join_cons, String.join_nil,
    String.append_empty]
  rfl

lemma fades_response (h : ∀ s, r.HasText s → Clean s) :
    Fades (response true r) (response false r) := by
  cases hr : r.results with
  | none =>
    rw [response_none hr, response_none hr]
    exact .of_clean (by decide)
  | some results =>
    rcases results.rows.eq_nil_or_concat' with hrows | ⟨front, last, hrows⟩
    · rw [response_nil hr hrows, response_nil hr hrows]
      exact .of_clean (by decide)
    · have hmem : r.rows = front ++ [last] := by rw [SearchResponse.rows, hr, ← hrows]; rfl
      have hrow : ∀ row ∈ front ++ [last],
          Fades (rowLine true results row) (rowLine false results row) := by
        intro row hrow
        refine fades_rowLine results fun s hs => h s (.inr (.inr (.inr (.inr ⟨row, ?_, hs⟩))))
        rwa [hmem]
      rw [response_snoc hr hrows, response_snoc hr hrows]
      refine (fades_header h _).append (.append (.join_map fun row hfront => ?_) ?_)
      · exact fades_entry (by decide) (hrow row (List.mem_append_left _ hfront))
      · exact fades_entry (by decide) (hrow last (by simp))

end Response

/-- Colours change nothing but the sequences that are put around parts of the text. An answer
without rows has a fixed text, and any other one a header with the count of rows and an entry per
row, of which the last has the closing connector. -/
theorem response_colored (r : SearchResponse) :
    ((∀ s, r.HasText s → Clean s) → plain (response true r) = response false r) ∧
    (r.results = none → ∀ colors, response colors r = "Empty query.\n") ∧
    ∀ results, r.results = some results →
      (results.rows = [] → ∀ colors, response colors r = "No results found.\n") ∧
      ∀ front last, results.rows = front ++ [last] → ∀ colors,
        response colors r =
          header colors r results.rows.length ++
            (String.join (front.map fun row => entry colors "├─" (rowLine colors results row)) ++
              entry colors "└─" (rowLine colors results last)) := by
  refine ⟨fun h => (fades_response h).plain_eq, response_none, fun results hr => ?_⟩
  exact ⟨response_nil hr, fun front last hrows => response_snoc hr hrows⟩

/-- A method, and a row whose key lacks a kind and whose value is no member. -/
theorem response_colored_sample :
    let owner := Json.object
      [("_rev", .string "1"), ("name", .string "List"), ("namespace", .string "N")]
    let r : SearchResponse := ⟨"map", none, some "map", none, some (.byName
      [⟨.array [.string "map", .string "method"], owner, none⟩,
        ⟨.array [.string "map"], .null, none⟩])⟩
    (∀ s, r.HasText s → Clean s) ∧ plain (response true r) = response false r ∧
      response false r =
        "name: map (2 results)\n  ├─ [method] map  in N.List\n  └─ [?] map  in null\n" := by
  intro owner r
  have howner : ∀ s, (Json.string s).Within owner → Clean s := by
    intro s hs
    dsimp only [owner] at hs
    cases hs with
    | field hf h =>
      simp only [List.mem_cons, Prod.mk.injEq, List.not_mem_nil, or_false] at hf
      rcases hf with ⟨-, rfl⟩ | ⟨-, rfl⟩ | ⟨-, rfl⟩ <;> cases h <;> decide
  have hkey : ∀ s (items : List Json), (Json.string s).Within (.array items) →
      items ⊆ [.string "map", .string "method"] → Clean s := by
    intro s items hs hitems
    cases hs with
    | item hi h =>
      rcases List.mem_pair.mp (hitems hi) with rfl | rfl <;> cases h <;> decide
  have hclean : ∀ s, r.HasText s → Clean s := by
    rintro s (rfl | h | h | h | ⟨row, hrow, h⟩)
    · decide
    · cases h
    · cases h
      decide
    · cases h
    · rcases List.mem_pair.mp hrow with rfl | rfl <;> rcases h with h | h | h
      · exact hkey s _ h (List.Subset.refl _)
      · exact howner s h
      · cases h
      · exact hkey s _ h (by simp)
      · cases h
      · cases h
  exact ⟨hclean, (response_colored r).1 hclean, by decide +kernel⟩

end Render

end SignatureSearch
