import Mathlib
import SignatureSearch.Proofs.JsonRoundTrip

/-! What the reader of JSON does. One step of it is read off as a relation; from its steps follows
that a value is read the same whatever comes behind it, and that it does not nest deeper than the
reader allows. -/
namespace SignatureSearch.Json

/-! ### Texts and blanks -/

lemma consChar_eq_some {c : Char} {result : Option (List Char × List Char)}
    {text rest : List Char} :
    consChar c result = some (text, rest) ↔
      ∃ tail, result = some (tail, rest) ∧ text = c :: tail := by
  cases result with
  | none => simp [consChar]
  | some p =>
    obtain ⟨tail, rest'⟩ := p
    simp [consChar, eq_comm, and_comm]

/-- The closing quote ends a text whatever follows it. -/
lemma readStringBody_append {cs text rest : List Char} (h : readStringBody cs = some (text, rest))
    (more : List Char) : readStringBody (cs ++ more) = some (text, rest ++ more) := by
  fun_induction readStringBody cs generalizing text rest with
  | case2 tail =>
    cases h
    rw [List.cons_append, readStringBody.eq_def]
    simp
  | case7 a b c d n hn hlow hhigh slash kind a' b' c' d' tail hu m hm hlow' _ ih
  | case11 a b c d tail n hn hlow hhigh _ ih
  | case14 kind tail hkind e he _ ih
  | case16 kind tail hquote hslash hcontrol ih =>
    obtain ⟨tail', htail, rfl⟩ := consChar_eq_some.mp h
    have ih := ih htail
    simp only [List.cons_append]
    rw [readStringBody.eq_def]
    simp [*, consChar]
  | _ => cases h

lemma skipBlanks_idem (cs : List Char) : skipBlanks (skipBlanks cs) = skipBlanks cs := by
  rw [skipBlanks, skipBlanks, List.dropWhile_idempotent]

lemma skipBlanks_append {c : Char} {cs tail : List Char} (h : skipBlanks cs = c :: tail)
    (more : List Char) : skipBlanks (cs ++ more) = c :: (tail ++ more) := by
  have hne : (cs.dropWhile isBlank).isEmpty = false := by
    have h : cs.dropWhile isBlank = c :: tail := h
    rw [h]
    rfl
  rw [skipBlanks, List.dropWhile_append, hne, ← List.cons_append, ← h]
  rfl

/-! ### One step of the reader -/

/-- A value begins in this way, and is read up to `rest`; what is inside it takes `fuel` steps. -/
inductive ValueStep (fuel depth : ℕ) (cs : List Char) : Json → List Char → Prop
  | null {rest : List Char} (word : skipBlanks cs = 'n' :: 'u' :: 'l' :: 'l' :: rest) :
    ValueStep fuel depth cs .null rest
  | true {rest : List Char} (word : skipBlanks cs = 't' :: 'r' :: 'u' :: 'e' :: rest) :
    ValueStep fuel depth cs (.bool true) rest
  | false {rest : List Char} (word : skipBlanks cs = 'f' :: 'a' :: 'l' :: 's' :: 'e' :: rest) :
    ValueStep fuel depth cs (.bool false) rest
  | string {tail text rest : List Char} (quote : skipBlanks cs = '\x22' :: tail)
    (body : readStringBody tail = some (text, rest)) :
    ValueStep fuel depth cs (.string (String.ofList text)) rest
  | number {n : Number} {rest : List Char} (digits : readNumber (skipBlanks cs) = some (n, rest)) :
    ValueStep fuel depth cs (.number n) rest
  | emptyArray {inner : ℕ} {tail rest : List Char} (deep : depth = inner + 1)
    (bracket : skipBlanks cs = '[' :: tail) (close : skipBlanks tail = ']' :: rest) :
    ValueStep fuel depth cs (.array []) rest
  | array {inner : ℕ} {c : Char} {tail first rest : List Char} {items : List Json}
    (deep : depth = inner + 1) (bracket : skipBlanks cs = '[' :: tail)
    (head : skipBlanks tail = c :: first) (unclosed : c ≠ ']')
    (read : readItems fuel inner (c :: first) = some (items, rest)) :
    ValueStep fuel depth cs (.array items) rest
  | emptyObject {inner : ℕ} {tail rest : List Char} (deep : depth = inner + 1)
    (brace : skipBlanks cs = '{' :: tail) (close : skipBlanks tail = '}' :: rest) :
    ValueStep fuel depth cs (.object []) rest
  | object {inner : ℕ} {c : Char} {tail first rest : List Char} {fields : List (String × Json)}
    (deep : depth = inner + 1) (brace : skipBlanks cs = '{' :: tail)
    (head : skipBlanks tail = c :: first) (unclosed : c ≠ '}')
    (read : readFields fuel inner (c :: first) = some (fields, rest)) :
    ValueStep fuel depth cs (ofFields fields) rest

lemma readItems_nil (fuel depth : ℕ) : readItems fuel depth [] = none := by
  have hvalue : readValue (fuel - 1) depth [] = none := by cases fuel - 1 <;> rfl
  cases fuel with
  | zero => rfl
  | succ fuel =>
    rw [Nat.add_sub_cancel] at hvalue
    rw [readItems, hvalue]

lemma readFields_nil (fuel depth : ℕ) : readFields fuel depth [] = none := by
  cases fuel <;> rfl

variable {fuel depth : ℕ} {cs rest : List Char}

lemma step_of_readValue {v : Json} (h : readValue (fuel + 1) depth cs = some (v, rest)) :
    ValueStep fuel depth cs v rest := by
  rw [readValue] at h
  split at h
  · next word =>
    cases h
    exact .null word
  · next word =>
    cases h
    exact .true word
  · next word =>
    cases h
    exact .false word
  · next quote =>
    split at h
    · cases h
    · next body =>
      cases h
      exact .string quote body
  · next tail bracket =>
    split at h
    · cases h
    · split at h
      · next close =>
        cases h
        exact .emptyArray rfl bracket close
      · next unclosed =>
        split at h
        · cases h
        · next read =>
          cases h
          cases head : skipBlanks tail with
          | nil => rw [head, readItems_nil] at read; cases read
          | cons c first =>
            rw [head] at read
            exact .array rfl bracket head (fun hc => unclosed first (by rw [head, hc])) read
  · next tail brace =>
    split at h
    · cases h
    · split at h
      · next close =>
        cases h
        exact .emptyObject rfl brace close
      · next unclosed =>
        split at h
        · cases h
        · next read =>
          cases h
          cases head : skipBlanks tail with
          | nil => rw [head, readFields_nil] at read; cases read
          | cons c first =>
            rw [head] at read
            exact .object rfl brace head (fun hc => unclosed first (by rw [head, hc])) read
  · split at h
    · cases h
    · next digits =>
      cases h
      exact .number digits

lemma readValue_of_step {v : Json} (h : ValueStep fuel depth cs v rest) :
    readValue (fuel + 1) depth cs = some (v, rest) := by
  cases h with
  | null word | true word | false word =>
    rw [readValue, word]
    rfl
  | string quote body =>
    rw [readValue, quote]
    simp only [body]
  | number digits =>
    obtain ⟨c, tail, hskip, hc⟩ := readNumber_head digits
    have hnumber := readValue_number hc (not_blank_of_numeral hc).1 fuel depth tail
    rw [← hskip, digits] at hnumber
    rw [readValue] at hnumber ⊢
    rwa [skipBlanks_idem] at hnumber
  | emptyArray deep bracket close =>
    subst deep
    rw [readValue, bracket]
    simp only [close]
  | array deep bracket head unclosed read =>
    subst deep
    rw [readValue, bracket]
    simp only [head]
    split
    · next heq => exact absurd (List.cons.inj heq).1 unclosed
    · rw [read]
  | emptyObject deep brace close =>
    subst deep
    rw [readValue, brace]
    simp only [close]
  | object deep brace head unclosed read =>
    subst deep
    rw [readValue, brace]
    simp only [head]
    split
    · next heq => exact absurd (List.cons.inj heq).1 unclosed
    · rw [read]

/-- After an item there is a comma with more items behind it, or the closing bracket. -/
lemma readItems_iff {items : List Json} :
    readItems (fuel + 1) depth cs = some (items, rest) ↔
      ∃ item behind, readValue fuel depth cs = some (item, behind) ∧
        ((∃ tail others, skipBlanks behind = ',' :: tail ∧
            readItems fuel depth tail = some (others, rest) ∧ items = item :: others) ∨
          skipBlanks behind = ']' :: rest ∧ items = [item]) := by
  rw [readItems]
  constructor
  · intro h
    split at h
    · cases h
    · next item behind hvalue =>
      refine ⟨item, behind, hvalue, ?_⟩
      split at h
      · next tail hcomma =>
        split at h
        · cases h
        · next others last hitems =>
          cases h
          exact .inl ⟨tail, others, hcomma, hitems, rfl⟩
      · next hclose =>
        cases h
        exact .inr ⟨hclose, rfl⟩
      · cases h
  · rintro ⟨item, behind, hvalue, ⟨tail, others, hcomma, hitems, rfl⟩ | ⟨hclose, rfl⟩⟩
    · simp only [hvalue, hcomma, hitems]
    · simp only [hvalue, hclose]

/-- A field is a text, a colon and a value, and more fields or the closing brace come behind it. -/
lemma readFields_iff {fields : List (String × Json)} :
    readFields (fuel + 1) depth cs = some (fields, rest) ↔
      ∃ start name colon tail value behind, skipBlanks cs = '\x22' :: start ∧
        readStringBody start = some (name, colon) ∧ skipBlanks colon = ':' :: tail ∧
        readValue fuel depth tail = some (value, behind) ∧
        ((∃ next others, skipBlanks behind = ',' :: next ∧
            readFields fuel depth next = some (others, rest) ∧
            fields = (String.ofList name, value) :: others) ∨
          skipBlanks behind = '}' :: rest ∧ fields = [(String.ofList name, value)]) := by
  rw [readFields]
  constructor
  · intro h
    split at h
    · next start hquote =>
      split at h
      · cases h
      · next name colon hname =>
        split at h
        · next tail hcolon =>
          split at h
          · cases h
          · next value behind hvalue =>
            refine ⟨start, name, colon, tail, value, behind, hquote, hname, hcolon, hvalue, ?_⟩
            split at h
            · next tail' hcomma =>
              split at h
              · cases h
              · next others last hfields =>
                cases h
                exact .inl ⟨tail', others, hcomma, hfields, rfl⟩
            · next hclose =>
              cases h
              exact .inr ⟨hclose, rfl⟩
            · cases h
        · cases h
    · cases h
  · rintro ⟨start, name, colon, tail, value, behind, hquote, hname, hcolon, hvalue,
      ⟨tail', others, hcomma, hfields, rfl⟩ | ⟨hclose, rfl⟩⟩
    · simp only [hquote, hname, hcolon, hvalue, hcomma, hfields]
    · simp only [hquote, hname, hcolon, hvalue, hclose]

/-! ### What follows a value -/

mutual

/-- What is read as a value is read so with more steps and whatever follows it. -/
theorem readValue_append {more : List Char} (hmore : EndsNumber more) :
    ∀ {fuel steps depth : ℕ} {cs rest : List Char} {v : Json}, fuel ≤ steps →
      readValue fuel depth cs = some (v, rest) →
        readValue steps depth (cs ++ more) = some (v, rest ++ more)
  | fuel + 1, steps + 1, depth, cs, rest, v, hsteps, h => by
    have hinner : fuel ≤ steps := Nat.le_of_succ_le_succ hsteps
    refine readValue_of_step ?_
    cases step_of_readValue h with
    | null word => exact .null (skipBlanks_append word more)
    | true word => exact .true (skipBlanks_append word more)
    | false word => exact .false (skipBlanks_append word more)
    | string quote body =>
      exact .string (skipBlanks_append quote more) (readStringBody_append body more)
    | number digits =>
      obtain ⟨c, tail, hskip, -⟩ := readNumber_head digits
      have happend := readNumber_append hmore digits
      rw [hskip, List.cons_append, ← skipBlanks_append hskip more] at happend
      exact .number happend
    | emptyArray deep bracket close =>
      exact .emptyArray deep (skipBlanks_append bracket more) (skipBlanks_append close more)
    | array deep bracket head unclosed read =>
      exact .array deep (skipBlanks_append bracket more) (skipBlanks_append head more) unclosed
        (readItems_append hmore hinner read)
    | emptyObject deep brace close =>
      exact .emptyObject deep (skipBlanks_append brace more) (skipBlanks_append close more)
    | object deep brace head unclosed read =>
      exact .object deep (skipBlanks_append brace more) (skipBlanks_append head more) unclosed
        (readFields_append hmore hinner read)

theorem readItems_append {more : List Char} (hmore : EndsNumber more) :
    ∀ {fuel steps depth : ℕ} {cs rest : List Char} {items : List Json}, fuel ≤ steps →
      readItems fuel depth cs = some (items, rest) →
        readItems steps depth (cs ++ more) = some (items, rest ++ more)
  | fuel + 1, steps + 1, depth, cs, rest, items, hsteps, h => by
    have hinner : fuel ≤ steps := Nat.le_of_succ_le_succ hsteps
    obtain ⟨item, behind, hvalue, hrest⟩ := readItems_iff.mp h
    refine readItems_iff.mpr ⟨item, behind ++ more, readValue_append hmore hinner hvalue, ?_⟩
    rcases hrest with ⟨tail, others, hcomma, hitems, rfl⟩ | ⟨hclose, rfl⟩
    · exact .inl ⟨tail ++ more, others, skipBlanks_append hcomma more,
        readItems_append hmore hinner hitems, rfl⟩
    · exact .inr ⟨skipBlanks_append hclose more, rfl⟩

theorem readFields_append {more : List Char} (hmore : EndsNumber more) :
    ∀ {fuel steps depth : ℕ} {cs rest : List Char} {fields : List (String × Json)}, fuel ≤ steps →
      readFields fuel depth cs = some (fields, rest) →
        readFields steps depth (cs ++ more) = some (fields, rest ++ more)
  | fuel + 1, steps + 1, depth, cs, rest, fields, hsteps, h => by
    have hinner : fuel ≤ steps := Nat.le_of_succ_le_succ hsteps
    obtain ⟨start, name, colon, tail, value, behind, hquote, hname, hcolon, hvalue, hrest⟩ :=
      readFields_iff.mp h
    refine readFields_iff.mpr ⟨start ++ more, name, colon ++ more, tail ++ more, value,
      behind ++ more, skipBlanks_append hquote more, readStringBody_append hname more,
      skipBlanks_append hcolon more, readValue_append hmore hinner hvalue, ?_⟩
    rcases hrest with ⟨next, others, hcomma, hfields, rfl⟩ | ⟨hclose, rfl⟩
    · exact .inl ⟨next ++ more, others, skipBlanks_append hcomma more,
        readFields_append hmore hinner hfields, rfl⟩
    · exact .inr ⟨skipBlanks_append hclose more, rfl⟩

end

/-! ### Nesting -/

lemma fieldsNesting_insertField (name : String) (value : Json) (fields : List (String × Json)) :
    fieldsNesting (insertField name value fields) ≤ max value.nesting (fieldsNesting fields) := by
  induction fields with
  | nil => simp [insertField, fieldsNesting]
  | cons field fields ih =>
    obtain ⟨other, old⟩ := field
    rw [insertField]
    split_ifs <;> simp only [fieldsNesting] <;> omega

lemma nesting_ofFields (fields : List (String × Json)) :
    (ofFields fields).nesting ≤ fieldsNesting fields + 1 := by
  have hfold (sorted : List (String × Json)) :
      fieldsNesting (fields.foldl (fun sorted field => insertField field.1 field.2 sorted)
        sorted) ≤ max (fieldsNesting sorted) (fieldsNesting fields) := by
    induction fields generalizing sorted with
    | nil => simp [fieldsNesting]
    | cons field fields ih =>
      have hstep := ih (insertField field.1 field.2 sorted)
      have hfield := fieldsNesting_insertField field.1 field.2 sorted
      rw [List.foldl_cons, fieldsNesting]
      omega
  have hfields := hfold []
  rw [ofFields, nesting]
  simp only [fieldsNesting] at hfields
  omega

mutual

/-- The reader opens no more containers than it may. -/
theorem nesting_readValue : ∀ {fuel depth : ℕ} {cs rest : List Char} {v : Json},
    readValue fuel depth cs = some (v, rest) → v.nesting ≤ depth
  | fuel + 1, depth, cs, rest, v, h => by
    cases step_of_readValue h with
    | null | true | false | string | number => exact Nat.zero_le depth
    | emptyArray deep | emptyObject deep =>
      rw [deep]
      exact Nat.succ_le_succ (Nat.zero_le _)
    | array deep _ _ _ read =>
      rw [deep]
      exact Nat.succ_le_succ (nesting_readItems read)
    | object deep _ _ _ read =>
      rw [deep]
      exact (nesting_ofFields _).trans (Nat.succ_le_succ (nesting_readFields read))

theorem nesting_readItems : ∀ {fuel depth : ℕ} {cs rest : List Char} {items : List Json},
    readItems fuel depth cs = some (items, rest) → itemsNesting items ≤ depth
  | fuel + 1, depth, cs, rest, items, h => by
    obtain ⟨item, behind, hvalue, hrest⟩ := readItems_iff.mp h
    have hitem := nesting_readValue hvalue
    rcases hrest with ⟨tail, others, -, hitems, rfl⟩ | ⟨-, rfl⟩
    · exact max_le hitem (nesting_readItems hitems)
    · exact max_le hitem (Nat.zero_le depth)

theorem nesting_readFields : ∀ {fuel depth : ℕ} {cs rest : List Char}
    {fields : List (String × Json)}, readFields fuel depth cs = some (fields, rest) →
      fieldsNesting fields ≤ depth
  | fuel + 1, depth, cs, rest, fields, h => by
    obtain ⟨_, _, _, _, value, behind, -, -, -, hvalue, hrest⟩ := readFields_iff.mp h
    have hfield := nesting_readValue hvalue
    rcases hrest with ⟨tail, others, -, hfields, rfl⟩ | ⟨-, rfl⟩
    · exact max_le hfield (nesting_readFields hfields)
    · exact max_le hfield (Nat.zero_le depth)

end

end SignatureSearch.Json
