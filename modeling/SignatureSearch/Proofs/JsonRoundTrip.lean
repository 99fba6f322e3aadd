import Mathlib
import SignatureSearch.Proofs.DecimalTexts

/-! Reading what was written. The text of a value is read, whatever follows it, if the value does
not nest deeper than the reader allows. What is read is the value with the fields of its objects in
order and with its binary64 numbers as their decimals are read; whole numbers are read back as they
are. -/
namespace SignatureSearch.Json

/-! ### Texts -/

lemma hexValue?_hexDigit : ∀ n < 16, hexValue? (hexDigit n) = some n := by decide

/-- An escape of one letter. -/
lemma readStringBody_letter {kind c : Char} (hu : kind ≠ 'u') (hc : simpleEscape? kind = some c)
    (rest : List Char) :
    readStringBody ('\x5c' :: kind :: rest) = consChar c (readStringBody rest) := by
  rw [readStringBody.eq_def]
  simp [hu, hc]

lemma readStringBody_escape (c : Char) (rest : List Char) :
    readStringBody (escape c ++ rest) = consChar c (readStringBody rest) := by
  unfold escape
  split_ifs with hquote hslash hb hf hn hr ht hcontrol
  · subst hquote
    exact readStringBody_letter (by decide) (by decide) rest
  · subst hslash
    exact readStringBody_letter (by decide) (by decide) rest
  · subst hb
    exact readStringBody_letter (by decide) (by decide) rest
  · subst hf
    exact readStringBody_letter (by decide) (by decide) rest
  · subst hn
    exact readStringBody_letter (by decide) (by decide) rest
  · subst hr
    exact readStringBody_letter (by decide) (by decide) rest
  · subst ht
    exact readStringBody_letter (by decide) (by decide) rest
  · have hhigh := hexValue?_hexDigit (c.toNat / 16) (by omega)
    have hlow := hexValue?_hexDigit (c.toNat % 16) (by omega)
    have hunit : unit? '0' '0' (hexDigit (c.toNat / 16)) (hexDigit (c.toNat % 16)) =
        some c.toNat := by
      have hzero : hexValue? '0' = some 0 := by decide
      simp only [unit?, hzero, hhigh, hlow, Option.bind_eq_bind, Option.bind_some, Option.pure_def]
      exact congrArg some (by omega)
    have hnolow : isLowSurrogate c.toNat = false := by
      simp only [isLowSurrogate, Bool.and_eq_false_iff, decide_eq_false_iff_not]
      omega
    have hnohigh : isHighSurrogate c.toNat = false := by
      simp only [isHighSurrogate, Bool.and_eq_false_iff, decide_eq_false_iff_not]
      omega
    simp [readStringBody, hunit, hnolow, hnohigh, Char.ofNat_toNat]
  · rw [List.singleton_append, readStringBody.eq_def]
    simp [hquote, hslash, hcontrol]

lemma readStringBody_written (s rest : List Char) :
    readStringBody (s.flatMap escape ++ '\x22' :: rest) = some (s, rest) := by
  induction s with
  | nil =>
    rw [List.flatMap_nil, List.nil_append, readStringBody.eq_def]
    rfl
  | cons c s ih =>
    rw [List.flatMap_cons, List.append_assoc, readStringBody_escape, ih]
    rfl

/-! ### Objects -/

lemma insertField_last {name : String} (value : Json) {fields : List (String × Json)}
    (h : ∀ field ∈ fields, field.1 < name) :
    insertField name value fields = fields ++ [(name, value)] := by
  induction fields with
  | nil => rfl
  | cons field fields ih =>
    have hlt : field.1 < name := h field (by simp)
    have hrest := ih fun other hother => h other (by simp [hother])
    rw [insertField, if_neg (lt_asymm hlt), if_neg hlt.ne', hrest, List.cons_append]

lemma foldl_insertField {sorted fields : List (String × Json)}
    (h : (sorted ++ fields).Pairwise fun a b => a.1 < b.1) :
    fields.foldl (fun sorted field => insertField field.1 field.2 sorted) sorted =
      sorted ++ fields := by
  induction fields generalizing sorted with
  | nil => simp
  | cons field fields ih =>
    have hlast : ∀ other ∈ sorted, other.1 < field.1 := fun other hother =>
      (List.pairwise_append.mp h).2.2 other hother field (by simp)
    rw [List.foldl_cons, insertField_last field.2 hlast, ih (by simpa using h)]
    simp

/-- Fields that are given in order make up the object as they are. -/
lemma ofFields_sorted {fields : List (String × Json)} (h : fields.Pairwise fun a b => a.1 < b.1) :
    ofFields fields = .object fields := by
  rw [ofFields, foldl_insertField (by simpa using h), List.nil_append]

/-! ### Values -/

mutual

/-- Every binary64 number is read back from its decimal. -/
def FloatsReadBack : Json → Prop
  | .number (.float x) => readNumber x.chars = some (.float x, [])
  | .array items => ItemsReadBack items
  | .object fields => FieldsReadBack fields
  | _ => True

def ItemsReadBack : List Json → Prop
  | [] => True
  | item :: rest => FloatsReadBack item ∧ ItemsReadBack rest

def FieldsReadBack : List (String × Json) → Prop
  | [] => True
  | (_, value) :: rest => FloatsReadBack value ∧ FieldsReadBack rest

end

mutual

/-- The value that the text of a value is read as. -/
def reread : Json → Json
  | .number n => .number (rereadNumber n)
  | .array items => .array (rereadItems items)
  | .object fields => ofFields (rereadFields fields)
  | v => v

def rereadItems : List Json → List Json
  | [] => []
  | item :: rest => reread item :: rereadItems rest

def rereadFields : List (String × Json) → List (String × Json)
  | [] => []
  | (name, value) :: rest => (name, reread value) :: rereadFields rest

end

mutual

/-- A value is read back as it is if its fields are in order and its binary64 numbers are. -/
theorem reread_eq : ∀ v : Json, v.Sorted → v.FloatsReadBack → v.reread = v
  | .null, _, _ | .bool _, _, _ | .string _, _, _ => rfl
  | .number (.integer n), _, _ => congrArg Json.number (rereadNumber_eq (readNumber_integer n))
  | .number (.float _), _, h => congrArg Json.number (rereadNumber_eq h)
  | .array items, hs, h => congrArg Json.array (rereadItems_eq items hs h)
  | .object fields, hs, h => by rw [reread, rereadFields_eq fields hs.2 h, ofFields_sorted hs.1]

theorem rereadItems_eq : ∀ items : List Json, ItemsSorted items → ItemsReadBack items →
    rereadItems items = items
  | [], _, _ => rfl
  | item :: rest, hs, h => by
    rw [rereadItems, reread_eq item hs.1 h.1, rereadItems_eq rest hs.2 h.2]

theorem rereadFields_eq : ∀ fields : List (String × Json), FieldsSorted fields →
    FieldsReadBack fields → rereadFields fields = fields
  | [], _, _ => rfl
  | (name, value) :: rest, hs, h => by
    rw [rereadFields, reread_eq value hs.1 h.1, rereadFields_eq rest hs.2 h.2]

end

mutual

lemma write_append : ∀ (v : Json) (rest : List Char), v.write rest = v.write [] ++ rest
  | .null, _ => rfl
  | .bool true, _ => rfl
  | .bool false, _ => rfl
  | .number n, rest => by simp [write]
  | .string s, rest => by simp [write, writeString]
  | .array [], _ => rfl
  | .array (item :: items), rest => by
    rw [write, write, write_append item, write_append item (writeItems items []),
      writeItems_append items]
    simp
  | .object [], _ => rfl
  | .object ((name, value) :: fields), rest => by
    rw [write, write, write_append value, write_append value (writeFields fields []),
      writeFields_append fields]
    simp [writeString]

lemma writeItems_append : ∀ (items : List Json) (rest : List Char),
    writeItems items rest = writeItems items [] ++ rest
  | [], _ => rfl
  | item :: items, rest => by
    rw [writeItems, writeItems, write_append item, write_append item (writeItems items []),
      writeItems_append items]
    simp

lemma writeFields_append : ∀ (fields : List (String × Json)) (rest : List Char),
    writeFields fields rest = writeFields fields [] ++ rest
  | [], _ => rfl
  | (name, value) :: fields, rest => by
    rw [writeFields, writeFields, write_append value, write_append value (writeFields fields []),
      writeFields_append fields]
    simp [writeString]

end

/-- The text of the value is read, whatever follows the text. -/
structure ReadBack (v : Json) : Prop where
  head : ∃ c more, v.write [] = c :: more ∧ isBlank c = false ∧ c ≠ ']'
  read : ∀ fuel depth rest, v.nesting ≤ depth → (v.write []).length ≤ fuel → EndsNumber rest →
    readValue fuel depth (v.write rest) = some (v.reread, rest)

lemma skipBlanks_cons {c : Char} (h : isBlank c = false) (cs : List Char) :
    skipBlanks (c :: cs) = c :: cs := by
  rw [skipBlanks, List.dropWhile_cons_of_neg (by simp [h])]

lemma ReadBack.of_read {v : Json} {c : Char} {more : List Char}
    (hv : v.write [] = c :: more) (hc : isBlank c = false ∧ c ≠ ']')
    (h : ∀ fuel depth rest, v.nesting ≤ depth → (v.write []).length ≤ fuel + 1 → EndsNumber rest →
      readValue (fuel + 1) depth (v.write rest) = some (v.reread, rest)) : ReadBack v := by
  refine ⟨⟨c, more, hv, hc⟩, fun fuel depth rest hdepth hfuel hrest => ?_⟩
  cases fuel with
  | zero => simp [hv] at hfuel
  | succ fuel => exact h fuel depth rest hdepth hfuel hrest

lemma readBack_null : ReadBack .null := by
  refine .of_read rfl (by decide) fun fuel depth rest _ _ _ => ?_
  rw [write, readValue, skipBlanks_cons (by decide)]
  rfl

lemma readBack_bool (b : Bool) : ReadBack (.bool b) := by
  cases b with
  | false =>
    refine .of_read rfl (by decide) fun fuel depth rest _ _ _ => ?_
    rw [write, readValue, skipBlanks_cons (by decide)]
    rfl
  | true =>
    refine .of_read rfl (by decide) fun fuel depth rest _ _ _ => ?_
    rw [write, readValue, skipBlanks_cons (by decide)]
    rfl

lemma readBack_string (s : String) : ReadBack (.string s) := by
  refine .of_read rfl (by decide) fun fuel depth rest _ _ _ => ?_
  rw [write, readValue, writeString, skipBlanks_cons (by decide)]
  simp only [readStringBody_written, String.ofList_toList, reread]

/-- A digit or a minus begins a number. -/
lemma readValue_number {c : Char} (hc : c = '-' ∨ c.isDigit = true) (hb : isBlank c = false)
    (fuel depth : ℕ) (cs : List Char) :
    readValue (fuel + 1) depth (c :: cs) =
      match readNumber (c :: cs) with
      | none => none
      | some (n, rest) => some (.number n, rest) := by
  rw [readValue, skipBlanks_cons hb]
  split
  all_goals first
    | rfl
    | next heq =>
      cases heq
      simp at hc

lemma not_blank_of_numeral {c : Char} (hc : c = '-' ∨ c.isDigit = true) :
    isBlank c = false ∧ c ≠ ']' := by
  refine ⟨?_, ?_⟩
  · rw [Bool.eq_false_iff]
    intro hb
    simp only [isBlank, Bool.or_eq_true, beq_iff_eq] at hb
    rcases hb with ((rfl | rfl) | rfl) | rfl <;> simp at hc
  · rintro rfl
    simp at hc

lemma readBack_number (n : Number) : ReadBack (.number n) := by
  have h := readNumber_numberChars n
  obtain ⟨c, more, hn, hc⟩ := readNumber_head h
  have hkind := not_blank_of_numeral hc
  have hv : write (.number n) [] = c :: more := by rw [write, hn, List.append_nil]
  refine .of_read hv hkind fun fuel depth rest _ _ hrest => ?_
  have hread := readNumber_append hrest h
  rw [write, hn, List.cons_append, readValue_number hc hkind.1]
  rw [hn] at hread
  simp only [List.cons_append, List.nil_append] at hread
  rw [hread, reread]

/-! ### Containers -/

lemma endsNumber_writeItems (items : List Json) (rest : List Char) :
    EndsNumber (writeItems items rest) := by
  cases items with
  | nil => exact endsNumber_cons (by decide) rest
  | cons item items => exact endsNumber_cons (by decide) _

lemma endsNumber_writeFields (fields : List (String × Json)) (rest : List Char) :
    EndsNumber (writeFields fields rest) := by
  cases fields with
  | nil => exact endsNumber_cons (by decide) rest
  | cons field fields => exact endsNumber_cons (by decide) _

lemma length_write (v : Json) (rest : List Char) :
    (v.write rest).length = (v.write []).length + rest.length := by
  rw [write_append, List.length_append]

/-- A bracket with something behind it opens an array that is not empty. -/
lemma readValue_array {c : Char} (hb : isBlank c = false) (hc : c ≠ ']') (fuel depth : ℕ)
    (cs : List Char) :
    readValue (fuel + 1) (depth + 1) ('[' :: c :: cs) =
      match readItems fuel depth (c :: cs) with
      | none => none
      | some (items, rest) => some (.array items, rest) := by
  rw [readValue, skipBlanks_cons (by decide)]
  simp only [skipBlanks_cons hb]
  split
  · next heq => exact absurd (List.cons.inj heq).1 hc
  · rfl

lemma readItems_written {item : Json} {items : List Json} (h : ∀ x ∈ item :: items, ReadBack x)
    (fuel depth : ℕ) (rest : List Char) (hdepth : itemsNesting (item :: items) ≤ depth)
    (hfuel : (item.write (writeItems items [])).length ≤ fuel) :
    readItems fuel depth (item.write (writeItems items rest)) =
      some (rereadItems (item :: items), rest) := by
  induction items generalizing item fuel with
  | nil =>
    obtain ⟨hhead, -⟩ := List.forall_mem_cons.mp h
    rw [itemsNesting] at hdepth
    rw [length_write, writeItems, List.length_singleton] at hfuel
    obtain ⟨fuel, rfl⟩ : ∃ k, fuel = k + 1 := ⟨fuel - 1, by omega⟩
    have hitem := hhead.read fuel depth (writeItems [] rest) (by omega) (by omega)
      (endsNumber_writeItems [] rest)
    rw [readItems, hitem]
    simp only [writeItems, skipBlanks_cons (show isBlank ']' = false by decide), rereadItems]
  | cons next items ih =>
    obtain ⟨hhead, htail⟩ := List.forall_mem_cons.mp h
    rw [itemsNesting] at hdepth
    rw [length_write, writeItems, List.length_cons] at hfuel
    obtain ⟨fuel, rfl⟩ : ∃ k, fuel = k + 1 := ⟨fuel - 1, by omega⟩
    have hitem := hhead.read fuel depth (writeItems (next :: items) rest) (by omega) (by omega)
      (endsNumber_writeItems (next :: items) rest)
    have hitems := ih htail fuel (by omega) (by omega)
    rw [readItems, hitem]
    simp only [writeItems, skipBlanks_cons (show isBlank ',' = false by decide), hitems]
    rfl

lemma readBack_array {items : List Json} (h : ∀ x ∈ items, ReadBack x) :
    ReadBack (.array items) := by
  cases items with
  | nil =>
    refine .of_read rfl (by decide) fun fuel depth rest hdepth _ _ => ?_
    obtain ⟨depth, rfl⟩ : ∃ k, depth = k + 1 := ⟨depth - 1, by simp [nesting] at hdepth; omega⟩
    rw [write, readValue, skipBlanks_cons (by decide)]
    simp only [skipBlanks_cons (show isBlank ']' = false by decide)]
    rfl
  | cons item items =>
    refine .of_read rfl (by decide) fun fuel depth rest hdepth hfuel _ => ?_
    rw [nesting] at hdepth
    rw [write, List.length_cons] at hfuel
    obtain ⟨depth, rfl⟩ : ∃ k, depth = k + 1 := ⟨depth - 1, by omega⟩
    obtain ⟨c, more, hc, hblank, hclose⟩ := (h item (by simp)).head
    have hitems := readItems_written h fuel depth rest (by omega) (by omega)
    rw [write_append, hc, List.cons_append] at hitems
    rw [write, write_append, hc, List.cons_append, readValue_array hblank hclose, hitems, reread]

/-- A brace with a name behind it opens an object that is not empty. -/
lemma readValue_object (fuel depth : ℕ) (cs : List Char) :
    readValue (fuel + 1) (depth + 1) ('{' :: '\x22' :: cs) =
      match readFields fuel depth ('\x22' :: cs) with
      | none => none
      | some (fields, rest) => some (ofFields fields, rest) := by
  rw [readValue, skipBlanks_cons (by decide)]
  simp only [skipBlanks_cons (show isBlank '\x22' = false by decide)]
  rfl

lemma readFields_written {name : String} {value : Json} {fields : List (String × Json)}
    (h : ∀ field ∈ (name, value) :: fields, ReadBack field.2) (fuel depth : ℕ) (rest : List Char)
    (hdepth : fieldsNesting ((name, value) :: fields) ≤ depth)
    (hfuel : (value.write (writeFields fields [])).length ≤ fuel) :
    readFields fuel depth (writeString name (':' :: value.write (writeFields fields rest))) =
      some (rereadFields ((name, value) :: fields), rest) := by
  induction fields generalizing name value fuel with
  | nil =>
    have hhead : ReadBack value := (List.forall_mem_cons.mp h).1
    rw [fieldsNesting] at hdepth
    rw [length_write, writeFields, List.length_singleton] at hfuel
    obtain ⟨fuel, rfl⟩ : ∃ k, fuel = k + 1 := ⟨fuel - 1, by omega⟩
    have hvalue := hhead.read fuel depth (writeFields [] rest) (by omega) (by omega)
      (endsNumber_writeFields [] rest)
    rw [readFields, writeString, skipBlanks_cons (by decide)]
    simp only [readStringBody_written, skipBlanks_cons (show isBlank ':' = false by decide), hvalue]
    simp only [writeFields, skipBlanks_cons (show isBlank '}' = false by decide),
      String.ofList_toList, rereadFields]
  | cons next fields ih =>
    obtain ⟨name', value'⟩ := next
    have hhead : ReadBack value := (List.forall_mem_cons.mp h).1
    rw [fieldsNesting] at hdepth
    rw [length_write, writeFields, List.length_cons, writeString, List.length_cons,
      List.length_append, List.length_cons, List.length_cons] at hfuel
    obtain ⟨fuel, rfl⟩ : ∃ k, fuel = k + 1 := ⟨fuel - 1, by omega⟩
    have hvalue := hhead.read fuel depth (writeFields ((name', value') :: fields) rest) (by omega)
      (by omega) (endsNumber_writeFields ((name', value') :: fields) rest)
    have hfields := ih (List.forall_mem_cons.mp h).2 fuel (by omega) (by omega)
    rw [readFields, writeString, skipBlanks_cons (by decide)]
    simp only [readStringBody_written, skipBlanks_cons (show isBlank ':' = false by decide), hvalue]
    simp only [writeFields, skipBlanks_cons (show isBlank ',' = false by decide), hfields,
      String.ofList_toList]
    rfl

lemma readBack_object {fields : List (String × Json)} (h : ∀ field ∈ fields, ReadBack field.2) :
    ReadBack (.object fields) := by
  cases fields with
  | nil =>
    refine .of_read rfl (by decide) fun fuel depth rest hdepth _ _ => ?_
    obtain ⟨depth, rfl⟩ : ∃ k, depth = k + 1 := ⟨depth - 1, by simp [nesting] at hdepth; omega⟩
    rw [write, readValue, skipBlanks_cons (by decide)]
    simp only [skipBlanks_cons (show isBlank '}' = false by decide)]
    rfl
  | cons field fields =>
    obtain ⟨name, value⟩ := field
    refine .of_read rfl (by decide) fun fuel depth rest hdepth hfuel _ => ?_
    rw [nesting] at hdepth
    rw [write, List.length_cons, writeString, List.length_cons, List.length_append,
      List.length_cons, List.length_cons] at hfuel
    obtain ⟨depth, rfl⟩ : ∃ k, depth = k + 1 := ⟨depth - 1, by omega⟩
    have hfields := readFields_written h fuel depth rest (by omega) (by omega)
    rw [writeString] at hfields
    rw [write, writeString, readValue_object, hfields, reread]

mutual

/-- The text of every value is read. -/
theorem readBack : ∀ v : Json, ReadBack v
  | .null => readBack_null
  | .bool b => readBack_bool b
  | .number n => readBack_number n
  | .string s => readBack_string s
  | .array items => readBack_array (itemsReadBack items)
  | .object fields => readBack_object (fieldsReadBack fields)

theorem itemsReadBack : ∀ items : List Json, ∀ item ∈ items, ReadBack item
  | [] => by simp
  | item :: rest => List.forall_mem_cons.mpr ⟨readBack item, itemsReadBack rest⟩

theorem fieldsReadBack : ∀ fields : List (String × Json), ∀ field ∈ fields, ReadBack field.2
  | [] => by simp
  | (_, value) :: rest => List.forall_mem_cons.mpr ⟨readBack value, fieldsReadBack rest⟩

end

/-- A value that does not nest too deep is read from its text. -/
theorem read?_text_reread {v : Json} (h : v.nesting ≤ nestingLimit) :
    read? v.text = some v.reread := by
  have hfuel : (v.write []).length ≤ enoughFuel (v.write []) := by
    rw [enoughFuel]
    omega
  have hread := (readBack v).read _ nestingLimit [] h hfuel endsNumber_nil
  rw [read?, text, String.toList_ofList, readFirst, hread]
  rfl

structure Readable (v : Json) : Prop where
  sorted : v.Sorted
  nesting : v.nesting ≤ nestingLimit
  floats : v.FloatsReadBack

/-- The text of a value is read back as the value. -/
theorem read?_text {v : Json} (h : v.Readable) : read? v.text = some v := by
  rw [read?_text_reread h.nesting, reread_eq v h.sorted h.floats]

end SignatureSearch.Json
