import Mathlib
import SignatureSearch.Proofs.JsonReading

/-! The reader of JSON gets on. Each value that is read takes up some of the text, so the steps that
the reader allows itself are enough: what can be read in any number of steps is read in these. -/
namespace SignatureSearch.Json

/-! ### What is left of a text -/

lemma length_skipBlanks (cs : List Char) : (skipBlanks cs).length ≤ cs.length :=
  (List.dropWhile_sublist _).length_le

lemma length_behind {c : Char} {cs tail : List Char} (h : skipBlanks cs = c :: tail) :
    tail.length < cs.length := by
  have hskip := length_skipBlanks cs
  rw [h, List.length_cons] at hskip
  omega

lemma length_readStringBody {cs text rest : List Char} (h : readStringBody cs = some (text, rest)) :
    rest.length < cs.length := by
  fun_induction readStringBody cs generalizing text rest with
  | case2 tail =>
    cases h
    exact Nat.lt_succ_self _
  | case7 a b c d n hn hlow hhigh slash kind a' b' c' d' tail hu m hm hlow' _ ih
  | case11 a b c d tail n hn hlow hhigh _ ih
  | case14 kind tail hkind e he _ ih
  | case16 kind tail hquote hslash hcontrol ih =>
    obtain ⟨tail', htail, rfl⟩ := consChar_eq_some.mp h
    have hrest := ih htail
    simp only [List.length_cons]
    omega
  | _ => cases h

lemma length_spanDigits (cs : List Char) :
    (spanDigits cs).1.length + (spanDigits cs).2.length = cs.length := by
  rw [spanDigits, ← List.length_append, List.takeWhile_append_dropWhile]

section Numbers

variable {negative : Bool} {cs rest : List Char}

lemma length_readFraction {fraction : Option (List Char)}
    (h : readFraction cs = some (fraction, rest)) : rest.length ≤ cs.length := by
  unfold readFraction at h
  split at h
  · next tail =>
    have hspan := length_spanDigits tail
    simp only at h
    split_ifs at h
    cases h
    rw [List.length_cons]
    omega
  · cases h
    exact le_rfl

lemma length_readExponentDigits {exponent : Option ℤ}
    (h : readExponentDigits negative cs = some (exponent, rest)) : rest.length ≤ cs.length := by
  have hspan := length_spanDigits cs
  simp only [readExponentDigits] at h
  split_ifs at h <;>
  · cases h
    omega

lemma length_readExponent {exponent : Option ℤ} (h : readExponent cs = some (exponent, rest)) :
    rest.length ≤ cs.length := by
  unfold readExponent at h
  split at h
  · cases h
    exact le_rfl
  · split_ifs at h
    · split at h
      all_goals
        have hdigits := length_readExponentDigits h
        simp only [List.length_cons]
        omega
    · cases h
      exact le_rfl

lemma length_readUnsigned {n : Number} (h : readUnsigned negative cs = some (n, rest)) :
    rest.length < cs.length := by
  have hspan := length_spanDigits cs
  simp only [readUnsigned] at h
  split_ifs at h with hdigits
  -- At least one digit was read.
  have hpos : 0 < (spanDigits cs).1.length := by
    rw [List.length_pos_iff]
    intro hnil
    simp [hnil] at hdigits
  cases hf : readFraction (spanDigits cs).2 with
  | none => simp [hf] at h
  | some parts =>
    obtain ⟨fraction, behind⟩ := parts
    have hfraction := length_readFraction hf
    rw [hf] at h
    cases he : readExponent behind with
    | none => simp [he] at h
    | some parts =>
      obtain ⟨exponent, last⟩ := parts
      have hexponent := length_readExponent he
      simp only [he, Option.map_eq_some_iff, Prod.mk.injEq] at h
      obtain ⟨_, -, -, rfl⟩ := h
      omega

lemma length_readNumber {n : Number} (h : readNumber cs = some (n, rest)) :
    rest.length < cs.length := by
  unfold readNumber at h
  split at h
  · exact (length_readUnsigned h).trans (Nat.lt_succ_self _)
  · exact length_readUnsigned h

end Numbers

mutual

theorem length_readValue : ∀ {fuel depth : ℕ} {cs rest : List Char} {v : Json},
    readValue fuel depth cs = some (v, rest) → rest.length < cs.length
  | fuel + 1, depth, cs, rest, v, h => by
    cases step_of_readValue h with
    | null word | true word | false word =>
      have hword := length_behind word
      simp only [List.length_cons] at hword
      omega
    | string quote body => exact (length_readStringBody body).trans (length_behind quote)
    | number digits => exact (length_readNumber digits).trans_le (length_skipBlanks cs)
    | emptyArray _ opened close | emptyObject _ opened close =>
      exact (length_behind close).trans (length_behind opened)
    | array _ bracket head _ read =>
      have hinside := length_readItems read
      rw [← head] at hinside
      exact (hinside.trans_le (length_skipBlanks _)).trans (length_behind bracket)
    | object _ brace head _ read =>
      have hinside := length_readFields read
      rw [← head] at hinside
      exact (hinside.trans_le (length_skipBlanks _)).trans (length_behind brace)

theorem length_readItems : ∀ {fuel depth : ℕ} {cs rest : List Char} {items : List Json},
    readItems fuel depth cs = some (items, rest) → rest.length < cs.length
  | fuel + 1, depth, cs, rest, items, h => by
    obtain ⟨item, behind, hvalue, hrest⟩ := readItems_iff.mp h
    have hitem := length_readValue hvalue
    rcases hrest with ⟨tail, others, hcomma, hitems, -⟩ | ⟨hclose, -⟩
    · exact ((length_readItems hitems).trans (length_behind hcomma)).trans hitem
    · exact (length_behind hclose).trans hitem

theorem length_readFields : ∀ {fuel depth : ℕ} {cs rest : List Char}
    {fields : List (String × Json)}, readFields fuel depth cs = some (fields, rest) →
      rest.length < cs.length
  | fuel + 1, depth, cs, rest, fields, h => by
    obtain ⟨start, name, colon, tail, value, behind, hquote, hname, hcolon, hvalue, hrest⟩ :=
      readFields_iff.mp h
    have hfield : behind.length < cs.length := calc
      behind.length < tail.length := length_readValue hvalue
      _ < colon.length := length_behind hcolon
      _ < start.length := length_readStringBody hname
      _ < cs.length := length_behind hquote
    rcases hrest with ⟨next, others, hcomma, hfields, -⟩ | ⟨hclose, -⟩
    · exact ((length_readFields hfields).trans (length_behind hcomma)).trans hfield
    · exact (length_behind hclose).trans hfield

end

/-! ### Enough steps -/

mutual

/-- Two steps for each character are enough for a value. -/
theorem readValue_enough : ∀ {fuel steps depth : ℕ} {cs rest : List Char} {v : Json},
    2 * cs.length ≤ steps → readValue fuel depth cs = some (v, rest) →
      readValue steps depth cs = some (v, rest)
  | fuel + 1, steps, depth, cs, rest, v, hsteps, h => by
    have hlength := length_readValue h
    obtain ⟨steps, rfl⟩ : ∃ k, steps = k + 1 := ⟨steps - 1, by omega⟩
    -- What is inside a container begins behind its first character.
    have hinside {c d : Char} {tail first : List Char} (hopen : skipBlanks cs = c :: tail)
        (hhead : skipBlanks tail = d :: first) : 2 * (d :: first).length + 1 ≤ steps := by
      have hbehind := length_behind hopen
      have hskip := length_skipBlanks tail
      rw [hhead] at hskip
      omega
    refine readValue_of_step ?_
    cases step_of_readValue h with
    | null word => exact .null word
    | true word => exact .true word
    | false word => exact .false word
    | string quote body => exact .string quote body
    | number digits => exact .number digits
    | emptyArray deep bracket close => exact .emptyArray deep bracket close
    | array deep bracket head unclosed read =>
      exact .array deep bracket head unclosed (readItems_enough (hinside bracket head) read)
    | emptyObject deep brace close => exact .emptyObject deep brace close
    | object deep brace head unclosed read =>
      exact .object deep brace head unclosed (readFields_enough (hinside brace head) read)

theorem readItems_enough : ∀ {fuel steps depth : ℕ} {cs rest : List Char} {items : List Json},
    2 * cs.length + 1 ≤ steps → readItems fuel depth cs = some (items, rest) →
      readItems steps depth cs = some (items, rest)
  | fuel + 1, steps + 1, depth, cs, rest, items, hsteps, h => by
    obtain ⟨item, behind, hvalue, hrest⟩ := readItems_iff.mp h
    have hitem := length_readValue hvalue
    refine readItems_iff.mpr ⟨item, behind, readValue_enough (by omega) hvalue, ?_⟩
    rcases hrest with ⟨tail, others, hcomma, hitems, rfl⟩ | ⟨hclose, rfl⟩
    · have htail := length_behind hcomma
      exact .inl ⟨tail, others, hcomma, readItems_enough (by omega) hitems, rfl⟩
    · exact .inr ⟨hclose, rfl⟩

theorem readFields_enough : ∀ {fuel steps depth : ℕ} {cs rest : List Char}
    {fields : List (String × Json)}, 2 * cs.length + 1 ≤ steps →
      readFields fuel depth cs = some (fields, rest) →
        readFields steps depth cs = some (fields, rest)
  | fuel + 1, steps + 1, depth, cs, rest, fields, hsteps, h => by
    obtain ⟨start, name, colon, tail, value, behind, hquote, hname, hcolon, hvalue, hrest⟩ :=
      readFields_iff.mp h
    have htail : tail.length < cs.length := calc
      tail.length < colon.length := length_behind hcolon
      _ < start.length := length_readStringBody hname
      _ < cs.length := length_behind hquote
    have hfield := length_readValue hvalue
    refine readFields_iff.mpr ⟨start, name, colon, tail, value, behind, hquote, hname, hcolon,
      readValue_enough (by omega) hvalue, ?_⟩
    rcases hrest with ⟨next, others, hcomma, hfields, rfl⟩ | ⟨hclose, rfl⟩
    · have hnext := length_behind hcomma
      exact .inl ⟨next, others, hcomma, readFields_enough (by omega) hfields, rfl⟩
    · exact .inr ⟨hclose, rfl⟩

end

/-- The text begins with the value, however many steps it takes to read it, and `rest` comes behind
it. -/
def Begins (cs : List Char) (v : Json) (rest : List Char) : Prop :=
  ∃ fuel, readValue fuel nestingLimit cs = some (v, rest)

lemma readFirst_iff {cs rest : List Char} {v : Json} :
    readFirst cs = some (v, rest) ↔ Begins cs v rest := by
  constructor
  · intro h
    exact ⟨enoughFuel cs, h⟩
  · rintro ⟨fuel, h⟩
    exact readValue_enough (Nat.le_add_right _ _) h

lemma Begins.length_lt {cs rest : List Char} {v : Json} (h : Begins cs v rest) :
    rest.length < cs.length := by
  obtain ⟨fuel, h⟩ := h
  exact length_readValue h

end SignatureSearch.Json
