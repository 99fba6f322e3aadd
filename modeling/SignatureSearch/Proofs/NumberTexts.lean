import Mathlib
import SignatureSearch.Json.Printer
import SignatureSearch.Json.Reader

/-! Reading numbers. A number is read the same whatever follows it, as long as that does not go on
with the number, and a whole number of 64 bits is read back from its digits. -/
namespace SignatureSearch.Json

def EndsNumber (rest : List Char) : Prop :=
  ∀ c more, rest = c :: more → c.isDigit = false ∧ c ≠ '.' ∧ c ≠ 'e' ∧ c ≠ 'E'

lemma endsNumber_nil : EndsNumber [] := by
  intro c more h
  cases h

lemma endsNumber_cons {c : Char} (h : c.isDigit = false ∧ c ≠ '.' ∧ c ≠ 'e' ∧ c ≠ 'E')
    (more : List Char) : EndsNumber (c :: more) := by
  intro c' more' h'
  cases h'
  exact h

lemma readExponent_mark {mark sign : Char} (hm : mark = 'e' ∨ mark = 'E') (hp : sign ≠ '+')
    (hn : sign ≠ '-') (cs : List Char) :
    readExponent (mark :: sign :: cs) = readExponentDigits false (sign :: cs) := by
  simp only [readExponent, hm, if_true]
  split
  · next heq => exact absurd (List.cons.inj heq).1 hp
  · next heq => exact absurd (List.cons.inj heq).1 hn
  · rfl

lemma readNumber_unsigned {c : Char} (hc : c ≠ '-') (cs : List Char) :
    readNumber (c :: cs) = readUnsigned false (c :: cs) := by
  unfold readNumber
  split
  · next heq => exact absurd (List.cons.inj heq).1 hc
  · rfl

section Numbers

variable {rest : List Char} (h : EndsNumber rest)
include h

lemma spanDigits_append (cs : List Char) :
    spanDigits (cs ++ rest) = ((spanDigits cs).1, (spanDigits cs).2 ++ rest) := by
  induction cs with
  | nil =>
    cases rest with
    | nil => rfl
    | cons c more => simp [spanDigits, (h c more rfl).1]
  | cons c cs ih =>
    simp only [spanDigits, Prod.mk.injEq] at ih
    cases hc : c.isDigit <;> simp [spanDigits, hc, ih]

lemma readFraction_append {cs more : List Char} {fraction : Option (List Char)}
    (hr : readFraction cs = some (fraction, more)) :
    readFraction (cs ++ rest) = some (fraction, more ++ rest) := by
  unfold readFraction at hr
  split at hr
  · next tail =>
    rw [List.cons_append, readFraction, spanDigits_append h]
    simp only at hr ⊢
    split_ifs at hr ⊢
    cases hr
    rfl
  · next hpoint =>
    cases hr
    cases cs with
    | nil =>
      cases rest with
      | nil => rfl
      | cons c tail =>
        have hc := (h c tail rfl).2.1
        simp [readFraction, hc]
    | cons c cs =>
      have hc : c ≠ '.' := fun hc => hpoint cs (by rw [hc])
      simp [readFraction, hc]

lemma readExponentDigits_append {negative : Bool} {cs more : List Char} {exponent : Option ℤ}
    (hr : readExponentDigits negative cs = some (exponent, more)) :
    readExponentDigits negative (cs ++ rest) = some (exponent, more ++ rest) := by
  simp only [readExponentDigits, spanDigits_append h] at hr ⊢
  split_ifs at hr ⊢ <;> cases hr <;> rfl

lemma readExponent_append {cs more : List Char} {exponent : Option ℤ}
    (hr : readExponent cs = some (exponent, more)) :
    readExponent (cs ++ rest) = some (exponent, more ++ rest) := by
  match cs with
  | [] =>
    cases hr
    cases rest with
    | nil => rfl
    | cons c tail =>
      have hc := (h c tail rfl).2.2
      simp [readExponent, hc]
  | mark :: tail =>
    by_cases hmark : mark = 'e' ∨ mark = 'E'
    · cases tail with
      | nil => simp [readExponent, hmark, readExponentDigits, spanDigits] at hr
      | cons sign tail =>
        by_cases hplus : sign = '+'
        · subst hplus
          simp only [readExponent, hmark, if_true, List.cons_append] at hr ⊢
          exact readExponentDigits_append h hr
        · by_cases hminus : sign = '-'
          · subst hminus
            simp only [readExponent, hmark, if_true, List.cons_append] at hr ⊢
            exact readExponentDigits_append h hr
          · rw [List.cons_append, List.cons_append, readExponent_mark hmark hplus hminus]
            rw [readExponent_mark hmark hplus hminus] at hr
            exact readExponentDigits_append h hr
    · simp only [readExponent, hmark, if_false, List.cons_append] at hr ⊢
      cases hr
      rfl

lemma readUnsigned_append {negative : Bool} {cs more : List Char} {n : Number}
    (hr : readUnsigned negative cs = some (n, more)) :
    readUnsigned negative (cs ++ rest) = some (n, more ++ rest) := by
  simp only [readUnsigned, spanDigits_append h] at hr ⊢
  split_ifs at hr ⊢ with hdigits
  cases hf : readFraction (spanDigits cs).2 with
  | none => simp [hf] at hr
  | some parts =>
    obtain ⟨fraction, behind⟩ := parts
    rw [hf] at hr
    rw [readFraction_append h hf]
    cases he : readExponent behind with
    | none => simp [he] at hr
    | some parts =>
      obtain ⟨exponent, behind⟩ := parts
      simp only [he, readExponent_append h he, Option.map_eq_some_iff] at hr ⊢
      obtain ⟨n, hn, hmore⟩ := hr
      cases hmore
      exact ⟨n, hn, rfl⟩

/-- What is read as a number is read so whatever follows it. -/
lemma readNumber_append {cs more : List Char} {n : Number} (hr : readNumber cs = some (n, more)) :
    readNumber (cs ++ rest) = some (n, more ++ rest) := by
  cases cs with
  | nil => simp [readNumber, readUnsigned, spanDigits] at hr
  | cons c cs =>
    by_cases hminus : c = '-'
    · subst hminus
      exact readUnsigned_append h hr
    · rw [List.cons_append, readNumber_unsigned hminus]
      rw [readNumber_unsigned hminus] at hr
      exact readUnsigned_append h hr

end Numbers

lemma readNumber_head {cs : List Char} {p : Number × List Char} (hr : readNumber cs = some p) :
    ∃ c more, cs = c :: more ∧ (c = '-' ∨ c.isDigit = true) := by
  cases cs with
  | nil => simp [readNumber, readUnsigned, spanDigits] at hr
  | cons c more =>
    refine ⟨c, more, rfl, ?_⟩
    by_contra hc
    obtain ⟨hminus, hdigit⟩ := not_or.mp hc
    rw [readNumber_unsigned hminus] at hr
    simp [readUnsigned, spanDigits, hdigit] at hr

/-! ### Whole numbers -/

lemma le_ofDigitChars (digits : List Char) (n : ℕ) : n ≤ Nat.ofDigitChars 10 digits n := by
  induction digits generalizing n with
  | nil => simp [Nat.ofDigitChars]
  | cons c digits ih =>
    have hnext := ih (10 * n + (c.toNat - '0'.toNat))
    rw [Nat.ofDigitChars_cons]
    omega

lemma appendDigit_eq (n : ℕ) (c : Char) : appendDigit n c = 10 * n + (c.toNat - '0'.toNat) :=
  congrArg (· + (c.toNat - 48)) (Nat.mul_comm n 10)

lemma wholeDigits_eq (digits : List Char) (n : ℕ) (h : Nat.ofDigitChars 10 digits n < 1 <<< 64) :
    wholeDigits n digits = (Nat.ofDigitChars 10 digits n, 0) := by
  induction digits generalizing n with
  | nil => rfl
  | cons c digits ih =>
    rw [Nat.ofDigitChars_cons] at h ⊢
    have hle := le_ofDigitChars digits (10 * n + (c.toNat - '0'.toNat))
    rw [wholeDigits, appendDigit_eq, if_pos (hle.trans_lt h)]
    exact ih _ h

lemma head_toDigits {n : ℕ} (hn : 0 < n) : (Nat.toDigits 10 n).head? ≠ some '0' := by
  induction n using Nat.strong_induction_on with
  | _ n ih =>
    by_cases hlt : n < 10
    · rw [Nat.toDigits_of_lt_base hlt]
      interval_cases n <;> decide
    · rw [Nat.toDigits_of_base_le (by decide) (by omega),
        List.head?_append_of_ne_nil _ Nat.toDigits_ne_nil]
      exact ih (n / 10) (by omega) (by omega)

lemma readUnsigned_toDigits {negative : Bool} {n : ℕ} (hn : n < 1 <<< 64) :
    readUnsigned negative (Nat.toDigits 10 n) =
      (wholeNumber? negative n).map fun n => (n, []) := by
  have hdigits : ∀ c ∈ Nat.toDigits 10 n, c.isDigit = true :=
    fun c hc => Nat.isDigit_of_mem_toDigits (by decide) (by decide) hc
  have hspan : spanDigits (Nat.toDigits 10 n) = (Nat.toDigits 10 n, []) := by
    rw [spanDigits, List.takeWhile_eq_self_iff.mpr hdigits, List.dropWhile_eq_nil_iff.mpr hdigits]
  have hvalue : Nat.ofDigitChars 10 (Nat.toDigits 10 n) 0 = n :=
    Nat.ofDigitChars_toDigits (by decide) (by decide)
  have hwhole := wholeDigits_eq (Nat.toDigits 10 n) 0 (by rwa [hvalue])
  have hfirst : ((Nat.toDigits 10 n).isEmpty ||
      (decide ((Nat.toDigits 10 n).length > 1) && (Nat.toDigits 10 n).head? == some '0')) =
        false := by
    rcases Nat.eq_zero_or_pos n with rfl | hpos
    · rfl
    · have hne : Nat.toDigits 10 n ≠ [] := Nat.toDigits_ne_nil
      have hhead := head_toDigits hpos
      simp [hne, hhead]
  rw [hvalue] at hwhole
  simp only [readUnsigned, hspan, hfirst, Bool.false_eq_true, if_false, readFraction, readExponent,
    numberOf?, hwhole]
  rfl

lemma toDigits_head (n : ℕ) : ∃ c more, Nat.toDigits 10 n = c :: more ∧ c ≠ '-' := by
  cases hd : Nat.toDigits 10 n with
  | nil => exact absurd hd Nat.toDigits_ne_nil
  | cons c more =>
    refine ⟨c, more, rfl, ?_⟩
    rintro rfl
    have hmem : '-' ∈ Nat.toDigits 10 n := by simp [hd]
    have hdigit := Nat.isDigit_of_mem_toDigits (by decide) (by decide) hmem
    simp at hdigit

lemma WordInt.ofInt?_value (n : WordInt) : WordInt.ofInt? n.value = some n :=
  dif_pos ⟨n.lower, n.upper⟩

lemma wholeNumber?_integer {negative : Bool} {significand : ℕ} {n : WordInt}
    (h0 : ¬(negative ∧ significand = 0))
    (h : WordInt.ofInt? (if negative then -significand else significand) = some n) :
    wholeNumber? negative significand = some (.integer n) := by
  rw [wholeNumber?, if_neg h0, h]

/-- A whole number is read back. -/
lemma readNumber_integer (n : WordInt) :
    readNumber (numberChars (.integer n)) = some (.integer n, []) := by
  have hvalue := WordInt.ofInt?_value n
  have hlower := n.lower
  have hupper := n.upper
  rcases hn : n.value with m | m
  · have hchars : numberChars (.integer n) = Nat.toDigits 10 m := by
      rw [numberChars, hn]
      exact Nat.toList_repr
    have hm : m < 1 <<< 64 := by
      rw [hn] at hupper
      exact Int.ofNat_lt.mp hupper
    obtain ⟨c, more, hdigits, hminus⟩ := toDigits_head m
    rw [hn] at hvalue
    have hwhole : wholeNumber? false m = some (.integer n) :=
      wholeNumber?_integer (by simp) hvalue
    rw [hchars, hdigits, readNumber_unsigned hminus, ← hdigits, readUnsigned_toDigits hm, hwhole]
    rfl
  · have hchars : numberChars (.integer n) = '-' :: Nat.toDigits 10 (m + 1) := by
      rw [numberChars, hn]
      simp [toString, Int.repr]
    have hm : m + 1 < 1 <<< 64 := by
      rw [hn] at hlower
      omega
    rw [hn] at hvalue
    have hwhole : wholeNumber? true (m + 1) = some (.integer n) :=
      wholeNumber?_integer (by simp) hvalue
    rw [hchars]
    change readUnsigned true (Nat.toDigits 10 (m + 1)) = _
    rw [readUnsigned_toDigits hm, hwhole]
    rfl

end SignatureSearch.Json
