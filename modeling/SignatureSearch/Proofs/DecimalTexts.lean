import Mathlib
import SignatureSearch.Proofs.NumberTexts
import SignatureSearch.Proofs.ShortestDecimal

/-! Reading the texts of binary64 numbers. Every text that a finite number is written as is read as
a finite number, though not always as the same one. -/
namespace SignatureSearch.Json

/-! ### Digits -/

lemma ofDigitChars_lt {digits : List Char} (h : ∀ c ∈ digits, c.isDigit = true) (n : ℕ) :
    Nat.ofDigitChars 10 digits n < 10 ^ digits.length * (n + 1) := by
  induction digits generalizing n with
  | nil => simp [Nat.ofDigitChars]
  | cons c digits ih =>
    obtain ⟨hc, hdigits⟩ := List.forall_mem_cons.mp h
    have hdigit : c.toNat - '0'.toNat ≤ 9 := by
      have hbounds := Char.isDigit_iff_toNat.mp hc
      have hnine : '9'.toNat = '0'.toNat + 9 := rfl
      omega
    rw [Nat.ofDigitChars_cons]
    calc Nat.ofDigitChars 10 digits (10 * n + (c.toNat - '0'.toNat))
        < 10 ^ digits.length * (10 * n + (c.toNat - '0'.toNat) + 1) := ih hdigits _
      _ ≤ 10 ^ digits.length * (10 * (n + 1)) := Nat.mul_le_mul_left _ (by omega)
      _ = 10 ^ (digits.length + 1) * (n + 1) := by rw [pow_succ]; ring

lemma digitsValue_eq (digits : List Char) :
    Count.digitsValue digits = Nat.ofDigitChars 10 digits 0 :=
  congrArg (fun step => digits.foldl step 0) (funext₂ appendDigit_eq)

lemma fractionDigits_eq (digits : List Char) (n count : ℕ)
    (h : Nat.ofDigitChars 10 digits n < 1 <<< 64) :
    fractionDigits n count digits = (Nat.ofDigitChars 10 digits n, count + digits.length) := by
  induction digits generalizing n count with
  | nil => rfl
  | cons c digits ih =>
    rw [Nat.ofDigitChars_cons] at h ⊢
    have hle := le_ofDigitChars digits (10 * n + (c.toNat - '0'.toNat))
    rw [fractionDigits, appendDigit_eq, if_pos (hle.trans_lt h), ih _ _ h, List.length_cons,
      Nat.add_right_comm, Nat.add_assoc]

/-- The digits that are kept fit in 64 bits. -/
lemma fractionDigits_lt (digits : List Char) (n count : ℕ) (h : n < 1 <<< 64) :
    (fractionDigits n count digits).1 < 1 <<< 64 := by
  induction digits generalizing n count with
  | nil => exact h
  | cons c digits ih =>
    rw [fractionDigits]
    split_ifs with hfits
    · exact ih _ _ hfits
    · exact h

lemma isDigit_toDigits {n : ℕ} : ∀ c ∈ Nat.toDigits 10 n, c.isDigit = true :=
  fun _ hc => Nat.isDigit_of_mem_toDigits (by decide) (by decide) hc

/-! ### Literals -/

structure IsWhole (digits : List Char) : Prop where
  digit : ∀ c ∈ digits, c.isDigit = true
  ne_nil : digits ≠ []
  head : 1 < digits.length → digits.head? ≠ some '0'

/-- The first digit of a number other than zero begins a literal, with any digits behind it. -/
lemma isWhole_of_head {digits : List Char} {n : ℕ} (hn : 0 < n)
    (h : ∀ c ∈ digits, c.isDigit = true) (hne : digits ≠ [])
    (hhead : digits.head? = (Nat.toDigits 10 n).head?) : IsWhole digits :=
  ⟨h, hne, fun _ => hhead ▸ head_toDigits hn⟩

lemma spanDigits_digits {digits rest : List Char} (h : ∀ c ∈ digits, c.isDigit = true)
    (hrest : ∀ c more, rest = c :: more → c.isDigit = false) :
    spanDigits (digits ++ rest) = (digits, rest) := by
  induction digits with
  | nil =>
    cases rest with
    | nil => rfl
    | cons c more => simp [spanDigits, hrest c more rfl]
  | cons c digits ih =>
    obtain ⟨hc, hdigits⟩ := List.forall_mem_cons.mp h
    have htail := ih hdigits
    simp only [spanDigits, Prod.mk.injEq] at htail
    simp [spanDigits, hc, htail]

lemma spanDigits_all {digits : List Char} (h : ∀ c ∈ digits, c.isDigit = true) :
    spanDigits digits = (digits, []) := by
  rw [spanDigits, List.takeWhile_eq_self_iff.mpr h, List.dropWhile_eq_nil_iff.mpr h]

lemma readUnsigned_parts {negative : Bool} {digits rest more : List Char}
    {fraction : Option (List Char)} {exponent : Option ℤ} (h : IsWhole digits)
    (hrest : ∀ c more, rest = c :: more → c.isDigit = false)
    (hfraction : readFraction rest = some (fraction, more))
    (hexponent : readExponent more = some (exponent, [])) :
    readUnsigned negative (digits ++ rest) =
      (numberOf? negative digits fraction exponent).map fun n => (n, []) := by
  have hfirst : (digits.isEmpty || (decide (digits.length > 1) && digits.head? == some '0')) =
      false := by
    by_cases hlong : 1 < digits.length
    · simp [h.ne_nil, h.head hlong]
    · simp [h.ne_nil, hlong]
  simp only [readUnsigned, spanDigits_digits h.digit hrest, hfirst, Bool.false_eq_true, if_false,
    hfraction, hexponent]

lemma numberOf?_eq {negative : Bool} {digits : List Char} {fraction : Option (List Char)}
    {exponent : Option ℤ} {whole significand places : ℕ} (h : fraction.isSome ∨ exponent.isSome)
    (hwhole : wholeDigits 0 digits = (whole, 0))
    (hfraction : fractionDigits whole 0 (fraction.getD []) = (significand, places)) :
    numberOf? negative digits fraction exponent =
      (Binary64.ofScaled? negative ⟨significand, -places + exponent.getD 0⟩).map .float := by
  have hparts : (fraction.isNone && exponent.isNone && (0 : ℕ) == 0) = false := by
    rcases h with h | h <;> obtain ⟨_, rfl⟩ := Option.isSome_iff_exists.mp h <;> simp
  simp only [numberOf?, hwhole, hparts, Bool.false_eq_true, if_false, hfraction, Nat.cast_zero,
    zero_sub]

/-- A literal of at most nineteen digits, a point and more digits is a number. -/
lemma readUnsigned_point (negative : Bool) {whole fraction : List Char} (h : IsWhole whole)
    (hshort : whole.length ≤ 19) (hdigit : ∀ c ∈ fraction, c.isDigit = true) (hne : fraction ≠ []) :
    ∃ x, readUnsigned negative (whole ++ '.' :: fraction) = some (.float x, []) := by
  have hvalue : Nat.ofDigitChars 10 whole 0 < 1 <<< 64 := by
    have hpow : 10 ^ whole.length ≤ 10 ^ 19 := Nat.pow_le_pow_right (by decide) hshort
    have hlt := ofDigitChars_lt h.digit 0
    omega
  have hwhole := wholeDigits_eq whole 0 hvalue
  have hsignificand := fractionDigits_lt fraction (Nat.ofDigitChars 10 whole 0) 0 hvalue
  have hspan : spanDigits fraction = (fraction, []) :=
    spanDigits_all hdigit
  have hfraction : readFraction ('.' :: fraction) = some (some fraction, []) := by
    simp [readFraction, hspan, hne]
  have hrest : ∀ c more, '.' :: fraction = c :: more → c.isDigit = false := by
    rintro c more ⟨⟩
    rfl
  obtain ⟨x, hx⟩ := Binary64.ofScaled?_of_nonpos negative
    (d := ⟨(fractionDigits (Nat.ofDigitChars 10 whole 0) 0 fraction).1,
      -(fractionDigits (Nat.ofDigitChars 10 whole 0) 0 fraction).2 + 0⟩) hsignificand (by simp)
  refine ⟨x, ?_⟩
  rw [readUnsigned_parts h hrest hfraction rfl, numberOf?_eq (.inl rfl) hwhole rfl]
  simp only [Option.getD_some, Option.getD_none, hx, Option.map_some]

def exponentText (e : ℤ) : List Char :=
  'e' :: (if e < 0 then '-' else '+') :: Nat.toDigits 10 e.natAbs

lemma readExponent_text (e : ℤ) : readExponent (exponentText e) = some (some e, []) := by
  have hspan : spanDigits (Nat.toDigits 10 e.natAbs) = (Nat.toDigits 10 e.natAbs, []) :=
    spanDigits_all isDigit_toDigits
  have hvalue : Count.digitsValue (Nat.toDigits 10 e.natAbs) = e.natAbs := by
    rw [digitsValue_eq, Nat.ofDigitChars_toDigits (by decide) (by decide)]
  unfold exponentText
  split_ifs with hneg
  · have hsize : -(e.natAbs : ℤ) = e := by omega
    simp [readExponent, readExponentDigits, hspan, hvalue, hsize, -Nat.cast_natAbs]
  · have hsize : (e.natAbs : ℤ) = e := by omega
    simp [readExponent, readExponentDigits, hspan, hvalue, hsize, -Nat.cast_natAbs]

def fractionText : List Char → List Char
  | [] => []
  | c :: digits => '.' :: c :: digits

lemma readFraction_text {digits : List Char} (h : ∀ c ∈ digits, c.isDigit = true) (e : ℤ) :
    ∃ fraction, readFraction (fractionText digits ++ exponentText e) =
      some (fraction, exponentText e) ∧ fraction.getD [] = digits := by
  cases digits with
  | nil => exact ⟨none, by simp [fractionText, exponentText, readFraction], rfl⟩
  | cons c digits =>
    have hmark : ∀ c more, exponentText e = c :: more → c.isDigit = false := by
      rintro c more ⟨⟩
      rfl
    have hspan := spanDigits_digits h hmark
    rw [List.cons_append] at hspan
    refine ⟨some (c :: digits), ?_, rfl⟩
    simp [fractionText, readFraction, hspan]

/-- A digit, more digits behind a point, and an exponent are read as the decimal that they stand
for, if its digits fit in 64 bits. -/
lemma readUnsigned_exponent (negative : Bool) {c : Char} {digits : List Char}
    (hc : c.isDigit = true) (hdigits : ∀ c ∈ digits, c.isDigit = true) (e : ℤ)
    (hvalue : Nat.ofDigitChars 10 (c :: digits) 0 < 1 <<< 64) :
    readUnsigned negative (c :: (fractionText digits ++ exponentText e)) =
      (Binary64.ofScaled? negative ⟨Nat.ofDigitChars 10 (c :: digits) 0,
        e - digits.length⟩).map fun x => (.float x, []) := by
  have hwhole : IsWhole [c] := ⟨by simpa using hc, by simp, by simp⟩
  have hrest : ∀ c more, fractionText digits ++ exponentText e = c :: more →
      c.isDigit = false := by
    cases digits <;> rintro c more ⟨⟩ <;> rfl
  obtain ⟨fraction, hfraction, hgetD⟩ := readFraction_text hdigits e
  have hsplit : Nat.ofDigitChars 10 (c :: digits) 0 =
      Nat.ofDigitChars 10 digits (Nat.ofDigitChars 10 [c] 0) :=
    Nat.ofDigitChars_append (l := [c]) 0
  rw [hsplit] at hvalue ⊢
  have hfirst := wholeDigits_eq [c] 0 ((le_ofDigitChars digits _).trans_lt hvalue)
  have hsignificand := fractionDigits_eq digits (Nat.ofDigitChars 10 [c] 0) 0 hvalue
  rw [Nat.zero_add, ← hgetD] at hsignificand
  have hliteral : c :: (fractionText digits ++ exponentText e) =
      [c] ++ (fractionText digits ++ exponentText e) := rfl
  rw [hliteral, readUnsigned_parts hwhole hrest hfraction (readExponent_text e),
    numberOf?_eq (.inr rfl) hfirst hsignificand, Option.map_map, Option.getD_some, neg_add_eq_sub,
    hgetD]
  rfl

/-! ### Written numbers -/

open Binary64

lemma layout_exponent {n : ℕ} {e leading : ℤ} (he : leading = e + (Nat.toDigits 10 n).length - 1)
    (h : leading < -5 ∨ 16 ≤ leading) : ∃ c digits, Nat.toDigits 10 n = c :: digits ∧
      layout ⟨n, e⟩ = c :: (fractionText digits ++ exponentText leading) := by
  cases hd : Nat.toDigits 10 n with
  | nil => exact absurd hd Nat.toDigits_ne_nil
  | cons c digits =>
    refine ⟨c, digits, rfl, ?_⟩
    rw [hd] at he
    simp only [layout, hd, ← he, if_pos h, exponentText]
    cases digits <;> rfl

/-- Without an exponent, at most sixteen digits stand before the point. -/
lemma readUnsigned_layout_point (negative : Bool) {n : ℕ} (hn : 0 < n) {e leading : ℤ}
    (he : leading = e + (Nat.toDigits 10 n).length - 1) (h : ¬(leading < -5 ∨ 16 ≤ leading)) :
    ∃ x, readUnsigned negative (layout ⟨n, e⟩) = some (.float x, []) := by
  have hdigit : ∀ c ∈ Nat.toDigits 10 n, c.isDigit = true := isDigit_toDigits
  have hne : Nat.toDigits 10 n ≠ [] := Nat.toDigits_ne_nil
  have hzeros : ∀ k, ∀ c ∈ List.replicate k '0', c.isDigit = true := by
    intro k c hc
    rw [List.eq_of_mem_replicate hc]
    rfl
  simp only [layout, ← he, if_neg h]
  split_ifs with hsmall hwhole
  · -- The number is less than one: zeros stand between the point and its digits.
    have hzero : IsWhole ['0'] := ⟨by simp, by simp, by simp⟩
    refine readUnsigned_point negative hzero (by decide) ?_ (by simp [hne])
    exact List.forall_mem_append.mpr ⟨hzeros _, hdigit⟩
  · -- It is whole: zeros stand between its digits and the point.
    have hlength : (Nat.toDigits 10 n ++ List.replicate e.toNat '0').length ≤ 19 := by
      rw [List.length_append, List.length_replicate]
      omega
    have hall := List.forall_mem_append.mpr ⟨hdigit, hzeros e.toNat⟩
    rw [← List.append_assoc]
    exact readUnsigned_point negative
      (isWhole_of_head hn hall (by simp [hne]) (List.head?_append_of_ne_nil _ hne)) hlength
      (by simp) (by simp)
  · -- The point stands among the digits.
    have hlength : ((Nat.toDigits 10 n).take (leading.toNat + 1)).length ≤ 19 := by
      rw [List.length_take]
      omega
    have hhead : ((Nat.toDigits 10 n).take (leading.toNat + 1)).head? =
        (Nat.toDigits 10 n).head? := by simp [List.head?_take]
    refine readUnsigned_point negative (isWhole_of_head hn ?_ (by simp [hne]) hhead) hlength ?_ ?_
    · exact fun c hc => hdigit c (List.mem_of_mem_take hc)
    · exact fun c hc => hdigit c (List.mem_of_mem_drop hc)
    · rw [Ne, List.drop_eq_nil_iff]
      omega

/-- The text of a decimal is read as a number, if the decimal itself is read as one. -/
lemma readUnsigned_layout (negative : Bool) {d : Decimal} (hpos : 0 < d.digits)
    (hfits : d.digits < 1 <<< 64) (h : ∃ x, ofScaled? negative d = some x) :
    ∃ x, readUnsigned negative (layout d) = some (.float x, []) := by
  obtain ⟨n, e⟩ := d
  obtain ⟨x, hx⟩ := h
  by_cases hexponent : e + (Nat.toDigits 10 n).length - 1 < -5 ∨
      16 ≤ e + (Nat.toDigits 10 n).length - 1
  · obtain ⟨c, digits, hdigits, hlayout⟩ := layout_exponent rfl hexponent
    have hall : ∀ c ∈ Nat.toDigits 10 n, c.isDigit = true := isDigit_toDigits
    have hvalue : Nat.ofDigitChars 10 (Nat.toDigits 10 n) 0 = n :=
      Nat.ofDigitChars_toDigits (by decide) (by decide)
    rw [hdigits] at hall hvalue hlayout
    obtain ⟨hc, hmore⟩ := List.forall_mem_cons.mp hall
    have hplace : e + ((c :: digits).length : ℤ) - 1 - digits.length = e := by
      rw [List.length_cons]
      omega
    rw [hlayout, readUnsigned_exponent negative hc hmore _ (hvalue ▸ hfits), hvalue, hplace, hx]
    exact ⟨x, rfl⟩
  · exact readUnsigned_layout_point negative hpos rfl hexponent

/-- What is read as a number of either sign is read as one with or without a minus in front of
it. -/
lemma exists_readNumber {cs : List Char}
    (h : ∀ negative, ∃ y, readUnsigned negative cs = some (.float y, [])) (negative : Bool) :
    ∃ y, readNumber (if negative then '-' :: cs else cs) = some (.float y, []) := by
  cases negative with
  | true => exact h true
  | false =>
    obtain ⟨y, hy⟩ := h false
    refine ⟨y, ?_⟩
    cases cs with
    | nil => exact hy
    | cons c more =>
      have hminus : c ≠ '-' := by
        rintro rfl
        simp [readUnsigned, spanDigits] at hy
      rw [if_neg Bool.false_ne_true, readNumber_unsigned hminus, hy]

/-- What a finite number is written as is read as a finite number. -/
theorem exists_readNumber_chars (x : Binary64) :
    ∃ y, readNumber x.chars = some (.float y, []) := by
  refine exists_readNumber (fun negative => ?_) x.negative
  split_ifs with hmagnitude
  · have hzero : IsWhole ['0'] := ⟨by simp, by simp, by simp⟩
    have hdigit : ∀ c ∈ ['0'], c.isDigit = true := by simp
    exact readUnsigned_point negative hzero (by decide) hdigit (by simp)
  · have hdenotes := denotes_shortest hmagnitude
    exact readUnsigned_layout negative (hdenotes.digits_pos hmagnitude)
      (hdenotes.short.trans_lt (by decide)) (ofScaled?_shortest negative hmagnitude x.finite)

/-- The number that the text of a number is read as. -/
def rereadNumber (n : Number) : Number :=
  match readNumber (numberChars n) with
  | some (read, _) => read
  | none => n

lemma rereadNumber_eq {n m : Number} {rest : List Char}
    (h : readNumber (numberChars n) = some (m, rest)) : rereadNumber n = m := by
  rw [rereadNumber, h]

/-- Every number is read from its text: a whole number as it is, another as a finite number. -/
lemma readNumber_numberChars (n : Number) :
    readNumber (numberChars n) = some (rereadNumber n, []) := by
  obtain ⟨m, hm⟩ : ∃ m, readNumber (numberChars n) = some (m, []) := by
    cases n with
    | integer n => exact ⟨_, readNumber_integer n⟩
    | float x =>
      obtain ⟨y, hy⟩ := exists_readNumber_chars x
      exact ⟨_, hy⟩
  rw [hm, rereadNumber_eq hm]

end SignatureSearch.Json
