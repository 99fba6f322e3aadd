import Mathlib
import SignatureSearch.Number.Decimal

/-! Rounding to binary64. It keeps the order, and what lies near a number is rounded to it. -/
namespace SignatureSearch.Binary64

/-! ### Whole numbers -/

/-- The nearest whole number is at most `c` when the quotient is not past the middle between `c`
and `c + 1`, where only an even `c` wins. -/
lemma roundHalfEven_le_iff {n d : ℕ} (hd : 0 < d) (c : ℕ) :
    roundHalfEven n d ≤ c ↔
      2 * n < (2 * c + 1) * d ∨ (2 * n = (2 * c + 1) * d ∧ c % 2 = 0) := by
  have hn := Nat.div_add_mod n d
  have hr := Nat.mod_lt n hd
  have hmiddle : (2 * c + 1) * d = 2 * (d * c) + d := by ring
  rw [hmiddle]
  rcases lt_trichotomy (n / d) c with hlt | rfl | hgt
  · have hbelow : d * (n / d + 1) ≤ d * c := Nat.mul_le_mul_left d hlt
    rw [Nat.mul_add, Nat.mul_one] at hbelow
    have hle : roundHalfEven n d ≤ c := by
      unfold roundHalfEven
      split_ifs <;> omega
    exact iff_of_true hle (.inl (by omega))
  · unfold roundHalfEven
    split_ifs <;> omega
  · have habove : d * (c + 1) ≤ d * (n / d) := Nat.mul_le_mul_left d hgt
    rw [Nat.mul_add, Nat.mul_one] at habove
    have hlt : c < roundHalfEven n d := by
      unfold roundHalfEven
      split_ifs <;> omega
    exact iff_of_false (not_le.mpr hlt) (by omega)

lemma roundHalfEven_mono {n d n' d' : ℕ} (hd : 0 < d) (hd' : 0 < d') (h : n * d' ≤ n' * d) :
    roundHalfEven n d ≤ roundHalfEven n' d' := by
  have hc := (roundHalfEven_le_iff hd' _).mp (le_refl (roundHalfEven n' d'))
  rw [roundHalfEven_le_iff hd]
  set c := roundHalfEven n' d'
  have hle : 2 * n * d' ≤ 2 * n' * d := by linarith
  rcases hc with hlt | ⟨heq, heven⟩
  · have hcross : 2 * n' * d < (2 * c + 1) * d' * d := Nat.mul_lt_mul_of_pos_right hlt hd
    refine .inl (Nat.lt_of_mul_lt_mul_right (a := d') ?_)
    linarith
  · rw [heq] at hle
    have hcross : 2 * n ≤ (2 * c + 1) * d := Nat.le_of_mul_le_mul_right (by linarith) hd'
    rcases hcross.lt_or_eq with hlt | heq
    · exact .inl hlt
    · exact .inr ⟨heq, heven⟩

lemma roundHalfEven_mul (c : ℕ) {d : ℕ} (hd : 0 < d) : roundHalfEven (c * d) d = c := by
  simp [roundHalfEven, hd]

/-- What is nearer to `c` than half is rounded to it. -/
lemma roundHalfEven_eq {n d c : ℕ} (hd : 0 < d) (hlow : 2 * c * d < 2 * n + d)
    (hhigh : 2 * n < (2 * c + 1) * d) : roundHalfEven n d = c := by
  refine le_antisymm ((roundHalfEven_le_iff hd c).mpr (.inl hhigh)) ?_
  cases c with
  | zero => exact Nat.zero_le _
  | succ c =>
    refine Nat.lt_of_not_le fun hle => ?_
    rw [roundHalfEven_le_iff hd] at hle
    have hshift : 2 * (c + 1) * d = (2 * c + 1) * d + d := by ring
    omega

/-! ### Units -/

/-- The exponent of the last place to which `n / d` units are rounded. -/
def lastPlace (n d : ℕ) : ℕ := Nat.log2 (n / d) - 52

lemma roundUnits_eq (n d : ℕ) :
    roundUnits n d = lastPlace n d * 2 ^ 52 + roundHalfEven n (d * 2 ^ lastPlace n d) := by
  rw [roundUnits, Nat.shiftLeft_eq, Nat.shiftLeft_eq, lastPlace]

lemma lt_lastPlace (n : ℕ) {d : ℕ} (hd : 0 < d) : n < 2 ^ 53 * (d * 2 ^ lastPlace n d) := by
  have hlog : n / d < 2 ^ (lastPlace n d + 53) :=
    Nat.lt_log2_self.trans_le (Nat.pow_le_pow_right (by decide) (by rw [lastPlace]; omega))
  calc n < 2 ^ (lastPlace n d + 53) * d := (Nat.div_lt_iff_lt_mul hd).mp hlog
    _ = 2 ^ 53 * (d * 2 ^ lastPlace n d) := by rw [pow_add]; ring

lemma lastPlace_le {n d : ℕ} (hd : 0 < d) (h : lastPlace n d ≠ 0) :
    2 ^ 52 * (d * 2 ^ lastPlace n d) ≤ n := by
  have hlog : 2 ^ (lastPlace n d + 52) ≤ n / d := by
    rw [lastPlace] at h ⊢
    rw [Nat.sub_add_cancel (by omega)]
    refine Nat.log2_self_le fun hzero => ?_
    simp [hzero] at h
  calc 2 ^ 52 * (d * 2 ^ lastPlace n d) = 2 ^ (lastPlace n d + 52) * d := by rw [pow_add]; ring
    _ ≤ n := (Nat.le_div_iff_mul_le hd).mp hlog

lemma lastPlace_mono {n d n' d' : ℕ} (hd : 0 < d) (hd' : 0 < d') (h : n * d' ≤ n' * d) :
    lastPlace n d ≤ lastPlace n' d' := by
  have hquotient : n / d ≤ n' / d' := by
    rw [Nat.le_div_iff_mul_le hd']
    refine Nat.le_of_mul_le_mul_right (le_trans ?_ h) hd
    calc n / d * d' * d = n / d * d * d' := by ring
      _ ≤ n * d' := Nat.mul_le_mul_right d' (Nat.div_mul_le_self n d)
  rw [lastPlace, lastPlace, Nat.log2_eq_log_two, Nat.log2_eq_log_two]
  exact Nat.sub_le_sub_right (Nat.log_mono_right hquotient) 52

/-- Rounding keeps the order. Where the greater quotient has a greater last place, its bit pattern
lies in a higher block. -/
lemma roundUnits_mono {n d n' d' : ℕ} (hd : 0 < d) (hd' : 0 < d') (h : n * d' ≤ n' * d) :
    roundUnits n d ≤ roundUnits n' d' := by
  have hscaled : 0 < d * 2 ^ lastPlace n d := by positivity
  have hscaled' : 0 < d' * 2 ^ lastPlace n' d' := by positivity
  rw [roundUnits_eq, roundUnits_eq]
  rcases (lastPlace_mono hd hd' h).eq_or_lt with heq | hlt
  · -- At the same last place, both are rounded to the same grid.
    rw [heq] at hscaled ⊢
    refine Nat.add_le_add_left (roundHalfEven_mono hscaled hscaled' ?_) _
    calc n * (d' * 2 ^ lastPlace n' d') = n * d' * 2 ^ lastPlace n' d' := by ring
      _ ≤ n' * d * 2 ^ lastPlace n' d' := Nat.mul_le_mul_right _ h
      _ = n' * (d * 2 ^ lastPlace n' d') := by ring
  · have hlow : roundHalfEven n (d * 2 ^ lastPlace n d) ≤ 2 ^ 53 := by
      rw [← roundHalfEven_mul (2 ^ 53) hscaled]
      exact roundHalfEven_mono hscaled hscaled
        (Nat.mul_le_mul_right _ (lt_lastPlace n hd).le)
    have hhigh : 2 ^ 52 ≤ roundHalfEven n' (d' * 2 ^ lastPlace n' d') := by
      rw [← roundHalfEven_mul (2 ^ 52) hscaled']
      exact roundHalfEven_mono hscaled' hscaled'
        (Nat.mul_le_mul_right _ (lastPlace_le hd' (by omega)))
    omega

/-- The significand and the exponent of a bit pattern. -/
lemma exists_units_eq (m : ℕ) : ∃ a e, units m = a * 2 ^ e ∧ m = e * 2 ^ 52 + a ∧ a < 2 ^ 53 ∧
    (e = 0 ∨ 2 ^ 52 ≤ a) := by
  simp only [units, Nat.shiftLeft_eq, Nat.shiftRight_eq_div_pow, one_mul]
  split_ifs with hsmall
  · exact ⟨m, 0, by omega, by omega, by omega, .inl rfl⟩
  · exact ⟨2 ^ 52 + m % 2 ^ 52, m / 2 ^ 52 - 1, rfl, by omega, by omega, .inr (by omega)⟩

lemma two_mul_scaled_le (d : ℕ) {s e : ℕ} (h : s < e) : 2 * (d * 2 ^ s) ≤ d * 2 ^ e := by
  calc 2 * (d * 2 ^ s) = d * 2 ^ (s + 1) := by rw [pow_succ]; ring
    _ ≤ d * 2 ^ e := Nat.mul_le_mul_left d (Nat.pow_le_pow_right (by decide) h)

/-- What is hardly greater than `a * 2 ^ e` is not rounded to a later place. -/
lemma lastPlace_le_exponent {n d a e : ℕ} (hd : 0 < d) (ha : a < 2 ^ 53)
    (hhigh : 2 * 10 ^ 16 * n ≤ (2 * 10 ^ 16 + 1) * (a * (d * 2 ^ e))) : lastPlace n d ≤ e := by
  refine Nat.le_of_not_lt fun hlt => ?_
  have hpositive : 0 < d * 2 ^ e := by positivity
  have hvalue : a * (d * 2 ^ e) ≤ (2 ^ 53 - 1) * (d * 2 ^ e) := Nat.mul_le_mul_right _ (by omega)
  have htwice := two_mul_scaled_le d hlt
  have hreach := lastPlace_le (n := n) hd (by omega)
  omega

/-- What is hardly less than `a * 2 ^ e`, but is rounded to an earlier place, lies below a power
of two. -/
lemma eq_two_pow_of_place_lt {n d a e s : ℕ} (hd : 0 < d) (ha : 2 ^ 52 ≤ a) (hs : s < e)
    (hlow : 2 * 10 ^ 16 * (a * (d * 2 ^ e)) ≤ 2 * 10 ^ 16 * n + a * (d * 2 ^ e))
    (hbelow : n < 2 ^ 53 * (d * 2 ^ s)) : a = 2 ^ 52 ∧ e = s + 1 := by
  have hpositive : 0 < d * 2 ^ e := by positivity
  have htwice := two_mul_scaled_le d hs
  have hpower : a = 2 ^ 52 := by
    refine le_antisymm (Nat.le_of_not_lt fun hgt => ?_) ha
    have hvalue : (2 ^ 52 + 1) * (d * 2 ^ e) ≤ a * (d * 2 ^ e) := Nat.mul_le_mul_right _ hgt
    omega
  refine ⟨hpower, le_antisymm (Nat.le_of_not_lt fun hgt => ?_) hs⟩
  have hnext := two_mul_scaled_le d (show s < s + 1 from s.lt_succ_self)
  have hfour := two_mul_scaled_le d hgt
  subst hpower
  omega

/-- What differs from a number by at most one part in `2 * 10 ^ 16` is rounded to it. Below a power
of two the numbers lie twice as dense, but even there the difference is less than half their
distance. -/
lemma roundUnits_near {n d m : ℕ} (hd : 0 < d)
    (hlow : 2 * 10 ^ 16 * (units m * d) ≤ 2 * 10 ^ 16 * n + units m * d)
    (hhigh : 2 * 10 ^ 16 * n ≤ (2 * 10 ^ 16 + 1) * (units m * d)) : roundUnits n d = m := by
  obtain ⟨a, e, hunits, hm, ha, hnormal⟩ := exists_units_eq m
  have hvalue : units m * d = a * (d * 2 ^ e) := by rw [hunits]; ring
  rw [hvalue] at hlow hhigh
  rw [roundUnits_eq]
  have hbelow := lt_lastPlace n hd
  have hle := lastPlace_le_exponent hd ha hhigh
  set s := lastPlace n d
  have hpositive : 0 < d * 2 ^ s := by positivity
  rcases hle.eq_or_lt with rfl | hlt
  · have hmiddle : (2 * a + 1) * (d * 2 ^ s) = 2 * (a * (d * 2 ^ s)) + d * 2 ^ s := by ring
    have hsize : a * (d * 2 ^ s) ≤ (2 ^ 53 - 1) * (d * 2 ^ s) :=
      Nat.mul_le_mul_right _ (by omega)
    have hround : roundHalfEven n (d * 2 ^ s) = a := by
      refine roundHalfEven_eq hpositive ?_ ?_
      · rw [Nat.mul_assoc]
        omega
      · rw [hmiddle]
        omega
    rw [hround, hm]
  · -- Just below a power of two: at the earlier place its significand is twice as large.
    have hsmall : 2 ^ 52 ≤ a := hnormal.resolve_left (by omega)
    obtain ⟨rfl, rfl⟩ := eq_two_pow_of_place_lt hd hsmall hlt hlow hbelow
    have hsplit : d * 2 ^ (s + 1) = 2 * (d * 2 ^ s) := by rw [pow_succ]; ring
    rw [hsplit] at hlow hhigh
    have hround : roundHalfEven n (d * 2 ^ s) = 2 ^ 53 :=
      roundHalfEven_eq hpositive (by omega) (by omega)
    rw [hround, hm]
    ring

/-! ### Arithmetic -/

lemma roundUnits_units (m : ℕ) : roundUnits (units m) 1 = m :=
  roundUnits_near Nat.one_pos (by omega) (by omega)

lemma units_mono {m m' : ℕ} (h : m ≤ m') : units m ≤ units m' := by
  obtain ⟨a, e, hunits, hm, ha, hnormal⟩ := exists_units_eq m
  obtain ⟨a', e', hunits', hm', ha', hnormal'⟩ := exists_units_eq m'
  rw [hunits, hunits']
  rcases lt_trichotomy e e' with hlt | rfl | hgt
  · calc a * 2 ^ e ≤ 2 ^ 52 * (2 * (1 * 2 ^ e)) := by
          rw [← Nat.mul_assoc, one_mul]
          exact Nat.mul_le_mul_right _ (by omega)
      _ ≤ a' * (1 * 2 ^ e') := Nat.mul_le_mul (by omega) (two_mul_scaled_le 1 hlt)
      _ = a' * 2 ^ e' := by rw [one_mul]
  · exact Nat.mul_le_mul_right _ (by omega)
  · omega

lemma unitsPerOne_pos : 0 < unitsPerOne := Nat.lt_of_lt_of_le Nat.one_pos Nat.le_shiftLeft

lemma ofNat_mono {n n' : ℕ} (h : n ≤ n') : ofNat n ≤ ofNat n' :=
  roundUnits_mono Nat.one_pos Nat.one_pos
    (Nat.mul_le_mul_right 1 (Nat.mul_le_mul_right unitsPerOne h))

lemma mul_mono {a a' b b' : ℕ} (ha : a ≤ a') (hb : b ≤ b') : mul a b ≤ mul a' b' :=
  roundUnits_mono unitsPerOne_pos unitsPerOne_pos
    (Nat.mul_le_mul_right _ (Nat.mul_le_mul (units_mono ha) (units_mono hb)))

lemma unitsPerOne_le_powerOfTen (e : ℕ) : unitsPerOne ≤ units (powerOfTen e) := by
  have hone : units (ofNat 1) = unitsPerOne := by decide +kernel
  rw [← hone]
  exact units_mono (ofNat_mono (Nat.pow_pos (by decide)))

lemma div_powerOfTen_le (m e : ℕ) : div m (powerOfTen e) ≤ m := by
  have hone := unitsPerOne_le_powerOfTen e
  calc div m (powerOfTen e) ≤ roundUnits (units m) 1 :=
        roundUnits_mono (unitsPerOne_pos.trans_le hone) Nat.one_pos
          (by rw [Nat.mul_one]; exact Nat.mul_le_mul_left _ hone)
    _ = m := roundUnits_units m

lemma divideRepeatedly_le (steps m : ℕ) : divideRepeatedly steps m ≤ m := by
  induction steps generalizing m with
  | zero => exact le_rfl
  | succ steps ih =>
    rw [divideRepeatedly]
    split_ifs
    · exact Nat.zero_le m
    · exact (ih _).trans (div_powerOfTen_le m maxPowerOfTen)

end SignatureSearch.Binary64
