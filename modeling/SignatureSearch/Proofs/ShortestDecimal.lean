import Mathlib
import SignatureSearch.Proofs.NearestBinary64

/-! The shortest decimal of a number. Seventeen digits always suffice, and what was found rounds to
the number. Reading it back rounds up to three times and may give another number, but it does not
overflow. -/
namespace SignatureSearch.Binary64

/-! ### The grid -/

lemma nearestMultiple?_some {value step c : ℕ} {accepts : ℕ → Bool}
    (h : nearestMultiple? value step accepts = some c) :
    accepts c = true ∧ c ≤ value / step + 1 := by
  unfold nearestMultiple? at h
  dsimp only at h
  split_ifs at h with hlow hhigh hfirst hhigh
  · cases h
    exact ⟨hlow, Nat.le_succ _⟩
  · cases h
    exact ⟨hhigh, le_rfl⟩
  · cases h
    exact ⟨hlow, Nat.le_succ _⟩
  · cases h
    exact ⟨hhigh, le_rfl⟩

lemma nearestMultiple?_none {value step : ℕ} {accepts : ℕ → Bool}
    (h : nearestMultiple? value step accepts = none) :
    accepts (value / step) = false ∧ accepts (value / step + 1) = false := by
  unfold nearestMultiple? at h
  dsimp only at h
  split_ifs at h with hlow _ hhigh
  exact ⟨Bool.eq_false_iff.mpr hlow, Bool.eq_false_iff.mpr hhigh⟩

/-- Where the step is at most one part in `10 ^ 16` of the number, one of its neighbours rounds to
it: the one that is not farther than half a step. -/
lemma exists_nearestMultiple {m step scale : ℕ} (hstep : 0 < step) (hscale : 0 < scale)
    (h : 10 ^ 16 * step ≤ units m * scale) :
    ∃ c, nearestMultiple? (units m * scale) step (fun c => roundUnits (c * step) scale == m) =
      some c := by
  refine Option.ne_none_iff_exists'.mp fun hnone => ?_
  obtain ⟨hlow, hhigh⟩ := nearestMultiple?_none hnone
  have hsplit := Nat.div_add_mod (units m * scale) step
  have hrest := Nat.mod_lt (units m * scale) hstep
  rw [beq_eq_false_iff_ne, Nat.mul_comm] at hlow
  rw [beq_eq_false_iff_ne, Nat.add_mul, Nat.one_mul, Nat.mul_comm _ step] at hhigh
  rcases le_total (2 * (units m * scale % step)) step with hhalf | hhalf
  · exact hlow (roundUnits_near hscale (by omega) (by omega))
  · exact hhigh (roundUnits_near hscale (by omega) (by omega))

def gridStep (place : ℕ) : ℕ := unitsPerOne * Nat.pow 10 place

def workingScale : ℕ := Nat.pow 10 margin

lemma gridStep_eq (place : ℕ) : gridStep place = unitsPerOne * 10 ^ place := by
  rw [gridStep, Nat.pow_eq]

lemma gridStep_pos (place : ℕ) : 0 < gridStep place :=
  Nat.mul_pos unitsPerOne_pos (Nat.pow_pos (by decide))

lemma workingScale_pos : 0 < workingScale := by decide +kernel

lemma gridStep_add (place k : ℕ) : gridStep (place + k) = 10 ^ k * gridStep place := by
  rw [gridStep_eq, gridStep_eq, pow_add]
  ring

lemma gridStep_margin : gridStep margin = unitsPerOne * workingScale := by
  unfold gridStep workingScale
  rfl

lemma onGrid?_eq (m place : ℕ) : onGrid? m place =
    nearestMultiple? (units m * workingScale) (gridStep place) fun c =>
      roundUnits (c * gridStep place) workingScale == m := by
  unfold onGrid? gridStep workingScale
  rfl

/-! ### Seventeen digits -/

/-- A decimal of at most seventeen digits that rounds to the number `m`. -/
structure Denotes (d : Decimal) (m : ℕ) : Prop where
  short : d.digits ≤ 10 ^ 17
  rounds : ∃ place : ℕ, d.exponent = place - margin ∧
    roundUnits (d.digits * gridStep place) workingScale = m

lemma Denotes.digits_pos {d : Decimal} {m : ℕ} (h : Denotes d m) (hm : m ≠ 0) : 0 < d.digits := by
  obtain ⟨place, -, hrounds⟩ := h.rounds
  refine Nat.pos_of_ne_zero fun hzero => hm ?_
  rw [← hrounds, hzero, Nat.zero_mul, roundUnits, Nat.zero_div, roundHalfEven]
  simp [workingScale_pos]

lemma Denotes.trimZeros {d : Decimal} {m : ℕ} (h : Denotes d m) (fuel : ℕ) :
    Denotes (trimZeros fuel d) m := by
  induction fuel generalizing d with
  | zero => exact h
  | succ fuel ih =>
    rw [Binary64.trimZeros]
    split_ifs with hzero
    · obtain ⟨place, hexponent, hrounds⟩ := h.rounds
      refine ih ⟨(Nat.div_le_self _ _).trans h.short, place + 1, ?_, ?_⟩
      · simp only [hexponent]
        omega
      · have htens := Nat.div_mul_cancel (Nat.dvd_of_mod_eq_zero hzero.2)
        rw [gridStep_add, pow_one, ← Nat.mul_assoc, htens, hrounds]
    · exact h

/-- The value of a number other than zero has many digits at the working scale. -/
lemma length_units {m : ℕ} (hm : m ≠ 0) :
    17 < decimalLength (units m * workingScale / unitsPerOne) := by
  have hone : 10 ^ 17 ≤ units 1 * workingScale / unitsPerOne := by decide +kernel
  have hvalue : units 1 * workingScale / unitsPerOne ≤ units m * workingScale / unitsPerOne :=
    Nat.div_le_div_right (Nat.mul_le_mul_right _ (units_mono (Nat.one_le_iff_ne_zero.mpr hm)))
  refine Nat.lt_of_not_le fun hle => ?_
  rw [decimalLength, Nat.length_toDigits_le_iff (by decide) (by decide)] at hle
  omega

/-- The number of digits tells the place of the first one. -/
lemma units_bounds {m k : ℕ} (hk : 0 < k)
    (h : decimalLength (units m * workingScale / unitsPerOne) = k + 1) :
    gridStep k ≤ units m * workingScale ∧ units m * workingScale < gridStep (k + 1) := by
  rw [decimalLength] at h
  have hlow := (Nat.length_toDigits_le_iff (b := 10) (by decide) hk).not.mp (by rw [h]; omega)
  have hhigh := (Nat.length_toDigits_le_iff (b := 10) (by decide) k.succ_pos).mp h.le
  rw [not_lt, Nat.le_div_iff_mul_le unitsPerOne_pos] at hlow
  rw [Nat.div_lt_iff_lt_mul unitsPerOne_pos] at hhigh
  rw [gridStep_eq, gridStep_eq, Nat.mul_comm, Nat.mul_comm unitsPerOne]
  exact ⟨hlow, hhigh⟩

/-- The decimal that `shortest` finds with `i + 1` digits. -/
def shortestOf? (m length i : ℕ) : Option Decimal :=
  (onGrid? m (length - (i + 1))).map fun c => ⟨c, (length : ℤ) - (i + 1) - margin⟩

lemma shortest_eq (m : ℕ) : shortest m =
    trimZeros 17 (((List.range 17).findSome?
      (shortestOf? m (decimalLength (units m * workingScale / unitsPerOne)))).getD
        ⟨units m * workingScale / unitsPerOne, -margin⟩) := by
  unfold shortest shortestOf? workingScale
  rfl

lemma denotes_of_shortestOf {m length i : ℕ} {d : Decimal} (hi : i < 17) (hlength : 17 ≤ length)
    (hvalue : units m * workingScale < gridStep length) (h : shortestOf? m length i = some d) :
    Denotes d m := by
  obtain ⟨c, hc, rfl⟩ := Option.map_eq_some_iff.mp h
  rw [onGrid?_eq] at hc
  obtain ⟨hrounds, hle⟩ := nearestMultiple?_some hc
  refine ⟨?_, length - (i + 1), ?_, eq_of_beq hrounds⟩
  · have hsplit : length = length - (i + 1) + (i + 1) := by omega
    rw [hsplit, gridStep_add, ← Nat.div_lt_iff_lt_mul (gridStep_pos _)] at hvalue
    have hpow : 10 ^ (i + 1) ≤ 10 ^ 17 := Nat.pow_le_pow_right (by decide) (by omega)
    exact (hle.trans hvalue).trans hpow
  · simp only
    omega

/-- Some decimal is found, at the latest with seventeen digits. -/
theorem denotes_shortest {m : ℕ} (hm : m ≠ 0) : Denotes (shortest m) m := by
  have hmany := length_units hm
  rw [shortest_eq]
  set length := decimalLength (units m * workingScale / unitsPerOne) with hdigits
  obtain ⟨k, hk⟩ : ∃ k, length = k + 17 := ⟨_, (Nat.sub_add_cancel hmany.le).symm⟩
  obtain ⟨hlow, hhigh⟩ := units_bounds (k := k + 16) (by omega) (hdigits.symm.trans hk)
  -- With seventeen digits the step is small enough for a neighbour to round to the number.
  have hlast : (shortestOf? m length 16).isSome := by
    obtain ⟨c, hc⟩ : ∃ c, onGrid? m (length - (16 + 1)) = some c := by
      rw [onGrid?_eq, hk, Nat.add_sub_cancel]
      exact exists_nearestMultiple (gridStep_pos k) workingScale_pos (gridStep_add k 16 ▸ hlow)
    rw [shortestOf?, hc]
    rfl
  obtain ⟨d, hd⟩ := Option.isSome_iff_exists.mp
    (List.findSome?_isSome_iff.mpr ⟨16, List.mem_range.mpr (show 16 < 17 by decide), hlast⟩)
  obtain ⟨i, hi, hfound⟩ := List.exists_of_findSome?_eq_some hd
  rw [hd, Option.getD_some]
  exact (denotes_of_shortestOf (List.mem_range.mp hi) hmany.le (hk ▸ hhigh) hfound).trimZeros 17

/-! ### Reading without overflow -/

lemma overflowBound_pos : 0 < overflowBound := by decide

def greatest : ℕ := overflowBound - 1

/-- The least whole number that is rounded to the greatest finite number. -/
def wholeBound : ℕ := (Nat.pow 2 54 - 3) * Nat.pow 2 970 + 1

/-- A decimal that rounds to a lesser number is below the bound, if it is a whole number. -/
lemma Denotes.whole_lt {d : Decimal} {m e : ℕ} (h : Denotes d m) (hm : m < greatest)
    (he : d.exponent = e) : d.digits * 10 ^ e < wholeBound := by
  obtain ⟨place, hplace, hrounds⟩ := h.rounds
  have hbound : greatest ≤ ofNat wholeBound := by decide +kernel
  obtain rfl : place = margin + e := by omega
  refine Nat.lt_of_not_le fun hle => ?_
  have hmono : ofNat wholeBound ≤ roundUnits (d.digits * gridStep (margin + e)) workingScale := by
    refine roundUnits_mono Nat.one_pos workingScale_pos ?_
    calc wholeBound * unitsPerOne * workingScale
        ≤ d.digits * 10 ^ e * unitsPerOne * workingScale :=
          Nat.mul_le_mul_right _ (Nat.mul_le_mul_right _ hle)
      _ = d.digits * gridStep (margin + e) * 1 := by
          rw [gridStep_add, gridStep_margin]
          ring
  rw [hrounds] at hmono
  exact absurd hm (not_lt.mpr (hbound.trans hmono))

lemma mul_powerOfTen_lt {n k : ℕ} {e e' : ℕ} (hn : n ≤ k) (he : e ≤ e')
    (h : mul (ofNat k) (powerOfTen e') < overflowBound) :
    mul (ofNat n) (powerOfTen e) < overflowBound :=
  (mul_mono (ofNat_mono hn) (ofNat_mono (Nat.pow_le_pow_right (by decide) he))).trans_lt h

/-- The greatest powers of ten, each times the greatest factor that stays below the bound. For the
greatest number itself this fails: its neighbour with an even last digit overflows. -/
lemma greatest_products : ∀ k < 17, mul (ofNat ((wholeBound - 1) / Nat.pow 10 (292 + k)))
    (powerOfTen (292 + k)) < overflowBound := by
  decide +kernel

/-- The greatest factors that are wanted for lesser powers of ten. -/
lemma moderate_products : ofNat (1 <<< 64) < overflowBound ∧
    mul (ofNat (1 <<< 64)) (powerOfTen 0) < overflowBound ∧
    mul (ofNat (10 ^ 17)) (powerOfTen 291) < overflowBound := by
  decide +kernel

/-- Rounding both factors and the product makes no lesser number overflow. -/
lemma Denotes.mul_lt {d : Decimal} {m e : ℕ} (h : Denotes d m) (hm : m < greatest)
    (he : d.exponent = e) (hmax : e ≤ maxPowerOfTen) :
    mul (ofNat d.digits) (powerOfTen e) < overflowBound := by
  have hmax' : e ≤ 308 := hmax
  rcases Nat.lt_or_ge e 292 with hsmall | hlarge
  · exact mul_powerOfTen_lt h.short (by omega) moderate_products.2.2
  · obtain ⟨k, rfl⟩ := Nat.exists_eq_add_of_le hlarge
    have hlt := h.whole_lt hm he
    refine mul_powerOfTen_lt ?_ le_rfl (greatest_products k (by omega))
    rw [Nat.pow_eq, Nat.le_div_iff_mul_le (Nat.pow_pos (by decide))]
    omega

lemma scale?_negSucc {digits e : ℕ} (h : digits < 1 <<< 64) :
    ∃ m < overflowBound, scale? digits (.negSucc e) = some m := by
  have hdigits : ofNat digits < overflowBound :=
    (ofNat_mono h.le).trans_lt moderate_products.1
  have hsteps := divideRepeatedly_le (e / maxPowerOfTen) (ofNat digits)
  refine ⟨_, ?_, rfl⟩
  split_ifs with hzero
  · exact overflowBound_pos
  · exact (div_powerOfTen_le _ _).trans_lt (hsteps.trans_lt hdigits)

lemma ofScaled?_of_scale {negative : Bool} {d : Decimal} {m : ℕ} (hm : m < overflowBound)
    (h : scale? d.digits d.exponent = some m) : ∃ x, ofScaled? negative d = some x := by
  rw [ofScaled?, h, Option.bind_some]
  exact ⟨_, dif_pos hm⟩

/-- Digits that fit in 64 bits make a number unless the exponent is positive. -/
lemma ofScaled?_of_nonpos (negative : Bool) {d : Decimal} (hd : d.digits < 1 <<< 64)
    (he : d.exponent ≤ 0) : ∃ x, ofScaled? negative d = some x := by
  obtain ⟨digits, e | e⟩ := d
  · obtain rfl : e = 0 := Nat.le_zero.mp (Int.ofNat_le.mp he)
    by_cases hzero : digits = 0
    · exact ofScaled?_of_scale overflowBound_pos (if_pos hzero)
    · have hproduct := mul_powerOfTen_lt hd.le le_rfl moderate_products.2.1
      refine ofScaled?_of_scale hproduct ?_
      simp only [scale?, if_neg hzero, if_pos (Nat.zero_le maxPowerOfTen), if_pos hproduct]
  · obtain ⟨m, hm, hscale⟩ := scale?_negSucc (e := e) hd
    exact ofScaled?_of_scale hm hscale

lemma ofScaled?_of_denotes (negative : Bool) {d : Decimal} {m : ℕ} (h : Denotes d m)
    (hm : m < greatest) : ∃ x, ofScaled? negative d = some x := by
  obtain ⟨digits, e | e⟩ := d
  · by_cases hzero : digits = 0
    · exact ofScaled?_of_scale overflowBound_pos (if_pos hzero)
    · have hlt : digits * 10 ^ e < wholeBound := h.whole_lt hm rfl
      have hmax : e ≤ maxPowerOfTen := by
        refine Nat.le_of_not_lt fun hgt => ?_
        have hbound : wholeBound ≤ Nat.pow 10 (maxPowerOfTen + 1) := by decide +kernel
        have hpow : 10 ^ (maxPowerOfTen + 1) ≤ 10 ^ e := Nat.pow_le_pow_right (by decide) hgt
        have hone : 1 * 10 ^ e ≤ digits * 10 ^ e :=
          Nat.mul_le_mul_right _ (Nat.one_le_iff_ne_zero.mpr hzero)
        rw [Nat.pow_eq] at hbound
        omega
      have hproduct := h.mul_lt hm rfl hmax
      refine ofScaled?_of_scale hproduct ?_
      simp only [scale?, if_neg hzero, if_pos hmax, if_pos hproduct]
  · exact ofScaled?_of_nonpos negative (h.short.trans_lt (by decide)) (Int.negSucc_lt_zero e).le

/-- The shortest decimal of a finite number is read as a finite number. -/
theorem ofScaled?_shortest (negative : Bool) {m : ℕ} (hm : m ≠ 0) (hfinite : m < overflowBound) :
    ∃ x, ofScaled? negative (shortest m) = some x := by
  rcases Nat.lt_or_ge m greatest with hless | hgreatest
  · exact ofScaled?_of_denotes negative (denotes_shortest hm) hless
  · obtain rfl : m = greatest := le_antisymm (Nat.le_sub_one_of_lt hfinite) hgreatest
    have hscale : ∃ k < overflowBound, scale? (shortest greatest).digits
        (shortest greatest).exponent = some k :=
          ⟨greatest, Nat.sub_lt overflowBound_pos Nat.one_pos, by decide +kernel⟩
    obtain ⟨k, hk, hscale⟩ := hscale
    exact ofScaled?_of_scale hk hscale

end SignatureSearch.Binary64
