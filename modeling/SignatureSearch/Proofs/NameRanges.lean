import Mathlib
import SignatureSearch.Proofs.KeyRanges

/-! Ranges of names. The scan from a name to its upper bound visits the keys that have, at the place
of the name, a text that begins with it and goes on, if at all, below the mark that ends the bound.
Of the texts that go on with the mark only the bound itself is visited, and only with nothing
behind. -/
namespace SignatureSearch.Json

/-- The text begins with `name`, and a character right behind that is below `highSuffix`. -/
def Continues (name s : String) : Prop :=
  ∃ more, s.toList = name.toList ++ more ∧ ∀ c ∈ more.head?, c.toNat < highSuffix.toNat

lemma continues_iff (name s : String) :
    Continues name s ↔ name.toList <+: s.toList ∧
      (s.toList.drop name.toList.length).head?.all (·.toNat < highSuffix.toNat) = true := by
  simp only [Option.all_eq_true, decide_eq_true_eq]
  constructor
  · rintro ⟨more, hs, hc⟩
    rw [hs, List.drop_left]
    exact ⟨List.prefix_append _ _, hc⟩
  · rintro ⟨⟨more, hs⟩, hc⟩
    rw [← hs, List.drop_left] at hc
    exact ⟨more, hs.symm, hc⟩

instance (name s : String) : Decidable (Continues name s) :=
  decidable_of_iff _ (continues_iff name s).symm

/-- The lists between two that begin with `start`. -/
lemma compare_between (start as bs x : List ℕ) :
    compare (start ++ as) x ≠ .gt ∧ compare x (start ++ bs) ≠ .gt ↔
      ∃ rest, x = start ++ rest ∧ compare as rest ≠ .gt ∧ compare rest bs ≠ .gt := by
  constructor
  · intro h
    induction start generalizing x with
    | nil => exact ⟨x, rfl, h⟩
    | cons a start ih =>
      obtain ⟨hl, hr⟩ := h
      cases x with
      | nil => simp at hl
      | cons b x =>
        rw [List.cons_append, List.compare_cons_cons] at hl hr
        have heq : a = b := by
          rcases Nat.lt_trichotomy a b with hab | hab | hab
          · simp [Nat.compare_eq_gt.mpr hab] at hr
          · exact hab
          · simp [Nat.compare_eq_gt.mpr hab] at hl
        subst heq
        rw [Std.compare_self, Ordering.eq_then] at hl hr
        obtain ⟨rest, rfl, hrest⟩ := ih x ⟨hl, hr⟩
        exact ⟨rest, rfl, hrest⟩
  · rintro ⟨rest, rfl, hl, hr⟩
    rw [compare_append_left, compare_append_left]
    exact ⟨hl, hr⟩

lemma compare_singleton_lt (x : List ℕ) (b : ℕ) :
    compare x [b] = .lt ↔ ∀ a ∈ x.head?, a < b := by
  cases x with
  | nil => simp
  | cons a x =>
    have hend : compare x [] ≠ .lt := by cases x <;> simp
    rw [List.compare_cons_cons, Ordering.then_eq_lt, Nat.compare_eq_lt]
    simp [hend]

lemma codePoints_upperBound (name : String) :
    (upperBound name).toList.map Char.toNat =
      name.toList.map Char.toNat ++ [highSuffix.toNat] := by
  rw [upperBound, String.toList_push, List.map_append, List.map_singleton]

/-- The texts from a name up to its upper bound, the bound left out. -/
theorem compareText_upperBound_lt (name s : String) :
    compareText name s ≠ .gt ∧ compareText s (upperBound name) = .lt ↔ Continues name s := by
  have hinj : Function.Injective Char.toNat := fun c d h => Char.toNat_inj.mp h
  unfold compareText
  rw [codePoints_upperBound]
  constructor
  · rintro ⟨hl, hr⟩
    have hbetween := compare_between (name.toList.map Char.toNat) [] [highSuffix.toNat]
      (s.toList.map Char.toNat)
    rw [List.append_nil] at hbetween
    obtain ⟨rest, hs, -, -⟩ := hbetween.mp ⟨hl, by simp [hr]⟩
    obtain ⟨front, more, hmore, hfront, rfl⟩ := List.map_eq_append_iff.mp hs
    obtain rfl : front = name.toList := List.map_injective_iff.mpr hinj hfront
    rw [hs, compare_append_left, compare_singleton_lt, List.head?_map] at hr
    exact ⟨more, hmore, fun c hc => hr c.toNat (Option.mem_map_of_mem _ hc)⟩
  · rintro ⟨more, hmore, hc⟩
    have hlow := compare_append_left (name.toList.map Char.toNat) [] (more.map Char.toNat)
    rw [List.append_nil] at hlow
    rw [hmore, List.map_append, hlow, compare_append_left, compare_singleton_lt, List.head?_map]
    refine ⟨by cases more <;> simp, fun a ha => ?_⟩
    obtain ⟨c, hmem, rfl⟩ := Option.mem_map.mp ha
    exact hc c hmem

/-- What may stand behind the beginning of a key in the range of a name: a text that continues the
name with anything behind, or the upper bound with nothing. -/
def InNameRange (name : String) (items : List Json) : Prop :=
  ∃ s rest, items = .string s :: rest ∧ (Continues name s ∨ s = upperBound name ∧ rest = [])

lemma orderItems_nil_right (rest : List Json) : orderItems rest [] ≠ .gt ↔ rest = [] := by
  cases rest <;> simp [orderItems]

lemma orderItems_nil_left (rest : List Json) : orderItems [] rest ≠ .gt := by
  cases rest <;> simp [orderItems]

/-- Only texts stand between texts. -/
lemma exists_string {a b : String} {v : Json} (hl : order (.string a) v ≠ .gt)
    (hr : order v (.string b) ≠ .gt) : ∃ s, v = .string s := by
  cases v with
  | string s => exact ⟨s, rfl⟩
  | null | bool _ | number _ => exact absurd rfl hl
  | array _ | object _ => exact absurd rfl hr

lemma then_ne_gt {o p : Ordering} (h : o.then p ≠ .gt) : o ≠ .gt := by
  rintro rfl
  exact h rfl

lemma orderItems_name (name : String) (items : List Json) :
    orderItems [.string name] items ≠ .gt ∧
      orderItems items [.string (upperBound name)] ≠ .gt ↔ InNameRange name items := by
  constructor
  · rintro ⟨hl, hr⟩
    cases items with
    | nil => exact absurd rfl hl
    | cons v rest =>
      rw [orderItems] at hl hr
      obtain ⟨s, rfl⟩ := exists_string (then_ne_gt hl) (then_ne_gt hr)
      have hle : compareText name s ≠ .gt := then_ne_gt hl
      refine ⟨s, rest, rfl, ?_⟩
      rw [order] at hr
      cases hc : compareText s (upperBound name) with
      | lt => exact .inl ((compareText_upperBound_lt name s).mp ⟨hle, hc⟩)
      | eq =>
        rw [hc, Ordering.eq_then, orderItems_nil_right] at hr
        exact .inr ⟨(compareText_eq_iff _ _).mp hc, hr⟩
      | gt => exact absurd hc (then_ne_gt hr)
  · rintro ⟨s, rest, rfl, h⟩
    rw [orderItems, orderItems, order, order]
    rcases h with h | ⟨rfl, rfl⟩
    · obtain ⟨hl, hr⟩ := (compareText_upperBound_lt name s).mpr h
      rw [hr, Ordering.lt_then]
      refine ⟨?_, by simp⟩
      cases hc : compareText name s with
      | lt => simp
      | eq => exact orderItems_nil_left rest
      | gt => exact absurd hc hl
    · have hself : Continues name name := ⟨[], by simp⟩
      have hlt := ((compareText_upperBound_lt name name).mpr hself).2
      have heq := (compareText_eq_iff (upperBound name) _).mpr rfl
      rw [hlt, heq]
      exact ⟨by simp, by simp [orderItems]⟩

/-- The keys in the range of a name behind items that hold no number. -/
theorem covers_name {start : List Json} (hs : ItemsNumberFree start) (name : String)
    (items : List Json) (limit : ℕ) :
    (Scan.between (.array (start ++ [.string name])) (.array (start ++ [.string (upperBound name)]))
        limit).covers (Json.array items).encode = true ↔
      ∃ more, items = start ++ more ∧ InNameRange name more := by
  rw [covers_between, orderItems_between hs]
  simp only [orderItems_name]

end SignatureSearch.Json
