import Mathlib
import SignatureSearch.Proofs.CollationOrder
import SignatureSearch.Proofs.NodeForm
import SignatureSearch.Plan

/-! Ranges of array keys. The keys between two that have a number-free beginning in common have this
beginning themselves; what follows it lies between what follows in the bounds. -/
namespace SignatureSearch.Json

mutual

theorem NumberFree.bitPatterns_eq : ∀ v : Json, v.NumberFree → v.bitPatterns = v
  | .null, _ => by simp [bitPatterns]
  | .bool _, _ => by simp [bitPatterns]
  | .number _, h => by simp [NumberFree] at h
  | .string _, _ => by simp [bitPatterns]
  | .array items, h => congrArg Json.array (ItemsNumberFree.bitPatterns_eq items h)
  | .object fields, h => congrArg Json.object (FieldsNumberFree.bitPatterns_eq fields h)

theorem ItemsNumberFree.bitPatterns_eq : ∀ items : List Json, ItemsNumberFree items →
    itemsBitPatterns items = items
  | [], _ => rfl
  | item :: rest, h => by
    rw [itemsBitPatterns, NumberFree.bitPatterns_eq item h.1,
      ItemsNumberFree.bitPatterns_eq rest h.2]

theorem FieldsNumberFree.bitPatterns_eq : ∀ fields : List (String × Json),
    FieldsNumberFree fields → fieldsBitPatterns fields = fields
  | [], _ => rfl
  | (_, value) :: rest, h => by
    rw [fieldsBitPatterns, NumberFree.bitPatterns_eq value h.1,
      FieldsNumberFree.bitPatterns_eq rest h.2]

end

mutual

theorem numberFree_of_bitPatterns : ∀ v : Json, v.bitPatterns.NumberFree → v.NumberFree
  | .null, _ => by simp [NumberFree]
  | .bool _, _ => by simp [NumberFree]
  | .number _, h => by simp [bitPatterns, NumberFree] at h
  | .string _, _ => by simp [NumberFree]
  | .array items, h => itemsNumberFree_of_bitPatterns items h
  | .object fields, h => fieldsNumberFree_of_bitPatterns fields h

theorem itemsNumberFree_of_bitPatterns : ∀ items : List Json,
    ItemsNumberFree (itemsBitPatterns items) → ItemsNumberFree items
  | [], _ => trivial
  | item :: rest, h =>
    ⟨numberFree_of_bitPatterns item h.1, itemsNumberFree_of_bitPatterns rest h.2⟩

theorem fieldsNumberFree_of_bitPatterns : ∀ fields : List (String × Json),
    FieldsNumberFree (fieldsBitPatterns fields) → FieldsNumberFree fields
  | [], _ => trivial
  | (_, value) :: rest, h =>
    ⟨numberFree_of_bitPatterns value h.1, fieldsNumberFree_of_bitPatterns rest h.2⟩

end

lemma eq_of_bitPatterns {a b : Json} (hb : b.NumberFree) (h : a.bitPatterns = b.bitPatterns) :
    a = b := by
  rw [hb.bitPatterns_eq] at h
  have ha : a.NumberFree := numberFree_of_bitPatterns a (h ▸ hb)
  rw [← h, ha.bitPatterns_eq]

lemma order_self (a : Json) : order a a = .eq := (order_eq_iff a a).mpr rfl

lemma order_swap (a b : Json) : order a b = (order b a).swap := by
  rw [← collate_eq_order, ← collate_eq_order, collate, collate]
  exact Std.OrientedCmp.eq_swap

/-- A value that holds no number shares its place among the keys with no other. -/
lemma eq_of_order {a b : Json} (hb : b.NumberFree) (h : order a b = .eq) : a = b :=
  eq_of_bitPatterns hb ((order_eq_iff a b).mp h)

lemma orderItems_append (start as bs : List Json) :
    orderItems (start ++ as) (start ++ bs) = orderItems as bs := by
  induction start with
  | nil => rfl
  | cons item start ih =>
    rw [List.cons_append, List.cons_append, orderItems, order_self, Ordering.eq_then, ih]

/-- The items between two that begin with `start`. -/
theorem orderItems_between {start : List Json} (hs : ItemsNumberFree start)
    (as bs items : List Json) :
    orderItems (start ++ as) items ≠ .gt ∧ orderItems items (start ++ bs) ≠ .gt ↔
      ∃ rest, items = start ++ rest ∧ orderItems as rest ≠ .gt ∧ orderItems rest bs ≠ .gt := by
  constructor
  · intro h
    induction start generalizing items with
    | nil => exact ⟨items, rfl, h⟩
    | cons item start ih =>
      obtain ⟨hl, hr⟩ := h
      cases items with
      | nil => exact absurd rfl hl
      | cons head items =>
        rw [List.cons_append, orderItems] at hl hr
        -- Neither side of `item` is left for the head, so it is `item` itself.
        have heq : order head item = .eq := by
          rw [order_swap] at hl
          cases hc : order head item <;> simp_all
        have heq' : order item head = .eq := by rw [order_swap, heq, Ordering.swap_eq]
        rw [heq', Ordering.eq_then] at hl
        rw [heq, Ordering.eq_then] at hr
        obtain ⟨rest, rfl, hrest⟩ := ih hs.2 items ⟨hl, hr⟩
        exact ⟨rest, by rw [eq_of_order hs.1 heq, List.cons_append], hrest⟩
  · rintro ⟨rest, rfl, hl, hr⟩
    rw [orderItems_append, orderItems_append]
    exact ⟨hl, hr⟩

/-! ### The sentinels -/

/-- An object has its first field, which is the smallest, below the high sentinel. -/
def BelowHigh : Json → Prop
  | .object ((name, _) :: _) => compareText name (String.ofList [highSuffix]) = .lt
  | _ => True

lemma order_highSentinel {v : Json} (h : v.BelowHigh) : order v highSentinel = .lt := by
  cases v with
  | object fields =>
    cases fields with
    | nil => rfl
    | cons field fields =>
      obtain ⟨name, value⟩ := field
      have hname : compareText name (String.ofList [highSuffix]) = .lt := h
      simp only [highSentinel, order, orderFields, hname, Ordering.lt_then]
  | _ => rfl

lemma order_lowSentinel (v : Json) : order lowSentinel v ≠ .gt := by
  cases v <;> simp [lowSentinel, order, kindRank, Nat.compare_ne_gt]

lemma covers_iff (s : Scan) (key : Json) :
    s.covers key.encode = true ↔ order s.lower key ≠ .gt ∧ order key s.upper ≠ .gt := by
  have h (a b : Json) : compare a.encode b.encode = order a b := by
    rw [← collate, collate_eq_order]
  simp only [Scan.covers, Scan.isBetween, h, Bool.and_eq_true, bne_iff_ne]

lemma covers_between (lower upper items : List Json) (limit : ℕ) :
    (Scan.between (.array lower) (.array upper) limit).covers (Json.array items).encode = true ↔
      orderItems lower items ≠ .gt ∧ orderItems items upper ≠ .gt := by
  rw [covers_iff, Scan.between, Scan.lower, Scan.upper, order, order]

lemma covers_exact_iff {key other : Json} (h : key.NumberFree) (limit : ℕ) :
    (Scan.exact key limit).covers other.encode = true ↔ other = key := by
  rw [covers_iff, Scan.exact, Scan.lower, Scan.upper]
  constructor
  · rintro ⟨hl, hr⟩
    rw [order_swap] at hl
    refine eq_of_order h ?_
    cases ho : order other key <;> simp_all
  · rintro rfl
    rw [order_self]
    exact ⟨by simp, by simp⟩

lemma covers_exact (key : Json) (limit : ℕ) : (Scan.exact key limit).covers key.encode = true := by
  rw [covers_iff, Scan.exact, Scan.lower, Scan.upper, order_self]
  exact ⟨by simp, by simp⟩

/-- The keys that continue `start` are those that have at least one more item. -/
theorem covers_continuations {start items : List Json} (hs : ItemsNumberFree start)
    (hi : ∀ item ∈ items, item.BelowHigh) (limit : ℕ) :
    (Plan.continuations start limit).covers (Json.array items).encode = true ↔
      ∃ rest, rest ≠ [] ∧ items = start ++ rest := by
  rw [Plan.continuations, covers_between, orderItems_between hs]
  constructor
  · rintro ⟨rest, rfl, hl, -⟩
    refine ⟨rest, ?_, rfl⟩
    rintro rfl
    exact hl rfl
  · rintro ⟨rest, hne, rfl⟩
    refine ⟨rest, rfl, ?_⟩
    cases rest with
    | nil => exact absurd rfl hne
    | cons item rest =>
      have hhigh := order_highSentinel (hi item (by simp))
      have hlow := order_lowSentinel item
      rw [orderItems, orderItems, hhigh]
      refine ⟨?_, by simp⟩
      cases hc : order lowSentinel item
      · simp
      · cases rest <;> simp [orderItems]
      · exact absurd hc hlow

end SignatureSearch.Json
