import Mathlib
import SignatureSearch.Proofs.TextOrder

/-! The order of keys, stated on the values themselves, and its encoding: bytes compare like the
values, equal bytes mean equal values up to the width of numbers, and no encoded value is the
beginning of another. -/
namespace SignatureSearch

/-- The order of sign and magnitude: `-0.0` stands directly below `0.0`. -/
def Binary64.order (x y : Binary64) : Ordering :=
  match x.negative, y.negative with
  | true, false => .lt
  | false, true => .gt
  | false, false => compare x.magnitude y.magnitude
  | true, true => compare y.magnitude x.magnitude

namespace Json

def kindRank : Json → ℕ
  | .null => 0
  | .bool _ => 1
  | .number _ => 2
  | .string _ => 3
  | .array _ => 4
  | .object _ => 5

mutual

/-- The order of values: by kind; `false` below `true`, numbers by their binary64 patterns, texts by
code points, arrays item by item, objects field by field as they list them, a proper beginning
first. -/
def order : Json → Json → Ordering
  | .bool p, .bool q => compare p q
  | .number m, .number n => m.toBinary64.order n.toBinary64
  | .string s, .string t => compareText s t
  | .array as, .array bs => orderItems as bs
  | .object as, .object bs => orderFields as bs
  | a, b => compare a.kindRank b.kindRank

def orderItems : List Json → List Json → Ordering
  | [], [] => .eq
  | [], _ :: _ => .lt
  | _ :: _, [] => .gt
  | a :: as, b :: bs => (order a b).then (orderItems as bs)

def orderFields : List (String × Json) → List (String × Json) → Ordering
  | [], [] => .eq
  | [], _ :: _ => .lt
  | _ :: _, [] => .gt
  | (k, a) :: as, (l, b) :: bs => (compareText k l).then ((order a b).then (orderFields as bs))

end

mutual

/-- The value with every number replaced by its binary64 pattern. -/
def bitPatterns : Json → Json
  | .number n => .number (.float n.toBinary64)
  | .array items => .array (itemsBitPatterns items)
  | .object fields => .object (fieldsBitPatterns fields)
  | value => value

def itemsBitPatterns : List Json → List Json
  | [] => []
  | item :: rest => item.bitPatterns :: itemsBitPatterns rest

def fieldsBitPatterns : List (String × Json) → List (String × Json)
  | [] => []
  | (name, value) :: rest => (name, value.bitPatterns) :: fieldsBitPatterns rest

end

/-! ### Numbers -/

lemma compare_digits (base m n : ℕ) (hb : 0 < base) :
    compare m n = (compare (m / base) (n / base)).then (compare (m % base) (n % base)) := by
  have hm := Nat.div_add_mod m base
  have hn := Nat.div_add_mod n base
  have hmb := Nat.mod_lt m hb
  have hnb := Nat.mod_lt n hb
  rcases Nat.lt_trichotomy (m / base) (n / base) with h | h | h
  · rw [Nat.compare_eq_lt.mpr h, Ordering.lt_then, Nat.compare_eq_lt]
    have := Nat.mul_le_mul_left base (Nat.succ_le_of_lt h)
    rw [Nat.mul_succ] at this
    omega
  · rw [Nat.compare_eq_eq.mpr h, Ordering.eq_then, ← hm, ← hn, h]
    simp only [Nat.compare_eq_ite_lt, Nat.add_lt_add_iff_left, Nat.mul_add_mod, Nat.mod_mod]
  · rw [Nat.compare_eq_gt.mpr h, Ordering.gt_then, Nat.compare_eq_gt]
    have := Nat.mul_le_mul_left base (Nat.succ_le_of_lt h)
    rw [Nat.mul_succ] at this
    omega

lemma compare_ofNat (m n : ℕ) :
    compare (UInt8.ofNat m) (UInt8.ofNat n) = compare (m % 256) (n % 256) := by
  simp only [compare, compareOfLessAndEq, UInt8.lt_iff_toNat_lt, ← UInt8.toNat_inj,
    UInt8.toNat_ofNat']

/-- One more byte refines the comparison of the bytes in front of it. -/
lemma compare_shift (m n k : ℕ) :
    compare (m / 2 ^ k) (n / 2 ^ k) = (compare (m / 2 ^ (k + 8)) (n / 2 ^ (k + 8))).then
      (compare (UInt8.ofNat (m / 2 ^ k)) (UInt8.ofNat (n / 2 ^ k))) := by
  rw [compare_digits 256 _ _ (by omega), compare_ofNat, Nat.div_div_eq_div_mul,
    Nat.div_div_eq_div_mul, Nat.pow_add]

lemma compare_wordBytes {m n : ℕ} (hm : m < 2 ^ 64) (hn : n < 2 ^ 64) (x y : KeyBytes) :
    compare (wordBytes m ++ x) (wordBytes n ++ y) = (compare m n).then (compare x y) := by
  have htop : compare (m / 2 ^ 56) (n / 2 ^ 56) =
      compare (UInt8.ofNat (m / 2 ^ 56)) (UInt8.ofNat (n / 2 ^ 56)) := by
    rw [compare_ofNat, Nat.mod_eq_of_lt (by omega), Nat.mod_eq_of_lt (by omega)]
  have hall : compare m n = compare (m / 2 ^ 0) (n / 2 ^ 0) := by simp
  rw [hall, compare_shift m n 0, compare_shift m n 8, compare_shift m n 16, compare_shift m n 24,
    compare_shift m n 32, compare_shift m n 40, compare_shift m n 48, htop]
  simp only [wordBytes, Nat.shiftRight_eq_div_pow, List.map_cons, List.map_nil, List.cons_append,
    List.nil_append, List.compare_cons_cons, Ordering.then_assoc]

lemma orderedBits_lt (x : Binary64) : x.orderedBits < 2 ^ 64 := by
  have h := x.finite
  unfold Binary64.orderedBits
  split <;> omega

lemma compare_orderedBits (x y : Binary64) :
    compare x.orderedBits y.orderedBits = x.order y := by
  have hx := x.finite
  have hy := y.finite
  unfold Binary64.order Binary64.orderedBits
  cases x.negative <;> cases y.negative <;> simp only [if_true, if_false, Bool.false_eq_true]
  · simp only [Nat.compare_eq_ite_lt, Nat.add_lt_add_iff_left]
  · exact Nat.compare_eq_gt.mpr (by omega)
  · exact Nat.compare_eq_lt.mpr (by omega)
  · have hlt (a b : ℕ) (ha : a < 1 <<< 63) (hb : b < 1 <<< 63) :
        1 <<< 63 - 1 - a < 1 <<< 63 - 1 - b ↔ b < a := by omega
    simp only [Nat.compare_eq_ite_lt, hlt _ _ (show x.magnitude < 1 <<< 63 by omega)
      (show y.magnitude < 1 <<< 63 by omega), hlt _ _ (show y.magnitude < 1 <<< 63 by omega)
      (show x.magnitude < 1 <<< 63 by omega)]

lemma Binary64.order_eq_iff (x y : Binary64) : x.order y = .eq ↔ x = y := by
  obtain ⟨sx, mx, hx⟩ := x
  obtain ⟨sy, my, hy⟩ := y
  cases sx <;> cases sy <;> simp [Binary64.order]
  exact eq_comm

lemma compareText_eq_iff (s t : String) : compareText s t = .eq ↔ s = t := by
  rw [compareText, Std.compare_eq_iff_eq,
    (List.map_injective_iff.mpr fun c d h => Char.toNat_inj.mp h).eq_iff, String.toList_inj]

/-! ### Values -/

lemma order_of_kind {a b : Json} (h : a.kindRank ≠ b.kindRank) :
    order a b = compare a.kindRank b.kindRank := by
  unfold order
  split <;> first | rfl | exact absurd rfl h

/-- The first byte tells the kind. -/
lemma encodeInto_tag (a : Json) (x : KeyBytes) :
    ∃ tag body, encodeInto a x = UInt8.ofNat tag :: body ∧ 0 < tag ∧ tag < 8 ∧
      a.kindRank = if tag < 3 then tag - 1 else tag - 2 := by
  cases a with
  | null => exact ⟨1, _, rfl, by decide⟩
  | bool b => cases b <;> [exact ⟨2, _, rfl, by decide⟩; exact ⟨3, _, rfl, by decide⟩]
  | number n => exact ⟨4, _, rfl, by simp [kindRank]⟩
  | string s => exact ⟨5, _, rfl, by simp [kindRank]⟩
  | array items => exact ⟨6, _, rfl, by simp [kindRank]⟩
  | object fields => exact ⟨7, _, rfl, by simp [kindRank]⟩

lemma compare_encodeInto_of_kind {a b : Json} (h : a.kindRank ≠ b.kindRank) (x y : KeyBytes) :
    compare (encodeInto a x) (encodeInto b y) = (order a b).then (compare x y) := by
  obtain ⟨s, p, hp, hs, hs8, ha⟩ := encodeInto_tag a x
  obtain ⟨t, q, hq, ht, ht8, hb⟩ := encodeInto_tag b y
  rw [hp, hq, List.compare_cons_cons, order_of_kind h]
  rcases Nat.lt_or_gt_of_ne h with hlt | hgt
  · have hst : s < t := by split_ifs at ha hb <;> omega
    rw [Nat.compare_eq_lt.mpr hlt, (compare_byte_lt (by omega) (by omega)).mpr hst]
    rfl
  · have hst : t < s := by split_ifs at ha hb <;> omega
    have hgt' := (compare_byte_lt (by omega) (by omega)).mpr hst
    rw [Nat.compare_eq_gt.mpr hgt, Std.OrientedCmp.gt_of_lt hgt']
    rfl

/-- The end of an array or object stands below every value. -/
lemma compare_end_encodeInto (b : Json) (x y : KeyBytes) :
    compare (0 :: x) (encodeInto b y) = .lt := by
  obtain ⟨t, q, hq, ht, ht8, -⟩ := encodeInto_tag b y
  have hlt : compare (UInt8.ofNat 0) (UInt8.ofNat t) = .lt :=
    (compare_byte_lt (by decide) (by omega)).mpr ht
  change compare (UInt8.ofNat 0 :: x) (encodeInto b y) = .lt
  rw [hq, List.compare_cons_cons, hlt, Ordering.lt_then]

mutual

/-- Encoded values compare like the values, and like what follows when the values are equal. -/
theorem compare_encodeInto : ∀ (a b : Json) (x y : KeyBytes),
    compare (encodeInto a x) (encodeInto b y) = (order a b).then (compare x y)
  | .null, b, x, y => by
    cases b with
    | null => simp [encodeInto, order]
    | _ => exact compare_encodeInto_of_kind (by simp [kindRank]) x y
  | .bool p, b, x, y => by
    cases b with
    | bool q => cases p <;> cases q <;> rfl
    | _ => exact compare_encodeInto_of_kind (by simp [kindRank]) x y
  | .number m, b, x, y => by
    cases b with
    | number n =>
      simp [encodeInto, order, compare_wordBytes (orderedBits_lt _) (orderedBits_lt _),
        compare_orderedBits]
    | _ => exact compare_encodeInto_of_kind (by simp [kindRank]) x y
  | .string s, b, x, y => by
    cases b with
    | string t => simp [encodeInto, order, compare_encodeText]
    | _ => exact compare_encodeInto_of_kind (by simp [kindRank]) x y
  | .array as, b, x, y => by
    cases b with
    | array bs => simp [encodeInto, order, compare_encodeItems as bs x y]
    | _ => exact compare_encodeInto_of_kind (by simp [kindRank]) x y
  | .object as, b, x, y => by
    cases b with
    | object bs => simp [encodeInto, order, compare_encodeFields as bs x y]
    | _ => exact compare_encodeInto_of_kind (by simp [kindRank]) x y

theorem compare_encodeItems : ∀ (as bs : List Json) (x y : KeyBytes),
    compare (encodeItems as (0 :: x)) (encodeItems bs (0 :: y)) =
      (orderItems as bs).then (compare x y)
  | [], [], x, y => by simp [encodeItems, orderItems]
  | [], b :: bs, x, y => compare_end_encodeInto b x _
  | a :: as, [], x, y => Std.OrientedCmp.gt_of_lt (compare_end_encodeInto a y _)
  | a :: as, b :: bs, x, y => by
    simp only [encodeItems, orderItems]
    rw [compare_encodeInto a b, compare_encodeItems as bs x y, Ordering.then_assoc]

theorem compare_encodeFields : ∀ (as bs : List (String × Json)) (x y : KeyBytes),
    compare (encodeFields as (0 :: x)) (encodeFields bs (0 :: y)) =
      (orderFields as bs).then (compare x y)
  | [], [], x, y => by simp [encodeFields, orderFields]
  | [], (_, _) :: _, x, y => rfl
  | (_, _) :: _, [], x, y => rfl
  | (k, a) :: as, (l, b) :: bs, x, y => by
    simp only [encodeFields, orderFields, List.compare_cons_cons, Std.compare_self,
      Ordering.eq_then]
    rw [compare_encodeText, compare_encodeInto a b, compare_encodeFields as bs x y,
      Ordering.then_assoc, Ordering.then_assoc]

end

lemma kindRank_bitPatterns (a : Json) : a.bitPatterns.kindRank = a.kindRank := by
  cases a <;> rfl

lemma order_eq_iff_of_kind {a b : Json} (h : a.kindRank ≠ b.kindRank) :
    order a b = .eq ↔ a.bitPatterns = b.bitPatterns := by
  rw [order_of_kind h, Nat.compare_eq_eq]
  refine ⟨fun he => absurd he h, fun he => ?_⟩
  rw [← kindRank_bitPatterns a, he, kindRank_bitPatterns]

mutual

/-- Values stand in the same place when they differ in the width of numbers only. -/
theorem order_eq_iff : ∀ a b : Json, order a b = .eq ↔ a.bitPatterns = b.bitPatterns
  | .null, b => by
    cases b with
    | null => simp [order]
    | _ => exact order_eq_iff_of_kind (by simp [kindRank])
  | .bool p, b => by
    cases b with
    | bool q => simp [order, bitPatterns]
    | _ => exact order_eq_iff_of_kind (by simp [kindRank])
  | .number m, b => by
    cases b with
    | number n => simp [order, bitPatterns, Binary64.order_eq_iff]
    | _ => exact order_eq_iff_of_kind (by simp [kindRank])
  | .string s, b => by
    cases b with
    | string t => simp [order, bitPatterns, compareText_eq_iff]
    | _ => exact order_eq_iff_of_kind (by simp [kindRank])
  | .array as, b => by
    cases b with
    | array bs => simp [order, bitPatterns, orderItems_eq_iff as bs]
    | _ => exact order_eq_iff_of_kind (by simp [kindRank])
  | .object as, b => by
    cases b with
    | object bs => simp [order, bitPatterns, orderFields_eq_iff as bs]
    | _ => exact order_eq_iff_of_kind (by simp [kindRank])

theorem orderItems_eq_iff : ∀ as bs : List Json,
    orderItems as bs = .eq ↔ itemsBitPatterns as = itemsBitPatterns bs
  | [], [] => by simp [orderItems]
  | [], b :: bs => by simp [orderItems, itemsBitPatterns]
  | a :: as, [] => by simp [orderItems, itemsBitPatterns]
  | a :: as, b :: bs => by
    simp [orderItems, itemsBitPatterns, order_eq_iff a b, orderItems_eq_iff as bs]

theorem orderFields_eq_iff : ∀ as bs : List (String × Json),
    orderFields as bs = .eq ↔ fieldsBitPatterns as = fieldsBitPatterns bs
  | [], [] => by simp [orderFields]
  | [], (_, _) :: _ => by simp [orderFields, fieldsBitPatterns]
  | (_, _) :: _, [] => by simp [orderFields, fieldsBitPatterns]
  | (k, a) :: as, (l, b) :: bs => by
    simp [orderFields, fieldsBitPatterns, compareText_eq_iff, order_eq_iff a b,
      orderFields_eq_iff as bs, and_assoc]

end

theorem collate_eq_order (a b : Json) : collate a b = order a b := by
  rw [collate, encode, encode, compare_encodeInto, Std.compare_self, Ordering.then_eq]

lemma encode_eq_iff (a b : Json) : encode a = encode b ↔ order a b = .eq := by
  rw [← collate_eq_order, collate, Std.compare_eq_iff_eq]

mutual

lemma encodeInto_append : ∀ (a : Json) (x y : KeyBytes),
    encodeInto a (x ++ y) = encodeInto a x ++ y
  | .null, x, y => rfl
  | .bool false, x, y => rfl
  | .bool true, x, y => rfl
  | .number n, x, y => by simp [encodeInto]
  | .string s, x, y => by simp [encodeInto, encodeText]
  | .array items, x, y => by
    simp only [encodeInto, List.cons_append, ← encodeItems_append items (0 :: x) y]
  | .object fields, x, y => by
    simp only [encodeInto, List.cons_append, ← encodeFields_append fields (0 :: x) y]

lemma encodeItems_append : ∀ (items : List Json) (x y : KeyBytes),
    encodeItems items (x ++ y) = encodeItems items x ++ y
  | [], x, y => rfl
  | item :: items, x, y => by
    simp only [encodeItems]
    rw [encodeItems_append items x y, encodeInto_append item]

lemma encodeFields_append : ∀ (fields : List (String × Json)) (x y : KeyBytes),
    encodeFields fields (x ++ y) = encodeFields fields x ++ y
  | [], x, y => rfl
  | (name, value) :: fields, x, y => by
    simp only [encodeFields]
    rw [encodeFields_append fields x y, encodeInto_append value]
    simp [encodeText]

end

lemma encodeInto_eq (a : Json) (x : KeyBytes) : encodeInto a x = encode a ++ x :=
  encodeInto_append a [] x

/-- No encoded value is a proper beginning of another. -/
lemma eq_nil_of_encode_append {a b : Json} {x : KeyBytes} (h : encode a ++ x = encode b) :
    x = [] := by
  have hc := compare_encodeInto a b x []
  rw [encodeInto_eq, h, ← encode, Std.compare_self] at hc
  exact List.compare_nil_right_eq_eq.mp (Ordering.then_eq_eq.mp hc.symm).2

lemma not_between_zeros (a : Json) :
    ¬ (order (.number (.float (Binary64.zero true))) a = .lt ∧
      order a (.number (.float (Binary64.zero false))) = .lt) := by
  rintro ⟨hl, hr⟩
  cases a with
  | number n =>
    have hn : (Binary64.zero true).orderedBits = 2 ^ 63 - 1 := rfl
    have hp : (Binary64.zero false).orderedBits = 2 ^ 63 := rfl
    simp only [order, Number.toBinary64, ← compare_orderedBits, Nat.compare_eq_lt] at hl hr
    rw [hn] at hl
    rw [hp] at hr
    omega
  | _ => simp [order, kindRank, Nat.compare_eq_lt] at hl hr

/-- Bytes of keys stand in the order of the values; they are equal exactly for values that become
equal once numbers are replaced by their binary64 patterns, and they are prefix-free. Negative zero
stands directly below zero. -/
theorem encode_collation (a b : Json) :
    collate a b = order a b ∧
      (encode a = encode b ↔ a.bitPatterns = b.bitPatterns) ∧
      (encode a <+: encode b → encode a = encode b) ∧
      order (.number (.float (Binary64.zero true))) (.number (.float (Binary64.zero false))) = .lt ∧
      ¬ (order (.number (.float (Binary64.zero true))) a = .lt ∧
        order a (.number (.float (Binary64.zero false))) = .lt) := by
  refine ⟨collate_eq_order a b, ?_, ?_, rfl, not_between_zeros a⟩
  · rw [encode_eq_iff, order_eq_iff]
  · rintro ⟨x, hx⟩
    rw [← hx, eq_nil_of_encode_append hx, List.append_nil]

end Json

end SignatureSearch
