import Mathlib
import SignatureSearch.Collation

/-! Encoded texts in byte order. UTF-8 keeps the order of code points, an escaped zero byte stays
above the end of a text, and no encoded text is the beginning of another: two texts with anything
behind them compare like the texts themselves, and like what follows when the texts are equal. -/
namespace SignatureSearch.Json

/-- The order of texts by code points, a proper beginning first. -/
def compareText (s t : String) : Ordering :=
  compare (s.toList.map Char.toNat) (t.toList.map Char.toNat)

lemma compare_byte_lt {m n : ℕ} (hm : m < 256) (hn : n < 256) :
    compare (UInt8.ofNat m) (UInt8.ofNat n) = .lt ↔ m < n := by
  rw [Std.compare_eq_lt, UInt8.lt_iff_toNat_lt, UInt8.toNat_ofNat_of_lt' hm,
    UInt8.toNat_ofNat_of_lt' hn]

lemma compare_byte_eq {m n : ℕ} (hm : m < 256) (hn : n < 256) :
    compare (UInt8.ofNat m) (UInt8.ofNat n) = .eq ↔ m = n := by
  rw [Std.compare_eq_iff_eq, ← UInt8.toNat_inj, UInt8.toNat_ofNat_of_lt' hm,
    UInt8.toNat_ofNat_of_lt' hn]

lemma codePoint_lt (c : Char) : c.toNat < 0x110000 := by
  have h := c.valid
  simp only [UInt32.isValidChar, Nat.isValidChar] at h
  change c.val.toNat < 0x110000
  omega

/-- The greater code point has the greater bytes, whatever follows. -/
theorem compare_utf8EncodeChar_lt {c d : Char} (h : c.toNat < d.toNat) (x y : KeyBytes) :
    compare (String.utf8EncodeChar c ++ x) (String.utf8EncodeChar d ++ y) = .lt := by
  have hc := codePoint_lt c
  have hd := codePoint_lt d
  simp only [String.utf8EncodeChar, Char.toNat] at *
  generalize c.val.toNat = v at *
  generalize d.val.toNat = w at *
  -- Digits to the base 64, so that `omega` sees the bytes of two characters as the same quotients.
  have h12 (n : ℕ) : n / 4096 = n / 64 / 64 := by omega
  have h18 (n : ℕ) : n / 262144 = n / 64 / 64 / 64 := by omega
  split_ifs <;> try omega
  all_goals simp (disch := omega) only [List.cons_append, List.nil_append,
    List.compare_cons_cons, Ordering.then_eq_lt, compare_byte_lt, compare_byte_eq, h12, h18]
  all_goals omega

lemma utf8EncodeChar_pos {c : Char} (hc : c.toNat ≠ 0) :
    ∀ b ∈ String.utf8EncodeChar c, b ≠ 0 := by
  have hlt := codePoint_lt c
  simp only [String.utf8EncodeChar, Char.toNat] at *
  generalize c.val.toNat = v at *
  intro b hb hz
  subst hz
  split_ifs at hb <;>
    simp only [List.mem_cons, List.not_mem_nil, or_false, ← UInt8.toNat_inj,
      UInt8.toNat_ofNat', UInt8.toNat_zero] at hb <;>
    omega

def charBytes (c : Char) : KeyBytes := (String.utf8EncodeChar c).flatMap escapeZero

lemma encodeText_eq (s : String) (rest : KeyBytes) :
    encodeText s rest = s.toList.flatMap charBytes ++ 0 :: 1 :: rest := by
  simp only [encodeText, List.flatMap_assoc]
  rfl

lemma charBytes_zero {c : Char} (hc : c.toNat = 0) : charBytes c = [0, 255] := by
  have : c.val.toNat = 0 := hc
  simp [charBytes, String.utf8EncodeChar, this, escapeZero]

lemma charBytes_pos {c : Char} (hc : c.toNat ≠ 0) : charBytes c = String.utf8EncodeChar c := by
  have h : ∀ bs : KeyBytes, (∀ b ∈ bs, b ≠ 0) → bs.flatMap escapeZero = bs := by
    intro bs hbs
    induction bs with
    | nil => rfl
    | cons b bs ih =>
      rw [List.flatMap_cons, ih fun b hb => hbs b (List.mem_cons_of_mem _ hb), escapeZero,
        if_neg (hbs b List.mem_cons_self)]
      rfl
  exact h _ (utf8EncodeChar_pos hc)

/-- The end of a text stands below every character. -/
lemma compare_end_charBytes (c : Char) (x y : KeyBytes) :
    compare (0 :: 1 :: x) (charBytes c ++ y) = .lt := by
  by_cases hc : c.toNat = 0
  · rw [charBytes_zero hc]
    rfl
  · rw [charBytes_pos hc]
    cases hb : String.utf8EncodeChar c with
    | nil => exact absurd hb String.utf8EncodeChar_ne_nil
    | cons b bs =>
      have hz : b ≠ 0 := utf8EncodeChar_pos hc b (by simp [hb])
      have hlt : compare 0 b = .lt := Std.compare_eq_lt.mpr (UInt8.pos_iff_ne_zero.mpr hz)
      rw [List.cons_append, List.compare_cons_cons, hlt, Ordering.lt_then]

lemma compare_charBytes_lt {c d : Char} (h : c.toNat < d.toNat) (x y : KeyBytes) :
    compare (charBytes c ++ x) (charBytes d ++ y) = .lt := by
  have hd := charBytes_pos (show d.toNat ≠ 0 by omega)
  by_cases hc : c.toNat = 0
  · have hz : String.utf8EncodeChar c = [0] := by
      have : c.val.toNat = 0 := hc
      simp [String.utf8EncodeChar, this]
    have hu := compare_utf8EncodeChar_lt h (255 :: x) y
    rw [hz] at hu
    rw [charBytes_zero hc, hd]
    exact hu
  · rw [charBytes_pos hc, hd]
    exact compare_utf8EncodeChar_lt h x y

lemma compare_append_left {α : Type} [Ord α] [Std.ReflOrd α] (p x y : List α) :
    compare (p ++ x) (p ++ y) = compare x y := by
  induction p with
  | nil => rfl
  | cons b p ih => simp [List.compare_cons_cons, ih]

lemma compare_characters (s t : List Char) (x y : KeyBytes) :
    compare (s.flatMap charBytes ++ 0 :: 1 :: x) (t.flatMap charBytes ++ 0 :: 1 :: y) =
      (compare (s.map Char.toNat) (t.map Char.toNat)).then (compare x y) := by
  induction s generalizing t with
  | nil =>
    cases t with
    | nil => simp
    | cons d t =>
      rw [List.flatMap_cons, List.append_assoc]
      exact compare_end_charBytes d x _
  | cons c s ih =>
    cases t with
    | nil =>
      rw [List.flatMap_cons, List.append_assoc]
      exact Std.OrientedCmp.gt_of_lt (compare_end_charBytes c y _)
    | cons d t =>
      simp only [List.flatMap_cons, List.append_assoc, List.map_cons, List.compare_cons_cons]
      rcases Nat.lt_trichotomy c.toNat d.toNat with h | h | h
      · rw [compare_charBytes_lt h, Nat.compare_eq_lt.mpr h]
        rfl
      · obtain rfl : c = d := Char.toNat_inj.mp h
        rw [compare_append_left, ih, Std.compare_self, Ordering.eq_then]
      · rw [Std.OrientedCmp.gt_of_lt (compare_charBytes_lt h _ _), Nat.compare_eq_gt.mpr h]
        rfl

/-- Encoded texts compare like the texts, and like what follows when the texts are equal. -/
theorem compare_encodeText (s t : String) (x y : KeyBytes) :
    compare (encodeText s x) (encodeText t y) = (compareText s t).then (compare x y) := by
  rw [encodeText_eq, encodeText_eq]
  exact compare_characters s.toList t.toList x y

end SignatureSearch.Json
