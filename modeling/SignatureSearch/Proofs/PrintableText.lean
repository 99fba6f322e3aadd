import Mathlib
import SignatureSearch.Proofs.DecimalTexts

/-! Characters of written values. A value without blanks is written on one line and without control
characters, whatever its strings hold. -/
namespace SignatureSearch

/-- No character is one of the control characters below the blank. -/
def Printable (cs : List Char) : Prop := ∀ c ∈ cs, 32 ≤ c.toNat

namespace Printable

variable {cs : List Char}

lemma cons {c : Char} (hc : 32 ≤ c.toNat) (h : Printable cs) : Printable (c :: cs) :=
  List.forall_mem_cons.mpr ⟨hc, h⟩

lemma append {ds : List Char} (h : Printable cs) (g : Printable ds) : Printable (cs ++ ds) :=
  List.forall_mem_append.mpr ⟨h, g⟩

lemma subset (h : Printable cs) {ds : List Char} (hs : ds ⊆ cs) : Printable ds :=
  fun c hc => h c (hs hc)

lemma digits (n : ℕ) : Printable (Nat.toDigits 10 n) := by
  intro c hc
  have hdigit := Json.isDigit_toDigits c hc
  simp only [Char.isDigit, Bool.and_eq_true, decide_eq_true_eq] at hdigit
  have hlower : (48 : UInt32).toNat ≤ c.val.toNat := UInt32.le_iff_toNat_le.mp hdigit.1
  exact le_trans (by decide) hlower

lemma zeros (n : ℕ) : Printable (List.replicate n '0') := by
  intro c hc
  rw [List.eq_of_mem_replicate hc]
  decide

end Printable

namespace Json

/-! ### Numbers -/

lemma printable_layout (d : Decimal) : Printable (Binary64.layout d) := by
  have hdigits := Printable.digits d.digits
  have htake (n : ℕ) := hdigits.subset (List.take_subset n _)
  have hdrop (n : ℕ) := hdigits.subset (List.drop_subset n _)
  unfold Binary64.layout
  dsimp only
  split
  · refine ((htake 1).append ?_).append (.cons (by decide) (.cons ?_ (Printable.digits _)))
    · have hfraction := hdrop 1
      split
      · exact List.forall_mem_nil _
      · exact .cons (by decide) hfraction
    · split <;> decide
  · split
    · exact .cons (by decide) (.cons (by decide) ((Printable.zeros _).append hdigits))
    · split
      · exact hdigits.append ((Printable.zeros _).append (by simp [Printable]))
      · exact (htake _).append (.cons (by decide) (hdrop _))

lemma printable_chars (x : Binary64) : Printable x.chars := by
  have hunsigned : Printable (if x.magnitude = 0 then ['0', '.', '0']
      else Binary64.layout (Binary64.shortest x.magnitude)) := by
    split
    · simp [Printable]
    · exact printable_layout _
  unfold Binary64.chars
  dsimp only
  split
  · exact .cons (by decide) hunsigned
  · exact hunsigned

lemma printable_numberChars (n : Number) : Printable (numberChars n) := by
  cases n with
  | integer n =>
    rw [numberChars]
    cases n.value with
    | ofNat m =>
      rw [show (toString (Int.ofNat m)).toList = Nat.toDigits 10 m from Nat.toList_repr]
      exact .digits m
    | negSucc m =>
      rw [show (toString (Int.negSucc m)).toList = '-' :: Nat.toDigits 10 (m + 1) by
        simp [toString, Int.repr]]
      exact .cons (by decide) (.digits (m + 1))
  | float x => exact printable_chars x

/-! ### Strings -/

lemma printable_escape (c : Char) : Printable (escape c) := by
  have hhex : ∀ n < 16, 32 ≤ (hexDigit n).toNat := by decide
  unfold escape
  split_ifs with _ _ _ _ _ _ _ hcontrol
  any_goals simp [Printable]
  · exact ⟨hhex _ (by omega), hhex _ (by omega)⟩
  · exact not_lt.mp hcontrol

/-- A string is written without control characters, even those that it holds. -/
lemma printable_writeString (s : String) {rest : List Char} (h : Printable rest) :
    Printable (writeString s rest) := by
  refine .cons (by decide) (.append (fun c hc => ?_) (.cons (by decide) h))
  obtain ⟨d, -, hd⟩ := List.mem_flatMap.mp hc
  exact printable_escape d c hd

/-! ### Values -/

mutual

/-- A value is written without control characters. -/
theorem printable_write : ∀ (v : Json) {rest : List Char}, Printable rest →
    Printable (v.write rest)
  | .null, _, h => Printable.append (by simp [Printable] : Printable "null".toList) h
  | .bool true, _, h => Printable.append (by simp [Printable] : Printable "true".toList) h
  | .bool false, _, h => Printable.append (by simp [Printable] : Printable "false".toList) h
  | .number n, _, h => (printable_numberChars n).append h
  | .string s, _, h => printable_writeString s h
  | .array [], _, h => Printable.append (by simp [Printable] : Printable ['[', ']']) h
  | .array (item :: items), _, h =>
    .cons (by decide) (printable_write item (printable_writeItems items h))
  | .object [], _, h => Printable.append (by simp [Printable] : Printable ['{', '}']) h
  | .object ((name, value) :: fields), _, h =>
    .cons (by decide) (printable_writeString name
      (.cons (by decide) (printable_write value (printable_writeFields fields h))))

theorem printable_writeItems : ∀ (items : List Json) {rest : List Char}, Printable rest →
    Printable (writeItems items rest)
  | [], _, h => .cons (by decide) h
  | item :: items, _, h =>
    .cons (by decide) (printable_write item (printable_writeItems items h))

theorem printable_writeFields : ∀ (fields : List (String × Json)) {rest : List Char},
    Printable rest → Printable (writeFields fields rest)
  | [], _, h => .cons (by decide) h
  | (name, value) :: fields, _, h =>
    .cons (by decide) (printable_writeString name
      (.cons (by decide) (printable_write value (printable_writeFields fields h))))

end

theorem printable_text (v : Json) : Printable v.text.toList := by
  rw [text, String.toList_ofList]
  exact printable_write v (List.forall_mem_nil _)

end Json

end SignatureSearch
