import Mathlib
import SignatureSearch.Proofs.SpacedLexemes

/-! Texts joined by blanks. The lexemes of the whole are those of the parts, where a dash and `>`
that meet are an arrow. Beside a symbol the blanks can be left out. -/
namespace SignatureSearch.Lexeme

/-- Lexemes behind others. A dash at the end of the first and `>` at the beginning of the second are
one arrow. -/
def joined (ts us : List Lexeme) : List Lexeme :=
  if ts.getLast? = some .dash ∧ us.head? = some .greater then ts.dropLast ++ .arrow :: us.tail
  else ts ++ us

lemma joined_dash_greater (ts us : List Lexeme) :
    joined (ts ++ [.dash]) (.greater :: us) = ts ++ .arrow :: us := by simp [joined]

lemma joined_of_apart {ts us : List Lexeme}
    (h : ∀ t ∈ ts.getLast?, ∀ u ∈ us.head?, Apart t u) : joined ts us = ts ++ us := by
  refine if_neg fun ⟨hdash, hgreater⟩ => ?_
  exact h .dash hdash .greater hgreater ⟨rfl, rfl⟩

namespace Lexical

variable {ts us : List Lexeme}

/-- Where nothing is joined at the seam, the lexemes are again those of a text. -/
lemma append (ht : Lexical ts) (hu : Lexical us)
    (h : ∀ t ∈ ts.getLast?, ∀ u ∈ us.head?, Apart t u) : Lexical (ts ++ us) where
  names := by
    intro name hname
    rcases List.mem_append.mp hname with hname | hname
    · exact ht.names name hname
    · exact hu.names name hname
  apart := List.isChain_append.mpr ⟨ht.apart, hu.apart, h⟩

lemma addAll_reverse (hu : Lexical us) : Scanner.addAll us.reverse [] = us.reverse := by
  have hapart : (us.reverse ++ []).IsChain fun b a => Apart a b := by
    rw [List.append_nil]
    exact List.isChain_reverse.mpr hu.apart
  rw [Scanner.addAll_of_apart hapart, List.append_nil]

/-- Only the lexemes at the seam are ever joined. -/
theorem addAll_eq_joined (ht : Lexical ts) (hu : Lexical us) :
    Scanner.addAll us.reverse ts.reverse = (joined ts us).reverse := by
  by_cases hseam : ∀ t ∈ ts.getLast?, ∀ u ∈ us.head?, Apart t u
  · have hapart : (us.reverse ++ ts.reverse).IsChain fun b a => Apart a b := by
      rw [← List.reverse_append]
      exact List.isChain_reverse.mpr (ht.append hu hseam).apart
    rw [Scanner.addAll_of_apart hapart, joined_of_apart hseam, List.reverse_append]
  · obtain ⟨front, rest, rfl, rfl⟩ :
        ∃ front rest, ts = front ++ [.dash] ∧ us = .greater :: rest := by
      simp only [Apart, not_forall, not_not] at hseam
      obtain ⟨t, hlast, u, hhead, rfl, rfl⟩ := hseam
      obtain ⟨rest, rfl⟩ := List.head?_eq_some_iff.mp hhead
      obtain ⟨front, rfl⟩ := List.getLast?_eq_some_iff.mp hlast
      exact ⟨front, rest, rfl, rfl⟩
    have harrow : Scanner.addAll (Lexeme.greater :: rest).reverse (front ++ [Lexeme.dash]).reverse =
        Scanner.addAll rest.reverse (.arrow :: front.reverse) := by
      rw [List.reverse_cons, List.reverse_concat', Scanner.addAll, List.foldr_append]
      rfl
    rw [harrow, Scanner.addAll_of_head (by simp), hu.tail.addAll_reverse, joined_dash_greater]
    simp

end Lexical

/-- The lexemes of joined texts with a blank or a symbol at the seam. -/
theorem ofChars_append_eq_joined {a b : List Char} (h : Seam a b) :
    ofChars (a ++ b) = joined (ofChars a) (ofChars b) := by
  have hall := reverse_ofChars_append h
  rw [(lexical_ofChars a).addAll_eq_joined (lexical_ofChars b)] at hall
  exact List.reverse_injective hall

lemma isBreak_of_blank {c : Char} (h : isBlank c = true) : isBreak c = true := by
  simp [isBreak, isNameChar, h]

lemma isBreak_of_symbol {c : Char} (h : c ∈ symbols) : isBreak c = true := by
  have hc : ¬isNameChar c = true := fun hname => (isNameChar_iff.mp hname).2 h
  simpa [isBreak] using hc

lemma ofSymbol?_of_blank {c : Char} (h : isBlank c = true) : ofSymbol? c = none := by
  have hsymbols : ∀ d ∈ symbols, isBlank d = false := by simp [symbols, isBlank]
  have hc : c ∉ symbols := fun hc => by simp [hsymbols c hc] at h
  exact Option.isNone_iff_eq_none.mp (isNone_ofSymbol?_iff.mpr hc)

lemma Scanner.foldl_blanks {w : List Char} (h : ∀ c ∈ w, isBlank c = true) :
    w.foldl step start = start := by
  induction w with
  | nil => rfl
  | cons c w ih =>
    obtain ⟨hc, hw⟩ := List.forall_mem_cons.mp h
    have hstep : start.step c = start := by simp [step, ofSymbol?_of_blank hc, hc, flush, start]
    rw [List.foldl_cons, hstep, ih hw]

lemma ofChars_blanks_append {w : List Char} (h : ∀ c ∈ w, isBlank c = true) (b : List Char) :
    ofChars (w ++ b) = ofChars b := by
  rw [ofChars, List.foldl_append, Scanner.foldl_blanks h, ofChars]

/-- Blanks between two texts separate their lexemes, but for a dash and `>`, which are an arrow.
Where one of the texts has a symbol at the seam, the lexemes are the same without the blanks. -/
theorem tokenize_append_blanks {a w b : String} (hne : w ≠ "")
    (hblank : ∀ c ∈ w.toList, isBlank c = true) :
    tokenize (a ++ w ++ b) = joined (tokenize a) (tokenize b) ∧
      ((∃ c ∈ symbols, a.toList.getLast? = some c ∨ b.toList.head? = some c) →
        tokenize (a ++ b) = tokenize (a ++ w ++ b)) := by
  have hapart : tokenize (a ++ w ++ b) = joined (tokenize a) (tokenize b) := by
    have hseam : Seam a.toList (w.toList ++ b.toList) := by
      refine .inr fun c hc => isBreak_of_blank (hblank c ?_)
      rw [List.head?_append_of_ne_nil _ (by simpa using hne)] at hc
      exact List.mem_of_mem_head? hc
    calc tokenize (a ++ w ++ b)
        = ofChars (a.toList ++ (w.toList ++ b.toList)) := by simp [tokenize, ofChars]
      _ = joined (tokenize a) (ofChars (w.toList ++ b.toList)) := ofChars_append_eq_joined hseam
      _ = joined (tokenize a) (tokenize b) := by rw [ofChars_blanks_append hblank]; rfl
  refine ⟨hapart, ?_⟩
  rintro ⟨c, hc, hend⟩
  have hseam : Seam a.toList b.toList := by
    rcases hend with hlast | hhead
    · exact .inl fun d hd => isBreak_of_symbol (Option.some.inj (hlast.symm.trans hd) ▸ hc)
    · exact .inr fun d hd => isBreak_of_symbol (Option.some.inj (hhead.symm.trans hd) ▸ hc)
  calc tokenize (a ++ b)
      = ofChars (a.toList ++ b.toList) := by simp [tokenize, ofChars]
    _ = joined (tokenize a) (tokenize b) := ofChars_append_eq_joined hseam
    _ = tokenize (a ++ w ++ b) := hapart.symm

/-- A dash and `>` meet across a blank and a tab, and without them. -/
theorem tokenize_append_blanks_sample :
    let ts : List Lexeme := [.name "a", .arrow, .greater, .name "b"]
    tokenize ("a-" ++ " \t" ++ ">> b") = ts ∧ tokenize ("a-" ++ ">> b") = ts := by
  intro ts
  obtain ⟨hblanks, hsymbol⟩ := tokenize_append_blanks (a := "a-") (w := " \t") (b := ">> b")
    (by simp) (by simp [isBlank])
  have hjoined : joined (tokenize "a-") (tokenize ">> b") = ts := by rfl
  have hdash : ∃ c ∈ symbols, "a-".toList.getLast? = some c ∨ ">> b".toList.head? = some c :=
    ⟨'-', by simp [symbols], .inl rfl⟩
  exact ⟨hblanks.trans hjoined, (hsymbol hdash).trans (hblanks.trans hjoined)⟩

end SignatureSearch.Lexeme
