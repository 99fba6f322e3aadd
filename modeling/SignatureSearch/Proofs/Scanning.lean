import Mathlib
import SignatureSearch.Lexeme

/-! Lexemes of joined texts. Where the seam of two texts is no name on one side, the lexemes of the
whole are those of the parts, but that a dash at the end of the first and `>` at the beginning of
the second make an arrow. -/
namespace SignatureSearch.Lexeme

def ofChars (cs : List Char) : List Lexeme := (cs.foldl Scanner.step Scanner.start).flush.reverse

def isBreak (c : Char) : Bool := !isNameChar c

namespace Scanner

def settled (s : Scanner) : Scanner := ⟨s.flush, []⟩

@[simp] lemma flush_settled (s : Scanner) : s.settled.flush = s.flush := rfl

lemma settled_of_word {s : Scanner} (h : s.word = []) : s.settled = s := by
  obtain ⟨lexemes, word⟩ := s
  obtain rfl : word = [] := h
  rfl

lemma step_settled {c : Char} (h : isBreak c = true) (s : Scanner) :
    s.settled.step c = s.step c := by
  unfold step
  cases hs : ofSymbol? c with
  | some symbol => rfl
  | none =>
    have hb : isBlank c = true := by simpa [isBreak, isNameChar, hs] using h
    simp only [hb, if_true, flush_settled]

lemma word_step {c : Char} (h : isBreak c = true) (s : Scanner) : (s.step c).word = [] := by
  unfold step
  cases hs : ofSymbol? c with
  | some symbol => rfl
  | none =>
    have hb : isBlank c = true := by simpa [isBreak, isNameChar, hs] using h
    simp only [hb, if_true]

lemma addSymbol_of_head {earlier : List Lexeme} (h : earlier.head? ≠ some .dash)
    (symbol : Lexeme) : addSymbol symbol earlier = symbol :: earlier := by
  cases earlier with
  | nil => rfl
  | cons lexeme rest => cases lexeme <;> first | rfl | exact absurd rfl h

lemma addSymbol_of_ne {symbol : Lexeme} (h : symbol ≠ .greater) (earlier : List Lexeme) :
    addSymbol symbol earlier = symbol :: earlier := by
  unfold addSymbol
  split
  · rw [if_neg h]
  · rfl

/-- Adds lexemes to earlier ones, the last one first on both sides. -/
def addAll (later earlier : List Lexeme) : List Lexeme := later.foldr addSymbol earlier

@[simp] lemma addAll_nil (earlier : List Lexeme) : addAll [] earlier = earlier := rfl

lemma addAll_cons (t : Lexeme) (later earlier : List Lexeme) :
    addAll (t :: later) earlier = addSymbol t (addAll later earlier) := rfl

/-- An arrow is the same whether its dash is added before or after the other lexemes. -/
lemma addAll_addSymbol (symbol : Lexeme) (later earlier : List Lexeme) :
    addAll (addSymbol symbol later) earlier = addSymbol symbol (addAll later earlier) := by
  by_cases hd : later.head? = some .dash
  · obtain ⟨rest, rfl⟩ : ∃ rest, later = .dash :: rest := by
      cases later with
      | nil => simp at hd
      | cons t rest => exact ⟨rest, by simpa using hd⟩
    by_cases hg : symbol = .greater
    · subst hg
      have harrow (lexemes : List Lexeme) :
          addSymbol .greater (.dash :: lexemes) = .arrow :: lexemes := rfl
      rw [harrow, addAll_cons, addAll_cons, addSymbol_of_ne (show dash ≠ greater by simp), harrow,
        addSymbol_of_ne (by simp)]
    · rw [addSymbol_of_ne hg, addAll_cons]
  · rw [addSymbol_of_head hd, addAll_cons]

/-- Without a dash in front of the seam nothing is changed there. -/
lemma addAll_of_head {earlier : List Lexeme} (h : earlier.head? ≠ some .dash)
    (later : List Lexeme) : addAll later earlier = addAll later [] ++ earlier := by
  induction later with
  | nil => rfl
  | cons t later ih =>
    rw [addAll_cons, addAll_cons, ih]
    cases hl : addAll later [] with
    | nil => exact addSymbol_of_head h t
    | cons u rest =>
      unfold addSymbol
      cases u <;> simp only [List.cons_append]
      split <;> rfl

/-- A scanner that has read `earlier` lexemes before, where another has read none. -/
structure Behind (earlier : List Lexeme) (s t : Scanner) : Prop where
  lexemes : s.lexemes = addAll t.lexemes earlier
  word : s.word = t.word

namespace Behind

variable {earlier : List Lexeme} {s t : Scanner}

lemma flush (h : Behind earlier s t) : s.flush = addAll t.flush earlier := by
  simp only [Scanner.flush, h.lexemes, h.word]
  split
  · rfl
  · rw [addAll_cons, addSymbol_of_ne (by simp)]

lemma step (h : Behind earlier s t) (c : Char) : Behind earlier (s.step c) (t.step c) := by
  unfold Scanner.step
  cases hs : ofSymbol? c with
  | some symbol => exact ⟨by rw [h.flush, addAll_addSymbol], rfl⟩
  | none =>
    simp only
    split
    · exact ⟨h.flush, rfl⟩
    · exact ⟨h.lexemes, by rw [h.word]⟩

lemma foldl (cs : List Char) (h : Behind earlier s t) :
    Behind earlier (cs.foldl Scanner.step s) (cs.foldl Scanner.step t) := by
  induction cs generalizing s t with
  | nil => exact h
  | cons c cs ih => exact ih (h.step c)

end Behind

lemma foldl_settled {c : Char} (h : isBreak c = true) (s : Scanner) (cs : List Char) :
    (c :: cs).foldl step s.settled = (c :: cs).foldl step s := by
  rw [List.foldl_cons, step_settled h, List.foldl_cons]

end Scanner

/-- One of two texts that are joined is empty or has a blank or symbol at the seam. -/
def Seam (a b : List Char) : Prop :=
  (∀ c ∈ a.getLast?, isBreak c = true) ∨ ∀ c ∈ b.head?, isBreak c = true

lemma flush_foldl_settled {a b : List Char} (h : Seam a b) :
    (b.foldl Scanner.step (a.foldl Scanner.step Scanner.start)).flush =
      (b.foldl Scanner.step (a.foldl Scanner.step Scanner.start).settled).flush := by
  rcases h with h | h
  · rcases List.eq_nil_or_concat' a with rfl | ⟨front, c, rfl⟩
    · rfl
    · have hw : ((front ++ [c]).foldl Scanner.step Scanner.start).word = [] := by
        rw [List.foldl_append]
        exact Scanner.word_step (h c (by simp)) _
      rw [Scanner.settled_of_word hw]
  · cases b with
    | nil => rfl
    | cons c rest => rw [Scanner.foldl_settled (h c rfl)]

theorem reverse_ofChars_append {a b : List Char} (h : Seam a b) :
    (ofChars (a ++ b)).reverse = Scanner.addAll (ofChars b).reverse (ofChars a).reverse := by
  have hb : Scanner.Behind (a.foldl Scanner.step Scanner.start).flush
      (a.foldl Scanner.step Scanner.start).settled Scanner.start := ⟨rfl, rfl⟩
  have hf := (hb.foldl b).flush
  simp only [ofChars, List.reverse_reverse]
  rw [List.foldl_append, flush_foldl_settled h, hf]

/-- Scanning leaves no lexemes that would be joined if they were added again. -/
lemma addAll_reverse_ofChars (cs : List Char) :
    Scanner.addAll (ofChars cs).reverse [] = (ofChars cs).reverse :=
  (reverse_ofChars_append (a := []) (.inl (by simp))).symm

/-- The lexemes of joined texts, if the first one does not end in a dash. -/
theorem ofChars_append {a b : List Char} (h : Seam a b)
    (hd : (ofChars a).getLast? ≠ some .dash) : ofChars (a ++ b) = ofChars a ++ ofChars b := by
  have hall := reverse_ofChars_append h
  rw [Scanner.addAll_of_head (by rwa [List.head?_reverse]), addAll_reverse_ofChars,
    ← List.reverse_append] at hall
  exact List.reverse_injective hall

lemma ofChars_name {cs : List Char} (hn : cs ≠ []) (h : ∀ c ∈ cs, isNameChar c = true) :
    ofChars cs = [.name (String.ofList cs)] := by
  have hw : ∀ word, (cs.foldl Scanner.step ⟨[], word⟩) = ⟨[], cs.reverse ++ word⟩ := by
    intro word
    induction cs generalizing word with
    | nil => rfl
    | cons c cs ih =>
      have hc : isNameChar c = true := h c (by simp)
      have hs : Scanner.step ⟨[], word⟩ c = ⟨[], c :: word⟩ := by
        simp only [isNameChar, Bool.and_eq_true, Bool.not_eq_true', Option.isNone_iff_eq_none] at hc
        simp [Scanner.step, hc.1, hc.2]
      rw [List.foldl_cons, hs]
      by_cases hcs : cs = []
      · subst hcs
        rfl
      · rw [ih hcs (fun d hd => h d (by simp [hd]))]
        simp
  rw [ofChars, Scanner.start, hw []]
  simp [Scanner.flush, hn]

end SignatureSearch.Lexeme
