import Mathlib
import SignatureSearch.Proofs.Scanning

/-! Lexemes of spaced texts. The lexemes of a text are those sequences in which names are words and
no dash stands in front of `>`. Such lexemes are recovered from their texts with blanks between
them, so that lexemes can be written down and read again. -/
namespace SignatureSearch.Lexeme

/-! ### What scanning leaves -/

def symbols : List Char := [':', '(', ')', '<', '>', '-', '*', ',']

lemma isNone_ofSymbol?_iff {c : Char} : (ofSymbol? c).isNone ↔ c ∉ symbols := by
  unfold ofSymbol?
  split
  all_goals simp_all [symbols]

/-- A name: it has a character, and no blank and no symbol is in it. -/
structure IsWord (name : String) : Prop where
  nonempty : name ≠ ""
  chars : ∀ c ∈ name.toList, isBlank c = false ∧ c ∉ symbols

lemma isNameChar_iff {c : Char} : isNameChar c = true ↔ isBlank c = false ∧ c ∉ symbols := by
  rw [← isNone_ofSymbol?_iff]
  simp [isNameChar]

/-- Two lexemes that are not read as one: a dash and `>` are an arrow. -/
def Apart (a b : Lexeme) : Prop := ¬(a = .dash ∧ b = .greater)

lemma Apart.of_ne_greater {b : Lexeme} (h : b ≠ .greater) (a : Lexeme) : Apart a b :=
  fun hab => h hab.2

/-- Lexemes that a text can consist of. -/
structure Lexical (ts : List Lexeme) : Prop where
  names : ∀ name, .name name ∈ ts → IsWord name
  apart : ts.IsChain Apart

namespace Scanner

/-- What has been read so far, the last lexeme first, are lexemes that a text can consist of. -/
structure Tidy (lexemes : List Lexeme) : Prop where
  names : ∀ name, .name name ∈ lexemes → IsWord name
  apart : lexemes.IsChain fun b a => Apart a b

namespace Tidy

variable {lexemes : List Lexeme}

lemma cons {t : Lexeme} (h : Tidy lexemes) (hn : ∀ name, t = .name name → IsWord name)
    (ha : ∀ a ∈ lexemes.head?, Apart a t) : Tidy (t :: lexemes) where
  names := by
    intro name hname
    rcases List.mem_cons.mp hname with hname | hname
    · exact hn name hname.symm
    · exact h.names name hname
  apart := List.isChain_cons.mpr ⟨ha, h.apart⟩

lemma tail {t : Lexeme} (h : Tidy (t :: lexemes)) : Tidy lexemes where
  names := fun name hname => h.names name (List.mem_cons_of_mem _ hname)
  apart := (List.isChain_cons.mp h.apart).2

/-- Only a dash at the end and `>` are joined, and the arrow can stand behind anything. -/
lemma addSymbol {symbol : Lexeme} (h : Tidy lexemes) (hs : ∀ name, symbol ≠ .name name) :
    Tidy (Scanner.addSymbol symbol lexemes) := by
  have hname (name : String) (heq : symbol = .name name) : IsWord name := absurd heq (hs name)
  by_cases hd : lexemes.head? = some .dash
  · obtain ⟨rest, rfl⟩ : ∃ rest, lexemes = .dash :: rest := by
      cases lexemes with
      | nil => simp at hd
      | cons t rest => exact ⟨rest, by simpa using hd⟩
    by_cases hg : symbol = .greater
    · subst hg
      exact h.tail.cons (by simp) fun a _ => .of_ne_greater (by simp) a
    · rw [addSymbol_of_ne hg]
      exact h.cons hname fun a _ => .of_ne_greater hg a
  · rw [addSymbol_of_head hd]
    refine h.cons hname fun a ha hab => hd ?_
    rw [Option.mem_def.mp ha, hab.1]

end Tidy

/-- The lexemes that have been read are tidy, and the unfinished name is a part of one. -/
structure Sound (s : Scanner) : Prop where
  lexemes : Tidy s.lexemes
  word : ∀ c ∈ s.word, isNameChar c = true

namespace Sound

variable {s : Scanner}

lemma start : Sound start := ⟨⟨by simp [Scanner.start], by simp [Scanner.start]⟩, by
  simp [Scanner.start]⟩

lemma flush (h : Sound s) : Tidy s.flush := by
  unfold Scanner.flush
  split
  · exact h.lexemes
  · next hword =>
    refine h.lexemes.cons (fun name hname => ?_) fun a _ => .of_ne_greater (by simp) a
    obtain rfl : String.ofList s.word.reverse = name := by simpa using hname
    refine ⟨?_, fun c hc => isNameChar_iff.mp (h.word c ?_)⟩
    · simpa [String.ext_iff] using hword
    · simpa using hc

lemma step (h : Sound s) (c : Char) : Sound (s.step c) := by
  unfold Scanner.step
  cases hs : ofSymbol? c with
  | some symbol =>
    refine ⟨h.flush.addSymbol fun name hname => ?_, by simp⟩
    subst hname
    unfold ofSymbol? at hs
    split at hs <;> simp at hs
  | none =>
    simp only
    split_ifs with hblank
    · exact ⟨h.flush, by simp⟩
    · -- The word is finished by a later character, so it only has to consist of name characters.
      have hc : isNameChar c = true := by simp [isNameChar, hs, hblank]
      exact ⟨h.lexemes, List.forall_mem_cons.mpr ⟨hc, h.word⟩⟩

lemma foldl (h : Sound s) (cs : List Char) : Sound (cs.foldl Scanner.step s) := by
  induction cs generalizing s with
  | nil => exact h
  | cons c cs ih => exact ih (h.step c)

end Sound

/-- Lexemes that are apart stay as they are when they are added to each other. -/
lemma addAll_of_apart {later earlier : List Lexeme}
    (h : (later ++ earlier).IsChain fun b a => Apart a b) :
    addAll later earlier = later ++ earlier := by
  induction later with
  | nil => rfl
  | cons t later ih =>
    obtain ⟨hhead, hrest⟩ := List.isChain_cons.mp h
    rw [addAll_cons, ih hrest, List.cons_append]
    by_cases hg : t = .greater
    · refine addSymbol_of_head (fun hd => hhead .dash hd ⟨rfl, hg⟩) t
    · exact addSymbol_of_ne hg _

end Scanner

lemma lexical_ofChars (cs : List Char) : Lexical (ofChars cs) := by
  have hflush := (Scanner.Sound.start.foldl cs).flush
  exact ⟨fun name hname => hflush.names name (by simpa [ofChars] using hname),
    List.isChain_reverse.mpr hflush.apart⟩

/-! ### Reading spaced texts -/

def spaced (ts : List Lexeme) : String := " ".intercalate (ts.map text)

namespace Lexical

variable {t : Lexeme} {ts : List Lexeme}

lemma tail (h : Lexical (t :: ts)) : Lexical ts where
  names := fun name hname => h.names name (List.mem_cons_of_mem _ hname)
  apart := (List.isChain_cons.mp h.apart).2

lemma ofChars_text (h : Lexical (t :: ts)) : ofChars t.text.toList = [t] := by
  cases t with
  | name name =>
    have hword := h.names name (by simp)
    have hne : name.toList ≠ [] := by simpa using hword.nonempty
    have hchars := ofChars_name hne fun c hc => isNameChar_iff.mpr (hword.chars c hc)
    rwa [String.ofList_toList] at hchars
  | _ => rfl

/-- A lexeme and a blank, in front of what is read to the lexemes behind it. -/
lemma ofChars_append_blank (h : Lexical (t :: ts)) {cs : List Char} (hcs : ofChars cs = ts) :
    ofChars (t.text.toList ++ ' ' :: cs) = t :: ts := by
  have hblank : ofChars (' ' :: cs) = ts := by
    rw [show ' ' :: cs = [' '] ++ cs from rfl, ofChars_append (.inl (by simp; decide)) (by decide),
      hcs]
    rfl
  -- `t` may be a dash, so the blank does not keep the two sides apart: that `ts` does not begin with
  -- `>` does.
  have hall := reverse_ofChars_append (a := t.text.toList) (b := ' ' :: cs) (.inr (by simp; decide))
  have hapart : (ts.reverse ++ [t]).IsChain fun b a => Apart a b := by
    rw [← List.reverse_cons]
    exact List.isChain_reverse.mpr h.apart
  rw [hblank, h.ofChars_text, List.reverse_singleton, Scanner.addAll_of_apart hapart,
    ← List.reverse_cons] at hall
  exact List.reverse_injective hall

theorem ofChars_spaced : ∀ {ts : List Lexeme}, Lexical ts → ofChars (spaced ts).toList = ts
  | [], _ => rfl
  | [t], h => by simpa [spaced] using h.ofChars_text
  | t :: u :: rest, h => by
    have hrest := h.ofChars_append_blank (ofChars_spaced h.tail)
    simpa [spaced, String.intercalate_cons_cons] using hrest

end Lexical

/-- The names among the lexemes of a text are words, and no dash is directly in front of `>`. These
are just the sequences of lexemes that a text can have: joined by blanks their texts are read as
the same lexemes again. So lexemes that were read once are read again from such a text. -/
theorem tokenize_image :
    (∀ text, Lexical (tokenize text)) ∧
    (∀ ts, Lexical ts → tokenize (spaced ts) = ts) ∧
    (∀ text, tokenize (spaced (tokenize text)) = tokenize text) ∧
    ∀ ts, Lexical ts ↔ ∃ text, tokenize text = ts := by
  have hlexical (text : String) : Lexical (tokenize text) := lexical_ofChars text.toList
  refine ⟨hlexical, fun ts h => h.ofChars_spaced, fun text => (hlexical text).ofChars_spaced,
    fun ts => ⟨fun h => ⟨spaced ts, h.ofChars_spaced⟩, ?_⟩⟩
  rintro ⟨text, rfl⟩
  exact hlexical text

/-- Two dashes, a name and two signs `>` are no arrows. -/
theorem tokenize_image_sample :
    let ts : List Lexeme := [.dash, .dash, .name "a", .greater, .greater]
    Lexical ts ∧ tokenize (spaced ts) = ts := by
  intro ts
  have hword : IsWord "a" := ⟨by simp, by simp [isBlank, symbols]⟩
  have hts : Lexical ts := by
    refine ⟨fun name hname => ?_, by simp [ts, Apart]⟩
    obtain rfl : name = "a" := by simpa [ts] using hname
    exact hword
  exact ⟨hts, tokenize_image.2.1 ts hts⟩

end SignatureSearch.Lexeme
