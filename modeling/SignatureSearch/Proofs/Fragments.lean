import Mathlib
import SignatureSearch.Proofs.ReaderRuns

/-! Fragments. A fragment depends on the lexemes that it consumes and on nothing else: it is read
alike wherever these stand, and whatever comes behind the parenthesis that closes it. So a caller can
go on behind a fragment. -/
namespace SignatureSearch

/-- The error, had the lexemes stood further behind. -/
def ParseError.shift (offset : ℕ) : ParseError → ParseError
  | expectingType position found => .expectingType (offset + position) found
  | unexpected position found => .unexpected (offset + position) found
  | tooDeep position => .tooDeep (offset + position)

namespace Query

def Fragment.shift (offset : ℕ) (f : Fragment) : Fragment := { f with next := offset + f.next }

def shiftResult (offset : ℕ) (result : Except ParseError Fragment) : Except ParseError Fragment :=
  (result.mapError (ParseError.shift offset)).map (Fragment.shift offset)

/-! ### Positions -/

namespace Reading

variable (r : Reading) (offset position : ℕ) (t : Lexeme)

lemma openGroup_shift (frame : Frame) :
    r.openGroup frame (offset + position) =
      (r.openGroup frame position).mapError (ParseError.shift offset) := by
  unfold openGroup
  split_ifs <;> rfl

lemma stepType_shift :
    r.stepType (offset + position) t =
      (r.stepType position t).mapError (ParseError.shift offset) := by
  cases t with
  | openParen =>
    rw [stepType, stepType, openGroup_shift]
    cases r.openGroup (.group r.level) position <;> rfl
  | _ => rfl

lemma step_shift :
    r.step (offset + position) t = (r.step position t).mapError (ParseError.shift offset) := by
  unfold step
  cases r.level.slot with
  | type => exact stepType_shift r offset position t
  | component earlier last =>
    by_cases harrow : t = .arrow
    · simp only [harrow, if_true]
      rfl
    · simp only [harrow, if_false]
      cases r.close? t with
      | none => exact stepType_shift r offset position t
      | some step => rfl
  | suffix earlier last =>
    by_cases harrow : t = .arrow
    · simp only [harrow, if_true]
      rfl
    · simp only [harrow, if_false]
      cases r.close? t with
      | none =>
        cases t with
        | less =>
          simp only [openGroup_shift]
          cases r.openGroup (.arguments r.level []) position <;> rfl
        | _ => rfl
      | some step => rfl

end Reading

lemma Stage.step_shift (s : Stage) (offset position : ℕ) (t : Lexeme) :
    s.step (offset + position) t = (s.step position t).mapError (ParseError.shift offset) := by
  cases s with
  | start =>
    cases t with
    | openParen =>
      rw [step_start_openParen, step_start_openParen]
      rfl
    | _ => rfl
  | named name =>
    by_cases hcolon : t = .colon
    · subst hcolon
      rfl
    · rw [step_named name hcolon, step_named name hcolon]
      exact Reading.step_shift _ offset position t
  | signature r => exact r.step_shift offset position t

/-- Positions are counted from where reading begins. -/
theorem read_shift (s : Stage) (offset position : ℕ) (w : List Lexeme) :
    read s (offset + position) w = shiftResult offset (read s position w) := by
  induction w generalizing s position with
  | nil => rfl
  | cons t rest ih =>
    rw [read, read, Stage.step_shift]
    cases s.step position t with
    | error e => rfl
    | ok step =>
      cases step with
      | closed query => rfl
      | next stage => exact ih stage (position + 1)

lemma parseFragment_append (before tokens : List Lexeme) :
    parseFragment (before ++ tokens) before.length =
      shiftResult before.length (parseFragment tokens 0) := by
  rw [parseFragment, parseFragment, List.drop_left, List.drop_zero]
  exact read_shift .start before.length 0 tokens

/-! ### Ends -/

lemma Stage.closes_with {s : Stage} {position : ℕ} {t : Lexeme} {q : Query}
    (h : s.step position t = .ok (.closed q)) : t = .closeParen := by
  have hreading {r : Reading} (hr : r.step position t = .ok (.closed q)) : t = .closeParen := by
    cases Reading.step_ok_iff.mp hr
    rfl
  cases s with
  | start =>
    cases t with
    | openParen =>
      rw [step_start_openParen] at h
      cases h
    | _ => cases h
  | named name =>
    by_cases hcolon : t = .colon
    · subst hcolon
      cases h
    · rw [step_named name hcolon] at h
      exact hreading h
  | signature r => exact hreading h

/-- A fragment ends with the lexemes, or behind a parenthesis that closes it. -/
inductive Fragment.Ends (tokens : List Lexeme) (start : ℕ) (f : Fragment) : Prop
  | complete (hc : f.closedBy = none) (hn : f.next = tokens.length)
  | closed {w rest : List Lexeme} {s : Stage} (hc : f.closedBy = some .closeParen)
      (hd : tokens.drop start = w ++ .closeParen :: rest) (hn : f.next = start + w.length + 1)
      (hr : Stage.start.Runs w s)
      (hq : s.step (start + w.length) .closeParen = .ok (.closed f.query))

section Ends

variable {tokens : List Lexeme} {start : ℕ} {f : Fragment}

lemma Fragment.ends_of_parseFragment (hs : start ≤ tokens.length)
    (h : parseFragment tokens start = .ok f) : f.Ends tokens start := by
  have ho := Outcome.of_read .start start (tokens.drop start)
  rw [show read .start start (tokens.drop start) = .ok f from h] at ho
  generalize hd : tokens.drop start = remaining at ho
  cases ho with
  | complete hr =>
    have hlength : remaining.length = tokens.length - start := by rw [← hd, List.length_drop]
    have hnext : start + remaining.length = tokens.length := by omega
    exact .complete rfl hnext
  | closed hr hq rest =>
    obtain rfl := Stage.closes_with hq
    exact .closed rfl hd rfl hr hq

/-- What a fragment consumes lies between its start and the end of the lexemes. -/
lemma Fragment.Ends.bounds (hs : start ≤ tokens.length) (h : f.Ends tokens start) :
    start ≤ f.next ∧ f.next ≤ tokens.length ∧ (f.closedBy = none → f.next = tokens.length) ∧
      ∀ t, f.closedBy = some t →
        start < f.next ∧ t = .closeParen ∧ tokens[f.next - 1]? = some t := by
  cases h with
  | complete hc hn =>
    rw [hn, hc]
    exact ⟨hs, le_rfl, fun _ => rfl, by simp⟩
  | @closed w rest s hc hd hn hr hq =>
    have hlength : tokens.length = start + (w.length + (rest.length + 1)) := by
      have hdrop := congrArg List.length hd
      rw [List.length_drop, List.length_append, List.length_cons] at hdrop
      omega
    have hlast : tokens[start + w.length]? = some .closeParen := by
      rw [← List.getElem?_drop, hd]
      simp
    rw [hn, hc]
    refine ⟨by omega, by omega, by simp, fun t ht => ⟨by omega, ?_, ?_⟩⟩
    · exact (Option.some.inj ht).symm
    · rw [← ht]
      exact hlast

/-- Behind the parenthesis that closes a fragment anything can come. -/
lemma parseFragment_closed {t : Lexeme} (h : parseFragment tokens 0 = .ok f)
    (ht : f.closedBy = some t) (more : List Lexeme) :
    parseFragment (tokens.take f.next ++ more) 0 = .ok f := by
  cases Fragment.ends_of_parseFragment (Nat.zero_le _) h with
  | complete hc hn =>
    rw [hc] at ht
    cases ht
  | @closed w rest s hc hd hn hr hq =>
    obtain ⟨query, next, closedBy⟩ := f
    simp only [Nat.zero_add, List.drop_zero] at hc hd hn hq
    have htake : tokens.take next = w ++ [.closeParen] := by
      rw [hd, hn]
      simp [List.take_append]
    have hread := hr.reads 0 (.closeParen :: more)
    rw [Nat.zero_add, read, hq] at hread
    rw [htake, List.append_assoc, List.singleton_append, hc, hn]
    exact hread

end Ends

/-- Lexemes behind others are read like the lexemes alone, with the end or the error shifted. A
fragment ends behind its start and not behind the lexemes: at their end, or else just behind a
parenthesis that closes it. A closed fragment stays the same whatever comes behind the parenthesis,
and what comes there is read as if it stood alone. -/
theorem fragment_local :
    (∀ before tokens : List Lexeme, parseFragment (before ++ tokens) before.length =
      shiftResult before.length (parseFragment tokens 0)) ∧
    (∀ (tokens : List Lexeme) (start : ℕ) (f : Fragment), start ≤ tokens.length →
      parseFragment tokens start = .ok f →
        start ≤ f.next ∧ f.next ≤ tokens.length ∧ (f.closedBy = none → f.next = tokens.length) ∧
        ∀ t, f.closedBy = some t →
          start < f.next ∧ t = .closeParen ∧ tokens[f.next - 1]? = some t) ∧
    ∀ (tokens : List Lexeme) (f : Fragment) (t : Lexeme), parseFragment tokens 0 = .ok f →
      f.closedBy = some t → ∀ more : List Lexeme,
        parseFragment (tokens.take f.next ++ more) 0 = .ok f ∧
        parseFragment (tokens.take f.next ++ more) f.next =
          shiftResult f.next (parseFragment more 0) := by
  refine ⟨parseFragment_append, fun tokens start f hs h => ?_, fun tokens f t h ht more => ?_⟩
  · exact (Fragment.ends_of_parseFragment hs h).bounds hs
  · obtain ⟨-, hnext, -⟩ := (Fragment.ends_of_parseFragment (Nat.zero_le _) h).bounds (Nat.zero_le _)
    have hlength : (tokens.take f.next).length = f.next := by
      rw [List.length_take, Nat.min_eq_left hnext]
    have hresume := parseFragment_append (tokens.take f.next) more
    rw [hlength] at hresume
    exact ⟨parseFragment_closed h ht more, hresume⟩

/-- `int -> bool)` is a fragment of four lexemes whatever comes behind it, and `: ->` behind it is
refused as it is elsewhere, four lexemes further. -/
theorem fragment_local_sample :
    let tokens : List Lexeme := [.name "int", .arrow, .name "bool", .closeParen]
    let f : Fragment := ⟨.ofPrototype [.atom "int", .atom "bool"], 4, some .closeParen⟩
    parseFragment (tokens ++ [Lexeme.arrow]) 0 = .ok f ∧
      (tokens ++ [Lexeme.arrow])[f.next - 1]? = some .closeParen ∧
      parseFragment (tokens ++ [Lexeme.colon, .arrow]) 0 = .ok f ∧
      parseFragment (tokens ++ [Lexeme.colon, .arrow]) f.next = .error (.expectingType 5 "->") := by
  intro tokens f
  have hread : parseFragment (tokens ++ [Lexeme.arrow]) 0 = .ok f := rfl
  obtain ⟨-, hends, hclosed⟩ := fragment_local
  obtain ⟨-, -, -, hlast⟩ := hends _ 0 f (Nat.zero_le _) hread
  obtain ⟨hsame, hresume⟩ := hclosed _ f _ hread rfl [.colon, .arrow]
  exact ⟨hread, (hlast _ rfl).2.2, hsame, hresume⟩

end Query

end SignatureSearch
