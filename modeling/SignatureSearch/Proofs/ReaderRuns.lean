import Mathlib
import SignatureSearch.Proofs.ReaderMoves
import SignatureSearch.Proofs.SignatureRoundTrip

/-! Runs of the reader. Whether a lexeme is accepted does not depend on its position, so accepted
lexemes lead from stage to stage wherever they stand. Reading ends behind all lexemes, at a
parenthesis that closes the query, or at a lexeme that is refused, and what was read before that is
such a run. -/
namespace SignatureSearch.Query

def Reading.ofName (name : String) : Reading := ⟨none, ⟨[], .suffix [] (.atom name)⟩, []⟩

/-- Behind a single name every lexeme but a colon is read as part of a signature. -/
lemma Stage.step_named (name : String) {t : Lexeme} (h : t ≠ .colon) (position : ℕ) :
    (Stage.named name).step position t = (Reading.ofName name).step position t := by
  cases t with
  | colon => exact absurd rfl h
  | _ => rfl

lemma Stage.step_start_openParen (position : ℕ) :
    Stage.start.step position .openParen =
      .ok (.next (.signature ⟨none, .empty, [.group .empty]⟩)) :=
  step_openParen [] [] [] position (by decide)

lemma Stage.step_anywhere {s : Stage} {t : Lexeme} {step : Step} {position : ℕ}
    (h : s.step position t = .ok step) (other : ℕ) : s.step other t = .ok step := by
  have hreading {r : Reading} (hr : r.step position t = .ok step) : r.step other t = .ok step :=
    Reading.step_ok_iff.mpr (Reading.step_ok_iff.mp hr)
  cases s with
  | start =>
    cases t with
    | openParen => rwa [step_start_openParen] at h ⊢
    | _ => exact h
  | named name =>
    by_cases hcolon : t = .colon
    · subst hcolon
      exact h
    · rw [step_named name hcolon] at h ⊢
      exact hreading h
  | signature r => exact hreading h

/-- The lexemes are accepted one after the other and lead from the first stage to the last. -/
inductive Stage.Runs : Stage → List Lexeme → Stage → Prop
  | nil (s : Stage) : Runs s [] s
  | cons {s t u : Stage} {lexeme : Lexeme} {rest : List Lexeme}
      (h : ∀ position, s.step position lexeme = .ok (.next t)) (hr : Runs t rest u) :
      Runs s (lexeme :: rest) u

lemma Stage.Runs.reads {s t : Stage} {w : List Lexeme} (h : s.Runs w t) : s.Reads w t := by
  induction h with
  | nil s => exact fun _ _ => rfl
  | cons h hr ih => exact .cons h ih

lemma Stage.Runs.append {s t u : Stage} {w v : List Lexeme} (h : s.Runs w t) (g : t.Runs v u) :
    s.Runs (w ++ v) u := by
  induction h with
  | nil s => exact g
  | cons h hr ih => exact .cons h (ih g)

inductive Outcome (s : Stage) (position : ℕ) : List Lexeme → Except ParseError Fragment → Prop
  | complete {w : List Lexeme} {t : Stage} (h : s.Runs w t) :
      Outcome s position w (.ok ⟨t.finish, position + w.length, none⟩)
  | closed {w : List Lexeme} {t : Stage} {lexeme : Lexeme} {q : Query} (h : s.Runs w t)
      (hq : t.step (position + w.length) lexeme = .ok (.closed q)) (rest : List Lexeme) :
      Outcome s position (w ++ lexeme :: rest) (.ok ⟨q, position + w.length + 1, some lexeme⟩)
  | refused {w : List Lexeme} {t : Stage} {lexeme : Lexeme} {e : ParseError} (h : s.Runs w t)
      (he : t.step (position + w.length) lexeme = .error e) (rest : List Lexeme) :
      Outcome s position (w ++ lexeme :: rest) (.error e)

namespace Outcome

variable {s t : Stage} {position : ℕ} {lexeme : Lexeme} {w : List Lexeme}
  {result : Except ParseError Fragment}

lemma cons (h : ∀ position, s.step position lexeme = .ok (.next t))
    (ho : Outcome t (position + 1) w result) : Outcome s position (lexeme :: w) result := by
  have hlength (w : List Lexeme) : position + 1 + w.length = position + (lexeme :: w).length := by
    rw [List.length_cons]
    omega
  cases ho with
  | complete hr =>
    rw [hlength]
    exact .complete (.cons h hr)
  | closed hr hq rest =>
    rw [hlength] at hq ⊢
    exact .closed (.cons h hr) hq rest
  | refused hr he rest =>
    rw [hlength] at he
    exact .refused (.cons h hr) he rest

/-- The reading has one of the three ends. -/
theorem of_read (s : Stage) (position : ℕ) (w : List Lexeme) :
    Outcome s position w (read s position w) := by
  induction w generalizing s position with
  | nil => exact .complete (.nil s)
  | cons lexeme rest ih =>
    rw [read]
    cases hs : s.step position lexeme with
    | error e => exact .refused (.nil s) hs rest
    | ok step =>
      cases step with
      | closed q => exact .closed (.nil s) hs rest
      | next t => exact .cons (Stage.step_anywhere hs) (ih t (position + 1))

end Outcome

section Start

variable {w : List Lexeme} {s : Stage}

lemma parseFragment_of_reads (h : Stage.start.Reads w s) :
    parseFragment w 0 = .ok ⟨s.finish, w.length, none⟩ := by
  have hread := h 0 []
  rw [List.append_nil, Nat.zero_add] at hread
  exact hread

lemma ofLexemes_of_reads (h : Stage.start.Reads w s) : ofLexemes w = .ok s.finish := by
  rw [ofLexemes, parseFragment_of_reads h]
  rfl

/-- Lexemes that are read to their end make up a run. -/
lemma runs_of_parseFragment {q : Query} {next : ℕ} (h : parseFragment w 0 = .ok ⟨q, next, none⟩) :
    ∃ s, Stage.start.Runs w s ∧ s.finish = q := by
  have ho := Outcome.of_read .start 0 w
  rw [show read .start 0 w = .ok ⟨q, next, none⟩ from h] at ho
  cases ho with
  | complete hr => exact ⟨_, hr, rfl⟩

end Start

end SignatureSearch.Query
