import Mathlib
import SignatureSearch.Proofs.OpenGroups

/-! Refused lexemes. A query fails at the first lexeme that no query can have there: all that comes
before is a query, and nothing behind it changes the error. A group is refused exactly where as many
groups as are allowed are open already. -/
namespace SignatureSearch.Query

open Lexeme

namespace Reading

/-- Why a lexeme is refused. -/
inductive Refuses (r : Reading) (position : ℕ) : Lexeme → ParseError → Prop
  | type {t : Lexeme} (h : r.level.Awaits) (ht : t ≠ .openParen) :
      Refuses r position t (.expectingType position t.text)
  | suffix {t : Lexeme} (h : ¬r.level.Awaits) (ht : t ≠ .less) :
      Refuses r position t (.unexpected position t.text)
  | group (h : r.level.Awaits) (hd : ¬r.frames.length < maxDepth) :
      Refuses r position .openParen (.tooDeep position)
  | arguments (h : ¬r.level.Awaits) (hd : ¬r.frames.length < maxDepth) :
      Refuses r position .less (.tooDeep position)

variable {r : Reading} {t : Lexeme} {e : ParseError} {position : ℕ}

lemma openGroup_error {frame : Frame} (h : r.openGroup frame position = .error e) :
    ¬r.frames.length < maxDepth ∧ e = .tooDeep position := by
  unfold openGroup at h
  split_ifs at h with hd
  exact ⟨hd, (Except.error.inj h).symm⟩

lemma refuses_of_stepType (h : r.level.Awaits) (he : r.stepType position t = .error e) :
    r.Refuses position t e := by
  unfold stepType at he
  split at he
  · cases ho : r.openGroup (.group r.level) position with
    | ok r' => simp [ho, Except.map] at he
    | error e' =>
      rw [ho] at he
      cases he
      obtain ⟨hd, rfl⟩ := openGroup_error ho
      exact .group h hd
  · cases he
  · next hopen hname =>
    cases he
    exact .type h hopen

lemma refuses_of_step (he : r.step position t = .error e) : r.Refuses position t e := by
  unfold step at he
  split at he
  · next hslot => exact refuses_of_stepType (fun earlier last h => by simp [hslot] at h) he
  · next earlier last hslot =>
    have hawaits : r.level.Awaits := fun earlier last h => by simp [hslot] at h
    split_ifs at he
    split at he
    · cases he
    · exact refuses_of_stepType hawaits he
  · next earlier last hslot =>
    have hawaits : ¬r.level.Awaits := Level.not_awaits_iff.mpr ⟨_, _, hslot⟩
    split_ifs at he
    split at he
    · cases he
    · split at he
      · cases he
      · cases ho : r.openGroup (.arguments r.level []) position with
        | ok r' => simp [ho, Except.map] at he
        | error e' =>
          rw [ho] at he
          cases he
          obtain ⟨hd, rfl⟩ := openGroup_error ho
          exact .arguments hawaits hd
      · cases he
      · next hstar hless hname =>
        cases he
        exact .suffix hawaits hless

lemma Refuses.position_eq (h : r.Refuses position t e) : e.position = position := by
  cases h <;> rfl

lemma Refuses.found_eq (h : r.Refuses position t e) {p : ℕ} {found : String}
    (he : e = .expectingType p found ∨ e = .unexpected p found) : found = t.text := by
  cases h <;> simp_all

/-- A group is refused exactly where the most groups are open. -/
lemma Refuses.tooDeep_iff {w : List Lexeme} (hw : r.Behind w) (h : r.Refuses position t e) :
    (∃ p, e = .tooDeep p) ↔ OpensGroup w t ∧ (closers w).length = maxDepth := by
  have hdepth := hw.depth
  have hcount : (closers w).length = r.frames.length := by
    rw [← hw.closers, List.length_map]
  have hawaits := hw.awaits
  have hsuffix : ¬r.level.Awaits ↔ awaitsType w = false := by
    rw [hawaits, Bool.not_eq_true]
  rw [hcount]
  cases h with
  | type h ht => simp [OpensGroup, ht, hawaits.mp h]
  | suffix h ht => simp [OpensGroup, ht, hsuffix.mp h]
  | group h hd =>
    have hfull : r.frames.length = maxDepth := by omega
    simp [OpensGroup, hawaits.mp h, hfull]
  | arguments h hd =>
    have hfull : r.frames.length = maxDepth := by omega
    simp [OpensGroup, hsuffix.mp h, hfull]

end Reading

/-- The first lexeme is never refused, and the ones behind it are refused inside a signature. -/
lemma Stage.refuses_of_step {s : Stage} {w : List Lexeme} {t : Lexeme} {e : ParseError}
    {position : ℕ} (h : s.Behind w) (he : s.step position t = .error e) :
    ∃ r : Reading, r.Behind w ∧ r.Refuses position t e := by
  cases s with
  | start =>
    cases t with
    | openParen => simp [step_start_openParen] at he
    | _ => cases he
  | named name =>
    by_cases hcolon : t = .colon
    · subst hcolon
      cases he
    · rw [step_named name hcolon] at he
      exact ⟨_, h, Reading.refuses_of_step he⟩
  | signature r => exact ⟨r, h, Reading.refuses_of_step he⟩

lemma ofLexemes_eq_error_iff {ts : List Lexeme} {e : ParseError} :
    ofLexemes ts = .error e ↔ read .start 0 ts = .error e := by
  rw [ofLexemes, parseFragment, List.drop_zero]
  cases read .start 0 ts <;> simp [Except.map]

/-- An error is raised behind a run, at the lexeme at its position. -/
theorem refused_of_error {ts : List Lexeme} {e : ParseError} (h : ofLexemes ts = .error e) :
    ∃ (w : List Lexeme) (t : Lexeme) (rest : List Lexeme) (s : Stage), ts = w ++ t :: rest ∧
      Stage.start.Runs w s ∧ s.step w.length t = .error e := by
  have ho := Outcome.of_read .start 0 ts
  rw [ofLexemes_eq_error_iff.mp h] at ho
  cases ho with
  | refused hr he rest =>
    rw [Nat.zero_add] at he
    exact ⟨_, _, rest, _, rfl, hr, he⟩

lemma error_of_refused {w : List Lexeme} {t : Lexeme} {s : Stage} {e : ParseError}
    (hr : Stage.start.Runs w s) (he : s.step w.length t = .error e) (rest : List Lexeme) :
    ofLexemes (w ++ t :: rest) = .error e := by
  have hread := hr.reads 0 (t :: rest)
  rw [Nat.zero_add, read, he] at hread
  exact ofLexemes_eq_error_iff.mpr hread

/-- What continues a refused sequence is refused with the same error. -/
lemma error_append {ts : List Lexeme} {e : ParseError} (h : ofLexemes ts = .error e)
    (more : List Lexeme) : ofLexemes (ts ++ more) = .error e := by
  obtain ⟨w, t, rest, s, rfl, hr, he⟩ := refused_of_error h
  rw [List.append_assoc, List.cons_append]
  exact error_of_refused hr he _

/-- Every beginning of an accepted sequence is accepted. A refused sequence is refused at a lexeme
of its own: what comes before is accepted, the error is the same whatever comes behind and names
that lexeme, and it says that groups nest too deeply exactly if the lexeme opens a group inside as
many open groups as are allowed. -/
theorem refused_at_first (ts : List Lexeme) :
    (∀ q, ofLexemes ts = .ok q → ∀ w, w <+: ts → ∃ q', ofLexemes w = .ok q') ∧
    ∀ e, ofLexemes ts = .error e →
      ∃ hlength : e.position < ts.length,
        (∃ q, ofLexemes (ts.take e.position) = .ok q) ∧
        (∀ rest, ofLexemes (ts.take (e.position + 1) ++ rest) = .error e) ∧
        (∀ position found, e = .expectingType position found ∨ e = .unexpected position found →
          found = ts[e.position].text) ∧
        ((∃ position, e = .tooDeep position) ↔
          OpensGroup (ts.take e.position) ts[e.position] ∧
            (closers (ts.take e.position)).length = maxDepth) := by
  constructor
  · rintro q hq w ⟨more, rfl⟩
    cases hw : ofLexemes w with
    | ok q' => exact ⟨q', rfl⟩
    | error e =>
      rw [error_append hw more] at hq
      cases hq
  · intro e he
    obtain ⟨w, t, rest, s, rfl, hr, hstep⟩ := refused_of_error he
    obtain ⟨r, hbehind, hrefuses⟩ := Stage.refuses_of_step (behind_of_runs hr) hstep
    have hposition := hrefuses.position_eq
    have hlength : e.position < (w ++ t :: rest).length := by simp [hposition]
    have hat : (w ++ t :: rest)[e.position] = t := by simp [hposition]
    have hbefore : (w ++ t :: rest).take e.position = w := by simp [hposition]
    have hthrough : (w ++ t :: rest).take (e.position + 1) = w ++ [t] := by
      simp [hposition, List.take_append]
    refine ⟨hlength, ?_⟩
    rw [hat, hbefore, hthrough]
    refine ⟨⟨_, ofLexemes_of_reads hr.reads⟩, fun more => ?_,
      fun position found => hrefuses.found_eq, hrefuses.tooDeep_iff hbehind⟩
    rw [List.append_assoc, List.singleton_append]
    exact error_of_refused hr hstep more

/-- The 129th parenthesis is refused, and any beginning of `: a -> b` is accepted. -/
theorem refused_at_first_sample :
    (∃ q, ofLexemes [.colon, .name "a", .arrow] = .ok q) ∧
    ofLexemes (.colon :: List.replicate 129 .openParen) = .error (.tooDeep 129) ∧
    (∃ q, ofLexemes (.colon :: List.replicate 128 .openParen) = .ok q) ∧
    ofLexemes (.colon :: List.replicate 129 .openParen ++ [.name "a", .closeParen]) =
      .error (.tooDeep 129) ∧
    OpensGroup (.colon :: List.replicate 128 .openParen) .openParen ∧
    (closers (.colon :: List.replicate 128 .openParen)).length = 128 := by
  have hbeginning := (refused_at_first [.colon, .name "a", .arrow, .name "b"]).1 _ rfl
    [.colon, .name "a", .arrow] ⟨[.name "b"], rfl⟩
  have hrefused : ofLexemes (.colon :: List.replicate 129 .openParen) = .error (.tooDeep 129) := rfl
  obtain ⟨_, hbefore, hrest, _, hdeep⟩ := (refused_at_first _).2 _ hrefused
  exact ⟨hbeginning, hrefused, hbefore, hrest [.name "a", .closeParen], hdeep.mp ⟨_, rfl⟩⟩

end SignatureSearch.Query
