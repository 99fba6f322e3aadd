import Mathlib
import SignatureSearch.Proofs.OpenGroups

/-! Groups that are left open. A query that ends inside groups means what it means with the groups
closed, provided that the element in work is complete. -/
namespace SignatureSearch.Query

open Lexeme

namespace Reading

lemma moves_closer (name : Option String) {level : Level} (hc : level.Complete) (frame : Frame)
    (frames : List Frame) :
    (Reading.mk name level (frame :: frames)).Moves frame.closer
      (.next (.signature ⟨name, frame.close level.finish, frames⟩)) := by
  cases frame with
  | group outer => exact .closeGroup hc rfl
  | arguments outer args => exact .closeArguments hc rfl

/-- Closing the groups from the innermost on leads to the elements that the reading has with its
groups left open. -/
theorem runs_closers (name : Option String) {level : Level} (hc : level.Complete)
    (frames : List Frame) (hf : ∀ frame ∈ frames, frame.InPlace) :
    ∃ last : Level, last.finish = finishAll level.finish frames ∧
      (Stage.signature ⟨name, level, frames⟩).Runs (frames.map Frame.closer)
        (.signature ⟨name, last, []⟩) := by
  induction frames generalizing level with
  | nil => exact ⟨level, rfl, .nil _⟩
  | cons frame frames ih =>
    obtain ⟨hframe, hrest⟩ := List.forall_mem_cons.mp hf
    -- A closed group ends in a type, so the level around it is complete in turn.
    have hcomplete := Level.complete_of_not_awaits (Frame.not_awaits_close hframe level.finish)
    obtain ⟨last, hfinish, hruns⟩ := ih hcomplete hrest
    have hstep := moves_closer name hc frame frames
    exact ⟨last, hfinish, .cons (fun position => step_ok_iff.mpr hstep) hruns⟩

end Reading

/-- The stage behind the closed groups ends in the same query. -/
lemma Stage.runs_closers {s : Stage} {w : List Lexeme} (h : s.Behind w)
    (hlast : ∀ t ∈ w.getLast?, t ∉ [.arrow, .openParen, .less, .comma, .colon]) :
    ∃ s', s.Runs (closers w) s' ∧ s'.finish = s.finish := by
  cases s with
  | start =>
    obtain rfl : w = [] := h
    exact ⟨.start, .nil _, rfl⟩
  | named name =>
    have hnone : closers w = [] := (Reading.Behind.closers h).symm
    rw [hnone]
    exact ⟨.named name, .nil _, rfl⟩
  | signature r =>
    have hbehind : r.Behind w := h
    have hcomplete : r.level.Complete := by
      by_contra hincomplete
      obtain ⟨t, ht, hw⟩ := hbehind.incomplete hincomplete
      exact hlast t hw ht
    obtain ⟨last, hfinish, hruns⟩ :=
      Reading.runs_closers r.name hcomplete r.frames hbehind.frames
    rw [hbehind.closers] at hruns
    refine ⟨_, hruns, ?_⟩
    simp only [Stage.finish, Reading.finish, finishAll, hfinish]

/-- A query that is read to its end and does not break off where a type must come is the same query
with its open groups closed, innermost first. -/
theorem parse_closed {ts : List Lexeme} {q : Query} {next : ℕ}
    (h : parseFragment ts 0 = .ok ⟨q, next, none⟩)
    (hlast : ∀ t ∈ ts.getLast?, t ∉ [.arrow, .openParen, .less, .comma, .colon]) :
    ofLexemes ts = .ok q ∧ ofLexemes (ts ++ closers ts) = .ok q ∧
      parseFragment (ts ++ closers ts) 0 = .ok ⟨q, (ts ++ closers ts).length, none⟩ := by
  obtain ⟨s, hr, rfl⟩ := runs_of_parseFragment h
  obtain ⟨s', hclosed, hfinish⟩ := Stage.runs_closers (behind_of_runs hr) hlast
  have hall := hr.append hclosed
  rw [← hfinish]
  refine ⟨?_, ofLexemes_of_reads hall.reads, parseFragment_of_reads hall.reads⟩
  rw [ofLexemes_of_reads hr.reads, hfinish]

/-- `: a<(b -> c * d` breaks off inside a tuple, and `)` and `>` close it. -/
theorem parse_closed_sample :
    ofLexemes [.colon, .name "a", .less, .openParen, .name "b", .arrow, .name "c", .star,
        .name "d"] =
      .ok ⟨none, some [.generic (.atom "a")
        [.list [.atom "b", .tuple [.atom "c", .atom "d"]]]]⟩ ∧
    ofLexemes [.colon, .name "a", .less, .openParen, .name "b", .arrow, .name "c", .star,
        .name "d", .closeParen, .greater] =
      .ok ⟨none, some [.generic (.atom "a")
        [.list [.atom "b", .tuple [.atom "c", .atom "d"]]]]⟩ := by
  have hread : parseFragment [.colon, .name "a", .less, .openParen, .name "b", .arrow, .name "c",
      .star, .name "d"] 0 = .ok ⟨⟨none, some [.generic (.atom "a")
        [.list [.atom "b", .tuple [.atom "c", .atom "d"]]]]⟩, 9, none⟩ := rfl
  obtain ⟨hopen, hclosed, -⟩ := parse_closed hread (by simp)
  exact ⟨hopen, hclosed⟩

end SignatureSearch.Query
