import Mathlib
import SignatureSearch.Proofs.OpenGroups
import SignatureSearch.Proofs.ParsedNodes
import SignatureSearch.Proofs.WireForm

/-! Reduced signatures. Groups and tuples of one type are that type, and nothing in a signature is
empty, unless its last lexeme opens what nothing comes behind. -/
namespace SignatureSearch

namespace TypeNode

/-- The node and its parts have the property. -/
def Hereditarily (P : TypeNode → Prop) (t : TypeNode) : Prop := ∀ part, part.PartOf t → P part

namespace Hereditarily

variable {P : TypeNode → Prop}

lemma atom {name : String} (h : P (.atom name)) : (TypeNode.atom name).Hereditarily P := by
  intro part hpart
  cases hpart with
  | self => exact h

lemma list {items : List TypeNode} (h : P (.list items)) (hi : ∀ t ∈ items, t.Hereditarily P) :
    (TypeNode.list items).Hereditarily P := by
  intro part hpart
  cases hpart with
  | self => exact h
  | item hmem hpart => exact hi _ hmem part hpart

lemma tuple {items : List TypeNode} (h : P (.tuple items)) (hi : ∀ t ∈ items, t.Hereditarily P) :
    (TypeNode.tuple items).Hereditarily P := by
  intro part hpart
  cases hpart with
  | self => exact h
  | component hmem hpart => exact hi _ hmem part hpart

lemma array {element : TypeNode} (h : P (.array element)) (he : element.Hereditarily P) :
    (TypeNode.array element).Hereditarily P := by
  intro part hpart
  cases hpart with
  | self => exact h
  | element hpart => exact he part hpart

lemma generic {con : TypeNode} {args : List TypeNode} (h : P (.generic con args))
    (hc : con.Hereditarily P) (ha : ∀ t ∈ args, t.Hereditarily P) :
    (TypeNode.generic con args).Hereditarily P := by
  intro part hpart
  cases hpart with
  | self => exact h
  | con hpart => exact hc part hpart
  | arg hmem hpart => exact ha _ hmem part hpart

end Hereditarily

/-- What a node of a signature looks like: names come from the lexemes, no list and no tuple has one
item, and nothing is empty unless the last lexeme opens it. -/
def Reduced (w : List Lexeme) : TypeNode → Prop
  | .atom name => .name name ∈ w
  | .list items => items.length ≠ 1 ∧ (items = [] → w.getLast? = some .openParen)
  | .tuple items => 2 ≤ items.length
  | .array _ => True
  | .generic _ args => args = [] → w.getLast? = some .less
  | .byRef _ => False
  | .raw _ => False

end TypeNode

namespace Query

/-- The moves of the reader keep nodes reduced. -/
lemma keptByMoves_reduced (w : List Lexeme) :
    KeptByMoves w (TypeNode.Hereditarily (TypeNode.Reduced w)) := by
  refine ⟨fun hw => .atom hw, fun {elements} hne he => ?_, fun {earlier last} he hl => ?_,
    fun {con operand} hw ho => ?_, fun hne hc ha => .generic (fun h => absurd h hne) hc ha⟩
  · unfold groupNode
    split
    · exact he _ (by simp)
    · next hmany =>
      refine .list ⟨fun hone => ?_, fun h => absurd h hne⟩ he
      obtain ⟨only, rfl⟩ := List.length_eq_one_iff.mp hone
      exact hmany only rfl
  · unfold joinComponents
    split_ifs with hempty
    · exact hl
    · have hlength : 2 ≤ (earlier ++ [last]).length := by
        have hpos : 0 < earlier.length := List.length_pos_iff.mpr (by simpa using hempty)
        rw [List.length_append, List.length_singleton]
        omega
      exact .tuple hlength (List.forall_mem_append.mpr ⟨he, List.forall_mem_singleton.mpr hl⟩)
  · unfold applyPostfix
    split_ifs
    · exact .array trivial ho
    · exact .generic (fun h => by simp at h) (.atom hw) (by simpa using ho)

lemma Level.finish_ne_nil_of_not_awaits {l : Level} (h : ¬l.Awaits) : l.finish ≠ [] :=
  Level.finish_ne_nil (Level.complete_of_not_awaits h)

/-- A closed group is an element of the level around it. -/
lemma Frame.finish_close_ne_nil {frame : Frame} (h : frame.InPlace) (elements : List TypeNode) :
    (frame.close elements).finish ≠ [] :=
  Level.finish_ne_nil_of_not_awaits (Frame.not_awaits_close h elements)

/-- Once the innermost group has an element, so have the groups around it when they are closed. -/
lemma all_finishAll_of_ne_nil {w : List Lexeme} {P : TypeNode → Prop} (hP : KeptByMoves w P)
    (frames : List Frame) (hf : ∀ frame ∈ frames, frame.All P)
    (hp : ∀ frame ∈ frames, frame.InPlace) {elements : List TypeNode} (hne : elements ≠ [])
    (he : ∀ node ∈ elements, P node) :
    ∀ node ∈ finishAll elements frames, P node := by
  induction frames generalizing elements with
  | nil => exact he
  | cons frame frames ih =>
    obtain ⟨hframe, hrest⟩ := List.forall_mem_cons.mp hf
    obtain ⟨hplace, hplaces⟩ := List.forall_mem_cons.mp hp
    exact ih hrest hplaces (Frame.finish_close_ne_nil hplace elements)
      ((hframe.close hP hne he).finish hP)

/-- Whether the last lexeme may leave the group without an element. -/
def Frame.MayBeEmpty (last : Option Lexeme) : Frame → Prop
  | .group _ => last = some .openParen
  | .arguments _ args => args = [] → last = some .less

/-- Such a group is closed on nothing. -/
lemma Frame.all_close_nil {w : List Lexeme} {frame : Frame} (hlast : frame.MayBeEmpty w.getLast?)
    (h : frame.All (TypeNode.Hereditarily (TypeNode.Reduced w))) :
    (frame.close []).All (TypeNode.Hereditarily (TypeNode.Reduced w)) := by
  cases frame with
  | group outer => exact Level.All.addType h (.list ⟨by simp, fun _ => hlast⟩ (by simp))
  | arguments outer args => exact h.1.mapLast fun con hcon => .generic hlast hcon h.2

/-- A reading behind the lexemes `v` of `w`. All that has been built is reduced, and the innermost
group has no element only if the last lexeme of `v` left it so. -/
structure Reading.ReducedBehind (w : List Lexeme) (r : Reading) (v : List Lexeme) : Prop where
  behind : r.Behind v
  nodes : r.All (TypeNode.Hereditarily (TypeNode.Reduced w))
  opened : r.level.finish = [] → ∀ frame ∈ r.frames.head?, frame.MayBeEmpty v.getLast?

def Stage.ReducedBehind (w : List Lexeme) : Stage → List Lexeme → Prop
  | .signature r, v => r.ReducedBehind w v
  | _, _ => False

namespace Reading.ReducedBehind

variable {w v : List Lexeme} {r r' : Reading} {t : Lexeme}

/-- Only a lexeme that opens something leaves a group without an element. -/
lemma opened_of_moves (h : r.Behind v) (hm : r.Moves t (.next (.signature r')))
    (hempty : r'.level.finish = []) : ∀ frame ∈ r'.frames.head?, frame.MayBeEmpty (some t) := by
  obtain ⟨name, level, frames⟩ := r
  have hframes := h.frames
  cases hm with
  | openGroup ha hd => simp [Frame.MayBeEmpty]
  | openArguments hs hd => simp [Frame.MayBeEmpty]
  | nextArgument hc hf => simp [Frame.MayBeEmpty, addArgument_ne_nil _ (Level.finish_ne_nil hc)]
  | name name ha =>
    exact absurd hempty (Level.finish_ne_nil_of_not_awaits (Level.not_awaits_addType ha _))
  | arrow hc =>
    have hne : level.finish ≠ [] := Level.finish_ne_nil hc
    exact absurd hempty hne
  | closeGroup hc hf | closeArguments hc hf =>
    obtain rfl := hf
    have hplace := (List.forall_mem_cons.mp hframes).1
    exact absurd hempty (Frame.finish_close_ne_nil hplace _)
  | star hs => exact absurd hempty (Level.finish_ne_nil (by simp [Level.Complete]))
  | constructor con hs =>
    have ha : ¬level.Awaits := Level.not_awaits_iff.mpr ⟨_, _, hs⟩
    exact absurd hempty (Level.finish_ne_nil_of_not_awaits (Level.not_awaits_mapLast ha _))

/-- One lexeme keeps what has been built reduced. -/
theorem step (h : r.ReducedBehind w v) (ht : t ∈ w) (hm : r.Moves t (.next (.signature r'))) :
    r'.ReducedBehind w (v ++ [t]) where
  behind := h.behind.step hm
  nodes := h.nodes.step (keptByMoves_reduced w) ht hm
  opened := fun hempty => by simpa using opened_of_moves h.behind hm hempty

lemma colon : (Reading.mk none .empty []).ReducedBehind w [.colon] where
  behind := .colon
  nodes := ⟨.empty, by simp⟩
  opened := by simp

/-- At the end of the lexemes the groups left open are closed, and only the innermost one can be
empty. -/
theorem finish (h : r.ReducedBehind w w) :
    ∀ node ∈ finishAll r.level.finish r.frames, node.Hereditarily (TypeNode.Reduced w) := by
  have hP := keptByMoves_reduced w
  obtain ⟨name, level, frames⟩ := r
  have hplaces := h.behind.frames
  have hnodes := h.nodes.frames
  by_cases hempty : level.finish = []
  · cases frames with
    | nil => simp [finishAll, hempty]
    | cons frame frames =>
      obtain ⟨hplace, hrest⟩ := List.forall_mem_cons.mp hplaces
      obtain ⟨hframe, hframes⟩ := List.forall_mem_cons.mp hnodes
      have hclosed := Frame.all_close_nil (h.opened hempty frame rfl) hframe
      rw [finishAll, hempty]
      exact all_finishAll_of_ne_nil hP frames hframes hrest (Frame.finish_close_ne_nil hplace [])
        (hclosed.finish hP)
  · exact all_finishAll_of_ne_nil hP frames hnodes hplaces hempty (h.nodes.level.finish hP)

end Reading.ReducedBehind

/-- A whole run keeps what has been built reduced. -/
theorem Stage.ReducedBehind.runs {w v u : List Lexeme} {s s' : Stage} (h : s.ReducedBehind w v)
    (hr : s.Runs u s') (hu : ∀ t ∈ u, t ∈ w) : s'.ReducedBehind w (v ++ u) := by
  induction hr generalizing v with
  | nil s => rwa [List.append_nil]
  | @cons s t s'' lexeme rest hs hr ih =>
    cases s with
    | start => exact h.elim
    | named name => exact h.elim
    | signature r =>
      have hm := Reading.step_ok_iff.mp (hs 0)
      obtain ⟨r', rfl⟩ := hm.next_signature
      have hnext := Reading.ReducedBehind.step h (hu lexeme (by simp)) hm
      have hrest := ih hnext fun t ht => hu t (by simp [ht])
      rwa [List.append_assoc] at hrest

lemma reduced_of_read {ts : List Lexeme} {f : Fragment}
    (h : read (.signature ⟨none, .empty, []⟩) 1 ts = .ok f) :
    f.query.All (TypeNode.Hereditarily (TypeNode.Reduced (.colon :: ts))) := by
  have hcolon : (Stage.signature ⟨none, .empty, []⟩).ReducedBehind (.colon :: ts) [.colon] :=
    Reading.ReducedBehind.colon
  have ho := Outcome.of_read (.signature ⟨none, .empty, []⟩) 1 ts
  rw [h] at ho
  cases ho with
  | @complete _ s hr =>
    have hend := hcolon.runs hr fun t ht => by simp [ht]
    cases s with
    | start => exact hend.elim
    | named name => exact hend.elim
    | signature r =>
      intro prototype hprototype
      cases hprototype
      exact Reading.ReducedBehind.finish hend
  | @closed read s t q hr hq rest =>
    have hend := hcolon.runs hr fun t ht => by simp [ht]
    cases s with
    | start => exact hend.elim
    | named name => exact hend.elim
    | signature r =>
      exact hend.nodes.step (keptByMoves_reduced _) (by simp) (Reading.step_ok_iff.mp hq)

/-- Lexemes behind a colon that are accepted have a prototype, in which every node and every part of
one is reduced. -/
theorem reduced_of_lexemes {ts : List Lexeme} {q : Query} (h : ofLexemes (.colon :: ts) = .ok q) :
    ∃ prototype, q = .ofPrototype prototype ∧
      ∀ node ∈ prototype, ∀ part : TypeNode, part.PartOf node → part.Reduced (.colon :: ts) := by
  obtain ⟨f, hr, rfl⟩ := parseFragment_of_ofLexemes h
  have hread : read (.signature ⟨none, .empty, []⟩) 1 ts = .ok f := hr
  obtain ⟨prototype, hquery⟩ := read_signature hread
  refine ⟨prototype, hquery, reduced_of_read hread prototype ?_⟩
  rw [hquery]

/-- `: (a * b) -> c * (` has a list that the last parenthesis leaves empty, and a tuple of the
components that are there. -/
theorem reduced_of_lexemes_sample :
    let ts : List Lexeme := [.openParen, .name "a", .star, .name "b", .closeParen, .arrow,
      .name "c", .star, .openParen]
    let prototype : List TypeNode :=
      [.tuple [.atom "a", .atom "b"], .tuple [.atom "c", .list []]]
    ofLexemes (.colon :: ts) = .ok (.ofPrototype prototype) ∧
      (TypeNode.list []).Reduced (.colon :: ts) ∧ (TypeNode.atom "a").Reduced (.colon :: ts) := by
  intro ts prototype
  have hread : ofLexemes (.colon :: ts) = .ok (.ofPrototype prototype) := rfl
  obtain ⟨nodes, hnodes, hreduced⟩ := reduced_of_lexemes hread
  obtain rfl : prototype = nodes := Option.some.inj (congrArg Query.prototype hnodes)
  refine ⟨hread, ?_, ?_⟩
  · exact hreduced (.tuple [.atom "c", .list []]) (by simp [prototype]) _
      (.component (by simp) .self)
  · exact hreduced (.tuple [.atom "a", .atom "b"]) (by simp [prototype]) _
      (.component (by simp) .self)

end Query

end SignatureSearch
