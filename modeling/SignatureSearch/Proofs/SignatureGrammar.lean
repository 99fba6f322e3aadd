import Mathlib
import SignatureSearch.Proofs.ReaderMoves
import SignatureSearch.Proofs.SignatureRoundTrip

/-! The grammar of signatures. The judgements say which lexemes derive which node; their first index
bounds how deep parentheses and angle brackets may nest. The reader follows every derivation. -/
namespace SignatureSearch.Query

namespace Grammar

mutual

/-- A name, or a signature in parentheses. -/
inductive Primary : ℕ → List Lexeme → TypeNode → Prop
  | name (d : ℕ) (name : String) : Primary d [.name name] (.atom name)
  | group {d : ℕ} {w : List Lexeme} {node : TypeNode} (h : Grouped d w node) :
      Primary (d + 1) (.openParen :: (w ++ [.closeParen])) node

/-- A primary with constructors and type arguments behind it. -/
inductive Component : ℕ → List Lexeme → TypeNode → Prop
  | primary {d : ℕ} {w : List Lexeme} {node : TypeNode} (h : Primary d w node) :
      Component d w node
  | array {d : ℕ} {w : List Lexeme} {node : TypeNode} (h : Component d w node) :
      Component d (w ++ [.name "array"]) (.array node)
  | constructor {d : ℕ} {w : List Lexeme} {node : TypeNode} (con : String) (hcon : con ≠ "array")
      (h : Component d w node) : Component d (w ++ [.name con]) (.generic (.atom con) [node])
  | apply {d : ℕ} {w v : List Lexeme} {node : TypeNode} {args : List TypeNode}
      (h : Component (d + 1) w node) (ha : Arguments d v args) :
      Component (d + 1) (w ++ .less :: (v ++ [.greater])) (.generic node args)

inductive Arguments : ℕ → List Lexeme → List TypeNode → Prop
  | one {d : ℕ} {w : List Lexeme} {node : TypeNode} (h : Grouped d w node) : Arguments d w [node]
  | more {d : ℕ} {w v : List Lexeme} {args : List TypeNode} {node : TypeNode}
      (ha : Arguments d w args) (h : Grouped d v node) :
      Arguments d (w ++ .comma :: v) (args ++ [node])

inductive Components : ℕ → List Lexeme → List TypeNode → Prop
  | one {d : ℕ} {w : List Lexeme} {node : TypeNode} (h : Component d w node) :
      Components d w [node]
  | more {d : ℕ} {w v : List Lexeme} {nodes : List TypeNode} {node : TypeNode}
      (hs : Components d w nodes) (h : Component d v node) :
      Components d (w ++ .star :: v) (nodes ++ [node])

/-- Components that make up one node; a star may end them. -/
inductive Element : ℕ → List Lexeme → TypeNode → Prop
  | single {d : ℕ} {w star : List Lexeme} {node : TypeNode} (h : Components d w [node])
      (he : star = [] ∨ star = [.star]) : Element d (w ++ star) node
  | tuple {d : ℕ} {w star : List Lexeme} {nodes : List TypeNode} (h : Components d w nodes)
      (hn : 2 ≤ nodes.length) (he : star = [] ∨ star = [.star]) : Element d (w ++ star) (.tuple nodes)

inductive Signature : ℕ → List Lexeme → List TypeNode → Prop
  | one {d : ℕ} {w : List Lexeme} {node : TypeNode} (h : Element d w node) : Signature d w [node]
  | more {d : ℕ} {w v : List Lexeme} {nodes : List TypeNode} {node : TypeNode}
      (hs : Signature d w nodes) (h : Element d v node) :
      Signature d (w ++ .arrow :: v) (nodes ++ [node])

/-- A signature inside a group: one element stands for itself. -/
inductive Grouped : ℕ → List Lexeme → TypeNode → Prop
  | single {d : ℕ} {w : List Lexeme} {node : TypeNode} (h : Signature d w [node]) :
      Grouped d w node
  | list {d : ℕ} {w : List Lexeme} {nodes : List TypeNode} (h : Signature d w nodes)
      (hn : 2 ≤ nodes.length) : Grouped d w (.list nodes)

end

end Grammar

open Grammar

/-! ### Following a derivation -/

lemma Stage.Reads.snoc {s t u : Stage} {l : List Lexeme} {lexeme : Lexeme} (h : s.Reads l t)
    (g : ∀ position, t.step position lexeme = .ok (.next u)) : s.Reads (l ++ [lexeme]) u :=
  h.append (.single g)

lemma step_at {level level' : Level} {frames frames' : List Frame} {t : Lexeme} (position : ℕ)
    (h : Reading.Moves ⟨none, level, frames⟩ t (.next (.signature ⟨none, level', frames'⟩))) :
    (Stage.at level frames).step position t = .ok (.next (.at level' frames')) :=
  Reading.step_ok_iff.mpr h

lemma complete_behind (elements components : List TypeNode) (node : TypeNode) :
    (Level.behind elements components node).Complete := Level.complete_of_suffix rfl

/-- Between any open groups, the lexemes lead from where a type is awaited to behind the node. -/
def ReadsComponent (d : ℕ) (w : List Lexeme) (node : TypeNode) : Prop :=
  ∀ elements components frames, frames.length + d ≤ maxDepth →
    (Stage.at (.awaiting elements components) frames).Reads w
      (.at (.behind elements components node) frames)

def ReadsComponents (d : ℕ) (w : List Lexeme) (nodes : List TypeNode) : Prop :=
  ∀ elements frames, frames.length + d ≤ maxDepth → ∃ front last, nodes = front ++ [last] ∧
    (Stage.at (.awaiting elements []) frames).Reads w (.at (.behind elements front last) frames)

def ReadsElements (d : ℕ) (w : List Lexeme) (nodes : List TypeNode) : Prop :=
  ∀ elements frames, frames.length + d ≤ maxDepth →
    ∃ level : Level, level.Complete ∧ level.finish = elements ++ nodes ∧
      (Stage.at (.awaiting elements []) frames).Reads w (.at level frames)

def ReadsGrouped (d : ℕ) (w : List Lexeme) (node : TypeNode) : Prop :=
  ∀ frames, frames.length + d ≤ maxDepth →
    ∃ level : Level, level.Complete ∧ level.finish ≠ [] ∧ groupNode level.finish = node ∧
      (Stage.at (.awaiting [] []) frames).Reads w (.at level frames)

def ReadsArguments (d : ℕ) (w : List Lexeme) (args : List TypeNode) : Prop :=
  ∀ outer frames, frames.length + 1 + d ≤ maxDepth →
    ∃ (front : List TypeNode) (level : Level),
      level.Complete ∧ addArgument front level.finish = args ∧
      (Stage.at (.awaiting [] []) (.arguments outer [] :: frames)).Reads w
        (.at level (.arguments outer front :: frames))

section Steps

variable {d : ℕ} {w v : List Lexeme} {node : TypeNode} {nodes args : List TypeNode}

lemma ReadsComponent.name (d : ℕ) (name : String) : ReadsComponent d [.name name] (.atom name) :=
  fun _ _ _ _ => .single (step_name _ _ _ · name)

lemma ReadsComponent.constructor (con : String) (h : ReadsComponent d w node) :
    ReadsComponent d (w ++ [.name con]) (applyPostfix con node) :=
  fun elements components frames hd =>
    (h elements components frames hd).snoc (step_constructor _ _ _ _ · con)

lemma ReadsGrouped.component (h : ReadsGrouped d w node) :
    ReadsComponent (d + 1) (.openParen :: (w ++ [.closeParen])) node := by
  intro elements components frames hd
  obtain ⟨level, hcomplete, -, rfl, hread⟩ :=
    h (.group (.awaiting elements components) :: frames) (by simp only [List.length_cons]; omega)
  have hopen := (step_openParen elements components frames · (by omega))
  refine .cons hopen (hread.snoc fun position => step_at position ?_)
  rw [← addType_awaiting]
  exact .closeGroup hcomplete rfl

lemma ReadsComponent.apply (h : ReadsComponent (d + 1) w node) (ha : ReadsArguments d v args) :
    ReadsComponent (d + 1) (w ++ .less :: (v ++ [.greater])) (.generic node args) := by
  intro elements components frames hd
  obtain ⟨front, level, hcomplete, hargs, hread⟩ :=
    ha (.behind elements components node) frames (by omega)
  have hopen := (step_less elements components node frames · (by omega))
  have hclose := Reading.Moves.closeArguments
    (r := ⟨none, level, .arguments (.behind elements components node) front :: frames⟩)
    hcomplete rfl
  rw [← hargs]
  exact (h elements components frames hd).append
    (.cons hopen (hread.snoc fun position => step_at position hclose))

lemma ReadsComponents.one (h : ReadsComponent d w node) : ReadsComponents d w [node] :=
  fun elements frames hd => ⟨[], node, rfl, h elements [] frames hd⟩

lemma ReadsComponents.more (hs : ReadsComponents d w nodes) (h : ReadsComponent d v node) :
    ReadsComponents d (w ++ .star :: v) (nodes ++ [node]) := by
  intro elements frames hd
  obtain ⟨front, last, rfl, hread⟩ := hs elements frames hd
  have hnext := h elements (front ++ [last]) frames hd
  exact ⟨_, node, rfl, hread.append (.cons (step_star elements front last frames) hnext)⟩

/-- A star may end an element. -/
lemma ReadsComponents.element {star : List Lexeme} (h : ReadsComponents d w nodes)
    (hs : star = [] ∨ star = [.star]) (hn : ∀ {front last}, nodes = front ++ [last] →
      joinComponents front last = node) : ReadsElements d (w ++ star) [node] := by
  intro elements frames hd
  obtain ⟨front, last, he, hread⟩ := h elements frames hd
  rw [← hn he]
  rcases hs with rfl | rfl
  · exact ⟨_, complete_behind elements front last, rfl, by simpa using hread⟩
  · have hstar := Reading.Moves.star (r := ⟨none, .behind elements front last, frames⟩) rfl
    exact ⟨⟨elements, .component front last⟩, by simp [Level.Complete], rfl,
      hread.snoc fun position => step_at position hstar⟩

lemma ReadsElements.more (hs : ReadsElements d w nodes) (h : ReadsElements d v [node]) :
    ReadsElements d (w ++ .arrow :: v) (nodes ++ [node]) := by
  intro elements frames hd
  obtain ⟨level, hcomplete, hfinish, hread⟩ := hs elements frames hd
  obtain ⟨level', hcomplete', hfinish', hread'⟩ := h (elements ++ nodes) frames hd
  refine ⟨level', hcomplete', by rw [hfinish', List.append_assoc], ?_⟩
  refine hread.append (.cons (fun position => step_at position ?_) hread')
  rw [← hfinish]
  exact .arrow hcomplete

lemma ReadsElements.grouped (h : ReadsElements d w nodes) (hn : nodes ≠ []) :
    ReadsGrouped d w (groupNode nodes) := by
  intro frames hd
  obtain ⟨level, hcomplete, hfinish, hread⟩ := h [] frames hd
  rw [List.nil_append] at hfinish
  exact ⟨level, hcomplete, hfinish ▸ hn, hfinish ▸ rfl, hread⟩

lemma addArgument_of_ne_nil (args : List TypeNode) {elements : List TypeNode} (h : elements ≠ []) :
    addArgument args elements = args ++ [groupNode elements] := if_neg (by simpa using h)

lemma ReadsArguments.one (h : ReadsGrouped d w node) : ReadsArguments d w [node] := by
  intro outer frames hd
  obtain ⟨level, hcomplete, hne, rfl, hread⟩ := h (.arguments outer [] :: frames) hd
  exact ⟨[], level, hcomplete, addArgument_of_ne_nil [] hne, hread⟩

lemma ReadsArguments.more (ha : ReadsArguments d w args) (h : ReadsGrouped d v node) :
    ReadsArguments d (w ++ .comma :: v) (args ++ [node]) := by
  intro outer frames hd
  obtain ⟨front, level, hcomplete, rfl, hread⟩ := ha outer frames hd
  obtain ⟨level', hcomplete', hne, rfl, hread'⟩ :=
    h (.arguments outer (addArgument front level.finish) :: frames) hd
  refine ⟨_, level', hcomplete', addArgument_of_ne_nil _ hne, ?_⟩
  refine hread.append (.cons (fun position => step_at position ?_) hread')
  exact .nextArgument hcomplete rfl

end Steps

mutual

theorem Grammar.Primary.reads {d : ℕ} {w : List Lexeme} {node : TypeNode} :
    Primary d w node → ReadsComponent d w node
  | .name d name => .name d name
  | .group h => h.reads.component

theorem Grammar.Component.reads {d : ℕ} {w : List Lexeme} {node : TypeNode} :
    Component d w node → ReadsComponent d w node
  | .primary h => h.reads
  | .array h => h.reads.constructor "array"
  | .constructor con hcon h => by
    have hread := h.reads.constructor con
    rwa [applyPostfix, if_neg hcon] at hread
  | .apply h ha => h.reads.apply ha.reads

theorem Grammar.Arguments.reads {d : ℕ} {w : List Lexeme} {args : List TypeNode} :
    Arguments d w args → ReadsArguments d w args
  | .one h => .one h.reads
  | .more ha h => ha.reads.more h.reads

theorem Grammar.Components.reads {d : ℕ} {w : List Lexeme} {nodes : List TypeNode} :
    Components d w nodes → ReadsComponents d w nodes
  | .one h => .one h.reads
  | .more hs h => hs.reads.more h.reads

theorem Grammar.Element.reads {d : ℕ} {w : List Lexeme} {node : TypeNode} :
    Element d w node → ReadsElements d w [node]
  | .single h hs => by
    refine h.reads.element hs fun {front last} he => ?_
    cases front with
    | nil => exact (List.singleton_inj.mp he).symm
    | cons first rest => simp at he
  | .tuple h hn hs => h.reads.element hs fun he => joinComponents_of_two_le hn he

theorem Grammar.Signature.reads {d : ℕ} {w : List Lexeme} {nodes : List TypeNode} :
    Signature d w nodes → ReadsElements d w nodes
  | .one h => h.reads
  | .more hs h => hs.reads.more h.reads

theorem Grammar.Grouped.reads {d : ℕ} {w : List Lexeme} {node : TypeNode} :
    Grouped d w node → ReadsGrouped d w node
  | .single h => h.reads.grouped (by simp)
  | .list h hn => by
    have hread := h.reads.grouped (ne_nil_of_le (by omega) hn)
    rwa [groupNode_of_two_le hn] at hread

end

end SignatureSearch.Query
