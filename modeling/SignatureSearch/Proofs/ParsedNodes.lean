import Mathlib
import SignatureSearch.Proofs.NodeForm
import SignatureSearch.Proofs.ReaderMoves

/-! Nodes of queries. A property of nodes that the ways of building them keep holds of every node of
a query that is read, whatever the lexemes. -/
namespace SignatureSearch.Query

/-- Every way in which the reader builds a node keeps the property. -/
structure KeptByReader (P : TypeNode → Prop) : Prop where
  atom : ∀ name, P (.atom name)
  group : ∀ {elements}, (∀ node ∈ elements, P node) → P (groupNode elements)
  join : ∀ {earlier last}, (∀ node ∈ earlier, P node) → P last → P (joinComponents earlier last)
  constructor : ∀ con {operand}, P operand → P (applyPostfix con operand)
  generic : ∀ {con args}, P con → (∀ node ∈ args, P node) → P (.generic con args)

/-- The moves of the reader on the lexemes keep the property. Only the end of the lexemes can leave a
group or arguments empty. -/
structure KeptByMoves (w : List Lexeme) (P : TypeNode → Prop) : Prop where
  atom : ∀ {name}, .name name ∈ w → P (.atom name)
  group : ∀ {elements}, elements ≠ [] → (∀ node ∈ elements, P node) → P (groupNode elements)
  join : ∀ {earlier last}, (∀ node ∈ earlier, P node) → P last → P (joinComponents earlier last)
  constructor : ∀ {con operand}, .name con ∈ w → P operand → P (applyPostfix con operand)
  generic : ∀ {con args}, args ≠ [] → P con → (∀ node ∈ args, P node) → P (.generic con args)

variable {P : TypeNode → Prop} {w : List Lexeme}

lemma KeptByReader.moves (hP : KeptByReader P) (w : List Lexeme) : KeptByMoves w P where
  atom := fun _ => hP.atom _
  group := fun _ => hP.group
  join := hP.join
  constructor := fun _ => hP.constructor _
  generic := fun _ => hP.generic

def Slot.All (P : TypeNode → Prop) : Slot → Prop
  | .type => True
  | .component earlier last => (∀ node ∈ earlier, P node) ∧ P last
  | .suffix earlier last => (∀ node ∈ earlier, P node) ∧ P last

structure Level.All (P : TypeNode → Prop) (l : Level) : Prop where
  elements : ∀ node ∈ l.elements, P node
  slot : l.slot.All P

def Frame.All (P : TypeNode → Prop) : Frame → Prop
  | .group outer => outer.All P
  | .arguments outer args => outer.All P ∧ ∀ node ∈ args, P node

structure Reading.All (P : TypeNode → Prop) (r : Reading) : Prop where
  level : r.level.All P
  frames : ∀ frame ∈ r.frames, frame.All P

def Stage.All (P : TypeNode → Prop) : Stage → Prop
  | .signature r => r.All P
  | _ => True

def All (P : TypeNode → Prop) (q : Query) : Prop :=
  ∀ prototype, q.prototype = some prototype → ∀ node ∈ prototype, P node

def Step.All (P : TypeNode → Prop) : Step → Prop
  | .next stage => stage.All P
  | .closed query => query.All P

namespace Level.All

lemma empty : Level.empty.All P := ⟨by simp [Level.empty], trivial⟩

lemma finish (hP : KeptByMoves w P) {l : Level} (h : l.All P) : ∀ node ∈ l.finish, P node := by
  obtain ⟨he, hs⟩ := h
  obtain ⟨elements, slot⟩ := l
  cases slot with
  | type => exact he
  | component earlier last | suffix earlier last =>
    exact List.forall_mem_append.mpr ⟨he, List.forall_mem_singleton.mpr (hP.join hs.1 hs.2)⟩

lemma addType {l : Level} (h : l.All P) {node : TypeNode} (hn : P node) :
    (l.addType node).All P := by
  obtain ⟨he, hs⟩ := h
  obtain ⟨elements, slot⟩ := l
  cases slot with
  | type => exact ⟨he, by simp, hn⟩
  | component earlier last =>
    exact ⟨he, List.forall_mem_append.mpr ⟨hs.1, List.forall_mem_singleton.mpr hs.2⟩, hn⟩
  | suffix earlier last => exact ⟨he, hs⟩

lemma mapLast {l : Level} (h : l.All P) {f : TypeNode → TypeNode}
    (hf : ∀ node, P node → P (f node)) : (l.mapLast f).All P := by
  obtain ⟨he, hs⟩ := h
  obtain ⟨elements, slot⟩ := l
  cases slot with
  | type => exact ⟨he, hs⟩
  | component earlier last => exact ⟨he, hs⟩
  | suffix earlier last => exact ⟨he, hs.1, hf last hs.2⟩

end Level.All

/-- A level that can end has an element. -/
lemma Level.finish_ne_nil {l : Level} (h : l.Complete) : l.finish ≠ [] := by
  obtain ⟨elements, slot⟩ := l
  cases slot with
  | type => exact absurd rfl h
  | component earlier last | suffix earlier last => simp [Level.finish]

lemma addArgument_ne_nil (args : List TypeNode) {elements : List TypeNode} (h : elements ≠ []) :
    addArgument args elements ≠ [] := by
  simp [addArgument, h]

lemma all_addArgument (hP : KeptByMoves w P) {args elements : List TypeNode}
    (ha : ∀ node ∈ args, P node) (he : ∀ node ∈ elements, P node) :
    ∀ node ∈ addArgument args elements, P node := by
  unfold addArgument
  split_ifs with hempty
  · exact ha
  · have hgroup := hP.group (by simpa using hempty) he
    exact List.forall_mem_append.mpr ⟨ha, List.forall_mem_singleton.mpr hgroup⟩

namespace Frame.All

variable {frame : Frame} {elements : List TypeNode}

lemma close_of (h : frame.All P) (hgroup : P (groupNode elements))
    (hgeneric : ∀ {con args}, P con → (∀ node ∈ args, P node) →
      P (.generic con (addArgument args elements))) : (frame.close elements).All P := by
  cases frame with
  | group outer => exact Level.All.addType h hgroup
  | arguments outer args => exact h.1.mapLast fun con hcon => hgeneric hcon h.2

lemma close (hP : KeptByMoves w P) (h : frame.All P) (hne : elements ≠ [])
    (he : ∀ node ∈ elements, P node) : (frame.close elements).All P :=
  h.close_of (hP.group hne he) fun hcon ha =>
    hP.generic (addArgument_ne_nil _ hne) hcon (all_addArgument hP ha he)

/-- The end of the lexemes closes a group on whatever it has. -/
lemma close_anywhere (hP : KeptByReader P) (h : frame.All P) (he : ∀ node ∈ elements, P node) :
    (frame.close elements).All P :=
  h.close_of (hP.group he) fun hcon ha =>
    hP.generic hcon (all_addArgument (hP.moves []) ha he)

end Frame.All

lemma all_finishAll (hP : KeptByReader P) (frames : List Frame) (hf : ∀ frame ∈ frames, frame.All P)
    {elements : List TypeNode} (he : ∀ node ∈ elements, P node) :
    ∀ node ∈ finishAll elements frames, P node := by
  induction frames generalizing elements with
  | nil => exact he
  | cons frame frames ih =>
    have hframe := hf frame (by simp)
    exact ih (fun x hx => hf x (by simp [hx])) ((hframe.close_anywhere hP he).finish (hP.moves []))

namespace Reading.All

variable {r : Reading} (h : r.All P)
include h

lemma finish (hP : KeptByReader P) : r.finish.All P := by
  intro prototype hprototype
  cases hprototype
  exact all_finishAll hP r.frames h.frames (h.level.finish (hP.moves []))

/-- One lexeme keeps the property. -/
lemma step (hP : KeptByMoves w P) {t : Lexeme} (ht : t ∈ w) {step : Step} (hm : r.Moves t step) :
    step.All P := by
  obtain ⟨name, level, frames⟩ := r
  have hlevel := h.level.finish hP
  cases hm with
  | name name ha => exact ⟨h.level.addType (hP.atom ht), h.frames⟩
  | openGroup ha hd => exact ⟨.empty, List.forall_mem_cons.mpr ⟨h.level, h.frames⟩⟩
  | arrow hc => exact ⟨⟨hlevel, trivial⟩, h.frames⟩
  | finish hc hf =>
    obtain rfl := hf
    intro prototype hprototype
    cases hprototype
    exact hlevel
  | closeGroup hc hf =>
    obtain rfl := hf
    obtain ⟨hframe, hrest⟩ := List.forall_mem_cons.mp h.frames
    exact ⟨hframe.close hP (Level.finish_ne_nil hc) hlevel, hrest⟩
  | nextArgument hc hf =>
    obtain rfl := hf
    obtain ⟨hframe, hrest⟩ := List.forall_mem_cons.mp h.frames
    exact ⟨.empty, List.forall_mem_cons.mpr ⟨⟨hframe.1, all_addArgument hP hframe.2 hlevel⟩, hrest⟩⟩
  | closeArguments hc hf =>
    obtain rfl := hf
    obtain ⟨hframe, hrest⟩ := List.forall_mem_cons.mp h.frames
    exact ⟨hframe.close hP (Level.finish_ne_nil hc) hlevel, hrest⟩
  | star hs =>
    have hlast : (Slot.suffix _ _).All P := hs ▸ h.level.slot
    exact ⟨⟨h.level.elements, hlast⟩, h.frames⟩
  | openArguments hs hd =>
    exact ⟨.empty, List.forall_mem_cons.mpr ⟨⟨h.level, by simp⟩, h.frames⟩⟩
  | constructor con hs =>
    exact ⟨h.level.mapLast fun node hnode => hP.constructor ht hnode, h.frames⟩

end Reading.All

lemma Stage.All.step (hP : KeptByReader P) {s : Stage} (h : s.All P) {position : ℕ} {t : Lexeme}
    {step : Step} (hs : s.step position t = .ok step) : step.All P := by
  have hreading {r : Reading} (hr : r.All P) (hm : r.Moves t step) : step.All P :=
    hr.step (hP.moves [t]) (by simp) hm
  cases s with
  | start =>
    have hempty : (Reading.mk none .empty []).All P := ⟨.empty, by simp⟩
    simp only [Stage.step] at hs
    split at hs
    · cases hs
      exact hempty
    · exact hreading hempty (Reading.moves_of_step hs)
    · cases hs
      trivial
  | named name =>
    have hnamed : (Reading.mk none ⟨[], .suffix [] (.atom name)⟩ []).All P :=
      ⟨⟨by simp, by simp, hP.atom name⟩, by simp⟩
    simp only [Stage.step] at hs
    split at hs
    · cases hs
      exact ⟨.empty, by simp⟩
    · exact hreading hnamed (Reading.moves_of_step hs)
  | signature r => exact hreading h (Reading.moves_of_step hs)

lemma Stage.All.finish (hP : KeptByReader P) {s : Stage} (h : s.All P) : s.finish.All P := by
  cases s with
  | start => intro prototype hprototype; cases hprototype
  | named name => intro prototype hprototype; cases hprototype
  | signature r => exact Reading.All.finish h hP

/-- A whole run keeps the property. -/
theorem all_of_read (hP : KeptByReader P) (lexemes : List Lexeme) {s : Stage} (h : s.All P)
    {position : ℕ} {fragment : Fragment} (hr : read s position lexemes = .ok fragment) :
    fragment.query.All P := by
  induction lexemes generalizing s position with
  | nil =>
    cases hr
    exact h.finish hP
  | cons t rest ih =>
    rw [read] at hr
    cases hs : s.step position t with
    | error e => simp [hs] at hr
    | ok step =>
      have hstep := h.step hP hs
      rw [hs] at hr
      cases step with
      | closed query =>
        cases hr
        exact hstep
      | next stage => exact ih hstep hr

theorem all_of_parseFragment (hP : KeptByReader P) {tokens : List Lexeme} {start : ℕ}
    {fragment : Fragment} (h : parseFragment tokens start = .ok fragment) :
    fragment.query.All P := by
  have hstart : Stage.start.All P := trivial
  exact all_of_read hP _ hstart h

theorem all_of_parse (hP : KeptByReader P) {text : String} {q : Query} (h : parse text = .ok q) :
    q.All P := by
  obtain ⟨fragment, hr, rfl⟩ := parseFragment_of_ofLexemes h
  exact all_of_parseFragment hP hr

/-- The reader builds nothing that is passed by reference or kept as it is. -/
lemma keptByReader_plain : KeptByReader TypeNode.Plain := by
  refine ⟨fun _ => trivial, fun {elements} he => ?_, fun {earlier last} he hl => ?_,
    fun con {operand} ho => ?_, fun hc ha => ⟨hc, (TypeNode.allPlain_iff _).mpr ha⟩⟩
  · unfold groupNode
    split
    · exact he _ (by simp)
    · exact (TypeNode.allPlain_iff _).mpr he
  · unfold joinComponents
    split_ifs
    · exact hl
    · exact (TypeNode.allPlain_iff _).mpr
        (List.forall_mem_append.mpr ⟨he, List.forall_mem_singleton.mpr hl⟩)
  · unfold applyPostfix
    split_ifs
    · exact ho
    · exact ⟨trivial, ho, trivial⟩

/-- The text of a query denotes nothing that is passed by reference or kept as it is. -/
theorem plain_of_parse {text : String} {name : Option String} {prototype : List TypeNode}
    (h : parse text = .ok ⟨name, some prototype⟩) : TypeNode.AllPlain prototype :=
  (TypeNode.allPlain_iff _).mpr (all_of_parse keptByReader_plain h prototype rfl)

end SignatureSearch.Query
