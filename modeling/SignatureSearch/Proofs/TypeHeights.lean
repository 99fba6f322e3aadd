import Mathlib
import SignatureSearch.Proofs.OpenGroups
import SignatureSearch.Proofs.ParsedNodes

/-! Heights of types. The limit on open groups bounds how high groups and tuples are built, but not
how often constructors are applied: behind a type they open no group. So the height of the types of
a query is bounded by that limit and by the most names and type arguments in a row that one type is
made of. -/
namespace SignatureSearch

namespace TypeNode

mutual

/-- How many nodes lie on the longest way down from the node; a value that is kept counts by its
containers. -/
def height : TypeNode → ℕ
  | .atom _ => 1
  | .list items => itemsHeight items + 1
  | .tuple items => itemsHeight items + 1
  | .array element => element.height + 1
  | .generic con args => max con.height (itemsHeight args) + 1
  | .byRef element => element.height + 1
  | .raw value => value.nesting + 1

def itemsHeight : List TypeNode → ℕ
  | [] => 0
  | item :: rest => max item.height (itemsHeight rest)

end

lemma height_pos (t : TypeNode) : 0 < t.height := by
  cases t <;> exact Nat.succ_pos _

lemma itemsHeight_le_iff {items : List TypeNode} {n : ℕ} :
    itemsHeight items ≤ n ↔ ∀ item ∈ items, item.height ≤ n := by
  induction items with
  | nil => simp [itemsHeight]
  | cons item rest ih => simp [itemsHeight, ih]

mutual

/-- The form of a node nests at most two containers for each node on the way down. -/
theorem nesting_toJson_le : ∀ t : TypeNode, t.toJson.nesting ≤ 2 * t.height
  | .atom _ => Nat.zero_le _
  | .list items => by
    have hitems := itemsNesting_toJson_le items
    simp only [toJson, Json.nesting, height]
    omega
  | .tuple items => by
    have hitems := itemsNesting_toJson_le items
    simp only [toJson, Json.nesting, Json.fieldsNesting, height]
    omega
  | .array element => by
    have helement := nesting_toJson_le element
    simp only [toJson, Json.nesting, Json.fieldsNesting, height]
    omega
  | .generic con args => by
    have hcon := nesting_toJson_le con
    have hargs := itemsNesting_toJson_le args
    simp only [toJson, Json.nesting, Json.fieldsNesting, height]
    omega
  | .byRef element => by
    have helement := nesting_toJson_le element
    simp only [toJson, Json.nesting, Json.fieldsNesting, height]
    omega
  | .raw value => by
    rw [toJson, height]
    omega

theorem itemsNesting_toJson_le : ∀ items : List TypeNode,
    Json.itemsNesting (itemsToJson items) ≤ 2 * itemsHeight items
  | [] => le_rfl
  | item :: rest => by
    have hitem := nesting_toJson_le item
    have hrest := itemsNesting_toJson_le rest
    simp only [itemsToJson, Json.itemsNesting, itemsHeight]
    omega

end

end TypeNode

/-! ### Chains -/

namespace Lexeme

/-- How many names and type arguments have been read of the types in work: of the one at the
innermost level, and of those around the open groups, innermost first. -/
structure Chains where
  current : ℕ
  outer : List ℕ

namespace Chains

/-- A constructor or type arguments go on with a type, a group is a type of its own, and any other
lexeme ends the type. -/
def after (c : Chains) : Lexeme → Chains
  | .name _ => ⟨c.current + 1, c.outer⟩
  | .less => ⟨0, (c.current + 1) :: c.outer⟩
  | .openParen => ⟨0, c.current :: c.outer⟩
  | .closeParen => ⟨c.outer.headD 0, c.outer.tail⟩
  | .greater => ⟨c.outer.headD 0, c.outer.tail⟩
  | _ => ⟨0, c.outer⟩

def longest (c : Chains) : ℕ := c.outer.foldr max c.current

/-- The most names and type arguments in a row that one type is made of behind these chains. -/
def longestIn (c : Chains) : List Lexeme → ℕ
  | [] => c.longest
  | t :: rest => max c.longest ((c.after t).longestIn rest)

lemma longest_le_iff {c : Chains} {k : ℕ} :
    c.longest ≤ k ↔ c.current ≤ k ∧ ∀ n ∈ c.outer, n ≤ k := by
  obtain ⟨current, outer⟩ := c
  induction outer with
  | nil => simp [longest]
  | cons n outer ih =>
    simp only [longest, List.foldr_cons, max_le_iff, List.forall_mem_cons] at ih ⊢
    rw [ih]
    tauto

lemma longest_le_longestIn (c : Chains) (ts : List Lexeme) : c.longest ≤ c.longestIn ts := by
  cases ts with
  | nil => exact le_rfl
  | cons t rest => exact le_max_left _ _

end Chains

/-- The most names and type arguments in a row that one type of a query is made of. A first lexeme
other than `:` and `(` stands for a name. -/
def longestChain : List Lexeme → ℕ
  | [] => 0
  | first :: rest =>
    (if first ∈ [.colon, .openParen] then Chains.after ⟨0, []⟩ first else ⟨1, []⟩).longestIn rest

end Lexeme

namespace Query

open Lexeme (Chains)

/-- The elements of a level inside `depth` groups are below this height, if no chain is longer than
`k`: each group around them adds a list, a tuple and a chain. -/
def heightBound (k depth : ℕ) : ℕ := (k + 2) * (maxDepth + 1 - depth)

lemma heightBound_eq {depth : ℕ} (h : depth ≤ maxDepth) (k : ℕ) :
    heightBound k depth = heightBound k (depth + 1) + (k + 2) := by
  have hdepth : maxDepth + 1 - depth = maxDepth + 1 - (depth + 1) + 1 := by omega
  rw [heightBound, heightBound, hdepth, Nat.mul_succ]

lemma heightBound_pos {depth : ℕ} (h : depth ≤ maxDepth) (k : ℕ) : 0 < heightBound k depth :=
  Nat.mul_pos (Nat.succ_pos _) (Nat.sub_pos_of_lt (Nat.lt_succ_of_le h))

/-- The types at a slot are made of no more than `k` names and type arguments each, the last one of
`chain`, on top of types no higher than `base`. -/
def Slot.Within (base k chain : ℕ) : Slot → Prop
  | .type => True
  | .component earlier last =>
    (∀ node ∈ earlier, node.height ≤ base + k) ∧ last.height ≤ base + k
  | .suffix earlier last =>
    (∀ node ∈ earlier, node.height ≤ base + k) ∧ last.height ≤ base + chain

structure Level.Within (k depth chain : ℕ) (l : Level) : Prop where
  elements : ∀ node ∈ l.elements, node.height < heightBound k depth
  slot : l.slot.Within (heightBound k (depth + 1)) k chain

variable {k depth chain : ℕ}

lemma height_groupNode_le {elements : List TypeNode} {n : ℕ} (hn : 0 < n)
    (h : ∀ node ∈ elements, node.height < n) : (groupNode elements).height ≤ n := by
  unfold groupNode
  split
  · exact (h _ (by simp)).le
  · have hitems : TypeNode.itemsHeight elements ≤ n - 1 :=
      TypeNode.itemsHeight_le_iff.mpr fun node hnode => Nat.le_sub_one_of_lt (h node hnode)
    rw [TypeNode.height]
    omega

lemma height_joinComponents_le {earlier : List TypeNode} {last : TypeNode} {n : ℕ}
    (he : ∀ node ∈ earlier, node.height ≤ n) (hl : last.height ≤ n) :
    (joinComponents earlier last).height ≤ n + 1 := by
  unfold joinComponents
  split_ifs
  · exact hl.trans (Nat.le_succ n)
  · rw [TypeNode.height]
    have hall : ∀ node ∈ earlier ++ [last], node.height ≤ n :=
      List.forall_mem_append.mpr ⟨he, List.forall_mem_singleton.mpr hl⟩
    exact Nat.succ_le_succ (TypeNode.itemsHeight_le_iff.mpr hall)

namespace Level.Within

variable {l : Level}

lemma empty : Level.empty.Within k depth chain := ⟨by simp [Level.empty], trivial⟩

lemma mono (h : l.Within k depth chain) {more : ℕ} (hc : chain ≤ more) :
    l.Within k depth more := by
  obtain ⟨he, hs⟩ := h
  refine ⟨he, ?_⟩
  cases hslot : l.slot with
  | type => trivial
  | component earlier last =>
    rw [hslot] at hs
    exact hs
  | suffix earlier last =>
    rw [hslot] at hs
    exact ⟨hs.1, hs.2.trans (by omega)⟩

lemma finish (h : l.Within k depth chain) (hc : chain ≤ k) (hd : depth ≤ maxDepth) :
    ∀ node ∈ l.finish, node.height < heightBound k depth := by
  obtain ⟨he, hs⟩ := h
  obtain ⟨elements, slot⟩ := l
  have hjoined {earlier : List TypeNode} {last : TypeNode}
      (h : ∀ node ∈ earlier, node.height ≤ heightBound k (depth + 1) + k)
      (hl : last.height ≤ heightBound k (depth + 1) + k) :
      ∀ node ∈ elements ++ [joinComponents earlier last], node.height < heightBound k depth := by
    have hjoin := height_joinComponents_le h hl
    have hbound := heightBound_eq hd k
    exact List.forall_mem_append.mpr ⟨he, List.forall_mem_singleton.mpr (by omega)⟩
  cases slot with
  | type => exact he
  | component earlier last => exact hjoined hs.1 hs.2
  | suffix earlier last => exact hjoined hs.1 (hs.2.trans (by omega))

lemma addType (h : l.Within k depth chain) {node : TypeNode}
    (hn : node.height ≤ heightBound k (depth + 1) + chain) :
    (l.addType node).Within k depth chain := by
  obtain ⟨he, hs⟩ := h
  obtain ⟨elements, slot⟩ := l
  cases slot with
  | type => exact ⟨he, by simp, hn⟩
  | component earlier last =>
    exact ⟨he, List.forall_mem_append.mpr ⟨hs.1, List.forall_mem_singleton.mpr hs.2⟩, hn⟩
  | suffix earlier last => exact ⟨he, hs⟩

/-- A constructor or type arguments add one to the type that they are applied to. -/
lemma mapLast (h : l.Within k depth chain) {f : TypeNode → TypeNode}
    (hf : ∀ node : TypeNode, node.height ≤ heightBound k (depth + 1) + chain →
      (f node).height ≤ heightBound k (depth + 1) + (chain + 1)) :
    (l.mapLast f).Within k depth (chain + 1) := by
  obtain ⟨he, hs⟩ := h
  obtain ⟨elements, slot⟩ := l
  cases slot with
  | type => exact ⟨he, hs⟩
  | component earlier last => exact ⟨he, hs⟩
  | suffix earlier last => exact ⟨he, hs.1, hf last hs.2⟩

end Level.Within

inductive FramesWithin (k : ℕ) : List Frame → List ℕ → Prop
  | nil : FramesWithin k [] []
  | group {outer : Level} {frames : List Frame} {chain : ℕ} {chains : List ℕ}
      (hl : outer.Within k frames.length chain) (h : FramesWithin k frames chains) :
      FramesWithin k (.group outer :: frames) (chain :: chains)
  | arguments {outer : Level} {args : List TypeNode} {frames : List Frame} {chain : ℕ}
      {chains : List ℕ} (hl : outer.Within k frames.length chain)
      (ha : ∀ node ∈ args, node.height ≤ heightBound k (frames.length + 1))
      (h : FramesWithin k frames chains) :
      FramesWithin k (.arguments outer args :: frames) ((chain + 1) :: chains)

namespace FramesWithin

variable {frame : Frame} {frames : List Frame} {chains : List ℕ} {elements : List TypeNode}

lemma height_addArgument {args : List TypeNode} {n : ℕ} (hn : 0 < n)
    (ha : ∀ node ∈ args, node.height ≤ n) (he : ∀ node ∈ elements, node.height < n) :
    ∀ node ∈ addArgument args elements, node.height ≤ n := by
  unfold addArgument
  split_ifs
  · exact ha
  · have hgroup := height_groupNode_le hn he
    exact List.forall_mem_append.mpr ⟨ha, List.forall_mem_singleton.mpr hgroup⟩

lemma close (h : FramesWithin k (frame :: frames) (chain :: chains))
    (hd : frames.length + 1 ≤ maxDepth)
    (he : ∀ node ∈ elements, node.height < heightBound k (frames.length + 1)) :
    (frame.close elements).Within k frames.length chain ∧ FramesWithin k frames chains := by
  have hpos := heightBound_pos hd k
  cases h with
  | group hl h =>
    have hgroup := height_groupNode_le hpos he
    exact ⟨hl.addType (hgroup.trans (Nat.le_add_right _ _)), h⟩
  | arguments hl ha h =>
    refine ⟨hl.mapLast fun con hcon => ?_, h⟩
    have hargs := TypeNode.itemsHeight_le_iff.mpr (height_addArgument hpos ha he)
    rw [TypeNode.height]
    omega

/-- Closing the groups left open adds no more than closing lexemes would. -/
lemma finishAll (h : FramesWithin k frames chains) (hc : ∀ n ∈ chains, n ≤ k)
    (hd : frames.length ≤ maxDepth)
    (he : ∀ node ∈ elements, node.height < heightBound k frames.length) :
    ∀ node ∈ finishAll elements frames, node.height < heightBound k 0 := by
  induction frames generalizing chains elements with
  | nil => exact he
  | cons frame frames ih =>
    cases chains with
    | nil => cases h
    | cons chain chains =>
      obtain ⟨hchain, hrest⟩ := List.forall_mem_cons.mp hc
      obtain ⟨hlevel, hframes⟩ := h.close hd he
      exact ih hframes hrest (Nat.le_of_succ_le hd)
        (hlevel.finish hchain (Nat.le_of_succ_le hd))

end FramesWithin

structure Reading.Within (k : ℕ) (r : Reading) (c : Chains) : Prop where
  level : r.level.Within k r.frames.length c.current
  frames : FramesWithin k r.frames c.outer
  chains : c.longest ≤ k
  depth : r.frames.length ≤ maxDepth

def Stage.Within (k : ℕ) : Stage → Chains → Prop
  | .start, _ => False
  | .named name, c => (Reading.ofName name).Within k c
  | .signature r, c => r.Within k c

/-- No type of the query is as high as the bound. -/
def Bounded (k : ℕ) (q : Query) : Prop := q.All fun node => node.height < heightBound k 0

def Step.Within (k : ℕ) : Step → Chains → Prop
  | .next stage, c => stage.Within k c
  | .closed q, _ => q.Bounded k

namespace Reading.Within

variable {r : Reading} {c : Chains} {t : Lexeme}

lemma finish (h : r.Within k c) : r.finish.Bounded k := by
  have hc := Chains.longest_le_iff.mp h.chains
  intro prototype hprototype
  cases hprototype
  exact h.frames.finishAll hc.2 h.depth (h.level.finish hc.1 h.depth)

lemma height_applyPostfix (con : String) (operand : TypeNode) :
    (applyPostfix con operand).height ≤ operand.height + 1 := by
  have hpos := operand.height_pos
  unfold applyPostfix
  split_ifs <;>
  · simp only [TypeNode.height, TypeNode.itemsHeight]
    omega

theorem step (h : r.Within k c) {step : Step} (hm : r.Moves t step)
    (hk : (c.after t).longest ≤ k) : step.Within k (c.after t) := by
  have hfinish := h.level.finish (Chains.longest_le_iff.mp h.chains).1 h.depth
  obtain ⟨name, level, frames⟩ := r
  obtain ⟨current, outer⟩ := c
  obtain ⟨hlevel, hframes, hchains, hdepth⟩ := h
  have hpos (depth : ℕ) : 0 < heightBound k depth + (current + 1) := by omega
  -- Opening a group starts an empty level, whose bound is lower; closing it gives the level around
  -- it its chain back.
  cases hm with
  | name name ha => exact ⟨(hlevel.mono (Nat.le_succ _)).addType (hpos _), hframes, hk, hdepth⟩
  | openGroup ha hd => exact ⟨.empty, .group hlevel hframes, hk, hd⟩
  | arrow hc => exact ⟨⟨hfinish, trivial⟩, hframes, hk, hdepth⟩
  | finish hc hf => exact finish ⟨hlevel, hframes, hchains, hdepth⟩
  | closeGroup hc hf | closeArguments hc hf =>
    obtain rfl := hf
    cases outer with
    | nil => cases hframes
    | cons chain chains =>
      obtain ⟨hclosed, hrest⟩ := hframes.close hdepth hfinish
      exact ⟨hclosed, hrest, hk, Nat.le_of_succ_le hdepth⟩
  | @nextArgument outer args rest hc hf =>
    obtain rfl := hf
    cases hframes with
    | arguments hl ha h =>
      have hargs := FramesWithin.height_addArgument (heightBound_pos hdepth k) ha hfinish
      exact ⟨.empty, .arguments hl hargs h, hk, hdepth⟩
  | star hs =>
    have hslot : (Slot.suffix _ _).Within _ k current := hs ▸ hlevel.slot
    have hcurrent : current ≤ k := (Chains.longest_le_iff.mp hchains).1
    exact ⟨⟨hlevel.elements, hslot.1, hslot.2.trans (Nat.add_le_add_left hcurrent _)⟩, hframes, hk,
      hdepth⟩
  | openArguments hs hd => exact ⟨.empty, .arguments hlevel (by simp) hframes, hk, hd⟩
  | constructor con hs =>
    refine ⟨hlevel.mapLast fun node hnode => ?_, hframes, hk, hdepth⟩
    exact (height_applyPostfix con node).trans (Nat.succ_le_succ hnode)

lemma ofName (hk : 1 ≤ k) (name : String) : (Reading.ofName name).Within k ⟨1, []⟩ where
  level :=
    ⟨by simp [Reading.ofName], by simp [Reading.ofName], by simp [Reading.ofName, TypeNode.height]⟩
  frames := .nil
  chains := hk
  depth := Nat.zero_le _

lemma empty (k : ℕ) : (Reading.mk none .empty []).Within k ⟨0, []⟩ :=
  ⟨.empty, .nil, Nat.zero_le _, Nat.zero_le _⟩

lemma openParen (k : ℕ) : (Reading.mk none .empty [.group .empty]).Within k ⟨0, [0]⟩ :=
  ⟨.empty, .group .empty .nil, Nat.zero_le _, by decide⟩

end Reading.Within

namespace Stage.Within

variable {s : Stage} {c : Chains} {t : Lexeme} {position : ℕ}

lemma step (h : s.Within k c) {step : Step} (hs : s.step position t = .ok step)
    (hk : (c.after t).longest ≤ k) : step.Within k (c.after t) := by
  cases s with
  | start => exact h.elim
  | named name =>
    have hname : (Reading.ofName name).Within k c := h
    by_cases hcolon : t = .colon
    · subst hcolon
      cases hs
      exact ⟨.empty, hname.frames, hk, Nat.zero_le _⟩
    · rw [step_named name hcolon] at hs
      exact hname.step (Reading.step_ok_iff.mp hs) hk
  | signature r => exact Reading.Within.step h (Reading.step_ok_iff.mp hs) hk

lemma finish (h : s.Within k c) : s.finish.Bounded k := by
  cases s with
  | start => exact h.elim
  | named name => intro prototype hprototype; cases hprototype
  | signature r => exact Reading.Within.finish h

theorem read {ts : List Lexeme} (h : s.Within k c) (hk : c.longestIn ts ≤ k) {f : Fragment}
    (hr : Query.read s position ts = .ok f) : f.query.Bounded k := by
  induction ts generalizing s c position with
  | nil =>
    cases hr
    exact h.finish
  | cons t rest ih =>
    have hrest : (c.after t).longestIn rest ≤ k := (le_max_right _ _).trans hk
    rw [Query.read] at hr
    cases hs : s.step position t with
    | error e => simp [hs] at hr
    | ok step =>
      have hstep := h.step hs ((Chains.longest_le_longestIn _ _).trans hrest)
      rw [hs] at hr
      cases step with
      | closed q =>
        cases hr
        exact hstep
      | next stage => exact ih hstep hrest hr

theorem read_start {ts : List Lexeme} (hk : Lexeme.longestChain ts ≤ k) {f : Fragment}
    (hr : Query.read .start position ts = .ok f) : f.query.Bounded k := by
  cases ts with
  | nil =>
    cases hr
    intro prototype hprototype
    cases hprototype
  | cons t rest =>
    -- Any other lexeme than a colon or a parenthesis stands for a name.
    cases t with
    | colon =>
      have hstage : (Stage.signature ⟨none, .empty, []⟩).Within k ⟨0, []⟩ := .empty k
      exact hstage.read hk hr
    | openParen =>
      have hstage : (Stage.signature ⟨none, .empty, [.group .empty]⟩).Within k ⟨0, [0]⟩ :=
        .openParen k
      rw [Query.read, step_start_openParen] at hr
      exact hstage.read hk hr
    | _ =>
      have hstage (name : String) : (Stage.named name).Within k ⟨1, []⟩ :=
        .ofName ((Chains.longest_le_longestIn _ rest).trans hk) name
      exact (hstage _).read hk hr

end Stage.Within

/-- However long a query is, its types are no higher than the open groups and the names and type
arguments in a row allow, and so are their forms. -/
theorem height_bounded {text : String} {q : Query} {prototype : List TypeNode}
    (h : parse text = .ok q) (hp : q.prototype = some prototype)
    (hk : Lexeme.longestChain (Lexeme.tokenize text) ≤ k) :
    ∀ node ∈ prototype, node.height < (k + 2) * (maxDepth + 1) ∧
      node.toJson.nesting < 2 * ((k + 2) * (maxDepth + 1)) := by
  obtain ⟨f, hf, rfl⟩ := parseFragment_of_ofLexemes h
  intro node hnode
  have hheight : node.height < (k + 2) * (maxDepth + 1) :=
    Stage.Within.read_start hk hf prototype hp node hnode
  have hnesting := node.nesting_toJson_le
  exact ⟨hheight, by omega⟩

/-- The first type of this signature is a name behind which three applications follow. -/
theorem height_bounded_sample :
    ∃ prototype,
      parse ": int list<a> option -> b" = .ok ⟨none, some prototype⟩ ∧
      Lexeme.longestChain (Lexeme.tokenize ": int list<a> option -> b") = 4 ∧
      ∀ node ∈ prototype, node.height < 6 * (maxDepth + 1) ∧
        node.toJson.nesting < 2 * (6 * (maxDepth + 1)) := by
  have hchain : Lexeme.longestChain (Lexeme.tokenize ": int list<a> option -> b") = 4 := by decide
  exact ⟨_, rfl, hchain, height_bounded rfl rfl hchain.le⟩

/-! ### Long chains -/

lemma isRenderable_arrays {t : TypeNode} (h : t.isRenderable = true) (n : ℕ) :
    (TypeNode.array^[n] t).isRenderable = true := by
  induction n with
  | zero => exact h
  | succ n ih =>
    rw [Function.iterate_succ_apply', TypeNode.isRenderable]
    exact ih

lemma height_arrays (t : TypeNode) (n : ℕ) : (TypeNode.array^[n] t).height = t.height + n := by
  induction n with
  | zero => rfl
  | succ n ih => rw [Function.iterate_succ_apply', TypeNode.height, ih, Nat.add_assoc]

/-- A constructor behind a type opens no group. -/
lemma depth_arrays {t : TypeNode} (h : t.isTuple = false) (n : ℕ) :
    (TypeNode.array^[n] t).depth = t.depth ∧ (TypeNode.array^[n] t).isTuple = false := by
  induction n with
  | zero => exact ⟨rfl, h⟩
  | succ n ih =>
    rw [Function.iterate_succ_apply', TypeNode.depth, TypeNode.operandDepth, ih.2]
    exact ⟨ih.1, rfl⟩

/-- A type under any number of constructors is read from its text. -/
theorem parse_arrays {t : TypeNode} (h : t.isRenderable = true) (ht : t.isTuple = false)
    (hd : t.depth ≤ maxDepth) (n : ℕ) :
    parse (": " ++ TypeNode.signatureText [TypeNode.array^[n] t]) =
      .ok (.ofPrototype [TypeNode.array^[n] t]) := by
  refine parse_signatureText ?_ ?_
  · rw [TypeNode.areRenderable, isRenderable_arrays h]
    rfl
  · rw [TypeNode.itemsDepth, (depth_arrays ht n).1]
    exact max_le hd (Nat.zero_le _)

/-- The limit on open groups alone bounds no height: `int array array …` opens none. -/
theorem height_unbounded :
    ¬∃ bound : ℕ, ∀ (text : String) (q : Query) (prototype : List TypeNode),
      parse text = .ok q → q.prototype = some prototype →
        ∀ node ∈ prototype, node.height ≤ bound := by
  rintro ⟨bound, hbound⟩
  have hparse := parse_arrays (t := .atom "int") (by decide) rfl (Nat.zero_le _) bound
  have hheight := hbound _ _ _ hparse rfl _ (List.mem_singleton.mpr rfl)
  rw [height_arrays, TypeNode.height] at hheight
  omega

end Query

end SignatureSearch
