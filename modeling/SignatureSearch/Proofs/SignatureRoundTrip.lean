import Mathlib
import SignatureSearch.Proofs.Rendering
import SignatureSearch.Query.Parser

/-! Reading a rendered signature. The lexemes of a node lead the reader from any place where a type
is awaited to the place behind that type, so a rendered signature is read back as it was, as long as
its groups do not nest too deeply. -/
namespace SignatureSearch.Query

/-- Lexemes lead from one stage to another, wherever they stand and whatever follows. -/
def Stage.Reads (s : Stage) (lexemes : List Lexeme) (t : Stage) : Prop :=
  ∀ position rest, read s position (lexemes ++ rest) = read t (position + lexemes.length) rest

namespace Stage.Reads

variable {s t u : Stage} {l m : List Lexeme}

lemma single {lexeme : Lexeme} (h : ∀ position, s.step position lexeme = .ok (.next t)) :
    s.Reads [lexeme] t := by
  intro position rest
  rw [List.singleton_append, read, h]
  rfl

lemma append (h : s.Reads l t) (g : t.Reads m u) : s.Reads (l ++ m) u := by
  intro position rest
  rw [List.append_assoc, h, g, List.length_append, Nat.add_assoc]

lemma cons {lexeme : Lexeme} (h : ∀ position, s.step position lexeme = .ok (.next t))
    (g : t.Reads m u) : s.Reads (lexeme :: m) u := (single h).append g

end Stage.Reads

def Level.awaiting (elements components : List TypeNode) : Level :=
  match components.getLast? with
  | none => ⟨elements, .type⟩
  | some last => ⟨elements, .component components.dropLast last⟩

def Level.behind (elements components : List TypeNode) (node : TypeNode) : Level :=
  ⟨elements, .suffix components node⟩

def Stage.at (level : Level) (frames : List Frame) : Stage := .signature ⟨none, level, frames⟩

lemma awaiting_cases (elements components : List TypeNode) :
    (components = [] ∧ Level.awaiting elements components = ⟨elements, .type⟩) ∨
      ∃ front last, components = front ++ [last] ∧
        Level.awaiting elements components = ⟨elements, .component front last⟩ := by
  rcases List.eq_nil_or_concat' components with rfl | ⟨front, last, rfl⟩
  · exact .inl ⟨rfl, rfl⟩
  · exact .inr ⟨front, last, rfl, by simp [Level.awaiting]⟩

lemma addType_awaiting (elements components : List TypeNode) (node : TypeNode) :
    (Level.awaiting elements components).addType node = .behind elements components node := by
  rcases awaiting_cases elements components with ⟨rfl, h⟩ | ⟨front, last, rfl, h⟩
  · rw [h]
    rfl
  · rw [h]
    rfl

/-! ### One lexeme -/

lemma reads_colon : Stage.start.Reads [.colon] (.at (.awaiting [] []) []) := .single fun _ => rfl

section Lexemes

variable (elements components : List TypeNode) (node : TypeNode) (frames : List Frame)
  (position : ℕ)

lemma step_name (name : String) :
    (Stage.at (.awaiting elements components) frames).step position (.name name) =
      .ok (.next (.at (.behind elements components (.atom name)) frames)) := by
  rw [← addType_awaiting]
  rcases awaiting_cases elements components with ⟨-, h⟩ | ⟨front, last, -, h⟩
  · rw [h]
    rfl
  · rw [h]
    cases frames <;> rfl

lemma step_openParen (h : frames.length < maxDepth) :
    (Stage.at (.awaiting elements components) frames).step position .openParen =
      .ok (.next (.at (.awaiting [] []) (.group (.awaiting elements components) :: frames))) := by
  rcases awaiting_cases elements components with ⟨-, ha⟩ | ⟨front, last, -, ha⟩
  · rw [ha]
    simp [Stage.at, Stage.step, Reading.step, Reading.stepType, Reading.openGroup, h, Except.map,
      Level.awaiting, Level.empty]
  · rw [ha]
    simp [Stage.at, Stage.step, Reading.step, Reading.close?, Reading.stepType, Reading.openGroup,
      h, Except.map, Level.awaiting, Level.empty]

lemma step_star :
    (Stage.at (.behind elements components node) frames).step position .star =
      .ok (.next (.at (.awaiting elements (components ++ [node])) frames)) := by
  have h : Level.awaiting elements (components ++ [node]) =
      ⟨elements, .component components node⟩ := by simp [Level.awaiting]
  rw [h]
  cases frames <;> rfl

lemma step_arrow :
    (Stage.at (.behind elements components node) frames).step position .arrow =
      .ok (.next (.at (.awaiting (elements ++ [joinComponents components node]) []) frames)) := rfl

lemma step_constructor (con : String) :
    (Stage.at (.behind elements components node) frames).step position (.name con) =
      .ok (.next (.at (.behind elements components (applyPostfix con node)) frames)) := by
  cases frames <;> rfl

lemma step_less (h : frames.length < maxDepth) :
    (Stage.at (.behind elements components node) frames).step position .less =
      .ok (.next (.at (.awaiting [] [])
        (.arguments (.behind elements components node) [] :: frames))) := by
  simp [Stage.at, Stage.step, Reading.step, Level.behind, Reading.close?, Reading.openGroup, h,
    Except.map, Level.awaiting, Level.empty]

lemma step_closeParen (outer : Level) :
    (Stage.at (.behind elements components node) (.group outer :: frames)).step position
        .closeParen =
      .ok (.next (.at (outer.addType
        (groupNode (elements ++ [joinComponents components node]))) frames)) := rfl

lemma step_comma (outer : Level) (args : List TypeNode) :
    (Stage.at (.behind elements components node) (.arguments outer args :: frames)).step position
        .comma =
      .ok (.next (.at (.awaiting [] [])
        (.arguments outer (args ++ [groupNode (elements ++ [joinComponents components node])]) ::
          frames))) := by
  simp [Stage.at, Stage.step, Reading.step, Level.behind, Reading.close?, Level.finish, addArgument,
    Level.awaiting, Level.empty]

lemma step_greater (outer : Level) (args : List TypeNode) :
    (Stage.at (.behind elements components node) (.arguments outer args :: frames)).step position
        .greater =
      .ok (.next (.at (outer.mapLast fun con => .generic con
        (args ++ [groupNode (elements ++ [joinComponents components node])])) frames)) := by
  simp [Stage.at, Stage.step, Reading.step, Level.behind, Reading.close?, Level.finish, addArgument,
    Frame.close]

end Lexemes

/-! ### Nodes -/

structure Readable (node : TypeNode) : Prop where
  operand : ∀ elements components frames,
    frames.length + node.operandDepth node.depth ≤ maxDepth →
    (Stage.at (.awaiting elements components) frames).Reads (node.operandLexemes node.lexemes)
      (.at (.behind elements components node) frames)
  element : ∀ elements frames, frames.length + node.depth ≤ maxDepth →
    ∃ components last, joinComponents components last = node ∧
      (Stage.at (.awaiting elements []) frames).Reads node.lexemes
        (.at (.behind elements components last) frames)

lemma Readable.of_operand {node : TypeNode} (ht : node.isTuple = false)
    (h : ∀ elements components frames, frames.length + node.depth ≤ maxDepth →
      (Stage.at (.awaiting elements components) frames).Reads node.lexemes
        (.at (.behind elements components node) frames)) : Readable node := by
  refine ⟨?_, fun elements frames hd => ⟨[], node, rfl, h elements [] frames hd⟩⟩
  simpa [TypeNode.operandLexemes, TypeNode.operandDepth, ht] using h

/-- The operands of a tuple, read one after the other. -/
lemma reads_components (elements : List TypeNode) (frames : List Frame) (items : List TypeNode)
    (hr : ∀ item ∈ items, Readable item) (hn : items ≠ []) (components : List TypeNode)
    (hd : frames.length + TypeNode.operandsDepth items ≤ maxDepth) :
    ∃ front last, components ++ items = front ++ [last] ∧
      (Stage.at (.awaiting elements components) frames).Reads
        ([.star].intercalate (TypeNode.allOperandLexemes items))
        (.at (.behind elements front last) frames) := by
  induction items generalizing components with
  | nil => exact absurd rfl hn
  | cons item rest ih =>
    rw [TypeNode.operandsDepth] at hd
    have hitem := (hr item (by simp)).operand elements components frames (by omega)
    cases rest with
    | nil => exact ⟨components, item, rfl, by simpa [TypeNode.allOperandLexemes] using hitem⟩
    | cons next rest =>
      obtain ⟨front, last, he, hread⟩ := ih (fun x hx => hr x (by simp [hx])) (by simp)
        (components ++ [item]) (by omega)
      refine ⟨front, last, by simpa using he, ?_⟩
      rw [TypeNode.allOperandLexemes, TypeNode.allOperandLexemes, List.intercalate_cons_cons,
        List.append_assoc]
      exact hitem.append (.cons (step_star _ _ _ _) hread)

/-- The elements of a signature, read one after the other. -/
lemma reads_elements (frames : List Frame) (items : List TypeNode)
    (hr : ∀ item ∈ items, Readable item) (hn : items ≠ []) (elements : List TypeNode)
    (hd : frames.length + TypeNode.itemsDepth items ≤ maxDepth) :
    ∃ front components last, elements ++ items = front ++ [joinComponents components last] ∧
      (Stage.at (.awaiting elements []) frames).Reads
        ([.arrow].intercalate (TypeNode.allLexemes items))
        (.at (.behind front components last) frames) := by
  induction items generalizing elements with
  | nil => exact absurd rfl hn
  | cons item rest ih =>
    rw [TypeNode.itemsDepth] at hd
    obtain ⟨components, last, hlast, hitem⟩ :=
      (hr item (by simp)).element elements frames (by omega)
    cases rest with
    | nil =>
      exact ⟨elements, components, last, by rw [hlast], by simpa [TypeNode.allLexemes] using hitem⟩
    | cons next rest =>
      obtain ⟨front, components', last', he, hread⟩ := ih (fun x hx => hr x (by simp [hx]))
        (by simp) (elements ++ [item]) (by omega)
      refine ⟨front, components', last', by simpa using he, ?_⟩
      rw [TypeNode.allLexemes, TypeNode.allLexemes, List.intercalate_cons_cons, List.append_assoc]
      refine hitem.append (.cons (step_arrow _ _ _ _) ?_)
      rw [hlast]
      exact hread

/-- A group, read where a type is awaited. -/
lemma reads_group {elements components : List TypeNode} {frames : List Frame}
    {lexemes : List Lexeme} {nodes front components' : List TypeNode} {last : TypeNode}
    (hd : frames.length < maxDepth) (he : nodes = front ++ [joinComponents components' last])
    (h : (Stage.at (.awaiting [] []) (.group (.awaiting elements components) :: frames)).Reads
      lexemes (.at (.behind front components' last)
        (.group (.awaiting elements components) :: frames))) :
    (Stage.at (.awaiting elements components) frames).Reads
      (.openParen :: (lexemes ++ [.closeParen]))
      (.at (.behind elements components (groupNode nodes)) frames) := by
  refine .cons (step_openParen _ _ _ · hd) (h.append (.single fun position => ?_))
  rw [step_closeParen, addType_awaiting, he]

/-- The arguments of a constructor, read one after the other up to the end of the group. -/
lemma reads_arguments (outer : Level) (frames : List Frame) (items : List TypeNode)
    (hr : ∀ item ∈ items, Readable item) (hn : items ≠ []) (args : List TypeNode)
    (hd : frames.length + 1 + TypeNode.itemsDepth items ≤ maxDepth) :
    (Stage.at (.awaiting [] []) (.arguments outer args :: frames)).Reads
      ([.comma].intercalate (TypeNode.allLexemes items) ++ [.greater])
      (.at (outer.mapLast fun con => .generic con (args ++ items)) frames) := by
  induction items generalizing args with
  | nil => exact absurd rfl hn
  | cons item rest ih =>
    rw [TypeNode.itemsDepth] at hd
    obtain ⟨components, last, hlast, hitem⟩ := (hr item (by simp)).element []
      (.arguments outer args :: frames) (by simp only [List.length_cons]; omega)
    cases rest with
    | nil =>
      have hend := hitem.append (.single (step_greater _ _ _ _ · outer args))
      rw [hlast] at hend
      simpa [TypeNode.allLexemes, groupNode] using hend
    | cons next rest =>
      have hnext := ih (fun x hx => hr x (by simp [hx])) (by simp) (args ++ [item]) (by omega)
      rw [TypeNode.allLexemes, TypeNode.allLexemes, List.intercalate_cons_cons, List.append_assoc,
        List.append_assoc]
      refine hitem.append (.cons (step_comma _ _ _ _ · outer args) ?_)
      rw [hlast]
      simpa [groupNode, TypeNode.allLexemes] using hnext

lemma groupNode_of_two_le {items : List TypeNode} (h : 2 ≤ items.length) :
    groupNode items = .list items := by
  rcases items with _ | ⟨a, _ | ⟨b, rest⟩⟩
  · simp at h
  · simp at h
  · rfl

lemma joinComponents_of_two_le {items front : List TypeNode} {last : TypeNode}
    (h : 2 ≤ items.length) (he : items = front ++ [last]) :
    joinComponents front last = .tuple items := by
  have hf : front ≠ [] := by
    rintro rfl
    simp [he] at h
  rw [joinComponents, if_neg (by simpa using hf), he]

lemma ne_nil_of_le {items : List TypeNode} {n : ℕ} (hn : 0 < n) (h : n ≤ items.length) :
    items ≠ [] := List.length_pos_iff.mp (hn.trans_le h)

/-- A postfix constructor that does not mark an array applies to the operand in front of it. -/
lemma applyPostfix_of_renderable {con : String} {arg : TypeNode}
    (h : (TypeNode.atom con).isArrayName = false) :
    applyPostfix con arg = .generic (.atom con) [arg] :=
  if_neg (by simpa [TypeNode.isArrayName] using h)

lemma readable_tuple {items : List TypeNode} (h : 2 ≤ items.length)
    (hr : ∀ item ∈ items, Readable item) : Readable (.tuple items) := by
  have hn := ne_nil_of_le (by omega) h
  refine ⟨fun elements components frames hd => ?_, fun elements frames hd => ?_⟩
  · simp only [TypeNode.operandDepth, TypeNode.isTuple, if_true, TypeNode.depth] at hd
    obtain ⟨front, last, he, hread⟩ := reads_components []
      (.group (.awaiting elements components) :: frames) items hr hn []
      (by simp only [List.length_cons]; omega)
    have hone : [TypeNode.tuple items] = [] ++ [joinComponents front last] := by
      rw [joinComponents_of_two_le h he, List.nil_append]
    have hgroup := reads_group (by omega) hone hread
    simpa [TypeNode.operandLexemes, TypeNode.isTuple, TypeNode.lexemes, groupNode] using hgroup
  · obtain ⟨front, last, he, hread⟩ := reads_components elements frames items hr hn [] hd
    exact ⟨front, last, joinComponents_of_two_le h he, hread⟩

mutual

/-- Every renderable node can be read. -/
theorem readable : ∀ t : TypeNode, t.isRenderable = true → Readable t
  | .atom name, _ =>
    .of_operand rfl fun elements components frames _ => .single (step_name _ _ _ · name)
  | .list items, h => by
    simp only [TypeNode.isRenderable, Bool.and_eq_true, decide_eq_true_eq] at h
    refine .of_operand rfl fun elements components frames hd => ?_
    rw [TypeNode.depth] at hd
    obtain ⟨front, components', last, he, hread⟩ := reads_elements
      (.group (.awaiting elements components) :: frames) items (allReadable items h.2)
      (ne_nil_of_le (by omega) h.1) [] (by simp only [List.length_cons]; omega)
    have hgroup := reads_group (by omega) he hread
    rwa [List.nil_append, groupNode_of_two_le h.1] at hgroup
  | .tuple items, h => by
    simp only [TypeNode.isRenderable, Bool.and_eq_true, decide_eq_true_eq] at h
    exact readable_tuple h.1 (allReadable items h.2)
  | .array element, h => by
    refine .of_operand rfl fun elements components frames hd => ?_
    have helement := (readable element h).operand elements components frames hd
    exact helement.append (.single (step_constructor _ _ _ _ · "array"))
  | .generic con args, h => by
    simp only [TypeNode.isRenderable, Bool.and_eq_true, decide_eq_true_eq, Bool.not_eq_true'] at h
    obtain ⟨⟨⟨⟨hlen, htuple⟩, harray⟩, hcon⟩, hargs⟩ := h
    have hreadCon := readable con hcon
    have hreadArgs := allReadable args hargs
    refine .of_operand rfl fun elements components frames hd => ?_
    rw [TypeNode.depth] at hd
    rw [TypeNode.lexemes]
    split
    · rename_i hpost
      simp only [Bool.and_eq_true, beq_iff_eq] at hpost
      obtain ⟨arg, rfl⟩ := List.length_eq_one_iff.mp hpost.2
      cases con with
      | atom name =>
        rw [if_pos (by simpa using hpost.1)] at hd
        have harg := (hreadArgs arg (by simp)).operand elements components frames
          (by simpa [TypeNode.operandsDepth] using hd)
        have hcon := harg.append (.single (step_constructor _ _ _ _ · name))
        rw [applyPostfix_of_renderable (by simpa using harray)] at hcon
        simpa [TypeNode.allOperandLexemes, TypeNode.lexemes] using hcon
      | _ => simp [TypeNode.isPostfix] at hpost
    · rename_i hpost
      rw [if_neg hpost] at hd
      have hoperand := hreadCon.operand elements components frames
        (by simp only [TypeNode.operandDepth, htuple]; simp; omega)
      rw [TypeNode.operandLexemes, htuple] at hoperand
      have hrest := reads_arguments (.behind elements components con) frames args hreadArgs
        (ne_nil_of_le (by omega) hlen) [] (by omega)
      exact hoperand.append (.cons (step_less _ _ _ _ · (by omega)) hrest)
  | .byRef _, h => by simp [TypeNode.isRenderable] at h
  | .raw _, h => by simp [TypeNode.isRenderable] at h

theorem allReadable : ∀ items : List TypeNode, TypeNode.areRenderable items = true →
    ∀ item ∈ items, Readable item
  | [], _ => by simp
  | item :: rest, h => by
    simp only [TypeNode.areRenderable, Bool.and_eq_true] at h
    have hitem := readable item h.1
    have hrest := allReadable rest h.2
    intro x hx
    rcases List.mem_cons.mp hx with rfl | hx
    · exact hitem
    · exact hrest x hx

end

/-! ### Signatures -/

/-- The lexemes of a signature behind a colon are read as the signature. -/
theorem ofLexemes_signatureLexemes {nodes : List TypeNode}
    (h : TypeNode.areRenderable nodes = true) (hd : TypeNode.itemsDepth nodes ≤ maxDepth) :
    ofLexemes (.colon :: TypeNode.signatureLexemes nodes) = .ok (.ofPrototype nodes) := by
  by_cases hn : nodes = []
  · subst hn
    rfl
  · obtain ⟨front, components, last, he, hread⟩ :=
      reads_elements [] nodes (allReadable nodes h) hn [] (by simpa using hd)
    have hend := (reads_colon.append hread) 0 []
    rw [List.append_nil, List.singleton_append] at hend
    rw [ofLexemes, parseFragment, List.drop_zero, TypeNode.signatureLexemes, hend]
    simp only [read, Except.map, Stage.at, Stage.finish, Reading.finish, finishAll, Level.finish,
      Level.behind, ← he, List.nil_append, ofPrototype]

lemma tokenize_signatureText {nodes : List TypeNode} (h : TypeNode.areRenderable nodes = true) :
    Lexeme.tokenize (TypeNode.signatureText nodes) = TypeNode.signatureLexemes nodes :=
  (TypeNode.spells_signatureText h).chars

lemma tokenize_colon_signatureText {nodes : List TypeNode}
    (h : TypeNode.areRenderable nodes = true) :
    Lexeme.tokenize (": " ++ TypeNode.signatureText nodes) =
      .colon :: TypeNode.signatureLexemes nodes := by
  have hcolon : Lexeme.Spells ": " [.colon] := ⟨by decide, by decide⟩
  exact (hcolon.after (TypeNode.spells_signatureText h) (by decide)).chars

lemma parse_signatureText {nodes : List TypeNode} (h : TypeNode.areRenderable nodes = true)
    (hd : TypeNode.itemsDepth nodes ≤ maxDepth) :
    parse (": " ++ TypeNode.signatureText nodes) = .ok (.ofPrototype nodes) := by
  rw [parse, tokenize_colon_signatureText h, ofLexemes_signatureLexemes h hd]

/-- The display text of a signature of renderable nodes is read back as that signature and nothing
else, if it nests no more groups than can be open. -/
theorem parse_rendered {nodes : List TypeNode} (h : TypeNode.areRenderable nodes = true)
    (hd : Lexeme.nesting 0 (Lexeme.tokenize (TypeNode.signatureText nodes)) ≤ maxDepth) :
    parse (": " ++ TypeNode.signatureText nodes) = .ok ⟨none, some nodes⟩ := by
  rw [tokenize_signatureText h, TypeNode.nesting_signatureLexemes] at hd
  exact parse_signatureText h hd

/-- `(a -> b * c array) -> (int * x) list -> Map<k, _>` -/
theorem parse_rendered_nested :
    parse (": " ++ TypeNode.signatureText
      [.list [.atom "a", .tuple [.atom "b", .array (.atom "c")]],
        .generic (.atom "list") [.tuple [.atom "int", .atom "x"]],
        .generic (.atom "Map") [.atom "k", .atom "_"]]) =
      .ok ⟨none, some [.list [.atom "a", .tuple [.atom "b", .array (.atom "c")]],
        .generic (.atom "list") [.tuple [.atom "int", .atom "x"]],
        .generic (.atom "Map") [.atom "k", .atom "_"]]⟩ :=
  parse_rendered (by decide) (by decide)

end SignatureSearch.Query
