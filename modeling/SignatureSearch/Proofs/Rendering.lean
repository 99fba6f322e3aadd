import Mathlib
import SignatureSearch.Proofs.Scanning
import SignatureSearch.TypeNode

/-! Renderings as lexemes. For nodes that a query can denote the display text splits into lexemes
along the structure of the node, and the groups that its text nests are those of the node. -/
namespace SignatureSearch

namespace TypeNode

/-- The constructor that marks an array when it stands behind its argument. -/
def isArrayName : TypeNode → Bool
  | .atom name => name == "array"
  | _ => false

mutual

/-- Whether the display text denotes the node: atoms are names, lists and tuples have two elements
at least, and applications have arguments and neither a tuple as constructor nor the form of an
array. -/
def isRenderable : TypeNode → Bool
  | .atom name => name != "" && name.toList.all Lexeme.isNameChar
  | .list items => decide (2 ≤ items.length) && areRenderable items
  | .tuple items => decide (2 ≤ items.length) && areRenderable items
  | .array element => element.isRenderable
  | .generic con args =>
    decide (1 ≤ args.length) && !con.isTuple && !(con.isArrayName && args.length == 1) &&
      con.isRenderable && areRenderable args
  | .byRef _ => false
  | .raw _ => false

def areRenderable : List TypeNode → Bool
  | [] => true
  | item :: rest => item.isRenderable && areRenderable rest

end

def operandLexemes (node : TypeNode) (lexemes : List Lexeme) : List Lexeme :=
  if node.isTuple then .openParen :: (lexemes ++ [.closeParen]) else lexemes

mutual

/-- The lexemes of the display text of a renderable node. -/
def lexemes : TypeNode → List Lexeme
  | .atom name => [.name name]
  | .list items => .openParen :: ([.arrow].intercalate (allLexemes items) ++ [.closeParen])
  | .tuple items => [.star].intercalate (allOperandLexemes items)
  | .array element => operandLexemes element element.lexemes ++ [.name "array"]
  | .generic con args =>
    if con.isPostfix && args.length == 1 then (allOperandLexemes args).flatten ++ con.lexemes
    else con.lexemes ++ .less :: ([.comma].intercalate (allLexemes args) ++ [.greater])
  | .byRef _ => []
  | .raw _ => []

def allLexemes : List TypeNode → List (List Lexeme)
  | [] => []
  | item :: rest => item.lexemes :: allLexemes rest

def allOperandLexemes : List TypeNode → List (List Lexeme)
  | [] => []
  | item :: rest => operandLexemes item item.lexemes :: allOperandLexemes rest

end

def signatureLexemes (nodes : List TypeNode) : List Lexeme :=
  [.arrow].intercalate (allLexemes nodes)

def operandDepth (node : TypeNode) (depth : ℕ) : ℕ := if node.isTuple then depth + 1 else depth

mutual

def depth : TypeNode → ℕ
  | .atom _ => 0
  | .list items => itemsDepth items + 1
  | .tuple items => operandsDepth items
  | .array element => operandDepth element element.depth
  | .generic con args =>
    if con.isPostfix && args.length == 1 then operandsDepth args
    else max con.depth (itemsDepth args + 1)
  | .byRef _ => 0
  | .raw _ => 0

def itemsDepth : List TypeNode → ℕ
  | [] => 0
  | item :: rest => max item.depth (itemsDepth rest)

def operandsDepth : List TypeNode → ℕ
  | [] => 0
  | item :: rest => max (operandDepth item item.depth) (operandsDepth rest)

end

end TypeNode

namespace Lexeme

def openAfter (depth : ℕ) : Lexeme → ℕ
  | .openParen => depth + 1
  | .less => depth + 1
  | .closeParen => depth - 1
  | .greater => depth - 1
  | _ => depth

/-- The most groups that are open at once, where `depth` groups are open at first. -/
def nesting (depth : ℕ) : List Lexeme → ℕ
  | [] => depth
  | lexeme :: rest => max depth (nesting (openAfter depth lexeme) rest)

/-- The lexemes nest `height` groups and close every group that they open. -/
def Nests (lexemes : List Lexeme) (height : ℕ) : Prop :=
  ∀ depth rest, nesting depth (lexemes ++ rest) = max (depth + height) (nesting depth rest)

lemma le_nesting (depth : ℕ) (lexemes : List Lexeme) : depth ≤ nesting depth lexemes := by
  cases lexemes with
  | nil => exact le_rfl
  | cons lexeme rest => exact le_max_left _ _

namespace Nests

variable {l m : List Lexeme} {j k : ℕ}

lemma nil : Nests [] 0 := fun depth rest => (max_eq_right (le_nesting depth rest)).symm

lemma single (lexeme : Lexeme) (h : ∀ depth, openAfter depth lexeme = depth) :
    Nests [lexeme] 0 := by
  intro depth rest
  rw [List.singleton_append, nesting, h, Nat.add_zero]

lemma append (h : Nests l j) (g : Nests m k) : Nests (l ++ m) (max j k) := by
  intro depth rest
  rw [List.append_assoc, h, g]
  omega

lemma enclosed {opener closer : Lexeme} (ho : ∀ depth, openAfter depth opener = depth + 1)
    (hc : ∀ depth, openAfter depth closer = depth - 1) (h : Nests l k) :
    Nests (opener :: (l ++ [closer])) (k + 1) := by
  intro depth rest
  rw [List.cons_append, nesting, ho, List.append_assoc, h, List.singleton_append, nesting, hc,
    Nat.add_sub_cancel]
  omega

lemma intercalate_cons (mark : Lexeme) (hmark : ∀ depth, openAfter depth mark = depth)
    {ls : List (List Lexeme)} (h : Nests l j) (g : Nests ([mark].intercalate ls) k) :
    Nests ([mark].intercalate (l :: ls)) (max j k) := by
  cases ls with
  | nil =>
    have hk : k = 0 := by
      have := g 0 []
      simp only [List.intercalate_nil, List.nil_append, nesting] at this
      omega
    rwa [hk, max_eq_left (Nat.zero_le j), List.intercalate_singleton]
  | cons m ls =>
    have hm := (single mark hmark).append g
    rw [max_eq_right (Nat.zero_le k)] at hm
    rw [List.intercalate_cons_cons, List.append_assoc]
    exact h.append hm

end Nests

/-- A text splits into these lexemes and leaves no dash open at its end. -/
structure Spells (text : String) (lexemes : List Lexeme) : Prop where
  chars : ofChars text.toList = lexemes
  last : lexemes.getLast? ≠ some .dash

namespace Spells

variable {s t : String} {l m : List Lexeme}

lemma append (h : Spells s l) (g : Spells t m) (seam : Seam s.toList t.toList) :
    Spells (s ++ t) (l ++ m) := by
  refine ⟨?_, ?_⟩
  · rw [String.toList_append, ofChars_append seam (h.chars ▸ h.last), h.chars, g.chars]
  · rw [List.getLast?_append]
    cases hm : m.getLast? with
    | none => simpa using h.last
    | some lexeme => simpa [hm] using g.last

lemma before (h : Spells s l) (g : Spells t m) (hb : t.toList.head?.any isBreak = true) :
    Spells (s ++ t) (l ++ m) :=
  h.append g (.inr fun c hc => by simpa [Option.mem_def.mp hc] using hb)

lemma after (h : Spells s l) (g : Spells t m) (hb : s.toList.getLast?.any isBreak = true) :
    Spells (s ++ t) (l ++ m) :=
  h.append g (.inl fun c hc => by simpa [Option.mem_def.mp hc] using hb)

lemma intercalate {sep : String} {mark : Lexeme} (hsep : Spells sep [mark])
    (hhead : sep.toList.head?.any isBreak = true) (hlast : sep.toList.getLast?.any isBreak = true)
    {texts : List String} {lexemes : List (List Lexeme)}
    (h : List.Forall₂ Spells texts lexemes) :
    Spells (sep.intercalate texts) ([mark].intercalate lexemes) := by
  induction h with
  | nil => exact ⟨rfl, by simp⟩
  | @cons text lexemes texts rest hd tl ih =>
    cases tl with
    | nil => simpa using hd
    | cons hd' tl' =>
      rw [String.intercalate_cons_cons, List.intercalate_cons_cons]
      refine (hd.before hsep hhead).append ih (.inl fun c hc => ?_)
      rw [String.toList_append, List.getLast?_append] at hc
      cases hs : sep.toList.getLast? with
      | none => simp [hs] at hlast
      | some d =>
        obtain rfl : d = c := by simpa [hs] using hc
        simpa [hs] using hlast

lemma enclosed (h : Spells s l) :
    Spells ("(" ++ s ++ ")") (.openParen :: (l ++ [.closeParen])) := by
  have hopen : Spells "(" [.openParen] := ⟨rfl, by simp⟩
  have hclose : Spells ")" [.closeParen] := ⟨rfl, by simp⟩
  exact (hopen.after h rfl).before hclose rfl

lemma of_name {name : String} (hn : name ≠ "") (h : ∀ c ∈ name.toList, isNameChar c = true) :
    Spells name [.name name] := by
  have hl : name.toList ≠ [] := by simpa using hn
  refine ⟨?_, by simp⟩
  rw [ofChars_name hl h, String.ofList_toList]

end Spells

end Lexeme

namespace TypeNode
open Lexeme (Spells)

lemma text_generic (con : TypeNode) (args : List TypeNode) :
    (TypeNode.generic con args).text =
      if con.isPostfix && args.length == 1 then
        String.join (operandTexts args) ++ (" " ++ con.text)
      else con.text ++ ("<" ++ (", ".intercalate (texts args) ++ ">")) := by
  rcases args with _ | ⟨arg, _ | ⟨arg', rest⟩⟩
  · simp [text, texts, String.append_assoc]
  · by_cases h : con.isPostfix = true
    · simp [text, operandTexts, h, String.append_assoc]
    · simp [text, texts, h, String.append_assoc]
  · simp [text, texts, String.append_assoc]

lemma spells_operand {node : TypeNode} (h : Spells node.text node.lexemes) :
    Spells (operandText node node.text) (operandLexemes node node.lexemes) := by
  unfold operandText operandLexemes
  split
  · exact h.enclosed
  · exact h

mutual

/-- The display text of a renderable node splits into the lexemes of the node. -/
theorem spells_text : ∀ t : TypeNode, t.isRenderable = true → Spells t.text t.lexemes
  | .atom name, h => by
    simp only [isRenderable, Bool.and_eq_true, bne_iff_ne, List.all_eq_true] at h
    exact .of_name h.1 h.2
  | .list items, h => by
    simp only [isRenderable, Bool.and_eq_true] at h
    have harrow : Spells " -> " [.arrow] := ⟨rfl, by simp⟩
    have hitems := Spells.intercalate harrow rfl rfl (spells_texts items h.2)
    exact hitems.enclosed
  | .tuple items, h => by
    simp only [isRenderable, Bool.and_eq_true] at h
    have hstar : Spells " * " [.star] := ⟨rfl, by simp⟩
    exact Spells.intercalate hstar rfl rfl (spells_operandTexts items h.2)
  | .array element, h => by
    have harray : Spells " array" [.name "array"] := ⟨rfl, by simp⟩
    exact (spells_operand (spells_text element h)).before harray rfl
  | .generic con args, h => by
    simp only [isRenderable, Bool.and_eq_true] at h
    have hcon := spells_text con h.1.2
    rw [text_generic, lexemes]
    have hoperands := spells_operandTexts args h.2
    split
    · rename_i hpost
      simp only [Bool.and_eq_true, beq_iff_eq] at hpost
      obtain ⟨arg, rfl⟩ := List.length_eq_one_iff.mp hpost.2
      have hblank : Spells " " [] := ⟨rfl, by simp⟩
      have harg : Spells (String.join (operandTexts [arg])) (allOperandLexemes [arg]).flatten := by
        simpa [operandTexts, allOperandLexemes] using hoperands
      exact harg.before (hblank.after hcon rfl) (by simp; decide)
    · have hless : Spells "<" [.less] := ⟨rfl, by simp⟩
      have hgreater : Spells ">" [.greater] := ⟨rfl, by simp⟩
      have hcomma : Spells ", " [.comma] := ⟨rfl, by simp⟩
      have hargs := Spells.intercalate hcomma rfl rfl (spells_texts args h.2)
      have hend := hless.after (hargs.before hgreater rfl) rfl
      exact hcon.before hend (by simp; decide)
  | .byRef _, h => by simp [isRenderable] at h
  | .raw _, h => by simp [isRenderable] at h

theorem spells_texts : ∀ items : List TypeNode, areRenderable items = true →
    List.Forall₂ Spells (texts items) (allLexemes items)
  | [], _ => .nil
  | item :: rest, h => by
    simp only [areRenderable, Bool.and_eq_true] at h
    exact .cons (spells_text item h.1) (spells_texts rest h.2)

theorem spells_operandTexts : ∀ items : List TypeNode, areRenderable items = true →
    List.Forall₂ Spells (operandTexts items) (allOperandLexemes items)
  | [], _ => .nil
  | item :: rest, h => by
    simp only [areRenderable, Bool.and_eq_true] at h
    exact .cons (spells_operand (spells_text item h.1)) (spells_operandTexts rest h.2)

end

lemma nests_operand {node : TypeNode} (h : Lexeme.Nests node.lexemes node.depth) :
    Lexeme.Nests (operandLexemes node node.lexemes) (operandDepth node node.depth) := by
  unfold operandLexemes operandDepth
  split
  · exact h.enclosed (fun _ => rfl) (fun _ => rfl)
  · exact h

mutual

theorem nests_lexemes : ∀ t : TypeNode, Lexeme.Nests t.lexemes t.depth
  | .atom name => .single (.name name) fun _ => rfl
  | .list items => (nests_items .arrow (fun _ => rfl) items).enclosed (fun _ => rfl) (fun _ => rfl)
  | .tuple items => nests_operands items
  | .array element => by
    have h := (nests_operand (nests_lexemes element)).append
      (.single (.name "array") fun _ => rfl)
    rwa [max_eq_left (Nat.zero_le _)] at h
  | .generic con args => by
    have hcon := nests_lexemes con
    have hoperands := nests_operands args
    have hargs := nests_items .comma (fun _ => rfl) args
    rw [lexemes, depth]
    split
    · rename_i h
      simp only [Bool.and_eq_true, beq_iff_eq] at h
      obtain ⟨arg, rfl⟩ := List.length_eq_one_iff.mp h.2
      cases con with
      | atom name =>
        have hpost := hoperands.append hcon
        rw [depth, max_eq_left (Nat.zero_le _)] at hpost
        simpa [allOperandLexemes] using hpost
      | _ => simp [isPostfix] at h
    · exact hcon.append (hargs.enclosed (fun _ => rfl) (fun _ => rfl))
  | .byRef _ => .nil
  | .raw _ => .nil

theorem nests_items (mark : Lexeme) (hmark : ∀ depth, mark.openAfter depth = depth) :
    ∀ items : List TypeNode,
      Lexeme.Nests ([mark].intercalate (allLexemes items)) (itemsDepth items)
  | [] => .nil
  | item :: rest => (nests_lexemes item).intercalate_cons mark hmark (nests_items mark hmark rest)

theorem nests_operands : ∀ items : List TypeNode,
    Lexeme.Nests ([.star].intercalate (allOperandLexemes items)) (operandsDepth items)
  | [] => .nil
  | item :: rest =>
    (nests_operand (nests_lexemes item)).intercalate_cons .star (fun _ => rfl) (nests_operands rest)

end

theorem spells_signatureText {nodes : List TypeNode} (h : areRenderable nodes = true) :
    Lexeme.Spells (signatureText nodes) (signatureLexemes nodes) :=
  Spells.intercalate ⟨rfl, by simp⟩ rfl rfl (spells_texts nodes h)

theorem nesting_signatureLexemes (nodes : List TypeNode) :
    Lexeme.nesting 0 (signatureLexemes nodes) = itemsDepth nodes := by
  have h := nests_items .arrow (fun _ => rfl) nodes 0 []
  simpa [signatureLexemes, Lexeme.nesting] using h

end TypeNode

end SignatureSearch
