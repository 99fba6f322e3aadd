import Mathlib
import SignatureSearch.Proofs.ReaderRuns
import SignatureSearch.Proofs.SignatureRows

/-! Two spellings of an application. A constructor can stand behind its argument or in front of it,
with the argument in angle brackets. Only `array` makes a difference: behind a type it denotes
arrays of that type, in front of brackets it is a constructor like any other. -/
namespace SignatureSearch

open TypeNode (operandText)

lemma Lexeme.spells_name {c : String} (hc : (TypeNode.atom c).isRenderable = true) :
    Lexeme.Spells c [.name c] := TypeNode.spells_text (.atom c) hc

section Spellings

variable {t : TypeNode} {c : String}

/-- The lexemes of a query for an operand with a constructor behind it. -/
lemma tokenize_behind_operand (ht : t.isRenderable = true)
    (hc : (TypeNode.atom c).isRenderable = true) :
    Lexeme.tokenize (": " ++ (operandText t t.text ++ " " ++ c)) =
      .colon :: (t.operandLexemes t.lexemes ++ [.name c]) := by
  have hcolon : Lexeme.Spells ": " [.colon] := ⟨rfl, by simp⟩
  have hblank : Lexeme.Spells " " [] := ⟨rfl, by simp⟩
  have hoperand := TypeNode.spells_operand (TypeNode.spells_text t ht)
  have hname := hblank.after (Lexeme.spells_name hc) rfl
  have hall := hcolon.after (hoperand.before hname (by simp; decide)) rfl
  simp only [← String.append_assoc] at hall ⊢
  exact hall.chars

/-- The lexemes of a query for a constructor with its argument in brackets. -/
lemma tokenize_brackets (ht : t.isRenderable = true) (hc : (TypeNode.atom c).isRenderable = true) :
    Lexeme.tokenize (": " ++ (c ++ "<" ++ t.text ++ ">")) =
      .colon :: .name c :: .less :: (t.lexemes ++ [.greater]) := by
  have hcolon : Lexeme.Spells ": " [.colon] := ⟨rfl, by simp⟩
  have hless : Lexeme.Spells "<" [.less] := ⟨rfl, by simp⟩
  have hgreater : Lexeme.Spells ">" [.greater] := ⟨rfl, by simp⟩
  have hargument := hless.after ((TypeNode.spells_text t ht).before hgreater rfl) rfl
  have hall := hcolon.after ((Lexeme.spells_name hc).before hargument (by simp; decide)) rfl
  simp only [← String.append_assoc] at hall ⊢
  exact hall.chars

end Spellings

namespace Query

variable {t : TypeNode} {c : String}

lemma depth_lt_of_nesting (ht : t.isRenderable = true)
    (hd : Lexeme.nesting 0 (Lexeme.tokenize t.text) < maxDepth) : t.depth < maxDepth := by
  have hnests := TypeNode.nests_lexemes t 0 []
  rw [List.append_nil, Lexeme.nesting] at hnests
  have htokens : Lexeme.tokenize t.text = t.lexemes := (TypeNode.spells_text t ht).chars
  rw [htokens, hnests] at hd
  omega

/-- The constructor behind the operand applies to the whole of it. -/
lemma ofLexemes_behind_operand (ht : t.isRenderable = true) (c : String) (hd : t.depth < maxDepth) :
    ofLexemes (.colon :: (t.operandLexemes t.lexemes ++ [.name c])) =
      .ok ⟨none, some [applyPostfix c t]⟩ := by
  have hdepth : t.operandDepth t.depth ≤ maxDepth := by
    unfold TypeNode.operandDepth
    split_ifs <;> omega
  have hoperand := (readable t ht).operand [] [] [] (by simpa using hdepth)
  have hconstructor := Stage.Reads.single (step_constructor [] [] t [] · c)
  exact ofLexemes_of_reads (reads_colon.append (hoperand.append hconstructor))

/-- The constructor in front of the brackets applies to what stands inside. -/
lemma ofLexemes_brackets (ht : t.isRenderable = true) (c : String) (hd : t.depth < maxDepth) :
    ofLexemes (.colon :: .name c :: .less :: (t.lexemes ++ [.greater])) =
      .ok ⟨none, some [.generic (.atom c) [t]]⟩ := by
  have hdepth : ([] : List Frame).length + 1 + TypeNode.itemsDepth [t] ≤ maxDepth := by
    simp only [List.length_nil, TypeNode.itemsDepth]
    omega
  have hargument := reads_arguments (.behind [] [] (.atom c)) [] [t]
    (by simpa using readable t ht) (by simp) [] hdepth
  rw [TypeNode.allLexemes, TypeNode.allLexemes, List.intercalate_singleton] at hargument
  have hless := Stage.Reads.cons (step_less [] [] (.atom c) [] · (by decide)) hargument
  have hname := Stage.Reads.cons (step_name [] [] [] · c) hless
  exact ofLexemes_of_reads (reads_colon.append hname)

end Query

/-- Queries that are read alike are answered alike, but for the text that the answer repeats. -/
lemma Engine.search_congr {a b : String} (h : Query.parse a = Query.parse b) (e : Engine)
    (options : SearchOptions) :
    e.search b options = (e.search a options).map fun response => { response with query := b } := by
  unfold Engine.search
  rw [h]
  cases Query.parse b with
  | error error => rfl
  | ok q =>
    cases hplan : Plan.ofQuery q (options.effectiveLimit e.limit) with
    | nothing => simp [hplan, Except.map]
    | conflict => simp [hplan, Except.map]
    | scan plan =>
      cases hscan : e.scan plan.view plan.scan with
      | error failure => simp [hplan, hscan, Except.map]
      | ok rows => simp [hplan, hscan, Except.map]

/-- A constructor other than `array` gives the same signature behind a type as in front of it with
the type in brackets, so that both queries find the same in every store. Behind a type `array`
denotes the arrays of that type instead. -/
theorem parse_spellings {t : TypeNode} {c : String} (ht : t.isRenderable = true)
    (hd : Lexeme.nesting 0 (Lexeme.tokenize t.text) < Query.maxDepth)
    (hc : (TypeNode.atom c).isRenderable = true) :
    Query.parse (": " ++ (operandText t t.text ++ " " ++ c)) =
      .ok ⟨none, some [if c = "array" then .array t else .generic (.atom c) [t]]⟩ ∧
    Query.parse (": " ++ (c ++ "<" ++ t.text ++ ">")) =
      .ok ⟨none, some [.generic (.atom c) [t]]⟩ ∧
    (c ≠ "array" → ∀ (e : Engine) (options : SearchOptions),
      e.search (": " ++ (c ++ "<" ++ t.text ++ ">")) options =
        (e.search (": " ++ (operandText t t.text ++ " " ++ c)) options).map fun response =>
          { response with query := ": " ++ (c ++ "<" ++ t.text ++ ">") }) := by
  have hdepth := Query.depth_lt_of_nesting ht hd
  have hbehind : Query.parse (": " ++ (operandText t t.text ++ " " ++ c)) =
      .ok ⟨none, some [Query.applyPostfix c t]⟩ := by
    rw [Query.parse, tokenize_behind_operand ht hc, Query.ofLexemes_behind_operand ht c hdepth]
  have hbrackets : Query.parse (": " ++ (c ++ "<" ++ t.text ++ ">")) =
      .ok ⟨none, some [.generic (.atom c) [t]]⟩ := by
    rw [Query.parse, tokenize_brackets ht hc, Query.ofLexemes_brackets ht c hdepth]
  refine ⟨hbehind, hbrackets, fun harray e options => Engine.search_congr ?_ e options⟩
  rw [hbehind, hbrackets, Query.applyPostfix, if_neg harray]

/-- `(a * b) seq` and `seq<a * b>` -/
theorem parse_spellings_tuple :
    Query.parse ": (a * b) seq" =
      .ok ⟨none, some [.generic (.atom "seq") [.tuple [.atom "a", .atom "b"]]]⟩ ∧
    Query.parse ": seq<a * b>" =
      .ok ⟨none, some [.generic (.atom "seq") [.tuple [.atom "a", .atom "b"]]]⟩ ∧
    (MemoryStore.empty.engine 10).search ": seq<a * b>" .none =
      ((MemoryStore.empty.engine 10).search ": (a * b) seq" .none).map fun response =>
        { response with query := ": seq<a * b>" } := by
  have ht : (TypeNode.tuple [.atom "a", .atom "b"]).isRenderable = true := by decide
  have hc : (TypeNode.atom "seq").isRenderable = true := by decide
  obtain ⟨hbehind, hbrackets, hsearch⟩ := parse_spellings ht (by decide) hc
  exact ⟨hbehind, hbrackets, hsearch (by decide) (MemoryStore.empty.engine 10) .none⟩

def arrayType : CatalogDocument :=
  { sampleType with methods := [⟨"f", some [.array (.keyword "int")]⟩] }

/-- The spellings `int array` and `array<int>` differ, and only the first finds a method of this
type. -/
theorem parse_spellings_array :
    (TypeNode.atom "int").isRenderable = true ∧
    Lexeme.nesting 0 (Lexeme.tokenize (TypeNode.atom "int").text) < Query.maxDepth ∧
    (TypeNode.atom "array").isRenderable = true ∧
    Query.parse (": " ++ (operandText (.atom "int") (TypeNode.atom "int").text ++ " " ++ "array")) =
      .ok ⟨none, some [.array (.atom "int")]⟩ ∧
    Query.parse (": " ++ ("array" ++ "<" ++ (TypeNode.atom "int").text ++ ">")) =
      .ok ⟨none, some [.generic (.atom "array") [.atom "int"]]⟩ ∧
    ((MemoryStore.empty.write [arrayType.toJson] 2).1.engine 10).search ": int array" .none =
      .ok ⟨": int array", none, none, some "int array", some (.bySignature
        [⟨.array [.object [("array", .string "int")]],
          .object [("name", .string "f"), ("type", sampleOwner)], some "int array"⟩])⟩ ∧
    ((MemoryStore.empty.write [arrayType.toJson] 2).1.engine 10).search ": array<int>" .none =
      .ok ⟨": array<int>", none, none, some "int array", some (.bySignature [])⟩ := by
  have hsorted : sortedSignatures false (signatures [arrayType.toJson]) =
      signatures [arrayType.toJson] := List.mergeSort_of_pairwise (by decide)
  have hbehind := search_signature
    (show Query.parse ": int array" = .ok ⟨none, some [.array (.atom "int")]⟩ from rfl)
    [arrayType.toJson] 2 10 .none
    (show Plan.ofPrototype [.array (.atom "int")] 10 = turnedPlan false _ from rfl)
  have hbrackets := search_signature
    (show Query.parse ": array<int>" = .ok ⟨none, some [.generic (.atom "array") [.atom "int"]]⟩
      from rfl)
    [arrayType.toJson] 2 10 .none
    (show Plan.ofPrototype [.generic (.atom "array") [.atom "int"]] 10 = turnedPlan false _
      from rfl)
  rw [hsorted] at hbehind hbrackets
  exact ⟨by decide, by decide, by decide, rfl, rfl, hbehind.trans (by decide),
    hbrackets.trans (by decide)⟩

end SignatureSearch
