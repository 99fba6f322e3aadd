import Mathlib
import SignatureSearch.Proofs.ReaderRuns
import SignatureSearch.Store.IndexStore

/-! The parts of a query. Its first two lexemes tell whether a query has a name, a signature, both or
neither, and this tells how it is answered: only a query of exactly one part is looked up in the
index. -/
namespace SignatureSearch

namespace Query

/-! ### Lexemes -/

/-- The name of a query: a lone lexeme, or one in front of a colon. -/
def nameOf : List Lexeme → Option String
  | [] => none
  | [t] => if t ∈ [.colon, .openParen] then none else some t.text
  | first :: second :: _ =>
    if first ∉ [.colon, .openParen] ∧ second = .colon then some first.text else none

def hasSignature : List Lexeme → Bool
  | [] => false
  | [t] => t ∈ [.colon, .openParen]
  | _ :: _ :: _ => true

/-- The name in front of a lexeme other than a colon belongs to the signature. -/
lemma read_named (name : String) (position : ℕ) {t : Lexeme} (ht : t ≠ .colon)
    (rest : List Lexeme) :
    read (.named name) position (t :: rest) =
      read (.signature (Reading.ofName name)) position (t :: rest) := by
  rw [read, read, Stage.step_named name ht]
  rfl

/-- The query has these parts. -/
def HasParts (q : Query) (ts : List Lexeme) : Prop :=
  q.name = nameOf ts ∧ q.prototype.isSome = hasSignature ts

lemma hasParts_of_signature {r : Reading} {position : ℕ} {w ts : List Lexeme} {f : Fragment}
    (h : read (.signature r) position w = .ok f) (hname : r.name = nameOf ts)
    (hts : hasSignature ts = true) : f.query.HasParts ts := by
  obtain ⟨prototype, hquery⟩ := read_signature h
  rw [hquery]
  exact ⟨hname, hts.symm⟩

lemma hasParts_of_read {ts : List Lexeme} {f : Fragment} (h : read .start 0 ts = .ok f) :
    f.query.HasParts ts := by
  cases ts with
  | nil =>
    cases h
    exact ⟨rfl, rfl⟩
  | cons first rest =>
    by_cases hcolon : first = .colon
    · subst hcolon
      have hread : read (.signature ⟨none, .empty, []⟩) 1 rest = .ok f := h
      cases rest <;> exact hasParts_of_signature hread (by simp [nameOf]) (by simp [hasSignature])
    by_cases hopen : first = .openParen
    · subst hopen
      rw [read, Stage.step_start_openParen] at h
      cases rest <;> exact hasParts_of_signature h (by simp [nameOf]) (by simp [hasSignature])
    -- Any other lexeme is taken as a name first.
    have hread : read (.named first.text) 1 rest = .ok f := by
      rw [read] at h
      cases first with
      | colon => exact absurd rfl hcolon
      | openParen => exact absurd rfl hopen
      | _ => exact h
    cases rest with
    | nil =>
      cases hread
      exact ⟨by simp [nameOf, hcolon, hopen, Stage.finish, Query.ofName],
        by simp [hasSignature, hcolon, hopen, Stage.finish, Query.ofName]⟩
    | cons second rest =>
      by_cases hsecond : second = .colon
      · subst hsecond
        have hbehind : read (.signature ⟨some first.text, .empty, []⟩) 2 rest = .ok f := hread
        exact hasParts_of_signature hbehind (by simp [nameOf, hcolon, hopen]) rfl
      · rw [read_named first.text 1 hsecond] at hread
        exact hasParts_of_signature hread (by simp [nameOf, hsecond, Reading.ofName]) rfl

/-- The first two lexemes tell which parts a query has. -/
theorem hasParts_of_lexemes {ts : List Lexeme} {q : Query} (h : ofLexemes ts = .ok q) :
    q.HasParts ts := by
  obtain ⟨f, hr, rfl⟩ := parseFragment_of_ofLexemes h
  exact hasParts_of_read hr

section HasParts

variable {q : Query} {ts : List Lexeme} (h : q.HasParts ts)
include h

lemma HasParts.without_signature_iff (name : Option String) :
    q = ⟨name, none⟩ ↔ nameOf ts = name ∧ hasSignature ts = false := by
  obtain ⟨hname, hsignature⟩ := h
  obtain ⟨name', prototype⟩ := q
  rw [← hname, ← hsignature]
  simp

lemma HasParts.with_signature_iff (name : Option String) :
    (∃ prototype, q = ⟨name, some prototype⟩) ↔ nameOf ts = name ∧ hasSignature ts = true := by
  obtain ⟨hname, hsignature⟩ := h
  obtain ⟨name', prototype⟩ := q
  rw [← hname, ← hsignature]
  simp [Option.isSome_iff_exists]

lemma HasParts.eq_empty_iff : q = .empty ↔ ts = [] := by
  rw [empty, h.without_signature_iff]
  rcases ts with _ | ⟨first, _ | ⟨second, rest⟩⟩
  · simp [nameOf, hasSignature]
  · by_cases hfirst : first ∈ [.colon, .openParen]
    · simp only [hasSignature, hfirst]
      simp
    · simp only [nameOf, hfirst]
      simp
  · simp [hasSignature]

lemma HasParts.eq_ofName_iff (name : String) :
    q = .ofName name ↔ ∃ t, ts = [t] ∧ t ∉ [.colon, .openParen] ∧ name = t.text := by
  rw [ofName, h.without_signature_iff]
  rcases ts with _ | ⟨first, _ | ⟨second, rest⟩⟩
  · simp [nameOf]
  · refine ⟨fun ⟨hname, hsignature⟩ => ?_, fun ⟨t, ht, hfirst, hname⟩ => ?_⟩
    · have hfirst : first ∉ [.colon, .openParen] := of_decide_eq_false hsignature
      rw [nameOf, if_neg hfirst, Option.some.injEq] at hname
      exact ⟨first, rfl, hfirst, hname.symm⟩
    · obtain rfl := List.singleton_inj.mp ht
      exact ⟨by rw [nameOf, if_neg hfirst, hname], decide_eq_false hfirst⟩
  · simp [hasSignature]

lemma HasParts.eq_both_iff (name : String) :
    (∃ prototype, q = ⟨some name, some prototype⟩) ↔
      ∃ first rest, ts = first :: .colon :: rest ∧ first ∉ [.colon, .openParen] ∧
        name = first.text := by
  rw [h.with_signature_iff]
  rcases ts with _ | ⟨first, _ | ⟨second, rest⟩⟩
  · simp [nameOf]
  · by_cases hfirst : first ∈ [.colon, .openParen] <;>
    · simp only [nameOf, hasSignature, hfirst]
      simp
  · by_cases hsecond : second = .colon
    · subst hsecond
      simp [nameOf, hasSignature, eq_comm, and_assoc]
    · simp [nameOf, hsecond]

lemma HasParts.eq_ofPrototype_iff :
    (∃ prototype, q = .ofPrototype prototype) ↔
      ts ≠ [] ∧ (∀ t, ts = [t] → t ∈ [.colon, .openParen]) ∧
        ∀ first rest, ts = first :: .colon :: rest → first ∈ [.colon, .openParen] := by
  simp only [ofPrototype]
  rw [h.with_signature_iff]
  rcases ts with _ | ⟨first, _ | ⟨second, rest⟩⟩
  · simp [hasSignature]
  · by_cases hfirst : first ∈ [.colon, .openParen]
    · simp only [nameOf, hasSignature, hfirst]
      simpa using hfirst
    · simp only [nameOf, hasSignature, hfirst]
      simpa using hfirst
  · by_cases hsecond : second = .colon
    · subst hsecond
      simp [nameOf, hasSignature, or_iff_not_imp_left]
    · simp [nameOf, hasSignature, hsecond]

end HasParts

def IsLookup (q : Query) : Prop :=
  (∃ name, q = .ofName name) ∨ ∃ prototype, q = .ofPrototype prototype

end Query

/-! ### Answers -/

namespace Engine

/-- What a search says when the index answers its scan so. -/
def respond (text : String) (options : SearchOptions) (q : Query) (plan : Plan)
    (found : Except Failure (List Row)) : Except SearchError SearchResponse :=
  match found with
  | .error failure => .error (.storage (failure.within ("Failed to scan " ++ plan.view.text)))
  | .ok rows => .ok ⟨text, options.token, q.name, q.prototype.map TypeNode.signatureText,
      some (plan.shapeRows rows)⟩

variable (e : Engine) {text : String} (options : SearchOptions)

/-- A query of one part is answered by one scan. -/
lemma search_lookup {q : Query} (h : Query.parse text = .ok q) (hq : q.IsLookup) :
    ∃ plan : Plan, ∀ scan : Scanner, (Engine.mk scan e.limit).search text options =
      respond text options q plan (scan plan.view plan.scan) := by
  obtain ⟨plan, hplan⟩ :
      ∃ plan, Plan.ofQuery q (options.effectiveLimit e.limit) = .scan plan := by
    rcases hq with ⟨name, rfl⟩ | ⟨prototype, rfl⟩ <;> exact ⟨_, rfl⟩
  refine ⟨plan, fun scan => ?_⟩
  rw [search, h]
  simp only [hplan]
  cases scan plan.view plan.scan <;> rfl

/-- How a query is answered, and a text that is refused. -/
inductive Answers (text : String) (options : SearchOptions) :
    Except ParseError Query → Except SearchError SearchResponse → Prop
  | refused (error : ParseError) : Answers text options (.error error) (.error (.parse error))
  | empty : Answers text options (.ok ⟨none, none⟩) (.ok ⟨text, options.token, none, none, none⟩)
  | both (name : String) (prototype : List TypeNode) :
      Answers text options (.ok ⟨some name, some prototype⟩) (.error .conflict)
  | failed {q : Query} (hq : q.IsLookup) (failure : Failure) :
      Answers text options (.ok q) (.error (.storage failure))
  | found {q : Query} (hq : q.IsLookup) {response : SearchResponse}
      (hresults : response.results ≠ none) : Answers text options (.ok q) (.ok response)

lemma Answers.of_lookup {q : Query} (h : Query.parse text = .ok q) (hq : q.IsLookup) :
    Answers text options (.ok q) (e.search text options) := by
  obtain ⟨plan, hsearch⟩ := e.search_lookup options h hq
  rw [hsearch e.scan]
  cases e.scan plan.view plan.scan with
  | error failure => exact .failed hq _
  | ok rows => exact .found hq (by simp)

/-- Every search ends in one of these ways. -/
theorem search_answers (text : String) :
    Answers text options (Query.parse text) (e.search text options) := by
  cases hparse : Query.parse text with
  | error error =>
    rw [search, hparse]
    exact .refused error
  | ok q =>
    obtain ⟨_ | name, _ | prototype⟩ := q
    · rw [search, hparse]
      exact .empty
    · exact .of_lookup e options hparse (.inr ⟨prototype, rfl⟩)
    · exact .of_lookup e options hparse (.inl ⟨name, rfl⟩)
    · rw [search, hparse]
      exact .both name prototype

/-- Without a lookup the parsed query determines the answer. -/
lemma Answers.unique {parsed : Except ParseError Query}
    {answer answer' : Except SearchError SearchResponse} (h : Answers text options parsed answer)
    (h' : Answers text options parsed answer') (hnone : ∀ q, parsed = .ok q → ¬q.IsLookup) :
    answer = answer' := by
  cases h with
  | failed hq | found hq => exact absurd hq (hnone _ rfl)
  | refused =>
    cases h' with
    | refused => rfl
  | empty =>
    cases h' with
    | empty => rfl
    | failed hq | found hq => exact absurd hq (hnone _ rfl)
  | both =>
    cases h' with
    | both => rfl
    | failed hq | found hq => exact absurd hq (hnone _ rfl)

/-- The answer to a query of one part tells an index that fails from an empty one. -/
lemma search_ne_of_lookup {q : Query} (h : Query.parse text = .ok q) (hq : q.IsLookup)
    (failure : Failure) :
    (Engine.mk (fun _ _ => .error failure) e.limit).search text options ≠
      (Engine.mk (fun _ _ => .ok []) e.limit).search text options := by
  obtain ⟨plan, hsearch⟩ := e.search_lookup options h hq
  rw [hsearch, hsearch]
  simp [respond]

lemma search_eq_parse_iff (error : ParseError) :
    e.search text options = .error (.parse error) ↔ Query.parse text = .error error := by
  have h := e.search_answers options text
  generalize Query.parse text = parsed, e.search text options = answer at h ⊢
  cases h <;> simp

lemma search_eq_conflict_iff :
    e.search text options = .error .conflict ↔
      ∃ name prototype, Query.parse text = .ok ⟨some name, some prototype⟩ := by
  have h := e.search_answers options text
  generalize Query.parse text = parsed, e.search text options = answer at h ⊢
  cases h with
  | failed hq | found hq =>
    obtain ⟨name, rfl⟩ | ⟨prototype, rfl⟩ := hq <;> simp [Query.ofName, Query.ofPrototype]
  | refused | empty | both => simp

lemma search_without_results_iff :
    (∃ response, e.search text options = .ok response ∧ response.results = none) ↔
      Query.parse text = .ok .empty := by
  have h := e.search_answers options text
  generalize Query.parse text = parsed, e.search text options = answer at h ⊢
  cases h with
  | failed hq =>
    obtain ⟨name, rfl⟩ | ⟨prototype, rfl⟩ := hq <;>
      simp [Query.ofName, Query.ofPrototype, Query.empty]
  | found hq hresults =>
    obtain ⟨name, rfl⟩ | ⟨prototype, rfl⟩ := hq <;>
      simp [hresults, Query.ofName, Query.ofPrototype, Query.empty]
  | refused | empty | both => simp [Query.empty]

end Engine

/-- The first two lexemes of a query decide what is searched: nothing without lexemes; a name, which
is the text of the only lexeme, unless that is a colon or an opening parenthesis; both if a colon
comes behind such a lexeme; and a signature in all other cases. Whatever the index is, a search fails
as the text is refused, with a conflict exactly if the query has both parts, and has no results
exactly if it has neither. It depends on the index exactly in the remaining cases. -/
theorem first_lexemes_decide :
    (∀ (ts : List Lexeme) (q : Query), Query.ofLexemes ts = .ok q →
      (q = .empty ↔ ts = []) ∧
      (∀ name, q = .ofName name ↔
        ∃ t, ts = [t] ∧ t ∉ [.colon, .openParen] ∧ name = t.text) ∧
      (∀ name, (∃ prototype, q = ⟨some name, some prototype⟩) ↔
        ∃ first rest, ts = first :: .colon :: rest ∧ first ∉ [.colon, .openParen] ∧
          name = first.text) ∧
      ((∃ prototype, q = .ofPrototype prototype) ↔
        ts ≠ [] ∧ (∀ t, ts = [t] → t ∈ [.colon, .openParen]) ∧
          ∀ first rest, ts = first :: .colon :: rest → first ∈ [.colon, .openParen])) ∧
    ∀ (text : String) (options : SearchOptions),
      (∀ e : Engine,
        (∀ error, e.search text options = .error (.parse error) ↔
          Query.parse text = .error error) ∧
        (e.search text options = .error .conflict ↔
          ∃ name prototype, Query.parse text = .ok ⟨some name, some prototype⟩) ∧
        ((∃ response, e.search text options = .ok response ∧ response.results = none) ↔
          Query.parse text = .ok .empty)) ∧
      ∀ limit : ℕ,
        (∃ scan scan' : Scanner, (Engine.mk scan limit).search text options ≠
          (Engine.mk scan' limit).search text options) ↔
        (∃ name, Query.parse text = .ok (.ofName name)) ∨
          ∃ prototype, Query.parse text = .ok (.ofPrototype prototype) := by
  refine ⟨fun ts q h => ?_, fun text options => ⟨fun e => ?_, fun limit => ?_⟩⟩
  · have hparts := Query.hasParts_of_lexemes h
    exact ⟨hparts.eq_empty_iff, hparts.eq_ofName_iff, hparts.eq_both_iff,
      hparts.eq_ofPrototype_iff⟩
  · exact ⟨e.search_eq_parse_iff options, e.search_eq_conflict_iff options,
      e.search_without_results_iff options⟩
  · constructor
    · rintro ⟨scan, scan', hne⟩
      by_contra hnone
      refine hne ((Engine.search_answers _ options text).unique options
        (Engine.search_answers _ options text) ?_)
      rintro q hparse (⟨name, rfl⟩ | ⟨prototype, rfl⟩)
      · exact hnone (.inl ⟨name, hparse⟩)
      · exact hnone (.inr ⟨prototype, hparse⟩)
    · intro hlookup
      obtain ⟨q, hparse, hq⟩ : ∃ q, Query.parse text = .ok q ∧ q.IsLookup := by
        rcases hlookup with ⟨name, hparse⟩ | ⟨prototype, hparse⟩
        · exact ⟨_, hparse, .inl ⟨name, rfl⟩⟩
        · exact ⟨_, hparse, .inr ⟨prototype, rfl⟩⟩
      -- An index that is missing and one without rows are told apart.
      exact ⟨_, _, Engine.search_ne_of_lookup (.mk (fun _ _ => .ok []) limit) options hparse hq
        (.ofCause .noIndex)⟩

/-- `f : a` has both parts, which is a conflict even where there is no index, and `f` is looked up. -/
theorem first_lexemes_decide_sample :
    Query.ofLexemes [.name "f", .colon, .name "a"] = .ok ⟨some "f", some [.atom "a"]⟩ ∧
      (∃ first rest, [.name "f", .colon, .name "a"] = first :: Lexeme.colon :: rest ∧
        first ∉ [.colon, .openParen] ∧ "f" = first.text) ∧
      ((IndexStore.under "r").engine .empty 10).search "f : a" .none = .error .conflict ∧
      ∃ scan scan' : Scanner, (Engine.mk scan 10).search "f" .none ≠
        (Engine.mk scan' 10).search "f" .none := by
  have hread : Query.ofLexemes [.name "f", .colon, .name "a"] =
      .ok ⟨some "f", some [.atom "a"]⟩ := rfl
  obtain ⟨hparts, hsearch⟩ := first_lexemes_decide
  obtain ⟨-, -, hboth, -⟩ := hparts _ _ hread
  have hconflict := ((hsearch "f : a" .none).1 ((IndexStore.under "r").engine .empty 10)).2.1
  exact ⟨hread, (hboth "f").mp ⟨_, rfl⟩, hconflict.mpr ⟨"f", [.atom "a"], rfl⟩,
    ((hsearch "f" .none).2 10).mpr (.inl ⟨"f", rfl⟩)⟩

end SignatureSearch
