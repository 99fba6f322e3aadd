import Mathlib
import SignatureSearch.Query.Parser

/-! The moves of the reader inside a signature. A lexeme is accepted exactly if one of ten moves
applies to it, and each move says what has been read and which groups are open afterwards. -/
namespace SignatureSearch.Query

/-- A type can come next. -/
def Level.Awaits (l : Level) : Prop := ∀ earlier last, l.slot ≠ .suffix earlier last

/-- The level can end here. -/
def Level.Complete (l : Level) : Prop := l.slot ≠ .type

lemma Level.complete_of_suffix {l : Level} {earlier : List TypeNode} {last : TypeNode}
    (h : l.slot = .suffix earlier last) : l.Complete := by
  intro ht
  rw [ht] at h
  cases h

namespace Reading

/-- What an accepted lexeme does to a reading. -/
inductive Moves (r : Reading) : Lexeme → Step → Prop
  | name (name : String) (h : r.level.Awaits) :
      Moves r (.name name) (.next (.signature { r with level := r.level.addType (.atom name) }))
  | openGroup (h : r.level.Awaits) (hd : r.frames.length < maxDepth) :
      Moves r .openParen (.next (.signature
        { r with level := .empty, frames := .group r.level :: r.frames }))
  | arrow (h : r.level.Complete) : Moves r .arrow (.next (.signature r.nextElement))
  | finish (h : r.level.Complete) (hf : r.frames = []) : Moves r .closeParen (.closed r.finish)
  | closeGroup {outer : Level} {frames : List Frame} (h : r.level.Complete)
      (hf : r.frames = .group outer :: frames) :
      Moves r .closeParen (.next (.signature
        { r with level := (Frame.group outer).close r.level.finish, frames := frames }))
  | nextArgument {outer : Level} {args : List TypeNode} {frames : List Frame}
      (h : r.level.Complete) (hf : r.frames = .arguments outer args :: frames) :
      Moves r .comma (.next (.signature
        { r with
          level := .empty
          frames := .arguments outer (addArgument args r.level.finish) :: frames }))
  | closeArguments {outer : Level} {args : List TypeNode} {frames : List Frame}
      (h : r.level.Complete) (hf : r.frames = .arguments outer args :: frames) :
      Moves r .greater (.next (.signature
        { r with level := (Frame.arguments outer args).close r.level.finish, frames := frames }))
  | star {earlier : List TypeNode} {last : TypeNode} (h : r.level.slot = .suffix earlier last) :
      Moves r .star (.next (.signature
        { r with level := { r.level with slot := .component earlier last } }))
  | openArguments {earlier : List TypeNode} {last : TypeNode}
      (h : r.level.slot = .suffix earlier last) (hd : r.frames.length < maxDepth) :
      Moves r .less (.next (.signature
        { r with level := .empty, frames := .arguments r.level [] :: r.frames }))
  | constructor (con : String) {earlier : List TypeNode} {last : TypeNode}
      (h : r.level.slot = .suffix earlier last) :
      Moves r (.name con) (.next (.signature
        { r with level := r.level.mapLast (applyPostfix con) }))

variable {r : Reading} {t : Lexeme} {s : Step} {position : ℕ}

lemma moves_of_close? (h : r.level.Complete) (hs : r.close? t = some s) : r.Moves t s := by
  unfold close? at hs
  split at hs
  · next hf =>
    cases hs
    exact .finish h hf
  · next hf =>
    cases hs
    exact .closeGroup h hf
  · next hf =>
    cases hs
    exact .nextArgument h hf
  · next hf =>
    cases hs
    exact .closeArguments h hf
  · cases hs

lemma openGroup_eq (frame : Frame) (hd : r.frames.length < maxDepth) :
    r.openGroup frame position =
      .ok { r with level := .empty, frames := frame :: r.frames } := if_pos hd

lemma openGroup_ok {frame : Frame} {r' : Reading} (h : r.openGroup frame position = .ok r') :
    r.frames.length < maxDepth ∧ r' = { r with level := .empty, frames := frame :: r.frames } := by
  unfold openGroup at h
  split_ifs at h with hd
  exact ⟨hd, (Except.ok.inj h).symm⟩

lemma moves_of_stepType (h : r.level.Awaits) (hs : r.stepType position t = .ok s) :
    r.Moves t s := by
  unfold stepType at hs
  split at hs
  · cases ho : r.openGroup (.group r.level) position with
    | error e => simp [ho, Except.map] at hs
    | ok r' =>
      rw [ho] at hs
      cases hs
      obtain ⟨hd, rfl⟩ := openGroup_ok ho
      exact .openGroup h hd
  · cases hs
    exact .name _ h
  · cases hs

lemma moves_of_step (hs : r.step position t = .ok s) : r.Moves t s := by
  unfold step at hs
  split at hs
  · next hslot =>
    refine moves_of_stepType (fun earlier last h => ?_) hs
    simp [hslot] at h
  · next earlier last hslot =>
    have hawaits : r.level.Awaits := fun earlier last h => by simp [hslot] at h
    have hcomplete : r.level.Complete := fun h => by simp [hslot] at h
    split_ifs at hs with harrow
    · subst harrow
      cases hs
      exact .arrow hcomplete
    · split at hs
      · next hclose =>
        cases hs
        exact moves_of_close? hcomplete hclose
      · exact moves_of_stepType hawaits hs
  · next earlier last hslot =>
    have hcomplete := Level.complete_of_suffix hslot
    split_ifs at hs with harrow
    · subst harrow
      cases hs
      exact .arrow hcomplete
    · split at hs
      · next hclose =>
        cases hs
        exact moves_of_close? hcomplete hclose
      · split at hs
        · cases hs
          exact .star hslot
        · cases ho : r.openGroup (.arguments r.level []) position with
          | error e => simp [ho, Except.map] at hs
          | ok r' =>
            rw [ho] at hs
            cases hs
            obtain ⟨hd, rfl⟩ := openGroup_ok ho
            exact .openArguments hslot hd
        · cases hs
          exact .constructor _ hslot
        · cases hs

/-- A step of a complete level on a lexeme that closes. -/
lemma step_of_close? (h : r.level.Complete) (ht : t ≠ .arrow) (hs : r.close? t = some s) :
    r.step position t = .ok s := by
  unfold step
  cases hslot : r.level.slot with
  | type => exact absurd hslot h
  | component earlier last | suffix earlier last => simp [ht, hs]

lemma step_of_awaits (h : r.level.Awaits) (ht : t ≠ .arrow) (hs : r.close? t = none) :
    r.step position t = r.stepType position t := by
  unfold step
  cases hslot : r.level.slot with
  | type => rfl
  | component earlier last => simp [ht, hs]
  | suffix earlier last => exact absurd hslot (h earlier last)

/-- A lexeme is accepted exactly if a move applies. -/
theorem step_ok_iff : r.step position t = .ok s ↔ r.Moves t s := by
  refine ⟨moves_of_step, fun h => ?_⟩
  obtain ⟨name, level, frames⟩ := r
  cases h with
  | name name h => rw [step_of_awaits h (by simp) (by simp [close?])]; rfl
  | openGroup h hd =>
    rw [step_of_awaits h (by simp) (by simp [close?]), stepType, openGroup_eq _ hd]
    rfl
  | arrow h =>
    unfold step
    cases hslot : level.slot with
    | type => exact absurd hslot h
    | component earlier last | suffix earlier last => simp
  | finish h hf | closeGroup h hf | nextArgument h hf | closeArguments h hf =>
    subst hf
    exact step_of_close? h (by simp) rfl
  | star h | constructor con h =>
    simp only at h
    unfold step
    simp [h, close?, withLevel]
  | openArguments h hd =>
    simp only at h
    unfold step
    simp [h, close?, openGroup_eq _ hd, Except.map]

/-- A signature that is not closed is read on. -/
lemma Moves.next_signature {stage : Stage} (h : r.Moves t (.next stage)) :
    ∃ r', stage = .signature r' := by
  cases h <;> exact ⟨_, rfl⟩

lemma Moves.name_eq {r' : Reading} (h : r.Moves t (.next (.signature r'))) : r'.name = r.name := by
  cases h <;> rfl

lemma Moves.closed_eq {q : Query} (h : r.Moves t (.closed q)) :
    ∃ prototype, q = ⟨r.name, some prototype⟩ := by
  cases h with
  | finish hc hf => exact ⟨_, rfl⟩

end Reading

/-- Inside a signature the name is settled. -/
theorem read_signature {r : Reading} {position : ℕ} {w : List Lexeme} {f : Fragment}
    (h : read (.signature r) position w = .ok f) :
    ∃ prototype, f.query = ⟨r.name, some prototype⟩ := by
  induction w generalizing r position with
  | nil =>
    cases h
    exact ⟨_, rfl⟩
  | cons t rest ih =>
    rw [read] at h
    cases hs : Stage.step (.signature r) position t with
    | error e => simp [hs] at h
    | ok step =>
      have hm : r.Moves t step := Reading.step_ok_iff.mp hs
      rw [hs] at h
      cases step with
      | closed q =>
        cases h
        exact hm.closed_eq
      | next stage =>
        obtain ⟨r', rfl⟩ := hm.next_signature
        obtain ⟨prototype, hquery⟩ := ih h
        exact ⟨prototype, by rw [hquery, hm.name_eq]⟩

/-- Lexemes that are read as a query begin with its fragment. -/
lemma parseFragment_of_ofLexemes {tokens : List Lexeme} {q : Query} (h : ofLexemes tokens = .ok q) :
    ∃ f, parseFragment tokens 0 = .ok f ∧ f.query = q := by
  rw [ofLexemes] at h
  cases hr : parseFragment tokens 0 with
  | error e => simp [hr, Except.map] at h
  | ok f =>
    rw [hr] at h
    cases h
    exact ⟨f, rfl, rfl⟩

end SignatureSearch.Query
