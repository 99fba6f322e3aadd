import Mathlib
import SignatureSearch.Proofs.ReaderRuns

/-! Open groups. Which groups are open behind the lexemes of a query, and whether a type can come
there, can be told from the lexemes alone. The reader keeps exactly these groups, never more than
are allowed. -/
namespace SignatureSearch

namespace Lexeme

/-- The lexemes that close the open groups, innermost first, after one more lexeme. -/
def closersAfter (closers : List Lexeme) : Lexeme → List Lexeme
  | .openParen => .closeParen :: closers
  | .less => .greater :: closers
  | .closeParen => closers.tail
  | .greater => closers.tail
  | _ => closers

/-- The lexemes that close the groups left open, innermost first. A first lexeme other than `(`
opens none: it is a colon or stands for a name. -/
def closers : List Lexeme → List Lexeme
  | [] => []
  | first :: rest => rest.foldl closersAfter (if first = .openParen then [.closeParen] else [])

def precedesType (t : Lexeme) : Bool := t ∈ [.colon, .openParen, .arrow, .star, .less, .comma]

/-- Whether a type can come behind the lexemes. A first lexeme stands for a name, unless it is `:`
or `(`. -/
def awaitsType : List Lexeme → Bool
  | [] => true
  | first :: rest =>
    match rest.getLast? with
    | none => first ∈ [.colon, .openParen]
    | some t => t.precedesType

/-- The lexeme opens a group behind these: a parenthesis where a type can come, or type arguments
behind a type. -/
def OpensGroup (before : List Lexeme) (t : Lexeme) : Prop :=
  t = .openParen ∧ awaitsType before = true ∨ t = .less ∧ awaitsType before = false

variable {w : List Lexeme}

lemma closers_snoc (h : w ≠ []) (t : Lexeme) : closers (w ++ [t]) = closersAfter (closers w) t := by
  cases w with
  | nil => exact absurd rfl h
  | cons first rest => simp [closers]

lemma awaitsType_snoc (h : w ≠ []) (t : Lexeme) : awaitsType (w ++ [t]) = t.precedesType := by
  cases w with
  | nil => exact absurd rfl h
  | cons first rest => simp [awaitsType]

end Lexeme

namespace Query

open Lexeme

lemma Level.not_awaits_iff {l : Level} :
    ¬l.Awaits ↔ ∃ earlier last, l.slot = .suffix earlier last := by
  simp [Level.Awaits]

lemma Level.not_awaits_addType {l : Level} (h : l.Awaits) (node : TypeNode) :
    ¬(l.addType node).Awaits := by
  obtain ⟨elements, slot⟩ := l
  cases slot with
  | type | component earlier last => simp [Level.Awaits, Level.addType]
  | suffix earlier last => exact absurd rfl (h earlier last)

lemma Level.not_awaits_mapLast {l : Level} (h : ¬l.Awaits) (f : TypeNode → TypeNode) :
    ¬(l.mapLast f).Awaits := by
  obtain ⟨earlier, last, hs⟩ := Level.not_awaits_iff.mp h
  simp [Level.Awaits, Level.mapLast, hs]

lemma Level.complete_of_not_awaits {l : Level} (h : ¬l.Awaits) : l.Complete := by
  obtain ⟨earlier, last, hs⟩ := Level.not_awaits_iff.mp h
  exact Level.complete_of_suffix hs

def Frame.closer : Frame → Lexeme
  | .group _ => .closeParen
  | .arguments _ _ => .greater

/-- A parenthesis stands where a type can come, and type arguments behind a type. -/
def Frame.InPlace : Frame → Prop
  | .group outer => outer.Awaits
  | .arguments outer _ => ¬outer.Awaits

/-- A closed group is a type that can be extended. -/
lemma Frame.not_awaits_close {frame : Frame} (h : frame.InPlace) (elements : List TypeNode) :
    ¬(frame.close elements).Awaits := by
  cases frame with
  | group outer => exact Level.not_awaits_addType h _
  | arguments outer args => exact Level.not_awaits_mapLast h _

/-- The reading agrees with the lexemes before it on what is open and on what can come. -/
structure Reading.Behind (r : Reading) (w : List Lexeme) : Prop where
  started : w ≠ []
  awaits : r.level.Awaits ↔ awaitsType w = true
  incomplete : ¬r.level.Complete → ∃ t ∈ [.arrow, .openParen, .less, .comma, .colon],
    w.getLast? = some t
  frames : ∀ frame ∈ r.frames, frame.InPlace
  closers : r.frames.map Frame.closer = closers w
  depth : r.frames.length ≤ maxDepth

def Stage.Behind : Stage → List Lexeme → Prop
  | .start, w => w = []
  | .named name, w => (Reading.ofName name).Behind w
  | .signature r, w => r.Behind w

namespace Reading.Behind

variable {r r' : Reading} {w : List Lexeme} {t : Lexeme}

/-- Behind a lexeme that leaves a type complete. -/
lemma next_suffix (h : r.Behind w) (hs : ¬r'.level.Awaits) (ht : t.precedesType = false)
    (hf : ∀ frame ∈ r'.frames, frame.InPlace)
    (hc : r'.frames.map Frame.closer = closersAfter (r.frames.map Frame.closer) t)
    (hd : r'.frames.length ≤ maxDepth) : r'.Behind (w ++ [t]) where
  started := by simp
  awaits := by simp [hs, awaitsType_snoc h.started, ht]
  incomplete := fun hi => absurd (Level.complete_of_not_awaits hs) hi
  frames := hf
  closers := by rw [hc, h.closers, closers_snoc h.started]
  depth := hd

/-- Behind a lexeme after which a type must come. -/
lemma next_type (h : r.Behind w) (hs : r'.level.slot = .type)
    (ht : t ∈ [.arrow, .openParen, .less, .comma, .colon])
    (hf : ∀ frame ∈ r'.frames, frame.InPlace)
    (hc : r'.frames.map Frame.closer = closersAfter (r.frames.map Frame.closer) t)
    (hd : r'.frames.length ≤ maxDepth) : r'.Behind (w ++ [t]) where
  started := by simp
  awaits := by
    have hp : t.precedesType = true := by
      simp only [List.mem_cons, List.not_mem_nil, or_false] at ht
      rcases ht with rfl | rfl | rfl | rfl | rfl <;> rfl
    simp [Level.Awaits, hs, awaitsType_snoc h.started, hp]
  incomplete := fun _ => ⟨t, ht, by simp⟩
  frames := hf
  closers := by rw [hc, h.closers, closers_snoc h.started]
  depth := hd

/-- One lexeme keeps the agreement. -/
theorem step (h : r.Behind w) (hm : r.Moves t (.next (.signature r'))) : r'.Behind (w ++ [t]) := by
  obtain ⟨name, level, frames⟩ := r
  have hframes := h.frames
  have hdepth := h.depth
  cases hm with
  | name name ha => exact h.next_suffix (Level.not_awaits_addType ha _) rfl hframes rfl hdepth
  | openGroup ha hd =>
    exact h.next_type rfl (by simp) (List.forall_mem_cons.mpr ⟨ha, hframes⟩) rfl hd
  | arrow hc => exact h.next_type rfl (by simp) hframes rfl hdepth
  | closeGroup hc hf =>
    obtain rfl := hf
    obtain ⟨hframe, hrest⟩ := List.forall_mem_cons.mp hframes
    exact h.next_suffix (Frame.not_awaits_close hframe _) rfl hrest rfl (Nat.le_of_succ_le hdepth)
  | nextArgument hc hf =>
    obtain rfl := hf
    obtain ⟨hframe, hrest⟩ := List.forall_mem_cons.mp hframes
    exact h.next_type rfl (by simp) (List.forall_mem_cons.mpr ⟨hframe, hrest⟩) rfl hdepth
  | closeArguments hc hf =>
    obtain rfl := hf
    obtain ⟨hframe, hrest⟩ := List.forall_mem_cons.mp hframes
    exact h.next_suffix (Frame.not_awaits_close hframe _) rfl hrest rfl (Nat.le_of_succ_le hdepth)
  | star hs =>
    exact
      { started := by simp
        awaits := by simp [Level.Awaits, awaitsType_snoc h.started, precedesType]
        incomplete := fun hi => absurd (by simp [Level.Complete]) hi
        frames := hframes
        closers := by rw [closers_snoc h.started, ← h.closers]; rfl
        depth := hdepth }
  | openArguments hs hd =>
    have ha : ¬level.Awaits := Level.not_awaits_iff.mpr ⟨_, _, hs⟩
    exact h.next_type rfl (by simp) (List.forall_mem_cons.mpr ⟨ha, hframes⟩) rfl hd
  | constructor con hs =>
    have ha : ¬level.Awaits := Level.not_awaits_iff.mpr ⟨_, _, hs⟩
    exact h.next_suffix (Level.not_awaits_mapLast ha _) rfl hframes rfl hdepth

lemma ofName {t : Lexeme} (hcolon : t ≠ .colon) (hopen : t ≠ .openParen) (name : String) :
    (Reading.ofName name).Behind [t] where
  started := by simp
  awaits := by simp [Reading.ofName, Level.Awaits, awaitsType, hcolon, hopen]
  incomplete := by simp [Reading.ofName, Level.Complete]
  frames := by simp [Reading.ofName]
  closers := by simp [Reading.ofName, Lexeme.closers, hopen]
  depth := by simp [Reading.ofName]

lemma colon : (Reading.mk none .empty []).Behind [.colon] where
  started := by simp
  awaits := by simp [Level.Awaits, Level.empty, awaitsType]
  incomplete := by simp
  frames := by simp
  closers := rfl
  depth := by simp

lemma openParen : (Reading.mk none .empty [.group .empty]).Behind [.openParen] where
  started := by simp
  awaits := by simp [Level.Awaits, Level.empty, awaitsType]
  incomplete := by simp
  frames := by simp [Frame.InPlace, Level.Awaits, Level.empty]
  closers := rfl
  depth := by simp [maxDepth]

end Reading.Behind

namespace Stage.Behind

variable {s s' : Stage} {w v : List Lexeme} {t : Lexeme} {position : ℕ}

lemma step (h : s.Behind w) (hs : s.step position t = .ok (.next s')) : s'.Behind (w ++ [t]) := by
  have hreading {r : Reading} (hr : r.Behind w) (hn : r.step position t = .ok (.next s')) :
      s'.Behind (w ++ [t]) := by
    have hm := Reading.step_ok_iff.mp hn
    obtain ⟨r', rfl⟩ := hm.next_signature
    exact hr.step hm
  cases s with
  | start =>
    obtain rfl : w = [] := h
    cases t with
    | colon =>
      cases hs
      exact .colon
    | openParen =>
      rw [step_start_openParen] at hs
      cases hs
      exact .openParen
    | _ =>
      cases hs
      exact .ofName (by simp) (by simp) _
  | named name =>
    by_cases hcolon : t = .colon
    · subst hcolon
      cases hs
      exact Reading.Behind.next_type h rfl (by simp) (by simp) rfl (by simp)
    · rw [step_named name hcolon] at hs
      exact hreading h hs
  | signature r => exact hreading h hs

/-- A whole run keeps the agreement. -/
theorem runs (h : s.Behind w) (hr : s.Runs v s') : s'.Behind (w ++ v) := by
  induction hr generalizing w with
  | nil s => rwa [List.append_nil]
  | cons hs hr ih =>
    have hrest := ih (h.step (hs 0))
    rwa [List.append_assoc] at hrest

end Stage.Behind

lemma behind_of_runs {s : Stage} {w : List Lexeme} (h : Stage.start.Runs w s) : s.Behind w := by
  have hstart : Stage.start.Behind [] := rfl
  exact hstart.runs h

end Query

end SignatureSearch
