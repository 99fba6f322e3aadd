import Mathlib
import SignatureSearch.Proofs.OpenGroups

/-! Drafts of signatures. A level can be kept as one list, whose last element is the one in work,
with a mark on a tuple that takes further components. The operations on such a list do nothing if
there is no element, or no tuple, at its end. The reader only ever needs them where they find what
they change, and then they do what the reader does. -/
namespace SignatureSearch.Query

/-- The list with another last element; `none` if there is none, or nothing to put in its place. -/
def changeLast? (nodes : List TypeNode) (f : TypeNode → Option TypeNode) : Option (List TypeNode) :=
  match nodes.getLast? with
  | none => none
  | some last => (f last).map fun node => nodes.dropLast ++ [node]

@[simp] lemma changeLast?_concat (front : List TypeNode) (last : TypeNode)
    (f : TypeNode → Option TypeNode) :
    changeLast? (front ++ [last]) f = (f last).map fun node => front ++ [node] := by
  simp [changeLast?]

structure Draft where
  elements : List TypeNode
  /-- The last element is a tuple that takes further components. -/
  openTuple : Bool
  deriving Repr

namespace Draft

def empty : Draft := ⟨[], false⟩

def push (d : Draft) (node : TypeNode) : Draft := ⟨d.elements ++ [node], false⟩

def pushComponent? (d : Draft) (node : TypeNode) : Option Draft :=
  (changeLast? d.elements fun
    | .tuple components => some (.tuple (components ++ [node]))
    | _ => none).map fun elements => { d with elements := elements }

def beginTuple? (d : Draft) : Option Draft :=
  (changeLast? d.elements fun last =>
    some (if d.openTuple && last.isTuple then last else .tuple [last])).map (⟨·, true⟩)

/-- Changes what constructors behind it apply to: the last component of an open tuple, else the last
element. -/
def changeRunning? (d : Draft) (f : TypeNode → TypeNode) : Option Draft :=
  (changeLast? d.elements fun last =>
    match d.openTuple, last with
    | true, .tuple components => (changeLast? components fun node => some (f node)).map .tuple
    | _, last => some (f last)).map fun elements => { d with elements := elements }

/-- Ends the open tuple. A single component is no tuple. -/
def closeTuple (d : Draft) : Draft :=
  if d.openTuple then
    let elements := changeLast? d.elements fun
      | .tuple [only] => some only
      | last => some last
    ⟨elements.getD d.elements, false⟩
  else d

lemma closeTuple_concat (front earlier : List TypeNode) (last : TypeNode) :
    closeTuple ⟨front ++ [.tuple (earlier ++ [last])], true⟩ =
      ⟨front ++ [joinComponents earlier last], false⟩ := by
  cases earlier with
  | nil => simp [closeTuple, joinComponents]
  | cons first rest =>
    -- The tuple is only taken apart if it is seen to have one component, so a second one is named.
    have hmany : first :: rest ++ [last] = first :: (rest ++ [last]) := rfl
    cases hrest : rest ++ [last] with
    | nil => simp at hrest
    | cons second more => simp [closeTuple, joinComponents, hmany, hrest]

end Draft

namespace Level

/-- The level with its element in work at the end of the list. -/
def draft (l : Level) : Draft :=
  match l.slot with
  | .type => ⟨l.elements, false⟩
  | .component earlier last => ⟨l.elements ++ [.tuple (earlier ++ [last])], true⟩
  | .suffix earlier last => ⟨l.elements ++ [joinComponents earlier last], !earlier.isEmpty⟩

variable {l : Level} {earlier : List TypeNode} {last : TypeNode}

lemma draft_suffix_single (h : l.slot = .suffix [] last) :
    l.draft = ⟨l.elements ++ [last], false⟩ := by
  simp [draft, h, joinComponents]

lemma draft_suffix_tuple (hne : earlier ≠ []) (h : l.slot = .suffix earlier last) :
    l.draft = ⟨l.elements ++ [.tuple (earlier ++ [last])], true⟩ := by
  simp [draft, h, joinComponents, hne]

lemma draft_component (h : l.slot = .component earlier last) :
    l.draft = ⟨l.elements ++ [.tuple (earlier ++ [last])], true⟩ := by
  simp [draft, h]

lemma draft_addType (h : l.slot = .type) (node : TypeNode) :
    (l.addType node).draft = l.draft.push node := by
  simp [addType, draft, h, Draft.push, joinComponents]

lemma pushComponent?_draft (h : l.slot = .component earlier last) (node : TypeNode) :
    l.draft.pushComponent? node = some (l.addType node).draft := by
  have hnext : (l.addType node).slot = .suffix (earlier ++ [last]) node := by simp [addType, h]
  have helements : (l.addType node).elements = l.elements := by simp [addType, h]
  rw [draft_component h, draft_suffix_tuple (by simp) hnext, helements]
  simp [Draft.pushComponent?]

lemma beginTuple?_draft (h : l.slot = .suffix earlier last) :
    l.draft.beginTuple? = some { l with slot := .component earlier last : Level }.draft := by
  rw [draft_component (l := { l with slot := .component earlier last }) rfl]
  by_cases hne : earlier = []
  · subst hne
    rw [draft_suffix_single h]
    simp [Draft.beginTuple?]
  · rw [draft_suffix_tuple hne h]
    simp [Draft.beginTuple?, TypeNode.isTuple]

lemma changeRunning?_draft (h : l.slot = .suffix earlier last) (f : TypeNode → TypeNode) :
    l.draft.changeRunning? f = some (l.mapLast f).draft := by
  have hnext : (l.mapLast f).slot = .suffix earlier (f last) := by simp [mapLast, h]
  have helements : (l.mapLast f).elements = l.elements := by simp [mapLast, h]
  by_cases hne : earlier = []
  · subst hne
    rw [draft_suffix_single h, draft_suffix_single hnext, helements]
    simp [Draft.changeRunning?]
  · rw [draft_suffix_tuple hne h, draft_suffix_tuple hne hnext, helements]
    simp [Draft.changeRunning?]

/-- Ending the tuple of a draft leaves the elements of the finished level. -/
lemma closeTuple_draft (l : Level) : l.draft.closeTuple = ⟨l.finish, false⟩ := by
  cases h : l.slot with
  | type => simp [draft, h, finish, Draft.closeTuple]
  | component earlier last =>
    rw [draft_component h, Draft.closeTuple_concat]
    simp [finish, h]
  | suffix earlier last =>
    by_cases hne : earlier = []
    · subst hne
      rw [draft_suffix_single h]
      simp [finish, h, Draft.closeTuple, joinComponents]
    · rw [draft_suffix_tuple hne h, Draft.closeTuple_concat]
      simp [finish, h]

def addDraft? (l : Level) (node : TypeNode) : Option Draft :=
  match l.slot with
  | .type => some (l.draft.push node)
  | .component _ _ => l.draft.pushComponent? node
  | .suffix _ _ => none

def changeDraft? (l : Level) (f : TypeNode → TypeNode) : Option Draft :=
  match l.slot with
  | .suffix _ _ => l.draft.changeRunning? f
  | _ => none

lemma addDraft?_eq (h : l.Awaits) (node : TypeNode) :
    l.addDraft? node = some (l.addType node).draft := by
  unfold addDraft?
  cases hs : l.slot with
  | type => exact congrArg some (draft_addType hs node).symm
  | component earlier last => exact pushComponent?_draft hs node
  | suffix earlier last => exact absurd hs (h earlier last)

lemma changeDraft?_eq (h : ¬l.Awaits) (f : TypeNode → TypeNode) :
    l.changeDraft? f = some (l.mapLast f).draft := by
  obtain ⟨earlier, last, hs⟩ := not_awaits_iff.mp h
  rw [changeDraft?, hs]
  exact changeRunning?_draft hs f

end Level

def Frame.closeDraft? (frame : Frame) (elements : List TypeNode) : Option Draft :=
  match frame with
  | .group outer => outer.addDraft? (groupNode elements)
  | .arguments outer args => outer.changeDraft? fun con => .generic con (addArgument args elements)

lemma Frame.closeDraft?_eq {frame : Frame} (h : frame.InPlace) (elements : List TypeNode) :
    frame.closeDraft? elements = some (frame.close elements).draft := by
  cases frame with
  | group outer => exact Level.addDraft?_eq h _
  | arguments outer args => exact Level.changeDraft?_eq h _

def finishDraft? : Draft → List Frame → Option Draft
  | d, [] => some d.closeTuple
  | d, frame :: frames => (frame.closeDraft? d.closeTuple.elements).bind (finishDraft? · frames)

lemma finishDraft?_eq (l : Level) (frames : List Frame) (h : ∀ frame ∈ frames, frame.InPlace) :
    finishDraft? l.draft frames = some ⟨finishAll l.finish frames, false⟩ := by
  induction frames generalizing l with
  | nil => rw [finishDraft?, l.closeTuple_draft, finishAll]
  | cons frame frames ih =>
    obtain ⟨hframe, hframes⟩ := List.forall_mem_cons.mp h
    rw [finishDraft?, l.closeTuple_draft, Frame.closeDraft?_eq hframe, Option.bind_some,
      ih _ hframes, finishAll]

namespace Reading

/-- The draft of the level that is read behind one more lexeme, if the lexeme can come here; `none`
if the operation that it needs finds nothing to change. -/
def draft? (r : Reading) (t : Lexeme) : Option Draft :=
  match t, r.level.slot with
  | .name name, .type => some (r.level.draft.push (.atom name))
  | .name name, .component _ _ => r.level.draft.pushComponent? (.atom name)
  | .name con, .suffix _ _ => r.level.draft.changeRunning? (applyPostfix con)
  | .star, .suffix _ _ => r.level.draft.beginTuple?
  | .arrow, _ => some r.level.draft.closeTuple
  | .openParen, _ | .less, _ | .comma, _ => some .empty
  | .closeParen, _ | .greater, _ =>
    match r.frames with
    | [] => none
    | frame :: _ => frame.closeDraft? r.level.draft.closeTuple.elements
  | _, _ => none

/-- The reader needs no operation that finds nothing to change. Behind a type there is an element,
inside a tuple the last one is an open tuple, and the end of each open group has its effect on the
level around it. -/
structure Drafted (r : Reading) : Prop where
  suffix : ∀ {earlier last}, r.level.slot = .suffix earlier last → r.level.draft.elements ≠ []
  component : ∀ {earlier last}, r.level.slot = .component earlier last →
    r.level.draft.openTuple = true ∧
      ∃ components, r.level.draft.elements.getLast? = some (.tuple components)
  next : ∀ {position t r'}, r.step position t = .ok (.next (.signature r')) →
    r.draft? t = some r'.level.draft
  finish : finishDraft? r.level.draft r.frames = some ⟨finishAll r.level.finish r.frames, false⟩

variable {r r' : Reading} {t : Lexeme}

/-- A move does to the draft what it does to the level. -/
theorem draft?_of_moves (h : ∀ frame ∈ r.frames, frame.InPlace)
    (hm : r.Moves t (.next (.signature r'))) : r.draft? t = some r'.level.draft := by
  obtain ⟨name, level, frames⟩ := r
  cases hm with
  | name name ha =>
    cases hs : level.slot with
    | type =>
      simp only [draft?, hs]
      exact congrArg some (Level.draft_addType hs _).symm
    | component earlier last =>
      simp only [draft?, hs]
      exact Level.pushComponent?_draft hs _
    | suffix earlier last => exact absurd hs (ha earlier last)
  | openGroup ha hd | openArguments hs hd | nextArgument hc hf => rfl
  | arrow hc => exact congrArg some level.closeTuple_draft
  | closeGroup hc hf | closeArguments hc hf =>
    obtain rfl := hf
    have hframe := (List.forall_mem_cons.mp h).1
    have helements : level.draft.closeTuple.elements = level.finish := by
      rw [level.closeTuple_draft]
    simp only [draft?, helements]
    exact Frame.closeDraft?_eq hframe _
  | star hs =>
    simp only at hs
    simp only [draft?, hs]
    exact Level.beginTuple?_draft hs
  | constructor con hs =>
    simp only at hs
    simp only [draft?, hs]
    exact Level.changeRunning?_draft hs _

theorem drafted_of_inPlace (h : ∀ frame ∈ r.frames, frame.InPlace) : r.Drafted where
  suffix := fun hs => by simp [Level.draft, hs]
  component := fun hs => by simp [Level.draft_component hs]
  next := fun hstep => draft?_of_moves h (step_ok_iff.mp hstep)
  finish := finishDraft?_eq r.level r.frames h

end Reading

def Stage.reading : Stage → Reading
  | .start => ⟨none, .empty, []⟩
  | .named name => .ofName name
  | .signature r => r

/-- Wherever lexemes lead, the reader finds what it is to change. -/
theorem drafted_of_runs {w : List Lexeme} {s : Stage} (h : Stage.start.Runs w s) :
    s.reading.Drafted := by
  refine Reading.drafted_of_inPlace ?_
  have hbehind := behind_of_runs h
  cases s with
  | start => simp [Stage.reading]
  | named name => exact Reading.Behind.frames hbehind
  | signature r => exact Reading.Behind.frames hbehind

end SignatureSearch.Query
