import Mathlib
import SignatureSearch.Proofs.Drafts

/-! Names of signatures. Each name that is read is in the signature once: as a type, as a
constructor, or as the mark of an array. No lexeme drops one, and closing what is still open drops
none. -/
namespace SignatureSearch

namespace TypeNode

mutual

/-- The names in a node. An array is written with the name `array` behind its element. -/
def names : TypeNode → Multiset String
  | .atom name => {name}
  | .list items => itemNames items
  | .tuple items => itemNames items
  | .array element => element.names + {"array"}
  | .generic con args => con.names + itemNames args
  | .byRef element => element.names
  | .raw _ => 0

def itemNames : List TypeNode → Multiset String
  | [] => 0
  | item :: rest => item.names + itemNames rest

end

@[simp] lemma itemNames_nil : itemNames [] = 0 := rfl

@[simp] lemma itemNames_append (first second : List TypeNode) :
    itemNames (first ++ second) = itemNames first + itemNames second := by
  induction first with
  | nil => simp [itemNames]
  | cons item rest ih => simp only [List.cons_append, itemNames, ih, add_assoc]

@[simp] lemma itemNames_singleton (node : TypeNode) : itemNames [node] = node.names := by
  simp [itemNames]

end TypeNode

namespace Lexeme

def name? : Lexeme → Option String
  | .name text => some text
  | _ => none

def names (ts : List Lexeme) : Multiset String := ts.filterMap name?

lemma names_symbol {t : Lexeme} (h : ∀ name, t ≠ .name name) : names [t] = 0 := by
  cases t with
  | name text => exact absurd rfl (h text)
  | _ => rfl

lemma names_append (ts us : List Lexeme) : names (ts ++ us) = names ts + names us := by
  simp [names]

lemma names_cons (t : Lexeme) (ts : List Lexeme) : names (t :: ts) = names [t] + names ts :=
  names_append [t] ts

end Lexeme

namespace Query

open TypeNode (itemNames)

lemma names_applyPostfix (con : String) (operand : TypeNode) :
    (applyPostfix con operand).names = operand.names + {con} := by
  unfold applyPostfix
  split_ifs with harray
  · rw [harray, TypeNode.names]
  · simp [TypeNode.names, add_comm]

lemma names_groupNode (elements : List TypeNode) :
    (groupNode elements).names = itemNames elements := by
  unfold groupNode
  split
  · simp
  · rw [TypeNode.names]

lemma names_joinComponents (earlier : List TypeNode) (last : TypeNode) :
    (joinComponents earlier last).names = itemNames earlier + last.names := by
  unfold joinComponents
  split_ifs with hempty
  · obtain rfl : earlier = [] := by simpa using hempty
    simp
  · simp [TypeNode.names]

lemma names_addArgument (args elements : List TypeNode) :
    itemNames (addArgument args elements) = itemNames args + itemNames elements := by
  unfold addArgument
  split_ifs with hempty
  · obtain rfl : elements = [] := by simpa using hempty
    simp
  · simp [names_groupNode]

def Slot.names : Slot → Multiset String
  | .type => 0
  | .component earlier last => itemNames earlier + last.names
  | .suffix earlier last => itemNames earlier + last.names

namespace Level

def names (l : Level) : Multiset String := itemNames l.elements + l.slot.names

@[simp] lemma names_empty : Level.empty.names = 0 := by simp [empty, names, Slot.names]

lemma names_finish (l : Level) : itemNames l.finish = l.names := by
  unfold finish names
  cases l.slot with
  | type => simp [Slot.names]
  | component earlier last | suffix earlier last => simp [Slot.names, names_joinComponents]

/-- A type is only left out where none can come. -/
lemma names_addType {l : Level} (h : l.Awaits) (node : TypeNode) :
    (l.addType node).names = l.names + node.names := by
  unfold addType names
  cases hs : l.slot with
  | type => simp [Slot.names]
  | component earlier last => simp [Slot.names, add_assoc]
  | suffix earlier last => exact absurd hs (h earlier last)

/-- What is put around a type is only left out where there is none. -/
lemma names_mapLast {l : Level} (h : ¬l.Awaits) {f : TypeNode → TypeNode} {added : Multiset String}
    (hf : ∀ node, (f node).names = node.names + added) :
    (l.mapLast f).names = l.names + added := by
  obtain ⟨earlier, last, hs⟩ := not_awaits_iff.mp h
  simp only [names, mapLast, hs, Slot.names, hf, add_assoc]

end Level

def Frame.names : Frame → Multiset String
  | .group outer => outer.names
  | .arguments outer args => outer.names + itemNames args

lemma Frame.names_close {frame : Frame} (h : frame.InPlace) (elements : List TypeNode) :
    (frame.close elements).names = frame.names + itemNames elements := by
  cases frame with
  | group outer => rw [Frame.close, Level.names_addType h, names_groupNode, Frame.names]
  | arguments outer args =>
    have hgeneric (con : TypeNode) : (TypeNode.generic con (addArgument args elements)).names =
        con.names + (itemNames args + itemNames elements) := by
      rw [TypeNode.names, names_addArgument]
    rw [Frame.close, Level.names_mapLast h hgeneric, Frame.names, add_assoc]

/-- Closing the open groups keeps the names inside and around them. -/
theorem names_finishAll (frames : List Frame) (h : ∀ frame ∈ frames, frame.InPlace)
    (elements : List TypeNode) :
    itemNames (finishAll elements frames) = itemNames elements + (frames.map Frame.names).sum := by
  induction frames generalizing elements with
  | nil => simp [finishAll]
  | cons frame frames ih =>
    obtain ⟨hframe, hframes⟩ := List.forall_mem_cons.mp h
    calc itemNames (finishAll elements (frame :: frames))
        = (frame.close elements).names + (frames.map Frame.names).sum := by
          rw [finishAll, ih hframes, Level.names_finish]
      _ = itemNames elements + ((frame :: frames).map Frame.names).sum := by
          rw [Frame.names_close hframe, List.map_cons, List.sum_cons]
          abel

namespace Reading

def names (r : Reading) : Multiset String := r.level.names + (r.frames.map Frame.names).sum

variable {r r' : Reading} {t : Lexeme} {w : List Lexeme}

/-- One lexeme adds its name, if it is one, and drops none. -/
theorem names_step (h : ∀ frame ∈ r.frames, frame.InPlace)
    (hm : r.Moves t (.next (.signature r'))) : r'.names = r.names + Lexeme.names [t] := by
  obtain ⟨name, level, frames⟩ := r
  cases hm with
  | name name ha =>
    have hadd := Level.names_addType ha (.atom name)
    have hname : Lexeme.names [.name name] = (TypeNode.atom name).names := rfl
    simp only [names, hadd, hname]
    abel
  | openGroup ha hd | openArguments hs hd =>
    simp [names, Frame.names, Lexeme.names_symbol]
  | arrow hc =>
    have hnext : (Level.mk level.finish .type).names = level.names := by
      simp [Level.names, Slot.names, Level.names_finish]
    simp [names, nextElement, Lexeme.names_symbol, hnext]
  | closeGroup hc hf | closeArguments hc hf =>
    obtain rfl := hf
    have hclose := Frame.names_close (List.forall_mem_cons.mp h).1 level.finish
    rw [Lexeme.names_symbol (by simp), add_zero]
    simp only [names, hclose, Level.names_finish, List.map_cons, List.sum_cons]
    abel
  | nextArgument hc hf =>
    obtain rfl := hf
    rw [Lexeme.names_symbol (by simp), add_zero]
    simp only [names, Frame.names, names_addArgument, Level.names_finish, Level.names_empty,
      List.map_cons, List.sum_cons]
    abel
  | star hs =>
    simp only at hs
    simp [names, Level.names, Slot.names, hs, Lexeme.names_symbol]
  | constructor con hs =>
    have ha : ¬level.Awaits := Level.not_awaits_iff.mpr ⟨_, _, hs⟩
    have hmap := Level.names_mapLast ha (names_applyPostfix con)
    have hname : Lexeme.names [.name con] = {con} := rfl
    simp only [names, hmap, hname]
    abel

/-- A run from a signature adds the names that are read. -/
theorem names_runs {s : Stage} {v : List Lexeme} (h : r.Behind w)
    (hr : (Stage.signature r).Runs v s) :
    ∃ r', s = .signature r' ∧ r'.Behind (w ++ v) ∧ r'.names = r.names + Lexeme.names v := by
  -- Inside a signature each stage is one again, so the induction is on the run from any of them.
  generalize hstage : Stage.signature r = stage at hr
  induction hr generalizing r w with
  | nil s => exact ⟨r, hstage.symm, by rwa [List.append_nil], by simp [Lexeme.names]⟩
  | @cons s t u lexeme rest hs hr ih =>
    subst hstage
    have hm := step_ok_iff.mp (hs 0)
    obtain ⟨r₁, rfl⟩ := hm.next_signature
    obtain ⟨r₂, hlast, hbehind, hnames⟩ := ih (h.step hm) rfl
    refine ⟨r₂, hlast, by rwa [List.append_assoc] at hbehind, ?_⟩
    rw [hnames, names_step h.frames hm, Lexeme.names_cons lexeme rest, add_assoc]

lemma names_finish (h : ∀ frame ∈ r.frames, frame.InPlace) {prototype : List TypeNode}
    (hp : r.finish.prototype = some prototype) : itemNames prototype = r.names := by
  obtain rfl := Option.some.inj hp
  rw [names_finishAll r.frames h, Level.names_finish, names]

end Reading

lemma names_of_runs {s : Stage} {v : List Lexeme} {prototype : List TypeNode}
    (hr : (Stage.signature ⟨none, .empty, []⟩).Runs v s)
    (hp : s.finish.prototype = some prototype) :
    itemNames prototype = Lexeme.names (.colon :: v) := by
  obtain ⟨r, rfl, hbehind, hnames⟩ := Reading.names_runs .colon hr
  have hstart : Reading.names ⟨none, .empty, []⟩ = Lexeme.names [.colon] := by
    simp [Reading.names, Lexeme.names_symbol]
  rw [Reading.names_finish hbehind.frames hp, hnames, hstart, Lexeme.names_cons .colon v]

/-- Behind a colon the prototype has the names of the lexemes up to where the query ends. -/
lemma names_of_read {ts : List Lexeme} {f : Fragment} {prototype : List TypeNode}
    (h : read (.signature ⟨none, .empty, []⟩) 1 ts = .ok f)
    (hp : f.query.prototype = some prototype) :
    itemNames prototype = Lexeme.names ((.colon :: ts).take f.next) := by
  have ho := Outcome.of_read (.signature ⟨none, .empty, []⟩) 1 ts
  rw [h] at ho
  cases ho with
  | complete hr =>
    have htake : (Lexeme.colon :: ts).take (1 + ts.length) = .colon :: ts :=
      List.take_of_length_le (by simp [Nat.add_comm])
    rw [htake]
    exact names_of_runs hr hp
  | @closed v s t q hr hq rest =>
    -- The query can only be closed inside a signature, by a parenthesis.
    obtain ⟨hsymbol, rfl⟩ : Lexeme.names [t] = 0 ∧ q = s.finish := by
      obtain ⟨r, rfl, -⟩ := Reading.names_runs .colon hr
      have hm : r.Moves t (.closed q) := Reading.step_ok_iff.mp hq
      cases hm with
      | finish hc hf => exact ⟨Lexeme.names_symbol (by simp), rfl⟩
    have htake : (Lexeme.colon :: (v ++ t :: rest)).take (1 + v.length + 1) =
        .colon :: v ++ [t] := by
      rw [show Lexeme.colon :: (v ++ t :: rest) = .colon :: v ++ [t] ++ rest by simp]
      exact List.take_left' (by simp [Nat.add_comm])
    rw [htake, Lexeme.names_append, hsymbol, add_zero]
    exact names_of_runs hr hp

/-- Behind a colon, the prototype of a query has just the names of the lexemes that make up the
query, each as often as it was read. Nothing is left out on the way: wherever lexemes lead, the
reader finds what it is to change. -/
theorem names_conserved :
    (∀ (ts : List Lexeme) (q : Query), ofLexemes (.colon :: ts) = .ok q →
      ∃ (f : Fragment) (prototype : List TypeNode), parseFragment (.colon :: ts) 0 = .ok f ∧
        f.query = q ∧ q = .ofPrototype prototype ∧
        Lexeme.names ((.colon :: ts).take f.next) = itemNames prototype) ∧
    ∀ (w : List Lexeme) (s : Stage), Stage.start.Runs w s → s.reading.Drafted := by
  refine ⟨fun ts q h => ?_, fun w s => drafted_of_runs⟩
  obtain ⟨f, hr, rfl⟩ := parseFragment_of_ofLexemes h
  have hread : read (.signature ⟨none, .empty, []⟩) 1 ts = .ok f := hr
  obtain ⟨prototype, hquery⟩ := read_signature hread
  have hp : f.query.prototype = some prototype := by rw [hquery]
  exact ⟨f, prototype, hr, rfl, hquery, (names_of_read hread hp).symm⟩

/-- `: a<b * c> array) d` ends at the parenthesis; the names before it are in the array. Behind `*`
the tuple is open. -/
theorem names_conserved_sample :
    let ts : List Lexeme := [.name "a", .less, .name "b", .star, .name "c", .greater,
      .name "array", .closeParen, .name "d"]
    let prototype : List TypeNode :=
      [.array (.generic (.atom "a") [.tuple [.atom "b", .atom "c"]])]
    let tuple : Reading :=
      ⟨none, ⟨[], .component [] (.atom "b")⟩, [.arguments ⟨[], .suffix [] (.atom "a")⟩ []]⟩
    ofLexemes (.colon :: ts) = .ok (.ofPrototype prototype) ∧
      Lexeme.names ((.colon :: ts).take 9) = itemNames prototype ∧ tuple.Drafted := by
  intro ts prototype tuple
  have hquery : ofLexemes (.colon :: ts) = .ok (.ofPrototype prototype) := rfl
  have hend : parseFragment (.colon :: ts) 0 =
      .ok ⟨.ofPrototype prototype, 9, some .closeParen⟩ := rfl
  obtain ⟨f, nodes, hf, -, hnodes, hnames⟩ := names_conserved.1 ts _ hquery
  obtain rfl : prototype = nodes := Option.some.inj (congrArg Query.prototype hnodes)
  obtain rfl : ⟨.ofPrototype prototype, 9, some .closeParen⟩ = f :=
    Except.ok.inj (hend.symm.trans hf)
  have hruns : Stage.start.Runs [.colon, .name "a", .less, .name "b", .star] (.signature tuple) :=
    .cons (fun _ => rfl) <| .cons (fun _ => rfl) <| .cons (fun _ => rfl) <|
      .cons (fun _ => rfl) <| .cons (fun _ => rfl) <| .nil _
  exact ⟨hquery, hnames, names_conserved.2 _ _ hruns⟩

end Query

end SignatureSearch
