import Mathlib
import SignatureSearch.Proofs.SignatureGrammar

/-! The signatures that the reader accepts. What has been read of a signature is always the
beginning of a derivation: at each open group and at the level in work, whole elements and whole
components. So the reader accepts nothing but what the grammar derives. -/
namespace SignatureSearch.Query

open Grammar

/-- Nodes with a separator behind them, or nothing yet. -/
def Begun (P : List Lexeme → List TypeNode → Prop) (separator : Lexeme) (w : List Lexeme)
    (nodes : List TypeNode) : Prop :=
  (w = [] ∧ nodes = []) ∨ ∃ v, w = v ++ [separator] ∧ P v nodes

lemma Begun.nil {P : List Lexeme → List TypeNode → Prop} {separator : Lexeme} :
    Begun P separator [] [] := .inl ⟨rfl, rfl⟩

lemma Begun.add {P : List Lexeme → List TypeNode → Prop} {Q : List Lexeme → TypeNode → Prop}
    {separator : Lexeme} {w v : List Lexeme} {nodes : List TypeNode} {node : TypeNode}
    (one : ∀ {v node}, Q v node → P v [node])
    (more : ∀ {w v nodes node}, P w nodes → Q v node → P (w ++ separator :: v) (nodes ++ [node]))
    (h : Begun P separator w nodes) (hq : Q v node) : P (w ++ v) (nodes ++ [node]) := by
  rcases h with ⟨rfl, rfl⟩ | ⟨u, rfl, hu⟩
  · exact one hq
  · rw [List.append_assoc]
    exact more hu hq

def SlotRead (d : ℕ) : Slot → List Lexeme → Prop
  | .type, w => w = []
  | .component earlier last, w => ∃ v, w = v ++ [.star] ∧ Components d v (earlier ++ [last])
  | .suffix earlier last, w =>
    ∃ v u, w = v ++ u ∧ Begun (Components d) .star v earlier ∧ Component d u last

def LevelRead (d : ℕ) (l : Level) (w : List Lexeme) : Prop :=
  ∃ v u, w = v ++ u ∧ Begun (Signature d) .arrow v l.elements ∧ SlotRead d l.slot u

/-- What has been read up to the innermost open group, inside which `d` more can be opened. -/
inductive FramesRead : ℕ → List Frame → List Lexeme → Prop
  | nil : FramesRead maxDepth [] []
  | group {d : ℕ} {frames : List Frame} {outer : Level} {w v : List Lexeme}
      (hf : FramesRead (d + 1) frames w) (hl : LevelRead (d + 1) outer v) (ha : outer.Awaits) :
      FramesRead d (.group outer :: frames) (w ++ (v ++ [.openParen]))
  | arguments {d : ℕ} {frames : List Frame} {outer : Level} {args earlier : List TypeNode}
      {last : TypeNode} {w v u : List Lexeme} (hf : FramesRead (d + 1) frames w)
      (hl : LevelRead (d + 1) outer v) (hs : outer.slot = .suffix earlier last)
      (ha : Begun (Arguments d) .comma u args) :
      FramesRead d (.arguments outer args :: frames) (w ++ (v ++ .less :: u))

def ReadingRead (r : Reading) (w : List Lexeme) : Prop :=
  ∃ d v u, w = v ++ u ∧ FramesRead d r.frames v ∧ LevelRead d r.level u

section Nodes

variable {d : ℕ} {w : List Lexeme} {nodes : List TypeNode}

lemma ne_nil_of_signature (h : Signature d w nodes) : nodes ≠ [] := by
  cases h with
  | one h => simp
  | more hs h => simp

lemma grouped_of_signature (h : Signature d w nodes) : Grouped d w (groupNode nodes) := by
  match nodes, h with
  | [], h => exact absurd rfl (ne_nil_of_signature h)
  | [node], h => exact .single h
  | first :: second :: rest, h => exact .list h (by simp)

lemma element_of_components {earlier : List TypeNode} {last : TypeNode} {star : List Lexeme}
    (h : Components d w (earlier ++ [last])) (hs : star = [] ∨ star = [.star]) :
    Element d (w ++ star) (joinComponents earlier last) := by
  cases earlier with
  | nil => exact .single h hs
  | cons first rest =>
    have hlength : 2 ≤ (first :: rest ++ [last]).length := by simp
    rw [joinComponents_of_two_le hlength rfl]
    exact .tuple h hlength hs

lemma component_applyPostfix (con : String) {node : TypeNode} (h : Component d w node) :
    Component d (w ++ [.name con]) (applyPostfix con node) := by
  unfold applyPostfix
  split_ifs with hcon
  · subst hcon
    exact .array h
  · exact .constructor con hcon h

end Nodes

namespace LevelRead

variable {d : ℕ} {l : Level} {w : List Lexeme}

lemma empty (d : ℕ) : LevelRead d .empty [] := ⟨[], [], rfl, .nil, rfl⟩

/-- A complete level is a signature. -/
lemma finish (h : LevelRead d l w) (hc : l.Complete) : Signature d w l.finish := by
  obtain ⟨elements, slot⟩ := l
  obtain ⟨v, u, rfl, helements, hslot⟩ := h
  cases slot with
  | type => exact absurd rfl hc
  | component earlier last =>
    obtain ⟨u, rfl, hu⟩ := hslot
    exact helements.add .one .more (element_of_components hu (.inr rfl))
  | suffix earlier last =>
    obtain ⟨front, c, rfl, hfront, hc⟩ := hslot
    have helement := element_of_components (hfront.add .one .more hc) (.inl rfl)
    rw [List.append_nil] at helement
    exact helements.add .one .more helement

lemma nextElement (h : LevelRead d l w) (hc : l.Complete) :
    LevelRead d ⟨l.finish, .type⟩ (w ++ [.arrow]) :=
  ⟨w ++ [.arrow], [], (List.append_nil _).symm, .inr ⟨w, rfl, h.finish hc⟩, rfl⟩

lemma addType {v : List Lexeme} {node : TypeNode} (h : LevelRead d l w) (ha : l.Awaits)
    (hn : Component d v node) : LevelRead d (l.addType node) (w ++ v) := by
  obtain ⟨elements, slot⟩ := l
  obtain ⟨front, u, rfl, helements, hslot⟩ := h
  refine ⟨front, u ++ v, List.append_assoc _ _ _, ?_⟩
  cases slot with
  | type =>
    obtain rfl : u = [] := hslot
    exact ⟨helements, [], v, rfl, .nil, hn⟩
  | component earlier last =>
    obtain ⟨u, rfl, hu⟩ := hslot
    exact ⟨helements, _, v, rfl, .inr ⟨u, rfl, hu⟩, hn⟩
  | suffix earlier last => exact absurd rfl (ha earlier last)

lemma star {earlier : List TypeNode} {last : TypeNode} (h : LevelRead d l w)
    (hs : l.slot = .suffix earlier last) :
    LevelRead d { l with slot := .component earlier last } (w ++ [.star]) := by
  obtain ⟨front, u, rfl, helements, hslot⟩ := h
  rw [hs] at hslot
  obtain ⟨v, c, rfl, hv, hc⟩ := hslot
  exact ⟨front, _, List.append_assoc _ _ _, helements, v ++ c, rfl, hv.add .one .more hc⟩

/-- The type read last is extended. -/
lemma mapLast {earlier : List TypeNode} {last : TypeNode} {v : List Lexeme}
    {f : TypeNode → TypeNode} (h : LevelRead d l w) (hs : l.slot = .suffix earlier last)
    (hf : ∀ {u}, Component d u last → Component d (u ++ v) (f last)) :
    LevelRead d (l.mapLast f) (w ++ v) := by
  obtain ⟨elements, slot⟩ := l
  obtain rfl : slot = .suffix earlier last := hs
  obtain ⟨front, u, rfl, helements, u, c, rfl, hu, hc⟩ := h
  exact ⟨front, u ++ (c ++ v), by simp, helements, u, c ++ v, rfl, hu, hf hc⟩

end LevelRead

lemma FramesRead.depth {d : ℕ} {frames : List Frame} {w : List Lexeme} (h : FramesRead d frames w) :
    d + frames.length = maxDepth := by
  induction h with
  | nil => rfl
  | group hf hl ha ih | arguments hf hl hs ha ih =>
    rw [List.length_cons]
    omega

namespace ReadingRead

variable {r r' : Reading} {w : List Lexeme} {t : Lexeme}

lemma start (name : Option String) : ReadingRead ⟨name, .empty, []⟩ [] :=
  ⟨maxDepth, [], [], rfl, .nil, .empty _⟩

/-- One lexeme goes on with the derivations that have begun. -/
theorem step (h : ReadingRead r w) (hm : r.Moves t (.next (.signature r'))) :
    ReadingRead r' (w ++ [t]) := by
  obtain ⟨name, level, frames⟩ := r
  obtain ⟨d, v, u, rfl, hframes, hlevel⟩ := h
  have hdepth := hframes.depth
  cases hm with
  | name name ha =>
    have hname : Component d [.name name] (.atom name) := .primary (.name d name)
    exact ⟨d, v, _, List.append_assoc _ _ _, hframes, hlevel.addType ha hname⟩
  | openGroup ha hd =>
    obtain ⟨d, rfl⟩ : ∃ k, d = k + 1 := ⟨d - 1, by simp only at hd hdepth; omega⟩
    exact ⟨d, _, [], by simp, .group hframes hlevel ha, .empty d⟩
  | arrow hc => exact ⟨d, v, _, List.append_assoc _ _ _, hframes, hlevel.nextElement hc⟩
  | closeGroup hc hf =>
    obtain rfl := hf
    cases hframes with
    | group hframes houter ha =>
      have hgroup := Component.primary (.group (grouped_of_signature (hlevel.finish hc)))
      exact ⟨d + 1, _, _, by simp, hframes, houter.addType ha hgroup⟩
  | nextArgument hc hf =>
    obtain rfl := hf
    cases hframes with
    | arguments hframes houter hs ha =>
      have hsignature := hlevel.finish hc
      have hargs := ha.add .one .more (grouped_of_signature hsignature)
      rw [← addArgument_of_ne_nil _ (ne_nil_of_signature hsignature)] at hargs
      exact ⟨d, _, [], by simp, .arguments hframes houter hs (.inr ⟨_, rfl, hargs⟩), .empty d⟩
  | closeArguments hc hf =>
    obtain rfl := hf
    cases hframes with
    | arguments hframes houter hs ha =>
      have hsignature := hlevel.finish hc
      have hargs := ha.add .one .more (grouped_of_signature hsignature)
      rw [← addArgument_of_ne_nil _ (ne_nil_of_signature hsignature)] at hargs
      exact ⟨d + 1, _, _, by simp, hframes, houter.mapLast hs fun hcon => hcon.apply hargs⟩
  | star hs => exact ⟨d, v, _, List.append_assoc _ _ _, hframes, hlevel.star hs⟩
  | openArguments hs hd =>
    obtain ⟨d, rfl⟩ : ∃ k, d = k + 1 := ⟨d - 1, by simp only at hd hdepth; omega⟩
    exact ⟨d, _, [], by simp, .arguments hframes hlevel hs .nil, .empty d⟩
  | constructor con hs =>
    have hcon := hlevel.mapLast hs (component_applyPostfix con)
    exact ⟨d, v, _, List.append_assoc _ _ _, hframes, hcon⟩

/-- A signature that is closed has been derived. -/
theorem closed {q : Query} (h : ReadingRead r w) (hm : r.Moves t (.closed q)) :
    t = .closeParen ∧ ∃ nodes, Signature maxDepth w nodes ∧ q = ⟨r.name, some nodes⟩ := by
  obtain ⟨name, level, frames⟩ := r
  obtain ⟨d, v, u, rfl, hframes, hlevel⟩ := h
  cases hm with
  | finish hc hf =>
    obtain rfl := hf
    cases hframes with
    | nil => exact ⟨rfl, _, hlevel.finish hc, rfl⟩

end ReadingRead

/-- A run that ends on a lexeme has read a signature up to it. -/
theorem signature_of_read {r : Reading} {w l : List Lexeme} {position : ℕ} {fragment : Fragment}
    {t : Lexeme} (h : ReadingRead r w) (hr : read (.signature r) position l = .ok fragment)
    (hc : fragment.closedBy = some t) :
    ∃ v rest nodes, l = v ++ .closeParen :: rest ∧ fragment.next = position + v.length + 1 ∧
      Signature maxDepth (w ++ v) nodes := by
  induction l generalizing r w position with
  | nil =>
    cases hr
    cases hc
  | cons u rest ih =>
    rw [read] at hr
    cases hs : Stage.step (.signature r) position u with
    | error e => simp [hs] at hr
    | ok step =>
      rw [hs] at hr
      have hm : r.Moves u step := Reading.step_ok_iff.mp hs
      cases step with
      | closed query =>
        cases hr
        obtain ⟨rfl, nodes, hnodes, -⟩ := h.closed hm
        exact ⟨[], rest, nodes, rfl, rfl, by simpa using hnodes⟩
      | next stage =>
        obtain ⟨r', rfl⟩ := hm.next_signature
        obtain ⟨v, rest, nodes, rfl, hnext, hnodes⟩ := ih (h.step hm) hr
        refine ⟨u :: v, rest, nodes, rfl, ?_, by simpa using hnodes⟩
        rw [hnext, List.length_cons]
        omega

section Derived

variable {w : List Lexeme} {nodes : List TypeNode}

/-- The reader gets behind a derived signature with its nodes complete and no group open. -/
lemma read_derived (h : Signature maxDepth w nodes) :
    ∃ level : Level, level.Complete ∧ level.finish = nodes ∧ ∀ rest,
      parseFragment (.colon :: (w ++ rest)) 0 = read (.at level []) (w.length + 1) rest := by
  obtain ⟨level, hcomplete, hfinish, hread⟩ := h.reads [] [] (by simp)
  have hall : Stage.start.Reads (.colon :: w) (.at level []) := .cons (fun _ => rfl) hread
  refine ⟨level, hcomplete, hfinish, fun rest => ?_⟩
  have hrest := hall 0 rest
  rwa [Nat.zero_add] at hrest

lemma parseFragment_derived (h : Signature maxDepth w nodes) :
    parseFragment (.colon :: (w ++ [.closeParen])) 0 =
      .ok ⟨⟨none, some nodes⟩, w.length + 2, some .closeParen⟩ := by
  obtain ⟨level, hcomplete, rfl, hread⟩ := read_derived h
  have hclose : (Stage.at level []).step (w.length + 1) .closeParen =
      .ok (.closed ⟨none, some level.finish⟩) :=
    Reading.step_ok_iff.mpr (.finish (r := ⟨none, level, []⟩) hcomplete rfl)
  rw [hread, read, hclose]

lemma ofLexemes_derived (h : Signature maxDepth w nodes) :
    ofLexemes (.colon :: w) = .ok ⟨none, some nodes⟩ := by
  obtain ⟨level, -, rfl, hread⟩ := read_derived h
  have hend := hread []
  rw [List.append_nil] at hend
  rw [ofLexemes, hend]
  rfl

lemma signature_of_parseFragment {fragment : Fragment}
    (hr : parseFragment (.colon :: (w ++ [.closeParen])) 0 = .ok fragment)
    (hn : fragment.next = w.length + 2) (hc : fragment.closedBy = some .closeParen) :
    ∃ nodes, Signature maxDepth w nodes := by
  have hread : read (.signature ⟨none, .empty, []⟩) 1 (w ++ [.closeParen]) = .ok fragment := hr
  obtain ⟨v, rest, nodes, he, hnext, hnodes⟩ := signature_of_read (.start none) hread hc
  have hlength : w.length = v.length := by omega
  obtain ⟨rfl, -⟩ := List.append_inj he hlength
  exact ⟨nodes, hnodes⟩

end Derived

/-- The reader behind a colon accepts exactly what the grammar derives up to a closing parenthesis,
and what it returns, there or at the end of the text, is the signature that is derived. -/
theorem parse_grammar (w : List Lexeme) :
    ((∃ nodes, Signature maxDepth w nodes) ↔
      ∃ fragment, parseFragment (.colon :: (w ++ [.closeParen])) 0 = .ok fragment ∧
        fragment.next = w.length + 2 ∧ fragment.closedBy = some .closeParen) ∧
      ∀ nodes, Signature maxDepth w nodes →
        parseFragment (.colon :: (w ++ [.closeParen])) 0 =
            .ok ⟨⟨none, some nodes⟩, w.length + 2, some .closeParen⟩ ∧
          ofLexemes (.colon :: w) = .ok ⟨none, some nodes⟩ := by
  refine ⟨⟨?_, ?_⟩, fun nodes h => ⟨parseFragment_derived h, ofLexemes_derived h⟩⟩
  · rintro ⟨nodes, h⟩
    exact ⟨_, parseFragment_derived h, rfl, rfl⟩
  · rintro ⟨fragment, hr, hn, hc⟩
    exact signature_of_parseFragment hr hn hc

/-- `(a -> b) * c array *` -/
theorem parse_grammar_sample :
    Signature maxDepth [.openParen, .name "a", .arrow, .name "b", .closeParen, .star, .name "c",
          .name "array", .star]
        [.tuple [.list [.atom "a", .atom "b"], .array (.atom "c")]] ∧
      ofLexemes (.colon :: [.openParen, .name "a", .arrow, .name "b", .closeParen, .star,
        .name "c", .name "array", .star]) =
        .ok ⟨none, some [.tuple [.list [.atom "a", .atom "b"], .array (.atom "c")]]⟩ := by
  have hatom : ∀ d name, Component d [.name name] (.atom name) :=
    fun d name => .primary (.name d name)
  have helement : ∀ d name, Element d [.name name] (.atom name) :=
    fun d name => @Element.single d [.name name] [] _ (.one (hatom d name)) (.inl rfl)
  have hgroup : Grouped 127 [.name "a", .arrow, .name "b"] (.list [.atom "a", .atom "b"]) :=
    .list (.more (.one (helement 127 "a")) (helement 127 "b")) (by decide)
  have hcomponents := Components.more (.one (.primary (.group hgroup))) (hatom 128 "c").array
  have h := Signature.one (Element.tuple hcomponents (by decide) (.inr rfl))
  exact ⟨h, ((parse_grammar _).2 _ h).2⟩

end SignatureSearch.Query
