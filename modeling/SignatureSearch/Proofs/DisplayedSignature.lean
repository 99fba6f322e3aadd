import Mathlib
import SignatureSearch.Proofs.SignatureRoundTrip
import SignatureSearch.Proofs.SignatureRows

/-! Searches for the text of a signature that is in the documents. The text is read as the signature
it shows, and the key of this signature lies in the range of its plan, whichever plan that is. -/
namespace SignatureSearch

lemma belowHigh_of_plain {node : TypeNode} (h : node.Plain) : node.toJson.BelowHigh := by
  cases node with
  | atom name => trivial
  | list items => trivial
  | tuple items => exact (by decide : Json.compareText "tuple" (String.ofList [highSuffix]) = .lt)
  | array element => exact (by decide : Json.compareText "array" (String.ofList [highSuffix]) = .lt)
  | generic con args =>
    exact (by decide : Json.compareText "args" (String.ofList [highSuffix]) = .lt)
  | byRef element => exact h.elim
  | raw value => exact h.elim

lemma compareText_upperBound (name : String) : Json.compareText name (upperBound name) = .lt := by
  have h := Json.compare_append_left (name.toList.map Char.toNat) [] [highSuffix.toNat]
  rw [List.append_nil] at h
  rw [Json.compareText, upperBound, String.toList_push, List.map_append, List.map_singleton, h]
  rfl

/-- A signature continues all of it but its last type. -/
lemma covers_continuation {front : List TypeNode} {last : TypeNode}
    (h : TypeNode.AllPlain (front ++ [last])) (limit : ℕ) :
    (Plan.continuations (front.map TypeNode.toJson) limit).covers
      (TypeNode.signatureKey (front ++ [last])).encode = true := by
  have hplain := (TypeNode.allPlain_iff _).mp h
  have hfront : TypeNode.AllPlain front := h.mono (List.subset_append_left front _)
  rw [covers_signatureKey hfront (TypeNode.AllPlain.canonical _ h) fun node hnode =>
    belowHigh_of_plain (hplain node hnode)]
  exact ⟨[last], by simp, rfl⟩

lemma covers_closingScan {front : List TypeNode} {last : TypeNode}
    (h : TypeNode.AllPlain (front ++ [last])) (limit : ℕ) :
    (closingScan front last limit).covers (TypeNode.signatureKey (front ++ [last])).encode =
      true := by
  have hkey : TypeNode.signatureKey (front ++ [last]) =
      .array (front.map TypeNode.toJson ++ [last.toJson]) := by
    rw [TypeNode.signatureKey, TypeNode.itemsToJson_eq, List.map_append, List.map_singleton]
  by_cases hw : last.isWildcard = true
  · unfold closingScan
    rw [if_pos hw]
    exact covers_continuation h limit
  · unfold closingScan
    rw [if_neg hw, hkey]
    cases last with
    | atom name =>
      have hlower :=
        (Json.orderItems_eq_iff (front.map TypeNode.toJson ++ [.string name]) _).mpr rfl
      have hupper : Json.orderItems [.string name] [.string (upperBound name)] = .lt := by
        rw [Json.orderItems, Json.order, compareText_upperBound, Ordering.lt_then]
      rw [Json.covers_between, TypeNode.toJson, hlower, Json.orderItems_append, hupper]
      exact ⟨by simp, by simp⟩
    | _ => exact Json.covers_exact _ limit

/-- A signature lies in the range of the plan for it. -/
lemma exists_plan {prototype : List TypeNode} (hne : prototype ≠ [])
    (h : TypeNode.AllPlain prototype) (limit : ℕ) :
    ∃ reverse scan, Plan.ofPrototype prototype limit = turnedPlan reverse scan ∧
      scan.covers (TypeNode.signatureKey (turned reverse prototype)).encode = true := by
  by_cases hfirst : ∃ rest, prototype = .atom TypeNode.wildcard :: rest
  · obtain ⟨rest, rfl⟩ := hfirst
    have hturned : TypeNode.AllPlain (rest.reverse ++ [.atom TypeNode.wildcard]) := by
      refine h.mono ?_
      rw [← List.reverse_cons]
      exact (List.reverse_perm _).subset
    refine ⟨true, _, ofPrototype_leading rest limit, ?_⟩
    simpa [turned] using covers_continuation hturned limit
  · obtain ⟨front, last, rfl⟩ := (List.eq_nil_or_concat' prototype).resolve_left hne
    exact ⟨false, _, ofPrototype_closing front last limit (not_exists.mp hfirst),
      covers_closingScan h limit⟩

lemma mem_signatures {documents : List Json} {d : CatalogDocument} {member : CatalogMember}
    {nodes : List CatalogNode} (hd : d ∈ documents.filterMap CatalogDocument.converted?)
    (hm : member ∈ d.signatureMembers) (hp : member.prototype = some nodes) :
    (CatalogNode.normalizeAll nodes,
      .object [("name", .string member.name), ("type", d.key.toJson)]) ∈ signatures documents := by
  refine List.mem_flatMap.mpr ⟨d, hd, List.mem_filterMap.mpr ⟨member, hm, ?_⟩⟩
  rw [hp, Option.map_some]

/-- A method or property whose signature is made of renderable nodes is found by the text of that
signature, unless the limit cuts the answer. -/
theorem search_displayed (documents : List Json) (batchSize limit : ℕ) (options : SearchOptions)
    {d : CatalogDocument} {member : CatalogMember} {nodes : List CatalogNode}
    {prototype : List TypeNode} (hd : d ∈ documents.filterMap CatalogDocument.converted?)
    (hm : member ∈ d.signatureMembers) (hp : member.prototype = some nodes)
    (hn : CatalogNode.normalizeAll nodes = prototype) (hne : prototype ≠ [])
    (hr : TypeNode.areRenderable prototype = true)
    (hdepth : Lexeme.nesting 0 (Lexeme.tokenize (TypeNode.signatureText prototype)) ≤
      Query.maxDepth)
    (hlimit : (signatures documents).length ≤ options.effectiveLimit limit) :
    ∃ rows, ((MemoryStore.empty.write documents batchSize).1.engine limit).search
        (": " ++ TypeNode.signatureText prototype) options =
          .ok ⟨": " ++ TypeNode.signatureText prototype, options.token, none,
            some (TypeNode.signatureText prototype), some (.bySignature rows)⟩ ∧
      ⟨TypeNode.signatureKey prototype,
        .object [("name", .string member.name), ("type", d.key.toJson)],
        some (TypeNode.signatureText prototype)⟩ ∈ rows := by
  have hplain := TypeNode.allPlain_of_renderable prototype hr
  rw [Query.tokenize_signatureText hr, TypeNode.nesting_signatureLexemes] at hdepth
  obtain ⟨reverse, scan, hplan, hcovers⟩ := exists_plan hne hplain (options.effectiveLimit limit)
  refine ⟨_, search_signature_whole (Query.parse_signatureText hr hdepth) documents batchSize limit
    options hplan hlimit, ?_⟩
  have hmem := mem_signatures hd hm hp
  rw [hn] at hmem
  exact List.mem_map.mpr ⟨_, List.mem_filter.mpr ⟨List.mem_mergeSort.mpr hmem, hcovers⟩, rfl⟩

/-- The method `g` of the sample is found by its text. -/
theorem search_displayed_sample :
    ∃ rows, ((MemoryStore.empty.write [sampleType.toJson] 2).1.engine 3).search ": a -> b" .none =
        .ok ⟨": a -> b", none, none, some "a -> b", some (.bySignature rows)⟩ ∧
      ⟨.array [.string "a", .string "b"],
        .object [("name", .string "g"), ("type", sampleOwner)], some "a -> b"⟩ ∈ rows := by
  have hd : sampleType ∈ [sampleType.toJson].filterMap CatalogDocument.converted? :=
    List.mem_filterMap.mpr ⟨_, List.mem_singleton_self _, rfl⟩
  have hm : (⟨"g", some [.keyword "a", .keyword "b"]⟩ : CatalogMember) ∈
      sampleType.signatureMembers := .tail _ (.head _)
  exact search_displayed [sampleType.toJson] 2 3 .none hd hm rfl rfl (by decide) (by decide)
    (by decide) (by decide)

end SignatureSearch
