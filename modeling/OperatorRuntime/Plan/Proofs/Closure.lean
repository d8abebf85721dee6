/-
The dependent closure of a set of nodes is closed: a node that hangs on a
member through its parent or a dependency is a member. The loop that
builds it stops because a pass adds nothing, never because of its budget:
each other pass takes at least one node out of those not yet reached.
-/
import Mathlib.Data.Finset.Card
import OperatorRuntime.Plan.Proofs.Operations
import OperatorRuntime.Plan.Runtime

namespace OperatorRuntime.Plan

open Lib

-- ===== one pass

section
variable {nodes : List PlanNode} {closure : List String}

theorem mem_closurePass {id : String} (h : id ∈ closure) : id ∈ closurePass nodes closure := by
  induction nodes generalizing closure with
  | nil => exact h
  | cons node nodes ih =>
    rw [closurePass]
    split
    · exact ih (List.mem_append_left _ h)
    · exact ih h

theorem le_length_closurePass (nodes : List PlanNode) (closure : List String) :
    closure.length ≤ (closurePass nodes closure).length := by
  induction nodes generalizing closure with
  | nil => exact Nat.le_refl _
  | cons node nodes ih =>
    rw [closurePass]
    split
    · have hgrown := ih (closure ++ [node.id])
      rw [List.length_append] at hgrown
      omega
    · exact ih closure

theorem closed_of_closurePass (h : (closurePass nodes closure).length = closure.length) :
    ∀ node ∈ nodes, attaches node closure = true → node.id ∈ closure := by
  induction nodes with
  | nil => exact fun node hnode => nomatch hnode
  | cons first nodes ih =>
    rw [closurePass] at h
    split at h
    · next hadd =>
      have hgrown := le_length_closurePass nodes (closure ++ [first.id])
      rw [h, List.length_append, List.length_singleton] at hgrown
      omega
    · next hskip =>
      intro node hnode hattached
      rcases List.mem_cons.1 hnode with rfl | hrest
      · by_contra hout
        exact hskip ⟨hout, hattached⟩
      · exact ih h node hrest hattached

theorem exists_added (h : (closurePass nodes closure).length ≠ closure.length) :
    ∃ node ∈ nodes, node.id ∉ closure ∧ node.id ∈ closurePass nodes closure := by
  induction nodes with
  | nil => exact absurd rfl h
  | cons first nodes ih =>
    rw [closurePass] at h ⊢
    split at h
    · next hadd =>
      refine ⟨first, List.mem_cons_self .., hadd.1, ?_⟩
      rw [if_pos hadd]
      exact mem_closurePass (List.mem_append_right _ (List.mem_singleton.2 rfl))
    · next hskip =>
      obtain ⟨node, hnode, hout, hin⟩ := ih h
      rw [if_neg hskip]
      exact ⟨node, List.mem_cons_of_mem _ hnode, hout, hin⟩

end

-- ===== the loop

theorem growClosure?_eq_some {nodes : List PlanNode} {closure next : List String}
    (h : growClosure? nodes closure = some next) :
    next = closurePass nodes closure ∧ (closurePass nodes closure).length ≠ closure.length := by
  rw [growClosure?] at h
  split at h
  · cases h
  · next hlen => exact ⟨(Option.some.inj h).symm, hlen⟩

/-- The nodes not yet reached. -/
def unreached (nodes : List PlanNode) (closure : List String) : Finset String :=
  (nodes.map (·.id)).toFinset \ closure.toFinset

theorem card_unreached_lt {nodes : List PlanNode} {closure next : List String}
    (h : growClosure? nodes closure = some next) :
    (unreached nodes next).card < (unreached nodes closure).card := by
  obtain ⟨rfl, hlen⟩ := growClosure?_eq_some h
  obtain ⟨node, hnode, hout, hin⟩ := exists_added hlen
  refine Finset.card_lt_card ((Finset.ssubset_iff_of_subset ?_).2 ⟨node.id, ?_, ?_⟩)
  · refine Finset.sdiff_subset_sdiff (Finset.Subset.refl _) ?_
    intro id hid
    rw [List.mem_toFinset] at hid ⊢
    exact mem_closurePass hid
  · rw [unreached, Finset.mem_sdiff, List.mem_toFinset, List.mem_toFinset]
    exact ⟨List.mem_map_of_mem hnode, hout⟩
  · rw [unreached, Finset.mem_sdiff, List.mem_toFinset, List.mem_toFinset]
    exact fun h => h.2 hin

section
variable {graph : PlanGraph} {start : List String}

theorem subset_dependentClosure {id : String} (h : id ∈ start) :
    id ∈ dependentClosure graph start := by
  rw [dependentClosure, mem_sortTexts]
  refine whileSome_invariant (I := fun closure => id ∈ closure) ?_ _
    (List.mem_eraseDups.2 h)
  intro closure next hin hnext
  obtain ⟨rfl, -⟩ := growClosure?_eq_some hnext
  exact mem_closurePass hin

theorem dependentClosure_closed {node : PlanNode} (hnode : node ∈ graph.nodes)
    {dep : String} (hdep : dep ∈ node.dependsOn) (hin : dep ∈ dependentClosure graph start) :
    node.id ∈ dependentClosure graph start := by
  have hstops : growClosure? graph.nodes
      (whileSome (growClosure? graph.nodes) graph.nodes.length start.eraseDups) = none := by
    refine whileSome_stops (fun closure => (unreached graph.nodes closure).card)
      card_unreached_lt ?_
    calc (unreached graph.nodes start.eraseDups).card
        ≤ (graph.nodes.map (·.id)).toFinset.card :=
          Finset.card_le_card Finset.sdiff_subset
      _ ≤ (graph.nodes.map (·.id)).length := List.toFinset_card_le _
      _ = graph.nodes.length := List.length_map _
  rw [dependentClosure, mem_sortTexts] at hin ⊢
  rw [growClosure?] at hstops
  split at hstops
  · next hlen =>
    refine closed_of_closurePass hlen node hnode ?_
    rw [attaches, Bool.or_eq_true, List.any_eq_true]
    exact .inr ⟨dep, hdep, decide_eq_true hin⟩
  · cases hstops

end

/-
What a digest of the package says about the record it was taken of: nodes
with one digest have one content, and receipts with one canonical text
belong to one node.
-/

-- ===== well-formed

theorem wellFormed_texts (values : List String) : (texts values).WellFormed := by
  refine .arr ?_
  intro item hitem
  obtain ⟨text, _, rfl⟩ := List.mem_map.1 hitem
  exact .str text

theorem wellFormed_natJson (n : Nat) : (natJson n).WellFormed :=
  .num (Json.isNumberText_toString n)

theorem wellFormed_optField {α : Type} {key : String} {value : Option α} {toJson : α → Json}
    (h : ∀ a, (toJson a).WellFormed) : ∀ field ∈ optField key value toJson, field.2.WellFormed := by
  intro field hfield
  rw [optField, Option.mem_toList, Option.map_eq_some_iff] at hfield
  obtain ⟨a, _, rfl⟩ := hfield
  exact h a

theorem wellFormed_append {fs gs : List (String × Json)}
    (hf : ∀ field ∈ fs, field.2.WellFormed) (hg : ∀ field ∈ gs, field.2.WellFormed) :
    ∀ field ∈ fs ++ gs, field.2.WellFormed :=
  List.forall_mem_append.2 ⟨hf, hg⟩

theorem wellFormed_cons {key : String} {value : Json} {fs : List (String × Json)}
    (hv : value.WellFormed) (hf : ∀ field ∈ fs, field.2.WellFormed) :
    ∀ field ∈ (key, value) :: fs, field.2.WellFormed :=
  List.forall_mem_cons.2 ⟨hv, hf⟩

theorem wellFormed_nil : ∀ field ∈ ([] : List (String × Json)), field.2.WellFormed :=
  fun _ h => nomatch h

theorem wellFormed_arr {α : Type} {values : List α} {toJson : α → Json}
    (h : ∀ a, (toJson a).WellFormed) : (Json.arr (values.map toJson)).WellFormed := by
  refine .arr ?_
  intro item hitem
  obtain ⟨a, _, rfl⟩ := List.mem_map.1 hitem
  exact h a

theorem PlanPrecondition.wellFormed (cfg : PlanConfig) (p : PlanPrecondition) :
    (p.toJson cfg).WellFormed := by
  refine .obj ?_ ?_
  · rcases p with ⟨factKey, _ | expected, _ | minimum, _ | stale⟩ <;> simp [optField]
  · apply wellFormed_append
    · apply wellFormed_append
      · apply wellFormed_append
        · exact wellFormed_cons (.str _) wellFormed_nil
        · exact wellFormed_optField .str
      · exact wellFormed_optField fun q => .num (cfg.numText_isNumberText q)
    · exact wellFormed_optField .bool

theorem PlanNode.wellFormed (cfg : PlanConfig) (node : PlanNode) :
    (node.toJson cfg).WellFormed := by
  refine .obj ?_ ?_
  · cases node.parentId with
    | none =>
      cases node.choiceGroup with
      | none => simp [optField]
      | some group => simp [optField]
    | some parent =>
      cases node.choiceGroup with
      | none => simp [optField]
      | some group => simp [optField]
  · apply wellFormed_append
    · apply wellFormed_append
      · apply wellFormed_append
        · apply wellFormed_append
          · exact wellFormed_cons (.str _)
              (wellFormed_cons (.str _) (wellFormed_cons (.str _) wellFormed_nil))
          · exact wellFormed_optField .str
        · exact wellFormed_cons (wellFormed_texts _) wellFormed_nil
      · exact wellFormed_optField .str
    · exact wellFormed_cons (wellFormed_arr fun p => p.wellFormed cfg)
        (wellFormed_cons (wellFormed_texts _) (wellFormed_cons (wellFormed_texts _)
          (wellFormed_cons (wellFormed_texts _) (wellFormed_cons (.num (cfg.numText_isNumberText _))
              (wellFormed_cons (.num (cfg.numText_isNumberText _)) (wellFormed_cons (.bool _)
                  (wellFormed_cons (wellFormed_natJson _) wellFormed_nil)))))))

theorem VerificationReceipt.wellFormed (x : VerificationReceipt) : x.toJson.WellFormed := by
  refine .obj (by simp) ?_
  exact wellFormed_cons (.str _) (wellFormed_cons (.str _) (wellFormed_cons (.str _)
    (wellFormed_cons (wellFormed_natJson _) (wellFormed_cons (.str _)
      (wellFormed_cons (wellFormed_natJson _) (wellFormed_cons (.str _)
        (wellFormed_cons (.str _) (wellFormed_cons (.str _)
          (wellFormed_cons (.str _) wellFormed_nil)))))))))

-- ===== content

section
variable {cfg : PlanConfig}

/-- What the runtime reads of a node besides its id. -/
structure SameContent (cfg : PlanConfig) (prior node : PlanNode) : Prop where
  digest : digestPlan cfg (prior.toJson cfg) = digestPlan cfg (node.toJson cfg)
  dependsOn : prior.dependsOn = node.dependsOn
  verificationFactKeys : prior.verificationFactKeys = node.verificationFactKeys
  maxAttempts : prior.maxAttempts = node.maxAttempts

theorem PlanNode.field? (cfg : PlanConfig) (node : PlanNode) :
    (node.toJson cfg).field? "dependsOn" = some (texts node.dependsOn)
    ∧ (node.toJson cfg).field? "verificationFactKeys" = some (texts node.verificationFactKeys)
    ∧ (node.toJson cfg).field? "maxAttempts" = some (natJson node.maxAttempts) := by
  rw [PlanNode.toJson, Json.field?, Json.field?, Json.field?]
  cases node.parentId with
  | none =>
    cases node.choiceGroup with
    | none => exact ⟨rfl, rfl, rfl⟩
    | some group => exact ⟨rfl, rfl, rfl⟩
  | some parent =>
    cases node.choiceGroup with
    | none => exact ⟨rfl, rfl, rfl⟩
    | some group => exact ⟨rfl, rfl, rfl⟩

/-- The texts the digests of two graphs' nodes are taken of. -/
def nodeTexts (cfg : PlanConfig) (nodes : List PlanNode) : List String :=
  nodes.map fun node => Json.canonicalJson (node.toJson cfg)

theorem sameContent_of_digest_eq {nodes : List PlanNode}
    (hfree : Json.CollisionFree cfg.sha256 (nodeTexts cfg nodes)) {prior node : PlanNode}
    (hprior : prior ∈ nodes) (hnode : node ∈ nodes)
    (h : digestPlan cfg (prior.toJson cfg) = digestPlan cfg (node.toJson cfg)) :
    SameContent cfg prior node := by
  have htext : Json.canonicalJson (prior.toJson cfg) = Json.canonicalJson (node.toJson cfg) :=
    hfree _ (List.mem_map_of_mem hprior) _ (List.mem_map_of_mem hnode) (Subtype.ext h)
  have hform := (Json.canonicalJson_inj (prior.wellFormed cfg) (node.wellFormed cfg)).1 htext
  obtain ⟨hdepends, hkeys, hmax⟩ := prior.field? cfg
  obtain ⟨hdepends', hkeys', hmax'⟩ := node.field? cfg
  refine ⟨h, ?_, ?_, ?_⟩
  · exact Json.texts_eq_of_canonicalize_eq
      (Json.field_eq_of_canonicalize_eq hform (node.wellFormed cfg) hdepends hdepends')
  · exact Json.texts_eq_of_canonicalize_eq
      (Json.field_eq_of_canonicalize_eq hform (node.wellFormed cfg) hkeys hkeys')
  · exact Json.toString_inj (Json.num.inj
      (Json.field_eq_of_canonicalize_eq hform (node.wellFormed cfg) hmax hmax'))

theorem nodeId_eq_of_canonicalJson_eq {x y : VerificationReceipt}
    (h : Json.canonicalJson x.toJson = Json.canonicalJson y.toJson) : x.nodeId = y.nodeId := by
  have hform := (Json.canonicalJson_inj x.wellFormed y.wellFormed).1 h
  exact Json.str.inj (Json.field_eq_of_canonicalize_eq (k := "nodeId") hform y.wellFormed rfl rfl)

end

end OperatorRuntime.Plan
