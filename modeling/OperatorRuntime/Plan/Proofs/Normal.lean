/-
The validators of a plan, on what they answered: a graph, a decision, a
receipt or a revision proof that went through its validator goes through
it again and comes back as it is.
-/
import OperatorRuntime.Lib.Passes
import OperatorRuntime.Plan.Proofs.Operations

namespace OperatorRuntime.Plan

open Lib

-- ===== values

theorem unique_nodup (values : List String) : (unique values).Nodup :=
  (List.perm_insertionSort _ _).nodup_iff.2 values.nodup_dedup

theorem unique_unique (values : List String) : unique (unique values) = unique values := by
  rw [unique, List.dedup_eq_self.2 (unique_nodup values), unique, Json.sortTexts_sortTexts]

theorem unique_of_sorted {values : List String} (hnd : values.Nodup) :
    unique (Json.sortTexts values) = Json.sortTexts values := by
  have hsorted : (Json.sortTexts values).Nodup := (List.perm_insertionSort _ _).nodup_iff.2 hnd
  rw [unique, List.dedup_eq_self.2 hsorted, Json.sortTexts_sortTexts]

section
variable {label : String}

variable {value : String} {max : Nat}

theorem bounded_eq_ok {text : String} : bounded value max label = .ok text
    ↔ text = value ∧ value ≠ "" ∧ Json.unitLength value ≤ max := by
  rw [bounded, bind_eq_ok]
  simp only [throwIf_eq_ok, not_or, Nat.not_lt, Except.ok.injEq]
  constructor
  · intro h
    obtain ⟨_, ⟨hne, hlen⟩, rfl⟩ := h
    exact ⟨rfl, hne, hlen⟩
  · intro h
    exact ⟨(), h.2, h.1.symm⟩

theorem bounded_again {text : String} (h : bounded value max label = .ok text) :
    bounded text max label = .ok text := by
  obtain ⟨rfl, hok⟩ := bounded_eq_ok.1 h
  exact bounded_eq_ok.2 ⟨rfl, hok⟩

/-- A lower-case digest. -/
def IsDigest (text : String) : Prop := ∃ digest : Hex64, digest.val = text

theorem digestText_eq_self {text : String} (h : IsDigest text) :
    digestText text label = .ok text := by
  obtain ⟨digest, rfl⟩ := h
  rw [digestText, hex64_val]

theorem isDigest_of_digestText {text : String} (h : digestText value label = .ok text) :
    IsDigest text := by
  rw [digestText] at h
  split at h
  · next digest _ => exact ⟨digest, Except.ok.inj h⟩
  · cases h

theorem digestText_again {text : String} (h : digestText value label = .ok text) :
    digestText text label = .ok text :=
  digestText_eq_self (isDigest_of_digestText h)

theorem isDigest_digestPlan (cfg : PlanConfig) (value : Json) :
    IsDigest (digestPlan cfg value) := ⟨_, rfl⟩

theorem IsDigest.ne_empty {text : String} (h : IsDigest text) : text ≠ "" := by
  obtain ⟨digest, rfl⟩ := h
  intro hempty
  have hmatch := digest.2
  rw [hempty] at hmatch
  exact absurd hmatch (by decide)

theorem finite_again {value result low high : ℚ} (h : finite value low high label = .ok result) :
    finite result low high label = .ok result := by
  have hsame := h
  rw [finite] at hsame
  obtain ⟨_, _, hresult⟩ := bind_eq_ok.1 hsame
  cases hresult
  exact h

theorem unit_again {value result : ℚ} (h : unit value label = .ok result) :
    unit result label = .ok result :=
  finite_again h

theorem integer_eq_ok {value result low high : Nat} : integer value low high label = .ok result
    ↔ result = value ∧ low ≤ value ∧ value ≤ high := by
  rw [integer, bind_eq_ok]
  simp only [throwIf_eq_ok, not_or, Nat.not_lt, Except.ok.injEq]
  constructor
  · intro h
    obtain ⟨_, hrange, rfl⟩ := h
    exact ⟨rfl, hrange⟩
  · intro h
    exact ⟨(), h.2, h.1.symm⟩

theorem ifPresent_again {f : String → Except String String} (hf : Normalizes f)
    (hne : ∀ {a b}, f a = .ok b → b ≠ "") {value result : Option String}
    (h : ifPresent value f = .ok result) : ifPresent result f = .ok result := by
  rw [ifPresent] at h ⊢
  cases hfilter : value.filter (fun text => text != "") with
  | none =>
    rw [hfilter] at h
    cases h
    rfl
  | some text =>
    rw [hfilter] at h
    obtain ⟨b, hb, hresult⟩ :=
      bind_eq_ok.1 (show f text >>= (fun b => .ok (some b)) = .ok result from h)
    cases hresult
    have hkeep : (some b).filter (fun text => text != "") = some b := by
      simp [hne hb]
    rw [hkeep]
    exact hf.optionMapM h

variable {values : List String}

theorem textList_eq_ok {result : List String} (h : textList values max label = .ok result) :
    result = unique values ∧ ∀ text ∈ values, text ≠ "" ∧ Json.unitLength text ≤ max := by
  rw [textList] at h
  obtain ⟨kept, hkept, hresult⟩ := bind_eq_ok.1 h
  cases hresult
  obtain ⟨rfl, hbound⟩ := (mapM_eq_ok bounded_eq_ok).1 hkept
  exact ⟨rfl, hbound⟩

theorem textList_of_bounded (h : ∀ text ∈ values, text ≠ "" ∧ Json.unitLength text ≤ max) :
    textList values max label = .ok (unique values) := by
  rw [textList, (mapM_eq_ok (V := fun text => text ≠ "" ∧ Json.unitLength text ≤ max)
    bounded_eq_ok).2 ⟨rfl, h⟩]
  rfl

theorem textList_again {result : List String} (h : textList values max label = .ok result) :
    textList result max label = .ok result := by
  obtain ⟨rfl, hbound⟩ := textList_eq_ok h
  rw [textList_of_bounded fun text hin => hbound text (mem_unique.1 hin), unique_unique]

end

-- ===== nodes

theorem bounded_ne_empty {value text label : String} {max : Nat}
    (h : bounded value max label = .ok text) : text ≠ "" := by
  obtain ⟨rfl, hne, -⟩ := bounded_eq_ok.1 h
  exact hne

theorem digestText_ne_empty {value text label : String}
    (h : digestText value label = .ok text) : text ≠ "" :=
  (isDigest_of_digestText h).ne_empty

theorem normalizePrecondition_again {p result : PlanPrecondition}
    (h : normalizePrecondition p = .ok result) : normalizePrecondition result = .ok result := by
  rw [normalizePrecondition] at h
  obtain ⟨factKey, hfactKey, h⟩ := bind_eq_ok.1 h
  obtain ⟨expected, hexpected, h⟩ := bind_eq_ok.1 h
  obtain ⟨minimum, hminimum, h⟩ := bind_eq_ok.1 h
  cases h
  rw [normalizePrecondition, bounded_again hfactKey, ok_bind,
    ifPresent_again (fun _ _ => digestText_again) digestText_ne_empty hexpected, ok_bind,
    Normalizes.optionMapM (fun _ _ => unit_again) hminimum]
  rfl

theorem normalizePreconditions_again {input result : List PlanPrecondition}
    (h : normalizePreconditions input = .ok result) :
    normalizePreconditions result = .ok result := by
  rw [normalizePreconditions] at h
  obtain ⟨normalized, hnormalized, h⟩ := bind_eq_ok.1 h
  obtain ⟨_, hcheck, h⟩ := bind_eq_ok.1 h
  cases h
  rw [normalizePreconditions, Normalizes.mapM (fun _ _ => normalizePrecondition_again)
    hnormalized, ok_bind, hcheck]
  rfl

theorem normalizeNode_ok {input node : PlanNode} (h : normalizeNode input = .ok node) :
    normalizeNode node = .ok node ∧ node.id = input.id
    ∧ (node.id ≠ "" ∧ Json.unitLength node.id ≤ 256)
    ∧ 1 ≤ node.maxAttempts ∧ node.maxAttempts ≤ 100 := by
  rw [normalizeNode] at h
  obtain ⟨id, hid, h⟩ := bind_eq_ok.1 h
  obtain ⟨title, htitle, h⟩ := bind_eq_ok.1 h
  obtain ⟨parentId, hparent, h⟩ := bind_eq_ok.1 h
  obtain ⟨dependsOn, hdepends, h⟩ := bind_eq_ok.1 h
  obtain ⟨choiceGroup, hchoice, h⟩ := bind_eq_ok.1 h
  obtain ⟨preconditions, hpre, h⟩ := bind_eq_ok.1 h
  obtain ⟨expectedEffects, heffects, h⟩ := bind_eq_ok.1 h
  obtain ⟨verificationFactKeys, hkeys, h⟩ := bind_eq_ok.1 h
  obtain ⟨allowedCapabilities, hcaps, h⟩ := bind_eq_ok.1 h
  obtain ⟨expectedCost, hcost, h⟩ := bind_eq_ok.1 h
  obtain ⟨risk, hrisk, h⟩ := bind_eq_ok.1 h
  obtain ⟨maxAttempts, hmax, h⟩ := bind_eq_ok.1 h
  cases h
  obtain ⟨rfl, hmaxRange⟩ := integer_eq_ok.1 hmax
  obtain ⟨rfl, hidBound⟩ := bounded_eq_ok.1 hid
  refine ⟨?_, rfl, hidBound, hmaxRange⟩
  have hparent' := ifPresent_again (fun _ _ => bounded_again) bounded_ne_empty hparent
  have hchoice' := ifPresent_again (fun _ _ => bounded_again) bounded_ne_empty hchoice
  rw [normalizeNode, hid, ok_bind, bounded_again htitle, ok_bind, hparent', ok_bind,
    textList_again hdepends, ok_bind, hchoice', ok_bind,
    normalizePreconditions_again hpre, ok_bind, textList_again heffects, ok_bind,
    textList_again hkeys, ok_bind, textList_again hcaps, ok_bind,
    finite_again hcost, ok_bind, unit_again hrisk, ok_bind, hmax]
  rfl

theorem normalizeNode_normalizes : Normalizes normalizeNode :=
  fun _ _ h => (normalizeNode_ok h).1

-- ===== graphs

structure Valid (goal : CompiledGoal) (graph : PlanGraph) : Prop where
  again : validatePlanGraph goal graph = .ok graph
  goalId : graph.goalId = goal.id
  planId : graph.planId ≠ "" ∧ Json.unitLength graph.planId ≤ 256
  version : 1 ≤ graph.version ∧ graph.version ≤ maxSafeInteger
  nodup : (graph.nodes.map (·.id)).Nodup
  ids : ∀ node ∈ graph.nodes, node.id ≠ "" ∧ Json.unitLength node.id ≤ 256
  attempts : ∀ node ∈ graph.nodes, node.maxAttempts ≤ 100
  links : ∀ node ∈ graph.nodes, ∀ dep ∈ node.dependsOn, ∃ other ∈ graph.nodes, other.id = dep

theorem forM_eq_ok {α : Type} {f : α → Except String Unit} {l : List α} :
    l.forM f = .ok () ↔ ∀ a ∈ l, f a = .ok () := by
  induction l with
  | nil => exact ⟨fun _ a ha => (nomatch ha), fun _ => rfl⟩
  | cons a l ih =>
    show (f a >>= fun _ => l.forM f) = .ok () ↔ _
    rw [bind_eq_ok, List.forall_mem_cons, ← ih]
    constructor
    · intro h
      obtain ⟨_, ha, hl⟩ := h
      exact ⟨ha, hl⟩
    · intro h
      exact ⟨(), h.1, h.2⟩

theorem links_of_checkNodes {nodes : List PlanNode} {roots : List String}
    (h : checkNodes nodes roots = .ok ()) :
    ∀ node ∈ nodes, ∀ dep ∈ node.dependsOn, ∃ other ∈ nodes, other.id = dep := by
  rw [checkNodes] at h
  obtain ⟨_, _, h⟩ := bind_eq_ok.1 h
  obtain ⟨_, hlinks, _⟩ := bind_eq_ok.1 h
  rw [checkLinks] at hlinks
  intro node hnode dep hdep
  have hone := forM_eq_ok.1 hlinks node hnode
  obtain ⟨_, _, hone⟩ := bind_eq_ok.1 hone
  obtain ⟨_, _, hone⟩ := bind_eq_ok.1 hone
  obtain ⟨_, hknown, _⟩ := bind_eq_ok.1 (forM_eq_ok.1 hone dep hdep)
  obtain ⟨other, hother⟩ := Option.ne_none_iff_exists'.1 (throwIf_eq_ok.1 hknown)
  exact ⟨other, mem_of_nodeOf? hother⟩

theorem valid_of_validatePlanGraph {goal : CompiledGoal} {input graph : PlanGraph}
    (h : validatePlanGraph goal input = .ok graph) : Valid goal graph := by
  rw [validatePlanGraph] at h
  obtain ⟨_, hgoal, h⟩ := bind_eq_ok.1 h
  obtain ⟨_, hversion, h⟩ := bind_eq_ok.1 h
  obtain ⟨_, hcount, h⟩ := bind_eq_ok.1 h
  obtain ⟨nodes, hnodes, h⟩ := bind_eq_ok.1 h
  obtain ⟨_, hnodup, h⟩ := bind_eq_ok.1 h
  obtain ⟨roots, hroots, h⟩ := bind_eq_ok.1 h
  obtain ⟨_, hcheck, h⟩ := bind_eq_ok.1 h
  obtain ⟨planId, hplan, h⟩ := bind_eq_ok.1 h
  cases h
  have hlen : nodes.length = input.nodes.length := by
    simpa using congrArg List.length
      (map_eq_of_mapM_eq_ok (g := fun _ => ()) (k := fun _ => ()) hnodes fun _ _ _ _ => rfl)
  obtain ⟨rfl, hrootBounds⟩ := (mapM_eq_ok bounded_eq_ok).1 hroots
  have hrootsAgain : (unique input.rootNodeIds).mapM (bounded · 256 "rootNodeId")
      = .ok (unique input.rootNodeIds) := by
    refine mapM_eq_self ?_
    intro root hroot
    exact bounded_eq_ok.2 ⟨rfl, hrootBounds root (mem_unique.1 hroot)⟩
  have hnode : ∀ node ∈ nodes, ∃ a ∈ input.nodes, normalizeNode a = .ok node :=
    fun node hin => exists_of_mapM_eq_ok hnodes hin
  refine ⟨?_, ?_, ?_, ?_, ?_, ?_, ?_, links_of_checkNodes hcheck⟩
  · rw [validatePlanGraph]
    dsimp only
    rw [hgoal, ok_bind, hversion, ok_bind, hlen, hcount, ok_bind,
      normalizeNode_normalizes.mapM hnodes, ok_bind, hnodup, ok_bind, hrootsAgain, ok_bind,
      unique_unique, hcheck, ok_bind, bounded_again hplan]
    rfl
  · exact not_not.1 (throwIf_eq_ok.1 hgoal)
  · obtain ⟨rfl, hbound⟩ := bounded_eq_ok.1 hplan
    exact hbound
  · have hrange := throwIf_eq_ok.1 hversion
    dsimp only
    omega
  · exact not_not.1 (throwIf_eq_ok.1 hnodup)
  · intro node hin
    obtain ⟨a, _, ha⟩ := hnode node hin
    exact (normalizeNode_ok ha).2.2.1
  · intro node hin
    obtain ⟨a, _, ha⟩ := hnode node hin
    exact (normalizeNode_ok ha).2.2.2.2

theorem compileGoal_id {draft : GoalDraft} {goal : CompiledGoal}
    (h : compileGoal draft = .ok goal) : goal.id ≠ "" ∧ Json.unitLength goal.id ≤ 256 := by
  rw [compileGoal] at h
  iterate 9 obtain ⟨_, _, h⟩ := bind_eq_ok.1 h
  obtain ⟨goalId, hid, h⟩ := bind_eq_ok.1 h
  iterate 3 obtain ⟨_, _, h⟩ := bind_eq_ok.1 h
  cases h
  obtain ⟨rfl, hbound⟩ := bounded_eq_ok.1 hid
  exact hbound

-- === decisions, receipts, proofs

variable {cfg : PlanConfig}

theorem validateDecisionLineage_again {input decision : PlanDecision}
    (h : validateDecisionLineage cfg input = .ok decision) :
    validateDecisionLineage cfg decision = .ok decision := by
  rw [validateDecisionLineage] at h
  obtain ⟨normalized, hnormalized, h⟩ := bind_eq_ok.1 h
  obtain ⟨actual, hactual, h⟩ := bind_eq_ok.1 h
  obtain ⟨_, hdigest, h⟩ := bind_eq_ok.1 h
  cases h
  rw [normalizeDecision] at hnormalized
  obtain ⟨_, hiso, hnormalized⟩ := bind_eq_ok.1 hnormalized
  obtain ⟨planId, hplan, hnormalized⟩ := bind_eq_ok.1 hnormalized
  obtain ⟨planVersion, hversion, hnormalized⟩ := bind_eq_ok.1 hnormalized
  obtain ⟨planDigest, hplanDigest, hnormalized⟩ := bind_eq_ok.1 hnormalized
  obtain ⟨goalId, hgoal, hnormalized⟩ := bind_eq_ok.1 hnormalized
  obtain ⟨nodeId, hnode, hnormalized⟩ := bind_eq_ok.1 hnormalized
  obtain ⟨beliefDigest, hbelief, hnormalized⟩ := bind_eq_ok.1 hnormalized
  obtain ⟨decisionId, hdecision, hnormalized⟩ := bind_eq_ok.1 hnormalized
  cases hnormalized
  obtain ⟨rfl, hrange⟩ := integer_eq_ok.1 hversion
  rw [validateDecisionLineage, normalizeDecision]
  dsimp only
  rw [hiso, ok_bind, bounded_again hplan, ok_bind, hversion, ok_bind,
    digestText_again hplanDigest, ok_bind, bounded_again hgoal, ok_bind,
    bounded_again hnode, ok_bind, digestText_again hbelief, ok_bind,
    bounded_again hdecision, ok_bind, ok_bind, digestText_again hactual, ok_bind]
  exact bind_eq_ok.2 ⟨(), hdigest, rfl⟩

theorem validateCompletionReceipt_ok {input receipt : VerificationReceipt}
    {expected : CompletionLineage} (h : validateCompletionReceipt input expected = .ok receipt) :
    validateCompletionReceipt receipt expected = .ok receipt
    ∧ IsDigest receipt.digest ∧ receipt.goalId = expected.goalId
    ∧ receipt.planId = expected.planId ∧ receipt.planVersion = expected.planVersion
    ∧ receipt.nodeId = expected.nodeId ∧ receipt.attempt = expected.attempt
    ∧ receipt.executionDigest = expected.executionDigest := by
  rw [validateCompletionReceipt] at h
  obtain ⟨digest, hdigest, h⟩ := bind_eq_ok.1 h
  obtain ⟨goalId, hgoal, h⟩ := bind_eq_ok.1 h
  obtain ⟨planId, hplan, h⟩ := bind_eq_ok.1 h
  obtain ⟨planVersion, hversion, h⟩ := bind_eq_ok.1 h
  obtain ⟨nodeId, hnode, h⟩ := bind_eq_ok.1 h
  obtain ⟨attempt, hattempt, h⟩ := bind_eq_ok.1 h
  obtain ⟨executionDigest, hexecution, h⟩ := bind_eq_ok.1 h
  obtain ⟨verifierId, hverifier, h⟩ := bind_eq_ok.1 h
  obtain ⟨verifiedAt, hverified, h⟩ := bind_eq_ok.1 h
  obtain ⟨authority, hauthority, h⟩ := bind_eq_ok.1 h
  obtain ⟨_, hbound, h⟩ := bind_eq_ok.1 h
  cases h
  obtain ⟨rfl, -⟩ := integer_eq_ok.1 hversion
  obtain ⟨rfl, -⟩ := integer_eq_ok.1 hattempt
  obtain ⟨rfl, -⟩ := validIso_eq_ok.1 hverified
  refine ⟨?_, isDigest_of_digestText hdigest, ?_⟩
  · rw [validateCompletionReceipt]
    dsimp only
    rw [digestText_again hdigest, ok_bind, bounded_again hgoal, ok_bind,
      bounded_again hplan, ok_bind, hversion, ok_bind, bounded_again hnode,
      ok_bind, hattempt, ok_bind, digestText_again hexecution, ok_bind,
      bounded_again hverifier, ok_bind, hverified, ok_bind,
      digestText_again hauthority, ok_bind, hbound]
    rfl
  · have hsame := throwIf_eq_ok.1 hbound
    push Not at hsame
    exact hsame

theorem sortPreserved_sortPreserved (cfg : PlanConfig) (entries : List PreservedNodeDigest) :
    sortPreserved cfg (sortPreserved cfg entries) = sortPreserved cfg entries := by
  have : Std.Total fun a b : PreservedNodeDigest => cfg.localeLe a.nodeId b.nodeId = true :=
    ⟨fun a b => cfg.localeLe_total _ _⟩
  have : IsTrans PreservedNodeDigest fun a b => cfg.localeLe a.nodeId b.nodeId = true :=
    ⟨fun _ _ _ => cfg.localeLe_trans _ _ _⟩
  exact (List.pairwise_insertionSort _ entries).insertionSort_eq

theorem mem_sortPreserved {entries : List PreservedNodeDigest} {entry : PreservedNodeDigest} :
    entry ∈ sortPreserved cfg entries ↔ entry ∈ entries :=
  List.mem_insertionSort _

theorem normalizeProof_again {input proof : PlanRevisionProof}
    (h : normalizeProof cfg input = .ok proof) (digest : String) :
    normalizeProof cfg { proof with digest } = .ok { proof with digest } := by
  rw [normalizeProof] at h
  obtain ⟨fromVersion, hfrom, h⟩ := bind_eq_ok.1 h
  obtain ⟨toVersion, hto, h⟩ := bind_eq_ok.1 h
  obtain ⟨_, hconsecutive, h⟩ := bind_eq_ok.1 h
  obtain ⟨preserved, hpreserved, h⟩ := bind_eq_ok.1 h
  obtain ⟨_, hnodup, h⟩ := bind_eq_ok.1 h
  obtain ⟨planId, hplan, h⟩ := bind_eq_ok.1 h
  obtain ⟨goalId, hgoal, h⟩ := bind_eq_ok.1 h
  obtain ⟨fromPlanDigest, hfromDigest, h⟩ := bind_eq_ok.1 h
  obtain ⟨toPlanDigest, htoDigest, h⟩ := bind_eq_ok.1 h
  obtain ⟨resetNodeIds, hreset, h⟩ := bind_eq_ok.1 h
  obtain ⟨createdAt, hcreated, h⟩ := bind_eq_ok.1 h
  cases h
  obtain ⟨rfl, -⟩ := integer_eq_ok.1 hfrom
  obtain ⟨rfl, -⟩ := integer_eq_ok.1 hto
  obtain ⟨rfl, -⟩ := validIso_eq_ok.1 hcreated
  have hentries : (sortPreserved cfg preserved).mapM (fun entry : PreservedNodeDigest => do
        let nodeId ← bounded entry.nodeId 256 "revision.nodeId"
        let nodeDigest ← digestText entry.nodeDigest "revision.nodeDigest"
        .ok (PreservedNodeDigest.mk nodeId nodeDigest)) = .ok (sortPreserved cfg preserved) := by
    refine mapM_eq_self ?_
    intro entry hin
    obtain ⟨raw, _, hraw⟩ := exists_of_mapM_eq_ok hpreserved (mem_sortPreserved.1 hin)
    obtain ⟨nodeId, hnode, hraw⟩ := bind_eq_ok.1 hraw
    obtain ⟨nodeDigest, hdigest, hraw⟩ := bind_eq_ok.1 hraw
    cases hraw
    dsimp only
    rw [bounded_again hnode, ok_bind, digestText_again hdigest]
    rfl
  rw [normalizeProof]
  dsimp only
  rw [hfrom, ok_bind, hto, ok_bind, hconsecutive, ok_bind, hentries, ok_bind,
    sortPreserved_sortPreserved, hnodup, ok_bind, bounded_again hplan, ok_bind,
    bounded_again hgoal, ok_bind, digestText_again hfromDigest, ok_bind,
    digestText_again htoDigest, ok_bind, textList_again hreset, ok_bind, hcreated]
  rfl

theorem validateRevisionProof_created {input proof : PlanRevisionProof}
    (h : createRevisionProof cfg input = .ok proof) :
    validateRevisionProof cfg proof = .ok proof := by
  rw [createRevisionProof] at h
  obtain ⟨normalized, hnormalized, h⟩ := bind_eq_ok.1 h
  cases h
  rw [validateRevisionProof, normalizeProof_again hnormalized, ok_bind]
  dsimp only
  rw [digestText_eq_self (isDigest_digestPlan cfg _), ok_bind]
  exact bind_eq_ok.2 ⟨(), throwIf_of_not (not_not.2 rfl), rfl⟩

end OperatorRuntime.Plan
