/-
A revision keeps a plan runtime sound. Outside the reset nodes a node has
the content it had, and what it depends on is outside them too, so its
state, its receipt and its dependencies carry over; the proof of the
revision lists it, which is what the receipt needs from then on.

Content is compared by digest. `NodesApart` is what SHA-256 is taken to
meet: no two nodes of the old and the new plan have different texts and
one digest.
-/
import OperatorRuntime.Plan.Proofs.Steps

namespace OperatorRuntime.Plan

open Lib

-- ===== the proof

theorem createRevisionProof_ok {cfg : PlanConfig} {input proof : PlanRevisionProof}
    (h : createRevisionProof cfg input = .ok proof) (hfrom : IsDigest input.fromPlanDigest)
    (hto : IsDigest input.toPlanDigest)
    (hentries : ∀ e ∈ input.preservedNodeDigests, IsDigest e.nodeDigest) :
    proof.planId = input.planId ∧ proof.goalId = input.goalId
    ∧ proof.fromVersion = input.fromVersion ∧ proof.toVersion = input.toVersion
    ∧ proof.fromPlanDigest = input.fromPlanDigest ∧ proof.toPlanDigest = input.toPlanDigest
    ∧ (∀ e ∈ input.preservedNodeDigests, e ∈ proof.preservedNodeDigests)
    ∧ ∀ id ∈ input.resetNodeIds, id ∈ proof.resetNodeIds := by
  rw [createRevisionProof] at h
  obtain ⟨normalized, hnormalized, h⟩ := bind_eq_ok.1 h
  cases h
  rw [normalizeProof] at hnormalized
  obtain ⟨fromVersion, hfromVersion, hnormalized⟩ := bind_eq_ok.1 hnormalized
  obtain ⟨toVersion, htoVersion, hnormalized⟩ := bind_eq_ok.1 hnormalized
  obtain ⟨_, _, hnormalized⟩ := bind_eq_ok.1 hnormalized
  obtain ⟨preserved, hpreserved, hnormalized⟩ := bind_eq_ok.1 hnormalized
  obtain ⟨_, _, hnormalized⟩ := bind_eq_ok.1 hnormalized
  obtain ⟨planId, hplan, hnormalized⟩ := bind_eq_ok.1 hnormalized
  obtain ⟨goalId, hgoal, hnormalized⟩ := bind_eq_ok.1 hnormalized
  obtain ⟨fromPlanDigest, hfromDigest, hnormalized⟩ := bind_eq_ok.1 hnormalized
  obtain ⟨toPlanDigest, htoDigest, hnormalized⟩ := bind_eq_ok.1 hnormalized
  obtain ⟨resetNodeIds, hreset, hnormalized⟩ := bind_eq_ok.1 hnormalized
  obtain ⟨createdAt, hcreated, hnormalized⟩ := bind_eq_ok.1 hnormalized
  cases hnormalized
  rw [digestText_eq_self hfrom] at hfromDigest
  rw [digestText_eq_self hto] at htoDigest
  obtain ⟨rfl, hbounded⟩ := textList_eq_ok hreset
  refine ⟨(bounded_eq_ok.1 hplan).1, (bounded_eq_ok.1 hgoal).1,
    (integer_eq_ok.1 hfromVersion).1, (integer_eq_ok.1 htoVersion).1,
    (Except.ok.inj hfromDigest).symm, (Except.ok.inj htoDigest).symm, ?_, ?_⟩
  · intro e he
    obtain ⟨kept, hkept, hround⟩ := exists_answer_of_mapM hpreserved he
    obtain ⟨nodeId, hnode, hround⟩ := bind_eq_ok.1 hround
    rw [digestText_eq_self (hentries e he), ok_bind, (bounded_eq_ok.1 hnode).1] at hround
    rw [← Except.ok.inj hround] at hkept
    exact mem_sortPreserved.2 hkept
  · intro id hid
    exact mem_unique.2 hid

-- ===== the revision

/-- What an answered `revisePlan` did; `reset` holds the nodes that start
over. -/
structure Revised (cfg : PlanConfig) (goal : CompiledGoal) (previous : PlanGraph)
    (states : List PlanNodeState) (now : String) (revision : PlanRevisionResult)
    (reset : List String) : Prop where
  iso : isIso now = true
  valid : Valid goal revision.graph
  planId : revision.graph.planId = previous.planId
  version : revision.graph.version = previous.version + 1
  unchanged : ∀ node ∈ revision.graph.nodes, node.id ∉ reset →
    ∃ prior, nodeOf? previous.nodes node.id = some prior
      ∧ digestPlan cfg (prior.toJson cfg) = digestPlan cfg (node.toJson cfg)
  closed : ∀ node ∈ revision.graph.nodes, ∀ dep ∈ node.dependsOn, dep ∈ reset → node.id ∈ reset
  states : revision.states
    = (initializeNodeStates revision.graph now).map (revisedState reset states)
  proofValid : validateRevisionProof cfg revision.proof = .ok revision.proof
  proofPlan : revision.proof.planId = previous.planId ∧ revision.proof.goalId = goal.id
  proofVersions : revision.proof.fromVersion = previous.version
    ∧ revision.proof.toVersion = revision.graph.version
  proofDigests : revision.proof.fromPlanDigest = digestPlan cfg (previous.toJson cfg)
    ∧ revision.proof.toPlanDigest = digestPlan cfg (revision.graph.toJson cfg)
  proofLists : ∀ node ∈ revision.graph.nodes, node.id ∉ reset →
    ⟨node.id, digestPlan cfg (node.toJson cfg)⟩ ∈ revision.proof.preservedNodeDigests
  proofResets : ∀ id ∈ reset, id ∈ revision.proof.resetNodeIds

theorem unchangedNode_iff {cfg : PlanConfig} {previous : PlanGraph} {node : PlanNode} :
    unchangedNode cfg previous node = true ↔ ∃ prior, nodeOf? previous.nodes node.id = some prior
        ∧ digestPlan cfg (prior.toJson cfg) = digestPlan cfg (node.toJson cfg) := by
  rw [unchangedNode, Option.any_eq_true]
  simp only [beq_iff_eq]

def resetNodes (cfg : PlanConfig) (previous next : PlanGraph) : List String :=
  dependentClosure next (Json.sortTexts
    ((next.nodes.filter fun node => !unchangedNode cfg previous node).map (·.id)))

theorem unchanged_of_not_reset {cfg : PlanConfig} {previous next : PlanGraph}
    {node : PlanNode} (hnode : node ∈ next.nodes) (hout : node.id ∉ resetNodes cfg previous next) :
    unchangedNode cfg previous node = true := by
  by_contra hchanged
  refine hout (subset_dependentClosure (mem_sortTexts.2 ?_))
  exact List.mem_map_of_mem (List.mem_filter.2 ⟨hnode, by simpa using hchanged⟩)

theorem revisePlan_ok {cfg : PlanConfig} {goal : CompiledGoal} {previous nextInput : PlanGraph}
    {states : List PlanNodeState} {now : String} {revision : PlanRevisionResult}
    (h : revisePlan cfg goal previous states nextInput now = .ok revision) :
    validatePlanGraph goal nextInput = .ok revision.graph
    ∧ ∃ reset, Revised cfg goal previous states now revision reset := by
  rw [revisePlan] at h
  obtain ⟨_, hnow, h⟩ := bind_eq_ok.1 h
  obtain ⟨_, _, h⟩ := bind_eq_ok.1 h
  obtain ⟨_, _, h⟩ := bind_eq_ok.1 h
  obtain ⟨next, hnext, h⟩ := bind_eq_ok.1 h
  obtain ⟨_, hidentity, h⟩ := bind_eq_ok.1 h
  obtain ⟨_, hversion, h⟩ := bind_eq_ok.1 h
  obtain ⟨proof, hproof, h⟩ := bind_eq_ok.1 h
  cases h
  have hvalid := valid_of_validatePlanGraph hnext
  rw [throwIf_eq_ok] at hidentity hversion
  push Not at hidentity hversion
  obtain ⟨hplan, hgoal, hfrom, hto, hfromDigest, htoDigest, hlists, hresets⟩ :=
    createRevisionProof_ok hproof (isDigest_digestPlan cfg _) (isDigest_digestPlan cfg _) (by
      intro e he
      obtain ⟨node, _, rfl⟩ := List.mem_map.1 (mem_sortPreserved.1 he)
      exact isDigest_digestPlan cfg _)
  refine ⟨hnext, resetNodes cfg previous next, ?_⟩
  exact
    { iso := (validIso_eq_ok.1 hnow).2
      valid := hvalid
      planId := hidentity.1
      version := hversion
      unchanged := fun node hnode hout => unchangedNode_iff.1 (unchanged_of_not_reset hnode hout)
      closed := fun node hnode dep hdep hin => dependentClosure_closed hnode hdep hin
      states := rfl
      proofValid := validateRevisionProof_created hproof
      proofPlan := ⟨hplan.trans hidentity.1, hgoal.trans hvalid.goalId⟩
      proofVersions := ⟨hfrom, hto⟩
      proofDigests := ⟨hfromDigest, htoDigest⟩
      proofLists := by
        intro node hnode hout
        refine hlists _ (mem_sortPreserved.2 (List.mem_map.2 ⟨node, ?_, rfl⟩))
        refine List.mem_filter.2 ⟨hnode, ?_⟩
        rw [Bool.and_eq_true, Bool.not_eq_true', List.contains_eq_mem, decide_eq_false_iff_not]
        exact ⟨hout, unchanged_of_not_reset hnode hout⟩
      proofResets := fun id hin => hresets id (mem_sortTexts.2 hin) }

-- ===== the states

def freshState (now : String) (node : PlanNode) : PlanNodeState where
  nodeId := node.id
  status := if node.dependsOn = [] ∧ node.preconditions = [] then .ready else .pending
  attempts := 0
  lastReason := .absent
  lastExecutionDigest := .absent
  verificationReceiptDigest := .absent
  verifiedNodeDigest := .absent
  lastUpdatedAt := now

theorem initializeNodeStates_eq (graph : PlanGraph) (now : String) :
    initializeNodeStates graph now = graph.nodes.map (freshState now) := rfl

theorem revisedState_nodeId (reset : List String) (states : List PlanNodeState)
    (fresh : PlanNodeState) : (revisedState reset states fresh).nodeId = fresh.nodeId := by
  unfold revisedState
  split
  · rfl
  · cases hs : stateOf? states fresh.nodeId with
    | none => rfl
    | some s => exact (mem_of_stateOf? hs).2

theorem freshState_status (now : String) (node : PlanNode) :
    (freshState now node).status = .ready ∨ (freshState now node).status = .pending := by
  unfold freshState
  dsimp only
  split
  · exact .inl rfl
  · exact .inr rfl

theorem freshState_not_succeeded (now : String) (node : PlanNode) :
    (freshState now node).status ≠ .succeeded := by
  rcases freshState_status now node with hstatus | hstatus
  · rw [hstatus]
    decide
  · rw [hstatus]
    decide

theorem freshState_waits (now : String) (node other : PlanNode) :
    Waits other (freshState now node) := by
  refine ⟨fun _ => rfl, ?_⟩
  intro hblocked
  rcases freshState_status now node with hstatus | hstatus
  · rw [hstatus] at hblocked
    cases hblocked
  · rw [hstatus] at hblocked
    cases hblocked

theorem freshState_sound (cfg : PlanConfig) (now : String) (node : PlanNode) :
    NodeSound cfg node (freshState now node) :=
  ⟨Nat.zero_le _, fun hd => (nomatch hd), fun hd => (nomatch hd), fun hd => (nomatch hd)⟩

theorem dependsOn_of_freshState_started {now : String} {node : PlanNode}
    (h : (freshState now node).started) : node.dependsOn = [] := by
  by_contra hdeps
  have hstatus : (freshState now node).status = .pending := by
    rw [freshState, if_neg fun hc => hdeps hc.1]
  simp [PlanNodeState.started, hstatus] at h

section
variable {cfg : PlanConfig} {r : VerifiedPlanRuntime} {now : String}
  {revision : PlanRevisionResult} {reset : List String}

theorem Revised.statesOf (hrev : Revised cfg r.goal r.graph r.states now revision reset) :
    StatesOf revision.graph revision.states := by
  refine ⟨?_, hrev.valid.nodup⟩
  rw [hrev.states, initializeNodeStates_eq, List.map_map, List.map_map]
  exact List.map_congr_left fun node _ => revisedState_nodeId reset r.states _

theorem Revised.kept (hrev : Revised cfg r.goal r.graph r.states now revision reset)
    {node : PlanNode} (hnode : node ∈ revision.graph.nodes) (hout : node.id ∉ reset)
    {s : PlanNodeState} (hs : stateOf? r.states node.id = some s) :
    stateOf? revision.states node.id = some s := by
  refine (stateOf?_eq_some hrev.statesOf.states_nodup).2 ⟨?_, (mem_of_stateOf? hs).2⟩
  rw [hrev.states, initializeNodeStates_eq]
  refine List.mem_map.2 ⟨freshState now node, List.mem_map_of_mem hnode, ?_⟩
  rw [revisedState, if_neg (show (freshState now node).nodeId ∉ reset from hout)]
  show (stateOf? r.states node.id).getD _ = s
  rw [hs]
  rfl

/-- The old and the new nodes have different texts where they have
different content. -/
def NodesApart (cfg : PlanConfig) (previous next : PlanGraph) : Prop :=
  Json.CollisionFree cfg.sha256 (nodeTexts cfg (previous.nodes ++ next.nodes))

theorem Revised.prior (h : PlanInv cfg r)
    (hrev : Revised cfg r.goal r.graph r.states now revision reset)
    (hapart : NodesApart cfg r.graph revision.graph) {node : PlanNode}
    (hnode : node ∈ revision.graph.nodes) (hout : node.id ∉ reset) :
    ∃ prior ∈ r.graph.nodes, ∃ s, prior.id = node.id ∧ SameContent cfg prior node
    ∧ stateOf? r.states node.id = some s := by
  obtain ⟨prior, hprior, hdigest⟩ := hrev.unchanged node hnode hout
  obtain ⟨hmem, hid⟩ := mem_of_nodeOf? hprior
  obtain ⟨s, hs⟩ := h.exec.states.exists_state hmem
  exact ⟨prior, hmem, s, hid, sameContent_of_digest_eq hapart (List.mem_append_left _ hmem)
    (List.mem_append_right _ hnode) hdigest, hid ▸ hs⟩

theorem Revised.state_cases (h : PlanInv cfg r)
    (hrev : Revised cfg r.goal r.graph r.states now revision reset)
    (hapart : NodesApart cfg r.graph revision.graph) {node : PlanNode}
    (hnode : node ∈ revision.graph.nodes) {s : PlanNodeState} (hs : s ∈ revision.states)
    (hid : s.nodeId = node.id) :
    s = freshState now node ∨ node.id ∉ reset ∧ ∃ prior ∈ r.graph.nodes, prior.id = node.id
        ∧ SameContent cfg prior node ∧ s ∈ r.states ∧ s.nodeId = prior.id := by
  by_cases hin : node.id ∈ reset
  · refine .inl ?_
    rw [hrev.states, initializeNodeStates_eq, List.map_map] at hs
    obtain ⟨other, hother, rfl⟩ := List.mem_map.1 hs
    rw [Function.comp_apply, revisedState_nodeId] at hid
    obtain rfl : other = node := List.inj_on_of_nodup_map hrev.valid.nodup hother hnode hid
    rw [Function.comp_apply, revisedState, if_pos]
    exact hin
  · refine .inr ⟨hin, ?_⟩
    obtain ⟨prior, hprior, t, hpid, hsame, ht⟩ := hrev.prior h hapart hnode hin
    have hkept := hrev.kept hnode hin ht
    rw [(stateOf?_eq_some hrev.statesOf.states_nodup).2 ⟨hs, hid⟩] at hkept
    obtain rfl : s = t := Option.some.inj hkept
    exact ⟨prior, hprior, hpid, hsame, (mem_of_stateOf? ht).1, hid.trans hpid.symm⟩

/-- The runtime the constructor makes of a revision. -/
def revisedOf (cfg : PlanConfig) (r : VerifiedPlanRuntime) (revision : PlanRevisionResult) :
    VerifiedPlanRuntime :=
  let state := r.revisedRuntime cfg revision
  { goal := r.goal
    graph := revision.graph
    goalDigest := r.goalDigest
    planDigest := state.planDigest
    states := revision.states
    decisions := []
    receipts := state.verificationReceipts
    revisionProofs := r.revisionProofs ++ [revision.proof] }

theorem revisedOf_exportState (revision : PlanRevisionResult) :
    (revisedOf cfg r revision).exportState = r.revisedRuntime cfg revision := rfl

theorem mem_revisedOf_receipts {x : VerificationReceipt} : x ∈ (revisedOf cfg r revision).receipts
    ↔ x ∈ r.receipts ∧ ∃ s ∈ revision.states, s.status = .succeeded
      ∧ s.verificationReceiptDigest.truthy = some x.digest := by
  show x ∈ List.filter _ _ ↔ _
  rw [List.mem_filter, decide_eq_true_iff, List.mem_filterMap]
  simp only [List.mem_filter, beq_iff_eq, and_assoc]

theorem Revised.execInv (h : PlanInv cfg r)
    (hrev : Revised cfg r.goal r.graph r.states now revision reset)
    (hapart : NodesApart cfg r.graph revision.graph) : ExecInv (revisedOf cfg r revision) := by
  refine ⟨hrev.statesOf, ?_⟩
  intro node hnode s hs hid
  rcases hrev.state_cases h hapart hnode hs hid with
    rfl | ⟨-, prior, hprior, -, hsame, hold, hpid⟩
  · exact freshState_waits now node node
  · have hwaits := h.exec.waits prior hprior s hold hpid
    exact ⟨hwaits.fresh, hsame.verificationFactKeys ▸ hwaits.awaited⟩

theorem Revised.timed (hrev : Revised cfg r.goal r.graph r.states now revision reset)
    (htimed : Timed r.states) : Timed revision.states := by
  intro s hs
  rw [hrev.states, initializeNodeStates_eq, List.map_map] at hs
  obtain ⟨node, _, rfl⟩ := List.mem_map.1 hs
  rw [Function.comp_apply, revisedState]
  split
  · exact hrev.iso
  · cases hfind : stateOf? r.states (freshState now node).nodeId with
    | none => exact hrev.iso
    | some t => exact htimed t (mem_of_stateOf? hfind).1

theorem Revised.nodes (h : PlanInv cfg r)
    (hrev : Revised cfg r.goal r.graph r.states now revision reset)
    (hapart : NodesApart cfg r.graph revision.graph) :
    ForNodes (NodeSound cfg) revision.graph revision.states := by
  intro node hnode s hs hid
  rcases hrev.state_cases h hapart hnode hs hid with
    rfl | ⟨-, prior, hprior, -, hsame, hold, hpid⟩
  · exact freshState_sound cfg now node
  · have hsound := h.nodes prior hprior s hold hpid
    refine ⟨hsame.maxAttempts ▸ hsound.attempts, hsound.execution, ?_, hsound.content⟩
    intro d hd
    rw [← hsame.digest, ← hsame.verificationFactKeys]
    exact hsound.receipt hd

theorem Revised.dependencies (h : PlanInv cfg r)
    (hrev : Revised cfg r.goal r.graph r.states now revision reset)
    (hapart : NodesApart cfg r.graph revision.graph) :
    ForNodes (fun node s => s.started → DependenciesDone revision.states node)
      revision.graph revision.states := by
  intro node hnode s hs hid hstarted dep hdep
  rcases hrev.state_cases h hapart hnode hs hid with
    rfl | ⟨hout, prior, hprior, -, hsame, hold, hpid⟩
  · rw [dependsOn_of_freshState_started hstarted] at hdep
    cases hdep
  · obtain ⟨d, hd, hdone⟩ := h.dependencies prior hprior s hold hpid hstarted dep
      (hsame.dependsOn ▸ hdep)
    obtain ⟨other, hother, rfl⟩ := hrev.valid.links node hnode dep hdep
    exact ⟨d, hrev.kept hother (fun hin => hout (hrev.closed node hnode _ hdep hin)) hd, hdone⟩

theorem Revised.verified (h : PlanInv cfg r)
    (hrev : Revised cfg r.goal r.graph r.states now revision reset)
    (hapart : NodesApart cfg r.graph revision.graph) :
    ForNodes (fun node s => s.status = .succeeded → node.verificationFactKeys ≠ [] →
      ∃ x ∈ (revisedOf cfg r revision).receipts, x.nodeId = node.id
        ∧ s.verificationReceiptDigest = .val x.digest) revision.graph revision.states := by
  intro node hnode s hs hid hdone hkeys
  rcases hrev.state_cases h hapart hnode hs hid with
    rfl | ⟨-, prior, hprior, hprid, hsame, hold, hpid⟩
  · exact absurd hdone (freshState_not_succeeded now node)
  · obtain ⟨x, hx, hxid, href⟩ := h.verified prior hprior s hold hpid hdone
      (hsame.verificationFactKeys ▸ hkeys)
    refine ⟨x, mem_revisedOf_receipts.2 ⟨hx, s, hs, hdone, ?_⟩, hxid.trans hprid, href⟩
    rw [href]
    exact Slot.truthy_val (h.receipt_ne_empty hx)

theorem Revised.receipts (h : PlanInv cfg r)
    (hrev : Revised cfg r.goal r.graph r.states now revision reset)
    (hapart : NodesApart cfg r.graph revision.graph) : ∀ x ∈ (revisedOf cfg r revision).receipts,
      ∃ node s, ReceiptSound cfg (revisedOf cfg r revision) x node s := by
  intro x hx
  obtain ⟨hxr, s, hs, hdone, htruthy⟩ := mem_revisedOf_receipts.1 hx
  obtain ⟨node, hnode, hid⟩ := hrev.statesOf.exists_node hs
  rcases hrev.state_cases h hapart hnode hs hid with
    rfl | ⟨hout, prior, hprior, hprid, hsame, hold, hpid⟩
  · cases htruthy
  · -- The receipt the state names is this one, since no two share a digest.
    have hkeys := ((h.nodes prior hprior s hold hpid).receipt htruthy).2.2.2
    obtain ⟨y, hy, hyid, href⟩ := h.verified prior hprior s hold hpid hdone hkeys
    have hyx : y = x := by
      refine List.inj_on_of_nodup_map h.distinct hy hxr ?_
      rw [href, Slot.truthy_val (h.receipt_ne_empty hy)] at htruthy
      exact Option.some.inj htruthy
    obtain rfl := hyx
    obtain ⟨prior', s', hsound⟩ := h.receipts y hxr
    have hsp : s' = s := by
      have hfind := hsound.hasState
      rw [hyid, (stateOf?_eq_some h.exec.states.states_nodup).2 ⟨hold, hpid⟩] at hfind
      exact (Option.some.inj hfind).symm
    have hpp : prior' = prior := by
      have hfind := hsound.hasNode
      rw [hyid, (nodeOf?_eq_some h.graph.nodup).2 ⟨hprior, rfl⟩] at hfind
      exact (Option.some.inj hfind).symm
    subst hsp hpp
    have hynode : y.nodeId = node.id := hyid.trans hprid
    have hversion := hrev.version
    refine ⟨node, s', ?_, ?_, href, ?_, ?_, ?_⟩
    · exact (nodeOf?_eq_some hrev.valid.nodup).2 ⟨hnode, hynode.symm⟩
    · exact (stateOf?_eq_some hrev.statesOf.states_nodup).2 ⟨hs, hid.trans hynode.symm⟩
    · obtain ⟨e, he, hbound⟩ := hsound.bound
      refine ⟨e, he, ?_⟩
      rw [lineageOf] at hbound ⊢
      rw [← hrev.planId] at hbound
      exact hbound
    · have hle := hsound.version
      show y.planVersion ≤ revision.graph.version
      omega
    · intro v hle hlt
      have hlt' : v < revision.graph.version := hlt
      by_cases hold' : v < r.graph.version
      · obtain ⟨p, hp, hfrom, hto, hlisted⟩ := hsound.preserved v hle hold'
        exact ⟨p, List.mem_append_left _ hp, hfrom, hto, hsame.digest ▸ hlisted⟩
      · refine ⟨revision.proof, List.mem_append_right _ (List.mem_singleton.2 rfl), ?_, ?_, ?_⟩
        · rw [hrev.proofVersions.1]
          omega
        · rw [hrev.proofVersions.2]
          omega
        · rw [hynode]
          exact hrev.proofLists node hnode hout

theorem PlanInv.revised (h : PlanInv cfg r)
    (hrev : Revised cfg r.goal r.graph r.states now revision reset)
    (hapart : NodesApart cfg r.graph revision.graph)
    (hfew : r.revisionProofs.length < 10000) : PlanInv cfg (revisedOf cfg r revision) where
  goalId := h.goalId
  graph := hrev.valid
  goalDigest := h.goalDigest
  planDigest := rfl
  exec := hrev.execInv h hapart
  nodes := hrev.nodes h hapart
  dependencies := hrev.dependencies h hapart
  verified := hrev.verified h hapart
  receipts := hrev.receipts h hapart
  distinct := h.distinct.sublist (List.filter_sublist.map _)
  decisions := fun _ hd => nomatch hd
  proofs := by
    intro p hp
    rcases List.mem_append.1 hp with hold | hnew
    · exact h.proofs p hold
    · rw [List.mem_singleton.1 hnew]
      exact hrev.proofValid
  chain := by
    have hchain := h.chain
    have hversion := hrev.version
    rw [← hrev.proofVersions.1, h.planDigest, ← hrev.proofDigests.1, ← hrev.planId] at hchain
    refine Chain.snoc hchain (hrev.proofPlan.1.trans hrev.planId.symm) hrev.proofPlan.2 ?_
      hrev.proofVersions.2 hrev.proofDigests.2
    rw [hrev.proofVersions.1]
    exact hversion
  few := by
    show (r.revisionProofs ++ [revision.proof]).length ≤ 10000
    rw [List.length_append, List.length_singleton]
    omega

theorem PlanInv.restore_revised (h : PlanInv cfg r)
    (hrev : Revised cfg r.goal r.graph r.states now revision reset)
    (hapart : NodesApart cfg r.graph revision.graph)
    (hfew : r.revisionProofs.length < 10000) (htimed : Timed revision.states) :
    VerifiedPlanRuntime.restore cfg r.goal revision.graph (r.revisedRuntime cfg revision)
    = .ok (revisedOf cfg r revision) := by
  rw [← revisedOf_exportState]
  exact (h.revised hrev hapart hfew).fromState_exportState htimed

end

end OperatorRuntime.Plan
