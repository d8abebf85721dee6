/-
What each operation of a plan runtime does when it answers: its guards,
and the function it maps the node states with. Later proofs read these
lemmas and never the operations.
-/
import Mathlib.Data.List.Dedup
import OperatorRuntime.Lib.Keyed
import OperatorRuntime.Plan.Runtime

namespace OperatorRuntime.Plan

open Lib

-- ===== lists

theorem mem_sortTexts {values : List String} {text : String} :
    text ∈ Json.sortTexts values ↔ text ∈ values := by
  rw [Json.sortTexts, List.mem_insertionSort]

theorem mem_unique {values : List String} {text : String} :
    text ∈ unique values ↔ text ∈ values := by
  rw [unique, mem_sortTexts, List.mem_dedup]

theorem nodeOf?_eq_some {nodes : List PlanNode} (hnd : (nodes.map (·.id)).Nodup)
    {id : String} {node : PlanNode} : nodeOf? nodes id = some node ↔ node ∈ nodes ∧ node.id = id :=
  find?_key_eq_some hnd

theorem stateOf?_eq_some {states : List PlanNodeState}
    (hnd : (states.map (·.nodeId)).Nodup) {id : String} {s : PlanNodeState} :
    stateOf? states id = some s ↔ s ∈ states ∧ s.nodeId = id :=
  find?_key_eq_some hnd

theorem mem_of_nodeOf? {nodes : List PlanNode} {id : String} {node : PlanNode}
    (h : nodeOf? nodes id = some node) : node ∈ nodes ∧ node.id = id :=
  ⟨List.mem_of_find?_eq_some h, by simpa using List.find?_some h⟩

theorem mem_of_stateOf? {states : List PlanNodeState} {id : String} {s : PlanNodeState}
    (h : stateOf? states id = some s) : s ∈ states ∧ s.nodeId = id :=
  ⟨List.mem_of_find?_eq_some h, by simpa using List.find?_some h⟩

section
variable {r : VerifiedPlanRuntime} {id : String}

theorem node_eq_ok {node : PlanNode} :
    r.node id = .ok node ↔ nodeOf? r.graph.nodes id = some node := by
  unfold VerifiedPlanRuntime.node
  cases nodeOf? r.graph.nodes id with
  | none => simp
  | some n => simp

theorem stateFor_eq_ok {s : PlanNodeState} :
    r.stateFor id = .ok s ↔ stateOf? r.states id = some s := by
  unfold VerifiedPlanRuntime.stateFor
  cases stateOf? r.states id with
  | none => simp
  | some n => simp

end

-- ===== node by node

/-- The states are those of the nodes, in their order. -/
structure StatesOf (graph : PlanGraph) (states : List PlanNodeState) : Prop where
  ids : states.map (·.nodeId) = graph.nodes.map (·.id)
  nodup : (graph.nodes.map (·.id)).Nodup

/-- A property of every node and its state. -/
def ForNodes (P : PlanNode → PlanNodeState → Prop) (graph : PlanGraph)
    (states : List PlanNodeState) : Prop :=
  ∀ node ∈ graph.nodes, ∀ s ∈ states, s.nodeId = node.id → P node s

section
variable {graph : PlanGraph} {states : List PlanNodeState}
  {P Q : PlanNode → PlanNodeState → Prop} {f : PlanNodeState → PlanNodeState}

theorem StatesOf.states_nodup (h : StatesOf graph states) :
    (states.map (·.nodeId)).Nodup := h.ids ▸ h.nodup

theorem StatesOf.exists_node (h : StatesOf graph states) {s : PlanNodeState}
    (hs : s ∈ states) : ∃ node ∈ graph.nodes, s.nodeId = node.id := by
  have hin : s.nodeId ∈ states.map (·.nodeId) := List.mem_map_of_mem hs
  rw [h.ids] at hin
  obtain ⟨node, hnode, hid⟩ := List.mem_map.1 hin
  exact ⟨node, hnode, hid.symm⟩

theorem StatesOf.exists_state (h : StatesOf graph states) {node : PlanNode}
    (hnode : node ∈ graph.nodes) : ∃ s, stateOf? states node.id = some s := by
  have hin : node.id ∈ graph.nodes.map (·.id) := List.mem_map_of_mem hnode
  rw [← h.ids] at hin
  obtain ⟨s, hs, hid⟩ := List.mem_map.1 hin
  exact ⟨s, (stateOf?_eq_some h.states_nodup).2 ⟨hs, hid⟩⟩

theorem StatesOf.map (h : StatesOf graph states) (hf : ∀ s, (f s).nodeId = s.nodeId) :
    StatesOf graph (states.map f) := by
  refine ⟨?_, h.nodup⟩
  rw [List.map_map, ← h.ids]
  exact List.map_congr_left fun s _ => hf s

theorem ForNodes.map (h : ForNodes P graph states) (hf : ∀ s, (f s).nodeId = s.nodeId)
    (hstep : ∀ node ∈ graph.nodes, ∀ s ∈ states, s.nodeId = node.id → P node s →
      Q node (f s)) : ForNodes Q graph (states.map f) := by
  intro node hnode s' hs' hid
  obtain ⟨s, hs, rfl⟩ := List.mem_map.1 hs'
  rw [hf] at hid
  exact hstep node hnode s hs hid (h node hnode s hs hid)

def replacing (next s : PlanNodeState) : PlanNodeState :=
  if s.nodeId = next.nodeId then next else s

theorem replaceState_states (r : VerifiedPlanRuntime) (next : PlanNodeState) :
    (r.replaceState next).states = r.states.map (replacing next) := rfl

theorem replacing_nodeId (next s : PlanNodeState) : (replacing next s).nodeId = s.nodeId := by
  unfold replacing
  split
  · next h => exact h.symm
  · rfl

theorem ForNodes.replace (h : ForNodes P graph states) {next : PlanNodeState}
    (hnext : ∀ node ∈ graph.nodes, node.id = next.nodeId → P node next) :
    ForNodes P graph (states.map (replacing next)) := by
  refine h.map (replacing_nodeId next) ?_
  intro node hnode s _ hid hp
  unfold replacing
  split
  · next heq => exact hnext node hnode (hid.symm.trans heq)
  · exact hp

theorem stateOf?_map (hf : ∀ s, (f s).nodeId = s.nodeId) (id : String) :
    stateOf? (states.map f) id = (stateOf? states id).map f := by
  rw [stateOf?, List.find?_map]
  congr 2
  funext s
  exact congrArg (· == id) (hf s)

end

section
variable (now : String) (s : PlanNodeState)

theorem invalidateState_nodeId (invalidated : List String) :
    (invalidateState invalidated now s).nodeId = s.nodeId := by
  unfold invalidateState
  split
  · rfl
  · rfl

theorem refreshState_nodeId (ready : List String) :
    (refreshState ready now s).nodeId = s.nodeId := by
  unfold refreshState
  split
  · rfl
  · split
    · rfl
    · rfl

theorem repairState_nodeId (failed : PlanNodeState) (invalidated : List String) :
    (VerifiedPlanRuntime.repairState failed invalidated now s).nodeId = s.nodeId := by
  unfold VerifiedPlanRuntime.repairState
  split
  · next h => exact h.symm
  · split
    · rfl
    · rfl

end

-- ===== validators

theorem validIso_eq_ok {value label text : String} :
    validIso value label = .ok text ↔ text = value ∧ isIso value = true := by
  rw [validIso, bind_eq_ok]
  simp only [throwIf_eq_ok, Bool.not_eq_false, Except.ok.injEq]
  constructor
  · intro h
    obtain ⟨_, hiso, rfl⟩ := h
    exact ⟨rfl, hiso⟩
  · intro h
    exact ⟨(), h.2, h.1.symm⟩

-- ===== beliefs

theorem isReady_iff {states : List PlanNodeState} {beliefs : List BeliefView} {node : PlanNode} :
    isReady states beliefs node = true ↔ ∃ s, stateOf? states node.id = some s
        ∧ (s.status = .pending ∨ s.status = .ready ∨ s.status = .blocked)
        ∧ ¬ (s.status = .blocked ∧ s.lastExecutionDigest.truthy.isSome = true
            ∧ node.verificationFactKeys ≠ [])
        ∧ (∀ id ∈ node.dependsOn, ∃ d, stateOf? states id = some d ∧ d.status = .succeeded)
        ∧ ∀ p ∈ node.preconditions, preconditionMet beliefs p = true := by
  unfold isReady
  cases stateOf? states node.id with
  | none => simp
  | some s =>
    have hwait : (s.status ≠ .blocked ∨ s.lastExecutionDigest.truthy = none
          ∨ node.verificationFactKeys = [])
        ↔ ¬ (s.status = .blocked ∧ s.lastExecutionDigest.truthy.isSome = true
          ∧ node.verificationFactKeys ≠ []) := by
      rw [not_and_or, not_and_or, not_not, Option.not_isSome_iff_eq_none]
    simp only [Option.some.injEq, exists_eq_left', ← hwait]
    simp [and_assoc, or_assoc, Option.any_eq_true, List.isEmpty_iff]

theorem bindPlanToBeliefs_ok {graph : PlanGraph} {states : List PlanNodeState}
    {beliefs : List BeliefView} {now : String} {result : BeliefBindingResult}
    (h : bindPlanToBeliefs graph states beliefs now = .ok result) :
    ∃ invalidated ready : List String, ∃ normalized : List BeliefView,
      result.states = (states.map (invalidateState invalidated now)).map (refreshState ready now)
      ∧ ∀ id, id ∈ ready ↔ ∃ node ∈ graph.nodes, node.id = id
          ∧ isReady (states.map (invalidateState invalidated now)) normalized node = true := by
  rw [bindPlanToBeliefs] at h
  obtain ⟨normalized, _, h⟩ := bind_eq_ok.1 h
  obtain ⟨ready, hready, h⟩ := bind_eq_ok.1 h
  cases h
  rw [readyNodeIds] at hready
  obtain ⟨_, _, hready⟩ := bind_eq_ok.1 hready
  obtain ⟨_, _, hready⟩ := bind_eq_ok.1 hready
  cases hready
  refine ⟨_, _, normalized, rfl, fun id => ?_⟩
  rw [mem_sortTexts, List.mem_map]
  constructor
  · intro hid
    obtain ⟨node, hnode, rfl⟩ := hid
    obtain ⟨hmem, hisReady⟩ := List.mem_filter.1 hnode
    exact ⟨node, hmem, rfl, hisReady⟩
  · intro hid
    obtain ⟨node, hmem, rfl, hisReady⟩ := hid
    exact ⟨node, List.mem_filter.2 ⟨hmem, hisReady⟩, rfl⟩

theorem bindBeliefs_ok {r r' : VerifiedPlanRuntime} {beliefs : List BeliefView}
    {now : String} (h : r.bindBeliefs beliefs now = .ok r') : (∀ s ∈ r.states, s.status ≠ .running)
    ∧ ∃ invalidated ready : List String, ∃ normalized : List BeliefView, r' = { r with
        states := (r.states.map (invalidateState invalidated now)).map (refreshState ready now) }
        ∧ ∀ id, id ∈ ready ↔ ∃ node ∈ r.graph.nodes, node.id = id
            ∧ isReady (r.states.map (invalidateState invalidated now)) normalized node = true := by
  rw [VerifiedPlanRuntime.bindBeliefs] at h
  obtain ⟨_, hrunning, h⟩ := bind_eq_ok.1 h
  obtain ⟨result, hbind, h⟩ := bind_eq_ok.1 h
  cases h
  obtain ⟨invalidated, ready, normalized, hstates, hready⟩ := bindPlanToBeliefs_ok hbind
  refine ⟨?_, invalidated, ready, normalized, by rw [hstates], hready⟩
  rw [throwIf_eq_ok] at hrunning
  intro s hs hstatus
  exact hrunning ⟨s, hs, hstatus⟩

-- ===== executions

theorem startNode_ok {r r' : VerifiedPlanRuntime} {nodeId now : String}
    (h : r.startNode nodeId now = .ok r') :
    isIso now = true ∧ ∃ node s, nodeOf? r.graph.nodes nodeId = some node
    ∧ stateOf? r.states nodeId = some s ∧ s.status = .ready ∧ s.attempts < node.maxAttempts
    ∧ r' = r.replaceState (VerifiedPlanRuntime.startedState s now) := by
  rw [VerifiedPlanRuntime.startNode] at h
  obtain ⟨_, hiso, h⟩ := bind_eq_ok.1 h
  obtain ⟨node, hnode, h⟩ := bind_eq_ok.1 h
  obtain ⟨s, hs, h⟩ := bind_eq_ok.1 h
  obtain ⟨_, hstatus, h⟩ := bind_eq_ok.1 h
  obtain ⟨_, hattempts, h⟩ := bind_eq_ok.1 h
  cases h
  rw [throwIf_eq_ok, not_not] at hstatus
  rw [throwIf_eq_ok, Nat.not_le] at hattempts
  exact ⟨(validIso_eq_ok.1 hiso).2, node, s, node_eq_ok.1 hnode, stateFor_eq_ok.1 hs,
    hstatus, hattempts, rfl⟩

theorem planLocalRepair_ok {graph : PlanGraph} {states : List PlanNodeState}
    {failedNodeId reason : String} {repair : PlanRepairDecision}
    (h : planLocalRepair graph states failedNodeId reason = .ok repair) :
    ∀ id ∈ repair.invalidatedNodeIds, id ∈ dependentClosure graph [failedNodeId] := by
  rw [planLocalRepair] at h
  obtain ⟨_, _, h⟩ := bind_eq_ok.1 h
  cases h
  intro id hid
  exact (List.mem_filter.1 (mem_sortTexts.1 hid)).1

theorem recordExecution_ok {cfg : PlanConfig} {r r' : VerifiedPlanRuntime}
    {nodeId now : String} {input : ExecutionObservation}
    (h : r.recordExecution cfg nodeId input now = .ok r') :
    isIso now = true ∧ ∃ node s observation, nodeOf? r.graph.nodes nodeId = some node
    ∧ stateOf? r.states nodeId = some s ∧ s.status = .running
    ∧ normalizeObservation input = .ok observation
    ∧ (((assessNodeOutcome node observation).accepted = false ∧ ∃ digest invalidated,
          (∀ id ∈ invalidated, id ∈ dependentClosure r.graph [nodeId])
          ∧ digest = r.executionDigest cfg nodeId s.attempts observation ∧ r' = { r with
            states := (r.replaceState (VerifiedPlanRuntime.failedState s digest
                  (assessNodeOutcome node observation).reason now)).states.map
                (VerifiedPlanRuntime.repairState (VerifiedPlanRuntime.failedState s digest
                  (assessNodeOutcome node observation).reason now) invalidated now) })
        ∨ ((assessNodeOutcome node observation).accepted = true
          ∧ r' = r.replaceState (VerifiedPlanRuntime.acceptedState s
              (r.executionDigest cfg nodeId s.attempts observation)
              (assessNodeOutcome node observation) now))) := by
  rw [VerifiedPlanRuntime.recordExecution] at h
  obtain ⟨_, hiso, h⟩ := bind_eq_ok.1 h
  obtain ⟨node, hnode, h⟩ := bind_eq_ok.1 h
  obtain ⟨s, hs, h⟩ := bind_eq_ok.1 h
  obtain ⟨_, hstatus, h⟩ := bind_eq_ok.1 h
  obtain ⟨observation, hobservation, h⟩ := bind_eq_ok.1 h
  rw [throwIf_eq_ok, not_not] at hstatus
  refine ⟨(validIso_eq_ok.1 hiso).2, node, s, observation, node_eq_ok.1 hnode,
    stateFor_eq_ok.1 hs, hstatus, hobservation, ?_⟩
  dsimp only at h
  split at h
  · next hrejected =>
    obtain ⟨repair, hrepair, h⟩ := bind_eq_ok.1 h
    cases h
    exact .inl ⟨hrejected, _, _, planLocalRepair_ok hrepair, rfl, rfl⟩
  · next haccepted =>
    cases h
    exact .inr ⟨by simpa using haccepted, rfl⟩

theorem markVerifiedComplete_ok {cfg : PlanConfig} {r r' : VerifiedPlanRuntime}
    {nodeId now : String} {receipt : VerificationReceipt}
    (h : r.markVerifiedComplete cfg nodeId receipt now = .ok r') :
    isIso now = true ∧ ∃ node s executionDigest normalized, nodeOf? r.graph.nodes nodeId = some node
    ∧ stateOf? r.states nodeId = some s
    ∧ (s.status = .blocked ∨ s.status = .running) ∧ node.verificationFactKeys ≠ []
    ∧ s.lastExecutionDigest.truthy = some executionDigest ∧ validateCompletionReceipt receipt
        { goalId := r.goal.id, planId := r.graph.planId, planVersion := r.graph.version,
            nodeId, attempt := s.attempts, executionDigest } = .ok normalized
      ∧ ((r.receipts.find? fun x => x.digest == normalized.digest) = none
          ∧ r' = VerifiedPlanRuntime.replaceState { r with receipts := r.receipts ++ [normalized] }
              (VerifiedPlanRuntime.verifiedState s normalized.digest
                (digestPlan cfg (node.toJson cfg)) now)
        ∨ (∃ x, (r.receipts.find? fun x => x.digest == normalized.digest) = some x
            ∧ Json.canonicalJson x.toJson = Json.canonicalJson normalized.toJson)
          ∧ r' = r.replaceState (VerifiedPlanRuntime.verifiedState s normalized.digest
              (digestPlan cfg (node.toJson cfg)) now)) := by
  rw [VerifiedPlanRuntime.markVerifiedComplete] at h
  obtain ⟨_, hiso, h⟩ := bind_eq_ok.1 h
  obtain ⟨node, hnode, h⟩ := bind_eq_ok.1 h
  obtain ⟨s, hs, h⟩ := bind_eq_ok.1 h
  obtain ⟨_, hstatus, h⟩ := bind_eq_ok.1 h
  obtain ⟨_, hkeys, h⟩ := bind_eq_ok.1 h
  rw [throwIf_eq_ok] at hstatus hkeys
  split at h
  · cases h
  · next executionDigest hdigest =>
    obtain ⟨normalized, hnormalized, h⟩ := bind_eq_ok.1 h
    obtain ⟨_, hcollision, h⟩ := bind_eq_ok.1 h
    rw [throwIf_eq_ok] at hcollision
    cases h
    refine ⟨(validIso_eq_ok.1 hiso).2, node, s, executionDigest, normalized,
      node_eq_ok.1 hnode, stateFor_eq_ok.1 hs, ?_, hkeys, hdigest, hnormalized, ?_⟩
    · by_cases hblocked : s.status = .blocked
      · exact .inl hblocked
      · exact .inr (not_not.1 fun hrunning => hstatus ⟨hblocked, hrunning⟩)
    · cases hfind : r.receipts.find? fun x => x.digest == normalized.digest with
      | none => exact .inl ⟨rfl, rfl⟩
      | some x =>
        refine .inr ⟨⟨x, rfl, ?_⟩, rfl⟩
        exact not_not.1 fun hne => hcollision ⟨x, hfind, hne⟩

end OperatorRuntime.Plan
