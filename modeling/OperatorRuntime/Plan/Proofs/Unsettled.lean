/-
Unsettled executions. A node that runs, or waits for the verification of
what it did, keeps its state under every operation on other nodes, except
that a failed execution invalidates the whole closure of its node and does
not look whether an execution in it is under way (`bindBeliefs`, which
invalidates closures too, does). `Spares` is the condition that no failure
meets such an execution.
-/
import OperatorRuntime.Lib.Runs
import OperatorRuntime.Plan.Proofs.Operations

namespace OperatorRuntime.Plan

open Lib

-- ===== the invariant

/-- What the status of a node says about its execution digest. -/
structure Waits (node : PlanNode) (s : PlanNodeState) : Prop where
  fresh : s.status = .pending ∨ s.status = .ready ∨ s.status = .running →
    s.lastExecutionDigest.truthy = none
  awaited : s.status = .blocked → s.lastExecutionDigest.truthy.isSome = true →
    node.verificationFactKeys ≠ []

structure ExecInv (r : VerifiedPlanRuntime) : Prop where
  states : StatesOf r.graph r.states
  waits : ForNodes Waits r.graph r.states

theorem Waits.invalidateState {node : PlanNode} {s : PlanNodeState} (h : Waits node s)
    (invalidated : List String) (now : String) :
    Waits node (invalidateState invalidated now s) := by
  unfold Plan.invalidateState
  split
  · exact ⟨fun hstatus => by simp at hstatus, fun hstatus => nomatch hstatus⟩
  · exact h

theorem Waits.refreshState {node : PlanNode} {s : PlanNodeState} (h : Waits node s)
    {ready : List String} (now : String)
    (hready : s.nodeId ∈ ready → s.lastExecutionDigest.truthy = none) :
    Waits node (refreshState ready now s) := by
  unfold Plan.refreshState
  split
  · next hin => exact ⟨fun _ => hready hin.1, fun hstatus => nomatch hstatus⟩
  · split
    · next hwas =>
      have hnone := h.fresh (.inr (.inl hwas.1))
      refine ⟨fun hstatus => by simp at hstatus, fun _ hsome => ?_⟩
      rw [hnone] at hsome
      cases hsome
    · exact h

section
variable {cfg : PlanConfig} {r r' : VerifiedPlanRuntime}

theorem not_waiting_of_ready {graph : PlanGraph} {states : List PlanNodeState}
    (hstates : StatesOf graph states) (hwaits : ForNodes Waits graph states)
    {beliefs : List BeliefView} {node : PlanNode} (hnode : node ∈ graph.nodes)
    (hready : isReady states beliefs node = true) {s : PlanNodeState} (hs : s ∈ states)
    (hid : s.nodeId = node.id) : s.lastExecutionDigest.truthy = none := by
  obtain ⟨s', hfind, hstatus, hwait, -, -⟩ := isReady_iff.1 hready
  rw [(stateOf?_eq_some hstates.states_nodup).2 ⟨hs, hid⟩] at hfind
  obtain rfl : s = s' := Option.some.inj hfind
  have hw := hwaits node hnode s hs hid
  rcases hstatus with hpending | hready | hblocked
  · exact hw.fresh (.inl hpending)
  · exact hw.fresh (.inr (.inl hready))
  · by_contra hsome
    have hsome := Option.isSome_iff_ne_none.2 hsome
    exact hwait ⟨hblocked, hsome, hw.awaited hblocked hsome⟩

theorem ExecInv.invalidate (h : ExecInv r) (invalidated : List String) (now : String) :
    ExecInv { r with states := r.states.map (invalidateState invalidated now) } :=
  ⟨h.states.map (invalidateState_nodeId now · invalidated),
    h.waits.map (invalidateState_nodeId now · invalidated)
      fun _ _ _ _ _ hw => hw.invalidateState invalidated now⟩

variable {now : String}

theorem ExecInv.bindBeliefs (h : ExecInv r) {beliefs : List BeliefView}
    (hok : r.bindBeliefs beliefs now = .ok r') : ExecInv r' := by
  obtain ⟨-, invalidated, ready, normalized, rfl, hready⟩ := bindBeliefs_ok hok
  obtain ⟨hstates, hwaits⟩ := h.invalidate invalidated now
  refine ⟨hstates.map (refreshState_nodeId now · ready),
    hwaits.map (refreshState_nodeId now · ready) ?_⟩
  intro node hnode s hs hid hw
  refine hw.refreshState now ?_
  intro hin
  obtain ⟨node', hnode', hid', hisReady⟩ := (hready s.nodeId).1 hin
  exact not_waiting_of_ready hstates hwaits hnode' hisReady hs hid'.symm

theorem ExecInv.replace (h : ExecInv r) {next : PlanNodeState}
    (hnext : ∀ node ∈ r.graph.nodes, node.id = next.nodeId → Waits node next) :
    ExecInv (r.replaceState next) :=
  ⟨h.states.map (replacing_nodeId next), h.waits.replace hnext⟩

variable {nodeId : String}

theorem ExecInv.startNode (h : ExecInv r) (hok : r.startNode nodeId now = .ok r') : ExecInv r' := by
  obtain ⟨-, node, s, -, -, -, -, rfl⟩ := startNode_ok hok
  refine h.replace ?_
  intro _ _ _
  exact ⟨fun _ => rfl, fun hstatus => nomatch hstatus⟩

theorem requiresVerification_iff {node : PlanNode} {observation : ExecutionObservation}
    (h : (assessNodeOutcome node observation).accepted = true) :
    (assessNodeOutcome node observation).requiresVerification = true
    ↔ node.verificationFactKeys ≠ [] := by
  unfold assessNodeOutcome at h ⊢
  dsimp only at h ⊢
  split
  · next hc => rw [if_pos hc] at h; cases h
  · next hc₁ =>
    rw [if_neg hc₁] at h
    split
    · next hc => rw [if_pos hc] at h; cases h
    · next hc₂ =>
      rw [if_neg hc₂] at h
      split
      · next hc => rw [if_pos hc] at h; cases h
      · next hc₃ =>
        rw [if_neg hc₃] at h
        split
        · next hc => rw [if_pos hc] at h; cases h
        · simp

theorem ExecInv.failNode (h : ExecInv r) (s : PlanNodeState) (digest reason now : String) :
    ExecInv (r.replaceState (VerifiedPlanRuntime.failedState s digest reason now)) := by
  refine h.replace ?_
  intro _ _ _
  exact ⟨fun hstatus => by simp [VerifiedPlanRuntime.failedState] at hstatus,
    fun hstatus => nomatch hstatus⟩

theorem ExecInv.recordExecution (h : ExecInv r) {input : ExecutionObservation}
    (hok : r.recordExecution cfg nodeId input now = .ok r') : ExecInv r' := by
  obtain ⟨-, node, s, observation, hnode, hs, -, -, hcases⟩ := recordExecution_ok hok
  have hsid := (mem_of_stateOf? hs).2
  rcases hcases with ⟨-, digest, invalidated, -, -, rfl⟩ | ⟨haccepted, rfl⟩
  · have hfailed := h.failNode s digest (assessNodeOutcome node observation).reason now
    refine ⟨hfailed.states.map (repairState_nodeId now · _ invalidated),
      hfailed.waits.map (repairState_nodeId now · _ invalidated) ?_⟩
    intro n _ x _ _ hw
    unfold VerifiedPlanRuntime.repairState
    split
    · exact ⟨fun hstatus => by simp [VerifiedPlanRuntime.failedState] at hstatus,
        fun hstatus => nomatch hstatus⟩
    · split
      · exact ⟨fun hstatus => by simp at hstatus, fun hstatus => nomatch hstatus⟩
      · exact hw
  · refine h.replace ?_
    intro n hn hid
    obtain ⟨hmem, hnid⟩ := mem_of_nodeOf? hnode
    have hsame : n = node := by
      refine List.inj_on_of_nodup_map h.states.nodup hn hmem ?_
      rw [hid, hnid]
      exact hsid
    rw [hsame]
    unfold VerifiedPlanRuntime.acceptedState
    by_cases hverify : (assessNodeOutcome node observation).requiresVerification = true
    · rw [if_pos hverify]
      exact ⟨fun hstatus => by simp at hstatus,
        fun _ _ => (requiresVerification_iff haccepted).1 hverify⟩
    · rw [if_neg hverify]
      exact ⟨fun hstatus => by simp at hstatus, fun hstatus => nomatch hstatus⟩

theorem ExecInv.markVerifiedComplete (h : ExecInv r) {receipt : VerificationReceipt}
    (hok : r.markVerifiedComplete cfg nodeId receipt now = .ok r') : ExecInv r' := by
  obtain ⟨-, node, s, _, normalized, -, -, -, -, -, -, hcases⟩ :=
    markVerifiedComplete_ok hok
  have hdone : ∀ n : PlanNode, Waits n (VerifiedPlanRuntime.verifiedState s
      normalized.digest (digestPlan cfg (node.toJson cfg)) now) := fun n =>
    ⟨fun hstatus => by simp [VerifiedPlanRuntime.verifiedState] at hstatus,
      fun hstatus => nomatch hstatus⟩
  rcases hcases with ⟨-, rfl⟩ | ⟨-, rfl⟩
  · exact ExecInv.replace (r := { r with receipts := r.receipts ++ [normalized] })
      ⟨h.states, h.waits⟩ fun n _ _ => hdone n
  · exact h.replace fun n _ _ => hdone n

theorem ExecInv.create {goal : CompiledGoal} {graph : PlanGraph}
    (hok : VerifiedPlanRuntime.create cfg goal graph now = .ok r) : ExecInv r := by
  rw [VerifiedPlanRuntime.create] at hok
  obtain ⟨g, hgraph, hok⟩ := bind_eq_ok.1 hok
  cases hok
  rw [validatePlanGraph] at hgraph
  iterate 3 obtain ⟨_, _, hgraph⟩ := bind_eq_ok.1 hgraph
  obtain ⟨nodes, _, hgraph⟩ := bind_eq_ok.1 hgraph
  obtain ⟨_, hnodup, hgraph⟩ := bind_eq_ok.1 hgraph
  iterate 3 obtain ⟨_, _, hgraph⟩ := bind_eq_ok.1 hgraph
  cases hgraph
  rw [throwIf_eq_ok, not_not] at hnodup
  refine ⟨⟨?_, hnodup⟩, ?_⟩
  · simp [initializeNodeStates, Function.comp_def]
  · intro node _ s hs _
    obtain ⟨n, _, rfl⟩ := List.mem_map.1 hs
    refine ⟨fun _ => rfl, ?_⟩
    intro hblocked
    dsimp only at hblocked
    split at hblocked
    · cases hblocked
    · cases hblocked

end

-- ===== steps

/-- The operations that execute a plan. -/
def PlanOperation.executes : PlanOperation → Prop
  | .bindBeliefs .. | .startNode .. | .recordExecution .. | .markVerifiedComplete .. => True
  | .appendDecision .. | .revise .. => False

/-- The operations that settle the execution of a node. -/
def PlanOperation.settles (id : String) : PlanOperation → Prop
  | .recordExecution nodeId .. | .markVerifiedComplete nodeId .. => nodeId = id
  | _ => False

/-- An outcome that is not accepted finds no other unsettled execution in
the closure of its node. -/
def Spares (r : VerifiedPlanRuntime) : PlanOperation → Prop
  | .recordExecution nodeId input _ =>
    ∀ node observation, nodeOf? r.graph.nodes nodeId = some node →
      normalizeObservation input = .ok observation →
      (assessNodeOutcome node observation).accepted = false →
      ∀ s ∈ r.states, s.nodeId ≠ nodeId →
        s.nodeId ∈ dependentClosure r.graph [nodeId] → s.unsettled = false
  | _ => True

section
variable {cfg : PlanConfig} {r : VerifiedPlanRuntime} {op : PlanOperation}

theorem step_of_error {e : String} (h : op.run cfg r = .error e) : r.step cfg op = r := by
  rw [VerifiedPlanRuntime.step, h]

theorem step_of_ok {r' : VerifiedPlanRuntime} (h : op.run cfg r = .ok r') : r.step cfg op = r' := by
  rw [VerifiedPlanRuntime.step, h]

/-- One operation other than a revision. -/
theorem ExecInv.step (h : ExecInv r) (hop : op.executes) : ExecInv (r.step cfg op) := by
  cases hrun : op.run cfg r with
  | error e => rwa [step_of_error hrun]
  | ok r' =>
    rw [step_of_ok hrun]
    cases op with
    | bindBeliefs => exact h.bindBeliefs hrun
    | startNode => exact h.startNode hrun
    | recordExecution => exact h.recordExecution hrun
    | markVerifiedComplete => exact h.markVerifiedComplete hrun
    | appendDecision => exact hop.elim
    | revise => exact hop.elim

variable {s : PlanNodeState}

theorem stateOf?_replace {next : PlanNodeState} {states : List PlanNodeState} {id : String}
    (hs : stateOf? states id = some s) (hne : id ≠ next.nodeId) :
    stateOf? (states.map (replacing next)) id = some s := by
  rw [stateOf?_map (replacing_nodeId next), hs, Option.map_some, replacing, if_neg]
  rw [(mem_of_stateOf? hs).2]
  exact hne

theorem ExecInv.bindBeliefs_keeps (h : ExecInv r) {r' : VerifiedPlanRuntime}
    {beliefs : List BeliefView} {now : String} (hok : r.bindBeliefs beliefs now = .ok r')
    {id : String} (hs : stateOf? r.states id = some s) (hunsettled : s.unsettled = true) :
    stateOf? r'.states id = some s := by
  obtain ⟨hrunning, invalidated, ready, normalized, rfl, hready⟩ := bindBeliefs_ok hok
  obtain ⟨hmem, hid⟩ := mem_of_stateOf? hs
  obtain ⟨hstates, hwaits⟩ := h.invalidate invalidated now
  have hblocked : s.status = .blocked ∧ s.lastExecutionDigest.truthy.isSome = true := by
    simpa [PlanNodeState.unsettled, hrunning s hmem] using hunsettled
  have hkeep : invalidateState invalidated now s = s := by
    unfold invalidateState
    rw [if_neg]
    intro hcond
    rw [hunsettled] at hcond
    exact absurd hcond.2.2 (by decide)
  have hnotReady : s.nodeId ∉ ready := by
    intro hin
    obtain ⟨node, hnode, hnid, hisReady⟩ := (hready s.nodeId).1 hin
    have hnone := not_waiting_of_ready hstates hwaits hnode hisReady
      (hkeep ▸ List.mem_map_of_mem hmem) hnid.symm
    rw [hnone] at hblocked
    cases hblocked.2
  rw [stateOf?_map (refreshState_nodeId now · ready),
    stateOf?_map (invalidateState_nodeId now · invalidated), hs, Option.map_some,
    Option.map_some, hkeep]
  unfold refreshState
  rw [if_neg fun hc => hnotReady hc.1, if_neg]
  intro hc
  rw [hblocked.1] at hc
  cases hc.1

theorem recordExecution_keeps {r' : VerifiedPlanRuntime} {nodeId now : String}
    {input : ExecutionObservation} (hok : r.recordExecution cfg nodeId input now = .ok r')
    (hspares : Spares r (.recordExecution nodeId input now)) {id : String}
    (hs : stateOf? r.states id = some s) (hunsettled : s.unsettled = true) (hne : nodeId ≠ id) :
    stateOf? r'.states id = some s := by
  obtain ⟨-, node, current, observation, hnode, hcurrent, -, hobservation, hcases⟩ :=
    recordExecution_ok hok
  obtain ⟨hmem, hid⟩ := mem_of_stateOf? hs
  have hcid := (mem_of_stateOf? hcurrent).2
  rcases hcases with ⟨hrejected, digest, invalidated, hclosure, -, rfl⟩ | ⟨-, rfl⟩
  · have hother : id ≠ current.nodeId := fun heq => hne (hcid ▸ heq.symm)
    have hreplaced : stateOf? (r.states.map (replacing
        (VerifiedPlanRuntime.failedState current digest
          (assessNodeOutcome node observation).reason now))) id = some s :=
      stateOf?_replace hs hother
    rw [replaceState_states, stateOf?_map (repairState_nodeId now · _ invalidated),
      hreplaced, Option.map_some, VerifiedPlanRuntime.repairState, if_neg (hid ▸ hother),
      if_neg]
    intro hc
    have hsettled := hspares node observation hnode hobservation hrejected s hmem
      (fun heq => hne (heq.symm.trans hid)) (hclosure _ hc.1)
    rw [hsettled] at hunsettled
    cases hunsettled
  · exact stateOf?_replace hs fun heq => hne (hcid ▸ heq.symm)

theorem ExecInv.step_keeps (h : ExecInv r) (hop : op.executes) (hspares : Spares r op)
    {id : String} (hs : stateOf? r.states id = some s) (hunsettled : s.unsettled = true)
    (hother : ¬ op.settles id) : stateOf? (r.step cfg op).states id = some s := by
  cases hrun : op.run cfg r with
  | error e => rwa [step_of_error hrun]
  | ok r' =>
    rw [step_of_ok hrun]
    cases op with
    | bindBeliefs => exact h.bindBeliefs_keeps hrun hs hunsettled
    | startNode nodeId now =>
      obtain ⟨-, node, current, -, hcurrent, hready, -, rfl⟩ := startNode_ok hrun
      refine stateOf?_replace hs ?_
      intro heq
      have hcid : current.nodeId = nodeId := (mem_of_stateOf? hcurrent).2
      rw [heq, VerifiedPlanRuntime.startedState, hcid, hcurrent] at hs
      obtain rfl : current = s := Option.some.inj hs
      simp [PlanNodeState.unsettled, hready] at hunsettled
    | recordExecution => exact recordExecution_keeps hrun hspares hs hunsettled hother
    | markVerifiedComplete nodeId receipt now =>
      obtain ⟨-, node, current, _, normalized, -, hcurrent, -, -, -, -, hcases⟩ :=
        markVerifiedComplete_ok hrun
      have hcid : current.nodeId = nodeId := (mem_of_stateOf? hcurrent).2
      have hne : id ≠ current.nodeId := fun heq => hother (hcid ▸ heq.symm)
      rcases hcases with ⟨-, rfl⟩ | ⟨-, rfl⟩
      · exact stateOf?_replace hs hne
      · exact stateOf?_replace hs hne
    | appendDecision => exact hop.elim
    | revise => exact hop.elim

end

-- ===== the main result

/-- Along every run of the executing operations in which no failure meets
another unsettled execution: a node that runs or waits for verification
keeps its state, whatever is done next to other nodes. -/
theorem unsettled_execution_kept (cfg : PlanConfig) (goal : CompiledGoal)
    (graph : PlanGraph) (now : String) (r₀ r : VerifiedPlanRuntime) (ops : List PlanOperation)
    (hcreate : VerifiedPlanRuntime.create cfg goal graph now = .ok r₀)
    (hrun : Run (Where (planSteps cfg) fun r op => op.executes ∧ Spares r op) r₀ ops r) :
    ∀ (op : PlanOperation) (id : String) (s : PlanNodeState), op.executes →
      Spares r op → stateOf? r.states id = some s → s.unsettled = true →
      ¬ op.settles id → stateOf? (r.step cfg op).states id = some s := by
  have hinv : ExecInv r := by
    refine hrun.invariant (ExecInv.create hcreate) ?_
    intro a b op ha hstep
    rw [hstep.1]
    exact ha.step hstep.2.1
  intro op id s hop hspares hs hunsettled hother
  exact hinv.step_keeps hop hspares hs hunsettled hother

/-- A platform for the examples; the numbers in them are natural. -/
def sampleConfig : PlanConfig where
  sha256 := sha256Utf8
  numText := fun q => toString q.num.natAbs
  numText_isNumberText := fun _ => Json.isNumberText_toString _
  localeLe := Json.keyLe
  localeLe_total := fun _ _ => Json.unitsLe_total _ _
  localeLe_trans := fun _ _ _ => Json.unitsLe_trans

def sampleGoal : CompiledGoal where
  id := "g"
  kind := "k"
  objective := "o"
  successFactKeys := ["f"]
  forbiddenFactKeys := []
  constraints := []
  unresolvedAssumptions := []

def sampleNode (id : String) (parentId : Option String) : PlanNode where
  id := id
  kind := .action
  title := id
  parentId := parentId
  dependsOn := []
  choiceGroup := none
  preconditions := []
  expectedEffects := []
  verificationFactKeys := []
  allowedCapabilities := []
  expectedCost := 0
  risk := 0
  reversible := true
  maxAttempts := 1

/-- A node `c` under a node `p`, both ready from the start. -/
def familyGraph : PlanGraph where
  planId := "plan"
  goalId := "g"
  version := 1
  rootNodeIds := ["p"]
  nodes := [sampleNode "p" none, sampleNode "c" (some "p")]

def sampleTime : String := "2026-01-01T00:00:00.000Z"

def failedObservation : ExecutionObservation where
  changedFactKeys := []
  supportedFactKeys := []
  contradictedFactKeys := []
  executionOk := false
  sideEffectState := .none
  evidenceDigests := none

/-- Both nodes run; the failure of the parent drops the execution of the
child. -/
theorem failedParent_drops_runningChild :
    ∃ r₀, VerifiedPlanRuntime.create sampleConfig sampleGoal familyGraph sampleTime = .ok r₀
    ∧ ∃ r, r = (r₀.step sampleConfig (.startNode "p" sampleTime)).step sampleConfig
          (.startNode "c" sampleTime) ∧ (stateOf? r.states "c").map (·.status) = some .running
      ∧ (stateOf? (r.step sampleConfig
            (.recordExecution "p" failedObservation sampleTime)).states "c").map
          (·.status) = some .invalidated := by
  have hrun : (VerifiedPlanRuntime.create sampleConfig sampleGoal familyGraph
      sampleTime).map (fun r₀ =>
        let r := (r₀.step sampleConfig (.startNode "p" sampleTime)).step sampleConfig
          (.startNode "c" sampleTime)
        ((stateOf? r.states "c").map (·.status), (stateOf? (r.step sampleConfig
            (.recordExecution "p" failedObservation sampleTime)).states "c").map
              (·.status)))
      = .ok (some .running, some .invalidated) := by
    decide
  cases hcreate : VerifiedPlanRuntime.create sampleConfig sampleGoal familyGraph
      sampleTime with
  | error e =>
    rw [hcreate] at hrun
    cases hrun
  | ok r₀ =>
    rw [hcreate] at hrun
    obtain ⟨hrunning, hdropped⟩ := Prod.mk.inj (Except.ok.inj hrun)
    exact ⟨r₀, rfl, _, rfl, hrunning, hdropped⟩

/-- The child fails while its parent runs. -/
theorem unsettled_execution_kept_failedChild :
    ∃ r₀ s, VerifiedPlanRuntime.create sampleConfig sampleGoal familyGraph sampleTime = .ok r₀
    ∧ ∃ r, r = (r₀.step sampleConfig (.startNode "p" sampleTime)).step sampleConfig
          (.startNode "c" sampleTime) ∧ s.unsettled = true ∧ stateOf? (r.step sampleConfig
          (.recordExecution "c" failedObservation sampleTime)).states "p" = some s := by
  have hrun : (VerifiedPlanRuntime.create sampleConfig sampleGoal familyGraph
      sampleTime).map (fun r₀ =>
        let r := (r₀.step sampleConfig (.startNode "p" sampleTime)).step sampleConfig
          (.startNode "c" sampleTime)
        ((stateOf? r.states "p").map (·.unsettled), dependentClosure r.graph ["c"]))
      = .ok (some true, ["c"]) := by
    decide
  cases hcreate : VerifiedPlanRuntime.create sampleConfig sampleGoal familyGraph
      sampleTime with
  | error e =>
    rw [hcreate] at hrun
    cases hrun
  | ok r₀ =>
    rw [hcreate] at hrun
    obtain ⟨hunsettled, hclosure⟩ := Prod.mk.inj (Except.ok.inj hrun)
    obtain ⟨s, hs, hsome⟩ := Option.map_eq_some_iff.1 hunsettled
    refine ⟨r₀, s, rfl, _, rfl, hsome, unsettled_execution_kept sampleConfig sampleGoal
      familyGraph sampleTime r₀ _ ([] ++ [PlanOperation.startNode "p" sampleTime]
        ++ [PlanOperation.startNode "c" sampleTime]) hcreate ?_ _ "p" s trivial ?_ hs hsome ?_⟩
    · exact Run.snoc (Run.snoc Run.nil ⟨rfl, trivial, trivial⟩) ⟨rfl, trivial, trivial⟩
    · intro _ _ _ _ _ x _ hne hin
      rw [hclosure] at hin
      exact absurd (List.mem_singleton.1 hin) hne
    · show ¬ "c" = "p"
      decide

end OperatorRuntime.Plan
