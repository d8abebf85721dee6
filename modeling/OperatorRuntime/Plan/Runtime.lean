/-
`VerifiedPlanRuntime` of `packages/verified-plan-runtime/src/runtime.ts`,
with what it runs on: `belief-binding.ts`, `plan-monitor.ts` and
`revisePlan` of `plan-revision.ts`.

A runtime is a value; an operation answers the next one, or throws and
leaves it as it was. The clock of an operation is its `now` argument;
where a caller leaves it out the platform supplies a timestamp.
-/
import OperatorRuntime.Plan.Lineage

namespace OperatorRuntime.Plan

-- ===== belief binding

def normalizeBelief (belief : BeliefView) : Except String BeliefView := do
  throwIf (belief.confidence < 0 ∨ 1 < belief.confidence) "belief.confidence is invalid."
  throwIf (1000 < belief.evidenceDigests.length) "belief.evidenceDigests is invalid."
  let selectedValueDigest ← ifPresent belief.selectedValueDigest
    (digestText · "belief.selectedValueDigest")
  let evidenceDigests ← belief.evidenceDigests.mapM
    (digestText · "belief.evidenceDigest")
  .ok { belief with selectedValueDigest, evidenceDigests := unique evidenceDigests }

def normalizeBeliefList (seen : List String) : List BeliefView → Except String (List BeliefView)
  | [] => .ok []
  | belief :: beliefs => do
    let factKey ← bounded belief.factKey 512 "belief.factKey"
    throwIf (factKey ∈ seen) ("belief facts must be unique: " ++ factKey)
    let normalized ← normalizeBelief belief
    let rest ← normalizeBeliefList (factKey :: seen) beliefs
    .ok (normalized :: rest)

def normalizeBeliefs (input : List BeliefView) : Except String (List BeliefView) := do
  throwIf (10000 < input.length) "belief list is invalid."
  normalizeBeliefList [] input

/-- The execution of a node is under way, or done and not yet verified. -/
def PlanNodeState.unsettled (s : PlanNodeState) : Bool :=
  s.status == .running
    || (s.status == .blocked && s.lastExecutionDigest.truthy.isSome)

/-- A belief contradicts a precondition. -/
def contradicts (beliefs : List BeliefView) (p : PlanPrecondition) : Bool :=
  match beliefs.find? fun b => b.factKey == p.factKey with
  | none => false
  | some b =>
    b.status == .disproven
      || (p.expectedValueDigest.any fun expected =>
          b.selectedValueDigest.any (· != expected))
        && (b.status == .known || b.status == .supported)

def hardInvalidRoots (graph : PlanGraph) (states : List PlanNodeState)
    (beliefs : List BeliefView) : List String :=
  (graph.nodes.filter fun node =>
    (stateOf? states node.id).any fun state =>
      !(state.status == .succeeded || state.status == .skipped
          || state.status == .running)
        && !(state.status == .blocked && state.lastExecutionDigest.truthy.isSome)
        && node.preconditions.any (contradicts beliefs)).map (·.id)

structure BeliefBindingResult where
  states : List PlanNodeState
  invalidatedNodeIds : List String
  readyNodeIds : List String

/-- A state, before anything is known to be ready. -/
def invalidateState (invalidated : List String) (now : String) (state : PlanNodeState) :
    PlanNodeState :=
  if state.nodeId ∈ invalidated ∧ state.status ≠ .succeeded ∧ state.unsettled = false then
    { state with status := .invalidated
                 lastReason := .val "belief-precondition-invalidated"
                 lastUpdatedAt := now }
  else state

def refreshState (ready : List String) (now : String) (state : PlanNodeState) : PlanNodeState :=
  if state.nodeId ∈ ready ∧ state.status ≠ .succeeded ∧ state.status ≠ .running then
    { state with status := .ready, lastReason := .undef, lastUpdatedAt := now }
  else if state.status = .ready ∧ state.nodeId ∉ ready then
    { state with status := .blocked
                 lastReason := .val "preconditions-or-dependencies-not-satisfied"
                 lastUpdatedAt := now }
  else state

def bindPlanToBeliefs (graph : PlanGraph) (statesInput : List PlanNodeState)
    (beliefsInput : List BeliefView) (now : String) :
    Except String BeliefBindingResult := do
  let beliefs ← normalizeBeliefs beliefsInput
  let invalidated := dependentClosure graph
    (unique (hardInvalidRoots graph statesInput beliefs))
  let states := statesInput.map (invalidateState invalidated now)
  let ready ← readyNodeIds graph states beliefs
  .ok { states := states.map (refreshState ready now)
        invalidatedNodeIds := invalidated
        readyNodeIds := ready }

-- ===== plan monitor

inductive SideEffectReport
  | none
  | known
  | uncertain
deriving DecidableEq

def SideEffectReport.text : SideEffectReport → String
  | .none => "none"
  | .known => "known"
  | .uncertain => "uncertain"

structure ExecutionObservation where
  changedFactKeys : List String
  supportedFactKeys : List String
  contradictedFactKeys : List String
  executionOk : Bool
  sideEffectState : SideEffectReport
  evidenceDigests : Option (List String)

def ExecutionObservation.toJson (o : ExecutionObservation) : Json :=
  .obj ([("changedFactKeys", texts o.changedFactKeys),
      ("supportedFactKeys", texts o.supportedFactKeys),
      ("contradictedFactKeys", texts o.contradictedFactKeys),
      ("executionOk", .bool o.executionOk),
      ("sideEffectState", .str o.sideEffectState.text)]
    ++ optField "evidenceDigests" o.evidenceDigests texts)

def uniqueStrings (input : List String) (label : String) : Except String (List String) := do
  throwIf (10000 < input.length) (label ++ " list is invalid.")
  textList input 512 label

def normalizeObservation (input : ExecutionObservation) : Except String ExecutionObservation := do
  let changedFactKeys ← uniqueStrings input.changedFactKeys "changedFactKey"
  let supportedFactKeys ← uniqueStrings input.supportedFactKeys "supportedFactKey"
  let contradictedFactKeys ←
    uniqueStrings input.contradictedFactKeys "contradictedFactKey"
  let evidenceDigests ← input.evidenceDigests.mapM fun digests => do
    let digests ← uniqueStrings digests "evidenceDigest"
    digests.mapM (digestText · "evidenceDigest")
  .ok { input with changedFactKeys, supportedFactKeys, contradictedFactKeys,
                   evidenceDigests }

structure NodeOutcomeAssessment where
  accepted : Bool
  requiresVerification : Bool
  reason : String
  missingExpectedEffects : List String

def assessNodeOutcome (node : PlanNode) (observation : ExecutionObservation) :
    NodeOutcomeAssessment :=
  let rejected (reason : String) (missing : List String) : NodeOutcomeAssessment :=
    { accepted := false, requiresVerification := false, reason,
      missingExpectedEffects := missing }
  let observed := observation.changedFactKeys ++ observation.supportedFactKeys
  let missing := node.expectedEffects.filter (· ∉ observed)
  let contradicted := node.expectedEffects.filter (· ∈ observation.contradictedFactKeys)
  if observation.executionOk = false then
    rejected "execution-provider-reported-failure" node.expectedEffects
  else if observation.sideEffectState = .uncertain then
    rejected "mutation-side-effects-uncertain-reconciliation-required" node.expectedEffects
  else if contradicted ≠ [] then
    rejected "expected-effects-contradicted" (unique (missing ++ contradicted))
  else if missing ≠ [] then
    rejected "expected-effects-not-observed" missing
  else
    { accepted := true
      requiresVerification := !node.verificationFactKeys.isEmpty
      reason :=
        if node.verificationFactKeys.isEmpty then "effects-observed"
        else "effects-observed-awaiting-independent-verification"
      missingExpectedEffects := [] }

structure PlanRepairDecision where
  failedNodeId : String
  invalidatedNodeIds : List String
  preservedSucceededNodeIds : List String
  reason : String

def planLocalRepair (graph : PlanGraph) (states : List PlanNodeState)
    (failedNodeId reason : String) : Except String PlanRepairDecision := do
  throwIf (nodeOf? graph.nodes failedNodeId = none) "failed node does not exist."
  let invalidated := Json.sortTexts ((dependentClosure graph [failedNodeId]).filter
    fun id => (stateOf? states id).all fun s => s.status != .succeeded)
  let preserved := (states.filter fun s =>
    s.status == .succeeded && !invalidated.contains s.nodeId).map (·.nodeId)
  .ok { failedNodeId, invalidatedNodeIds := invalidated,
        preservedSucceededNodeIds := Json.sortTexts preserved, reason }

-- ===== revisePlan

structure PlanRevisionResult where
  graph : PlanGraph
  states : List PlanNodeState
  changedNodeIds : List String
  resetNodeIds : List String
  preservedSucceededNodeIds : List String
  proof : PlanRevisionProof

/-- The node is in both graphs with one content. -/
def unchangedNode (cfg : PlanConfig) (previous : PlanGraph) (node : PlanNode) : Bool :=
  (nodeOf? previous.nodes node.id).any fun prior =>
    digestPlan cfg (prior.toJson cfg) == digestPlan cfg (node.toJson cfg)

def revisedState (reset : List String) (previousStates : List PlanNodeState)
    (fresh : PlanNodeState) : PlanNodeState :=
  if fresh.nodeId ∈ reset then fresh
  else (stateOf? previousStates fresh.nodeId).getD fresh

def revisePlan (cfg : PlanConfig) (goal : CompiledGoal) (previous : PlanGraph)
    (previousStates : List PlanNodeState) (nextInput : PlanGraph) (now : String) :
    Except String PlanRevisionResult := do
  let _ ← validIso now "now"
  throwIf (∃ s ∈ previousStates, s.status = .running)
    "plan revision is forbidden while an execution node is running."
  throwIf (∃ s ∈ previousStates, s.status = .blocked ∧ s.lastExecutionDigest.truthy.isSome = true)
    "plan revision is forbidden while an execution is awaiting verification."
  let next ← validatePlanGraph goal nextInput
  throwIf (next.planId ≠ previous.planId ∨ next.goalId ≠ previous.goalId)
    "plan revision must preserve plan and goal identity."
  throwIf (next.version ≠ previous.version + 1)
    "plan revision version must advance exactly by one."
  let changed := Json.sortTexts
    ((next.nodes.filter fun node => !unchangedNode cfg previous node).map (·.id))
  let reset := dependentClosure next changed
  let states := (initializeNodeStates next now).map (revisedState reset previousStates)
  let preservedSucceeded := (states.filter fun s =>
    s.status == .succeeded && !reset.contains s.nodeId).map (·.nodeId)
  let preservedNodeDigests := (next.nodes.filter fun node =>
      !reset.contains node.id && unchangedNode cfg previous node).map fun node =>
    PreservedNodeDigest.mk node.id (digestPlan cfg (node.toJson cfg))
  let proof ← createRevisionProof cfg
    { digest := "", planId := next.planId, goalId := next.goalId,
      fromVersion := previous.version, toVersion := next.version,
      fromPlanDigest := digestPlan cfg (previous.toJson cfg),
      toPlanDigest := digestPlan cfg (next.toJson cfg),
      preservedNodeDigests := sortPreserved cfg preservedNodeDigests,
      resetNodeIds := Json.sortTexts reset, createdAt := now }
  .ok { graph := next, states, changedNodeIds := changed,
        resetNodeIds := Json.sortTexts reset,
        preservedSucceededNodeIds := Json.sortTexts preservedSucceeded, proof }

-- ===== the runtime

/-- `VerifiedPlanRuntimeState`; its version field is always `3`. -/
structure RuntimeState where
  goal : CompiledGoal
  graph : PlanGraph
  goalDigest : String
  planDigest : String
  nodeStates : List PlanNodeState
  decisions : List PlanDecision
  verificationReceipts : List VerificationReceipt
  revisionProofs : List PlanRevisionProof

structure VerifiedPlanRuntime where
  goal : CompiledGoal
  graph : PlanGraph
  goalDigest : String
  planDigest : String
  states : List PlanNodeState
  decisions : List PlanDecision
  receipts : List VerificationReceipt
  revisionProofs : List PlanRevisionProof

def checkNodeState (nodes : List PlanNode) (seen : List String) (s : PlanNodeState) :
    Except String Unit :=
  match nodeOf? nodes s.nodeId with
  | none => .error "runtime node state is invalid."
  | some node => do
    throwIf (s.nodeId ∈ seen) "runtime node state is invalid."
    throwIf (maxSafeInteger < s.attempts ∨ node.maxAttempts < s.attempts)
      "runtime node attempts are invalid."
    let _ ← validIso s.lastUpdatedAt "node.lastUpdatedAt"
    let _ ← s.lastExecutionDigest.truthy.mapM (digestText · "node.lastExecutionDigest")
    let _ ← s.verificationReceiptDigest.truthy.mapM
      (digestText · "node.verificationReceiptDigest")
    let _ ← s.verifiedNodeDigest.truthy.mapM (digestText · "node.verifiedNodeDigest")
    throwIf (s.verificationReceiptDigest.truthy.isSome = true
        ∧ s.verifiedNodeDigest.truthy = none)
      "verified receipt state requires exact verified node content."

def checkNodeStates (nodes : List PlanNode) (seen : List String) :
    List PlanNodeState → Except String Unit
  | [] => .ok ()
  | s :: states => do
    checkNodeState nodes seen s
    checkNodeStates nodes (s.nodeId :: seen) states

/-- `normalizeNodeStates(graph, input)`: the states are checked and kept. -/
def normalizeNodeStates (graph : PlanGraph) (input : List PlanNodeState) :
    Except String (List PlanNodeState) := do
  throwIf (input.length ≠ graph.nodes.length)
    "runtime node state does not match plan graph."
  checkNodeStates graph.nodes [] input
  .ok input

def checkProofs (planId goalId : String) : Option PlanRevisionProof → List Nat →
    List PlanRevisionProof → Except String (Option PlanRevisionProof)
  | previous, _, [] => .ok previous
  | previous, fromVersions, proof :: proofs => do
    throwIf (proof.planId ≠ planId ∨ proof.goalId ≠ goalId)
      "revision proof is bound to a different plan/goal."
    throwIf (proof.fromVersion ∈ fromVersions)
      "revision proof chain contains duplicate source versions."
    throwIf (∃ p ∈ previous, p.toVersion ≠ proof.fromVersion
        ∨ p.toPlanDigest ≠ proof.fromPlanDigest)
      "revision proof chain is not contiguous."
    checkProofs planId goalId (some proof) (proof.fromVersion :: fromVersions) proofs

def VerifiedPlanRuntime.validateRevisionProofChain (r : VerifiedPlanRuntime) :
    Except String Unit := do
  throwIf (10000 < r.revisionProofs.length) "revision proof chain is too large."
  let previous ← checkProofs r.graph.planId r.goal.id none [] r.revisionProofs
  throwIf (∃ p ∈ previous, p.toVersion ≠ r.graph.version ∨ p.toPlanDigest ≠ r.planDigest)
    "revision proof chain does not terminate at the current plan."

/-- The loop of `isNodePreservedAcrossRevisions`; every proof goes one
version up, so the distance left bounds it. -/
def preservedFrom (proofs : List PlanRevisionProof) (target : Nat)
    (entry : PreservedNodeDigest) : Nat → Nat → Bool
  | 0, version => version == target
  | fuel + 1, version =>
    if version < target then
      match proofs.find? fun p => p.fromVersion == version with
      | none => false
      | some proof =>
        proof.preservedNodeDigests.contains entry
          && preservedFrom proofs target entry fuel proof.toVersion
    else version == target

def VerifiedPlanRuntime.isNodePreservedAcrossRevisions (r : VerifiedPlanRuntime)
    (fromVersion : Nat) (nodeId nodeDigest : String) : Bool :=
  preservedFrom r.revisionProofs r.graph.version ⟨nodeId, nodeDigest⟩
    (r.graph.version - fromVersion) fromVersion

def VerifiedPlanRuntime.node (r : VerifiedPlanRuntime) (id : String) : Except String PlanNode :=
  match nodeOf? r.graph.nodes id with
  | some node => .ok node
  | none => .error ("unknown plan node: " ++ id)

def VerifiedPlanRuntime.stateFor (r : VerifiedPlanRuntime) (id : String) :
    Except String PlanNodeState :=
  match stateOf? r.states id with
  | some state => .ok state
  | none => .error ("missing plan node state: " ++ id)

def VerifiedPlanRuntime.checkReceipt (cfg : PlanConfig) (r : VerifiedPlanRuntime)
    (receipt : VerificationReceipt) : Except String Unit := do
  let state ← r.stateFor receipt.nodeId
  match state.lastExecutionDigest.truthy with
  | none => .error "persisted receipt has no matching execution lineage."
  | some executionDigest => do
    throwIf (state.verificationReceiptDigest.get? ≠ some receipt.digest)
      "persisted verification receipt is not referenced by its node state."
    throwIf (r.graph.version < receipt.planVersion)
      "persisted verification receipt comes from a future plan version."
    let _ ← validateCompletionReceipt receipt
      { goalId := r.goal.id, planId := r.graph.planId,
        planVersion := receipt.planVersion, nodeId := receipt.nodeId,
        attempt := state.attempts, executionDigest }
    let node ← r.node receipt.nodeId
    let nodeDigest := digestPlan cfg (node.toJson cfg)
    let verified ← state.verifiedNodeDigest.truthy.mapM
      (digestText · "state.verifiedNodeDigest")
    throwIf (verified ≠ some nodeDigest)
      "verified node content does not match persisted verification lineage."
    throwIf (receipt.planVersion < r.graph.version
        ∧ r.isNodePreservedAcrossRevisions receipt.planVersion receipt.nodeId nodeDigest = false)
      "historical verification receipt is not preserved by the revision proof chain."

def VerifiedPlanRuntime.checkReceipts (cfg : PlanConfig) (r : VerifiedPlanRuntime)
    (seen : List String) : List VerificationReceipt → Except String Unit
  | [] => .ok ()
  | receipt :: receipts => do
    throwIf (receipt.digest ∈ seen) "persisted verification receipt digest is duplicated."
    r.checkReceipt cfg receipt
    r.checkReceipts cfg (receipt.digest :: seen) receipts

def VerifiedPlanRuntime.checkVerifiedNode (cfg : PlanConfig) (r : VerifiedPlanRuntime)
    (node : PlanNode) : Except String Unit := do
  let state ← r.stateFor node.id
  if state.status = .succeeded ∧ node.verificationFactKeys ≠ [] then
    throwIf (state.verificationReceiptDigest.truthy = none)
      "verified node is missing persisted receipt lineage."
    throwIf (state.verifiedNodeDigest.truthy ≠ some (digestPlan cfg (node.toJson cfg)))
      "verified node is missing exact node-content lineage."
    throwIf (¬ ∃ receipt ∈ r.receipts, state.verificationReceiptDigest.get? = some receipt.digest
          ∧ receipt.nodeId = node.id)
      "verified node references a missing or mismatched persisted receipt."
  else .ok ()

def VerifiedPlanRuntime.validatePersistedReceipts (cfg : PlanConfig)
    (r : VerifiedPlanRuntime) : Except String Unit := do
  r.checkReceipts cfg [] r.receipts
  r.graph.nodes.forM (r.checkVerifiedNode cfg)

def checkDecision (goal : CompiledGoal) (graph : PlanGraph) (planDigest : String)
    (decision : PlanDecision) : Except String Unit := do
  throwIf (decision.planId ≠ graph.planId ∨ decision.planVersion ≠ graph.version
      ∨ decision.planDigest ≠ planDigest ∨ decision.goalId ≠ goal.id)
    "persisted decision lineage is bound to different plan content."
  throwIf (nodeOf? graph.nodes decision.nodeId = none)
    "persisted decision references unknown node."

/-- The constructor, on a stored state. -/
def VerifiedPlanRuntime.restore (cfg : PlanConfig) (goal : CompiledGoal)
    (graphInput : PlanGraph) (state : RuntimeState) :
    Except String VerifiedPlanRuntime := do
  let graph ← validatePlanGraph goal graphInput
  let goalDigest := digestPlan cfg goal.toJson
  let planDigest := digestPlan cfg (graph.toJson cfg)
  throwIf (state.goal.id ≠ goal.id ∨ state.graph.planId ≠ graph.planId
      ∨ state.graph.version ≠ graph.version)
    "runtime state is bound to different goal/plan lineage."
  let stateGoalDigest ← digestText state.goalDigest "state.goalDigest"
  throwIf (stateGoalDigest ≠ goalDigest)
    "runtime state goal/plan digest does not match immutable content."
  let statePlanDigest ← digestText state.planDigest "state.planDigest"
  throwIf (statePlanDigest ≠ planDigest)
    "runtime state goal/plan digest does not match immutable content."
  let states ← normalizeNodeStates graph state.nodeStates
  let decisions ← state.decisions.mapM (validateDecisionLineage cfg)
  decisions.forM (checkDecision goal graph planDigest)
  let revisionProofs ← state.revisionProofs.mapM (validateRevisionProof cfg)
  let r : VerifiedPlanRuntime :=
    { goal, graph, goalDigest, planDigest, states, decisions,
      receipts := state.verificationReceipts, revisionProofs }
  r.validateRevisionProofChain
  r.validatePersistedReceipts cfg
  .ok r

/-- The constructor, without a stored state, at a time the platform gives. -/
def VerifiedPlanRuntime.create (cfg : PlanConfig) (goal : CompiledGoal)
    (graphInput : PlanGraph) (now : String) : Except String VerifiedPlanRuntime := do
  let graph ← validatePlanGraph goal graphInput
  .ok { goal, graph
        goalDigest := digestPlan cfg goal.toJson
        planDigest := digestPlan cfg (graph.toJson cfg)
        states := initializeNodeStates graph now
        decisions := [], receipts := [], revisionProofs := [] }

def fromState (cfg : PlanConfig) (state : RuntimeState) : Except String VerifiedPlanRuntime :=
  VerifiedPlanRuntime.restore cfg state.goal state.graph state

def VerifiedPlanRuntime.exportState (r : VerifiedPlanRuntime) : RuntimeState where
  goal := r.goal
  graph := r.graph
  goalDigest := r.goalDigest
  planDigest := r.planDigest
  nodeStates := r.states
  decisions := r.decisions
  verificationReceipts := r.receipts
  revisionProofs := r.revisionProofs

-- ===== operations

namespace VerifiedPlanRuntime

def replaceState (r : VerifiedPlanRuntime) (next : PlanNodeState) : VerifiedPlanRuntime :=
  { r with states := r.states.map fun s => if s.nodeId = next.nodeId then next else s }

def bindBeliefs (r : VerifiedPlanRuntime) (beliefs : List BeliefView) (now : String) :
    Except String VerifiedPlanRuntime := do
  throwIf (∃ s ∈ r.states, s.status = .running)
    "belief rebinding is forbidden while an execution node is running."
  let result ← bindPlanToBeliefs r.graph r.states beliefs now
  .ok { r with states := result.states }

def startedState (state : PlanNodeState) (now : String) : PlanNodeState :=
  { state with
    status := .running
    attempts := state.attempts + 1
    lastReason := .undef
    lastExecutionDigest := .undef
    verificationReceiptDigest := .undef
    verifiedNodeDigest := .undef
    lastUpdatedAt := now }

def startNode (r : VerifiedPlanRuntime) (nodeId now : String) :
    Except String VerifiedPlanRuntime := do
  let _ ← validIso now "now"
  let node ← r.node nodeId
  let state ← r.stateFor nodeId
  throwIf (state.status ≠ .ready) ("node is not ready: " ++ nodeId)
  throwIf (node.maxAttempts ≤ state.attempts) ("node attempt budget exhausted: " ++ nodeId)
  .ok (r.replaceState (startedState state now))

def executionDigest (cfg : PlanConfig) (r : VerifiedPlanRuntime) (nodeId : String)
    (attempt : Nat) (observation : ExecutionObservation) : String :=
  digestPlan cfg (.obj [("goalDigest", .str r.goalDigest),
    ("planDigest", .str r.planDigest), ("nodeId", .str nodeId),
    ("attempt", natJson attempt), ("observation", observation.toJson)])

def failedState (state : PlanNodeState) (digest reason now : String) : PlanNodeState :=
  { state with
    status := .failed
    lastExecutionDigest := .val digest
    verificationReceiptDigest := .undef
    verifiedNodeDigest := .undef
    lastReason := .val reason
    lastUpdatedAt := now }

def repairState (failed : PlanNodeState) (invalidated : List String) (now : String)
    (s : PlanNodeState) : PlanNodeState :=
  if s.nodeId = failed.nodeId then failed
  else if s.nodeId ∈ invalidated ∧ s.status ≠ .succeeded then
    { s with status := .invalidated, lastReason := .val "local-repair-invalidated"
             lastUpdatedAt := now }
  else s

def acceptedState (state : PlanNodeState) (digest : String)
    (assessment : NodeOutcomeAssessment) (now : String) : PlanNodeState :=
  { state with
    lastExecutionDigest := .val digest
    status := if assessment.requiresVerification then .blocked else .succeeded
    lastReason := .val assessment.reason
    lastUpdatedAt := now }

def recordExecution (cfg : PlanConfig) (r : VerifiedPlanRuntime) (nodeId : String)
    (observationInput : ExecutionObservation) (now : String) :
    Except String VerifiedPlanRuntime := do
  let _ ← validIso now "now"
  let node ← r.node nodeId
  let current ← r.stateFor nodeId
  throwIf (current.status ≠ .running)
    "node must be RUNNING before execution outcome is recorded."
  let observation ← normalizeObservation observationInput
  let digest := r.executionDigest cfg nodeId current.attempts observation
  let assessment := assessNodeOutcome node observation
  if assessment.accepted = false then
    let failed := failedState current digest assessment.reason now
    let replaced := r.replaceState failed
    let repair ← planLocalRepair r.graph replaced.states nodeId assessment.reason
    let states := replaced.states.map (repairState failed repair.invalidatedNodeIds now)
    .ok { r with states }
  else .ok (r.replaceState (acceptedState current digest assessment now))

def verifiedState (state : PlanNodeState) (receiptDigest nodeDigest now : String) : PlanNodeState :=
  { state with
    status := .succeeded
    verificationReceiptDigest := .val receiptDigest
    verifiedNodeDigest := .val nodeDigest
    lastReason := .val "independent-verification-receipt-accepted"
    lastUpdatedAt := now }

def markVerifiedComplete (cfg : PlanConfig) (r : VerifiedPlanRuntime) (nodeId : String)
    (receipt : VerificationReceipt) (now : String) :
    Except String VerifiedPlanRuntime := do
  let _ ← validIso now "now"
  let node ← r.node nodeId
  let state ← r.stateFor nodeId
  throwIf (state.status ≠ .blocked ∧ state.status ≠ .running)
    "node is not awaiting verification."
  throwIf (node.verificationFactKeys = [])
    "node does not require independent verification."
  match state.lastExecutionDigest.truthy with
  | none => .error "node has no exact execution lineage to verify."
  | some executionDigest => do
    let normalized ← validateCompletionReceipt receipt
      { goalId := r.goal.id, planId := r.graph.planId, planVersion := r.graph.version,
        nodeId, attempt := state.attempts, executionDigest }
    let existing := r.receipts.find? fun x => x.digest == normalized.digest
    throwIf (∃ x ∈ existing, Json.canonicalJson x.toJson ≠ Json.canonicalJson normalized.toJson)
      "verification receipt digest collision across distinct lineages."
    let r := if existing.isNone then { r with receipts := r.receipts ++ [normalized] }
      else r
    .ok (r.replaceState (verifiedState state normalized.digest
      (digestPlan cfg (node.toJson cfg)) now))

def revisedRuntime (cfg : PlanConfig) (r : VerifiedPlanRuntime)
    (revision : PlanRevisionResult) : RuntimeState :=
  let preserved := (revision.states.filter fun s => s.status == .succeeded).filterMap
    (·.verificationReceiptDigest.truthy)
  { goal := r.goal
    graph := revision.graph
    goalDigest := r.goalDigest
    planDigest := digestPlan cfg (revision.graph.toJson cfg)
    nodeStates := revision.states
    decisions := []
    verificationReceipts := r.receipts.filter fun x => x.digest ∈ preserved
    revisionProofs := r.revisionProofs ++ [revision.proof] }

def revise (cfg : PlanConfig) (r : VerifiedPlanRuntime) (nextGraph : PlanGraph)
    (now : String) : Except String VerifiedPlanRuntime := do
  let revision ← revisePlan cfg r.goal r.graph r.states nextGraph now
  restore cfg r.goal revision.graph (r.revisedRuntime cfg revision)

def appendDecision (cfg : PlanConfig) (r : VerifiedPlanRuntime)
    (decisionInput : PlanDecision) : Except String VerifiedPlanRuntime := do
  let decision ← validateDecisionLineage cfg decisionInput
  throwIf (decision.planId ≠ r.graph.planId ∨ decision.planVersion ≠ r.graph.version
      ∨ decision.planDigest ≠ r.planDigest ∨ decision.goalId ≠ r.goal.id)
    "decision lineage is bound to a different plan."
  throwIf (nodeOf? r.graph.nodes decision.nodeId = none)
    "decision lineage references unknown node."
  if decision.digest ∈ r.decisions.map (·.digest) then .ok r
  else
    let decisions := r.decisions ++ [decision]
    .ok { r with decisions := decisions.drop (decisions.length - 100000) }

end VerifiedPlanRuntime

-- ===== the machine

inductive PlanOperation
  | bindBeliefs (beliefs : List BeliefView) (now : String)
  | startNode (nodeId now : String)
  | recordExecution (nodeId : String) (observation : ExecutionObservation) (now : String)
  | markVerifiedComplete (nodeId : String) (receipt : VerificationReceipt) (now : String)
  | appendDecision (decision : PlanDecision)
  | revise (nextGraph : PlanGraph) (now : String)

/-- The runtime an operation answers; `revise` answers a new one. -/
def PlanOperation.run (cfg : PlanConfig) (r : VerifiedPlanRuntime) :
    PlanOperation → Except String VerifiedPlanRuntime
  | .bindBeliefs beliefs now => r.bindBeliefs beliefs now
  | .startNode nodeId now => r.startNode nodeId now
  | .recordExecution nodeId observation now => r.recordExecution cfg nodeId observation now
  | .markVerifiedComplete nodeId receipt now => r.markVerifiedComplete cfg nodeId receipt now
  | .appendDecision decision => r.appendDecision cfg decision
  | .revise nextGraph now => r.revise cfg nextGraph now

/-- One call: a runtime it throws on stays as it is. -/
def VerifiedPlanRuntime.step (cfg : PlanConfig) (r : VerifiedPlanRuntime)
    (op : PlanOperation) : VerifiedPlanRuntime :=
  match op.run cfg r with
  | .ok next => next
  | .error _ => r

def planSteps (cfg : PlanConfig) :
    VerifiedPlanRuntime → PlanOperation → VerifiedPlanRuntime → Prop :=
  fun r op next => next = r.step cfg op

/-
`exportEnvelope` and `fromEnvelope` of `VerifiedPlanRuntime`, and what a
trip through `JSON.stringify` and `JSON.parse` does to an envelope in
between: a field that is `undefined` is left out, and everything else
comes back as it was. Only node states have such fields.
-/

-- ===== the payload

def PlanDecision.toJson (d : PlanDecision) : Json :=
  .obj [("digest", .str d.digest), ("planId", .str d.planId),
    ("planVersion", natJson d.planVersion), ("planDigest", .str d.planDigest),
    ("goalId", .str d.goalId), ("nodeId", .str d.nodeId),
    ("beliefDigest", .str d.beliefDigest), ("decisionKind", .str d.decisionKind.text),
    ("decisionId", .str d.decisionId), ("createdAt", .str d.createdAt)]

def PreservedNodeDigest.toJson (e : PreservedNodeDigest) : Json :=
  .obj [("nodeId", .str e.nodeId), ("nodeDigest", .str e.nodeDigest)]

def PlanRevisionProof.toJson (p : PlanRevisionProof) : Json :=
  .obj [("digest", .str p.digest), ("planId", .str p.planId), ("goalId", .str p.goalId),
    ("fromVersion", natJson p.fromVersion), ("toVersion", natJson p.toVersion),
    ("fromPlanDigest", .str p.fromPlanDigest), ("toPlanDigest", .str p.toPlanDigest),
    ("preservedNodeDigests", .arr (p.preservedNodeDigests.map PreservedNodeDigest.toJson)),
    ("resetNodeIds", texts p.resetNodeIds), ("createdAt", .str p.createdAt)]

/-- The state, as `canonical` writes it. -/
def RuntimeState.toJson (cfg : PlanConfig) (state : RuntimeState) : Json :=
  .obj [("version", natJson 3), ("goal", state.goal.toJson),
    ("graph", state.graph.toJson cfg), ("goalDigest", .str state.goalDigest),
    ("planDigest", .str state.planDigest),
    ("nodeStates", .arr (state.nodeStates.map PlanNodeState.toJson)),
    ("decisions", .arr (state.decisions.map PlanDecision.toJson)),
    ("verificationReceipts", .arr (state.verificationReceipts.map VerificationReceipt.toJson)),
    ("revisionProofs", .arr (state.revisionProofs.map PlanRevisionProof.toJson))]

-- ===== the envelope

/-- `VerifiedPlanRuntimeEnvelope`; its kind and version are fixed. -/
structure RuntimeEnvelope where
  payload : RuntimeState
  payloadDigest : String

def VerifiedPlanRuntime.exportEnvelope (cfg : PlanConfig) (r : VerifiedPlanRuntime) :
    RuntimeEnvelope where
  payload := r.exportState
  payloadDigest := digestPlan cfg (r.exportState.toJson cfg)

def fromEnvelope (cfg : PlanConfig) (input : RuntimeEnvelope) :
    Except String VerifiedPlanRuntime := do
  let actual ← digestText input.payloadDigest "envelope.payloadDigest"
  throwIf (actual ≠ digestPlan cfg (input.payload.toJson cfg))
    "verified plan runtime envelope payload digest mismatch."
  fromState cfg input.payload

-- ===== the trip

/-- A field after `JSON.parse(JSON.stringify(…))`. -/
def Slot.reload {α : Type} : Slot α → Slot α
  | .undef => .absent
  | slot => slot

def PlanNodeState.reload (s : PlanNodeState) : PlanNodeState :=
  { s with
    lastReason := s.lastReason.reload
    lastExecutionDigest := s.lastExecutionDigest.reload
    verificationReceiptDigest := s.verificationReceiptDigest.reload
    verifiedNodeDigest := s.verifiedNodeDigest.reload }

def RuntimeState.reload (state : RuntimeState) : RuntimeState :=
  { state with nodeStates := state.nodeStates.map PlanNodeState.reload }

/-- `JSON.parse(JSON.stringify(envelope))`. -/
def RuntimeEnvelope.reload (envelope : RuntimeEnvelope) : RuntimeEnvelope :=
  { envelope with payload := envelope.payload.reload }

end OperatorRuntime.Plan
