/-
The operations of `core/team-coordinator.ts` on one mission. Each is a
mutator under the lock of the mission file (`update`), so operations
follow one another.

`complete` of a coordinator that requires kernel verification reads the
mission once before, without the lock, runs the canonical verification
and compares a digest of the state afterwards. What was read then is an
argument (`before`), and so is what the verification, the intent registry
and the random ids answer.
-/
import OperatorRuntime.Team.Mission

namespace OperatorRuntime.Team

open Journal (canonicalResourceKeys)

-- ===== leases

def TeamResource.expire (lease : TeamLease) (risk : ActionRisk)
    (stamp : String → Instant) (resource : TeamResource) : TeamResource :=
  { resource with
    lock := if resource.lock.any (fun lock => lock.leaseId = lease.id) then none
      else resource.lock
    uncertain := resource.uncertain || risk != .read
    updatedAt := stamp resource.key }

def expireLease (stamp : String → Instant) (mission : TeamMission)
    (item : TeamWorkItem) : Result TeamMission :=
  match item.lease with
  | none => .ok mission
  | some lease => do
    let mission ← mission.forResources
      (TeamResource.expire lease item.risk stamp) item.resources
    .ok (mission.modifyItem item.key fun item =>
      { item with
        lease := none
        state := if item.risk = .read then .pending
          else .needsReconciliation })

def expireLeases (stamp : String → Instant) (mission : TeamMission)
    (items : List TeamWorkItem) : Result TeamMission :=
  items.foldlM (expireLease stamp) mission

def invalidateLiveLeases (stamp : String → Instant) (mission : TeamMission) :
    Result TeamMission :=
  expireLeases stamp mission
    (mission.workItems.filter fun item => item.lease.isSome)

def TeamMissionState.terminal : TeamMissionState → Bool
  | .failed | .cancelled | .verified => true
  | _ => false

def TeamMission.anyUncertain (mission : TeamMission) : Bool :=
  mission.resources.any TeamResource.uncertain

/-- A worker whose heartbeat is too old goes offline. -/
def TeamWorker.reap (leaseMs : Nat) (now : Instant) (worker : TeamWorker) : TeamWorker :=
  if worker.state = .active
      ∧ now.val - worker.heartbeatAt.val > max (leaseMs * 2 : Int) 60000 then
    { worker with state := .offline }
  else worker

/-- The lease of an item has run out. -/
def TeamWorkItem.lapsed (now : Instant) (item : TeamWorkItem) : Bool :=
  item.state == .leased && item.lease.any fun lease => lease.expiresAt.val ≤ now.val

/-- `reapExpired`, at its one comparing reading. -/
def reapExpired (now : Instant) (stamp : String → Instant)
    (mission : TeamMission) : Result TeamMission := do
  let reaped ← expireLeases stamp
    { mission with
      workers := mission.workers.map
        (TeamWorker.reap mission.budget.leaseMs now) }
    (mission.workItems.filter fun item => item.lapsed now)
  .ok
    { reaped with
      state := if reaped.anyUncertain = true ∧ reaped.state.terminal = false
        then .blocked else reaped.state }

/-- `ensureMissionRunnable`: whether the mission may go on, and what the
check made of it. -/
def ensureMissionRunnable (now : Instant) (mission : TeamMission) :
    Result (Bool × TeamMission) := do
  rejectIf (mission.state ≠ .running)
    .teamStateInvalid "Mission is not running."
  if mission.deadlineAt.any fun deadline => deadline.val ≤ now.val then
    .ok (false, { mission with state := .failed })
  else if mission.anyUncertain then
    .ok (false, { mission with state := .blocked })
  else .ok (true, mission)

def finalizeIfVerified (mission : TeamMission) : TeamMission :=
  if mission.workItems.any fun item => item.state ≠ .completed then mission
  else if mission.workItems.any fun item =>
      item.role == .verifier && item.result.any fun result =>
        result.verificationPassed && result.verificationDigest.isSome then
    { mission with state := .verified }
  else { mission with state := .blocked }

-- ===== update

/-- `TeamStore.update`: the file is read, changed, checked and written. -/
def update (env : TeamEnv) (mutate : TeamMission → Result TeamMission)
    (mission : TeamMission) : Result TeamMission := do
  validateMission env mission
  let updated ← mutate mission
  validateMission env updated
  rejectIf (env.fits updated = false)
    .teamStateCorrupt "Stored team mission is invalid."
  .ok updated

def assertForwardIntent (mission : TeamMission) (answer : IntentAnswer) :
    Result Unit :=
  match mission.intent with
  | none => .ok ()
  | some _ => answer

-- === start, pause, resume, cancel

def startIn (r : Readings) (mission : TeamMission) : Result TeamMission := do
  let mission ← reapExpired (r.now 0) r.stamp mission
  rejectIf (mission.state.terminal = true)
    .teamTerminal "Terminal mission cannot be started."
  let deadline ← (r.now 1).later mission.budget.maxWallClockMs
  .ok { mission with state := .running, deadlineAt := some deadline }

def pauseIn (r : Readings) (mission : TeamMission) : Result TeamMission := do
  rejectIf (mission.state ≠ .running ∧ mission.state ≠ .blocked)
    .teamStateInvalid "Only running/blocked missions can be paused."
  let mission ← invalidateLiveLeases r.stamp mission
  .ok { mission with epoch := mission.epoch + 1, state := .paused }

def resumeIn (r : Readings) (mission : TeamMission) : Result TeamMission := do
  rejectIf (mission.state ≠ .paused ∧ mission.state ≠ .blocked)
    .teamStateInvalid "Only paused/blocked missions can be resumed."
  rejectIf (mission.anyUncertain = true)
    .teamReconciliationRequired
    "Uncertain resources must be reconciled before resume."
  let deadline ← (r.now 0).later mission.budget.maxWallClockMs
  .ok { mission with state := .running, deadlineAt := some deadline }

def cancelIn (r : Readings) (mission : TeamMission) : Result TeamMission :=
  if mission.state.terminal then .ok mission
  else do
    let mission ← invalidateLiveLeases r.stamp mission
    .ok
      { mission with
        epoch := mission.epoch + 1
        workItems := mission.workItems.map fun item =>
          if item.state = .completed ∨ item.state = .failed then item
          else { item with state := .cancelled }
        state := .cancelled }

-- ===== workers

structure RegisterInput where
  workerId : String
  role : TeamRole
  label : String
  capabilities : List String := []

/-- The mutator of `registerWorker`; a missing id is a drawn one. -/
def registerWorkerIn (input : RegisterInput) (r : Readings)
    (mission : TeamMission) : Result TeamMission := do
  let mission ← reapExpired (r.now 0) r.stamp mission
  let id ← validUuid input.workerId "workerId"
  match mission.workers.find? fun worker => worker.id == id.val with
  | some existing =>
    rejectIf (existing.state = .revoked)
      .teamWorkerRevoked "Revoked worker identity cannot be re-registered."
    let label ← boundedText input.label 256 "worker label"
    let capabilities ←
      uniqueStrings input.capabilities 200 256 "worker capabilities"
    .ok (mission.modifyWorker id.val fun worker =>
      { worker with
        role := input.role, label
        capabilities := capabilities.insertionSort fun a b => Json.keyLe a b
        heartbeatAt := r.now 1, state := .active })
  | none =>
    rejectIf (min mission.budget.maxWorkers maxMissionWorkers ≤ mission.workers.length)
      .teamWorkerLimit "Mission worker limit reached."
    let label ← boundedText input.label 256 "worker label"
    let capabilities ←
      uniqueStrings input.capabilities 200 256 "worker capabilities"
    .ok
      { mission with
        workers := mission.workers
          ++ [{ id := id.val, role := input.role, label
                capabilities :=
                  capabilities.insertionSort fun a b => Json.keyLe a b
                heartbeatAt := r.now 1, state := .active }] }

def TeamMission.touchWorker (mission : TeamMission) (worker : TeamWorker)
    (now : Instant) : TeamMission :=
  mission.modifyWorker worker.id fun worker =>
    { worker with heartbeatAt := now }

def TeamMission.extendLease (mission : TeamMission) (key : String)
    (now expiresAt : Instant) : TeamMission :=
  mission.modifyItem key fun item =>
    { item with
      lease := item.lease.map fun lease =>
        { lease with heartbeatAt := now, expiresAt } }

def TeamResource.extend (leaseId : String) (expiresAt : Instant)
    (resource : TeamResource) : TeamResource :=
  { resource with
    lock := resource.lock.map fun lock =>
      if lock.leaseId = leaseId then { lock with expiresAt } else lock }

/-- The locks of a lease are extended; a lock of another lease ends the
call. -/
def extendLocks (leaseId : String) (expiresAt : Instant) :
    List String → TeamMission → Result TeamMission
  | [], mission => .ok mission
  | key :: keys, mission => do
    let resource ← requireResource mission key
    rejectIf (resource.lock.map TeamLock.leaseId ≠ some leaseId)
      .teamLeaseLost "Resource lock ownership changed."
    extendLocks leaseId expiresAt keys
      (mission.modifyResource key (TeamResource.extend leaseId expiresAt))

def heartbeatIn (workerId : String) (leaseId : Option String) (r : Readings)
    (mission : TeamMission) : Result TeamMission := do
  let mission ← reapExpired (r.now 0) r.stamp mission
  let worker ← requireWorker mission workerId
  let mission := mission.modifyWorker worker.id fun worker =>
    { worker with heartbeatAt := r.now 1, state := .active }
  match leaseId with
  | none => .ok mission
  | some leaseId => do
    let leaseId ← validUuid leaseId "leaseId"
    match mission.workItems.find? fun item => item.lease.any fun lease =>
        lease.id == leaseId.val && lease.workerId == worker.id with
    | none =>
      fail .teamLeaseLost "Worker no longer owns the requested lease."
    | some item => do
      let expiresAt ← (r.now 2).later mission.budget.leaseMs
      extendLocks leaseId.val expiresAt item.resources
        (mission.extendLease item.key (r.now 1) expiresAt)

-- ===== claim

/-- The worker may take the item as far as roles go. -/
def roleAdmits (worker : TeamWorker) (item : TeamWorkItem) : Bool :=
  item.role == worker.role || item.role == .general
    || worker.role == .supervisor

def resourcesFree (mission : TeamMission) : List String → Result Bool
  | [] => .ok true
  | key :: keys => do
    let resource ← requireResource mission key
    if resource.uncertain || resource.lock.isSome then .ok false
    else resourcesFree mission keys

def claimCandidates (mission : TeamMission) (worker : TeamWorker) :
    List TeamWorkItem → Result (List TeamWorkItem)
  | [] => .ok []
  | item :: items => do
    let rest ← claimCandidates mission worker items
    if item.state == .pending && roleAdmits worker item
        && (item.dependsOn.all fun key => mission.workItems.any fun other =>
          other.state == .completed && other.key == key)
        && (item.allowedCapabilities.all fun capability =>
          worker.capabilities.contains capability) then do
      let free ← resourcesFree mission item.resources
      .ok (if free then item :: rest else rest)
    else .ok rest

/-- `b.priority - a.priority || a.key.localeCompare(b.key)`. -/
def claimLe (env : TeamEnv) (a b : TeamWorkItem) : Bool :=
  if a.priority = b.priority then env.localeCompare a.key b.key ≤ 0
  else b.priority < a.priority

def grantLease (mission : TeamMission) (worker : TeamWorker)
    (item : TeamWorkItem) (leaseId : String) (now expiresAt : Instant) :
    Result TeamMission := do
  let baseResourceRevisions ← item.resources.mapM fun key => do
    let resource ← requireResource mission key
    .ok (key, resource.revision)
  let lease : TeamLease :=
    { id := leaseId, workerId := worker.id, workItemId := item.id
      epoch := mission.epoch, acquiredAt := now, heartbeatAt := now, expiresAt
      baseResourceRevisions }
  let mission := mission.modifyItem item.key fun item =>
    { item with
      attempts := item.attempts + 1, lease := some lease, state := .leased }
  mission.forResources
    (fun resource => { resource with lock := some lease.lock }) item.resources

/-- The mutator of `claim`. The leases still live are counted at a reading
of their own. -/
def claimIn (env : TeamEnv) (workerId leaseId : String) (r : Readings)
    (mission : TeamMission) : Result TeamMission := do
  let mission ← reapExpired (r.now 0) r.stamp mission
  let (runnable, mission) ← ensureMissionRunnable (r.now 1) mission
  if runnable = false then .ok mission
  else do
    let worker ← requireWorker mission workerId
    rejectIf (worker.state ≠ .active)
      .teamWorkerOffline "Worker is not active."
    let liveLeases := mission.workItems.countP fun item =>
      item.state == .leased && item.lease.any fun lease => (r.now 2).val < lease.expiresAt.val
    if mission.budget.maxConcurrentLeases ≤ liveLeases then .ok mission
    else do
      let candidates ← claimCandidates mission worker mission.workItems
      match candidates.insertionSort fun a b => claimLe env a b with
      | [] => .ok mission
      | item :: _ =>
        if mission.budget.maxAttemptsPerWorkItem ≤ item.attempts then
          .ok
            { mission.modifyItem item.key fun item =>
                { item with
                  state := .failed
                  failure := some
                    { code := "TEAM_ATTEMPT_BUDGET_EXHAUSTED"
                      message := "Work item exhausted attempt budget."
                      at' := r.now 3 } } with
              state := .failed }
        else do
          let expiresAt ← (r.now 4).later mission.budget.leaseMs
          let mission ←
            grantLease mission worker item leaseId (r.now 3) expiresAt
          .ok (mission.touchWorker worker (r.now 3))

-- ===== blackboard

structure BlackboardInput where
  workerId : String
  key : String
  value : Json
  expectedRevision : Option Int := none
  workItemId : Option String := none
  leaseId : Option String := none

/-- Who is not a supervisor writes under a lease. -/
def blackboardAdmits (mission : TeamMission) (worker : TeamWorker)
    (input : BlackboardInput) (now : Instant) : Result Unit :=
  if worker.role = .supervisor then .ok ()
  else
    match input.workItemId, input.leaseId with
    | some workItemId, some leaseId => do
      let item ← requireWorkItem mission workItemId
      let _ ← requireLease item worker.id leaseId mission.epoch now
      .ok ()
    | _, _ =>
      fail .teamBlackboardLeaseRequired
        "Non-supervisor blackboard writes require an active work lease."

def putBlackboardIn (env : TeamEnv) (input : BlackboardInput) (r : Readings)
    (mission : TeamMission) : Result TeamMission := do
  let mission ← reapExpired (r.now 0) r.stamp mission
  let worker ← requireWorker mission input.workerId
  blackboardAdmits mission worker input (r.now 1)
  let key ← boundedKey input.key "blackboard key"
  rejectIf (env.valueFits input.value = false)
    .teamInputInvalid "blackboard value exceeds the bounded JSON size."
  match mission.blackboard.find? fun entry => entry.key == key with
  | some existing =>
    rejectIf (input.expectedRevision ≠ some (existing.revision : Int))
      .teamBlackboardConflict
      "Blackboard entry revision changed; refresh before updating."
    .ok
      { mission with
        blackboard := Lib.updateFirst (fun entry => entry.key == key)
          (fun entry =>
            { entry with
              revision := entry.revision + 1, value := input.value
              workerId := worker.id })
          mission.blackboard }
  | none =>
    rejectIf (input.expectedRevision ≠ none ∧ input.expectedRevision ≠ some 0)
      .teamBlackboardConflict
      "New blackboard entry requires expectedRevision=0 or omission."
    rejectIf (maxBlackboardEntries ≤ mission.blackboard.length)
      .teamBlackboardLimit "Mission blackboard entry limit reached."
    let entry : TeamBlackboardEntry :=
      { key, revision := 1, value := input.value, workerId := worker.id }
    .ok
      { mission with
        blackboard := (mission.blackboard ++ [entry]).insertionSort
          fun a b => env.localeCompare a.key b.key ≤ 0 }

-- ===== actions

structure AuthorizeInput where
  workerId : String
  workItemId : String
  leaseId : String
  capability : String
  risk : ActionRisk
  resourceKeys : List String := []

/-- Every requested resource is assigned to the item and safely owned. -/
def ownsRequested (mission : TeamMission) (item : TeamWorkItem)
    (lease : TeamLease) : List String → Result Unit
  | [] => .ok ()
  | key :: keys => do
    match item.resources.reverse.find? fun assigned =>
        (canonicalResourceKeys [assigned]).head? == some key with
    | none =>
      fail .teamResourceDenied
        s!"Resource {key} is not assigned to this work item."
    | some assigned => do
      let resource ← requireResource mission assigned
      rejectIf (resource.uncertain = true ∨ resource.lock.map TeamLock.leaseId ≠ some lease.id)
        .teamArtifactConflict
        s!"Resource {key} is not safely owned by this lease."
    ownsRequested mission item lease keys

/-- The mutator of `authorizeExecution`. A mission that may not go on is
written as the check left it. -/
def authorizeExecutionIn (env : TeamEnv) (input : AuthorizeInput)
    (r : Readings) (mission : TeamMission) :
    Result TeamMission := do
  let mission ← reapExpired (r.now 0) r.stamp mission
  let (runnable, mission) ← ensureMissionRunnable (r.now 1) mission
  if runnable = false then .ok mission
  else do
    let worker ← requireWorker mission input.workerId
    let item ← requireWorkItem mission input.workItemId
    let lease ←
      requireLease item worker.id input.leaseId mission.epoch (r.now 2)
    let capability ← boundedText input.capability 256 "capability"
    rejectIf (capability ∉ item.allowedCapabilities ∨ capability ∉ worker.capabilities)
      .teamCapabilityDenied
      s!"Capability {capability} is not authorized for this worker/work item."
    let declared := item.risk.text
    let asked := input.risk.text
    rejectIf (input.risk ≠ .read ∧ input.risk ≠ item.risk)
      .teamRiskDenied
      s!"Work item declared risk {declared} and cannot execute {asked} action."
    let given ← uniqueStrings input.resourceKeys maxMissionResources 1024
      "execution resourceKeys"
    let normalized ← given.mapM (normalizeResourceKey env)
    let requested := canonicalResourceKeys normalized
    ownsRequested mission item lease requested
    rejectIf (input.risk ≠ .read ∧ item.resources ≠ [] ∧ requested = [])
      .teamResourceRequired
      "Mutating team actions with declared resources must bind at least one resource key."
    let expiresAt ← (r.now 4).later mission.budget.leaseMs
    let mission := mission.extendLease item.key (r.now 3) expiresAt
    let mission := mission.touchWorker worker (r.now 3)
    mission.forResources (TeamResource.extend lease.id expiresAt) item.resources

structure ActionInput where
  workerId : String
  workItemId : String
  leaseId : String
  action : ActionRequest

/-- `actionDigest`: the whole request is hashed. -/
def actionDigest (env : TeamEnv) (action : ActionRequest) : Hex64 :=
  env.sha256.digest (.obj ([("id", .str action.id), ("capability", .str action.capability),
      ("risk", .str action.risk.text), ("input", .obj action.input),
      ("provenance", .obj action.provenance)]
      ++ optionalField "target" (action.target.map Json.str)
      ++ optionalField "intent" (action.intent.map IntentBinding.json)))

def TeamMission.modifyReceipt (mission : TeamMission) (actionId : String)
    (f : TeamActionReceipt → TeamActionReceipt) : TeamMission :=
  { mission with
    actionReceipts := Lib.updateFirst
      (fun receipt => receipt.actionId == actionId) f mission.actionReceipts }

def beginActionExecutionIn (env : TeamEnv) (input : ActionInput)
    (r : Readings) (mission : TeamMission) :
    Result TeamMission := do
  let digest := actionDigest env input.action
  rejectIf (input.action.intent ≠ mission.intent)
    .teamIntentMismatch
    "Team action intent binding does not match the durable mission intent."
  let item ← requireWorkItem mission input.workItemId
  let _ ←
    requireLease item input.workerId input.leaseId mission.epoch (r.now 0)
  match mission.actionReceipts.find? fun receipt =>
      receipt.actionId == input.action.id with
  | some same =>
    rejectIf (same.missionId ≠ mission.id.val ∨ same.workItemId ≠ item.id
        ∨ same.workerId ≠ input.workerId ∨ same.leaseId ≠ input.leaseId
        ∨ same.actionDigest ≠ digest
        ∨ same.capability ≠ input.action.capability
        ∨ same.risk ≠ input.action.risk)
      .teamActionReceiptConflict
      "Action id is already bound to a different team execution identity or payload."
    if same.state = .dispatching ∧ env.hasActionJournal = false then
      .ok (mission.modifyReceipt input.action.id fun receipt =>
        { receipt with state := .uncertain, updatedAt := r.now 1 })
    else .ok mission
  | none =>
    rejectIf (maxActionReceipts ≤ mission.actionReceipts.length)
      .teamActionReceiptLimit "Team action receipt limit reached."
    .ok
      { mission with
        actionReceipts := mission.actionReceipts
          ++ [{ missionId := mission.id.val, workItemId := item.id
                workerId := input.workerId, leaseId := input.leaseId
                actionId := input.action.id, actionDigest := digest
                capability := input.action.capability
                risk := input.action.risk, state := .dispatching
                createdAt := r.now 1, updatedAt := r.now 1 }] }

/-- `completeActionExecution`, with the check before its mutator. -/
def completeActionExecutionIn (env : TeamEnv) (input : ActionInput)
    (result : ActionResult) (r : Readings) (mission : TeamMission) :
    Result TeamMission := do
  let verificationDigest := kernelVerificationDigest result
  rejectIf (result.ok = true ∧ env.requireKernelVerification = true ∧ verificationDigest = none)
    .teamKernelVerificationRequired
    "Successful team actions must carry an Agent Kernel verification proof."
  match mission.actionReceipts.find? fun receipt =>
      receipt.actionId == input.action.id with
  | none =>
    fail .teamActionReceiptConflict
      "Team action completion does not match its durable dispatch receipt."
  | some receipt =>
    rejectIf (receipt.workItemId ≠ input.workItemId ∨ receipt.workerId ≠ input.workerId
        ∨ receipt.leaseId ≠ input.leaseId
        ∨ receipt.actionDigest ≠ actionDigest env input.action)
      .teamActionReceiptConflict
      "Team action completion does not match its durable dispatch receipt."
    rejectIf (receipt.state = .uncertain ∧ env.hasActionJournal = false)
      .teamActionReconciliationRequired
      "Uncertain team action cannot be completed without reconciliation."
    if receipt.state = .completed then .ok mission
    else
      let uncertain :=
        !result.ok && result.sideEffectState? == some .uncertain
      .ok (mission.modifyReceipt input.action.id fun receipt =>
        { receipt with
          result := some result, updatedAt := r.now 0
          state := if uncertain then .uncertain else .completed
          verificationDigest :=
            if uncertain || verificationDigest.isNone then
              receipt.verificationDigest
            else verificationDigest })

/-- The mutator of `recordActionAuditFailure`, with the degraded result. -/
def recordActionAuditFailureIn (actionId : String) (degraded : ActionResult)
    (r : Readings) (mission : TeamMission) :
    Result TeamMission := do
  let found (receipt : TeamActionReceipt) : Bool :=
    receipt.actionId == actionId && receipt.state == .completed
  rejectIf ((mission.actionReceipts.any found) = false)
    .teamActionReceiptNotFound
    "Completed team action receipt was not found for audit degradation."
  .ok
    { mission with
      actionReceipts := Lib.updateFirst found
        (fun receipt =>
          { receipt with result := some degraded, updatedAt := r.now 0 })
        mission.actionReceipts }

-- ===== complete

/-- What `executeCanonicalVerification` answers. -/
structure CanonicalVerification where
  request : Json
  checks : List VerificationCheck

structure CompleteInput where
  workerId : String
  workItemId : String
  leaseId : String
  summary : String
  evidence : List TeamEvidence := []
  verificationPassed : Bool := false
  worldObservationDigest : Option String := none

/-- The resources of a lease are as it found them. -/
def artifactsIntact (mission : TeamMission) (lease : TeamLease) :
    List (String × Nat) → Result Unit
  | [] => .ok ()
  | (key, baseRevision) :: rest => do
    let resource ← requireResource mission key
    rejectIf (resource.uncertain = true ∨ resource.lock.map TeamLock.leaseId ≠ some lease.id
        ∨ resource.revision ≠ baseRevision)
      .teamArtifactConflict
      s!"Resource {key} changed or lost lock ownership during work."
    artifactsIntact mission lease rest

def teamVerificationStateDigest (env : TeamEnv) (mission : TeamMission)
    (verifierWorkItemId : String) : Hex64 :=
  env.hashState
    { missionId := mission.id.val, epoch := mission.epoch, state := mission.state
      intent := mission.intent, verifierWorkItemId
      workItems := mission.workItems, resources := mission.resources
      actionReceipts := mission.actionReceipts }

/-- What `complete` learns before its mutator, when kernel verification is
required: the digest of the state and the canonical verification. -/
def verifyBefore (env : TeamEnv) (input : CompleteInput) (before : TeamMission) (r : Readings)
    (answer : Result CanonicalVerification) :
    Result (Option (Hex64 × CanonicalVerification)) :=
  if env.requireKernelVerification = false then .ok none
  else do
    let before ← reapExpired (r.now 0) r.stamp before
    let worker ← requireWorker before input.workerId
    let item ← requireWorkItem before input.workItemId
    let lease ←
      requireLease item worker.id input.leaseId before.epoch (r.now 1)
    artifactsIntact before lease lease.baseResourceRevisions
    if item.role ≠ .verifier then .ok none
    else do
      rejectIf (env.hasAgentKernel = false)
        .teamCanonicalVerificationUnavailable
        "Production Team verification requires the Agent Kernel and permission profile."
      let canonical ← answer
      .ok (some (teamVerificationStateDigest env before item.id, canonical))

/-- The items a verifier covers. -/
def coveredBy (mission : TeamMission) (item : TeamWorkItem) : List TeamWorkItem :=
  mission.workItems.filter fun candidate => candidate.id ≠ item.id
    && transitivelyDependsOn item.key candidate.key mission.workItems

def completedActions (mission : TeamMission) (covered : List TeamWorkItem) :
    List TeamActionReceipt :=
  mission.actionReceipts.filter fun receipt =>
    (covered.any fun candidate => candidate.id == receipt.workItemId)
      && receipt.state == .completed && receipt.result.any ActionResult.ok

def verifierChecks (env : TeamEnv) (mission : TeamMission)
    (item : TeamWorkItem) (canonical : Option CanonicalVerification) :
    List VerificationCheck :=
  let covered := coveredBy mission item
  let actions := completedActions mission covered
  let check (name : String) (ok : Bool) (detail : String) :
      VerificationCheck := { name, ok, detail, evidenceDigests := [] }
  let legacy := !env.requireKernelVerification
  let actionBacked := covered.all fun candidate =>
    candidate.allowedCapabilities.isEmpty
      || actions.any fun action => action.workItemId == candidate.id
  let actionEvidence := actions.all fun action =>
    action.result.any fun result =>
      result.evidence.any fun entry => entry.status == .pass
  let verifierEvidence := canonical.any fun canonical =>
    !canonical.checks.isEmpty && canonical.checks.all fun check =>
      check.ok && 3 ≤ check.evidenceDigests.length
  let proofs := actions.all fun action => action.verificationDigest.isSome
  let certain := !mission.anyUncertain
  let completed := covered.all fun candidate => candidate.state == .completed
  [check "covered-work-completed" completed (if completed then
        "Every work item covered by this verifier is durably completed."
      else "Verifier coverage contains incomplete work."),
    check "covered-work-action-backed" (legacy || actionBacked)
      (if legacy then
        "Legacy coordinator mode permits caller-supplied completion evidence; production mode requires action-backed work."
      else if actionBacked then
        "Every covered work item that declares executable capabilities has a durable successful action receipt."
      else
        "One or more executable covered work items has no successful durable action receipt."),
    check "covered-action-evidence" (legacy || actionEvidence)
      (if legacy then
        "Legacy coordinator mode permits caller-supplied completion evidence."
      else if actionEvidence then
        "Every successful covered action has passing provider evidence."
      else
        "One or more successful covered actions lacks passing provider evidence."),
    check "verifier-observation-evidence" (legacy || verifierEvidence)
      (if legacy then
        "Legacy coordinator mode permits direct verifier completion for isolated scheduling tests."
      else if verifierEvidence then
        "The verifier has durable passing evidence from its own fresh read-only observation action."
      else "The verifier has no durable passing read-only observation action."),
    check "kernel-action-proofs" (legacy || proofs)
      (if legacy then
        "Legacy team mode does not require Agent Kernel action proofs."
      else if proofs then
        "Every successful covered action is bound to an Agent Kernel verification digest; fresh verifier probes carry their own kernel proofs."
      else
        "One or more successful covered/verifier actions lacks an Agent Kernel verification digest."),
    check "resources-certain" certain
      (if certain then
        "No mission resource has unresolved uncertain side effects."
      else "Mission still contains an uncertain resource.")]
    ++ (canonical.map CanonicalVerification.checks).getD []

def verifierContract (mission : TeamMission) (item : TeamWorkItem)
    (canonical : Option CanonicalVerification) : Json :=
  let covered := coveredBy mission item
  .obj
    [("version", .num "1"), ("missionId", .str mission.id.val),
      ("verifierWorkItemId", .str item.id),
      ("coveredWorkItems", .arr (covered.map fun candidate => .obj
        [("id", .str candidate.id), ("key", .str candidate.key),
          ("state", .str (match candidate.state with
            | .pending => "PENDING"
            | .leased => "LEASED"
            | .completed => "COMPLETED"
            | .failed => "FAILED"
            | .blocked => "BLOCKED"
            | .needsReconciliation => "NEEDS_RECONCILIATION"
            | .cancelled => "CANCELLED")),
          ("risk", .str candidate.risk.text),
          ("attempts", .num (toString candidate.attempts))])),
      ("completedActionDigests", .arr (((completedActions mission covered).map fun action =>
          action.actionDigest.val).insertionSort
            (fun a b => Json.keyLe a b) |>.map Json.str)),
      ("verificationRequest", (canonical.map CanonicalVerification.request).getD .null)]

/-- The digest of a verifier's completion; it throws where the checks do
not pass. -/
def verifierDigest (env : TeamEnv) (mission : TeamMission)
    (item : TeamWorkItem) (input : CompleteInput)
    (verified : Option (Hex64 × CanonicalVerification)) :
    Result Hex64 := do
  rejectIf (env.requireKernelVerification = false ∧ input.verificationPassed = false)
    .teamVerificationRequired
    "Verifier work can complete only with verificationPassed=true."
  rejectIf (env.requireKernelVerification = true ∧ verified.map Prod.fst
        ≠ some (teamVerificationStateDigest env mission item.id))
    .teamVerificationStateChanged
    "Team mission state changed while canonical verification was running; verify the current state again."
  let canonical := verified.map Prod.snd
  let checks := verifierChecks env mission item canonical
  rejectIf (10000 < checks.length ∨ ¬ (checks.map VerificationCheck.name).Nodup)
    .verificationInputInvalid "Duplicate verification check."
  let receipt ← verify env.sha256 "team-verifier"
    (mission.id.val ++ ":" ++ item.id) (verifierContract mission item canonical)
    (checks.insertionSort fun a b => env.localeCompare a.name b.name ≤ 0)
  rejectIf (receipt.verified = false)
    .teamVerificationRequired
    "Canonical Team verification rejected the verifier completion."
  .ok receipt.digest

/-- Only a verifier's completion has a digest. -/
def completionDigest (env : TeamEnv) (mission : TeamMission)
    (item : TeamWorkItem) (input : CompleteInput)
    (verified : Option (Hex64 × CanonicalVerification)) :
    Result (Option Hex64) :=
  if item.role = .verifier then
    (verifierDigest env mission item input verified).map some
  else .ok none

def TeamResource.settle (risk : ActionRisk) (now : Instant)
    (resource : TeamResource) : TeamResource :=
  { resource with
    revision := if risk = .read then resource.revision else resource.revision + 1
    lock := none, updatedAt := now }

def worldObservation (env : TeamEnv) (item : TeamWorkItem)
    (input : CompleteInput) : Result (Option Hex64) :=
  match input.worldObservationDigest with
  | none => .ok none
  | some value => do
    rejectIf (item.role ≠ .verifier ∨ (env.requireKernelVerification = false
          ∧ input.verificationPassed = false))
      .teamWorldObservationDenied
      "Only a passing verifier may commit world observations."
    match hex64? value with
    | none =>
      fail .teamInputInvalid "worldObservationDigest must be SHA-256."
    | some digest => .ok (some digest)

def completeIn (env : TeamEnv) (input : CompleteInput)
    (verified : Option (Hex64 × CanonicalVerification)) (r : Readings)
    (mission : TeamMission) : Result TeamMission := do
  let mission ← reapExpired (r.now 0) r.stamp mission
  let worker ← requireWorker mission input.workerId
  let item ← requireWorkItem mission input.workItemId
  let lease ← requireLease item worker.id input.leaseId mission.epoch (r.now 1)
  artifactsIntact mission lease lease.baseResourceRevisions
  let digest ← completionDigest env mission item input verified
  let worldObservationDigest ← worldObservation env item input
  let summary ← boundedText input.summary (64 * 1024) "completion summary"
  let evidence ← validateEvidence input.evidence
  let result : TeamWorkResult :=
    { summary, evidence, verificationPassed := item.role == .verifier
      verificationDigest := digest, worldObservationDigest
      completedAt := r.now 2, workerId := worker.id }
  let mission := mission.modifyItem item.key fun item =>
    { item with result := some result, state := .completed, lease := none }
  let mission ←
    mission.forResources (TeamResource.settle item.risk (r.now 2)) item.resources
  .ok (finalizeIfVerified (mission.touchWorker worker (r.now 2)))

-- ===== fail, reconcile

structure FailInput where
  workerId : String
  workItemId : String
  leaseId : String
  code : String
  message : String
  sideEffectState : SideEffectState
  retryable : Bool := false

def TeamResource.afterFailure (lease : TeamLease) (risk : ActionRisk)
    (state : SideEffectState) (now : Instant) (resource : TeamResource) :
    TeamResource :=
  { resource with
    lock := if resource.lock.any (fun lock => lock.leaseId = lease.id) then none
      else resource.lock
    uncertain := resource.uncertain || state == .uncertain
    revision := if state = .known ∧ risk ≠ .read then resource.revision + 1
      else resource.revision
    updatedAt := now }

def failIn (input : FailInput) (r : Readings) (mission : TeamMission) :
    Result TeamMission := do
  let mission ← reapExpired (r.now 0) r.stamp mission
  let worker ← requireWorker mission input.workerId
  let item ← requireWorkItem mission input.workItemId
  let lease ← requireLease item worker.id input.leaseId mission.epoch (r.now 1)
  let code ← boundedKey input.code "failure code"
  let message ← boundedText input.message (64 * 1024) "failure message"
  let uncertain := input.sideEffectState == .uncertain
  let mission ← mission.forResources
    (TeamResource.afterFailure lease item.risk input.sideEffectState (r.now 2))
    item.resources
  let safeRetry := input.retryable && input.sideEffectState == .none
    && item.attempts < mission.budget.maxAttemptsPerWorkItem
  let mission := mission.modifyItem item.key fun item =>
    { item with
      lease := none, failure := some { code, message, at' := r.now 2 }
      state := if uncertain then .needsReconciliation
        else if safeRetry then .pending else .failed }
  .ok
    { mission with
      state := if uncertain then .blocked
        else if safeRetry then mission.state else .failed }

inductive Resolution
  | completed
  | retry
  | failed
deriving DecidableEq

structure ReconcileInput where
  workerId : String
  workItemId : String
  resolution : Resolution
  summary : String
  evidence : List TeamEvidence := []

/-- A resource whose uncertainty a reconciliation ends. -/
def TeamResource.reconcile (now : Instant) (resource : TeamResource) : TeamResource :=
  { resource with
    uncertain := false, revision := resource.revision + 1, lock := none
    updatedAt := now }

/-- Without kernel verification a reconciliation settles the resources. -/
def reconcileResources (env : TeamEnv) (now : Instant) (keys : List String)
    (mission : TeamMission) : Result TeamMission :=
  if env.requireKernelVerification then .ok mission
  else mission.forResources (TeamResource.reconcile now) keys

/-- What the resolution makes of the item, and whether the mission fails. -/
def resolveItem (mission : TeamMission) (worker : TeamWorker)
    (item : TeamWorkItem) (input : ReconcileInput)
    (evidence : List TeamEvidence) (now : Instant) :
    Result TeamMission :=
  match input.resolution with
  | .completed => do
    let summary ←
      boundedText input.summary (64 * 1024) "reconciliation summary"
    .ok (mission.modifyItem item.key fun item =>
      { item with
        state := .completed
        result := some
          { summary, evidence, completedAt := now, workerId := worker.id } })
  | .retry => do
    rejectIf (mission.budget.maxAttemptsPerWorkItem ≤ item.attempts)
      .teamAttemptBudgetExhausted
      "Cannot retry after attempt budget is exhausted."
    .ok (mission.modifyItem item.key fun item =>
      { item with state := .pending, failure := none })
  | .failed => do
    let message ←
      boundedText input.summary (64 * 1024) "reconciliation summary"
    .ok
      { mission.modifyItem item.key fun item =>
          { item with
            state := .failed
            failure := some
              { code := "TEAM_RECONCILIATION_FAILED", message, at' := now } } with
        state := .failed }

def reconcileIn (env : TeamEnv) (input : ReconcileInput) (r : Readings)
    (mission : TeamMission) : Result TeamMission := do
  let worker ← requireWorker mission input.workerId
  rejectIf (worker.role ≠ .supervisor ∧ worker.role ≠ .verifier)
    .teamReconciliationDenied
    "Only supervisor/verifier workers may reconcile uncertain work."
  let item ← requireWorkItem mission input.workItemId
  rejectIf (item.state ≠ .needsReconciliation)
    .teamReconciliationInvalid "Work item is not awaiting reconciliation."
  rejectIf (env.requireKernelVerification = true ∧ input.resolution ≠ .failed)
    .teamCanonicalReconciliationRequired
    "Uncertain Team work can resume only after exact Agent Kernel/provider reconciliation; caller summaries cannot establish completed or not-applied state."
  let evidence ← validateEvidence input.evidence
  let mission ← reconcileResources env (r.now 0) item.resources mission
  let mission ← resolveItem mission worker item input evidence (r.now 0)
  .ok (finalizeIfVerified
    { mission with
      state := if mission.state = .blocked ∧ mission.anyUncertain = false then
          .running
        else mission.state })

def revokeWorkerIn (workerId : String) (r : Readings) (mission : TeamMission) :
    Result TeamMission := do
  let worker ← requireWorker mission workerId
  let mission := mission.modifyWorker worker.id fun worker =>
    { worker with state := .revoked, heartbeatAt := r.now 0 }
  expireLeases r.stamp mission (mission.workItems.filter fun item =>
    item.lease.any fun lease => lease.workerId == worker.id)

-- ===== operations

/-- The operations on a mission, with what they are told from outside. -/
inductive TeamOp
  | start (intent : IntentAnswer)
  | pause
  | resume (intent : IntentAnswer)
  | cancel
  | registerWorker (input : RegisterInput)
  | heartbeat (workerId : String) (leaseId : Option String)
  | claim (workerId leaseId : String) (intent : IntentAnswer)
  | putBlackboard (input : BlackboardInput)
  | authorizeExecution (input : AuthorizeInput) (intent : IntentAnswer)
  | beginActionExecution (input : ActionInput)
  | completeActionExecution (input : ActionInput) (result : ActionResult)
  | recordActionAuditFailure (actionId : String) (degraded : ActionResult)
  | complete (input : CompleteInput) (before : TeamMission)
      (earlier : Readings) (answer : Result CanonicalVerification)
  | fail (input : FailInput)
  | reconcile (input : ReconcileInput)
  | revokeWorker (workerId : String)

/-- The checks before the mutator, and the mutator. -/
def TeamOp.mutate (env : TeamEnv) (r : Readings) (mission : TeamMission) :
    TeamOp → Result TeamMission
  | .start intent => do
    assertForwardIntent mission intent
    startIn r mission
  | .pause => pauseIn r mission
  | .resume intent => do
    assertForwardIntent mission intent
    resumeIn r mission
  | .cancel => cancelIn r mission
  | .registerWorker input => registerWorkerIn input r mission
  | .heartbeat workerId leaseId => heartbeatIn workerId leaseId r mission
  | .claim workerId leaseId intent => do
    assertForwardIntent mission intent
    claimIn env workerId leaseId r mission
  | .putBlackboard input => putBlackboardIn env input r mission
  | .authorizeExecution input intent => do
    assertForwardIntent mission intent
    authorizeExecutionIn env input r mission
  | .beginActionExecution input => beginActionExecutionIn env input r mission
  | .completeActionExecution input result =>
    completeActionExecutionIn env input result r mission
  | .recordActionAuditFailure actionId degraded =>
    recordActionAuditFailureIn actionId degraded r mission
  | .complete input before earlier answer => do
    let verified ← verifyBefore env input before earlier answer
    completeIn env input verified r mission
  | .fail input => failIn input r mission
  | .reconcile input => reconcileIn env input r mission
  | .revokeWorker workerId => revokeWorkerIn workerId r mission

def TeamOp.run (env : TeamEnv) (op : TeamOp) (r : Readings)
    (mission : TeamMission) : Result TeamMission :=
  update env (fun mission => op.mutate env r mission) mission

def TeamOp.leaseId? : TeamOp → Option String
  | .claim _ leaseId _ => some leaseId
  | _ => none

/-- The mission file and the lease ids drawn so far. -/
structure TeamWorld where
  mission : TeamMission
  drawn : List String

structure TeamAct where
  op : TeamOp
  readings : Readings

/-- One operation; one that throws leaves the file as it is.
`randomUUID` does not repeat itself. -/
def TeamWorld.step (env : TeamEnv) (w : TeamWorld) (act : TeamAct) : Option TeamWorld :=
  if act.op.leaseId?.any (fun id => w.drawn.contains id) then none
  else
    some
      { mission := match act.op.run env act.readings w.mission with
          | .ok mission => mission
          | .error _ => w.mission
        drawn := act.op.leaseId?.toList ++ w.drawn }

end OperatorRuntime.Team
