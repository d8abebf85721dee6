/-
`DesiredStateController` of `core/desired-state.ts`. An operation reads the
state, works on it, and writes it; `reconcile` also writes before it hands
a remediation to the operations layer, and `pause` before it asks for a
cancellation. One lease is held throughout, so operations follow one
another; a process that dies leaves the writes it made.

What the world model, the operations layer, the clock and the random ids
answer is given for each call (`Env`). A throw of the operations layer or
of the world model is no answer. A write that fails, or whose
`beforePersist` throws, ends the call as a crash before it does.

Each write says what it makes durable for the first time, as events; the
log of them is what the laws of the controller are about.
-/
import OperatorRuntime.Desired.Contract
import OperatorRuntime.Lib.Runs
import OperatorRuntime.Lib.Script
import OperatorRuntime.StateFile

namespace OperatorRuntime.Desired

open Lib

-- ===== answers

inductive DigitalOperationState
  | pending
  | running
  | blocked
  | verified
  | failed
  | cancelled
deriving DecidableEq

structure DigitalOperation where
  id : String
  scopeKey : String
  objective : String
  successConditions : List String
  postconditions : List WorldCondition
  state : DigitalOperationState
  lastBlockReason : Option String

/-- The input of `operations.submit`. -/
structure SubmitRequest where
  requestId : Uuid
  objective : String
  scopeKey : String
  successConditions : List String
  postconditions : List WorldCondition
  authority : DesiredStateAuthority

inductive FactAnswer
  | throws
  | unresolved (status : String)
  | resolved (valueDigest : Hex64)

structure Env where
  now : Instant
  randomUUID : Uuid
  resolveFact : String → String → FactAnswer
  inspect : Uuid → Option DigitalOperation
  refresh : Uuid → Option DigitalOperation
  cancel : Uuid → Option DigitalOperation
  submit : SubmitRequest → Option DigitalOperation

-- ===== events

inductive Event
  | created (id : Uuid) (policy : DesiredStatePolicy)
  | paused (id : Uuid)
  | resumed (id : Uuid)
  /-- `byReconcile`: by a `reconcile` of a contract that is not paused. -/
  | closed (id : Uuid) (outcome : RemediationOutcome) (byReconcile : Bool)
  /-- The desired state was found to hold. -/
  | healthy (id : Uuid)
  | reserved (id : Uuid) (contractDigest : Hex64) (operationId : Uuid) (startedAt : Instant)
  | submitted (id : Uuid) (request : SubmitRequest)

def Event.contract : Event → Uuid
  | .created id _ | .paused id | .resumed id | .closed id _ _ | .healthy id
  | .reserved id _ _ _ | .submitted id _ => id

/-- The file, every state written to it, the events so far, the newest
first, and the last reading of the clock. -/
structure World where
  file : DesiredStateFile
  written : List DesiredStateFile
  log : List Event
  clock : Int

abbrev Op (α : Type) := Script World OperatorError α

-- ===== helpers

/-- What a contract is changed to, and the events of the change. -/
structure Change where
  contract : DesiredStateContract
  events : List Event

/-- Writes to the contract of an id. -/
def DesiredStateFile.put (state : DesiredStateFile) (contract : DesiredStateContract) :
    DesiredStateFile :=
  { contracts := updateFirst (fun item => item.id == contract.id) (fun _ => contract)
      state.contracts }

def requireContract (state : DesiredStateFile) (idInput : String) :
    Result DesiredStateContract := do
  let id ← uuid idInput "contractId"
  match state.contracts.find? fun item => item.id == id with
  | some contract => .ok contract
  | none => fail .desiredStateNotFound "Desired-state contract was not found."

/-- `#checkDesired(conditions)`: `none` where every condition holds, else
the reason. -/
def checkDesired (env : Env) : List WorldCondition → Result (Option String)
  | [] => .ok none
  | condition :: conditions =>
    let fact := condition.entityKey ++ "." ++ condition.factKey
    match env.resolveFact condition.entityKey condition.factKey with
    | .throws => fail .rangeError "resolveFact"
    | .unresolved status => .ok (some s!"{fact} is {status}.")
    | .resolved valueDigest =>
      if valueDigest.val ≠ condition.expectedValueDigest then
        .ok (some s!"{fact} differs from the desired verified value.")
      else checkDesired env conditions

def DigitalOperation.isTerminal (operation : DigitalOperation) : Bool :=
  operation.state == .verified || operation.state == .failed || operation.state == .cancelled

/-- `[entityKey, factKey, expectedValueDigest].join('\0')`. -/
def WorldCondition.joined (value : WorldCondition) : String :=
  value.entityKey ++ "\x00" ++ value.factKey ++ "\x00" ++ value.expectedValueDigest

/-- `remediationMatchesContract(operation, contract)`: two lists of one
length are equal when sorted if they are permutations of one another. -/
def remediationMatchesContract (operation : DigitalOperation)
    (contract : DesiredStateContract) : Bool :=
  operation.scopeKey == contract.scopeKey && operation.objective == contract.remediation.objective
    && (operation.postconditions.map (·.joined)).isPerm (contract.desired.map (·.joined))
    && operation.successConditions.isPerm contract.remediation.successConditions

def DigitalOperation.outcome (operation : DigitalOperation) : RemediationOutcome :=
  match operation.state with
  | .verified => .verified
  | .cancelled => .cancelled
  | _ => .failed

/-- `#closeHistory(contract, operation, now)`, followed by
`delete contract.activeOperationId`. -/
def closeHistory (contract : DesiredStateContract) (operation : DigitalOperation)
    (now : Instant) : Result DesiredStateContract := do
  let matching := fun entry : RemediationEntry =>
    entry.operationId.val == operation.id && entry.unfinished
  rejectIf (¬ ∃ entry ∈ contract.remediationHistory, matching entry = true)
    .desiredStateCorrupt "Active remediation has no matching history record."
  .ok { contract with
    activeOperationId := none
    remediationHistory := (updateFirst matching (fun entry =>
      { entry with finishedAt := some now, outcome := some operation.outcome })
        contract.remediationHistory.reverse).reverse }

/-- `#persist(state)`, with the events it makes durable. -/
def persist (platform : Platform) (state : DesiredStateFile) (events : List Event) : Op Unit :=
  do
    Script.lift (validateState platform state)
    Script.write fun w =>
      { w with file := state, written := state :: w.written, log := events.reverse ++ w.log }

/-- `#read()`. -/
def readState (platform : Platform) : Op DesiredStateFile := do
  let w ← Script.read
  Script.lift (validateState platform w.file)
  pure w.file

/-- `#mutate(fn)` of an operation on one contract. -/
def mutate (platform : Platform) (fn : DesiredStateFile → Op Change) : Op DesiredStateContract := do
  let state ← readState platform
  let change ← fn state
  persist platform (state.put change.contract) change.events
  pure change.contract

-- ===== creation

/-- The contract `create` makes. -/
def newContract (platform : Platform) (id : Uuid) (terms : ContractTerms) (now : Instant) :
    DesiredStateContract :=
  { terms with
    id, status := .drifted, contractDigest := contractDigest platform terms
    activeOperationId := none, lastReason := none, consecutiveFailures := 0
    remediationHistory := [], createdAt := now, updatedAt := now }

/-- The contract that gives way to a new one. -/
def reclaimable (contract : DesiredStateContract) : Bool :=
  contract.status == .paused && contract.activeOperationId.isNone

/-- The contracts that stay when one is to be added. -/
def reclaim (contracts : List DesiredStateContract) :
    Result (List DesiredStateContract) :=
  if maxContracts ≤ contracts.length then
    match contracts.findIdx? reclaimable with
    | none => fail .desiredStateLimit "Desired-state contract retention limit reached."
    | some index => .ok (contracts.eraseIdx index)
  else .ok contracts

def create (platform : Platform) (env : Env) (input : CreateInput) : Op DesiredStateContract := do
  let (contractId, terms) ← Script.lift (normalizeCreate input)
  let state ← readState platform
  let id := contractId.getD env.randomUUID
  match state.contracts.find? fun item => item.id == id with
  | some existing =>
    Script.lift (rejectIf (existing.contractDigest ≠ contractDigest platform terms)
      .desiredStateConflict "contractId is already bound to a different desired-state contract.")
    persist platform state []
    pure existing
  | none =>
    let contracts ← Script.lift (reclaim state.contracts)
    let contract := newContract platform id terms env.now
    let reason ← Script.lift (checkDesired env contract.desired)
    let contract := match reason with
      | none => { contract with status := .healthy }
      | some reason => { contract with lastReason := some reason }
    persist platform { contracts := contracts ++ [contract] }
      (.created id terms.policy :: if reason.isNone then [.healthy id] else [])
    pure contract

-- ===== reconcile

def reconcilePaused (env : Env) (contract : DesiredStateContract) : Result Change :=
  match contract.activeOperationId with
  | none => .ok { contract, events := [] }
  | some active =>
    match (env.inspect active).filter fun observed =>
        observed.id == active.val && remediationMatchesContract observed contract
          && observed.isTerminal with
    | none =>
      .ok
        { contract := { contract with
            lastReason :=
              some "Paused; the exact remediation outcome remains unresolved and cannot be resumed."
            updatedAt := env.now }
          events := [] }
    | some observed => do
      let contract ← closeHistory contract observed env.now
      .ok
        { contract := { contract with
            lastReason := some ("Paused; exact remediation terminal outcome reconciled."
              ++ " Explicit resume is required.")
            updatedAt := env.now }
          events := [.closed contract.id observed.outcome false] }

/-- A change with which `reconcile` returns, or one it goes on with. -/
inductive Progress
  | done (change : Change)
  | more (change : Change)

def reconcileActive (env : Env) (contract : DesiredStateContract) : Result Progress :=
  match contract.activeOperationId with
  | none => .ok (.more { contract, events := [] })
  | some active =>
    match (env.refresh active).filter fun operation =>
        operation.id == active.val && remediationMatchesContract operation contract with
    | none =>
      .ok (.done
        { contract := { contract with
            status := .blocked
            lastReason := some ("Remediation handoff is unresolved; operator reconciliation"
              ++ " is required before another dispatch.")
            updatedAt := env.now }
          events := [] })
    | some operation =>
      if operation.isTerminal = false then
        .ok (.done
          { contract := { contract with
              status := if operation.state = .blocked then .blocked else .remediating
              lastReason := if operation.state = .blocked then
                  some (operation.lastBlockReason.getD "Active remediation is blocked.")
                else some "Remediation operation is still running."
              updatedAt := env.now }
            events := [] })
      else do
        let contract ← closeHistory contract operation env.now
        .ok (.more
          { contract := { contract with
              consecutiveFailures := if operation.state = .verified then 0
                else contract.consecutiveFailures + 1 }
            events := [.closed contract.id operation.outcome true] })

def Instant.utcDay (t : Instant) : Int := t.val / 86400000

/-- `date.toISOString().slice(0, 10)`: the day, or the month where the year
has six digits. -/
def isoDay (t : Instant) : String :=
  let (year, month, day) := civilDate (Instant.utcDay t)
  if 0 ≤ year ∧ year ≤ 9999 then s!"{yearText year}-{padded 2 month}-{padded 2 day}"
  else s!"{yearText year}-{padded 2 month}"

def remediationsToday (contract : DesiredStateContract) (now : Instant) : Nat :=
  contract.remediationHistory.countP fun entry => isoDay entry.startedAt == isoDay now

/-- The part of `reconcile` from the check of the desired state to the
reservation: `more` is a contract to remediate. -/
def assess (env : Env) (change : Change) : Result Progress := do
  let contract := change.contract
  match ← checkDesired env contract.desired with
  | none =>
    .ok (.done
      { contract := { contract with
          status := .healthy, consecutiveFailures := 0, lastReason := none
          updatedAt := env.now }
        events := change.events ++ [.healthy contract.id] })
  | some reason =>
    let contract := { contract with
      status := .drifted, lastReason := some reason, updatedAt := env.now }
    let blocked := fun reason : String => Progress.done
      { contract := { contract with status := .blocked, lastReason := some reason }
        events := change.events }
    if contract.policy.autoRemediate = false then
      .ok (.done { contract, events := change.events })
    else if contract.policy.maxConsecutiveFailures ≤ contract.consecutiveFailures then
      .ok (blocked (s!"Automatic remediation is blocked after {contract.consecutiveFailures} "
        ++ s!"consecutive failed operations. {reason}"))
    else if contract.policy.maxRemediationsPerDay ≤ remediationsToday contract env.now then
      .ok (blocked (s!"Daily automatic remediation limit of "
        ++ s!"{contract.policy.maxRemediationsPerDay} reached."))
    else if contract.remediationHistory.getLast?.any fun entry =>
        env.now.val - entry.startedAt.val < contract.policy.minRemediationIntervalMs then
      .ok (.done
        { contract := { contract with
            lastReason :=
              some s!"Drift detected; remediation cooldown is still active. {reason}" }
          events := change.events })
    else .ok (.more { contract, events := change.events })

/-- The write-ahead of a remediation. -/
def reserve (contract : DesiredStateContract) (requestId : Uuid) (now : Instant) :
    DesiredStateContract :=
  let history := contract.remediationHistory
    ++ [{ operationId := requestId, startedAt := now, finishedAt := none, outcome := none }]
  { contract with
    activeOperationId := some requestId, status := .remediating
    lastReason := some "Remediation is reserved; dispatch or recovery is pending."
    remediationHistory := history.drop (history.length - maxHistory) }

def submitRequest (contract : DesiredStateContract) (requestId : Uuid) : SubmitRequest where
  requestId := requestId
  objective := contract.remediation.objective
  scopeKey := contract.scopeKey
  successConditions := contract.remediation.successConditions
  postconditions := contract.desired
  authority := contract.remediation.authority

/-- From the reservation on. -/
def dispatch (platform : Platform) (env : Env) (state : DesiredStateFile) (change : Change) :
    Op Change := do
  let requestId := remediationRequestId platform change.contract
  let contract := reserve change.contract requestId env.now
  persist platform (state.put contract)
    (change.events ++ [.reserved contract.id contract.contractDigest requestId env.now])
  let request := submitRequest contract requestId
  Script.write fun w => { w with log := .submitted contract.id request :: w.log }
  match env.submit request with
  | none => Script.lift (fail .rangeError "submit")
  | some operation =>
    Script.lift (rejectIf (operation.id ≠ requestId.val) .desiredStateOperationIdentityConflict
      "Remediation provider did not honor the durable reserved operation identity.")
    pure
      { contract := { contract with
          lastReason := some "Drift detected; bounded remediation operation started." }
        events := [] }

def reconcileIn (platform : Platform) (env : Env) (idInput : String)
    (state : DesiredStateFile) : Op Change := do
  let contract ← Script.lift (requireContract state idInput)
  if contract.status = .paused then Script.lift (reconcilePaused env contract)
  else
    match ← Script.lift (reconcileActive env contract) with
    | .done change => pure change
    | .more change =>
      match ← Script.lift (assess env change) with
      | .done change => pure change
      | .more change => dispatch platform env state change

def reconcile (platform : Platform) (env : Env) (idInput : String) : Op DesiredStateContract :=
  mutate platform (reconcileIn platform env idInput)

-- ===== pause and resume

def pause (platform : Platform) (env : Env) (idInput : String) (cancelActive : Bool) :
    Op DesiredStateContract :=
  mutate platform fun state => do
    let contract ← Script.lift (requireContract state idInput)
    let contract := { contract with
      status := .paused, lastReason := some "Desired-state reconciliation is paused."
      updatedAt := env.now }
    persist platform (state.put contract) [.paused contract.id]
    match cancelActive, contract.activeOperationId with
    | true, some active =>
      match env.cancel active with
      | none => Script.lift (fail .rangeError "cancel")
      | some operation => do
        Script.lift (rejectIf (operation.id ≠ active.val ∨ operation.isTerminal = false)
          .desiredStateCancellationUnresolved
          "Cancellation outcome must be reconciled before resuming.")
        let contract ← Script.lift (closeHistory contract operation env.now)
        pure { contract, events := [.closed contract.id operation.outcome false] }
    | _, _ => pure { contract, events := [] }

def resume (platform : Platform) (env : Env) (idInput : String) : Op DesiredStateContract :=
  mutate platform fun state => do
    let contract ← Script.lift (requireContract state idInput)
    Script.lift (rejectIf (contract.status ≠ .paused) .desiredStateNotPaused
      "Only paused desired-state contracts can resume.")
    Script.lift (rejectIf (contract.activeOperationId.isSome = true)
      .desiredStateReconciliationRequired
      "An active or uncertain remediation must be reconciled before resume.")
    let reason ← Script.lift (checkDesired env contract.desired)
    pure
      { contract := { contract with
          status := if reason.isNone then .healthy else .drifted, lastReason := reason
          updatedAt := env.now }
        events := .resumed contract.id :: if reason.isNone then [.healthy contract.id] else [] }

/-
Runs of the controller and what its log says. A call may die after any of
its writes; the next one finds what it left.

The laws are read off the log alone: what a contract was created with and
what has happened to it since then (`tenure`).
-/

-- ===== calls

inductive Call
  | create (input : CreateInput)
  | reconcile (contractId : String)
  | pause (contractId : String) (cancelActive : Bool)
  | resume (contractId : String)

def Call.op (platform : Platform) (env : Env) : Call → Op DesiredStateContract
  | .create input => Desired.create platform env input
  | .reconcile contractId => Desired.reconcile platform env contractId
  | .pause contractId cancelActive => Desired.pause platform env contractId cancelActive
  | .resume contractId => Desired.resume platform env contractId

/-- A call, what it is answered, and after how many writes its process
dies, if it makes more. A submission counts as a write. -/
structure Act where
  call : Call
  env : Env
  writes : Nat

def step (platform : Platform) (w : World) (act : Act) : Option World :=
  some ((act.call.op platform act.env).upTo act.writes { w with clock := act.env.now.val })

/-- No file yet, and no reading of the clock. -/
def World.start : World where
  file := { contracts := [] }
  written := []
  log := []
  clock := -8640000000000000

/-- The clock does not go back. -/
def Forward (w : World) (act : Act) : Prop := w.clock ≤ act.env.now.val

-- ===== the log

def policyOf (id : Uuid) : List Event → Option DesiredStatePolicy
  | [] => none
  | .created id' policy :: log => if id' = id then some policy else policyOf id log
  | _ :: log => policyOf id log

/-- What has happened to a contract since it was created, the newest first. -/
def tenure (id : Uuid) : List Event → List Event
  | [] => []
  | .created id' _ :: log => if id' = id then [] else tenure id log
  | event :: log => if event.contract = id then event :: tenure id log else tenure id log

def starts : List Event → List Instant
  | [] => []
  | .reserved _ _ _ startedAt :: log => startedAt :: starts log
  | _ :: log => starts log

/-- How many remediations were found finished. -/
def closings : List Event → Nat
  | [] => 0
  | .closed _ _ _ :: log => closings log + 1
  | _ :: log => closings log

def isPaused : List Event → Bool
  | [] => false
  | .paused _ :: _ => true
  | .resumed _ :: _ => false
  | _ :: log => isPaused log

/-- The remediations closed by `reconcile` that failed or were cancelled,
since one was verified or the desired state was found to hold. -/
def failures : List Event → Nat
  | [] => 0
  | .healthy _ :: _ => 0
  | .closed _ .verified _ :: _ => 0
  | .closed _ _ true :: log => failures log + 1
  | _ :: log => failures log

/-- How many remediations started on the UTC day of `now`. -/
def startsOn (now : Instant) (times : List Instant) : Nat :=
  times.countP fun t => Instant.utcDay t == Instant.utcDay now

-- ===== laws

/-- The limits that hold of a remediation that starts `now`, by what has
happened to its contract before. -/
structure Limits (policy : DesiredStatePolicy) (now : Instant) (before : List Event) : Prop where
  notPaused : isPaused before = false
  finished : closings before = (starts before).length
  spaced : ∀ previous ∈ (starts before).head?,
    policy.minRemediationIntervalMs ≤ now.val - previous.val
  failures : failures before < policy.maxConsecutiveFailures

def reservedIds (id : Uuid) : List Event → List Uuid
  | [] => []
  | .reserved id' _ operationId _ :: log =>
    if id' = id then operationId :: reservedIds id log else reservedIds id log
  | _ :: log => reservedIds id log

def submittedIds (id : Uuid) : List Event → List Uuid
  | [] => []
  | .submitted id' request :: log =>
    if id' = id then request.requestId :: submittedIds id log else submittedIds id log
  | _ :: log => submittedIds id log

/-- Of every remediation reserved under a contract id, the digest of its
contract and how many that contract had reserved since it was created. -/
def marks (id : Uuid) : List Event → List (Hex64 × Nat)
  | [] => []
  | .reserved id' digest _ _ :: log =>
    if id' = id then (digest, (starts (tenure id log)).length) :: marks id log else marks id log
  | _ :: log => marks id log

def markText (id : Uuid) (mark : Hex64 × Nat) : String :=
  remediationRequestText id mark.1 (min mark.2 maxHistory)

end OperatorRuntime.Desired
