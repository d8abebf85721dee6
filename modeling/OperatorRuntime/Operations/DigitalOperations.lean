/-
`core/digital-operations.ts` once an operation has been submitted: `start`,
`refresh`, `pause`, `cancel` and `promoteOrganization`. One call runs at a
time, under the ownership lease of the layer.

What the parts around the layer answer during a call (the coordinators, the
device pool, the world model, the optimizer, the procedures and the clock)
comes with the call as its `Answers`. A call reports the states it writes in
their order, since it may end before any of them is in the file (a state that
is too large for the file included). The fields of an operation that no call
changes are kept where the receipt reads them.
-/
import OperatorRuntime.Identifiers
import OperatorRuntime.Json
import OperatorRuntime.Lib.Keyed
import OperatorRuntime.ProcessInstance
import OperatorRuntime.StateFile

namespace OperatorRuntime.Operations

open Lib

-- ===== records

inductive DigitalOperationState
  | pending
  | running
  | paused
  | blocked
  | failed
  | cancelled
  | verified
deriving DecidableEq

/-- The states of a mission, and those of a program. -/
inductive ChildState
  | pending
  | running
  | paused
  | blocked
  | failed
  | cancelled
  | verified
deriving DecidableEq

inductive Mode
  | team
  | organization
deriving DecidableEq

def Mode.text : Mode → String
  | .team => "team"
  | .organization => "organization"

structure WorldCondition where
  entityKey : String
  factKey : String
  expectedValueDigest : Hex64
deriving DecidableEq

inductive ReservationStatus
  | active
  | released
  | reconciliationRequired
deriving DecidableEq

structure DigitalOperation where
  id : Uuid
  objective : String
  scopeKey : String
  successConditions : List String
  state : DigitalOperationState
  mode : Mode
  preconditions : List WorldCondition
  postconditions : List WorldCondition
  selectedStrategy : String
  submissionDigest : Hex64
  planDigest : Option Hex64
  selectedProcedureId : Option Uuid
  /-- Whether a `procedureCapture` came with the submission. -/
  capturesProcedure : Bool
  deviceReservationId : Option Uuid
  deviceAllocationRequestDigest : Option Hex64
  deviceReservationSessionId : Option Uuid
  deviceReservationStatus : Option ReservationStatus
  deviceReservationErrorCode : Option String
  teamMissionId : Option Uuid
  organizationProgramId : Option Uuid
  lastBlockReason : Option String
  outcomeRecorded : Bool
  verificationEvidenceDigest : Option Hex64
  receiptDigest : Option Hex64
  updatedAt : Instant
deriving DecidableEq

structure Platform where
  sha256 : String → Hex64

-- ===== answers

/-- A mission or a program, as a coordinator answers it. -/
structure Child where
  id : Uuid
  state : ChildState
deriving DecidableEq

/-- What the world model resolves a fact to: the digest of its value, or
another status than `resolved`. -/
inductive FactResolution
  | resolved (valueDigest : Hex64)
  | unresolved (status : String)
deriving DecidableEq

inductive PoolState
  | active
  | released
  | expired
deriving DecidableEq

/-- What the parts around the layer answer during one call. What is thrown by
the device pool is its `code`, where that is a text. -/
structure Answers where
  /-- `teams.inspect` or `organizations.refresh`. -/
  child : Result Child
  /-- `teams.start`, `teams.resume` or `organizations.start`. -/
  started : Result Child
  paused : Result Child
  cancelled : Result Child
  promoted : Result Unit
  heartbeat : Except (Option String) Unit
  fact : WorldCondition → Result FactResolution
  /-- The evidence of the child, when it is first derived in a call. -/
  evidence : Result Hex64
  /-- The same when the outcome is recorded. -/
  finalEvidence : Result Hex64
  optimizer : Result Unit
  captured : Result Uuid
  outcome : Result Unit
  released : Except (Option String) (Option (Uuid × PoolState))
  clock : ClockReading
  /-- The clock when the outcome is recorded. -/
  finalClock : ClockReading

-- ===== validation

def inputInvalid {α : Type} (message : String) : Result α :=
  fail .operationsInputInvalid message

def boundedText (input : String) (max : Nat) (label : String) : Result String :=
  if Json.unitLength input < 1 ∨ max < Json.unitLength input ∨ includesChar input '\x00' = true then
    inputInvalid (label ++ " is invalid.")
  else .ok input

def boundedKey (input label : String) : Result String := do
  let value ← boundedText input 256 label
  rejectIf (isKeyText 256 value = false) .operationsInputInvalid (label ++ " is invalid.")
  return value

def conditionJson (condition : WorldCondition) : Json :=
  .obj [("entityKey", .str condition.entityKey), ("factKey", .str condition.factKey),
    ("expectedValueDigest", .str condition.expectedValueDigest.val)]

/-- `value ?? null`. -/
def orNull (value : Option String) : Json :=
  (value.map Json.str).getD .null

def operationReceipt (platform : Platform) (operation : DigitalOperation) : Hex64 :=
  platform.sha256 (Json.stringify (.obj [("version", .num "1"), ("id", .str operation.id.val),
    ("objective", .str operation.objective), ("scopeKey", .str operation.scopeKey),
    ("successConditions", .arr (operation.successConditions.map Json.str)),
    ("mode", .str operation.mode.text),
    ("preconditions", .arr (operation.preconditions.map conditionJson)),
    ("postconditions", .arr (operation.postconditions.map conditionJson)),
    ("selectedStrategy", .str operation.selectedStrategy),
    ("submissionDigest", .str operation.submissionDigest.val),
    ("planDigest", orNull (operation.planDigest.map Subtype.val)),
    ("selectedProcedureId", orNull (operation.selectedProcedureId.map Subtype.val)),
    ("deviceReservationId", orNull (operation.deviceReservationId.map Subtype.val)),
    ("teamMissionId", orNull (operation.teamMissionId.map Subtype.val)),
    ("organizationProgramId", orNull (operation.organizationProgramId.map Subtype.val)),
    ("verificationEvidenceDigest", orNull (operation.verificationEvidenceDigest.map Subtype.val)),
    ("state", .str "VERIFIED")]))

def corruptIf (bad : Prop) [Decidable bad] (message : String) : Result Unit :=
  rejectIf bad .operationsStateCorrupt message

/-- What `validateOperation` checks of the fields the calls change. -/
def validateOperation (platform : Platform) (operation : DigitalOperation) :
    Result Unit := do
  let _ ← operation.deviceReservationErrorCode.mapM fun code =>
    boundedKey code "deviceReservationErrorCode"
  let _ ← operation.lastBlockReason.mapM fun reason => boundedText reason 4096 "lastBlockReason"
  if operation.state = .verified then do
    corruptIf (operation.verificationEvidenceDigest = none ∨ operation.receiptDigest = none)
      "Verified operation is missing its bound verification receipt."
    corruptIf (operation.receiptDigest ≠ some (operationReceipt platform operation))
      "Verified operation receipt does not match its bound contract and verification evidence."
  else
    corruptIf (operation.receiptDigest ≠ none ∨ operation.verificationEvidenceDigest ≠ none)
      "Non-verified operation cannot retain a verification receipt."

def validateState (platform : Platform) (operations : List DigitalOperation) :
    Result Unit := do
  operations.forM (validateOperation platform)
  corruptIf (¬ (operations.map DigitalOperation.id).Nodup) "Operation IDs must be unique."

-- ===== updates

def hasId (id : Uuid) (operation : DigitalOperation) : Bool :=
  operation.id == id

def inspect (platform : Platform) (operations : List DigitalOperation) (id : Uuid) :
    Result DigitalOperation := do
  validateState platform operations
  match operations.find? (hasId id) with
  | some operation => return operation
  | none => fail .operationsNotFound "Digital operation was not found."

/-- `#update(id, mutate)`: the operation it answers, and the state it writes. -/
def update (platform : Platform) (clock : ClockReading) (operations : List DigitalOperation)
    (id : Uuid) (mutate : DigitalOperation → Result DigitalOperation) :
    Result (DigitalOperation × List DigitalOperation) := do
  let operation ← inspect platform operations id
  let mutated ← mutate operation
  let updatedAt ← toISOString clock
  let written := { mutated with updatedAt }
  validateOperation platform written
  let operations := updateFirst (hasId id) (fun _ => written) operations
  validateState platform operations
  return (written, operations)

/-- What a call wrote, in order, and what it answered. -/
structure Ran where
  written : List (List DigitalOperation)
  answer : Result DigitalOperation

/-- A call that comes to one update. -/
def Ran.of (result : Result (DigitalOperation × List DigitalOperation)) : Ran :=
  match result with
  | .ok (operation, operations) => ⟨[operations], .ok operation⟩
  | .error e => ⟨[], .error e⟩

-- ===== world conditions

/-- `#checkWorldConditions(conditions)`: why they do not hold, if they do not. -/
def checkWorldConditions (answers : Answers) : List WorldCondition → Result (Option String)
  | [] => return none
  | condition :: rest => do
    let fact ← answers.fact condition
    match fact with
    | .unresolved status =>
      return some (condition.entityKey ++ "." ++ condition.factKey ++ " is " ++ status ++ ".")
    | .resolved valueDigest =>
      if valueDigest ≠ condition.expectedValueDigest then
        return some (condition.entityKey ++ "." ++ condition.factKey
          ++ " resolved value does not match the expected verified value.")
      else checkWorldConditions answers rest

def assertWorldConditions (answers : Answers) (conditions : List WorldCondition) (label : String) :
    Result Unit := do
  match ← checkWorldConditions answers conditions with
  | none => return ()
  | some reason => fail .operationsWorldConditionFailed (label ++ " failed: " ++ reason)

-- ===== the outcome

/-- What is done in `#recordFinalOutcome` before the reservation is released. -/
def recordOutcome (answers : Answers) (operation : DigitalOperation) : Result Unit := do
  answers.optimizer
  let captures := operation.state = .verified ∧ operation.capturesProcedure = true
    ∧ operation.receiptDigest.isSome = true ∧ operation.verificationEvidenceDigest.isSome = true
  let captured ← if captures then (answers.captured.map some) else .ok none
  if operation.selectedProcedureId.isSome = true ∧ operation.selectedProcedureId ≠ captured then
    answers.outcome
  else return ()

/-- Why the release of the reservation is not confirmed, if it is not. -/
def releaseErrorCode (answers : Answers) (operation : DigitalOperation) (reservation : Uuid) :
    Option String :=
  match operation.deviceAllocationRequestDigest with
  | none => some "DEVICE_RESERVATION_PROOF_MISSING"
  | some _ =>
    match answers.released with
    | .ok (some (id, state)) =>
      if id = reservation ∧ state ≠ .active then none
      else some "DEVICE_RESERVATION_RELEASE_UNCONFIRMED"
    | .ok none => some "DEVICE_RESERVATION_RELEASE_UNCONFIRMED"
    | .error code => some (code.getD "DEVICE_RESERVATION_RELEASE_FAILED")

/-- The last update of `#recordFinalOutcome`. -/
def settle (answers : Answers) (recorded current : DigitalOperation) : DigitalOperation :=
  match current.deviceReservationId with
  | none => { current with outcomeRecorded := true }
  | some _ =>
    let code := recorded.deviceReservationId.bind fun reservation =>
      releaseErrorCode answers recorded reservation
    { current with
      outcomeRecorded := true
      deviceReservationStatus := some (if code = none then .released else .reconciliationRequired)
      deviceReservationErrorCode := code }

def recordFinalOutcome (platform : Platform) (answers : Answers) (operations : List DigitalOperation)
    (operation : DigitalOperation) : Result (DigitalOperation × List DigitalOperation) := do
  if operation.state = .verified then do
    let current ← answers.finalEvidence
    rejectIf (operation.verificationEvidenceDigest ≠ some current) .operationsVerificationDrift
      "Verified operation no longer matches its machine-derived underlying verification evidence."
    recordOutcome answers operation
  else recordOutcome answers operation
  update platform answers.finalClock operations operation.id fun current =>
    .ok (settle answers operation current)

/-- An update, then the outcome where the operation has ended and none is
recorded. -/
def thenOutcome (platform : Platform) (answers : Answers)
    (result : Result (DigitalOperation × List DigitalOperation)) : Ran :=
  match result with
  | .error e => ⟨[], .error e⟩
  | .ok (updated, operations) =>
    if (updated.state = .verified ∨ updated.state = .failed ∨ updated.state = .cancelled)
        ∧ updated.outcomeRecorded = false then
      match recordFinalOutcome platform answers operations updated with
      | .ok (recorded, settled) => ⟨[operations, settled], .ok recorded⟩
      | .error e => ⟨[operations], .error e⟩
    else ⟨[operations], .ok updated⟩

-- ===== calls

def childId (operation : DigitalOperation) : Option Uuid :=
  match operation.mode with
  | .team => operation.teamMissionId
  | .organization => operation.organizationProgramId

/-- The child of an operation; `label` says what lacks it. -/
def ownedChild (operation : DigitalOperation) (label : String) : Result Uuid :=
  match childId operation with
  | some id => .ok id
  | none => fail .operationsStateCorrupt label

def noChild (operation : DigitalOperation) : String :=
  match operation.mode with
  | .team => "Team operation has no mission."
  | .organization => "Organization operation has no program."

/-- Starts the child of an operation, or resumes it; a mission that runs
already is taken as it is. -/
def startChild (answers : Answers) (operation : DigitalOperation) : Result Unit := do
  let child ← ownedChild operation (noChild operation)
  match operation.mode with
  | .team => do
    let mission ← answers.child
    let started ← if mission.state = .pending ∨ mission.state = .paused ∨ mission.state = .blocked
      then answers.started else .ok mission
    rejectIf (started.id ≠ mission.id ∨ started.state ≠ .running) .operationsChildStartUnconfirmed
      "Team mission did not confirm its exact running identity."
  | .organization => do
    let started ← answers.started
    rejectIf (started.id ≠ child ∨ started.state ≠ .running) .operationsChildStartUnconfirmed
      "Organization program did not confirm its exact running identity."

def start (platform : Platform) (answers : Answers) (operations : List DigitalOperation) (id : Uuid) :
    Ran :=
  Ran.of do
    let operation ← inspect platform operations id
    rejectIf (operation.state ≠ .pending ∧ operation.state ≠ .paused) .operationsStateInvalid
      "Operation is not startable."
    assertWorldConditions answers operation.preconditions "precondition"
    startChild answers operation
    update platform answers.clock operations id fun current =>
      .ok { current with state := .running, lastBlockReason := none }

def mapUnderlyingState : ChildState → DigitalOperationState
  | .verified => .verified
  | .failed => .failed
  | .cancelled => .cancelled
  | .paused => .paused
  | .blocked => .blocked
  | .pending => .pending
  | .running => .running

def missingSessionReason : String :=
  "Device reservation session identity is missing; reconciliation is required."

def renewalReason (code : Option String) : String :=
  "Device reservation renewal failed (" ++ code.getD "DEVICE_RESERVATION_HEARTBEAT_FAILED"
    ++ "); capacity ownership is no longer trusted and requires reconciliation."

/-- Why `refresh` blocks an operation before it looks at the child: the
reservation of a running operation is renewed. -/
def renewalFailure (answers : Answers) (current : DigitalOperation) : Option String :=
  if current.deviceReservationId.isSome = true ∧ current.state = .running then
    match current.deviceReservationSessionId with
    | none => some missingSessionReason
    | some _ =>
      match answers.heartbeat with
      | .ok () => none
      | .error code => some (renewalReason code)
  else none

/-- The state `refresh` gives an operation, with a reason or the evidence. -/
structure Refreshed where
  state : DigitalOperationState
  blockReason : Option String := none
  evidence : Option Hex64 := none

def refreshedState (answers : Answers) (current : DigitalOperation) :
    Result Refreshed := do
  let _ ← ownedChild current (noChild current)
  let child ← answers.child
  let state := mapUnderlyingState child.state
  if state = .verified then do
    match ← checkWorldConditions answers current.postconditions with
    | some reason => return { state := .blocked, blockReason := some reason }
    | none => do
      let evidence ← answers.evidence
      return { state, evidence := some evidence }
  else return { state }

def applyRefreshed (platform : Platform) (refreshed : Refreshed) (operation : DigitalOperation) :
    Result DigitalOperation := do
  let stored := { operation with state := refreshed.state, lastBlockReason := refreshed.blockReason }
  if refreshed.state = .verified then
    match refreshed.evidence with
    | none =>
      fail .operationsVerifierMissing
        "Verified operation is missing its underlying machine verification proof."
    | some evidence => do
      rejectIf (operation.verificationEvidenceDigest.isSome = true
          ∧ operation.verificationEvidenceDigest ≠ some evidence) .operationsVerificationDrift
        "Underlying verification evidence changed after the operation was verified."
      let verified := { stored with verificationEvidenceDigest := some evidence }
      return { verified with
        receiptDigest := verified.receiptDigest.orElse fun _ => some (operationReceipt platform verified) }
  else return stored

def refresh (platform : Platform) (answers : Answers) (operations : List DigitalOperation) (id : Uuid) :
    Ran :=
  match inspect platform operations id with
  | .error e => ⟨[], .error e⟩
  | .ok current =>
    match renewalFailure answers current with
    | some reason =>
      Ran.of (update platform answers.clock operations id fun operation =>
        .ok { operation with state := .blocked, lastBlockReason := some reason })
    | none =>
      thenOutcome platform answers do
        let refreshed ← refreshedState answers current
        update platform answers.clock operations id (applyRefreshed platform refreshed)

def pause (platform : Platform) (answers : Answers) (operations : List DigitalOperation) (id : Uuid) :
    Ran :=
  Ran.of do
    let current ← inspect platform operations id
    let child ← ownedChild current "Operation has no owned child to pause."
    let paused ← answers.paused
    rejectIf (paused.id ≠ child ∨ paused.state ≠ .paused) .operationsChildPauseUnconfirmed
      "Child operation did not confirm the exact paused state."
    update platform answers.clock operations id fun operation =>
      .ok { operation with state := .paused }

def cancel (platform : Platform) (answers : Answers) (operations : List DigitalOperation) (id : Uuid) :
    Ran :=
  thenOutcome platform answers do
    let current ← inspect platform operations id
    let child ← ownedChild current "Operation has no owned child to cancel."
    let cancelled ← answers.cancelled
    rejectIf (cancelled.id ≠ child ∨ cancelled.state ≠ .cancelled) .operationsChildCancelUnconfirmed
      "Child operation did not confirm the exact cancelled state."
    update platform answers.clock operations id fun operation =>
      .ok { operation with state := .cancelled }

/-- `promoteOrganization(id, verificationDigest)`; whether the digest is one
is part of what the coordinator answers. -/
def promoteOrganization (platform : Platform) (answers : Answers)
    (operations : List DigitalOperation) (id : Uuid) : Ran :=
  Ran.of do
    let current ← inspect platform operations id
    rejectIf (current.mode ≠ .organization ∨ current.organizationProgramId = none)
      .operationsModeInvalid "Operation is not organization-scale."
    answers.promoted
    update platform answers.clock operations id fun operation =>
      .ok { operation with state := .running }

end OperatorRuntime.Operations
