/-
`LocalActionExecutionStore` of `apps/local-agent/src/action-execution-store.ts`:
the receipts of the actions of a device. Every operation reads the file,
checks it, changes it in memory and writes it back, under a lock. What is
written is not checked: a receipt that `validateRecord` refuses makes every
later call throw.

A write that does not reach the disk, for its size or otherwise (`written`
is false), throws and leaves the file as it was. A result is the JSON value
that `JSON.parse(JSON.stringify(result))` gives, its evidence items are
objects. Hashes, identifiers and times are what their checks make of them.

`reconcileWithKernel` is a `lookup` and, where the kernel journal calls for
it, a `complete` or a `#completeFromKernel` in a transaction of its own. The
journal is left out: a run may make either with any result and proof.
-/
import OperatorRuntime.Approval.Store
import OperatorRuntime.StateFile

namespace OperatorRuntime.Execution

open Approval (ApprovalAuthorityContext approvalAuthorityFingerprint)

-- ===== records

def maxRecords : Nat := 256
def completedRetentionMs : Nat := 7 * 24 * 60 * 60000
def uncertainRetentionMs : Nat := 30 * 24 * 60 * 60000
def maxResultBytes : Nat := 512 * 1024

inductive ExecutionStatus
  | processing
  | completed
deriving DecidableEq

structure KernelCompletion where
  journalGeneration : PosSafe
  verificationDigest : Hex64
  resultDigest : Hex64
deriving DecidableEq

/-- `LocalActionExecutionRecord`. -/
structure ExecutionRecord where
  actionId : String
  actionHash : Hex64
  authorityHash : Hex64
  risk : ActionRisk
  status : ExecutionStatus
  startedAt : Instant
  ownerId : Option Uuid
  ownerProcess : Option ProcessInstanceIdentity
  completedAt : Option Instant := none
  resultSha256 : Option Hex64 := none
  result : Option Json := none
  kernelCompletion : Option KernelCompletion := none

/-- The records of the file. -/
abbrev State := List ExecutionRecord

-- ===== results

def textField? (value : Json) (key : String) : Option String :=
  match value.field? key with
  | some (.str text) => some text
  | _ => none

/-- `result.error?.code`. -/
def errorField? (result : Json) (key : String) : Option String :=
  (result.field? "error").bind fun error => textField? error key

def evidenceKinds (result : Json) : List (Option String) :=
  match result.field? "evidence" with
  | some (.arr items) => items.map fun item => textField? item "kind"
  | _ => []

/-- A terminal fence that an operator of the device signed. -/
def isSignedFence (result : Json) : Bool :=
  errorField? result "code" == some "ACTION_EXECUTION_INTERRUPTED_BEFORE_DISPATCH"
    && (evidenceKinds result).contains (some "signed_operator_fence")

def corrupt {α : Type} : Result α :=
  fail .actionExecutionStateInvalid
    "Local action execution receipt state is corrupt or inconsistent."

def corruptIf (bad : Prop) [Decidable bad] : Result Unit :=
  rejectIf bad .actionExecutionStateInvalid
    "Local action execution receipt state is corrupt or inconsistent."

/-- `typeof value === 'string' && 1 <= value.length && value.length <= max`. -/
def isText (value : Option Json) (max : Nat) : Bool :=
  match value with
  | some (.str text) => 1 ≤ jsLength text && jsLength text ≤ max
  | _ => false

def isBoolean : Option Json → Bool
  | some (.bool _) => true
  | _ => false

def isArray : Option Json → Bool
  | some (.arr _) => true
  | _ => false

/-- `Number.isFinite(value) && Number(value) >= 0`. -/
def isDuration : Option Json → Bool
  | some (.num text) => text.toList.head? != some '-'
  | _ => false

/-- `value === undefined`, or an object. -/
def isObjectOrMissing : Option Json → Bool
  | none => true
  | some (.obj _) => true
  | _ => false

def validateResult (input : Json) : Result Json := do
  corruptIf (maxResultBytes < (Json.stringify input).utf8ByteSize)
  corruptIf (isObjectOrMissing (some input) = false)
  corruptIf (isBoolean (input.field? "ok") = false ∨ isText (input.field? "capability") 128 = false)
  corruptIf (isText (input.field? "provider") 256 = false)
  corruptIf (isArray (input.field? "evidence") = false
    ∨ isDuration (input.field? "durationMs") = false)
  corruptIf (isObjectOrMissing (input.field? "error") = false)
  .ok input

def validateStored : Option Json → Result Unit
  | none => .ok ()
  | some result => do
    let _ ← validateResult result
    .ok ()

section
variable (sha256 : Sha256)

def resultHash (result : Json) : Hex64 :=
  sha256 (Json.stringify result)

-- ===== validation

/-- `validText(value, 256)` holds. -/
def isActionId (value : String) : Bool :=
  1 ≤ jsLength value && jsLength value ≤ 256 && !includesChar value '\x00'

def validateRecord (ids : List String) (r : ExecutionRecord) : Result Unit := do
  corruptIf (isActionId r.actionId = false)
  corruptIf (r.actionId ∈ ids)
  corruptIf (∃ p ∈ r.ownerProcess, validProcessInstance p = false)
  validateStored r.result
  corruptIf (r.status = .processing ∧ (r.completedAt.isSome ∨ r.resultSha256.isSome
    ∨ r.result.isSome ∨ r.kernelCompletion.isSome))
  corruptIf (r.status = .completed ∧ (r.completedAt.isNone ∨ r.resultSha256.isNone
    ∨ r.result.isNone))
  corruptIf (∃ c ∈ r.completedAt, c.val < r.startedAt.val)
  corruptIf (∃ result ∈ r.result, r.resultSha256 ≠ some (resultHash sha256 result))

def validateRecords (ids : List String) : State → Result Unit
  | [] => .ok ()
  | r :: records => do
    validateRecord sha256 ids r
    validateRecords (r.actionId :: ids) records

def validateState (input : State) : Result State := do
  corruptIf (maxRecords < input.length)
  validateRecords sha256 [] input
  .ok input

-- ===== mutations

/-- `#mutate(fn)`: the file after it, and the answer. -/
def mutate {α : Type} (written : Bool) (stored : State)
    (fn : State → Result (State × α)) : State × Result α :=
  let outcome : Result (State × α) := do
    let state ← validateState sha256 stored
    let (state, value) ← fn state
    if written then .ok (state, value)
    else
      fail .actionExecutionStateInvalid "Local action execution receipt state is invalid."
  match outcome with
  | .ok (state, value) => (state, .ok value)
  | .error e => (stored, .error e)

/-- `state.records.find((entry) => entry.actionId === actionId)`. -/
def recordOf? (state : State) (actionId : String) : Option ExecutionRecord :=
  state.find? fun r => r.actionId == actionId

def put (state : State) (r : ExecutionRecord) : State :=
  state.map fun x => if x.actionId = r.actionId then r else x

/-- What `prune` keeps. -/
def isKept (now : Instant) (r : ExecutionRecord) : Bool :=
  (r.status == .processing && r.risk != .read)
    || (r.status == .completed && r.result.any isSignedFence)
    || match r.status with
      | .processing => now.val - uncertainRetentionMs < (r.completedAt.getD r.startedAt).val
      | .completed => now.val - completedRetentionMs < (r.completedAt.getD r.startedAt).val

def prune (state : State) (now : Instant) : State :=
  state.filter (isKept now)

def reconciliationRequired {α : Type} (message : String) : Result α :=
  fail .actionExecutionReconciliationRequired message

def requireReconciled (bad : Prop) [Decidable bad] (message : String) : Result Unit :=
  rejectIf bad .actionExecutionReconciliationRequired message

def assertIdentity (r : ExecutionRecord) (actionHash authorityHash : Hex64) :
    Result Unit := do
  rejectIf (r.actionHash ≠ actionHash) .actionExecutionActionMismatch
    "Action ID is already bound to different executable content."
  rejectIf (r.authorityHash ≠ authorityHash) .actionExecutionAuthorityMismatch
    "Action ID is already bound to different execution authority."

-- ===== operations

/-- What an operation reads of its store object and of the platform: two
readings of the clock, the capability registry (`none` is `dynamic`), and
whether its write reaches the disk. -/
structure Environment where
  ownerId : Uuid
  ownerProcess : ProcessInstanceIdentity
  now : Instant
  at' : Instant
  riskRule : String → Result (Option ActionRisk)
  written : Bool

inductive Answer
  | missing
  | started (record : ExecutionRecord)
  | processing (record : ExecutionRecord)
  | completed (record : ExecutionRecord) (result : Option Json)

def answerOf (r : ExecutionRecord) : Answer :=
  match r.status with
  | .processing => .processing r
  | .completed => .completed r r.result

def newRecord (env : Environment) (action : ActionRequest) (actionHash authorityHash : Hex64) :
    ExecutionRecord :=
  { actionId := action.id, actionHash, authorityHash, risk := action.risk
    status := .processing, startedAt := env.at', ownerId := some env.ownerId
    ownerProcess := some env.ownerProcess }

/-- `begin` starts a read again; a kernel completion stays. -/
def restarted (env : Environment) (r : ExecutionRecord) : ExecutionRecord :=
  { r with
    status := .processing, ownerId := some env.ownerId, ownerProcess := some env.ownerProcess
    startedAt := env.at', completedAt := none, resultSha256 := none, result := none }

def completedOf (r : ExecutionRecord) (at' : Instant) (result : Json) : ExecutionRecord :=
  { r with
    status := .completed, completedAt := some at'
    resultSha256 := some (resultHash sha256 result), result := some result }

/-- A result that is checked and measured before the file is read. -/
def storableResult (result : Json) (tooLarge : String) : Result Json := do
  let safeResult ← validateResult result
  rejectIf (maxResultBytes < (Json.stringify safeResult).utf8ByteSize)
    .actionExecutionResultTooLarge tooLarge
  .ok safeResult

variable (env : Environment) (stored : State)

/-- The executable identity of a call is fixed before the file is read. -/
def identified {α : Type} (action : ActionRequest) (authority : Option ApprovalAuthorityContext)
    (call : Hex64 → Hex64 → State × Result α) : State × Result α :=
  match approvalAuthorityFingerprint sha256 authority with
  | .error e => (stored, .error e)
  | .ok authorityHash => call (actionHash sha256 action) authorityHash

/-- `assertCanonicalRisk(action, canonicalRisk)`, unless it is dynamic. -/
def assertCanonicalRisk (action : ActionRequest) : Option ActionRisk → Result Unit
  | none => .ok ()
  | some canonical =>
    rejectIf (action.risk ≠ canonical) .actionRiskMismatch
      ("Capability " ++ action.capability ++ " must be authorized as " ++ canonical.text ++ ".")

def begin (action : ActionRequest) (authority : Option ApprovalAuthorityContext) :
    State × Result Answer :=
  match env.riskRule action.capability with
  | .error e => (stored, .error e)
  | .ok rule =>
  match assertCanonicalRisk action rule with
  | .error e => (stored, .error e)
  | .ok () =>
  identified sha256 stored action authority fun hash authorityHash =>
    mutate sha256 env.written stored fun state => do
      let state := prune state env.now
      match recordOf? state action.id with
      | some existing => do
        assertIdentity existing hash authorityHash
        if existing.risk = .read ∧ rule = some .read then
          if existing.status = .processing ∧ existing.ownerId = some env.ownerId then
            .ok (state, .processing existing)
          else .ok (put state (restarted env existing), .started (restarted env existing))
        else .ok (state, answerOf existing)
      | none => do
        rejectIf (maxRecords ≤ state.length) .actionExecutionStoreFull
          "Local action execution receipt store is full; resolve retained uncertain executions before starting more mutations."
        let record := newRecord env action hash authorityHash
        .ok (state ++ [record], .started record)

def complete (action : ActionRequest) (result : Json)
    (authority : Option ApprovalAuthorityContext) : State × Result ExecutionRecord :=
  identified sha256 stored action authority fun hash authorityHash =>
    match storableResult result
        "Local action result exceeds the durable execution-receipt limit." with
    | .error e => (stored, .error e)
    | .ok safeResult =>
    mutate sha256 env.written stored fun state => do
      let state := prune state env.now
      match recordOf? state action.id with
      | none =>
        fail .actionExecutionReceiptMissing
          "Local action execution receipt disappeared before completion."
      | some record => do
        assertIdentity record hash authorityHash
        if record.status = .completed then do
          rejectIf (record.resultSha256 ≠ some (resultHash sha256 safeResult))
            .actionExecutionResultConflict
            "Completed local action execution receipt conflicts with a different result."
          .ok (state, record)
        else
          let record := completedOf sha256 record env.at' safeResult
          .ok (put state record, record)

def lookup (action : ActionRequest) (authority : Option ApprovalAuthorityContext) :
    State × Result Answer :=
  identified sha256 stored action authority fun hash authorityHash =>
    mutate sha256 env.written stored fun state => do
      let state := prune state env.now
      match recordOf? state action.id with
      | none => .ok (state, .missing)
      | some record => do
        assertIdentity record hash authorityHash
        .ok (state, answerOf record)

def completeFromKernel (action : ActionRequest) (authority : Option ApprovalAuthorityContext)
    (result : Json) (proof : KernelCompletion) :
    State × Result ExecutionRecord :=
  identified sha256 stored action authority fun hash authorityHash =>
    match storableResult result
        "Kernel result exceeds the durable execution-receipt limit." with
    | .error e => (stored, .error e)
    | .ok safeResult =>
    mutate sha256 env.written stored fun state => do
      let state := prune state env.now
      match recordOf? state action.id with
      | none =>
        reconciliationRequired
          "Local action execution receipt disappeared during kernel reconciliation."
      | some record => do
        assertIdentity record hash authorityHash
        if record.status = .completed then do
          requireReconciled (record.resultSha256 ≠ some (resultHash sha256 safeResult)
              ∨ ∃ kernel ∈ record.kernelCompletion, kernel ≠ proof)
            "Completed local receipt conflicts with authoritative kernel completion proof."
          let record := { record with kernelCompletion := some proof }
          .ok (put state record, record)
        else
          let record := { completedOf sha256 record env.at' safeResult with
            kernelCompletion := some proof }
          .ok (put state record, record)

-- ===== fences

def ProcessInstanceIdentity.json (p : ProcessInstanceIdentity) : Json :=
  .obj [("pid", .num (toString p.pid)), ("started", .str p.started)]

def fencedResult (capability : String) (epoch : Nat) (at' : Instant) : Json :=
  .obj [("ok", .bool false), ("capability", .str capability), ("provider", .str "agent-kernel"),
    ("evidence", .arr [.obj [("kind", .str "signed_operator_fence"), ("status", .str "pass"),
      ("message", .str
        "Existing device-signed original never-dispatched action was reconciled; nothing was replayed."),
      ("data", .obj [("signedDecisionEpoch", .num (toString epoch))]),
      ("timestamp", .str at'.isoText)]]),
    ("error", .obj [("code", .str ErrorCode.actionExecutionInterruptedBeforeDispatch.text),
      ("message", .str
        "Device-signed no-replay fence proves this action stopped before provider dispatch."),
      ("retryable", .bool false), ("sideEffectState", .str "none"),
      ("executionPhase", .str "pre_dispatch")]),
    ("durationMs", .num "0")]

structure SignedFence where
  actionId : String
  actionDigest : String
  authorityHash : String
  ownerId : String
  ownerProcessDigest : Option String
  capability : String
  risk : ActionRisk
  epoch : Number

/-- 1 to 160 letters, digits, dots, underscores, colons, slashes and dashes. -/
def isFenceActionId (text : String) : Bool :=
  1 ≤ text.toList.length && text.toList.length ≤ 160
    && text.toList.all fun c => isAlnum c || ['.', '_', ':', '/', '-'].contains c

/-- `/^[a-z][a-z0-9._-]{0,127}$/`. -/
def isFenceCapability (text : String) : Bool :=
  text.toList.head?.any Char.isLower && text.toList.length ≤ 128
    && text.toList.all fun c => c.isLower || c.isDigit || ['.', '_', '-'].contains c

/-- The receipt is not the one the fence was signed for. -/
def fenceConflicts (input : SignedFence) (r : ExecutionRecord) : Prop :=
  r.actionHash.val ≠ input.actionDigest ∨ r.authorityHash.val ≠ input.authorityHash
    ∨ r.ownerId.map (·.val) ≠ some input.ownerId ∨ r.risk ≠ input.risk
    ∨ input.ownerProcessDigest
      ≠ r.ownerProcess.map fun p => (sha256.digest (ProcessInstanceIdentity.json p)).val

instance (input : SignedFence) (r : ExecutionRecord) : Decidable (fenceConflicts sha256 input r) :=
  inferInstanceAs (Decidable (_ ∨ _ ∨ _ ∨ _ ∨ _))

/-- `completeVerifiedSignedFence(input, reverify)`. The completion time is
`env.now`, read before the lock is held. -/
def completeVerifiedSignedFence (input : SignedFence) (reverify : Result Unit) :
    State × Result ExecutionRecord :=
  match input.epoch.safeFrom? 1 with
  | none => (stored, reconciliationRequired "Signed fence identity is invalid.")
  | some epoch =>
    if isFenceActionId input.actionId = false ∨ hex64? input.actionDigest = none
        ∨ hex64? input.authorityHash = none ∨ input.risk = .read
        ∨ isFenceCapability input.capability = false then
      (stored, reconciliationRequired "Signed fence identity is invalid.")
    else
      mutate sha256 env.written stored fun state => do
        reverify
        match recordOf? state input.actionId with
        | none =>
          reconciliationRequired "Original receipt conflicts with the exact signed fence."
        | some record => do
          requireReconciled (fenceConflicts sha256 input record)
            "Original receipt conflicts with the exact signed fence."
          if record.status = .completed then do
            requireReconciled (record.result.any isSignedFence = false)
              "Completed receipt conflicts with the signed no-replay fence."
            .ok (state, record)
          else do
            let result ← validateResult (fencedResult input.capability epoch env.now)
            let record := completedOf sha256 record env.now result
            .ok (put state record, record)

-- ===== continuation

/-- The receipt of an action that the policy rejected for want of an
approval. -/
def awaitsApproval (r : ExecutionRecord) : Bool :=
  r.result.any fun result => textField? result "provider" == some "policy"
    && errorField? result "code" == some "APPROVAL_REQUIRED"
    && errorField? result "sideEffectState" == some "none"

/-- `resumeApprovedPreDispatch(action, authority, journal)`, once the journal
has shown that the policy deferred the action before any dispatch. -/
def resumeApprovedPreDispatch (action : ActionRequest)
    (authority : Option ApprovalAuthorityContext) : State × Result Answer :=
  identified sha256 stored action authority fun hash authorityHash =>
    mutate sha256 env.written stored fun state => do
      match recordOf? state action.id with
      | none => reconciliationRequired "Original approval receipt is missing."
      | some record => do
        assertIdentity record hash authorityHash
        if record.status = .processing ∨ awaitsApproval record = false then
          .ok (state, answerOf record)
        else
          let record := { restarted env record with kernelCompletion := none }
          .ok (put state record, .started record)

end

-- ===== runs

/-- One transaction on the file; the stores and the callers are any. -/
inductive Act
  | begin (env : Environment) (action : ActionRequest)
      (authority : Option ApprovalAuthorityContext)
  | complete (env : Environment) (action : ActionRequest) (result : Json)
      (authority : Option ApprovalAuthorityContext)
  | lookup (env : Environment) (action : ActionRequest)
      (authority : Option ApprovalAuthorityContext)
  | fence (env : Environment) (input : SignedFence) (reverify : Result Unit)
  | resume (env : Environment) (action : ActionRequest)
      (authority : Option ApprovalAuthorityContext)
  | completeFromKernel (env : Environment) (action : ActionRequest)
      (authority : Option ApprovalAuthorityContext) (result : Json) (proof : KernelCompletion)

/-- The file after a transaction. -/
def step (sha256 : Sha256) (stored : State) : Act → State
  | .begin env action authority => (begin sha256 env stored action authority).1
  | .complete env action result authority =>
    (complete sha256 env stored action result authority).1
  | .lookup env action authority => (lookup sha256 env stored action authority).1
  | .fence env input reverify =>
    (completeVerifiedSignedFence sha256 env stored input reverify).1
  | .resume env action authority => (resumeApprovedPreDispatch sha256 env stored action authority).1
  | .completeFromKernel env action authority result proof =>
    (completeFromKernel sha256 env stored action authority result proof).1

end OperatorRuntime.Execution
