/-
`ApprovalStore` of `apps/local-agent/src/approval-store.ts`. The file holds
a list of records; every operation reads it, changes it in memory and
writes it back, one operation at a time. A write that fails throws: before
its rename it leaves the file as it was, after it the file is the one of
the answered call (`Disk`).

Timestamps are kept as time values and identifiers as what their checks
make of them. `continuationTaskId` is left out: nothing reads it.
-/
import OperatorRuntime.Action
import OperatorRuntime.Lib.Runs
import OperatorRuntime.StateFile

namespace OperatorRuntime.Approval

-- ===== records

def maxRecords : Nat := 2000
def retentionMs : Nat := 24 * 60 * 60000
def pendingTtlMs : Nat := 10 * 60000
def approvalTtlMs : Nat := 10 * 60000
def executionLeaseMs : Nat := 2 * 60000

inductive ApprovalStatus
  | pending
  | approved
  | consumed
  | denied
deriving DecidableEq

structure ApprovalAuthorityContext where
  accountId : String
  deviceId : String
  generation : Number

structure ApprovalRecord where
  actionId : String
  actionHash : Hex64
  authorityHash : Hex64
  approvalRequestId : Uuid
  capability : String
  risk : ActionRisk
  target : Option String
  status : ApprovalStatus
  createdAt : Instant
  pendingExpiresAt : Instant
  approvedAt : Option Instant := none
  approvalExpiresAt : Option Instant := none
  consumedAt : Option Instant := none
  deniedAt : Option Instant := none
  executionLeaseId : Option Uuid := none
  executionLeaseExpiresAt : Option Instant := none
deriving DecidableEq

/-- The records of the file. -/
abbrev State := List ApprovalRecord

-- ===== times

/-- `!at || Date.parse(at) <= now`. -/
def passed (at' : Option Instant) (now : Instant) : Prop :=
  ∀ t ∈ at', t.val ≤ now.val

instance (at' : Option Instant) (now : Instant) : Decidable (passed at' now) :=
  inferInstanceAs (Decidable (∀ t ∈ at', t.val ≤ now.val))

-- ===== validation

def corrupt {α : Type} (message : String) : Result α :=
  fail .approvalStoreCorrupt message

def corruptIf (bad : Prop) [Decidable bad] (message : String) : Result Unit :=
  rejectIf bad .approvalStoreCorrupt message

/-- `validStoredText(value, max, label)`. -/
def checkStoredText (text : String) (max : Nat) (label : String) : Result Unit :=
  corruptIf (text = "" ∨ max < jsLength text ∨ includesChar text '\x00' = true)
    ("Approval " ++ label ++ " is invalid.")

def checkStatus (r : ApprovalRecord) : Result Unit := do
  corruptIf (r.status = .pending ∧ (r.approvedAt.isSome ∨ r.approvalExpiresAt.isSome
      ∨ r.consumedAt.isSome ∨ r.deniedAt.isSome ∨ r.executionLeaseId.isSome))
    "Pending approval metadata is inconsistent."
  corruptIf (r.status = .approved ∧ (r.approvedAt.isNone ∨ r.approvalExpiresAt.isNone
      ∨ r.consumedAt.isSome ∨ r.deniedAt.isSome))
    "Approved metadata is inconsistent."
  corruptIf (r.status = .consumed ∧ (r.approvedAt.isNone ∨ r.approvalExpiresAt.isNone
      ∨ r.consumedAt.isNone ∨ r.deniedAt.isSome ∨ r.executionLeaseId.isSome))
    "Consumed approval metadata is inconsistent."
  corruptIf (r.status = .denied ∧ (r.deniedAt.isNone ∨ r.consumedAt.isSome
      ∨ r.executionLeaseId.isSome))
    "Denied approval metadata is inconsistent."

def checkTimes (r : ApprovalRecord) : Result Unit := do
  corruptIf (∃ a ∈ r.approvedAt, a.val < r.createdAt.val)
    "Approval timestamp ordering is invalid."
  corruptIf (∃ e ∈ r.approvalExpiresAt, ∀ a ∈ r.approvedAt, e.val ≤ a.val)
    "Approval expiry ordering is invalid."
  corruptIf (∃ c ∈ r.consumedAt, ∃ a ∈ r.approvedAt, c.val < a.val)
    "Approval consumption ordering is invalid."
  corruptIf (∃ e ∈ r.executionLeaseExpiresAt, ∃ a ∈ r.approvedAt, e.val ≤ a.val)
    "Approval execution lease expiry ordering is invalid."

/-- The checks on one record; identifiers, hashes and times are what their
types say. -/
def checkRecord (actionIds : List String) (requestIds : List Uuid) (r : ApprovalRecord) :
    Result Unit := do
  checkStoredText r.actionId 256 "action ID"
  corruptIf (r.actionId ∈ actionIds) "Approval action ID is duplicated."
  corruptIf (r.approvalRequestId ∈ requestIds)
    "Approval request ID is invalid or duplicated."
  checkStoredText r.capability 128 "capability"
  r.target.toList.forM fun target => checkStoredText target 4096 "target"
  corruptIf (r.pendingExpiresAt.val ≤ r.createdAt.val) "Pending approval expiry is invalid."
  corruptIf (r.executionLeaseId.isSome ≠ r.executionLeaseExpiresAt.isSome)
    "Approval execution lease metadata is incomplete."
  checkStatus r
  checkTimes r

def checkRecords (actionIds : List String) (requestIds : List Uuid) :
    State → Result Unit
  | [] => .ok ()
  | r :: records => do
    checkRecord actionIds requestIds r
    checkRecords (r.actionId :: actionIds) (r.approvalRequestId :: requestIds) records

def validateState (input : State) : Result State := do
  corruptIf (maxRecords < input.length) "Approval store structure is invalid."
  checkRecords [] [] input
  .ok input

-- ===== mutations

/-- `#mutate(fn)`: the file after it, and the answer. -/
def mutate {α : Type} (disk : Disk) (stored : State)
    (fn : State → Result (State × α)) : State × Result α :=
  replaceState (fun state => (validateState state).map fun _ => ())
    { code := .approvalStoreCorrupt, message := "Approval store is invalid." } disk stored do
      let state ← validateState stored
      fn state

def recordOf? (state : State) (actionId : String) : Option ApprovalRecord :=
  state.find? fun r => r.actionId == actionId

def put (state : State) (r : ApprovalRecord) : State :=
  state.map fun x => if x.actionId = r.actionId then r else x

def removeRecord (state : State) (actionId : String) : State :=
  state.filter fun r => r.actionId ≠ actionId

def requireRecord (state : State) (actionId : String) : Result ApprovalRecord :=
  match recordOf? state actionId with
  | some r => .ok r
  | none => fail .approvalNotFound "Approval request was not found."

def requireApprovalRequest (r : ApprovalRecord) (approvalRequestId : String) :
    Result Unit :=
  rejectIf (approvalRequestId ≠ r.approvalRequestId.val) .approvalRequestMismatch
    "Approval request identity is stale or invalid."

def activeExecutionLease (r : ApprovalRecord) (now : Instant) : Bool :=
  r.executionLeaseId.isSome && r.executionLeaseExpiresAt.any fun e => now.val < e.val

def withoutLease (r : ApprovalRecord) : ApprovalRecord :=
  { r with executionLeaseId := none, executionLeaseExpiresAt := none }

def clearExpiredExecutionLease (r : ApprovalRecord) (now : Instant) : ApprovalRecord :=
  if r.executionLeaseId = none ∧ r.executionLeaseExpiresAt = none then r
  else if passed r.executionLeaseExpiresAt now then withoutLease r
  else r

def pruneRecord (now : Instant) (r : ApprovalRecord) : Option ApprovalRecord :=
  if r.createdAt.val < now.val - retentionMs then none
  else if r.status = .pending ∧ r.pendingExpiresAt.val ≤ now.val then none
  else if r.status = .approved then
    let r := clearExpiredExecutionLease r now
    if activeExecutionLease r now then some r
    else if passed r.approvalExpiresAt now then none
    else some r
  else some r

def prune (state : State) (now : Instant) : State :=
  state.filterMap (pruneRecord now)

-- ===== authorities

/-- `isUuid(value)`, whatever the case. -/
def isUuid (value : String) : Bool :=
  matchesClasses uuidClasses (value.map Char.toLower).toList

def validUuid (value label : String) : Result String := do
  rejectIf (isUuid value = false) .approvalAuthorityInvalid (label ++ " must be a UUID.")
  .ok (value.map Char.toLower)

def validGeneration (value : Number) : Result Nat :=
  match value.safeFrom? 1 with
  | some generation => .ok generation
  | none => fail .approvalAuthorityInvalid "Approval authority generation is invalid."

def approvalAuthorityFingerprint (sha256 : Sha256)
    (authority : Option ApprovalAuthorityContext) : Result Hex64 :=
  match authority with
  | none => .ok (sha256.digest (.obj [("kind", .str "local")]))
  | some context => do
    let accountId ← validUuid context.accountId "approval accountId"
    let deviceId ← validUuid context.deviceId "approval deviceId"
    let generation ← validGeneration context.generation
    .ok (sha256.digest (.obj [("kind", .str "account"), ("accountId", .str accountId),
      ("deviceId", .str deviceId), ("generation", .num (toString generation))]))

-- ===== operations

/-- What an operation reads of the platform: the clock, and what becomes
of its write. -/
structure Environment where
  now : Instant
  disk : Disk

/-- The write reaches the disk, whether the call is told so or not. -/
def Environment.written (env : Environment) : Bool := env.disk != .lost

/-- The same, with a write that answers if it reaches the disk. -/
abbrev Environment.made (env : Environment) : Environment :=
  { env with disk := if env.written then .durable else .lost }

section
variable (sha256 : Sha256) (env : Environment) (stored : State)

/-- An approval is cleared of an expired lease, and is not touched while it
is executing. -/
def requireIdle (r : ApprovalRecord) (now : Instant) (message : String) :
    Result ApprovalRecord :=
  if r.status = .approved then
    let r := clearExpiredExecutionLease r now
    if activeExecutionLease r now then failRetryable .approvalInUse message else .ok r
  else .ok r

def approvedOf (r : ApprovalRecord) (now expiresAt : Instant) : ApprovalRecord :=
  { r with
    status := .approved, approvedAt := some now, approvalExpiresAt := some expiresAt }

def deniedOf (r : ApprovalRecord) (now : Instant) : ApprovalRecord :=
  { r with status := .denied, deniedAt := some now }

def leasedOf (r : ApprovalRecord) (leaseId : Uuid) (expiresAt : Instant) : ApprovalRecord :=
  { r with executionLeaseId := some leaseId, executionLeaseExpiresAt := some expiresAt }

def consumedOf (r : ApprovalRecord) (now : Instant) : ApprovalRecord :=
  { r with status := .consumed, consumedAt := some now }

def newRecord (action : ActionRequest) (actionHash authorityHash : Hex64)
    (requestId : Uuid) (now : Instant) : Result ApprovalRecord := do
  let pendingExpiresAt ← now.later pendingTtlMs
  .ok
    { actionId := action.id, actionHash, authorityHash, approvalRequestId := requestId
      capability := action.capability, risk := action.risk, target := action.target
      status := .pending, createdAt := now, pendingExpiresAt }

/-- `register(action, authority)`, with the UUID it draws. -/
def register (action : ActionRequest) (authority : Option ApprovalAuthorityContext)
    (requestId : Uuid) : State × Result ApprovalRecord :=
  let hash := actionHash sha256 action
  match approvalAuthorityFingerprint sha256 authority with
  | .error e => (stored, .error e)
  | .ok boundAuthority =>
    mutate env.disk stored fun state => do
      let state := prune state env.now
      match recordOf? state action.id with
      | none => do
        let record ← newRecord action hash boundAuthority requestId env.now
        rejectIf (maxRecords ≤ state.length) .approvalStoreLimit
          "Approval store is full."
        .ok (state ++ [record], record)
      | some existing => do
        rejectIf (existing.actionHash ≠ hash) .approvalActionMismatch
          "Action ID is already bound to different action content."
        let existing ← requireIdle existing env.now
          "Approved action is already executing."
        let state := put state existing
        if existing.authorityHash = boundAuthority ∧ existing.status = .pending
            ∧ env.now.val < existing.pendingExpiresAt.val then
          .ok (state, existing)
        else if existing.authorityHash = boundAuthority ∧ existing.status = .approved
            ∧ ¬ passed existing.approvalExpiresAt env.now then
          .ok (state, existing)
        else do
          let record ← newRecord action hash boundAuthority requestId env.now
          .ok (put state record, record)

def list : State × Result (List ApprovalRecord) :=
  mutate env.disk stored fun state =>
    let state := prune state env.now
    .ok (state, state.reverse)

/-- An operation that finds its request expired removes it and throws. -/
def unlessExpired {α : Type} (message : String)
    (outcome : State × Result (Option α)) : State × Result α :=
  (outcome.1, match outcome.2 with
    | .ok (some a) => .ok a
    | .ok none => fail .approvalExpired message
    | .error e => .error e)

def approve (actionId approvalRequestId : String) : State × Result ApprovalRecord :=
  unlessExpired "Approval request has expired." <| mutate env.disk stored fun state => do
      let record ← requireRecord state actionId
      requireApprovalRequest record approvalRequestId
      if record.pendingExpiresAt.val ≤ env.now.val then
        .ok (removeRecord state actionId, none)
      else do
        rejectIf (record.status ≠ .pending) .approvalNotPending
          "Only pending actions can be approved."
        let expiresAt ← env.now.later approvalTtlMs
        let record := approvedOf record env.now expiresAt
        .ok (put state record, some record)

def deny (actionId approvalRequestId : String) : State × Result ApprovalRecord :=
  unlessExpired "Approval request has expired." <| mutate env.disk stored fun state => do
      let record ← requireRecord state actionId
      requireApprovalRequest record approvalRequestId
      let record ← requireIdle record env.now
        "Approved action is already executing and cannot be denied mid-dispatch."
      if (record.status = .pending ∧ record.pendingExpiresAt.val ≤ env.now.val)
          ∨ (record.status = .approved ∧ passed record.approvalExpiresAt env.now) then
        .ok (removeRecord state actionId, none)
      else do
        rejectIf (record.status ≠ .pending ∧ record.status ≠ .approved) .approvalNotActive
          "Only pending or approved actions can be denied."
        let record := deniedOf record env.now
        .ok (put state record, some record)

def approvedFor (r : ApprovalRecord) (hash authorityHash : Hex64) : Bool :=
  r.status == .approved && r.actionHash == hash && r.authorityHash == authorityHash

def isApproved (action : ActionRequest) (authority : Option ApprovalAuthorityContext) :
    State × Result Bool :=
  let hash := actionHash sha256 action
  match approvalAuthorityFingerprint sha256 authority with
  | .error e => (stored, .error e)
  | .ok boundAuthority =>
    mutate env.disk stored fun state =>
      let state := prune state env.now
      match recordOf? state action.id with
      | none => .ok (state, false)
      | some record =>
        if approvedFor record hash boundAuthority = false then .ok (state, false)
        else
          let record := clearExpiredExecutionLease record env.now
          let state := put state record
          if activeExecutionLease record env.now then .ok (state, false)
          else .ok (state, !decide (passed record.approvalExpiresAt env.now))

/-- `claim(action, authority)`, with the UUID it draws. -/
def claim (action : ActionRequest) (authority : Option ApprovalAuthorityContext)
    (leaseId : Uuid) : State × Result (Option Uuid) :=
  let hash := actionHash sha256 action
  match approvalAuthorityFingerprint sha256 authority with
  | .error e => (stored, .error e)
  | .ok boundAuthority =>
    mutate env.disk stored fun state => do
      let state := prune state env.now
      match recordOf? state action.id with
      | none => .ok (state, none)
      | some record =>
        if approvedFor record hash boundAuthority = false then .ok (state, none)
        else do
          let record ← requireIdle record env.now "Approved action is already executing."
          let state := put state record
          if passed record.approvalExpiresAt env.now then .ok (state, none)
          else do
            let expiresAt ← env.now.later executionLeaseMs
            .ok (put state (leasedOf record leaseId expiresAt), some leaseId)

inductive SettleOutcome
  | consume
  | release
deriving DecidableEq

def requireApproved (state : State) (action : ActionRequest) (hash authorityHash : Hex64) :
    Result ApprovalRecord := do
  let record ← requireRecord state action.id
  rejectIf (approvedFor record hash authorityHash = false) .approvalNotValid
    "Action approval is not valid for this exact action and authority."
  .ok record

def settle (action : ActionRequest) (executionLeaseId : String) (outcome : SettleOutcome)
    (authority : Option ApprovalAuthorityContext) : State × Result Unit :=
  let hash := actionHash sha256 action
  match approvalAuthorityFingerprint sha256 authority with
  | .error e => (stored, .error e)
  | .ok boundAuthority =>
    mutate env.disk stored fun state => do
      let record ← requireApproved state action hash boundAuthority
      rejectIf (isUuid executionLeaseId = false
          ∨ record.executionLeaseId.map (·.val) ≠ some executionLeaseId)
        .approvalExecutionLeaseMismatch "Approval execution lease is stale or invalid."
      let record := withoutLease record
      match outcome with
      | .consume => .ok (put state (consumedOf record env.now), ())
      | .release =>
        if passed record.approvalExpiresAt env.now then
          .ok (removeRecord (put state record) action.id, ())
        else .ok (put state record, ())

/-- `consume(action, authority)`; the clock is read again for the time of
consumption. -/
def consume (action : ActionRequest) (authority : Option ApprovalAuthorityContext)
    (consumedAt : Instant) : State × Result Unit :=
  let hash := actionHash sha256 action
  match approvalAuthorityFingerprint sha256 authority with
  | .error e => (stored, .error e)
  | .ok boundAuthority =>
    unlessExpired "Action approval has expired." <| mutate env.disk stored fun state => do
        let record ← requireApproved state action hash boundAuthority
        let record ← requireIdle record env.now "Approved action is already executing."
        if passed record.approvalExpiresAt env.now then
          .ok (removeRecord state action.id, none)
        else .ok (put state (consumedOf record consumedAt), some ())

end

/-
A run of the approval store: the calls made on it one after the other, at
clock readings that do not go back, with the identifiers they draw.
`Machine.log` is what the calls did, in order; nothing in the store reads
it.
-/

open Lib

-- ===== calls

inductive Call
  | register (action : ActionRequest) (authority : Option ApprovalAuthorityContext)
      (requestId : Uuid)
  | list
  | approve (actionId approvalRequestId : String)
  | deny (actionId approvalRequestId : String)
  | isApproved (action : ActionRequest) (authority : Option ApprovalAuthorityContext)
  | claim (action : ActionRequest) (authority : Option ApprovalAuthorityContext)
      (leaseId : Uuid)
  | settle (action : ActionRequest) (executionLeaseId : String) (outcome : SettleOutcome)
      (authority : Option ApprovalAuthorityContext)
  | consume (action : ActionRequest) (authority : Option ApprovalAuthorityContext)
      (consumedAt : Instant)

/-- One call, with what it reads of the platform. -/
structure Turn where
  env : Environment
  call : Call

/-- What a call did to a record: as `approve`, `deny` and `claim` left it,
and as a consumption and a release found it. -/
inductive Event
  | approved (r : ApprovalRecord)
  | denied (r : ApprovalRecord)
  | granted (r : ApprovalRecord)
  | consumed (r : ApprovalRecord)
  | released (r : ApprovalRecord)

/-- The event of an answered call about a record of the file. -/
def eventOf {α : Type} (event : ApprovalRecord → Event) (record : Option ApprovalRecord) :
    Result α → List Event
  | .ok _ => record.toList.map event
  | .error _ => []

/-- The file after a call, and what the call did. A call whose write throws
after its rename has done what an answered call does. -/
def Turn.run (sha256 : Sha256) (turn : Turn) (stored : State) : State × List Event :=
  let env := turn.env.made
  match turn.call with
  | .register action authority requestId =>
    ((register sha256 env stored action authority requestId).1, [])
  | .list => ((list env stored).1, [])
  | .approve actionId approvalRequestId =>
    let (state, answer) := approve env stored actionId approvalRequestId
    (state, eventOf .approved (recordOf? state actionId) answer)
  | .deny actionId approvalRequestId =>
    let (state, answer) := deny env stored actionId approvalRequestId
    (state, eventOf .denied (recordOf? state actionId) answer)
  | .isApproved action authority =>
    ((isApproved sha256 env stored action authority).1, [])
  | .claim action authority leaseId =>
    let (state, answer) := claim sha256 env stored action authority leaseId
    (state, match answer with
      | .ok (some _) => (recordOf? state action.id).toList.map .granted
      | _ => [])
  | .settle action executionLeaseId outcome authority =>
    let (state, answer) :=
      settle sha256 env stored action executionLeaseId outcome authority
    (state, match outcome with
      | .consume => eventOf .consumed (recordOf? stored action.id) answer
      | .release => eventOf .released (recordOf? stored action.id) answer)
  | .consume action authority consumedAt =>
    let (state, answer) := consume sha256 env stored action authority consumedAt
    (state, eventOf .consumed (recordOf? stored action.id) answer)

-- ===== runs

structure Machine where
  stored : State
  now : Instant
  drawn : List Uuid
  log : List Event

/-- Before the first call there is no file. -/
def start (now : Instant) : Machine := ⟨[], now, [], []⟩

def Call.draws : Call → List Uuid
  | .register _ _ requestId => [requestId]
  | .claim _ _ leaseId => [leaseId]
  | _ => []

/-- The last clock reading of a call. -/
def Turn.finished (turn : Turn) : Instant :=
  match turn.call with
  | .consume _ _ consumedAt => consumedAt
  | _ => turn.env.now

/-- The clock does not go back, and `randomUUID` answers no identifier
twice. -/
def Timely (m : Machine) (turn : Turn) : Prop :=
  m.now.val ≤ turn.env.now.val ∧ turn.env.now.val ≤ turn.finished.val
    ∧ ∀ id ∈ turn.call.draws, id ∉ m.drawn

instance (m : Machine) (turn : Turn) : Decidable (Timely m turn) :=
  inferInstanceAs (Decidable (_ ∧ _ ∧ _))

def Machine.after (sha256 : Sha256) (m : Machine) (turn : Turn) : Machine :=
  { stored := (turn.run sha256 m.stored).1
    now := turn.finished
    drawn := m.drawn ++ turn.call.draws
    log := m.log ++ (turn.run sha256 m.stored).2 }

def step (sha256 : Sha256) (m : Machine) (turn : Turn) : Option Machine :=
  if Timely m turn then some (m.after sha256 turn) else none

-- ===== conditions

/-- The lease of the event is not settled and not expired. -/
def Outstanding (m : Machine) (g : ApprovalRecord) : Prop :=
  .granted g ∈ m.log ∧ (∃ e ∈ g.executionLeaseExpiresAt, m.now.val < e.val)
    ∧ ∀ r, .consumed r ∈ m.log ∨ .released r ∈ m.log → r.executionLeaseId ≠ g.executionLeaseId

/-- A call does not approve again, once the pending window of the request
is over, an approval that is executing. -/
def Spares (m : Machine) (turn : Turn) : Prop :=
  match turn.call with
  | .approve actionId approvalRequestId => ∀ r ∈ m.stored,
      r.actionId = actionId → r.approvalRequestId.val = approvalRequestId →
      activeExecutionLease r turn.env.now = true →
      turn.env.now.val < r.pendingExpiresAt.val
  | _ => True

/-- A call leaves the lease of the record to its holder: after the expiry
of the lease there is no call that prunes the store or denies the request;
after the pending window there is no second approval of the request; and
the holder has not released the lease. -/
def Leaves (r : ApprovalRecord) (turn : Turn) : Prop :=
  match turn.call with
  | .register .. | .list | .isApproved .. | .claim .. =>
    ¬ passed r.executionLeaseExpiresAt turn.env.now
  | .deny actionId approvalRequestId =>
    actionId = r.actionId → approvalRequestId = r.approvalRequestId.val →
      ¬ passed r.executionLeaseExpiresAt turn.env.now
  | .approve actionId approvalRequestId =>
    actionId = r.actionId → approvalRequestId = r.approvalRequestId.val →
      turn.env.now.val < r.pendingExpiresAt.val
  | .settle action executionLeaseId outcome _ =>
    action.id = r.actionId → r.executionLeaseId.map (·.val) = some executionLeaseId →
      outcome = .consume
  | .consume .. => True

end OperatorRuntime.Approval
