/-
`core/enterprise-authority-lease.ts`: leases of authority, each with the
grant it carries and, when it was issued under another lease, that
lease's id. Every operation reads the file, changes the state in memory
and writes it back; the operations run one at a time.

Identifiers, lease states and times are kept as what their checks make of
them, and the file as its state, of which `fileBytes` is the length. An
`emergencyReason` set on a state without one is written after the leases,
which does not change the length.
-/
import OperatorRuntime.Identifiers
import OperatorRuntime.Lib.Forest
import OperatorRuntime.Policy.Delegation
import OperatorRuntime.StateFile

namespace OperatorRuntime.Authority

open Lib
open Principals (AuthorityGrant isIdChar validateAuthorityGrant assertAttenuates)

-- ===== records

inductive EnterpriseAuthorityLeaseState
  | active
  | revoked
  | expired
  | halted
deriving DecidableEq

structure EnterpriseAuthorityLease where
  id : Uuid
  principalId : String
  purpose : String
  grant : AuthorityGrant
  authorityRevision : Nat
  parentLeaseId : Option Uuid
  issuedAt : Instant
  expiresAt : Instant
  state : EnterpriseAuthorityLeaseState
  revokedAt : Option Instant
  revocationReason : Option String
deriving DecidableEq

structure AuthorityLeaseStateFile where
  emergencyHalt : Bool
  emergencyReason : Option String
  leases : List EnterpriseAuthorityLease

def maxBytes : Nat := 8 * 1024 * 1024
def maxTtlMs : Nat := 24 * 60 * 60000

-- ===== file

def EnterpriseAuthorityLeaseState.text : EnterpriseAuthorityLeaseState → String
  | .active => "ACTIVE"
  | .revoked => "REVOKED"
  | .expired => "EXPIRED"
  | .halted => "HALTED"

def grantJson (grant : AuthorityGrant) : Json :=
  .obj ([("capabilities", .arr (grant.capabilities.map .str)),
    ("resourcePrefixes", .arr (grant.resourcePrefixes.map .str)),
    ("maxRisk", .str (grant.maxRisk.text))]
    ++ (grant.expiresAt.join.map fun at' => ("expiresAt", .str at'.isoText)).toList)

/-- What the withdrawal of a lease adds to it. -/
def withdrawalJson (revokedAt : Option Instant) (revocationReason : Option String) : JsonObject :=
  (revokedAt.map fun at' => ("revokedAt", .str at'.isoText)).toList
    ++ (revocationReason.map fun reason => ("revocationReason", .str reason)).toList

def leaseJson (lease : EnterpriseAuthorityLease) : Json :=
  .obj (([("id", .str lease.id.val), ("principalId", .str lease.principalId),
    ("purpose", .str lease.purpose), ("grant", grantJson lease.grant),
    ("authorityRevision", .num (toString lease.authorityRevision))]
    ++ (lease.parentLeaseId.map fun id => ("parentLeaseId", .str id.val)).toList
    ++ [("issuedAt", .str lease.issuedAt.isoText), ("expiresAt", .str lease.expiresAt.isoText),
      ("state", .str lease.state.text)])
    ++ withdrawalJson lease.revokedAt lease.revocationReason)

/-- The fields of a state before its leases. -/
def headJson (emergencyHalt : Bool) (emergencyReason : Option String) : JsonObject :=
  [("version", .num "1"), ("emergencyHalt", .bool emergencyHalt)]
    ++ (emergencyReason.map fun reason => ("emergencyReason", .str reason)).toList

/-- The length of `JSON.stringify(state, null, 2)`. -/
def fileBytes (state : AuthorityLeaseStateFile) : Nat :=
  Json.indentedBytes 0 (.obj (headJson state.emergencyHalt state.emergencyReason
    ++ [("leases", .arr (state.leases.map leaseJson))]))

-- ===== validators

variable {α : Type}

def corrupt (message : String) : Result α :=
  fail .enterpriseAuthorityLeaseCorrupt message

def corruptIf (bad : Prop) [Decidable bad] (message : String) : Result Unit :=
  rejectIf bad .enterpriseAuthorityLeaseCorrupt message

/-- `!v.trim() || Buffer.byteLength(v, 'utf8') > max || v.includes('\0')`. -/
def unfit (v : String) (max : Nat) : Prop :=
  v.toList.all isBlank = true ∨ max < v.utf8ByteSize ∨ includesChar v '\x00' = true

instance (v : String) (max : Nat) : Decidable (unfit v max) :=
  inferInstanceAs (Decidable (_ ∨ _ ∨ _))

def boundedId (v label : String) : Result String := do
  rejectIf (¬ (1 ≤ v.toList.length ∧ v.toList.length ≤ 256
      ∧ v.toList.all (fun c => isIdChar c || c == '/') = true))
    .enterpriseAuthorityLeaseInvalid s!"{label} is invalid."
  .ok v

def boundedText (v : String) (max : Nat) (label : String) : Result String := do
  rejectIf (unfit v max) .enterpriseAuthorityLeaseInvalid s!"{label} is invalid."
  .ok v

def stateText (v : String) (max : Nat) (label : String) : Result String := do
  corruptIf (unfit v max) s!"{label} is invalid."
  .ok v

def boundedInteger (v : Number) (min max : Nat) (label : String) : Result Nat :=
  match v.safeFrom? min with
  | some n => do
    rejectIf (max < n) .enterpriseAuthorityLeaseInvalid s!"{label} is invalid."
    .ok n
  | none => fail .enterpriseAuthorityLeaseInvalid s!"{label} is invalid."

def uuid (v label : String) : Result Uuid :=
  match uuid? v with
  | some id => .ok id
  | none => fail .enterpriseAuthorityLeaseInvalid s!"{label} must be UUID."

-- ===== validation

/-- `try { … } catch { throw corrupt(message) }`. -/
def orCorrupt (attempt : Result α) (message : String) : Result α :=
  match attempt with
  | .ok value => .ok value
  | .error _ => corrupt message

/-- The loop of `validateState` over one lease; `ids` are those before it. -/
def checkLease (ids : List Uuid) (raw : EnterpriseAuthorityLease) :
    Result EnterpriseAuthorityLease := do
  let principalId ← boundedId raw.principalId "principalId"
  let purpose ← boundedText raw.purpose 2048 "purpose"
  let authorityRevision ←
    boundedInteger (.int raw.authorityRevision) 1 maxSafeInteger "authorityRevision"
  corruptIf (raw.id ∈ ids) "Lease IDs must be unique."
  corruptIf (raw.expiresAt.val ≤ raw.issuedAt.val) "Lease expiry must be after issuance."
  let grant ← orCorrupt (validateAuthorityGrant raw.grant) "Lease grant is invalid."
  corruptIf (grant.expiresAt ≠ some (some raw.expiresAt))
    "Lease grant expiry must match lease expiry."
  let revocationReason ← raw.revocationReason.mapM (stateText · 2048 "revocationReason")
  corruptIf (∃ at' ∈ raw.revokedAt, at'.val < raw.issuedAt.val)
    "Lease revocation predates issuance."
  corruptIf ((raw.state = .revoked ∨ raw.state = .halted)
      ∧ (raw.revokedAt = none ∨ revocationReason = none))
    "Revoked or halted lease requires revocation metadata."
  .ok { raw with principalId, purpose, authorityRevision, grant, revocationReason }

def checkLeases (ids : List Uuid) :
    List EnterpriseAuthorityLease → Result (List EnterpriseAuthorityLease)
  | [] => .ok []
  | raw :: rest => do
    let lease ← checkLease ids raw
    let leases ← checkLeases (raw.id :: ids) rest
    .ok (lease :: leases)

/-- `byId.get(id)`. -/
def byId (leases : List EnterpriseAuthorityLease) (id : Uuid) : Option EnterpriseAuthorityLease :=
  leases.find? fun lease => lease.id == id

def checkParent (leases : List EnterpriseAuthorityLease) (lease : EnterpriseAuthorityLease) :
    Result Unit :=
  match lease.parentLeaseId with
  | none => .ok ()
  | some parentLeaseId =>
    match byId leases parentLeaseId with
    | none => corrupt "Parent authority lease is missing."
    | some parent => do
      corruptIf (parent.id = lease.id) "Authority lease cannot parent itself."
      corruptIf (parent.purpose ≠ lease.purpose)
        "Child authority lease purpose differs from its parent."
      corruptIf (parent.authorityRevision ≠ lease.authorityRevision)
        "Child authority revision differs from its parent."
      corruptIf (lease.issuedAt.val < parent.issuedAt.val
          ∨ parent.expiresAt.val ≤ lease.issuedAt.val)
        "Child authority lease issuance falls outside its parent lifetime."
      orCorrupt (assertAttenuates parent.grant lease.grant "persisted authority lease")
        "Persisted child authority lease expands its parent authority."

/-- The inner loop of `assertParentAcyclic`; it answers the path. A path
of more leases than there are meets one twice, so the budget is never
what stops it. -/
def climb (leases : List EnterpriseAuthorityLease) (completed : List Uuid) :
    Nat → List Uuid → EnterpriseAuthorityLease → Result (List Uuid)
  | 0, _, _ => corrupt "Authority lease parent chain contains a cycle."
  | budget + 1, path, current => do
    if current.id ∈ completed then .ok path
    else
      corruptIf (current.id ∈ path) "Authority lease parent chain contains a cycle."
      match current.parentLeaseId with
      | none => .ok (current.id :: path)
      | some parentLeaseId =>
        match byId leases parentLeaseId with
        | none => corrupt "Parent authority lease is missing."
        | some parent => climb leases completed budget (current.id :: path) parent

/-- One lease of `assertParentAcyclic`. -/
def complete (leases : List EnterpriseAuthorityLease) (completed : List Uuid)
    (lease : EnterpriseAuthorityLease) : Result (List Uuid) := do
  let path ← climb leases completed (leases.length + 1) [] lease
  .ok (path ++ completed)

def assertParentAcyclic (leases : List EnterpriseAuthorityLease) : Result Unit := do
  let _ ← leases.foldlM (complete leases) []
  .ok ()

def validateState (value : AuthorityLeaseStateFile) :
    Result AuthorityLeaseStateFile := do
  corruptIf (100000 < value.leases.length) "State shape is invalid."
  corruptIf (∃ reason ∈ value.emergencyReason, unfit reason 2048)
    "Emergency halt reason is invalid."
  let leases ← checkLeases [] value.leases
  leases.forM (checkParent leases)
  assertParentAcyclic leases
  .ok { value with leases }

-- ===== authority

/-- `expire(state, now)`, of one lease. -/
def expireLease (now : Instant) (lease : EnterpriseAuthorityLease) : EnterpriseAuthorityLease :=
  if lease.state = .active ∧ lease.expiresAt.val ≤ now.val then { lease with state := .expired }
  else lease

def expire (state : AuthorityLeaseStateFile) (now : Instant) : AuthorityLeaseStateFile :=
  { state with leases := state.leases.map (expireLease now) }

/-- The loop of `assertLeaseChainActive`; a chain of more leases than there
are meets one twice, so the budget is never what stops it. -/
def chainActive (leases : List EnterpriseAuthorityLease) :
    Nat → List Uuid → EnterpriseAuthorityLease → Result Unit
  | 0, _, _ => corrupt "Authority lease parent chain contains a cycle."
  | budget + 1, seen, current =>
    match current.parentLeaseId with
    | none => .ok ()
    | some parentLeaseId => do
      corruptIf (parentLeaseId ∈ seen) "Authority lease parent chain contains a cycle."
      match (byId leases parentLeaseId).filter (·.state = .active) with
      | none =>
        fail .enterpriseParentLeaseInvalid "Authority lease source is no longer active."
      | some parent => do
        corruptIf (parent.purpose ≠ current.purpose)
          "Authority lease parent purpose mismatch."
        rejectIf (parent.authorityRevision ≠ current.authorityRevision)
          .enterpriseAuthorityStale "Authority lease source revision changed."
        chainActive leases budget (parentLeaseId :: seen) parent

def assertLeaseChainActive (state : AuthorityLeaseStateFile) (lease : EnterpriseAuthorityLease) :
    Result Unit :=
  chainActive state.leases (state.leases.length + 1) [lease.id] lease

def withdraw (state : EnterpriseAuthorityLeaseState) (revokedAt : Instant) (reason : String)
    (lease : EnterpriseAuthorityLease) : EnterpriseAuthorityLease :=
  { lease with state, revokedAt := some revokedAt, revocationReason := some reason }

/-- The ids whose children `revokeDescendants` comes by, the revoked lease
first; each is worked off once. -/
def lineage (leases : List EnterpriseAuthorityLease) (parentId : Uuid) : List Uuid :=
  spread (·.id) (·.parentLeaseId) leases (leases.length + 1) [parentId] []

def revokeDescendants (leases : List EnterpriseAuthorityLease) (parentId : Uuid)
    (revokedAt : Instant) (reason : String) : List EnterpriseAuthorityLease :=
  leases.map fun lease =>
    if (∃ p ∈ lease.parentLeaseId, p ∈ lineage leases parentId) ∧ lease.state = .active then
      withdraw .revoked revokedAt reason lease
    else lease

-- ===== operations

/-- What an operation reads of the platform: the clock, twice in
`revoke`, the UUID it may draw, and what becomes of its write. -/
structure Environment where
  now : Instant
  next : Instant
  randomUUID : Uuid
  disk : Disk

/-- What `#write(state)` asks of a state. -/
def accept (state : AuthorityLeaseStateFile) : Result Unit := do
  let _ ← validateState state
  corruptIf (maxBytes < fileBytes state)
    "Enterprise authority lease state is invalid. Serialized state exceeds the bounded size."

def commit (disk : Disk) (stored : AuthorityLeaseStateFile)
    (outcome : Result (AuthorityLeaseStateFile × α)) :
    AuthorityLeaseStateFile × Result α :=
  replaceState accept
    { code := .enterpriseAuthorityLeaseCorrupt
      message := "Enterprise authority lease state is invalid." }
    disk stored outcome

structure IssueInput where
  principalId : String
  purpose : String
  grant : AuthorityGrant
  authorityRevision : Number
  ttlMs : Number
  parentLeaseId : Option String

/-- The checks of `issue` on the parent it names. -/
def checkSource (state : AuthorityLeaseStateFile) (now : Instant) (purpose : String)
    (authorityRevision : Nat) (grant : AuthorityGrant) (parent : EnterpriseAuthorityLease) :
    Result Unit := do
  rejectIf (parent.state ≠ .active) .enterpriseParentLeaseInvalid
    "Parent authority lease is not active."
  rejectIf (parent.expiresAt.val ≤ now.val) .enterpriseParentLeaseExpired
    "Parent authority lease is expired."
  assertLeaseChainActive state parent
  rejectIf (parent.purpose ≠ purpose) .enterpriseParentLeasePurposeMismatch
    "Child authority lease must preserve the parent purpose."
  rejectIf (parent.authorityRevision ≠ authorityRevision) .enterpriseAuthorityStale
    "Child authority lease must preserve the parent authority revision."
  assertAttenuates parent.grant grant "authority lease"

/-- The parent `issue` is given: an empty text names none. -/
def sourceOf (state : AuthorityLeaseStateFile) (now : Instant) (purpose : String)
    (authorityRevision : Nat) (grant : AuthorityGrant) (parentLeaseId : Option String) :
    Result (Option Uuid) :=
  match parentLeaseId.filter (· ≠ "") with
  | none => .ok none
  | some text =>
    match state.leases.find? fun lease => lease.id.val == text with
    | none => fail .enterpriseParentLeaseInvalid "Parent authority lease is not active."
    | some parent => do
      checkSource state now purpose authorityRevision grant parent
      .ok (some parent.id)

section
variable (env : Environment) (stored : AuthorityLeaseStateFile)

def issued (input : IssueInput) :
    Result (AuthorityLeaseStateFile × EnterpriseAuthorityLease) := do
  let principalId ← boundedId input.principalId "principalId"
  let purpose ← boundedText input.purpose 2048 "purpose"
  let authorityRevision ←
    boundedInteger input.authorityRevision 1 maxSafeInteger "authorityRevision"
  let ttlMs ← boundedInteger input.ttlMs 1000 maxTtlMs "ttlMs"
  let state ← validateState stored
  let state := expire state env.now
  rejectIf (state.emergencyHalt = true) .enterpriseEmergencyHalted
    "Enterprise authority issuance is disabled by emergency halt."
  let expiresAt ← env.now.later ttlMs
  let requestedGrant ← validateAuthorityGrant input.grant
  let grant ← validateAuthorityGrant { requestedGrant with expiresAt := some (some expiresAt) }
  let parentLeaseId ←
    sourceOf state env.now purpose authorityRevision grant input.parentLeaseId
  let created : EnterpriseAuthorityLease :=
    { id := env.randomUUID, principalId, purpose, grant, authorityRevision, parentLeaseId
      issuedAt := env.now, expiresAt, state := .active, revokedAt := none
      revocationReason := none }
  .ok ({ state with leases := state.leases ++ [created] }, created)

def issue (input : IssueInput) :
    AuthorityLeaseStateFile × Result EnterpriseAuthorityLease :=
  commit env.disk stored (issued env stored input)

structure Expected where
  principalId : Option String := none
  purpose : Option String := none
  authorityRevision : Option Number := none

def assertActive (idInput : String) (expected : Expected) :
    Result EnterpriseAuthorityLease := do
  let state ← validateState stored
  let state := expire state env.now
  rejectIf (state.emergencyHalt = true) .enterpriseEmergencyHalted
    "Enterprise authority is disabled by emergency halt."
  let id ← uuid idInput "leaseId"
  match (byId state.leases id).filter (·.state = .active) with
  | none => fail .enterpriseAuthorityLeaseInactive "Enterprise authority lease is not active."
  | some lease => do
    assertLeaseChainActive state lease
    rejectIf (∃ p ∈ expected.principalId, lease.principalId ≠ p)
      .enterpriseAuthorityLeaseMismatch "Authority lease principal does not match."
    rejectIf (∃ p ∈ expected.purpose, lease.purpose ≠ p)
      .enterpriseAuthorityLeaseMismatch "Authority lease purpose does not match."
    rejectIf (∃ r ∈ expected.authorityRevision, Number.int lease.authorityRevision ≠ r)
      .enterpriseAuthorityStale "Authority revision changed after lease issuance."
    .ok lease

def revokeLease (leases : List EnterpriseAuthorityLease) (id : Uuid) (revokedAt : Instant)
    (reason : String) : List EnterpriseAuthorityLease :=
  revokeDescendants
    (leases.map fun lease =>
      if lease.id = id then withdraw .revoked revokedAt reason lease else lease)
    id revokedAt ("ancestor lease revoked: " ++ reason)

def revoked (idInput reasonInput : String) :
    Result (AuthorityLeaseStateFile × EnterpriseAuthorityLease) := do
  let id ← uuid idInput "leaseId"
  let reason ← boundedText reasonInput 2048 "reason"
  let state ← validateState stored
  let state := expire state env.now
  match byId state.leases id with
  | none =>
    fail .enterpriseAuthorityLeaseNotFound "Enterprise authority lease was not found."
  | some lease =>
    if lease.state = .active then
      .ok ({ state with leases := revokeLease state.leases id env.next reason },
        withdraw .revoked env.next reason lease)
    else .ok (state, lease)

def revoke (idInput reasonInput : String) :
    AuthorityLeaseStateFile × Result EnterpriseAuthorityLease :=
  commit env.disk stored (revoked env stored idInput reasonInput)

def halted (reasonInput : String) : Result (AuthorityLeaseStateFile × Unit) := do
  let reason ← boundedText reasonInput 2048 "reason"
  let state ← validateState stored
  .ok
    ({ emergencyHalt := true, emergencyReason := some reason
       leases := state.leases.map fun lease =>
         if lease.state = .active then withdraw .halted env.now reason lease else lease }, ())

def emergencyHalt (reasonInput : String) : AuthorityLeaseStateFile × Result Unit :=
  commit env.disk stored (halted env stored reasonInput)

def cleared : Result (AuthorityLeaseStateFile × Unit) := do
  let state ← validateState stored
  .ok ({ state with emergencyHalt := false, emergencyReason := none }, ())

def clearEmergencyHalt : AuthorityLeaseStateFile × Result Unit :=
  commit env.disk stored (cleared stored)

def list : Result (List EnterpriseAuthorityLease) := do
  let state ← validateState stored
  .ok (expire state env.now).leases

end

-- ===== runs

inductive Op
  | issue (input : IssueInput)
  | revoke (idInput reasonInput : String)
  | emergencyHalt (reasonInput : String)
  | clearEmergencyHalt
  | list
  | assertActive (idInput : String) (expected : Expected)

/-- An operation and what it reads of the platform. -/
structure Call where
  env : Environment
  op : Op

/-- A lease has come into the file, or a call has returned. -/
inductive Event
  | issued (id : Uuid)
  | revoked (id : Uuid)
  | halted
deriving DecidableEq

/-- The file, the last reading of the clock, and what has happened. -/
structure Machine where
  stored : AuthorityLeaseStateFile
  now : Instant
  log : List Event

def returned (event : α → Event) (answer : Result α) : List Event :=
  (answer.toOption.map event).toList

def gained (stored state : AuthorityLeaseStateFile) : List Event :=
  ((state.leases.map (·.id)).filter (· ∉ stored.leases.map (·.id))).map .issued

def Call.run (call : Call) (stored : AuthorityLeaseStateFile) :
    AuthorityLeaseStateFile × List Event :=
  match call.op with
  | .issue input =>
    let state := (issue call.env stored input).1
    (state, gained stored state)
  | .revoke idInput reasonInput =>
    let (state, answer) := revoke call.env stored idInput reasonInput
    (state, returned (fun lease => .revoked lease.id) answer)
  | .emergencyHalt reasonInput =>
    let (state, answer) := emergencyHalt call.env stored reasonInput
    (state, returned (fun _ => .halted) answer)
  | .clearEmergencyHalt => ((clearEmergencyHalt call.env stored).1, [])
  | .list => (stored, [])
  | .assertActive _ _ => (stored, [])

/-- A call, at a time no earlier than the last. -/
def step (m : Machine) (call : Call) : Option Machine :=
  if m.now.val ≤ call.env.now.val ∧ call.env.now.val ≤ call.env.next.val then
    let (stored, events) := call.run m.stored
    some { stored, now := call.env.next, log := m.log ++ events }
  else none

/-- No file yet. -/
def start (now : Instant) : Machine where
  stored := { emergencyHalt := false, emergencyReason := none, leases := [] }
  now := now
  log := []

end OperatorRuntime.Authority
