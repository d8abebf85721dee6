/-
The durable mission of `core/team-coordinator.ts`: its records, the
checks every write goes through, the dependency graph, and `submit`.

# What is left out

Events, titles and the times of creation and registration are written
and never read. Ids are the lower-case texts of the UUIDs `validUuid`
returns.

# Objects in arrays

The source changes an object it found in an array in place. Work items
have unique keys and resources too, so the change is the one to the
record with that key (`modifyItem`, `modifyResource`).

# Time

A time is the value of a clock reading; `Date.parse` inverts
`toISOString` on it. Every call of the clock is a reading of its own
(`Readings`).
-/
import OperatorRuntime.Journal.ActionTransitionJournal
import OperatorRuntime.Lib.Keyed

namespace OperatorRuntime.Team

-- ===== records

inductive TeamRole
  | supervisor
  | planner
  | coder
  | tester
  | browser
  | ui
  | verifier
  | general
deriving DecidableEq

inductive TeamMissionState
  | pending
  | running
  | paused
  | blocked
  | failed
  | cancelled
  | verified
deriving DecidableEq

inductive TeamWorkState
  | pending
  | leased
  | completed
  | failed
  | blocked
  | needsReconciliation
  | cancelled
deriving DecidableEq

structure TeamBudget where
  maxWorkers : Nat
  maxConcurrentLeases : Nat
  maxAttemptsPerWorkItem : Nat
  maxWallClockMs : Nat
  leaseMs : Nat

inductive TeamWorkerState
  | active
  | offline
  | revoked
deriving DecidableEq

structure TeamWorker where
  id : String
  role : TeamRole
  label : String
  capabilities : List String
  heartbeatAt : Instant
  state : TeamWorkerState

structure TeamLock where
  leaseId : String
  workerId : String
  workItemId : String
  expiresAt : Instant
deriving DecidableEq

structure TeamResource where
  key : String
  revision : Nat
  uncertain : Bool
  updatedAt : Instant
  lock : Option TeamLock

structure TeamLease where
  id : String
  workerId : String
  workItemId : String
  epoch : Nat
  acquiredAt : Instant
  heartbeatAt : Instant
  expiresAt : Instant
  baseResourceRevisions : List (String × Nat)

def TeamLease.lock (lease : TeamLease) : TeamLock :=
  { leaseId := lease.id, workerId := lease.workerId
    workItemId := lease.workItemId, expiresAt := lease.expiresAt }

structure TeamEvidence where
  kind : String
  status : EvidenceStatus
  message : String

structure TeamWorkResult where
  summary : String
  evidence : List TeamEvidence
  verificationPassed : Bool := false
  verificationDigest : Option Hex64 := none
  worldObservationDigest : Option Hex64 := none
  completedAt : Instant
  workerId : String

structure TeamFailure where
  code : String
  message : String
  at' : Instant

structure TeamWorkItem where
  id : String
  key : String
  role : TeamRole
  risk : ActionRisk
  priority : Int
  dependsOn : List String
  resources : List String
  allowedCapabilities : List String
  state : TeamWorkState
  attempts : Nat
  lease : Option TeamLease := none
  result : Option TeamWorkResult := none
  failure : Option TeamFailure := none

structure TeamBlackboardEntry where
  key : String
  revision : Nat
  value : Json
  workerId : String

inductive ReceiptState
  | dispatching
  | completed
  | uncertain
deriving DecidableEq

structure TeamActionReceipt where
  missionId : String
  workItemId : String
  workerId : String
  leaseId : String
  actionId : String
  actionDigest : Hex64
  capability : String
  risk : ActionRisk
  state : ReceiptState
  verificationDigest : Option Hex64 := none
  result : Option ActionResult := none
  createdAt : Instant
  updatedAt : Instant

structure TeamMission where
  id : Uuid
  objective : String
  intent : Option IntentBinding
  state : TeamMissionState
  epoch : Nat
  budget : TeamBudget
  workers : List TeamWorker
  resources : List TeamResource
  workItems : List TeamWorkItem
  blackboard : List TeamBlackboardEntry
  actionReceipts : List TeamActionReceipt
  deadlineAt : Option Instant := none

def maxMissionWorkItems : Nat := 1000
def maxMissionWorkers : Nat := 64
def maxMissionResources : Nat := 5000
def maxBlackboardEntries : Nat := 2000
def maxActionReceipts : Nat := 4000

structure VerificationState where
  missionId : String
  epoch : Nat
  state : TeamMissionState
  intent : Option IntentBinding
  verifierWorkItemId : String
  workItems : List TeamWorkItem
  resources : List TeamResource
  actionReceipts : List TeamActionReceipt

/-- The coordinator's options and the platform. `hashState` is SHA-256 of
canonical JSON, `fits` and `valueFits` the size limits of a mission file
and of a blackboard value. -/
structure TeamEnv where
  requireKernelVerification : Bool
  hasActionJournal : Bool
  hasAgentKernel : Bool
  win32 : Bool
  sha256 : Sha256
  localeCompare : String → String → Int
  trim : String → String
  lowerCase : String → String
  hashState : VerificationState → Hex64
  fits : TeamMission → Bool
  valueFits : Json → Bool

/-- The readings of the clock inside one call: those the code compares or
stores by themselves, in order, and the one that stamps each resource
whose lease expires. -/
structure Readings where
  now : Nat → Instant
  stamp : String → Instant

-- ===== validators

def boundedText (input : String) (max : Nat) (label : String) : Result String := do
  rejectIf (jsLength input < 1 ∨ max < jsLength input ∨ includesChar input '\x00' = true)
    .teamInputInvalid s!"{label} is invalid."
  .ok input

/-- `/^[A-Za-z0-9][A-Za-z0-9._:-]{0,127}$/`. -/
def isBoundedKey (text : String) : Bool :=
  match text.toList with
  | [] => false
  | c :: cs =>
    isAlnum c && cs.length ≤ 127 && cs.all fun c =>
      isAlnum c || c == '.' || c == '_' || c == ':' || c == '-'

def boundedKey (input label : String) : Result String := do
  let value ← boundedText input 128 label
  rejectIf (isBoundedKey value = false)
    .teamInputInvalid s!"{label} has invalid characters."
  .ok value

def validUuid (input label : String) : Result Uuid :=
  let value := String.ofList (input.toList.map Char.toLower)
  if h : matchesClasses uuidClasses value.toList = true then .ok ⟨value, h⟩
  else fail .teamInputInvalid s!"{label} must be a UUID."

/-- `boundedInteger`, on a safe integer. -/
def boundedInteger (value min max : Int) (label : String) : Result Int := do
  rejectIf (value < min ∨ max < value) .teamInputInvalid s!"{label} is invalid."
  .ok value

def uniqueStrings (input : List String) (maxItems maxLength : Nat)
    (label : String) : Result (List String) := do
  rejectIf (maxItems < input.length)
    .teamInputInvalid s!"{label} has too many entries."
  let values ← input.zipIdx.mapM fun (value, index) =>
    boundedText value maxLength s!"{label}[{index}]"
  rejectIf (¬ values.Nodup) .teamInputInvalid s!"{label} contains duplicates."
  .ok values

/-- `text.includes('..')`. -/
def twoDots : List Char → Bool
  | '.' :: '.' :: _ => true
  | _ :: cs => twoDots cs
  | [] => false

def normalizeResourceKey (env : TeamEnv) (value : String) : Result String := do
  let key := String.ofList ((env.trim value).toList.map fun c =>
    if c == '\\' then '/' else c)
  rejectIf (key = "" ∨ 1024 < jsLength key ∨ includesChar key '\x00' = true
      ∨ twoDots key.toList = true)
    .teamInputInvalid "Resource key is invalid."
  .ok (if env.win32 then env.lowerCase key else key)

def validateEvidence (input : List TeamEvidence) : Result (List TeamEvidence) := do
  rejectIf (1000 < input.length)
    .teamInputInvalid "Evidence is limited to 1000 entries."
  input.zipIdx.mapM fun (entry, index) => do
    let kind ← boundedKey entry.kind s!"evidence[{index}].kind"
    let message ←
      boundedText entry.message (64 * 1024) s!"evidence[{index}].message"
    .ok { kind, status := entry.status, message }

structure TeamBudgetInput where
  maxWorkers : Option Int := none
  maxConcurrentLeases : Option Int := none
  maxAttemptsPerWorkItem : Option Int := none
  maxWallClockMs : Option Int := none
  leaseMs : Option Int := none

def normalizeBudget (input : TeamBudgetInput) : Result TeamBudget := do
  let maxWorkers ←
    boundedInteger (input.maxWorkers.getD 16) 1 maxMissionWorkers "maxWorkers"
  let maxConcurrentLeases ←
    boundedInteger (input.maxConcurrentLeases.getD 8) 1 32 "maxConcurrentLeases"
  let maxAttemptsPerWorkItem ←
    boundedInteger (input.maxAttemptsPerWorkItem.getD 3) 1 10
      "maxAttemptsPerWorkItem"
  let maxWallClockMs ←
    boundedInteger (input.maxWallClockMs.getD (4 * 60 * 60000)) 60000
      (24 * 60 * 60000) "maxWallClockMs"
  let leaseMs ←
    boundedInteger (input.leaseMs.getD (5 * 60000)) 10000 (30 * 60000) "leaseMs"
  .ok
    { maxWorkers := maxWorkers.toNat
      maxConcurrentLeases := maxConcurrentLeases.toNat
      maxAttemptsPerWorkItem := maxAttemptsPerWorkItem.toNat
      maxWallClockMs := maxWallClockMs.toNat
      leaseMs := leaseMs.toNat }

/-- `validateMission`, as far as a mission of this type can fail it. -/
def validateMission (env : TeamEnv) (mission : TeamMission) : Result Unit := do
  let _ ← boundedText mission.objective 16384 "mission objective"
  match mission.intent with
  | none => pure ()
  | some intent => discard (Journal.validIntentBinding intent)
  let _ ← boundedInteger mission.epoch 1 maxSafeInteger "mission epoch"
  rejectIf (maxMissionWorkers < mission.workers.length)
    .teamStateCorrupt "Mission workers are invalid."
  rejectIf (maxMissionResources < mission.resources.length)
    .teamStateCorrupt "Mission resources are invalid."
  rejectIf (maxMissionWorkItems < mission.workItems.length)
    .teamStateCorrupt "Mission work items are invalid."
  rejectIf (maxBlackboardEntries < mission.blackboard.length)
    .teamStateCorrupt "Mission blackboard is invalid."
  mission.blackboard.forM fun entry => do
    let _ ← boundedKey entry.key "blackboard key"
    let _ ← boundedInteger entry.revision 1 maxSafeInteger "blackboard revision"
    let _ ← validUuid entry.workerId "blackboard workerId"
    rejectIf (env.valueFits entry.value = false)
      .teamInputInvalid "blackboard value exceeds the bounded JSON size."
  rejectIf (maxActionReceipts < mission.actionReceipts.length)
    .teamStateCorrupt "Mission action receipts are invalid."

-- ===== dependencies

/-- `byKey.get(key)?.dependsOn ?? []`. -/
def dependenciesOf (items : List TeamWorkItem) (key : String) : List String :=
  ((items.find? fun item => item.key == key).map TeamWorkItem.dependsOn).getD []

/-- `visit` of `assertAcyclic`: the visited keys, or `none` for a cycle.
The path in `visiting` has no repetition, so the number of items bounds
the depth. -/
def visitAcyclic (items : List TeamWorkItem) :
    Nat → List String → List String → String → Option (List String)
  | 0, _, _, _ => none
  | fuel + 1, visiting, visited, key =>
    if visited.contains key then some visited
    else if visiting.contains key then none
    else
      ((dependenciesOf items key).foldlM
        (visitAcyclic items fuel (key :: visiting)) visited).map (key :: ·)

def assertAcyclic (items : List TeamWorkItem) : Result Unit :=
  rejectIf
    (((items.map TeamWorkItem.key).foldlM
      (visitAcyclic items (items.length + 1) []) []).isNone = true)
    .teamInputInvalid "Work dependency graph contains a cycle."

/-- `visit` of `transitivelyDependsOn`: whether the target was reached,
and the keys seen. Every deeper call has a new key, so the number of
items bounds the depth. -/
def visitDepends (items : List TeamWorkItem) (target : String) :
    Nat → Bool × List String → String → Bool × List String
  | 0, (_, seen), _ => (false, seen)
  | fuel + 1, (_, seen), key =>
    if seen.contains key then (false, seen)
    else
      (dependenciesOf items key).foldl
        (fun found dependency =>
          if found.1 then found
          else if dependency == target then (true, found.2)
          else visitDepends items target fuel found dependency)
        (false, key :: seen)

def transitivelyDependsOn (sourceKey targetKey : String) (items : List TeamWorkItem) : Bool :=
  (visitDepends items targetKey (items.length + 1) (false, []) sourceKey).1

-- ===== lookups

def requireWorker (mission : TeamMission) (workerIdInput : String) :
    Result TeamWorker := do
  let workerId ← validUuid workerIdInput "workerId"
  match mission.workers.find? fun worker => worker.id == workerId.val with
  | none =>
    fail .teamWorkerNotFound "Worker is not registered with this mission."
  | some worker =>
    if worker.state = .revoked then
      fail .teamWorkerRevoked "Worker is revoked."
    else .ok worker

def requireWorkItem (mission : TeamMission) (idInput : String) :
    Result TeamWorkItem := do
  let id ← validUuid idInput "workItemId"
  match mission.workItems.find? fun item => item.id == id.val with
  | none => fail .teamWorkNotFound "Work item was not found."
  | some item => .ok item

def requireLease (item : TeamWorkItem) (workerId leaseIdInput : String)
    (epoch : Nat) (now : Instant) : Result TeamLease := do
  let leaseId ← validUuid leaseIdInput "leaseId"
  match item.lease with
  | none => fail .teamLeaseLost "Work lease is no longer owned by this worker."
  | some lease =>
    rejectIf (item.state ≠ .leased ∨ lease.id ≠ leaseId.val
        ∨ lease.workerId ≠ workerId ∨ lease.epoch ≠ epoch)
      .teamLeaseLost "Work lease is no longer owned by this worker."
    rejectIf (lease.expiresAt.val ≤ now.val)
      .teamLeaseExpired "Work lease expired before completion."
    .ok lease

def requireResource (mission : TeamMission) (key : String) : Result TeamResource :=
  match mission.resources.find? fun resource => resource.key == key with
  | none =>
    fail .teamResourceNotFound
      s!"Resource {key} is not declared by this mission."
  | some resource => .ok resource

-- ===== changes

def TeamMission.modifyItem (mission : TeamMission) (key : String)
    (f : TeamWorkItem → TeamWorkItem) : TeamMission :=
  { mission with
    workItems := mission.workItems.map fun item =>
      if item.key = key then f item else item }

def TeamMission.modifyResource (mission : TeamMission) (key : String)
    (f : TeamResource → TeamResource) : TeamMission :=
  { mission with
    resources := mission.resources.map fun resource =>
      if resource.key = key then f resource else resource }

def TeamMission.modifyWorker (mission : TeamMission) (id : String)
    (f : TeamWorker → TeamWorker) : TeamMission :=
  { mission with
    workers := Lib.updateFirst (fun worker => worker.id == id) f
      mission.workers }

/-- `for (const resourceKey of keys)`, each required and changed. -/
def TeamMission.forResources (f : TeamResource → TeamResource) :
    List String → TeamMission → Result TeamMission
  | [], mission => .ok mission
  | key :: keys, mission => do
    let _ ← requireResource mission key
    (mission.modifyResource key f).forResources f keys

-- ===== submit

structure TeamWorkInput where
  key : String
  title : String
  role : TeamRole
  risk : Option ActionRisk := none
  priority : Option Int := none
  dependsOn : List String := []
  resources : List String := []
  allowedCapabilities : List String := []

/-- `stableWorkItemId`: a version-5 UUID from the first sixteen bytes of
the digest. -/
def stableWorkItemId (env : TeamEnv) (missionId key : String) : String :=
  let hex := (env.sha256 (missionId ++ "\x00" ++ key)).val.toList
  let variant := Json.hexDigit
    (8 + ((hex.getD 16 '0').toNat - (if (hex.getD 16 '0').isDigit then 48 else 87))
      % 4)
  String.ofList (hex.take 8 ++ ['-'] ++ (hex.drop 8).take 4 ++ ['-', '5']
    ++ (hex.drop 13).take 3 ++ ['-', variant] ++ (hex.drop 17).take 3 ++ ['-']
    ++ (hex.drop 20).take 12)

def submitItem (env : TeamEnv) (missionId : String) (seen : List TeamWorkItem)
    (input : TeamWorkInput) : Result TeamWorkItem := do
  let index := seen.length
  let key ← boundedKey input.key s!"workItems[{index}].key"
  rejectIf (key ∈ seen.map TeamWorkItem.key)
    .teamInputInvalid s!"Duplicate work item key {key}."
  let given ← uniqueStrings input.resources maxMissionResources 1024
    s!"workItems[{index}].resources"
  let resources ← given.mapM (normalizeResourceKey env)
  let _ ← boundedText input.title 16384 s!"workItems[{index}].title"
  let priority ← boundedInteger (input.priority.getD 0) (-1000) 1000
    s!"workItems[{index}].priority"
  let dependsOn ← uniqueStrings input.dependsOn maxMissionWorkItems 128
    s!"workItems[{index}].dependsOn"
  let allowedCapabilities ← uniqueStrings input.allowedCapabilities 200 256
    s!"workItems[{index}].allowedCapabilities"
  .ok
    { id := stableWorkItemId env missionId key, key, role := input.role
      risk := input.risk.getD .read, priority, dependsOn, resources
      allowedCapabilities := allowedCapabilities.insertionSort
        fun a b => Json.keyLe a b
      state := .pending, attempts := 0 }

/-- `input.workItems.map(..)`. -/
def submitItems (env : TeamEnv) (missionId : String) : List TeamWorkItem → List TeamWorkInput →
      Result (List TeamWorkItem)
  | items, [] => .ok items
  | items, input :: inputs => do
    let item ← submitItem env missionId items input
    submitItems env missionId (items ++ [item]) inputs

/-- The non-verifier keys all lie behind this item. -/
def coversMission (items : List TeamWorkItem) (item : TeamWorkItem) : Bool :=
  (items.filter fun other => other.role ≠ .verifier).all fun other =>
    transitivelyDependsOn item.key other.key items

structure SubmitInput where
  missionId : String
  objective : String
  workItems : List TeamWorkInput
  budget : TeamBudgetInput := {}
  intent : Option IntentBinding := none

abbrev IntentAnswer := Result Unit

/-- The binding of a mission: a valid one the registry knows. -/
def submitIntent (answer : IntentAnswer) :
    Option IntentBinding → Result (Option IntentBinding)
  | none => .ok none
  | some intent => do
    let intent ← Journal.validIntentBinding intent
    answer
    .ok (some intent)

/-- `submit`; a missing mission id is a drawn one. -/
def submit (env : TeamEnv) (input : SubmitInput) (intentAnswer : IntentAnswer)
    (now : Instant) : Result TeamMission := do
  let objective ← boundedText input.objective 16384 "objective"
  let intent ← submitIntent intentAnswer input.intent
  rejectIf (input.workItems.length < 1 ∨ maxMissionWorkItems < input.workItems.length)
    .teamInputInvalid "workItems must contain 1-1000 entries."
  let missionId ← validUuid input.missionId "missionId"
  let workItems ← submitItems env missionId.val [] input.workItems
  let keys := workItems.map TeamWorkItem.key
  workItems.forM fun item => item.dependsOn.forM fun dependency =>
    rejectIf (dependency ∉ keys ∨ dependency = item.key)
      .teamInputInvalid
      s!"Work item {item.key} has invalid dependency {dependency}."
  assertAcyclic workItems
  rejectIf ((workItems.any fun item => item.role == .verifier) = false)
    .teamVerifierRequired
    "Stage-4 missions require at least one verifier work item."
  rejectIf ((workItems.any fun item =>
      item.role == .verifier && coversMission workItems item) = false)
    .teamVerifierCoverageInvalid
    "At least one verifier must transitively depend on every non-verifier work item."
  let budget ← normalizeBudget input.budget
  let resources := ((workItems.flatMap TeamWorkItem.resources).dedup).insertionSort
    fun a b => Json.keyLe a b
  let mission : TeamMission :=
    { id := missionId, objective, intent, state := .pending, epoch := 1, budget
      workers := []
      resources := resources.map fun key =>
        { key, revision := 0, uncertain := false, updatedAt := now, lock := none }
      workItems, blackboard := [], actionReceipts := [] }
  validateMission env mission
  rejectIf (env.fits mission = false)
    .teamStateCorrupt "Stored team mission is invalid."
  .ok mission

end OperatorRuntime.Team
