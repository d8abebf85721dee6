/-
`core/developer-runtime-ownership.ts`: which process of a developer
session owns which ports, in a file that outlives the provider. Every
operation reads the file, changes its records in memory, validates them
and writes the file, one operation at a time.

Process sessions and times are kept as what their checks make of them.
The observation of a process is made outside the program; `inspect` is
what `inspectProcessInstance` answers for it.
-/
import Mathlib.Data.List.Sort
import OperatorRuntime.ProcessInstance
import OperatorRuntime.StateFile

namespace OperatorRuntime.DeveloperRuntime

-- ===== records

inductive DeveloperRuntimeOwnershipPhase
  | launchIntent
  | running
  | terminationPending
  | exited
  | terminated
  | ambiguous
deriving DecidableEq

/-- `[0-9a-f]{8}-[0-9a-f]{4}-4[0-9a-f]{3}-[89ab][0-9a-f]{3}-[0-9a-f]{12}`. -/
def uuidV4Classes : List (Char → Bool) :=
  List.replicate 8 isHex ++ [isDash] ++ List.replicate 4 isHex ++ [isDash]
    ++ [fun c => c == '4'] ++ List.replicate 3 isHex ++ [isDash]
    ++ [fun c => c == '8' || c == '9' || c == 'a' || c == 'b']
    ++ List.replicate 3 isHex ++ [isDash] ++ List.replicate 12 isHex

/-- A lower-case UUID of version 4. -/
def SessionUuid := { text : String // matchesClasses uuidV4Classes text.toList = true }
deriving DecidableEq

structure DeveloperRuntimeOwnershipRecord where
  processSessionId : SessionUuid
  developerSessionId : String
  phase : DeveloperRuntimeOwnershipPhase
  launcherProcessInstance : ProcessInstanceIdentity
  processInstance : Option ProcessInstanceIdentity
  ports : List Nat
  createdAt : Instant
  updatedAt : Instant
deriving DecidableEq

/-- The records of the file. -/
abbrev OwnershipState := List DeveloperRuntimeOwnershipRecord

def maxBytes : Nat := 8 * 1024 * 1024
def maxRecords : Nat := 20000
def maxPortsPerSession : Nat := 128

/-- `ACTIVE_PHASES.has(phase)`. -/
def DeveloperRuntimeOwnershipPhase.active : DeveloperRuntimeOwnershipPhase → Bool
  | .launchIntent => true
  | .running => true
  | .terminationPending => true
  | .ambiguous => true
  | .exited => false
  | .terminated => false

/-- The phases `validateRecord` wants a process identity for. -/
def DeveloperRuntimeOwnershipPhase.committed : DeveloperRuntimeOwnershipPhase → Bool
  | .running => true
  | .terminationPending => true
  | .exited => true
  | .terminated => true
  | .launchIntent => false
  | .ambiguous => false

-- ===== file

def DeveloperRuntimeOwnershipPhase.text : DeveloperRuntimeOwnershipPhase → String
  | .launchIntent => "LAUNCH_INTENT"
  | .running => "RUNNING"
  | .terminationPending => "TERMINATION_PENDING"
  | .exited => "EXITED"
  | .terminated => "TERMINATED"
  | .ambiguous => "AMBIGUOUS"

def identityJson (identity : ProcessInstanceIdentity) : Json :=
  .obj [("pid", .num (toString identity.pid)), ("started", .str identity.started)]

def recordJson (record : DeveloperRuntimeOwnershipRecord) : Json :=
  .obj ([("schemaVersion", .num "1"), ("processSessionId", .str record.processSessionId.val),
    ("developerSessionId", .str record.developerSessionId), ("phase", .str record.phase.text),
    ("launcherProcessInstance", identityJson record.launcherProcessInstance)]
    ++ (record.processInstance.map fun identity =>
      ("processInstance", identityJson identity)).toList
    ++ [("ports", .arr (record.ports.map fun port => .num (toString port))),
      ("createdAt", .str record.createdAt.isoText), ("updatedAt", .str record.updatedAt.isoText)])

/-- The length of `JSON.stringify(state, null, 2)`. -/
def fileBytes (records : OwnershipState) : Nat :=
  Json.indentedBytes 0 (.obj [("version", .num "1"), ("records", .arr (records.map recordJson))])

-- ===== validators

variable {α : Type}

def corruptIf (bad : Prop) [Decidable bad] (message : String) : Result Unit :=
  rejectIf bad .developerRuntimeOwnershipCorrupt message

def normalizePort (value : Number) : Result Nat :=
  match (value.safeFrom? 1).filter (· ≤ 65535) with
  | some port => .ok port
  | none => fail .developerRuntimePortInvalid "Declared ports must be integers from 1 to 65535."

def normalizePorts (input : List Number) : Result (List Nat) := do
  rejectIf (maxPortsPerSession < input.length) .developerRuntimePortInvalid
    "Declared port list is invalid."
  let ports ← input.mapM normalizePort
  .ok (ports.dedup.insertionSort (· ≤ ·))

def validUuid (input label : String) : Result SessionUuid :=
  let value := input.map Char.toLower
  if h : matchesClasses uuidV4Classes value.toList = true then .ok ⟨value, h⟩
  else fail .developerRuntimeOwnershipInputInvalid (label ++ " must be a UUID.")

/-- `[A-Za-z0-9._:@/+\-=]`. -/
def isIdChar (c : Char) : Bool :=
  isAlnum c || c == '.' || c == '_' || c == ':' || c == '@' || c == '/' || c == '+' || c == '-'
    || c == '='

def validId (input label : String) : Result String := do
  rejectIf (¬ (1 ≤ input.toList.length ∧ input.toList.length ≤ 512
      ∧ input.toList.all isIdChar = true))
    .developerRuntimeOwnershipInputInvalid (label ++ " is invalid.")
  .ok input

/-- `validProcessInstance(input)`, thrown upon where it is null. -/
def requireIdentity (input : ProcessInstanceIdentity) :
    Result ProcessInstanceIdentity := do
  rejectIf (validProcessInstance input = false) .developerRuntimeProcessIdentityInvalid
    "Process identity is invalid."
  .ok input

def validateRecord (raw : DeveloperRuntimeOwnershipRecord) :
    Result DeveloperRuntimeOwnershipRecord := do
  let developerSessionId ← validId raw.developerSessionId "developerSessionId"
  corruptIf (validProcessInstance raw.launcherProcessInstance = false)
    "Ownership launcher process identity is invalid."
  corruptIf (∃ identity ∈ raw.processInstance, validProcessInstance identity = false)
    "Ownership process identity is invalid."
  corruptIf (raw.phase.committed = true ∧ raw.processInstance = none)
    "Committed ownership phase requires an exact process identity."
  corruptIf (raw.phase.committed = false ∧ raw.processInstance ≠ none)
    "Uncommitted ownership phase may not claim a process identity."
  let ports ← normalizePorts (raw.ports.map fun port : Nat => .int port)
  corruptIf (raw.updatedAt.val < raw.createdAt.val) "updatedAt precedes createdAt."
  .ok { raw with developerSessionId, ports }

def validateState (raw : OwnershipState) : Result OwnershipState := do
  corruptIf (maxRecords < raw.length) "Ownership state shape is invalid."
  let records ← raw.mapM validateRecord
  corruptIf (¬ (records.map (·.processSessionId)).Nodup)
    "Ownership state has duplicate processSessionId."
  .ok records

-- ===== processes

def inspect (observation : ProcessInstanceObservation) : Option ProcessInstanceIdentity :=
  match observation with
  | .live identity => identity
  | .dead => none
  | .unknown => none

/-- What an operation reads outside the file: the `now` it is given, what is
observed of a PID, and of the launcher of a record, the identity of the
process that runs the store, and what becomes of its write. -/
structure Environment where
  now : Instant
  observe : Nat → ProcessInstanceObservation
  observeLauncher : SessionUuid → ProcessInstanceObservation
  ownerProcess : ProcessInstanceIdentity
  disk : Disk

section
variable (dateParse : DateParse) (env : Environment)

/-- `sameProcessInstance(left, live)` for what an inspection answered. -/
def sameLive (left : ProcessInstanceIdentity) (observation : ProcessInstanceObservation) : Bool :=
  (inspect observation).any (sameProcessInstance dateParse left)

def inPhase (phase : DeveloperRuntimeOwnershipPhase) (record : DeveloperRuntimeOwnershipRecord) :
    DeveloperRuntimeOwnershipRecord :=
  { record with phase, updatedAt := env.now }

/-- The process of the record runs, as far as the file knows. -/
def DeveloperRuntimeOwnershipRecord.live (record : DeveloperRuntimeOwnershipRecord) : Prop :=
  record.phase = .running ∨ record.phase = .terminationPending

instance (record : DeveloperRuntimeOwnershipRecord) : Decidable record.live :=
  inferInstanceAs (Decidable (_ ∨ _))

/-- `reconcileDeadRecords(state, inspector, now)`, of one record. -/
def reconcileRecord (record : DeveloperRuntimeOwnershipRecord) : DeveloperRuntimeOwnershipRecord :=
  if record.live ∧ ∃ identity ∈ record.processInstance,
      sameLive dateParse identity (env.observe identity.pid) = false then
    inPhase env .exited record
  else record

def reconcileDeadRecords (records : OwnershipState) : OwnershipState :=
  records.map (reconcileRecord dateParse env)

def assertPortsAvailable (records : OwnershipState) (ports : List Nat) (self : SessionUuid) :
    Result Unit :=
  if ∃ record ∈ records, record.processSessionId ≠ self ∧ record.phase.active = true
      ∧ ∃ port ∈ record.ports, port ∈ ports then
    failRetryable .developerRuntimePortBusy
      "A declared Developer Session port is already owned or unresolved."
  else .ok ()

def requiredRecord (records : OwnershipState) (id : SessionUuid) :
    Result DeveloperRuntimeOwnershipRecord :=
  match records.find? fun record => record.processSessionId == id with
  | some record => .ok record
  | none =>
    fail .developerRuntimeSessionNotFound "Developer runtime ownership record was not found."

def putRecord (records : OwnershipState) (id : SessionUuid)
    (f : DeveloperRuntimeOwnershipRecord → DeveloperRuntimeOwnershipRecord) : OwnershipState :=
  records.map fun record => if record.processSessionId = id then f record else record

-- ===== operations

structure LaunchInput where
  processSessionId : String
  developerSessionId : String
  ports : List Number

/-- The record `beginLaunch` begins with. -/
def launchOf (processSessionId : SessionUuid) (developerSessionId : String) (ports : List Nat) :
    DeveloperRuntimeOwnershipRecord where
  processSessionId
  developerSessionId
  phase := .launchIntent
  launcherProcessInstance := env.ownerProcess
  processInstance := none
  ports
  createdAt := env.now
  updatedAt := env.now

variable (stored : OwnershipState)

def beginLaunch (input : LaunchInput) :
    Result (OwnershipState × DeveloperRuntimeOwnershipRecord) := do
  let processSessionId ← validUuid input.processSessionId "processSessionId"
  let developerSessionId ← validId input.developerSessionId "developerSessionId"
  let ports ← normalizePorts input.ports
  let records ← validateState stored
  let records := reconcileDeadRecords dateParse env records
  rejectIf (∃ record ∈ records, record.processSessionId = processSessionId)
    .developerRuntimeSessionReuse
    "processSessionId is already bound to durable runtime ownership."
  assertPortsAvailable records ports processSessionId
  rejectIf (maxRecords ≤ records.length) .developerRuntimeOwnershipLimit
    "Developer runtime ownership table is full."
  let created := launchOf env processSessionId developerSessionId ports
  .ok ((records ++ [created]).insertionSort
    fun a b => a.processSessionId.val ≤ b.processSessionId.val, created)

def committedOf (identity : ProcessInstanceIdentity) (record : DeveloperRuntimeOwnershipRecord) :
    DeveloperRuntimeOwnershipRecord :=
  { record with processInstance := some identity, phase := .running, updatedAt := env.now }

def commitLaunch (processSessionIdInput : String) (identityInput : ProcessInstanceIdentity) :
    Result (OwnershipState × DeveloperRuntimeOwnershipRecord) := do
  let id ← validUuid processSessionIdInput "processSessionId"
  let identity ← requireIdentity identityInput
  let records ← validateState stored
  let record ← requiredRecord records id
  rejectIf (record.phase ≠ .launchIntent) .developerRuntimeTransitionInvalid
    "Only a launch intent may commit process ownership."
  assertPortsAvailable records record.ports id
  .ok (putRecord records id (committedOf env identity), committedOf env identity record)

def abortLaunch (processSessionIdInput : String) :
    Result (OwnershipState × Unit) := do
  let id ← validUuid processSessionIdInput "processSessionId"
  let records ← validateState stored
  let record ← requiredRecord records id
  rejectIf (record.phase ≠ .launchIntent) .developerRuntimeTransitionInvalid
    "Only an uncommitted launch intent may be aborted."
  .ok (putRecord records id (inPhase env .terminated), ())

/-- The loop of `recover` over one record. -/
def promoteRecord (record : DeveloperRuntimeOwnershipRecord) : DeveloperRuntimeOwnershipRecord :=
  if record.phase = .launchIntent ∧ sameLive dateParse record.launcherProcessInstance
      (env.observeLauncher record.processSessionId) = false then
    inPhase env .ambiguous record
  else record

def recover : Result (OwnershipState × OwnershipState) := do
  let records ← validateState stored
  let records := reconcileDeadRecords dateParse env (records.map (promoteRecord dateParse env))
  .ok (records, records)

def listForDeveloperSession (developerSessionIdInput : String) :
    Result (OwnershipState × OwnershipState) := do
  let developerSessionId ← validId developerSessionIdInput "developerSessionId"
  let records ← validateState stored
  let records := reconcileDeadRecords dateParse env records
  .ok (records, records.filter (·.developerSessionId = developerSessionId))

def listAll : Result (OwnershipState × OwnershipState) := do
  let records ← validateState stored
  let records := reconcileDeadRecords dateParse env records
  .ok (records, records)

def get (processSessionIdInput : String) :
    Result (OwnershipState × DeveloperRuntimeOwnershipRecord) := do
  let id ← validUuid processSessionIdInput "processSessionId"
  let records ← validateState stored
  let records := reconcileDeadRecords dateParse env records
  let row ← requiredRecord records id
  .ok (records, row)

/-- The record and the answer of `claimTermination`, once its phase is
committed. -/
def claimRecord (record : DeveloperRuntimeOwnershipRecord) : Result
      (DeveloperRuntimeOwnershipRecord × Option ProcessInstanceIdentity) :=
  if record.phase = .exited ∨ record.phase = .terminated then .ok (record, none)
  else
    match record.processInstance with
    | none =>
      fail .developerRuntimeProcessIdentityMissing
        "Running ownership record has no exact process identity."
    | some identity =>
      if sameLive dateParse identity (env.observe identity.pid) = false then
        .ok (inPhase env .exited record, none)
      else .ok (inPhase env .terminationPending record, some identity)

def claimTermination (processSessionIdInput : String) :
    Result (OwnershipState × Option ProcessInstanceIdentity) := do
  let id ← validUuid processSessionIdInput "processSessionId"
  let records ← validateState stored
  let record ← requiredRecord records id
  rejectIf (record.phase = .ambiguous ∨ record.phase = .launchIntent)
    .developerRuntimeOwnershipAmbiguous
    "Process ownership is ambiguous; exact termination authority cannot be established."
  let (claimed, identity) ← claimRecord dateParse env record
  .ok (putRecord records id fun _ => claimed, identity)

/-- The check of `markExited` and `markTerminated` that the identity is the
one of the record. -/
def requireSame (record : DeveloperRuntimeOwnershipRecord) (identity : ProcessInstanceIdentity)
    (message : String) : Result Unit :=
  rejectIf (record.processInstance.any (sameProcessInstance dateParse · identity) = false)
    .developerRuntimeProcessIdentityMismatch message

def markExited (processSessionIdInput : String) (identityInput : ProcessInstanceIdentity) :
    Result (OwnershipState × Unit) := do
  let id ← validUuid processSessionIdInput "processSessionId"
  let identity ← requireIdentity identityInput
  let records ← validateState stored
  let record ← requiredRecord records id
  requireSame dateParse record identity
    "Exit observation does not match the owned process instance."
  if record.phase = .terminated ∨ record.phase = .exited then .ok (records, ())
  else do
    rejectIf (record.phase = .ambiguous ∨ record.phase = .launchIntent)
      .developerRuntimeTransitionInvalid
      "Ambiguous launch ownership cannot accept an exit claim."
    .ok (putRecord records id (inPhase env .exited), ())

def markTerminated (processSessionIdInput : String) (identityInput : ProcessInstanceIdentity) :
    Result (OwnershipState × Unit) := do
  let id ← validUuid processSessionIdInput "processSessionId"
  let identity ← requireIdentity identityInput
  let records ← validateState stored
  let record ← requiredRecord records id
  requireSame dateParse record identity
    "Termination confirmation does not match the owned process instance."
  rejectIf (sameLive dateParse identity (env.observe identity.pid) = true)
    .developerRuntimeTerminationUnproven "Exact owned process instance is still alive."
  .ok (putRecord records id (inPhase env .terminated), ())

end

-- ===== runs

inductive Op
  | beginLaunch (input : LaunchInput)
  | commitLaunch (processSessionId : String) (identity : ProcessInstanceIdentity)
  | abortLaunch (processSessionId : String)
  | recover
  | listForDeveloperSession (developerSessionId : String)
  | listAll
  | get (processSessionId : String)
  | claimTermination (processSessionId : String)
  | markExited (processSessionId : String) (identity : ProcessInstanceIdentity)
  | markTerminated (processSessionId : String) (identity : ProcessInstanceIdentity)

/-- What an operation makes of the records, whatever it answers. -/
def Op.outcome (dateParse : DateParse) (env : Environment) (stored : OwnershipState) :
    Op → Result (OwnershipState × Unit)
  | .beginLaunch input => forget (DeveloperRuntime.beginLaunch dateParse env stored input)
  | .commitLaunch id identity => forget (DeveloperRuntime.commitLaunch env stored id identity)
  | .abortLaunch id => DeveloperRuntime.abortLaunch env stored id
  | .recover => forget (DeveloperRuntime.recover dateParse env stored)
  | .listForDeveloperSession id =>
    forget (DeveloperRuntime.listForDeveloperSession dateParse env stored id)
  | .listAll => forget (DeveloperRuntime.listAll dateParse env stored)
  | .get id => forget (DeveloperRuntime.get dateParse env stored id)
  | .claimTermination id => forget (DeveloperRuntime.claimTermination dateParse env stored id)
  | .markExited id identity => DeveloperRuntime.markExited dateParse env stored id identity
  | .markTerminated id identity => DeveloperRuntime.markTerminated dateParse env stored id identity
where
  forget {α : Type} (outcome : Result (OwnershipState × α)) :
      Result (OwnershipState × Unit) :=
    outcome.map fun result => (result.1, ())

/-- What `#mutate` asks of the records it writes. -/
def accept (records : OwnershipState) : Result Unit := do
  let _ ← validateState records
  corruptIf (maxBytes < fileBytes records)
    "Developer runtime ownership state is invalid. Serialized state exceeds the bounded size."

/-- An operation, what it reads outside the file, and the owned processes
that have ended by then. -/
structure Turn where
  env : Environment
  op : Op
  ended : List ProcessInstanceIdentity

/-- The file after an operation, and its answer. -/
def Turn.run (dateParse : DateParse) (turn : Turn) (stored : OwnershipState) :
    OwnershipState × Result Unit :=
  replaceState accept
    { code := .developerRuntimeOwnershipCorrupt
      message := "Developer runtime ownership state is invalid." }
    turn.env.disk stored (turn.op.outcome dateParse turn.env stored)

/-- The file, the last `now`, and the owned processes that have ended. -/
structure Machine where
  stored : OwnershipState
  now : Instant
  ended : List ProcessInstanceIdentity
deriving DecidableEq

/-- An operation, given a `now` that is no earlier than the last. -/
def step (dateParse : DateParse) (m : Machine) (turn : Turn) : Option Machine :=
  if m.now.val ≤ turn.env.now.val then
    some { stored := (turn.run dateParse m.stored).1, now := turn.env.now, ended := turn.ended }
  else none

/-- No file yet. -/
def start (now : Instant) : Machine where
  stored := []
  now := now
  ended := []

end OperatorRuntime.DeveloperRuntime
