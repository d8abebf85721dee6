/-
The contracts of `core/desired-state.ts`: what is stored of one, what
`create` accepts, how a remediation gets its operation id, and
`validateState`, which every state passes before it is written and after
it is read.

Ids, digests and timestamps are of types that only hold what `uuid`, `sha`
and `iso` let through, so these checks of stored fields do not reappear;
a timestamp is its time value, of which `toISOString` is one to one. SHA-256
is a parameter.
-/
import OperatorRuntime.Action
import OperatorRuntime.Identifiers
import OperatorRuntime.Json
import OperatorRuntime.Lib.Keyed
import OperatorRuntime.ProcessInstance

namespace OperatorRuntime.Desired

open Lib

/-- SHA-256 of a text. -/
structure Platform where
  sha256 : String → Hex64

-- ===== records

inductive DesiredStateStatus
  | paused
  | healthy
  | drifted
  | remediating
  | blocked
deriving DecidableEq

structure WorldCondition where
  entityKey : String
  factKey : String
  expectedValueDigest : String
deriving DecidableEq

structure DesiredStateAuthority where
  maxRisk : ActionRisk
  capabilities : List String
  resources : List String
deriving DecidableEq

structure DesiredStatePolicy where
  autoRemediate : Bool
  minRemediationIntervalMs : Int
  maxConsecutiveFailures : Int
  maxRemediationsPerDay : Int
deriving DecidableEq

structure DesiredStateRemediation where
  objective : String
  successConditions : List String
  authority : DesiredStateAuthority
deriving DecidableEq

inductive RemediationOutcome
  | verified
  | failed
  | cancelled
deriving DecidableEq

structure RemediationEntry where
  operationId : Uuid
  startedAt : Instant
  finishedAt : Option Instant
  outcome : Option RemediationOutcome

/-- The fields the contract digest covers. -/
structure ContractTerms where
  name : String
  scopeKey : String
  desired : List WorldCondition
  remediation : DesiredStateRemediation
  policy : DesiredStatePolicy
deriving DecidableEq

structure DesiredStateContract extends ContractTerms where
  id : Uuid
  status : DesiredStateStatus
  contractDigest : Hex64
  activeOperationId : Option Uuid
  lastReason : Option String
  consecutiveFailures : Nat
  remediationHistory : List RemediationEntry
  createdAt : Instant
  updatedAt : Instant

structure DesiredStateFile where
  contracts : List DesiredStateContract

def maxContracts : Nat := 2000
def maxHistory : Nat := 200

-- ===== validators

variable {α : Type}

def inputInvalid (message : String) : Result α :=
  fail .desiredStateInputInvalid message

def bounded (input : String) (max : Nat) (label : String) : Result String := do
  rejectIf (jsLength input < 1 ∨ max < jsLength input ∨ includesChar input '\x00' = true)
    .desiredStateInputInvalid s!"{label} is invalid."
  .ok input

def keyText (input : String) (max : Nat) (label : String) : Result String := do
  let value ← bounded input max label
  rejectIf (isKeyText max value = false) .desiredStateInputInvalid s!"{label} is invalid."
  .ok value

def contextKey (input label : String) : Result String := keyText input 512 label

def key (input label : String) : Result String := keyText input 256 label

def uniqueStrings (input : List String) (max maxLength : Nat) (label : String) :
    Result (List String) := do
  rejectIf (max < input.length) .desiredStateInputInvalid s!"{label} is invalid."
  let values ← input.zipIdx.mapM fun (item, index) => bounded item maxLength s!"{label}[{index}]"
  rejectIf (values.length < 1 ∨ ¬ values.Nodup) .desiredStateInputInvalid
    s!"{label} must contain unique values."
  .ok values

/-- `integer(input, min, max, label)`, on a safe integer. -/
def integer (input min max : Int) (label : String) : Result Int := do
  rejectIf (input < min ∨ max < input) .desiredStateInputInvalid s!"{label} is invalid."
  .ok input

def sha (input label : String) : Result String :=
  match hex64? input with
  | some digest => .ok digest.val
  | none => inputInvalid s!"{label} must be SHA-256."

def uuid (input label : String) : Result Uuid :=
  let value := input.map Char.toLower
  if h : matchesClasses uuidClasses value.toList = true then .ok ⟨value, h⟩
  else inputInvalid s!"{label} must be a UUID."

def normalizeCondition (condition : WorldCondition) (index : Nat) :
    Result WorldCondition := do
  let entityKey ← contextKey condition.entityKey s!"desired[{index}].entityKey"
  let factKey ← key condition.factKey s!"desired[{index}].factKey"
  let expectedValueDigest ←
    sha condition.expectedValueDigest s!"desired[{index}].expectedValueDigest"
  .ok { entityKey, factKey, expectedValueDigest }

def normalizeConditions (input : List WorldCondition) :
    Result (List WorldCondition) := do
  rejectIf (200 < input.length) .desiredStateInputInvalid "desired conditions are invalid."
  input.zipIdx.mapM fun (condition, index) => normalizeCondition condition index

-- ===== creation

/-- `Partial<DesiredStatePolicy>`. -/
structure PolicyInput where
  autoRemediate : Option Bool
  minRemediationIntervalMs : Option Int
  maxConsecutiveFailures : Option Int
  maxRemediationsPerDay : Option Int

structure CreateInput where
  contractId : Option String
  name : String
  scopeKey : String
  desired : List WorldCondition
  remediation : DesiredStateRemediation
  policy : PolicyInput

/-- `normalizeCreate(input)`: the contract id, if given, and the terms. -/
def normalizeCreate (input : CreateInput) : Result (Option Uuid × ContractTerms) := do
  let desired ← normalizeConditions input.desired
  rejectIf (desired.length < 1) .desiredStateInputInvalid
    "At least one desired world condition is required."
  let minRemediationIntervalMs ← integer (input.policy.minRemediationIntervalMs.getD 60000)
    0 (24 * 60 * 60000) "minRemediationIntervalMs"
  let maxConsecutiveFailures ← integer (input.policy.maxConsecutiveFailures.getD 3)
    1 20 "maxConsecutiveFailures"
  let maxRemediationsPerDay ← integer (input.policy.maxRemediationsPerDay.getD 24)
    1 1000 "maxRemediationsPerDay"
  let contractId ← input.contractId.mapM fun id => uuid id "contractId"
  let name ← bounded input.name 4096 "name"
  let scopeKey ← contextKey input.scopeKey "scopeKey"
  let objective ← bounded input.remediation.objective 16384 "remediation.objective"
  let successConditions ← uniqueStrings input.remediation.successConditions 100 4096
    "remediation.successConditions"
  let capabilities ← uniqueStrings input.remediation.authority.capabilities 500 256
    "remediation.authority.capabilities"
  let resources ← uniqueStrings input.remediation.authority.resources 5000 1024
    "remediation.authority.resources"
  .ok (contractId,
    { name, scopeKey, desired
      remediation :=
        { objective, successConditions
          authority :=
            { maxRisk := input.remediation.authority.maxRisk, capabilities, resources } }
      policy :=
        { autoRemediate := input.policy.autoRemediate == some true, minRemediationIntervalMs
          maxConsecutiveFailures, maxRemediationsPerDay } })

-- ===== digests

def number (value : Int) : Json := .num (toString value)

def WorldCondition.toJson (condition : WorldCondition) : Json :=
  .obj [("entityKey", .str condition.entityKey), ("factKey", .str condition.factKey),
    ("expectedValueDigest", .str condition.expectedValueDigest)]

def ContractTerms.toJson (terms : ContractTerms) : Json :=
  .obj [("name", .str terms.name), ("scopeKey", .str terms.scopeKey),
    ("desired", .arr (terms.desired.map (·.toJson))),
    ("remediation", .obj [("objective", .str terms.remediation.objective),
      ("successConditions", texts terms.remediation.successConditions),
      ("authority", .obj [("maxRisk", .str terms.remediation.authority.maxRisk.text),
        ("capabilities", texts terms.remediation.authority.capabilities),
        ("resources", texts terms.remediation.authority.resources)])]),
    ("policy", .obj [("autoRemediate", .bool terms.policy.autoRemediate),
      ("minRemediationIntervalMs", number terms.policy.minRemediationIntervalMs),
      ("maxConsecutiveFailures", number terms.policy.maxConsecutiveFailures),
      ("maxRemediationsPerDay", number terms.policy.maxRemediationsPerDay)])]

def contractDigest (platform : Platform) (terms : ContractTerms) : Hex64 :=
  platform.sha256 (Json.canonicalJson terms.toJson)

def remediationRequestText (id : Uuid) (contractDigest : Hex64) (remediationEpoch : Nat) : String :=
  Json.canonicalJson (.obj [("contractId", .str id.val),
    ("contractDigest", .str contractDigest.val),
    ("remediationEpoch", .num (toString remediationEpoch))])

/-- The operation id of the first 128 bits of a text's digest. -/
def Platform.operationId (platform : Platform) (text : String) : Uuid :=
  uuidOfDigest (platform.sha256 text)

def remediationRequestId (platform : Platform) (contract : DesiredStateContract) : Uuid :=
  platform.operationId (remediationRequestText contract.id contract.contractDigest
    contract.remediationHistory.length)

-- ===== validation

/-- The loop of `validateState` over the remediation history. -/
def validateEntry (entry : RemediationEntry) : Result Unit :=
  match entry.finishedAt with
  | none =>
    rejectIf (entry.outcome.isSome = true) .desiredStateCorrupt
      "Unfinished remediation history cannot have an outcome."
  | some finishedAt => do
    rejectIf (finishedAt.val < entry.startedAt.val) .desiredStateCorrupt
      "Remediation history finish cannot precede start."
    rejectIf (entry.outcome.isNone = true) .desiredStateCorrupt
      "Finished remediation history requires a valid outcome."

def RemediationEntry.unfinished (entry : RemediationEntry) : Bool := entry.finishedAt.isNone

def validateTerms (contract : ContractTerms) : Result Unit := do
  let _ ← bounded contract.name 4096 "contract.name"
  let _ ← contextKey contract.scopeKey "contract.scopeKey"
  let _ ← normalizeConditions contract.desired
  let _ ← bounded contract.remediation.objective 16384 "contract.remediation.objective"
  let _ ← uniqueStrings contract.remediation.successConditions 100 4096
    "contract.remediation.successConditions"
  let _ ← uniqueStrings contract.remediation.authority.capabilities 500 256
    "contract.remediation.authority.capabilities"
  let _ ← uniqueStrings contract.remediation.authority.resources 5000 1024
    "contract.remediation.authority.resources"
  let _ ← integer contract.policy.minRemediationIntervalMs 0 (24 * 60 * 60000)
    "contract.policy.minRemediationIntervalMs"
  let _ ← integer contract.policy.maxConsecutiveFailures 1 20
    "contract.policy.maxConsecutiveFailures"
  let _ ← integer contract.policy.maxRemediationsPerDay 1 1000
    "contract.policy.maxRemediationsPerDay"

/-- The checks of what changes over the life of a contract. -/
def validateProgress (contract : DesiredStateContract) : Result Unit := do
  let _ ← integer contract.consecutiveFailures 0 1000000 "contract.consecutiveFailures"
  rejectIf (maxHistory < contract.remediationHistory.length) .desiredStateCorrupt
    "Desired-state remediation history is invalid."
  contract.remediationHistory.forM validateEntry
  rejectIf (1 < contract.remediationHistory.countP (·.unfinished)) .desiredStateCorrupt
    "At most one remediation operation may be unfinished."
  match contract.activeOperationId with
  | some active =>
    rejectIf (¬ ∃ entry ∈ contract.remediationHistory,
        entry.operationId = active ∧ entry.unfinished = true) .desiredStateCorrupt
      "Active remediation operation must have one unfinished history record."
  | none =>
    rejectIf (contract.remediationHistory.countP (·.unfinished) ≠ 0) .desiredStateCorrupt
      "Unfinished remediation history requires an active operation id."
  rejectIf (contract.updatedAt.val < contract.createdAt.val) .desiredStateCorrupt
    "Desired-state updatedAt cannot precede createdAt."

/-- The loop of `validateState` over the contracts, after the check of the
id. -/
def validateContract (platform : Platform) (contract : DesiredStateContract) :
    Result Unit := do
  validateTerms contract.toContractTerms
  rejectIf (contract.contractDigest ≠ contractDigest platform contract.toContractTerms)
    .desiredStateCorrupt
    "Desired-state contract digest does not match the persisted authority contract."
  validateProgress contract

def validateState (platform : Platform) (state : DesiredStateFile) : Result Unit := do
  rejectIf (maxContracts < state.contracts.length) .desiredStateCorrupt
    "Desired-state state shape is invalid."
  let _ ← state.contracts.foldlM (fun ids contract => do
    rejectIf (contract.id ∈ ids) .desiredStateCorrupt "Desired-state contract IDs must be unique."
    validateContract platform contract
    .ok (contract.id :: ids)) []

end OperatorRuntime.Desired
