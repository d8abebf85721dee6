/-
`core/procedure-memory.ts`: procedures that were verified, kept by key and
scope in one file. Every call that changes the file reads, changes and
writes it in one turn under a lock, so calls run one after the other.

Identifiers, digests and times are kept as what their checks make of them.
A confidence is taken as the exact fraction. What a write answers where
the file would grow too large, and the collation of `localeCompare`, are
parameters.
-/
import Mathlib.Data.List.Sort
import Mathlib.Data.Rat.Floor
import OperatorRuntime.Action
import OperatorRuntime.Identifiers
import OperatorRuntime.Lib.Keyed

namespace OperatorRuntime.ProcedureMemory

open Lib

def maxProcedures : Nat := 2000
def maxSteps : Nat := 200
def maxAssumptions : Nat := 100
def maxResources : Nat := 200
def maxOutcomeReceipts : Nat := 256
def minVerifiedRunsForReuse : Nat := 2
def maxTtlMs : Nat := 365 * 24 * 60 * 60000
def minTtlMs : Nat := 60000

-- ===== records

inductive ProcedureStatus
  | active
  | suspended
  | invalidated
deriving DecidableEq

structure ProcedureStep where
  capability : String
  risk : ActionRisk
  summary : String
deriving DecidableEq

structure ProcedureAssumption where
  key : String
  fingerprint : Hex64
deriving DecidableEq

structure VerifiedProcedure where
  id : Uuid
  key : String
  version : Nat
  title : String
  objectiveKind : String
  scopeKey : String
  status : ProcedureStatus
  steps : List ProcedureStep
  assumptions : List ProcedureAssumption
  resources : List String
  verificationDigest : Hex64
  verifierEvidenceDigest : Hex64
  verifiedRuns : Nat
  failedRuns : Nat
  createdAt : Instant
  updatedAt : Instant
  expiresAt : Instant
  invalidatedAt : Option Instant
  invalidationReason : Option String
  outcomeReceipts : Option (List Hex64)
deriving DecidableEq

structure ProcedureMemoryState where
  procedures : List VerifiedProcedure

/-- `toISOString` of a time, the order of `localeCompare`, and whether the
JSON text of a state is within `MAX_STATE_BYTES`. -/
structure Platform where
  isoText : Instant → String
  localeCompare : String → String → Int
  fits : ProcedureMemoryState → Bool

-- ===== validators

def inputInvalid {α : Type} (message : String) : Result α :=
  fail .procedureMemoryInputInvalid message

def invalidIf (bad : Prop) [Decidable bad] (message : String) : Result Unit :=
  rejectIf bad .procedureMemoryInputInvalid message

def boundedText (input : String) (max : Nat) (label : String) : Result String :=
  if Json.unitLength input < 1 ∨ max < Json.unitLength input ∨ includesChar input '\x00' = true then
    inputInvalid (label ++ " is invalid.")
  else .ok input

/-- `/^[A-Za-z0-9][A-Za-z0-9._:-]{0,max-1}$/`; the last class may have more
characters. -/
def isName (extra : Char → Bool) (max : Nat) (text : String) : Bool :=
  match text.toList with
  | [] => false
  | c :: cs =>
    isAlnum c && cs.length < max && cs.all fun c =>
      isAlnum c || c == '.' || c == '_' || c == ':' || c == '-' || extra c

def boundedName (extra : Char → Bool) (max : Nat) (input label : String) :
    Result String := do
  let value ← boundedText input max label
  invalidIf (isName extra max value = false) (label ++ " is invalid.")
  return value

def boundedCapability (input label : String) : Result String :=
  boundedName (fun _ => false) 256 input label

def boundedKey (input label : String) : Result String :=
  boundedName (fun _ => false) 128 input label

def boundedContext (input label : String) : Result String :=
  boundedName (fun c => c == '/') 256 input label

def shaDigest (input label : String) : Result Hex64 :=
  match hex64? input with
  | some digest => .ok digest
  | none => inputInvalid (label ++ " must be a SHA-256 digest.")

def validUuid (input label : String) : Result Uuid :=
  match uuid? input with
  | some id => .ok id
  | none => inputInvalid (label ++ " must be a UUID.")

def validRisk (input : String) : Result ActionRisk :=
  match [ActionRisk.read, .write, .external, .system, .destructive].find?
      fun risk => risk.text == input with
  | some risk => .ok risk
  | none => inputInvalid "Procedure step risk is invalid."

def boundedInteger (input : Number) (min max : Nat) (label : String) : Result Nat :=
  match input with
  | .int n =>
    if min ≤ n ∧ n ≤ max then .ok n.toNat else inputInvalid (label ++ " is invalid.")
  | .other => inputInvalid (label ++ " is invalid.")

/-- `${label}[${index}]`. -/
def labelAt (label : String) (index : Nat) : String :=
  label ++ "[" ++ toString index ++ "]"

def uniqueBounded (input : List String) (max maxLength : Nat) (label : String) :
    Result (List String) := do
  invalidIf (max < input.length) (label ++ " is invalid.")
  let values ← input.zipIdx.mapM fun value => boundedText value.1 maxLength (labelAt label value.2)
  invalidIf (¬ values.Nodup) (label ++ " must not contain duplicates.")
  return Json.sortTexts values

structure StepInput where
  capability : String
  risk : String
  summary : String

def normalizeSteps (input : List StepInput) : Result (List ProcedureStep) :=
  if input.length < 1 ∨ maxSteps < input.length then
    inputInvalid "steps must contain 1-200 entries."
  else input.zipIdx.mapM fun step => do
    return {
      capability := ← boundedCapability step.1.capability (labelAt "steps" step.2 ++ ".capability")
      risk := ← validRisk step.1.risk
      summary := ← boundedText step.1.summary 4096 (labelAt "steps" step.2 ++ ".summary") }

structure AssumptionInput where
  key : String
  fingerprint : String

/-- One round of `normalizeAssumptions`; what it has seen are the keys of
the assumptions so far. -/
def normalizeAssumption (seen : List ProcedureAssumption) (item : AssumptionInput × Nat) :
    Result (List ProcedureAssumption) := do
  let key ← boundedKey item.1.key (labelAt "assumptions" item.2 ++ ".key")
  invalidIf (key ∈ seen.map ProcedureAssumption.key) "Assumption keys must be unique."
  let fingerprint ← shaDigest item.1.fingerprint (labelAt "assumptions" item.2 ++ ".fingerprint")
  let assumption : ProcedureAssumption := { key, fingerprint }
  return seen ++ [assumption]

def normalizeAssumptions (platform : Platform) (input : List AssumptionInput) :
    Result (List ProcedureAssumption) := do
  invalidIf (maxAssumptions < input.length) "assumptions may contain at most 100 entries."
  let assumptions ← input.zipIdx.foldlM normalizeAssumption []
  return assumptions.insertionSort fun a b => platform.localeCompare a.key b.key ≤ 0

structure ProcedureInput where
  key : String
  title : String
  objectiveKind : String
  scopeKey : String
  steps : List StepInput
  assumptions : List AssumptionInput
  resources : Option (List String)
  verificationDigest : String
  verifierEvidenceDigest : String
  ttlMs : Option Number

structure NormalizedProcedure where
  key : String
  title : String
  objectiveKind : String
  scopeKey : String
  steps : List ProcedureStep
  assumptions : List ProcedureAssumption
  resources : List String
  verificationDigest : Hex64
  verifierEvidenceDigest : Hex64
  ttlMs : Nat

def normalizeProcedureInput (platform : Platform) (input : ProcedureInput) :
    Result NormalizedProcedure := do
  let steps ← normalizeSteps input.steps
  let assumptions ← normalizeAssumptions platform input.assumptions
  return {
    key := ← boundedKey input.key "key"
    title := ← boundedText input.title 4096 "title"
    objectiveKind := ← boundedKey input.objectiveKind "objectiveKind"
    scopeKey := ← boundedContext input.scopeKey "scopeKey"
    steps
    assumptions
    resources := ← uniqueBounded (input.resources.getD []) maxResources 1024 "resources"
    verificationDigest := ← shaDigest input.verificationDigest "verificationDigest"
    verifierEvidenceDigest := ← shaDigest input.verifierEvidenceDigest "verifierEvidenceDigest"
    ttlMs := ← boundedInteger (input.ttlMs.getD (.int (30 * 24 * 60 * 60000))) minTtlMs maxTtlMs
      "ttlMs" }

-- ===== state

def procedureIdentity (key scopeKey : String) : String :=
  key ++ "\x00" ++ scopeKey

def VerifiedProcedure.identity (item : VerifiedProcedure) : String :=
  procedureIdentity item.key item.scopeKey

def VerifiedProcedure.receipts (item : VerifiedProcedure) : List Hex64 :=
  item.outcomeReceipts.getD []

def corruptIf (bad : Prop) [Decidable bad] (message : String) : Result Unit :=
  rejectIf bad .procedureMemoryCorrupt ("Verified procedure memory is invalid. " ++ message)

def validateProcedure (platform : Platform) (item : VerifiedProcedure) (index : Nat) :
    Result Unit := do
  let label := "procedure " ++ toString index
  let _ ← boundedKey item.key (label ++ " key")
  let _ ← boundedInteger (.int item.version) 1 maxSafeInteger (label ++ " version")
  let _ ← boundedText item.title 4096 (label ++ " title")
  let _ ← boundedKey item.objectiveKind (label ++ " objectiveKind")
  let _ ← boundedContext item.scopeKey (label ++ " scopeKey")
  let _ ← normalizeSteps (item.steps.map fun step =>
    { capability := step.capability, risk := step.risk.text, summary := step.summary })
  let _ ← normalizeAssumptions platform (item.assumptions.map fun assumption =>
    { key := assumption.key, fingerprint := assumption.fingerprint.val })
  let _ ← uniqueBounded item.resources maxResources 1024 "resources"
  let _ ← boundedInteger (.int item.verifiedRuns) 0 maxSafeInteger "verifiedRuns"
  let _ ← boundedInteger (.int item.failedRuns) 0 maxSafeInteger "failedRuns"
  let _ ← item.invalidationReason.mapM fun reason => boundedText reason 2048 "invalidationReason"
  corruptIf (maxOutcomeReceipts < item.receipts.length) "Procedure outcome receipts are invalid."
  corruptIf (¬ item.receipts.Nodup) "Procedure outcome receipts must be unique."

def validateNext (platform : Platform) (before : List VerifiedProcedure)
    (item : VerifiedProcedure × Nat) : Result (List VerifiedProcedure) := do
  corruptIf (item.1.id ∈ before.map VerifiedProcedure.id) "Procedure IDs must be unique."
  validateProcedure platform item.1 item.2
  corruptIf (item.1.identity ∈ before.map VerifiedProcedure.identity)
    "Procedure key/scope identities must be unique."
  return before ++ [item.1]

/-- `validateState(state)`, which answers the state it is given. -/
def validateState (platform : Platform) (state : ProcedureMemoryState) :
    Result ProcedureMemoryState := do
  corruptIf (maxProcedures < state.procedures.length)
    "State version/procedure collection is invalid."
  let procedures ← state.procedures.zipIdx.foldlM (validateNext platform) []
  return { procedures }

/-- `#write(state)`: the state that is then in the file. -/
def write (platform : Platform) (state : ProcedureMemoryState) :
    Result ProcedureMemoryState := do
  let _ ← validateState platform state
  rejectIf (platform.fits state = false) .procedureMemoryCorrupt
    "Verified procedure memory is invalid."
  return state

-- ===== calls

/-- What a call answers, and the state it wrote, if it wrote one. -/
abbrev Answer := Result (VerifiedProcedure × Option ProcedureMemoryState)

/-- Makes room for a procedure: the procedure updated longest ago that is
not active or has expired goes. -/
def makeRoom (platform : Platform) (now : ClockReading) (procedures : List VerifiedProcedure) :
    Result (List VerifiedProcedure) :=
  if maxProcedures ≤ procedures.length then
    let sorted := procedures.insertionSort fun a b =>
      platform.localeCompare (platform.isoText a.updatedAt) (platform.isoText b.updatedAt) ≤ 0
    let removable := fun item : VerifiedProcedure =>
      item.status ≠ .active ∨ ∃ at' ∈ now, item.expiresAt.val ≤ at'.val
    if ∃ item ∈ sorted, removable item then .ok (sorted.eraseP fun item => removable item)
    else fail .procedureMemoryLimit "At most 2000 active procedures may be retained."
  else .ok procedures

/-- `existing` with a capture that is not its latest one. -/
def recapture (existing : VerifiedProcedure) (normalized : NormalizedProcedure)
    (updatedAt expiresAt : Instant) : VerifiedProcedure :=
  { existing with
    version := existing.version + 1
    status := .active
    invalidatedAt := if existing.status = .invalidated then none else existing.invalidatedAt
    invalidationReason :=
      if existing.status = .invalidated then none else existing.invalidationReason
    title := normalized.title
    objectiveKind := normalized.objectiveKind
    steps := normalized.steps
    assumptions := normalized.assumptions
    resources := normalized.resources
    verificationDigest := normalized.verificationDigest
    verifierEvidenceDigest := normalized.verifierEvidenceDigest
    verifiedRuns := existing.verifiedRuns + 1
    updatedAt
    expiresAt }

def capture (id : Uuid) (normalized : NormalizedProcedure) (createdAt expiresAt : Instant) :
    VerifiedProcedure where
  id
  key := normalized.key
  version := 1
  title := normalized.title
  objectiveKind := normalized.objectiveKind
  scopeKey := normalized.scopeKey
  status := .active
  steps := normalized.steps
  assumptions := normalized.assumptions
  resources := normalized.resources
  verificationDigest := normalized.verificationDigest
  verifierEvidenceDigest := normalized.verifierEvidenceDigest
  verifiedRuns := 1
  failedRuns := 0
  createdAt
  updatedAt := createdAt
  expiresAt
  invalidatedAt := none
  invalidationReason := none
  outcomeReceipts := some []

/-- `state.procedures.sort(…)` by identity. -/
def sortProcedures (platform : Platform) (procedures : List VerifiedProcedure) :
    List VerifiedProcedure :=
  procedures.insertionSort fun a b => platform.localeCompare a.identity b.identity ≤ 0

def findIdentity (key scopeKey : String) (item : VerifiedProcedure) : Bool :=
  item.key == key && item.scopeKey == scopeKey

/-- `recordVerified(input)`; the identifier is the one `randomUUID` gives. -/
def recordVerified (platform : Platform) (state : ProcedureMemoryState) (now : ClockReading)
    (id : Uuid) (input : ProcedureInput) : Answer := do
  let normalized ← normalizeProcedureInput platform input
  let found := findIdentity normalized.key normalized.scopeKey
  match state.procedures.find? found with
  | some existing =>
    if existing.verificationDigest = normalized.verificationDigest
        ∧ existing.verifierEvidenceDigest = normalized.verifierEvidenceDigest then
      return (existing, none)
    let updatedAt ← toISOString now
    let expiresAt ← updatedAt.later normalized.ttlMs
    let procedure := recapture existing normalized updatedAt expiresAt
    let procedures := updateFirst found (fun _ => procedure) state.procedures
    let written ← write platform { procedures := sortProcedures platform procedures }
    return (procedure, some written)
  | none =>
    let procedures ← makeRoom platform now state.procedures
    let createdAt ← toISOString now
    let expiresAt ← createdAt.later normalized.ttlMs
    let procedure := capture id normalized createdAt expiresAt
    let written ← write platform
      { procedures := sortProcedures platform (procedures ++ [procedure]) }
    return (procedure, some written)

inductive Outcome
  | verified
  | failed
deriving DecidableEq

def countOutcome (procedure : VerifiedProcedure) (outcome : Outcome) (receipt : Option Hex64)
    (updatedAt : Instant) : VerifiedProcedure :=
  let verifiedRuns := procedure.verifiedRuns + if outcome = .verified then 1 else 0
  let failedRuns := procedure.failedRuns + if outcome = .verified then 0 else 1
  { procedure with
    verifiedRuns
    failedRuns
    outcomeReceipts := some (procedure.receipts ++ receipt.toList)
    updatedAt
    status := if 3 ≤ failedRuns ∧ verifiedRuns ≤ failedRuns * 2 then .suspended
      else procedure.status }

def recordOutcome (platform : Platform) (state : ProcedureMemoryState) (now : ClockReading)
    (idInput : String) (outcome : Outcome) (receiptInput : Option String) : Answer := do
  let id ← validUuid idInput "procedureId"
  let receipt ← receiptInput.mapM fun receipt => shaDigest receipt "outcome receipt"
  match state.procedures.find? fun item => item.id == id with
  | none => fail .procedureNotFound "Verified procedure was not found."
  | some procedure =>
    rejectIf (procedure.status = .invalidated) .procedureInvalidated
      "Invalidated procedure cannot record execution outcomes."
    if ∃ digest ∈ receipt, digest ∈ procedure.receipts then
      return ({ procedure with outcomeReceipts := some procedure.receipts }, none)
    rejectIf (receipt.isSome = true ∧ maxOutcomeReceipts ≤ procedure.receipts.length)
      .procedureOutcomeReceiptsFull
        "Procedure outcome receipt capacity is exhausted; a new outcome cannot be recorded safely."
    let updatedAt ← toISOString now
    let counted := countOutcome procedure outcome receipt updatedAt
    let written ← write platform
      { procedures := updateFirst (fun item => item.id == id) (fun _ => counted)
          state.procedures }
    return (counted, some written)

def invalidate (platform : Platform) (state : ProcedureMemoryState) (now : ClockReading)
    (idInput reasonInput : String) : Answer := do
  let id ← validUuid idInput "procedureId"
  let reason ← boundedText reasonInput 2048 "invalidation reason"
  match state.procedures.find? fun item => item.id == id with
  | none => fail .procedureNotFound "Verified procedure was not found."
  | some procedure =>
    let updatedAt ← toISOString now
    let invalidated := { procedure with
      status := .invalidated
      invalidatedAt := some updatedAt
      invalidationReason := some reason
      updatedAt }
    let written ← write platform
      { procedures := updateFirst (fun item => item.id == id) (fun _ => invalidated)
          state.procedures }
    return (invalidated, some written)

-- ===== reuse

/-- `procedureConfidence(procedure)`, in thousandths. -/
def procedureConfidence (procedure : VerifiedProcedure) : Int :=
  let total : Rat := procedure.verifiedRuns + procedure.failedRuns
  let posterior := ((procedure.verifiedRuns : Rat) + 2) / (total + 4)
  let evidenceConfidence := min 1 (total / 10)
  ⌊(1 / 2 + (posterior - 1 / 2) * evidenceConfidence) * 1000 + 1 / 2⌋

def hasIndependentRepeat (procedure : VerifiedProcedure) : Bool :=
  if procedure.verifiedRuns < minVerifiedRunsForReuse then false
  else minVerifiedRunsForReuse ≤ procedure.version || 1 ≤ procedure.receipts.length

structure ReuseInput where
  objectiveKind : String
  scopeKey : String
  assumptions : List AssumptionInput
  requiredCapabilities : Option (List String)
  maxResults : Option Number

structure ProcedureCandidate where
  procedure : VerifiedProcedure
  confidence : Int

/-- The order of the candidates: the higher confidence first, then the one
updated last. -/
def candidateLe (platform : Platform) (a b : ProcedureCandidate) : Bool :=
  if a.confidence = b.confidence then
    platform.localeCompare (platform.isoText b.procedure.updatedAt)
      (platform.isoText a.procedure.updatedAt) ≤ 0
  else b.confidence < a.confidence

def findReusable (platform : Platform) (state : ProcedureMemoryState) (now : ClockReading)
    (input : ReuseInput) : Result (List ProcedureCandidate) := do
  let objectiveKind ← boundedKey input.objectiveKind "objectiveKind"
  let scopeKey ← boundedContext input.scopeKey "scopeKey"
  let assumptions ← normalizeAssumptions platform input.assumptions
  let required ← (input.requiredCapabilities.getD []).zipIdx.mapM fun item =>
    boundedCapability item.1 (labelAt "requiredCapabilities" item.2)
  let maxResults ← boundedInteger (input.maxResults.getD (.int 10)) 1 100 "maxResults"
  let matching := state.procedures.filter fun procedure =>
    procedure.status = .active ∧ hasIndependentRepeat procedure = true
      ∧ (∃ at' ∈ now, at'.val < procedure.expiresAt.val)
      ∧ procedure.objectiveKind = objectiveKind ∧ procedure.scopeKey = scopeKey
      ∧ (∀ item ∈ procedure.assumptions, item ∈ assumptions)
      ∧ ∀ capability ∈ required, ∃ step ∈ procedure.steps, step.capability = capability
  let candidates := matching.map fun procedure =>
    { procedure, confidence := procedureConfidence procedure : ProcedureCandidate }
  return (candidates.insertionSort fun a b => candidateLe platform a b).take maxResults

end OperatorRuntime.ProcedureMemory
