/-
JavaScript values that nobody vouches for, as the checks of
`core/outcome-contract.ts` see them: what `===` compares, what they read as
where a text is expected, and what `canonicalJson` makes of them.

Numbers that are not integers, functions, symbols, objects that are not
inert or not plain are all `other`; arrays and objects carry a reference,
which is what `===` compares of them.
-/
import Mathlib.Data.List.Sort
import OperatorRuntime.Json
import OperatorRuntime.StateFile
import OperatorRuntime.Text

namespace OperatorRuntime.Outcome

/-- A value. `text` is what `String(value)` gives, `none` where that throws;
`json` of any other value is what `JSON.stringify` makes of it once it is
canonical, `none` where that throws and `some none` where it leaves it out. -/
inductive Value
  | undefined
  | null
  | bool (b : Bool)
  | int (n : Int)
  | str (s : String)
  | arr (ref : Nat) (text : Option String) (items : List Value)
  | obj (ref : Nat) (text : Option String) (fields : List (String × Value))
  | other (ref : Nat) (text : Option String) (json : Option (Option Json))

namespace Value

/-- `a === b`. -/
@[grind =] def strictEq : Value → Value → Bool
  | .undefined, .undefined => true
  | .null, .null => true
  | .bool a, .bool b => a == b
  | .int a, .int b => a == b
  | .str a, .str b => a == b
  | .arr a _ _, .arr b _ _ => a == b
  | .obj a _ _, .obj b _ _ => a == b
  | .other a _ _, .other b _ _ => a == b
  | _, _ => false

/-- `String(value)`. -/
def text? : Value → Option String
  | .undefined => some "undefined"
  | .null => some "null"
  | .bool b => some (if b = true then "true" else "false")
  | .int n => some (toString n)
  | .str s => some s
  | .arr _ text _ | .obj _ text _ | .other _ text _ => text

/-- `value ?? ''`. -/
def orEmpty : Value → Value
  | .undefined | .null => .str ""
  | value => value

mutual

/-- What `JSON.stringify` makes of a value, `none` where it throws, `some none`
where it leaves it out. -/
def encode : Value → Option (Option Json)
  | .undefined => some none
  | .null => some (some .null)
  | .bool b => some (some (.bool b))
  | .int n => some (some (.num (toString n)))
  | .str s => some (some (.str s))
  | .arr _ _ items => (encodeItems items).map fun items => some (.arr items)
  | .obj _ _ fields => (encodeFields fields).map fun fields => some (.obj fields)
  | .other _ _ json => json

def encodeItems : List Value → Option (List Json)
  | [] => some []
  | item :: items => do
    let json ← encode item
    return json.getD .null :: (← encodeItems items)

def encodeFields : List (String × Value) → Option (List (String × Json))
  | [] => some []
  | (key, value) :: fields => do
    let json ← encode value
    let rest ← encodeFields fields
    return (json.map fun json => (key, json)).toList ++ rest

end

end Value

/-- The own fields of an inert plain object. -/
abbrev Fields := List (String × Value)

/-- `object.key`. -/
def Fields.get (fields : Fields) (key : String) : Value :=
  ((fields.find? fun field => field.1 == key).map Prod.snd).getD .undefined

/-- `canonicalJson` of a plain object, `none` where it throws. -/
def canonicalText (fields : Fields) : Option String :=
  (Value.encodeFields fields).map fun fields => Json.canonicalJson (.obj fields)

def exactPlainRecord (input : Value) (fields : List String) (code : ErrorCode) :
    Result Fields :=
  match input with
  | .obj _ _ own =>
    if own.length ≠ fields.length ∨ (∃ field ∈ own, field.1 ∉ fields)
        ∨ ∃ key ∈ fields, key ∉ own.map Prod.fst then
      fail code "Outcome proof has missing or unsupported fields."
    else .ok own
  | _ => fail code "Outcome proof must be an inert plain object."

def exactArray (input : Value) (min max : Nat) (code : ErrorCode) :
    Result (List Value) :=
  match input with
  | .arr _ _ items =>
    if items.length < min ∨ max < items.length then
      fail code "Outcome proof list must be a dense bounded array."
    else .ok items
  | _ => fail code "Outcome proof list must be a dense bounded array."

/-- `pattern.test(value ?? '')`. -/
def test (pattern : String → Bool) (value : Value) : Result Bool :=
  match value.orEmpty.text? with
  | some text => .ok (pattern text)
  | none => fail .typeError "Cannot convert object to primitive value"

/-- `a && b && …` of several tests. -/
def testAll : List ((String → Bool) × Value) → Result Bool
  | [] => .ok true
  | (pattern, value) :: rest => do
    let passes ← test pattern value
    if passes = true then testAll rest else .ok false

theorem test_eq_true {pattern : String → Bool} {value : Value} :
    test pattern value = .ok true ↔ ∃ text, value.orEmpty.text? = some text ∧ pattern text = true := by
  unfold test
  cases value.orEmpty.text? with
  | none => simp
  | some text => simp

theorem testAll_eq_true {tests : List ((String → Bool) × Value)} : testAll tests = .ok true
    ↔ ∀ item ∈ tests, ∃ text, item.2.orEmpty.text? = some text ∧ item.1 text = true := by
  induction tests with
  | nil => exact ⟨fun _ _ h => (nomatch h), fun _ => rfl⟩
  | cons item rest ih =>
    rw [List.forall_mem_cons, ← ih, ← test_eq_true, testAll]
    cases test item.1 item.2 with
    | error e => simp
    | ok passes =>
      cases passes with
      | false => simp
      | true => simp

theorem encodeFields_isSome {fields : Fields} :
    (Value.encodeFields fields).isSome = true ↔ ∀ field ∈ fields, (Value.encode field.2).isSome = true := by
  induction fields with
  | nil => exact ⟨fun _ _ h => (nomatch h), fun _ => rfl⟩
  | cons field fields ih =>
    obtain ⟨key, value⟩ := field
    rw [List.forall_mem_cons, ← ih, Value.encodeFields]
    cases Value.encode value with
    | none => simp
    | some json =>
      cases Value.encodeFields fields with
      | none => simp
      | some rest => simp

/-
`core/outcome-contract.ts`: contracts that say what proof an outcome needs,
the evaluation of an observer's receipt against one, and the ledger that
lets a receipt be consumed once.

SHA-256, `Date.parse`, the collation, the check of a signature and whether a
ledger is small enough for its file are parameters.
-/

def maxAgeMs : Nat := 10 * 60000

-- ===== patterns

/-- `/^[A-Za-z0-9._:-]{1,256}$/`. -/
def isIdText (text : String) : Bool :=
  1 ≤ text.length && text.length ≤ 256 && text.toList.all fun c =>
    isAlnum c || c == '.' || c == '_' || c == ':' || c == '-'

/-- `/^[a-f0-9]{64}$/`. -/
def isDigestText (text : String) : Bool :=
  matchesClasses (List.replicate 64 isHex) text.toList

/-- `LOCATION`: a scheme, then 1 to 512 of the characters of an identifier or a
slash. -/
def isLocationText (text : String) : Bool :=
  ["artifact:", "journal:", "observer:", "receipt:"].any fun scheme =>
    let rest := text.toList.drop scheme.length
    scheme.toList.isPrefixOf text.toList && 1 ≤ rest.length && rest.length ≤ 512
      && rest.all fun c =>
        isAlnum c || c == '.' || c == '_' || c == ':' || c == '/' || c == '-'

def OutcomeId := { text : String // isIdText text = true }
deriving DecidableEq

-- ===== contracts

inductive OutcomeDomain
  | browser
  | application
  | fileGit
  | buildTest
  | docker
  | trustedDatabase
  | download
deriving DecidableEq

def OutcomeDomain.text : OutcomeDomain → String
  | .browser => "browser"
  | .application => "application"
  | .fileGit => "file-git"
  | .buildTest => "build-test"
  | .docker => "docker"
  | .trustedDatabase => "trusted-database"
  | .download => "download"

structure OutcomeExpectation where
  id : OutcomeId
  description : String
  required : Bool
deriving DecidableEq

structure OutcomeContract where
  contractId : OutcomeId
  domain : OutcomeDomain
  actionId : OutcomeId
  actionDigest : Hex64
  planId : OutcomeId
  planGeneration : PosSafe
  actionGeneration : PosSafe
  principalId : OutcomeId
  deviceId : OutcomeId
  expectations : List OutcomeExpectation
  maxObservationAgeMs : Nat
  issuedAt : Instant
  expiresAt : Instant
deriving DecidableEq

structure Platform where
  sha256 : String → Hex64
  dateParse : String → Option Instant
  localeCompare : String → String → Int
  /-- Whether `verifySignature` answers `true` for a payload and a signature. -/
  verifySignature : String → String → Bool

def contractInvalid {α : Type} (message : String) : Result α :=
  fail .outcomeContractInvalid message

def contractInvalidIf (bad : Prop) [Decidable bad] (message : String) : Result Unit :=
  rejectIf bad .outcomeContractInvalid message

def canonicalIso (platform : Platform) (value : Value) (field : String) :
    Result Instant :=
  match value with
  | .str text =>
    match platform.dateParse text with
    | some at' =>
      if at'.isoText = text then .ok at'
      else contractInvalid (field ++ " must be canonical ISO time.")
    | none => contractInvalid (field ++ " must be canonical ISO time.")
  | _ => contractInvalid (field ++ " must be canonical ISO time.")

def literalId (value : Value) (field : String) : Result OutcomeId :=
  match value with
  | .str text =>
    if h : isIdText text = true then .ok ⟨text, h⟩ else contractInvalid (field ++ " is invalid.")
  | _ => contractInvalid (field ++ " is invalid.")

def literalDigest (value : Value) (field : String) : Result Hex64 :=
  match value with
  | .str text =>
    if h : isDigestText text = true then .ok ⟨text, h⟩
    else contractInvalid (field ++ " is invalid.")
  | _ => contractInvalid (field ++ " is invalid.")

def generation? : Value → Option PosSafe
  | .int n => (Number.int n).posSafe?
  | _ => none

def positiveGeneration (value : Value) (field : String) : Result PosSafe :=
  match generation? value with
  | some generation => .ok generation
  | none => contractInvalid (field ++ " is invalid.")

def readExpectation (item : Value) : Result OutcomeExpectation := do
  let value ← exactPlainRecord item ["id", "description", "required"] .outcomeContractInvalid
  let id ← literalId (value.get "id") "expectation id"
  match value.get "description", value.get "required" with
  | .str description, .bool required =>
    if description.toList.all isBlank = true ∨ 2048 < Json.unitLength description then
      contractInvalid "Expectation is invalid."
    else return { id, description, required }
  | _, _ => contractInvalid "Expectation is invalid."

def readDomain (value : Value) : Result OutcomeDomain :=
  match value with
  | .str text =>
    match [OutcomeDomain.browser, .application, .fileGit, .buildTest, .docker, .trustedDatabase,
        .download].find? fun domain => domain.text == text with
    | some domain => .ok domain
    | none => contractInvalid "domain is invalid."
  | _ => contractInvalid "domain is invalid."

def readMaxObservationAge (value : Value) : Result Nat :=
  match value with
  | .int n =>
    if 1000 ≤ n ∧ n ≤ maxAgeMs then .ok n.toNat
    else contractInvalid "Observation freshness policy is invalid."
  | _ => contractInvalid "Observation freshness policy is invalid."

def contractFields : List String :=
  ["contractId", "domain", "actionId", "actionDigest", "planId", "planGeneration",
    "actionGeneration", "principalId", "deviceId", "expectations", "maxObservationAgeMs",
    "issuedAt", "expiresAt"]

def createOutcomeContract (platform : Platform) (input : Value) :
    Result OutcomeContract := do
  let raw ← exactPlainRecord input contractFields .outcomeContractInvalid
  let domain ← readDomain (raw.get "domain")
  let items ← exactArray (raw.get "expectations") 1 128 .outcomeContractInvalid
  let expectations ← items.mapM readExpectation
  contractInvalidIf (¬ (expectations.map OutcomeExpectation.id).Nodup)
    "Expectation ids must be unique."
  contractInvalidIf (expectations.any OutcomeExpectation.required = false)
    "At least one outcome expectation must be required."
  let maxObservationAgeMs ← readMaxObservationAge (raw.get "maxObservationAgeMs")
  let issuedAt ← canonicalIso platform (raw.get "issuedAt") "issuedAt"
  let expiresAt ← canonicalIso platform (raw.get "expiresAt") "expiresAt"
  contractInvalidIf (expiresAt.val ≤ issuedAt.val) "Outcome contract must expire after issuance."
  return {
    contractId := ← literalId (raw.get "contractId") "contractId"
    domain
    actionId := ← literalId (raw.get "actionId") "actionId"
    actionDigest := ← literalDigest (raw.get "actionDigest") "actionDigest"
    planId := ← literalId (raw.get "planId") "planId"
    planGeneration := ← positiveGeneration (raw.get "planGeneration") "planGeneration"
    actionGeneration := ← positiveGeneration (raw.get "actionGeneration") "actionGeneration"
    principalId := ← literalId (raw.get "principalId") "principalId"
    deviceId := ← literalId (raw.get "deviceId") "deviceId"
    expectations
    maxObservationAgeMs
    issuedAt
    expiresAt }

/-- `revalidateContract(contract)`, of the own fields of a contract. -/
def revalidateContract (platform : Platform) (contract : Fields) :
    Result OutcomeContract := do
  contractInvalidIf ((contract.get "schemaVersion").strictEq (.int 1) = false)
    "Outcome contract schema version is unsupported."
  createOutcomeContract platform
    (.obj 0 none (contract.filter fun field => field.1 != "schemaVersion"))

def OutcomeExpectation.toJson (expectation : OutcomeExpectation) : Json :=
  .obj [("id", .str expectation.id.val), ("description", .str expectation.description),
    ("required", .bool expectation.required)]

def OutcomeContract.toJson (contract : OutcomeContract) : Json :=
  .obj [("schemaVersion", .num "1"), ("contractId", .str contract.contractId.val),
    ("domain", .str contract.domain.text), ("actionId", .str contract.actionId.val),
    ("actionDigest", .str contract.actionDigest.val), ("planId", .str contract.planId.val),
    ("planGeneration", .num (toString contract.planGeneration.val)),
    ("actionGeneration", .num (toString contract.actionGeneration.val)),
    ("principalId", .str contract.principalId.val), ("deviceId", .str contract.deviceId.val),
    ("expectations", .arr (contract.expectations.map OutcomeExpectation.toJson)),
    ("maxObservationAgeMs", .num (toString contract.maxObservationAgeMs)),
    ("issuedAt", .str contract.issuedAt.isoText), ("expiresAt", .str contract.expiresAt.isoText)]

/-- `digest(contract)`. -/
def contractDigest (platform : Platform) (contract : OutcomeContract) : Hex64 :=
  platform.sha256 (Json.canonicalJson contract.toJson)

-- ===== checks

inductive CheckStatus
  | pass
  | fail
  | inconclusive
deriving DecidableEq

def CheckStatus.text : CheckStatus → String
  | .pass => "PASS"
  | .fail => "FAIL"
  | .inconclusive => "INCONCLUSIVE"

structure OutcomeCheck where
  expectationId : OutcomeId
  status : CheckStatus
  evidenceDigest : Hex64
  evidenceLocation : String
deriving DecidableEq

def readStatus (value : Value) : Option CheckStatus :=
  match value with
  | .str text =>
    [CheckStatus.pass, .fail, .inconclusive].find? fun status => status.text == text
  | _ => none

def readLocation (value : Value) : Option String :=
  match value with
  | .str text => if isLocationText text = true then some text else none
  | _ => none

def readCheck (contract : OutcomeContract) (item : Value) : Result OutcomeCheck := do
  let raw ← exactPlainRecord item
    ["expectationId", "status", "evidenceDigest", "evidenceLocation"] .outcomeReceiptInvalid
  let expectationId ← literalId (raw.get "expectationId") "expectationId"
  match readStatus (raw.get "status"), readLocation (raw.get "evidenceLocation") with
  | some status, some evidenceLocation =>
    rejectIf (expectationId ∉ contract.expectations.map OutcomeExpectation.id)
      .outcomeReceiptInvalid
      "Outcome check is not contract-bound or its evidence location is unsafe."
    let evidenceDigest ← literalDigest (raw.get "evidenceDigest") "evidenceDigest"
    return { expectationId, status, evidenceDigest, evidenceLocation }
  | _, _ =>
    OperatorRuntime.fail .outcomeReceiptInvalid
      "Outcome check is not contract-bound or its evidence location is unsafe."

def normalizeChecks (platform : Platform) (input : Value) (contract : OutcomeContract) :
    Result (List OutcomeCheck) := do
  let items ← exactArray input 1 128 .outcomeReceiptInvalid
  let checks ← items.mapM (readCheck contract)
  rejectIf (¬ (checks.map OutcomeCheck.expectationId).Nodup) .outcomeReceiptInvalid
    "Outcome checks must be unique."
  return checks.insertionSort fun a b =>
    platform.localeCompare a.expectationId.val b.expectationId.val ≤ 0

inductive OutcomeDisposition
  | verified
  | partially
  | inconclusive
  | uncertain
  | notComplete
deriving DecidableEq

def OutcomeDisposition.text : OutcomeDisposition → String
  | .verified => "VERIFIED"
  | .partially => "PARTIAL"
  | .inconclusive => "INCONCLUSIVE"
  | .uncertain => "UNCERTAIN"
  | .notComplete => "NOT_COMPLETE"

def statusOf (checks : List OutcomeCheck) (expectation : OutcomeExpectation) : Option CheckStatus :=
  (checks.find? fun check => check.expectationId == expectation.id).map OutcomeCheck.status

def deriveDisposition (contract : OutcomeContract) (checks : List OutcomeCheck) :
    OutcomeDisposition :=
  let required := contract.expectations.filter OutcomeExpectation.required
  let optional := contract.expectations.filter fun expectation => !expectation.required
  if ∃ expectation ∈ required, statusOf checks expectation = none
      ∨ statusOf checks expectation = some .inconclusive then .inconclusive
  else if ∃ expectation ∈ required, statusOf checks expectation = some .fail then .notComplete
  else if ∃ expectation ∈ optional, statusOf checks expectation ≠ some .pass then .partially
  else .verified

-- ===== evaluation

/-- The fields of `IndependentOutcomeReceiptV1`, whatever they hold. -/
structure Receipt where
  schemaVersion : Value
  receiptId : Value
  nonce : Value
  contractDigest : Value
  actionId : Value
  actionDigest : Value
  planId : Value
  planGeneration : Value
  actionGeneration : Value
  principalId : Value
  deviceId : Value
  providerId : Value
  observerId : Value
  observerIndependent : Value
  dispatchedAt : Value
  observedAt : Value
  providerPostStateDigest : Value
  disposition : Value
  checks : Value
  signature : Value

def receiptFields : List String :=
  ["schemaVersion", "receiptId", "nonce", "contractDigest", "actionId", "actionDigest", "planId",
    "planGeneration", "actionGeneration", "principalId", "deviceId", "providerId", "observerId",
    "observerIndependent", "dispatchedAt", "observedAt", "providerPostStateDigest", "disposition",
    "checks", "signature"]

def readReceipt (raw : Fields) : Receipt where
  schemaVersion := raw.get "schemaVersion"
  receiptId := raw.get "receiptId"
  nonce := raw.get "nonce"
  contractDigest := raw.get "contractDigest"
  actionId := raw.get "actionId"
  actionDigest := raw.get "actionDigest"
  planId := raw.get "planId"
  planGeneration := raw.get "planGeneration"
  actionGeneration := raw.get "actionGeneration"
  principalId := raw.get "principalId"
  deviceId := raw.get "deviceId"
  providerId := raw.get "providerId"
  observerId := raw.get "observerId"
  observerIndependent := raw.get "observerIndependent"
  dispatchedAt := raw.get "dispatchedAt"
  observedAt := raw.get "observedAt"
  providerPostStateDigest := raw.get "providerPostStateDigest"
  disposition := raw.get "disposition"
  checks := raw.get "checks"
  signature := raw.get "signature"

structure Failure where
  code : String
  evidenceLocation : Option String := none
deriving DecidableEq

structure OutcomeEvaluation where
  disposition : OutcomeDisposition
  verified : Bool
  receiptDigest : Hex64
  failures : List Failure

/-- `receipt.f === contract.f` for every bound field, an independent observer
and another one than the provider. -/
def bindingsMatch (platform : Platform) (contract : OutcomeContract) (receipt : Receipt) : Bool :=
  receipt.schemaVersion.strictEq (.int 1)
    && receipt.contractDigest.strictEq (.str (contractDigest platform contract).val)
    && receipt.actionId.strictEq (.str contract.actionId.val)
    && receipt.actionDigest.strictEq (.str contract.actionDigest.val)
    && receipt.planId.strictEq (.str contract.planId.val)
    && receipt.planGeneration.strictEq (.int contract.planGeneration.val)
    && receipt.actionGeneration.strictEq (.int contract.actionGeneration.val)
    && receipt.principalId.strictEq (.str contract.principalId.val)
    && receipt.deviceId.strictEq (.str contract.deviceId.val)
    && receipt.observerIndependent.strictEq (.bool true)
    && !receipt.providerId.strictEq receipt.observerId

def claimedDisposition (receipt : Receipt) : Option OutcomeDisposition :=
  match receipt.disposition with
  | .str text =>
    [OutcomeDisposition.verified, .partially, .inconclusive, .uncertain, .notComplete].find?
      fun disposition => disposition.text == text
  | _ => none

/-- The schema of a receipt, as far as it is checked beside the bindings. -/
def schemaValid (receipt : Receipt) : Result Bool := do
  let texts ← testAll [(isIdText, receipt.receiptId), (isIdText, receipt.nonce),
    (isIdText, receipt.providerId), (isIdText, receipt.observerId),
    (isDigestText, receipt.contractDigest), (isDigestText, receipt.actionDigest)]
  return texts && (claimedDisposition receipt).isSome && (generation? receipt.planGeneration).isSome
    && (generation? receipt.actionGeneration).isSome

/-- `Date.parse(value)`. -/
def parseTime (platform : Platform) (value : Value) : Result (Option Instant) :=
  match value.text? with
  | some text => .ok (platform.dateParse text)
  | none => fail .typeError "Cannot convert object to primitive value"

/-- Whether an observation is outside its window. A dispatch that is no time
is not compared. -/
def observationStale (platform : Platform) (contract : OutcomeContract) (receipt : Receipt)
    (now : Instant) : Result Bool := do
  let observedAt ← parseTime platform receipt.observedAt
  match observedAt with
  | none => return true
  | some observedAt => do
    let dispatchedAt ← parseTime platform receipt.dispatchedAt
    return dispatchedAt.any (fun dispatchedAt => observedAt.val < dispatchedAt.val)
      || observedAt.val < contract.issuedAt.val || contract.expiresAt.val < observedAt.val
      || (contract.maxObservationAgeMs : Int) < now.val - observedAt.val
      || now.val < observedAt.val

/-- Whether the signature of a receipt verifies over the receipt without it. -/
def signatureValid (platform : Platform) (raw : Fields) (receipt : Receipt) : Bool :=
  match receipt.signature with
  | .str signature =>
    32 ≤ Json.unitLength signature && Json.unitLength signature ≤ 4096
      && (canonicalText (raw.filter fun field => field.1 != "signature")).any fun payload =>
        platform.verifySignature payload signature
  | _ => false

def derivedDisposition (contract : OutcomeContract) (receipt : Receipt)
    (checks : List OutcomeCheck) : OutcomeDisposition :=
  if claimedDisposition receipt = some .uncertain
      ∧ ∃ check ∈ checks, check.status = .inconclusive then .uncertain
  else if checks = [] then .inconclusive
  else deriveDisposition contract checks

/-- The checks of a receipt, none where they are not those of a contract. -/
def readChecks (platform : Platform) (contract : OutcomeContract) (receipt : Receipt) :
    Option (List OutcomeCheck) :=
  (normalizeChecks platform receipt.checks contract).toOption

/-- `evaluateIndependentOutcome({ contract, receipt, now, verifySignature })`;
`now` is the clock's time where none is given. -/
def evaluateIndependentOutcome (platform : Platform) (contractInput : Fields) (receiptInput : Value)
    (nowInput : Value) : Result OutcomeEvaluation := do
  let contract ← revalidateContract platform contractInput
  let raw ← exactPlainRecord receiptInput receiptFields .outcomeReceiptInvalid
  let receipt := readReceipt raw
  let schema ← schemaValid receipt
  let normalized := readChecks platform contract receipt
  let now ← canonicalIso platform nowInput "now"
  let stale ← observationStale platform contract receipt now
  let postState ← test isDigestText receipt.providerPostStateDigest
  let checks := normalized.getD []
  let derived := derivedDisposition contract receipt checks
  let failures :=
    (if bindingsMatch platform contract receipt = true then []
      else [{ code := "IDENTITY_BINDING_MISMATCH" }])
    ++ (if schema = true then [] else [{ code := "RECEIPT_SCHEMA_INVALID" }])
    ++ (if normalized.isSome = true then [] else [{ code := "CHECK_CONTRACT_INVALID" }])
    ++ (if stale = true then [{ code := "OBSERVATION_STALE" }] else [])
    ++ (if postState = true then [] else [{ code := "POST_STATE_DIGEST_INVALID" }])
    ++ (if signatureValid platform raw receipt = true then [] else [{ code := "SIGNATURE_INVALID" }])
    ++ (if claimedDisposition receipt = some derived then [] else [{ code := "DISPOSITION_MISMATCH" }])
    ++ (checks.filter fun check => check.status ≠ .pass).map fun check =>
      { code := "EXPECTATION_" ++ check.status.text, evidenceLocation := some check.evidenceLocation }
  let verified : Bool := failures = [] ∧ derived = .verified
  match canonicalText raw with
  | some text =>
    return {
      disposition := if verified = true then .verified
        else if derived = .verified then .inconclusive else derived
      verified
      receiptDigest := platform.sha256 text
      failures }
  | none => fail .typeError "Do not know how to serialize a value"

-- ===== ledger

def maxConsumed : Nat := 20000

structure ConsumedReceipt where
  receiptId : String
  nonce : String
  digest : Hex64
deriving DecidableEq

abbrev Ledger := List ConsumedReceipt

/-- What `consume` checks of the state it reads. -/
def readLedger (ledger : Ledger) : Result Ledger := do
  rejectIf (maxConsumed < ledger.length) .outcomeReceiptLedgerCorrupt
    "Outcome replay ledger shape is invalid."
  return ledger

def receiptIdentity (receipt : Fields) : Result (String × String) :=
  match receipt.get "receiptId", receipt.get "nonce" with
  | .str receiptId, .str nonce => .ok (receiptId, nonce)
  | _, _ => fail .outcomeReceiptInvalid "Receipt identity is invalid."

/-- `consume(receipt)`: the ledger it writes; `fits` says whether the file is
large enough for it. -/
def consume (platform : Platform) (fits : Ledger → Bool) (ledger : Ledger) (receipt : Fields) :
    Result Ledger := do
  let (receiptId, nonce) ← receiptIdentity receipt
  let consumed ← readLedger ledger
  rejectIf (∃ item ∈ consumed, item.receiptId = receiptId ∨ item.nonce = nonce)
    .outcomeReceiptReplay "Outcome receipt or nonce was already consumed."
  match canonicalText receipt with
  | some text =>
    let written := consumed ++ [{ receiptId, nonce, digest := platform.sha256 text }]
    rejectIf (fits written = false) .outcomeReceiptLedgerCorrupt
      "Outcome receipt replay ledger is invalid."
    return written
  | none => fail .typeError "Do not know how to serialize a value"

end OperatorRuntime.Outcome
