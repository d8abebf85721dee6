/-
`DurableModelCallBudgetLedger` of `core/durable-model-call-budget-ledger.ts`:
two files, the initialization marker and the ledger. A call reads both,
decides, and makes its durable writes in order; each write replaces a file
as a whole, so a crash leaves a prefix of the writes (`Turn.stop`). Calls
run one at a time under the durable lock.

A file is kept as the value its JSON text stands for: the shape checks of
what `JSON.stringify` wrote are left out, as are directory checks and the
size limit (1000 reservations of at most 963 bytes stay below 1 MiB).
Identifiers are texts that passed their test.
-/
import Mathlib.Algebra.GroupWithZero.Nat
import OperatorRuntime.Json
import OperatorRuntime.Lib.Runs
import OperatorRuntime.Policy.Delegation

namespace OperatorRuntime.ModelBudget

open Lib

-- ===== values

/-- `/^[0-9a-f]{8}-[0-9a-f]{4}-[0-9a-f]{4}-[0-9a-f]{4}-[0-9a-f]{12}$/i`. -/
def idClasses : List (Char → Bool) :=
  List.replicate 8 isHex ++ [isDash] ++ List.replicate 4 isHex ++ [isDash]
    ++ List.replicate 4 isHex ++ [isDash] ++ List.replicate 4 isHex ++ [isDash]
    ++ List.replicate 12 isHex

def isId (value : String) : Bool :=
  matchesClasses idClasses (value.map Char.toLower).toList

/-- A text that passes `UUID.test`. -/
def Id := { text : String // isId text = true }
deriving DecidableEq

def id? (value : String) : Option Id :=
  if h : isId value = true then some ⟨value, h⟩ else none

/-- `allowedInt(value, low, high)`, with the value. -/
def allowedInt (value : Number) (low high : Nat) : Option Nat :=
  match value.safeFrom? low with
  | some n => if n ≤ high then some n else none
  | none => none

inductive Status
  | reserved
  | validatedProposal
  | unknownSpend
deriving DecidableEq

structure Limits where
  maxCalls : Nat
  maxOutputTokens : Nat
  maxCostMicros : Nat
deriving DecidableEq

/-- `validLimits(value)`. -/
def Limits.valid (limits : Limits) : Prop :=
  (1 ≤ limits.maxCalls ∧ limits.maxCalls ≤ 1000)
    ∧ (64 ≤ limits.maxOutputTokens ∧ limits.maxOutputTokens ≤ 4096000)
    ∧ limits.maxCostMicros ≤ 1000000000

instance (limits : Limits) : Decidable limits.valid :=
  inferInstanceAs (Decidable ((_ ∧ _) ∧ (_ ∧ _) ∧ _))

/-- The limits of a ledger that could be constructed. -/
def Profile := { limits : Limits // limits.valid }

/-- `#profileDigest()`: the keys in the order the caller gave them. -/
def Limits.profileDigest (limits : Limits) : Hex64 :=
  sha256Utf8 (Json.stringify (.obj [("maxCalls", .num (toString limits.maxCalls)),
    ("maxOutputTokens", .num (toString limits.maxOutputTokens)),
    ("maxCostMicros", .num (toString limits.maxCostMicros))]))

structure RecordEntry where
  reservationId : Id
  callId : Id
  modelId : String
  maxOutputTokens : Nat
  maxCostMicros : Nat
  status : Status
deriving DecidableEq

def validRecord (e : RecordEntry) : Prop :=
  (1 ≤ Json.unitLength e.modelId ∧ Json.unitLength e.modelId ≤ 128)
    ∧ Principals.trim e.modelId = e.modelId
    ∧ (64 ≤ e.maxOutputTokens ∧ e.maxOutputTokens ≤ 4096) ∧ e.maxCostMicros ≤ 2000000

instance (e : RecordEntry) : Decidable (validRecord e) :=
  inferInstanceAs (Decidable ((_ ∧ _) ∧ _ ∧ (_ ∧ _) ∧ _))

structure BudgetFile where
  schemaVersion : Nat
  limits : Limits
  reservations : List RecordEntry

structure Marker where
  schemaVersion : Nat
  profileDigest : Hex64
deriving DecidableEq

/-- The two files. -/
structure Disk where
  marker : Option Marker
  ledger : Option BudgetFile

def Disk.reservations (disk : Disk) : List RecordEntry :=
  match disk.ledger with
  | some file => file.reservations
  | none => []

def tokensOf (reservations : List RecordEntry) : Nat :=
  (reservations.map (·.maxOutputTokens)).sum

def costOf (reservations : List RecordEntry) : Nat :=
  (reservations.map (·.maxCostMicros)).sum

-- ===== reading

def corruptIf (bad : Prop) [Decidable bad] (message : String) : Result Unit :=
  rejectIf bad .taskModelBudgetLedgerCorrupt message

/-- The loop of `validateFile`. -/
def checkReservations (expected : Limits) (tokenSum costSum : Nat) (calls reservations : List Id) :
    List RecordEntry → Result Unit
  | [] => .ok ()
  | item :: items => do
    corruptIf (¬ validRecord item ∨ item.callId ∈ calls ∨ item.reservationId ∈ reservations)
      "Stored model budget contains an invalid or duplicate reservation."
    let tokenSum := tokenSum + item.maxOutputTokens
    let costSum := costSum + item.maxCostMicros
    corruptIf (maxSafeInteger < tokenSum ∨ maxSafeInteger < costSum
        ∨ expected.maxOutputTokens < tokenSum ∨ expected.maxCostMicros < costSum)
      "Persisted model reservations exceed the budget."
    checkReservations expected tokenSum costSum (item.callId :: calls)
      (item.reservationId :: reservations) items

def validateFile (input : BudgetFile) (expected : Limits) : Result BudgetFile := do
  corruptIf (input.schemaVersion ≠ 1 ∨ ¬ input.limits.valid
      ∨ expected.maxCalls < input.reservations.length)
    "Stored model budget shape or counts are invalid."
  rejectIf (input.limits ≠ expected) .taskModelBudgetProfileChanged
    "Existing durable model budget cannot be silently increased, lowered, or reset."
  checkReservations expected 0 0 [] [] input.reservations
  .ok input

section
variable (limits : Limits)

/-- The marker of the profile. -/
def stamp : Marker := ⟨1, limits.profileDigest⟩

/-- The marker is read and is that of the profile. -/
def checkMarker (marker : Marker) (message : String) : Result Unit :=
  corruptIf (marker.schemaVersion ≠ 1 ∨ marker.profileDigest ≠ limits.profileDigest) message

def read (disk : Disk) : Result BudgetFile := do
  let initialized ← match disk.marker with
    | some marker => do
      checkMarker limits marker
        "Model ledger initialization marker is invalid or its budget profile changed."
      .ok true
    | none => .ok false
  match disk.ledger with
  | none => do
    corruptIf (initialized = true)
      "Previously initialized model budget ledger disappeared; never reset the consumed budget."
    .ok ⟨1, limits, []⟩
  | some file => do
    corruptIf (initialized = false)
      "Existing model ledger lacks its durable initialization marker."
    validateFile file limits

-- ===== calls

inductive Write
  | marker (marker : Marker)
  | ledger (file : BudgetFile)

def Disk.write (disk : Disk) : Write → Disk
  | .marker marker => { disk with marker := some marker }
  | .ledger file => { disk with ledger := some file }

def Disk.after (disk : Disk) (writes : List Write) : Disk :=
  writes.foldl Disk.write disk

structure ReserveInput where
  callId : String
  modelId : String
  maxOutputTokens : Number
  maxCostMicros : Number

def newEntry (input : ReserveInput) (reservationId : Id) : Result RecordEntry :=
  match id? input.callId, allowedInt input.maxOutputTokens 64 4096,
      allowedInt input.maxCostMicros 0 2000000 with
  | some callId, some maxOutputTokens, some maxCostMicros => do
    rejectIf (Principals.trim input.modelId = "" ∨ Principals.trim input.modelId ≠ input.modelId
        ∨ 128 < Json.unitLength input.modelId)
      .taskModelBudgetReservationInvalid "Model call reservation is invalid."
    .ok ⟨reservationId, callId, input.modelId, maxOutputTokens, maxCostMicros, .reserved⟩
  | _, _, _ => fail .taskModelBudgetReservationInvalid "Model call reservation is invalid."

def createMarker (disk : Disk) (state : BudgetFile) : Result (List Write) :=
  if state.reservations.length = 1 then
    match disk.marker with
    | none => .ok [.marker (stamp limits)]
    | some marker => do
      checkMarker limits marker "Conflicting budget initialization marker."
      .ok []
  else .ok []

/-- What a new reservation would exceed. -/
def exhausted (reservations : List RecordEntry) (entry : RecordEntry) : Prop :=
  limits.maxCalls ≤ reservations.length
    ∨ limits.maxOutputTokens < tokensOf reservations + entry.maxOutputTokens
    ∨ limits.maxCostMicros < costOf reservations + entry.maxCostMicros

instance (reservations : List RecordEntry) (entry : RecordEntry) :
    Decidable (exhausted limits reservations entry) :=
  inferInstanceAs (Decidable (_ ∨ _ ∨ _))

/-- `reserve(input)`, with the UUID it draws: its writes, and the record
whose `reservationId` it answers. -/
def reserve (disk : Disk) (input : ReserveInput) (reservationId : Id) :
    Result (List Write × RecordEntry) := do
  let entry ← newEntry input reservationId
  let state ← read limits disk
  rejectIf (∃ record ∈ state.reservations, record.callId = entry.callId)
    .taskModelBudgetDuplicate
    "Reusing a model call identity cannot create a new reservation."
  rejectIf (exhausted limits state.reservations entry) .taskModelBudgetExhausted
    "Durably reserved model calls, output tokens or spending would exceed the owner-set budget."
  let state := { state with reservations := state.reservations ++ [entry] }
  let first ← createMarker limits disk state
  .ok (first ++ [.ledger state], entry)

structure FinalizeInput where
  reservationId : String
  callId : String
  outcome : Status

/-- `finalize(input)`: its writes. -/
def finalize (disk : Disk) (input : FinalizeInput) : Result (List Write) := do
  rejectIf (isId input.reservationId = false ∨ isId input.callId = false
      ∨ input.outcome = .reserved)
    .taskModelBudgetFinalizationInvalid "Model finalization identity is invalid."
  let state ← read limits disk
  match state.reservations.find? fun record =>
      record.reservationId.val == input.reservationId && record.callId.val == input.callId with
  | none =>
    fail .taskModelBudgetUnknownReservation "No matching prior durable reservation."
  | some item =>
    if item.status = input.outcome then .ok []
    else do
      rejectIf (item.status ≠ .reserved) .taskModelBudgetSettlementConflict
        "An already finalized model call cannot be reclassified or refunded."
      .ok [.ledger { state with
        reservations := state.reservations.map fun record =>
          if record = item then { record with status := input.outcome } else record }]

structure Summary where
  calls : Nat
  tokensReserved : Nat
  costMicrosReserved : Nat
  outstanding : Nat
  unknownSpend : Nat
  remainingCalls : Int
  remainingTokens : Int
  remainingCostMicros : Int

def inspect (disk : Disk) : Result Summary := do
  let state ← read limits disk
  let count (status : Status) := (state.reservations.filter fun r => r.status = status).length
  .ok
    { calls := state.reservations.length
      tokensReserved := tokensOf state.reservations
      costMicrosReserved := costOf state.reservations
      outstanding := count .reserved
      unknownSpend := count .unknownSpend
      remainingCalls := limits.maxCalls - state.reservations.length
      remainingTokens := limits.maxOutputTokens - tokensOf state.reservations
      remainingCostMicros := limits.maxCostMicros - costOf state.reservations }

-- ===== runs

inductive Call
  | reserve (input : ReserveInput) (reservationId : Id)
  | finalize (input : FinalizeInput)
  | inspect

/-- A call, and after how many of its durable writes it is cut off. -/
structure Turn where
  call : Call
  stop : Option Nat

def Call.draws : Call → List Id
  | .reserve _ reservationId => [reservationId]
  | _ => []

def Call.plan (disk : Disk) : Call → Result (List Write × List RecordEntry)
  | .reserve input reservationId => do
    let (writes, entry) ← ModelBudget.reserve limits disk input reservationId
    .ok (writes, [entry])
  | .finalize input => do
    let writes ← ModelBudget.finalize limits disk input
    .ok (writes, [])
  | .inspect => do
    let _ ← ModelBudget.inspect limits disk
    .ok ([], [])

/-- The disk, the identifiers drawn so far, and the reservations that calls
have returned. -/
structure Machine where
  disk : Disk
  drawn : List Id
  returned : List RecordEntry

def start : Machine := ⟨⟨none, none⟩, [], []⟩

def Machine.after (m : Machine) (turn : Turn) : Machine :=
  let drawn := m.drawn ++ turn.call.draws
  match turn.call.plan limits m.disk with
  | .error _ => { m with drawn }
  | .ok (writes, entries) =>
    match turn.stop with
    | none => ⟨m.disk.after writes, drawn, m.returned ++ entries⟩
    | some count => ⟨m.disk.after (writes.take count), drawn, m.returned⟩

/-- A turn; `randomUUID` answers no identifier twice. -/
def step (m : Machine) (turn : Turn) : Option Machine :=
  if ∀ drawn ∈ turn.call.draws, drawn ∉ m.drawn then some (m.after limits turn) else none

/-- The call is not cut off between the marker and the first ledger. -/
def Spared (m : Machine) (turn : Turn) : Prop :=
  ∀ marker file entries, turn.call.plan limits m.disk = .ok ([.marker marker, .ledger file], entries) →
    turn.stop ≠ some 1

end

end OperatorRuntime.ModelBudget
