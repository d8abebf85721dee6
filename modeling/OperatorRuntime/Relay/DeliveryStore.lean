/-
`core/relay-delivery-store.ts`, the data model: per-device delivery
streams, the field validators, the maintenance passes (`expirePending`,
`compactStream`) and `validateState`. The operations stand in
`DeliveryOps.lean`.

# Reading the model

Records keep the source's fields. A mutation of the record that `find`
returned is `updateFirst` on the list it was found in; a `while` loop is
`whileSome` over the function that performs one round. Identifiers,
digests and timestamps carry their format in their types (`Text.lean`),
so `validateState` here makes the checks that relate fields to each
other, in the source's order.
-/
import Mathlib.Algebra.GroupWithZero.Nat
import Mathlib.Data.String.Basic
import OperatorRuntime.Json
import OperatorRuntime.Lib.Keyed
import OperatorRuntime.Lib.Runs
import OperatorRuntime.Text

namespace OperatorRuntime.Relay

open Lib

def maxStreams : Nat := 10000
def maxDeliveriesLimit : Nat := 10000
def maxPayloadBytes : Nat := 128 * 1024
def maxKind : Nat := 128
def maxPendingReturn : Nat := 500
def maxRequiredCapabilities : Nat := 128
def maxRetentionMs : Nat := 30 * 24 * 60 * 60000

-- ===== the records

/-- `/^[A-Za-z0-9][A-Za-z0-9._:-]*$/`, at most `MAX_KIND` characters. -/
def isKind (text : String) : Bool :=
  match text.toList with
  | [] => false
  | c :: cs =>
    cs.length < maxKind && isAlnum c
      && cs.all fun c => isAlnum c || c == '.' || c == '_' || c == ':'
        || c == '-'

def Kind := { text : String // isKind text = true }
deriving DecidableEq

structure RelayDeliveryAuthority where
  accountId : Uuid
  deviceId : Uuid
  generation : PosSafe
deriving DecidableEq

/-- `StoredRelayDelivery.status`. -/
inductive DeliveryStatus
  | pending
  | acked
  | expired
deriving DecidableEq, Repr

structure StoredRelayDelivery where
  seq : Nat
  id : Uuid
  kind : Kind
  payload : JsonObject
  requiredCapabilities : Option (List String) := none
  authority : Option RelayDeliveryAuthority := none
  replayAuthority : Option RelayDeliveryAuthority := none
  idempotencyKey : Option Hex64 := none
  /-- Survives the scrubbing of the payload. -/
  idempotencyContractDigest : Option Hex64 := none
  idempotencyReleasedAt : Option Instant := none
  createdAt : Instant
  status : DeliveryStatus
  ackedAt : Option Instant := none
  expiredAt : Option Instant := none

structure DeviceDeliveryStream where
  deviceId : Uuid
  /-- First sequence still represented by a retained delivery. -/
  baseSeq : Nat
  nextSeq : Nat
  lastAckedSeq : Nat
  /-- Highest compacted sequence that was acknowledged. -/
  highestCompactedAckedSeq : Nat
  deliveries : List StoredRelayDelivery

structure RelayDeliveryState where
  streams : List DeviceDeliveryStream

/-- `{ version: 2, streams: [] }`, what `#read` returns without a file. -/
def RelayDeliveryState.empty : RelayDeliveryState := { streams := [] }

/-- A store's options after `boundedRetention`, `boundedMaxDeliveries`
and `boundedReplayWindow`, with the hash `node:crypto` provides. -/
structure StoreConfig where
  retentionMs : Nat
  maxDeliveriesPerStream : Nat
  terminalReplayWindow : Nat
  sha256 : String → Hex64
  retention_bounds : 60000 ≤ retentionMs ∧ retentionMs ≤ maxRetentionMs
  deliveries_bounds :
    2 ≤ maxDeliveriesPerStream ∧ maxDeliveriesPerStream ≤ maxDeliveriesLimit
  window_bounds :
    1 ≤ terminalReplayWindow ∧ terminalReplayWindow < maxDeliveriesPerStream

-- ===== field validators

def validUuid (value label : String) : Result Uuid :=
  if h : matchesClasses uuidClasses (value.map Char.toLower).toList = true then
    .ok ⟨value.map Char.toLower, h⟩
  else fail .relayIdInvalid s!"{label} must be a UUID."

def validKind (value : String) : Result Kind :=
  if h : isKind value = true then .ok ⟨value, h⟩
  else fail .relayKindInvalid "Relay delivery kind is invalid."

def validIdempotencyKey (value : String) : Result Hex64 :=
  match hex64? value with
  | some key => .ok key
  | none => fail .relayIdempotencyInvalid "Relay idempotency key is invalid."

def validSeq (value : Number) : Result Nat :=
  match value.safeFrom? 1 with
  | some seq => .ok seq
  | none => fail .relaySequenceInvalid
      "Relay sequence must be a positive safe integer."

def validNonNegativeSeq (value : Number) : Result Nat :=
  match value.safeFrom? 0 with
  | some seq => .ok seq
  | none => fail .relaySequenceInvalid
      "Relay sequence must be a non-negative safe integer."

def boundedLimit (value : Number) : Result Nat :=
  match value.safeFrom? 1 with
  | some limit =>
    if limit ≤ maxPendingReturn then .ok limit
    else fail .relayLimitInvalid
      "Relay delivery limit must be between 1 and 500."
  | none => fail .relayLimitInvalid
      "Relay delivery limit must be between 1 and 500."

/-- The JSON round trip of a payload, bounded by its encoded size. -/
def safePayload (input : Json) : Result JsonObject :=
  match input with
  | .obj fields =>
    if maxPayloadBytes < (Json.obj fields).stringify.utf8ByteSize then
      fail .relayPayloadTooLarge
        "Relay delivery payload exceeds 131072 bytes."
    else .ok fields
  | _ => fail .relayPayloadInvalid
      "Relay delivery payload must be a JSON object."

/-- `/^[A-Za-z0-9][A-Za-z0-9._:/*-]{0,127}$/`. -/
def isCapability (text : String) : Bool :=
  match text.toList with
  | [] => false
  | c :: cs =>
    cs.length ≤ 127 && isAlnum c && cs.all fun c => isAlnum c || c == '.' || c == '_' || c == ':'
        || c == '/' || c == '*' || c == '-'

/-- Deduplicated and sorted requirements; on the admitted characters
code-unit order is the order of Lean strings. -/
def safeRequiredCapabilities (input : List String) : Result (List String) :=
  if maxRequiredCapabilities < input.length then
    fail .relayCapabilityRequirementsInvalid
      "Relay capability requirements must be an array of at most 128 entries."
  else if input.all isCapability then
    .ok (input.dedup.insertionSort (· ≤ ·))
  else fail .relayCapabilityRequirementsInvalid
    "Relay capability requirement is invalid."

/-- An authority as a caller passes it. -/
structure AuthorityInput where
  accountId : String
  deviceId : String
  generation : Number

/-- The stream binding `safeAuthority` checks. -/
def boundToDevice (authority : RelayDeliveryAuthority) (expected : Uuid) :
    Result RelayDeliveryAuthority :=
  if authority.deviceId ≠ expected then
    fail .relayQueueCorrupt
      "Relay delivery authority device does not match its stream."
  else .ok authority

def validGeneration (value : Number) : Result PosSafe :=
  match value.posSafe? with
  | some generation => .ok generation
  | none => fail .relayQueueCorrupt
      "Relay delivery authority generation is invalid."

def safeAuthority (input : AuthorityInput) (expected : Uuid) :
    Result RelayDeliveryAuthority := do
  let accountId ← validUuid input.accountId "authority accountId"
  let deviceId ← validUuid input.deviceId "authority deviceId"
  rejectIf (deviceId ≠ expected) .relayQueueCorrupt
    "Relay delivery authority device does not match its stream."
  let generation ← validGeneration input.generation
  .ok { accountId, deviceId, generation }

-- === the contract digest

def RelayDeliveryAuthority.toJson (a : RelayDeliveryAuthority) : Json :=
  .obj [("accountId", .str a.accountId.val), ("deviceId", .str a.deviceId.val),
    ("generation", .num (toString a.generation.val))]

def relayIdempotencyContractDigest (cfg : StoreConfig) (kind : Kind)
    (payload : JsonObject) (authority : Option RelayDeliveryAuthority)
    (requiredCapabilities : List String) : Hex64 :=
  cfg.sha256 ("mecord-relay-idempotency-v1\x00" ++ Json.canonicalJson (.obj
    [("kind", .str kind.val), ("payload", .obj payload),
      ("authority", (authority.map (·.toJson)).getD .null),
      ("requiredCapabilities", .arr (requiredCapabilities.map .str))]))

/-- Requirements of a delivery stored before they were a field. -/
def legacyRequiredCapabilities (kind : Kind) (payload : JsonObject)
    (status : DeliveryStatus) (authority : Option RelayDeliveryAuthority) :
    Result (Option (List String)) :=
  if status ≠ .pending ∨ authority.isNone ∨ kind.val ≠ "action" then .ok none
  else
    match (Json.obj payload).field? "action" with
    | some (.obj action) =>
      match (Json.obj action).field? "capability" with
      | some (.str capability) =>
        (safeRequiredCapabilities [capability]).map some
      | _ => .ok none
    | _ => .ok none

-- ===== maintenance

def expireDelivery (expiredAt : Instant) (d : StoredRelayDelivery) : StoredRelayDelivery :=
  { d with
    status := .expired
    expiredAt := some expiredAt
    ackedAt := none
    payload := []
    requiredCapabilities := none
    replayAuthority := if d.idempotencyKey.isSome then d.authority else none
    authority := none
    idempotencyReleasedAt := none }

/-- The write of `acknowledge` and of one round of
`reconcileClientCursor`. -/
def ackDelivery (ackedAt : Instant) (d : StoredRelayDelivery) : StoredRelayDelivery :=
  { d with
    status := .acked
    ackedAt := some ackedAt
    payload := []
    requiredCapabilities := none
    authority := none }

/-- The delivery right above the acknowledgement cursor. -/
def DeviceDeliveryStream.head? (s : DeviceDeliveryStream) : Option StoredRelayDelivery :=
  s.deliveries.find? fun d => d.seq == s.lastAckedSeq + 1

/-- Settle the delivery right above the cursor with `settle` and move
the cursor onto it. -/
def DeviceDeliveryStream.advance (settle : StoredRelayDelivery →
    StoredRelayDelivery) (s : DeviceDeliveryStream) : DeviceDeliveryStream :=
  { s with
    deliveries :=
      updateFirst (fun d => d.seq == s.lastAckedSeq + 1) settle s.deliveries
    lastAckedSeq := s.lastAckedSeq + 1 }

def expireHead? (now : Instant) (retentionMs : Nat)
    (s : DeviceDeliveryStream) : Option DeviceDeliveryStream :=
  match s.head? with
  | none => none
  | some next =>
    if next.status ≠ .pending ∨ now.val - retentionMs < next.createdAt.val
    then none
    else some (s.advance (expireDelivery now))

def terminalAt (d : StoredRelayDelivery) : Option Instant :=
  match d.status with
  | .acked => d.ackedAt
  | .expired => d.expiredAt
  | .pending => none

/-- The write that frees a terminal delivery's idempotency key. -/
def freeKey (d : StoredRelayDelivery) : StoredRelayDelivery :=
  { d with
    idempotencyKey := none
    idempotencyContractDigest := none
    idempotencyReleasedAt := none
    replayAuthority := none }

def releaseIdempotency (now : Instant) (retentionMs : Nat)
    (d : StoredRelayDelivery) : StoredRelayDelivery :=
  if d.idempotencyKey.isNone then d
  else
    match terminalAt d with
    | none => d
    | some at' => if now.val - retentionMs < at'.val then d else freeKey d

/-- `expirePending` on one stream. Every round settles one more pending
delivery, so as many rounds as there are deliveries are enough. -/
def expireStream (now : Instant) (retentionMs : Nat)
    (s : DeviceDeliveryStream) : DeviceDeliveryStream :=
  let expired := whileSome (expireHead? now retentionMs) s.deliveries.length s
  { expired with
    deliveries := expired.deliveries.map (releaseIdempotency now retentionMs) }

def compactHead? (s : DeviceDeliveryStream) : Option DeviceDeliveryStream :=
  match s.deliveries with
  | [] => none
  | d :: rest =>
    if d.seq ≠ s.baseSeq ∨ s.lastAckedSeq < d.seq ∨ d.status = .pending then
      none
    else if d.idempotencyKey.isSome ∨ d.replayAuthority.isSome then none
    else some { s with
      highestCompactedAckedSeq :=
        if d.status = .acked then max s.highestCompactedAckedSeq d.seq
        else s.highestCompactedAckedSeq
      deliveries := rest
      baseSeq := d.seq + 1 }

/-- How many retained deliveries stand at or below the cursor. -/
def terminalCount (s : DeviceDeliveryStream) : Nat :=
  (s.deliveries.takeWhile fun d => d.seq ≤ s.lastAckedSeq).length

/-- `compactStream`: the loop bound `removable` is its own budget. -/
def compactStream (replayWindow : Nat) (s : DeviceDeliveryStream) : DeviceDeliveryStream :=
  let compacted := whileSome compactHead? (terminalCount s - replayWindow) s
  if compacted.deliveries.isEmpty then
    { compacted with baseSeq := compacted.nextSeq }
  else compacted

/-- `#maintain`: expiry over every stream, then compaction over every
stream; the answer counts the expired deliveries, one per cursor move. -/
def maintain (cfg : StoreConfig) (clock : ClockReading) (state : RelayDeliveryState) :
    Result (Nat × RelayDeliveryState) := do
  let now ← toISOString clock
  let expired := state.streams.map (expireStream now cfg.retentionMs)
  let count := (expired.map (·.lastAckedSeq)).sum - (state.streams.map (·.lastAckedSeq)).sum
  .ok (count, { streams := expired.map (compactStream cfg.terminalReplayWindow) })

def newStream (deviceId : Uuid) : DeviceDeliveryStream :=
  { deviceId, baseSeq := 1, nextSeq := 1, lastAckedSeq := 0,
    highestCompactedAckedSeq := 0, deliveries := [] }

def getOrCreateStream (state : RelayDeliveryState) (deviceId : Uuid) :
    Result (DeviceDeliveryStream × RelayDeliveryState) :=
  match state.streams.find? fun s => s.deviceId == deviceId with
  | some existing => .ok (existing, state)
  | none =>
    if maxStreams ≤ state.streams.length then
      fail .relayStreamLimit "At most 10000 device streams may be stored."
    else
      let stream := newStream deviceId
      let streams := state.streams ++ [stream]
      .ok (stream, { streams := streams.insertionSort fun a b =>
        a.deviceId.le b.deviceId })

-- ===== validateState

/-- The body of `validateState`'s loop over one stream's deliveries,
after the duplicate test. -/
def validateStoredDelivery (cfg : StoreConfig) (s : DeviceDeliveryStream)
    (d : StoredRelayDelivery) : Result StoredRelayDelivery := do
  rejectIf (d.seq < s.baseSeq ∨ s.nextSeq ≤ d.seq) .relayQueueCorrupt
    "Retained delivery sequence must fall inside the retained stream window."
  let payload ← safePayload (.obj d.payload)
  let authority ← d.authority.mapM (boundToDevice · s.deviceId)
  let replayAuthority ← d.replayAuthority.mapM (boundToDevice · s.deviceId)
  rejectIf (d.idempotencyContractDigest.isSome ∧ d.idempotencyKey.isNone)
    .relayQueueCorrupt "Invocation contract digest must have a retained key."
  rejectIf (d.idempotencyReleasedAt.isSome ∧ d.idempotencyKey.isNone)
    .relayQueueCorrupt "Released idempotency authority is missing its key."
  let requiredCapabilities ←
    match d.requiredCapabilities with
    | none => legacyRequiredCapabilities d.kind payload d.status authority
    | some caps => (safeRequiredCapabilities caps).map some
  rejectIf (d.status = .pending ∧ d.idempotencyContractDigest.isSome ∧ (requiredCapabilities.isNone
        ∨ d.idempotencyContractDigest ≠ some (relayIdempotencyContractDigest
            cfg d.kind payload authority (requiredCapabilities.getD []))))
    .relayQueueCorrupt
    "Pending invocation contract digest does not match its live payload and authority."
  rejectIf (d.status = .pending ∧ (d.ackedAt.isSome ∨ d.expiredAt.isSome ∨ replayAuthority.isSome))
    .relayQueueCorrupt
    "Pending delivery cannot contain terminal timestamps or replay authority."
  rejectIf (d.status = .acked ∧ (d.ackedAt.isNone ∨ d.expiredAt.isSome ∨ replayAuthority.isSome))
    .relayQueueCorrupt
    "Acknowledged delivery must contain only an acknowledgement timestamp."
  rejectIf (d.status = .expired ∧ (d.expiredAt.isNone ∨ d.ackedAt.isSome ∨ payload.length ≠ 0
        ∨ authority.isSome ∨ d.idempotencyReleasedAt.isSome
        ∨ (replayAuthority.isSome ∧ d.idempotencyKey.isNone)))
    .relayQueueCorrupt
    "Expired delivery must be a payload-free live-authority-free tombstone."
  rejectIf (d.seq ≤ s.lastAckedSeq ∧ d.status = .pending) .relayQueueCorrupt
    "Delivery at/below the terminal cursor must be terminal."
  rejectIf (s.lastAckedSeq < d.seq ∧ d.status ≠ .pending) .relayQueueCorrupt
    "Delivery above the acknowledgement cursor must remain pending."
  .ok { d with payload, requiredCapabilities, authority, replayAuthority }

/-- The loop over one stream's deliveries with the sequences and ids
already seen. -/
def validateDeliveries (cfg : StoreConfig) (s : DeviceDeliveryStream) :
    List Nat → List Uuid → List StoredRelayDelivery →
      Result (List StoredRelayDelivery)
  | _, _, [] => .ok []
  | seenSeq, seenIds, d :: rest => do
    let _ ← validSeq (.int d.seq)
    rejectIf (d.seq ∈ seenSeq ∨ d.id ∈ seenIds) .relayQueueCorrupt
      "Relay stream contains duplicate sequence or delivery ID."
    let d' ← validateStoredDelivery cfg s d
    let rest' ← validateDeliveries cfg s (d.seq :: seenSeq)
      (d.id :: seenIds) rest
    .ok (d' :: rest')

def validateStream (cfg : StoreConfig) (s : DeviceDeliveryStream) :
    Result DeviceDeliveryStream := do
  let _ ← validSeq (.int s.nextSeq)
  let _ ← validNonNegativeSeq (.int s.lastAckedSeq)
  let _ ← validSeq (.int s.baseSeq)
  let _ ← validNonNegativeSeq (.int s.highestCompactedAckedSeq)
  rejectIf (s.nextSeq ≤ s.lastAckedSeq) .relayQueueCorrupt
    "Relay stream acknowledgement cursor must be lower than next sequence."
  rejectIf (s.nextSeq < s.baseSeq ∨ s.lastAckedSeq + 1 < s.baseSeq)
    .relayQueueCorrupt
    "Relay compacted prefix is inconsistent with its acknowledgement cursor."
  rejectIf (s.baseSeq ≤ s.highestCompactedAckedSeq
      ∨ s.lastAckedSeq < s.highestCompactedAckedSeq) .relayQueueCorrupt
    "Relay compacted ACK watermark is outside the compacted terminal prefix."
  rejectIf (maxDeliveriesLimit < s.deliveries.length) .relayQueueCorrupt
    "Relay stream deliveries exceed the bounded limit."
  let validated ← validateDeliveries cfg s [] [] s.deliveries
  let deliveries := validated.insertionSort (fun a b => a.seq ≤ b.seq)
  rejectIf (¬ ∀ seq ∈ List.range' s.baseSeq (s.nextSeq - s.baseSeq),
      seq ∈ s.deliveries.map (·.seq)) .relayQueueCorrupt
    "Relay retained stream contains a sequence gap."
  rejectIf ((deliveries = [] ∧ s.baseSeq ≠ s.nextSeq)
      ∨ (deliveries.head?.any fun d => d.seq ≠ s.baseSeq)) .relayQueueCorrupt
    "Relay retained stream does not begin at baseSeq."
  .ok { s with deliveries }

/-- The loop over the streams with the devices already seen. -/
def validateStreams (cfg : StoreConfig) : List Uuid →
    List DeviceDeliveryStream → Result (List DeviceDeliveryStream)
  | _, [] => .ok []
  | devices, s :: rest => do
    rejectIf (s.deviceId ∈ devices) .relayQueueCorrupt
      "Relay delivery state contains duplicate device streams."
    let s' ← validateStream cfg s
    let rest' ← validateStreams cfg (s.deviceId :: devices) rest
    .ok (s' :: rest')

def validateState (cfg : StoreConfig) (state : RelayDeliveryState) :
    Result RelayDeliveryState := do
  rejectIf (maxStreams < state.streams.length) .relayQueueCorrupt
    "Relay delivery state structure is invalid."
  let streams ← validateStreams cfg [] state.streams
  .ok { streams }

end OperatorRuntime.Relay
