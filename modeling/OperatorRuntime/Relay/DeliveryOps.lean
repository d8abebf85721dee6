/-
`core/relay-delivery-store.ts`, the ten operations over the persisted
state, and the store as a machine whose steps are whole calls.

# A call

`#mutate` holds the store's lock around read, mutator and write, so calls
are serialised and a call is one step. It reads the clock as often as the
source does: reading 0 is `#maintain`'s, the later ones belong to the
operation. Readings are unrelated to each other. A throw, or a write that
does not become durable, leaves the stored state as it was.
-/
import OperatorRuntime.Relay.DeliveryStore

namespace OperatorRuntime.Relay

open Lib

/-- The clock of one call, reading by reading. -/
abbrev CallClock := Nat → ClockReading

def RelayDeliveryState.findStream (state : RelayDeliveryState)
    (deviceId : Uuid) : Option DeviceDeliveryStream :=
  state.streams.find? fun s => s.deviceId == deviceId

/-- Mutate the stream `findStream` returns. -/
def RelayDeliveryState.setStream (state : RelayDeliveryState)
    (deviceId : Uuid) (stream : DeviceDeliveryStream) : RelayDeliveryState :=
  { streams := updateFirst (fun s => s.deviceId == deviceId)
      (fun _ => stream) state.streams }

-- ===== enqueue

/-- The live holder of an idempotency key. -/
def holdsKey (key : Hex64) (d : StoredRelayDelivery) : Bool :=
  d.idempotencyKey == some key && d.idempotencyReleasedAt.isNone

/-- The first stream that retains a live holder of `key`, with it. -/
def findExisting (key : Hex64) (state : RelayDeliveryState) :
    Option (DeviceDeliveryStream × StoredRelayDelivery) :=
  state.streams.findSome? fun s =>
    (s.deliveries.find? (holdsKey key)).map fun d => (s, d)

/-- An `enqueue` request after its arguments were validated. -/
structure EnqueueRequest where
  deviceId : Uuid
  kind : Kind
  payload : JsonObject
  authority : Option RelayDeliveryAuthority
  idempotencyKey : Option Hex64
  requiredCapabilities : List String

def EnqueueRequest.contractDigest (cfg : StoreConfig) (r : EnqueueRequest) : Option Hex64 :=
  r.idempotencyKey.map fun _ => relayIdempotencyContractDigest cfg r.kind
    r.payload r.authority r.requiredCapabilities

def checkReplay (cfg : StoreConfig) (r : EnqueueRequest)
    (existingStream : DeviceDeliveryStream) (existing : StoredRelayDelivery) :
    Result Unit := do
  rejectIf (existingStream.deviceId ≠ r.deviceId) .relayIdempotencyRouteChanged
    "An unacknowledged action retry resolved to a different device."
  if existing.status ≠ .pending then
    rejectIf existing.idempotencyContractDigest.isNone
      .relayIdempotencyContractUnverifiable
      "Legacy terminal replay cannot prove the original request contract."
    rejectIf (existing.idempotencyContractDigest ≠ r.contractDigest cfg)
      .relayIdempotencyContractChanged
      "Terminal idempotency replay changed the original payload, authority or capabilities."
  else
    rejectIf (existing.requiredCapabilities ≠ some r.requiredCapabilities)
      .relayIdempotencyCapabilityChanged
      "An unacknowledged action retry changed its durable capability requirements."
    rejectIf (existing.kind ≠ r.kind ∨ Json.canonicalJson (.obj existing.payload)
          ≠ Json.canonicalJson (.obj r.payload))
      .relayIdempotencyInputChanged
      "An unacknowledged action retry changed its durable operation identity."
    rejectIf (existing.authority ≠ r.authority) .relayIdempotencyAuthorityChanged
      "An unacknowledged action retry changed its account-device authority."
    rejectIf (existing.idempotencyContractDigest.isSome
        ∧ existing.idempotencyContractDigest ≠ r.contractDigest cfg)
      .relayIdempotencyContractChanged
      "Retained pending invocation contract digest differs."

/-- The write of a replay: a pending record from before the digest was
stored receives it. -/
def upgradeDigest (digest : Option Hex64) (d : StoredRelayDelivery) : StoredRelayDelivery :=
  if d.status = .pending ∧ d.idempotencyContractDigest.isNone then
    { d with idempotencyContractDigest := digest }
  else d

/-- Write through the holder of `key` that `findExisting` returned. -/
def updateExisting (key : Hex64) (f : StoredRelayDelivery →
    StoredRelayDelivery) (state : RelayDeliveryState) : RelayDeliveryState :=
  { streams := updateFirst (fun s => (s.deliveries.find? (holdsKey key)).isSome)
      (fun s => { s with deliveries := updateFirst (holdsKey key) f s.deliveries })
      state.streams }

def EnqueueRequest.delivery (cfg : StoreConfig) (r : EnqueueRequest)
    (seq : Nat) (id : Uuid) (createdAt : Instant) : StoredRelayDelivery :=
  { seq, id, kind := r.kind, payload := r.payload
    requiredCapabilities := some r.requiredCapabilities
    authority := r.authority, idempotencyKey := r.idempotencyKey
    idempotencyContractDigest := r.contractDigest cfg
    createdAt, status := .pending }

/-- `stream.nextSeq += 1; stream.deliveries.push(delivery)`. -/
def DeviceDeliveryStream.push (s : DeviceDeliveryStream)
    (d : StoredRelayDelivery) : DeviceDeliveryStream :=
  { s with nextSeq := s.nextSeq + 1, deliveries := s.deliveries ++ [d] }

def appendDelivery (cfg : StoreConfig) (clock : CallClock) (randomUUID : Uuid)
    (r : EnqueueRequest) (state : RelayDeliveryState) :
    Result (StoredRelayDelivery × RelayDeliveryState) := do
  let (stream, state) ← getOrCreateStream state r.deviceId
  rejectIf (cfg.maxDeliveriesPerStream ≤ stream.deliveries.length)
    .relayQueueLimit
    s!"Device relay queue has reached {cfg.maxDeliveriesPerStream} live/replay-window deliveries."
  let createdAt ← toISOString (clock 1)
  let delivery := r.delivery cfg stream.nextSeq randomUUID createdAt
  .ok (delivery, state.setStream r.deviceId (stream.push delivery))

/-- What a call returns. An enqueue also says whether it appended a
delivery or replayed a retained one. -/
inductive CallResult
  | enqueued (deviceId : Uuid) (delivery : StoredRelayDelivery)
  | replayed (delivery : StoredRelayDelivery)
  | found (match? : Option (Uuid × StoredRelayDelivery))
  | retained (delivery : Option StoredRelayDelivery)
  | pending (deliveries : List StoredRelayDelivery)
  | cursor (lastAckedSeq highestEnqueuedSeq : Nat)
  | acknowledged (lastAckedSeq : Nat) (duplicate : Bool)
  | reconciled (lastAckedSeq advanced : Nat) (expiredThroughSeq : Option Nat)
  | count (n : Nat)

/-- What a mutator passed to `#mutate` does. -/
abbrev Mutator := RelayDeliveryState → Result (CallResult × RelayDeliveryState)

def enqueue (cfg : StoreConfig) (clock : CallClock) (randomUUID : Uuid)
    (r : EnqueueRequest) : Mutator := fun state => do
  let (_, state) ← maintain cfg (clock 0) state
  match r.idempotencyKey.bind fun key => (findExisting key state).map (key, ·)
  with
  | some (key, existingStream, existing) =>
    checkReplay cfg r existingStream existing
    let upgrade := upgradeDigest (r.contractDigest cfg)
    .ok (.replayed (upgrade existing), updateExisting key upgrade state)
  | none =>
    let (delivery, state) ← appendDelivery cfg clock randomUUID r state
    .ok (.enqueued r.deviceId delivery, state)

-- ===== queries

def findIdempotent (cfg : StoreConfig) (clock : CallClock) (key : Hex64) :
    Mutator := fun state => do
  let (_, state) ← maintain cfg (clock 0) state
  let holders := state.streams.flatMap fun s =>
    (s.deliveries.filter (holdsKey key)).map fun d => (s.deviceId, d)
  rejectIf (1 < holders.length) .relayQueueCorrupt
    "Relay idempotency authority is duplicated across retained deliveries."
  .ok (.found holders.head?, state)

def retained (cfg : StoreConfig) (clock : CallClock) (deviceId : Uuid)
    (seq : Nat) : Mutator := fun state => do
  let (_, state) ← maintain cfg (clock 0) state
  let delivery := (state.findStream deviceId).bind fun s =>
    s.deliveries.find? fun d => d.seq == seq
  .ok (.retained delivery, state)

def pending (cfg : StoreConfig) (clock : CallClock) (deviceId : Uuid)
    (limit : Nat) : Mutator := fun state => do
  let (_, state) ← maintain cfg (clock 0) state
  match state.findStream deviceId with
  | none => .ok (.pending [], state)
  | some s =>
    let live := s.deliveries.filter fun d =>
      s.lastAckedSeq < d.seq && d.status == .pending
    .ok (.pending (live.take limit), state)

def cursor (cfg : StoreConfig) (clock : CallClock) (deviceId : Uuid) : Mutator := fun state => do
  let (_, state) ← maintain cfg (clock 0) state
  match state.findStream deviceId with
  | none => .ok (.cursor 0 0, state)
  | some s => .ok (.cursor s.lastAckedSeq (s.nextSeq - 1), state)

-- ===== acknowledge

def acknowledgeStream (cfg : StoreConfig) (clock : CallClock) (seq : Nat)
    (deliveryId : Uuid) (s : DeviceDeliveryStream) :
    Result (CallResult × DeviceDeliveryStream) := do
  rejectIf (seq < s.baseSeq) .relayAckCompacted
    "Relay acknowledgement is older than the bounded replay tombstone window."
  match s.deliveries.find? fun d => d.seq == seq with
  | none =>
    fail .relayAckMismatch
      "Relay acknowledgement does not match the stored delivery sequence and ID."
  | some delivery =>
    rejectIf (delivery.id ≠ deliveryId) .relayAckMismatch
      "Relay acknowledgement does not match the stored delivery sequence and ID."
    if seq ≤ s.lastAckedSeq then
      rejectIf (delivery.status = .pending) .relayQueueCorrupt
        "Terminal cursor references a non-terminal retained delivery."
      .ok (.acknowledged s.lastAckedSeq true, s)
    else
      rejectIf (seq ≠ s.lastAckedSeq + 1) .relayAckGap
        s!"Expected acknowledgement for sequence {s.lastAckedSeq + 1} before sequence {seq}."
      let ackedAt ← toISOString (clock 1)
      let s := compactStream cfg.terminalReplayWindow
        (s.advance (ackDelivery ackedAt))
      .ok (.acknowledged s.lastAckedSeq false, s)

def acknowledge (cfg : StoreConfig) (clock : CallClock) (deviceId : Uuid)
    (seq : Nat) (deliveryId : Uuid) : Mutator := fun state => do
  let (_, state) ← maintain cfg (clock 0) state
  match state.findStream deviceId with
  | none =>
    fail .relayAckUnknownStream
      "Cannot acknowledge a delivery for an unknown device stream."
  | some s =>
    let (result, s) ← acknowledgeStream cfg clock seq deliveryId s
    .ok (result, state.setStream deviceId s)

-- === reconcileClientCursor

/-- The test that everything the client skips expired unexecuted. -/
def crossingExpired (s : DeviceDeliveryStream) (clientSeq : Nat) : Bool :=
  let retainedFrom := max (clientSeq + 1) s.baseSeq
  let crossed := s.deliveries.filter fun d =>
    retainedFrom ≤ d.seq && d.seq ≤ s.lastAckedSeq
  s.highestCompactedAckedSeq ≤ clientSeq && crossed.length == s.lastAckedSeq + 1 - retainedFrom
    && crossed.all fun d =>
      d.status == .expired && d.payload.isEmpty && d.authority.isNone

/-- The `for` loop of `reconcileClientCursor`, `n` rounds from the
delivery right above the cursor. The source moves the cursor once at the
end; a throw in between discards the whole call, so moving it with every
round is the same. -/
def ackThrough : Nat → CallClock → DeviceDeliveryStream → Result DeviceDeliveryStream
  | 0, _, s => .ok s
  | n + 1, clock, s =>
    match s.head? with
    | none => fail .relayQueueCorrupt
        "Relay queue is missing a delivery needed to reconcile the client cursor."
    | some _ => do
      let ackedAt ← toISOString (clock 0)
      ackThrough n (fun i => clock (i + 1)) (s.advance (ackDelivery ackedAt))

def reconcileStream (cfg : StoreConfig) (clock : CallClock) (clientSeq : Nat)
    (s : DeviceDeliveryStream) :
    Result (CallResult × DeviceDeliveryStream) :=
  if clientSeq < s.lastAckedSeq then
    if crossingExpired s clientSeq then
      .ok (.reconciled s.lastAckedSeq (s.lastAckedSeq - clientSeq) (some s.lastAckedSeq), s)
    else fail .relayResumeBehind
      "Client resume cursor is behind executed relay history; automatic replay is unsafe."
  else if s.nextSeq - 1 < clientSeq then
    fail .relayResumeAhead
      "Client resume cursor is ahead of the highest server delivery."
  else if clientSeq = s.lastAckedSeq then
    .ok (.reconciled s.lastAckedSeq 0 none, s)
  else do
    let acked ← ackThrough (clientSeq - s.lastAckedSeq)
      (fun i => clock (i + 1)) s
    .ok (.reconciled clientSeq (clientSeq - s.lastAckedSeq) none,
      compactStream cfg.terminalReplayWindow acked)

def reconcileClientCursor (cfg : StoreConfig) (clock : CallClock)
    (deviceId : Uuid) (clientSeq : Nat) : Mutator := fun state => do
  let (_, state) ← maintain cfg (clock 0) state
  match state.findStream deviceId with
  | none =>
    if clientSeq = 0 then
      .ok (.reconciled 0 0 none, state)
    else
      fail .relayResumeAhead
        "Client resume cursor references deliveries the server has never enqueued."
  | some s =>
    let (result, s) ← reconcileStream cfg clock clientSeq s
    .ok (result, state.setStream deviceId s)

-- === expireUnroutableHeads

/-- Whether a device that supports `supported` may be sent a delivery. -/
def routable (supported : List String) (d : StoredRelayDelivery) : Bool :=
  d.authority.isSome && d.requiredCapabilities.any fun caps =>
    caps.all fun capability => capability ∈ supported

def expireUnroutableHead? (supported : List String) (expiredAt : Instant)
    (s : DeviceDeliveryStream) : Option DeviceDeliveryStream :=
  match s.head? with
  | none => none
  | some next =>
    if next.status ≠ .pending ∨ routable supported next then none
    else some (s.advance (expireDelivery expiredAt))

/-- The mutator of `expireUnroutableHeads`; `canCommit` is the answer of
the caller's predicate. -/
def expireUnroutableHeads (cfg : StoreConfig) (clock : CallClock)
    (deviceId : Uuid) (supported : List String) (canCommit : Bool) :
    Mutator := fun state => do
  let (_, state) ← maintain cfg (clock 0) state
  match state.findStream deviceId with
  | none => .ok (.count 0, state)
  | some s =>
    if canCommit then do
      let expiredAt ← toISOString (clock 1)
      let expired := whileSome (expireUnroutableHead? supported expiredAt)
        s.deliveries.length s
      .ok (.count (expired.lastAckedSeq - s.lastAckedSeq), state.setStream deviceId
          (compactStream cfg.terminalReplayWindow expired))
    else .ok (.count 0, state)

-- === expirePending, purgeDevice

def expirePending (cfg : StoreConfig) (clock : CallClock) : Mutator :=
  fun state => do
    let (expired, state) ← maintain cfg (clock 0) state
    .ok (.count expired, state)

/-- The scrubbing write of `purgeDevice`. -/
def scrubDelivery (scrubbedAt : Instant) (d : StoredRelayDelivery) : StoredRelayDelivery :=
  { d with
    status := .expired
    expiredAt := some scrubbedAt
    ackedAt := none
    payload := []
    requiredCapabilities := none
    authority := none
    replayAuthority := none
    idempotencyKey := none
    idempotencyContractDigest := none
    idempotencyReleasedAt := none }

/-- The mutator of `purgeDevice`, which does not run `#maintain`. -/
def purgeDevice (cfg : StoreConfig) (clock : CallClock) (deviceId : Uuid) : Mutator := fun state =>
  match state.findStream deviceId with
  | none => .ok (.count 0, state)
  | some s => do
    let scrubbedAt ← toISOString (clock 0)
    let scrubbed := { s with
      deliveries := s.deliveries.map (scrubDelivery scrubbedAt)
      lastAckedSeq := s.nextSeq - 1 }
    .ok (.count s.deliveries.length, state.setStream deviceId
      (compactStream cfg.terminalReplayWindow scrubbed))

-- === calls and the store

/-- The operations with their arguments as a caller passes them. -/
inductive Operation
  | enqueue (deviceId kind : String) (payload : Json)
      (authority : Option AuthorityInput) (idempotencyKey : Option String)
      (requiredCapabilities : List String)
  | findIdempotent (idempotencyKey : String)
  | retained (deviceId : String) (seq : Number)
  | pending (deviceId : String) (limit : Number)
  | cursor (deviceId : String)
  | acknowledge (deviceId : String) (seq : Number) (deliveryId : String)
  | reconcileClientCursor (deviceId : String) (clientSeq : Number)
  | expireUnroutableHeads (deviceId : String)
      (supportedCapabilities : List String) (canCommit : Bool)
  | expirePending
  | purgeDevice (deviceId : String)

/-- The argument validation of `enqueue`. -/
def enqueueRequest (deviceId kind : String) (payload : Json)
    (authority : Option AuthorityInput) (idempotencyKey : Option String)
    (requiredCapabilities : List String) :
    Result EnqueueRequest := do
  let deviceId ← validUuid deviceId "deviceId"
  let kind ← validKind kind
  let payload ← safePayload payload
  let authority ← authority.mapM (safeAuthority · deviceId)
  let idempotencyKey ← idempotencyKey.mapM validIdempotencyKey
  let requiredCapabilities ← safeRequiredCapabilities requiredCapabilities
  .ok { deviceId, kind, payload, authority, idempotencyKey,
        requiredCapabilities }

/-- Validate the arguments and build the mutator for `#mutate`. -/
def Operation.mutator (cfg : StoreConfig) (clock : CallClock)
    (randomUUID : Uuid) : Operation → Result Mutator
  | .enqueue deviceId kind payload authority idempotencyKey caps => do
    let request ←
      enqueueRequest deviceId kind payload authority idempotencyKey caps
    .ok (Relay.enqueue cfg clock randomUUID request)
  | .findIdempotent key => do
    .ok (Relay.findIdempotent cfg clock (← validIdempotencyKey key))
  | .retained deviceId seq => do
    let deviceId ← validUuid deviceId "deviceId"
    .ok (Relay.retained cfg clock deviceId (← validSeq seq))
  | .pending deviceId limit => do
    let deviceId ← validUuid deviceId "deviceId"
    .ok (Relay.pending cfg clock deviceId (← boundedLimit limit))
  | .cursor deviceId => do
    .ok (Relay.cursor cfg clock (← validUuid deviceId "deviceId"))
  | .acknowledge deviceId seq deliveryId => do
    let deviceId ← validUuid deviceId "deviceId"
    let seq ← validSeq seq
    let deliveryId ← validUuid deliveryId "deliveryId"
    .ok (Relay.acknowledge cfg clock deviceId seq deliveryId)
  | .reconcileClientCursor deviceId clientSeq => do
    let deviceId ← validUuid deviceId "deviceId"
    let clientSeq ← validNonNegativeSeq clientSeq
    .ok (Relay.reconcileClientCursor cfg clock deviceId clientSeq)
  | .expireUnroutableHeads deviceId supported canCommit => do
    let deviceId ← validUuid deviceId "deviceId"
    let supported ← safeRequiredCapabilities supported
    .ok (Relay.expireUnroutableHeads cfg clock deviceId supported canCommit)
  | .expirePending => .ok (Relay.expirePending cfg clock)
  | .purgeDevice deviceId => do
    .ok (Relay.purgeDevice cfg clock (← validUuid deviceId "deviceId"))

/-- `#mutate`: read, mutate, write; `#read` and `#write` both validate. -/
def mutate (cfg : StoreConfig) (mutator : Mutator) (stored : RelayDeliveryState) :
    Result (CallResult × RelayDeliveryState) := do
  let state ← validateState cfg stored
  let (result, state) ← mutator state
  let written ← validateState cfg state
  .ok (result, written)

/-- One call: the operation, its clock, the UUID `crypto.randomUUID`
would return and whether the write becomes durable. -/
structure Call where
  op : Operation
  clock : CallClock
  randomUUID : Uuid
  written : Bool

/-- The call's answer and the state it would persist. -/
def Call.run (cfg : StoreConfig) (c : Call) (stored : RelayDeliveryState) :
    Result (CallResult × RelayDeliveryState) := do
  let mutator ← c.op.mutator cfg c.clock c.randomUUID
  mutate cfg mutator stored

/-- The store as a machine: the persisted state, and the sequence numbers
handed out so far with their devices, newest first. -/
structure Store where
  stored : RelayDeliveryState
  assigned : List (Uuid × Nat)

def Store.empty : Store := { stored := .empty, assigned := [] }

def CallResult.assigns : CallResult → List (Uuid × Nat)
  | .enqueued deviceId delivery => [(deviceId, delivery.seq)]
  | _ => []

def Store.step (cfg : StoreConfig) (s : Store) (c : Call) : Store :=
  match c.run cfg s.stored with
  | .error _ => s
  | .ok (result, state) =>
    if c.written then
      { stored := state, assigned := result.assigns ++ s.assigned }
    else s

end OperatorRuntime.Relay
