/-
The relay end to end for one device: the device's stream in the server's
`RelayDeliveryStore`, the hello, welcome and ack handling of
`apps/relay-server/src/relay-hub.ts`, and the client of `Client.lean`.

# The network

Everything either side ever sent stays available. An ack frame may be
processed any number of times and in any order, or never; a delivery
frame may reach the client whenever the delivery has been enqueued. A
hello is processed at any later moment, also for a socket the client has
given up; the welcome reaches only the socket it answers. This is wider
than what `#pump` sends and than what a socket can reorder.

# The stream

A device without a stream behaves as one whose stream is new: its cursor
is 0 and every acknowledgement fails. The authority checks of the hub
only ever refuse a frame, which is the frame being lost.
-/
import OperatorRuntime.Relay.Client
import OperatorRuntime.Relay.DeliveryOps

namespace OperatorRuntime.Relay

open Lib

-- === calls on the stream

def maintainStream (cfg : StoreConfig) (now : Instant)
    (s : DeviceDeliveryStream) : DeviceDeliveryStream :=
  compactStream cfg.terminalReplayWindow (expireStream now cfg.retentionMs s)

/-- One store call on the device's stream: maintenance, the operation,
the validation in `#write`. -/
def streamCall (cfg : StoreConfig) (clock : CallClock) (op : DeviceDeliveryStream →
      Result (CallResult × DeviceDeliveryStream))
    (s : DeviceDeliveryStream) :
    Result (CallResult × DeviceDeliveryStream) := do
  let now ← toISOString (clock 0)
  let (result, s) ← op (maintainStream cfg now s)
  let written ← validateStream cfg s
  .ok (result, written)

def enqueueStream (cfg : StoreConfig) (clock : CallClock) (randomUUID : Uuid)
    (r : EnqueueRequest) (s : DeviceDeliveryStream) :
    Result (CallResult × DeviceDeliveryStream) := do
  rejectIf (cfg.maxDeliveriesPerStream ≤ s.deliveries.length) .relayQueueLimit
    s!"Device relay queue has reached {cfg.maxDeliveriesPerStream} live/replay-window deliveries."
  let createdAt ← toISOString (clock 1)
  let delivery := r.delivery cfg s.nextSeq randomUUID createdAt
  .ok (.enqueued r.deviceId delivery, s.push delivery)

def expireUnroutableStream (cfg : StoreConfig) (clock : CallClock)
    (supported : List String) (s : DeviceDeliveryStream) :
    Result (CallResult × DeviceDeliveryStream) := do
  let expiredAt ← toISOString (clock 1)
  let expired := whileSome (expireUnroutableHead? supported expiredAt)
    s.deliveries.length s
  .ok (.count (expired.lastAckedSeq - s.lastAckedSeq),
    compactStream cfg.terminalReplayWindow expired)

/-- A call that reads after maintenance: `retained`, `pending`, `cursor`,
`findIdempotent`, an idempotent replay, `expirePending`. -/
def observeStream (s : DeviceDeliveryStream) :
    Result (CallResult × DeviceDeliveryStream) :=
  .ok (.count 0, s)

-- ===== the system

/-- Server stream, client, and what the server ever sent: the sequences
it assigned with their ids and the welcomes with their sockets. -/
structure RelaySystem where
  stream : DeviceDeliveryStream
  client : Client
  issued : List (Nat × String)
  welcomes : List (Nat × WelcomeFrame)

def RelaySystem.initial (deviceId : Uuid) : RelaySystem :=
  { stream := newStream deviceId, client := .initial, issued := [],
    welcomes := [] }

def RelaySystem.deliverable (s : RelaySystem) (c : Connection) : ServerFrame → Bool
  | .welcome frame =>
    s.welcomes.any fun w => w.1 == c.number && w.2.resumeFromSeq == frame.resumeFromSeq
      && w.2.expiredThroughSeq == frame.expiredThroughSeq
      && w.2.readConcurrency == frame.readConcurrency
      && w.2.bound == frame.bound
  | .delivery frame =>
    s.issued.any fun d => frame.seq == .int d.1 && frame.id == d.2

inductive SystemAct
  | enqueue (clock : CallClock) (randomUUID : Uuid) (deviceId kind : String)
      (payload : Json) (authority : Option AuthorityInput)
      (idempotencyKey : Option String) (requiredCapabilities : List String)
  | observe (clock : CallClock)
  | expireUnroutableHeads (clock : CallClock) (supported : List String)
  /-- The hub handles the hello of a socket. -/
  | hello (clock : CallClock) (socket cursor readConcurrency : Nat)
  /-- The hub handles an ack frame. -/
  | ack (clock : CallClock) (frame : Ack)
  | client (act : ClientAct)

def CallResult.issues : CallResult → List (Nat × String)
  | .enqueued _ d => [(d.seq, d.id.val)]
  | _ => []

/-- The welcome `#authenticateHello` sends for a reconciled cursor. -/
def welcomeFor (readConcurrency : Nat) : CallResult → List WelcomeFrame
  | .reconciled lastAckedSeq _ expiredThroughSeq =>
    [{ resumeFromSeq := .int lastAckedSeq
       expiredThroughSeq := expiredThroughSeq.map fun seq => .int seq
       readConcurrency := some (.int readConcurrency) }]
  | _ => []

/-- `acknowledge` with the frame's id, which must be a UUID. -/
def acknowledgeFrame (cfg : StoreConfig) (clock : CallClock) (frame : Ack)
    (s : DeviceDeliveryStream) :
    Result (CallResult × DeviceDeliveryStream) := do
  let seq ← validSeq (.int frame.seq)
  let id ← validUuid frame.id "deliveryId"
  acknowledgeStream cfg clock seq id s

/-- Run a store call; a throw changes nothing. -/
def RelaySystem.call (cfg : StoreConfig) (clock : CallClock) (s : RelaySystem)
    (op : DeviceDeliveryStream → Result (CallResult × DeviceDeliveryStream))
    (after : CallResult → RelaySystem → RelaySystem) : RelaySystem :=
  match streamCall cfg clock op s.stream with
  | .error _ => s
  | .ok (result, stream) => after result { s with stream }

def systemStep (cfg : StoreConfig) (opts : ClientOptions) (s : RelaySystem) :
    SystemAct → Option RelaySystem
  | .enqueue clock randomUUID deviceId kind payload authority key caps =>
    match enqueueRequest deviceId kind payload authority key caps with
    | .error _ => some s
    | .ok request =>
      -- A request for another device leaves this stream alone.
      if request.deviceId ≠ s.stream.deviceId then some s
      else
        some (s.call cfg clock (enqueueStream cfg clock randomUUID request)
          fun result s => { s with issued := result.issues ++ s.issued })
  | .observe clock => some (s.call cfg clock observeStream fun _ s => s)
  | .expireUnroutableHeads clock supported =>
    some (s.call cfg clock (expireUnroutableStream cfg clock supported) fun _ s => s)
  | .hello clock socket cursor readConcurrency =>
    if (socket, cursor) ∈ s.client.hellos then
      some (s.call cfg clock (reconcileStream cfg clock cursor)
        fun result s => { s with
          welcomes := (welcomeFor readConcurrency result).map (socket, ·) ++ s.welcomes })
    else none
  | .ack clock frame =>
    if frame ∈ s.client.acks then
      some (s.call cfg clock (acknowledgeFrame cfg clock frame) fun _ s => s)
    else none
  | .client (.conn i (.receive frame)) => do
    let c ← s.client.conns[i]?
    if s.deliverable c frame then
      let client ← clientStep opts s.client (.conn i (.receive frame))
      some { s with client }
    else none
  | .client act => do
    let client ← clientStep opts s.client act
    some { s with client }

end OperatorRuntime.Relay
