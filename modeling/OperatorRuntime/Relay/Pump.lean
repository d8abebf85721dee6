/-
`#pump` of `apps/relay-server/src/relay-hub.ts` on one connection: any
number of pumps, which switch at every await. A pump awaits the pending
deliveries (`fetching`), is resumed with them (`fetched`), and awaits the
authority assertion of the delivery it is about to send (`asserting`);
everything between two awaits is one step. What else happens is a step of
the system: store calls, which never lower the cursor, the deletion that
follows an acknowledgement, and the end of the connection. A closed socket
sends nothing.
-/
import OperatorRuntime.JsonParse
import OperatorRuntime.Relay.DeliveryOps

namespace OperatorRuntime.Relay

open Lib

-- ===== deliveries

def actionOf (d : StoredRelayDelivery) : Option Json :=
  if d.kind.val = "action" then
    match (Json.obj d.payload).field? "action" with
    | some (.obj fields) => some (.obj fields)
    | _ => none
  else none

def isConcurrentReadDelivery (d : StoredRelayDelivery) : Bool :=
  (actionOf d).any fun action =>
    match action.field? "risk" with
    | some (.str risk) => risk == "read"
    | _ => false

def isHeavyReadDelivery (d : StoredRelayDelivery) : Bool :=
  (actionOf d).any fun action =>
    ["project.command.run", "terminal.execute", "terminal.session", "compute.run",
      "project.transaction.run"].contains (Json.textOf (action.field? "capability"))

/-- What `pending(deviceId, limit)` answers. -/
def livePending (limit : Nat) (s : DeviceDeliveryStream) : List StoredRelayDelivery :=
  (s.deliveries.filter fun d => s.lastAckedSeq < d.seq && d.status == .pending).take limit

-- ===== connections

/-- An entry of `connection.inFlight`. -/
structure Flight where
  seq : Nat
  readOnly : Bool
  heavy : Bool
deriving DecidableEq

structure HubConnection where
  readConcurrency : Nat
  capabilities : List String
  inFlight : List Flight
  isOpen : Bool

def HubConnection.has (c : HubConnection) (seq : Nat) : Prop :=
  seq ∈ c.inFlight.map (·.seq)

instance (c : HubConnection) (seq : Nat) : Decidable (c.has seq) :=
  inferInstanceAs (Decidable (_ ∈ _))

def HubConnection.delete (c : HubConnection) (seq : Nat) : HubConnection :=
  { c with inFlight := c.inFlight.filter fun f => f.seq ≠ seq }

/-- `inFlight.set(next.seq, { readOnly, heavy })`. -/
def HubConnection.set (c : HubConnection) (next : StoredRelayDelivery) : HubConnection :=
  let flight : Flight := ⟨next.seq, isConcurrentReadDelivery next,
    isConcurrentReadDelivery next && isHeavyReadDelivery next⟩
  { c with inFlight :=
      if c.has next.seq then c.inFlight.map fun f => if f.seq = next.seq then flight else f
      else c.inFlight ++ [flight] }

def HubConnection.closed (c : HubConnection) : HubConnection :=
  { c with inFlight := [], isOpen := false }

-- ===== pumps

inductive Pump
  | fetching (limit : Nat)
  | fetched (pending : List StoredRelayDelivery)
  | asserting (next : StoredRelayDelivery) (rest : List StoredRelayDelivery)
  | retiring
  | done

/-- The start of `#pump`, up to its first await. -/
def pumpStart (c : HubConnection) : Pump :=
  if c.isOpen = false ∨ (∃ f ∈ c.inFlight, f.readOnly = false) then .done
  else .fetching (min 500 (max 1 (c.readConcurrency + c.inFlight.length + 1)))

/-- The loop of `#pump`, up to its next await. -/
def pumpLoop (c : HubConnection) : List StoredRelayDelivery → Pump
  | [] => .done
  | next :: rest =>
    let readOnly := isConcurrentReadDelivery next
    let heavy := readOnly && isHeavyReadDelivery next
    if c.has next.seq then pumpLoop c rest
    else if readOnly = false ∧ 0 < c.inFlight.length then .done
    else if readOnly = true ∧ c.readConcurrency ≤ c.inFlight.length then .done
    else if heavy = true ∧ ∃ f ∈ c.inFlight, f.heavy = true then .done
    else if routable c.capabilities next = false then
      if 0 < c.inFlight.length then .done else .retiring
    else .asserting next rest

/-- How the await of the assertion and the send after it end. -/
inductive Verdict
  | refused
  | unsendable
  | sent
deriving DecidableEq

/-- The stream in the store, the connection, the pumps that were started, and
what the socket was given. -/
structure PumpSystem where
  stream : DeviceDeliveryStream
  connection : HubConnection
  pumps : List Pump
  sent : List StoredRelayDelivery

inductive PumpAct
  /-- Any call of the store. -/
  | store (stream : DeviceDeliveryStream)
  /-- A dispatch, the handshake or an ack calls `#pump`. -/
  | start
  | fetch (i : Nat)
  | resume (i : Nat)
  | authorize (i : Nat) (verdict : Verdict)
  /-- `expireUnroutableHeads` returns; `closes` if it retired a delivery. -/
  | retire (i : Nat) (closes : Bool)
  /-- An ack handler goes on after `acknowledge`. -/
  | acked (seq : Nat)
  | close

/-- The pump that takes the step. -/
def PumpAct.pump? : PumpAct → Option Nat
  | .fetch i | .resume i | .authorize i _ | .retire i _ => some i
  | _ => none

/-- The rest of a round of the loop after the assertion. -/
def PumpSystem.authorized (s : PumpSystem) (i : Nat) (next : StoredRelayDelivery)
    (rest : List StoredRelayDelivery) : Verdict → PumpSystem
  | .refused => { s with pumps := s.pumps.set i .done }
  | .unsendable =>
    { s with
      connection := (s.connection.set next).delete next.seq
      pumps := s.pumps.set i .done }
  | .sent =>
    let connection := s.connection.set next
    { s with
      connection
      sent := if s.connection.isOpen then s.sent ++ [next] else s.sent
      pumps := s.pumps.set i
        (if isConcurrentReadDelivery next then pumpLoop connection rest else .done) }

def pumpStep (s : PumpSystem) : PumpAct → Option PumpSystem
  | .store stream =>
    if s.stream.lastAckedSeq ≤ stream.lastAckedSeq then some { s with stream } else none
  | .start => some { s with pumps := s.pumps ++ [pumpStart s.connection] }
  | .fetch i =>
    match s.pumps[i]? with
    | some (.fetching limit) =>
      some { s with pumps := s.pumps.set i (.fetched (livePending limit s.stream)) }
    | _ => none
  | .resume i =>
    match s.pumps[i]? with
    | some (.fetched pending) =>
      some { s with pumps := s.pumps.set i (pumpLoop s.connection pending) }
    | _ => none
  | .authorize i verdict =>
    match s.pumps[i]? with
    | some (.asserting next rest) => some (s.authorized i next rest verdict)
    | _ => none
  | .retire i closes =>
    match s.pumps[i]? with
    | some .retiring =>
      some { s with
        pumps := s.pumps.set i .done
        connection := if closes then s.connection.closed else s.connection }
    | _ => none
  | .acked seq =>
    if seq ≤ s.stream.lastAckedSeq then some { s with connection := s.connection.delete seq }
    else none
  | .close => some { s with connection := s.connection.closed }

def PumpSystem.start (stream : DeviceDeliveryStream) (readConcurrency : Nat)
    (capabilities : List String) : PumpSystem :=
  ⟨stream, ⟨readConcurrency, capabilities, [], true⟩, [], []⟩

/-- A pump that turns to the assertion for a delivery finds no other pump
awaiting one, and the delivery not acknowledged. -/
def Apart (s : PumpSystem) (act : PumpAct) : Prop :=
  ∀ s' i next rest, pumpStep s act = some s' → act.pump? = some i →
    s'.pumps[i]? = some (.asserting next rest) →
    s.stream.lastAckedSeq < next.seq
      ∧ ∀ j next' rest', j ≠ i → s.pumps[j]? ≠ some (.asserting next' rest')

end OperatorRuntime.Relay
