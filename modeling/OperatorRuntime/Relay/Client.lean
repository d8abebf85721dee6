/-
`core/relay-client.ts`: one `RelayClient` process with its durable
`{ lastAckedServerSeq, processing }` state, its connections and the two
promise queues each connection runs.

# Grain

A step runs from one `await` to the next. Every connection has a message
queue (`processMessage` and `#handleDelivery`, stage by stage in `Work`)
and a read-acknowledgement queue (`AckStage`), which interleave. `fail`
rejects `connectionDone` at once; the promises of a failed connection are
not cancelled, so settled connections stay in the list and keep stepping
until the process ends. `drainConnection` settles only once both queues
are done.

# What is an input

Callbacks answer through the labels. A frame says with one flag whether
the authority, kind and payload checks accept it and, for a delivery,
what `isConcurrentReadDelivery` says of it. `startedAt`, heartbeats and
status callbacks are left out: nothing here reads them.
-/
import OperatorRuntime.Text

namespace OperatorRuntime.Relay

-- ===== the durable state

structure Processing where
  seq : Nat
  id : String
deriving DecidableEq

structure RelayState where
  lastAckedServerSeq : Nat
  processing : Option Processing
  contiguous : ∀ p ∈ processing, p.seq = lastAckedServerSeq + 1
deriving DecidableEq

/-- Without a state file. -/
def RelayState.initial : RelayState :=
  { lastAckedServerSeq := 0, processing := none, contiguous := by simp }

/-- `{ version: 1, lastAckedServerSeq: seq }`. -/
def RelayState.ackedThrough (seq : Nat) : RelayState :=
  { lastAckedServerSeq := seq, processing := none, contiguous := by simp }

/-- `validateState({ ...state, processing })`. -/
def RelayState.withProcessing (state : RelayState) (p : Processing) : Option RelayState :=
  if h : p.seq = state.lastAckedServerSeq + 1 then
    some { state with
      processing := some p
      contiguous := by
        rintro q ⟨⟩
        exact h }
  else none

-- ===== frames

/-- `WelcomeFrame`, with one flag for the protocol, capability-binding,
connection-id and session checks of `#validateWelcome`. -/
structure WelcomeFrame where
  resumeFromSeq : Number
  expiredThroughSeq : Option Number := none
  readConcurrency : Option Number := none
  bound : Bool := true

structure DeliveryFrame where
  seq : Number
  id : String
  concurrentRead : Bool
  authorized : Bool := true

inductive ServerFrame
  | welcome (frame : WelcomeFrame)
  | delivery (frame : DeliveryFrame)

structure RelayDelivery where
  seq : Nat
  id : String
  concurrentRead : Bool
deriving DecidableEq

def validateDelivery (frame : DeliveryFrame) : Option RelayDelivery :=
  if frame.authorized then
    (frame.seq.safeFrom? 1).map fun seq =>
      { seq, id := frame.id, concurrentRead := frame.concurrentRead }
  else none

/-- An acknowledgement frame. -/
structure Ack where
  seq : Nat
  id : String
deriving DecidableEq

-- ===== the callbacks

/-- `RelayRecoveryDecision`; a throwing callback ends as `stop` does. -/
inductive RecoveryDecision
  | ack
  | retry
  | stop
deriving DecidableEq

/-- What a pending callback answers; `proceed` where none is pending. -/
inductive Answer
  | proceed
  | recovery (decision : RecoveryDecision)
  | expiredRecovery (ack : Bool)
  | handler (ok : Bool)
deriving DecidableEq

/-- Calls out of `#handleDelivery`, in the order they are made. -/
inductive Event
  | invoked (delivery : RelayDelivery)
  | recovered (saved : Processing) (decision : RecoveryDecision)
deriving DecidableEq

/-- `RelayClientOptions`, as far as the queues read them. -/
structure ClientOptions where
  onRecovery : Bool
  onExpiredRecovery : Bool
  maxConcurrentReadDeliveries : Nat
  /-- `previousSeq`, `seq` and `deliveryId`. -/
  singleDeliveryRecovery : Option (Nat × Nat × String) := none

-- ===== a connection

/-- Where the message queue of a connection stands. A stage that carries
a state read it from disk and has not written since. -/
inductive Work
  | idle
  -- #validateWelcome
  | expiredRecovery (resume concurrency : Nat)
  | adoptResume (resume concurrency : Nat)
  | welcomed (resume concurrency : Nat)
  -- processMessage
  | readCheck (d : RelayDelivery)
  | barrier (d : RelayDelivery)
  -- #handleDelivery
  | handle (d : RelayDelivery)
  | recovery (d : RelayDelivery) (state : RelayState) (saved : Processing)
  | clear (d : RelayDelivery) (state : RelayState)
  | reread (d : RelayDelivery)
  | mark (d : RelayDelivery) (state : RelayState)
  | call (d : RelayDelivery)
  | running (d : RelayDelivery)
  | complete (d : RelayDelivery)
  -- after the durable write
  | sendAck (d : RelayDelivery) (handled : Bool)
  | finish (d : RelayDelivery)
deriving DecidableEq

/-- Where the read-acknowledgement queue stands: `writing` has read the
cursor and not yet written it. -/
inductive AckStage
  | idle
  | writing (d : RelayDelivery)
  | sending (d : RelayDelivery)
  | rejected
deriving DecidableEq

/-- The closure of one `#connectOnce`. -/
structure Connection where
  /-- Sockets are told apart by the order they were opened in. -/
  number : Nat
  /-- The state read before the hello was built. -/
  state : RelayState
  helloSent : Bool := false
  /-- `socket.readyState === 1`. -/
  socketOpen : Bool := true
  welcomed : Bool := false
  settled : Bool := false
  draining : Bool := false
  /-- `this.#stopped`. -/
  stopped : Bool := false
  readConcurrency : Nat := 1
  nextReceiveSeq : Nat
  nextAckSeq : Nat
  activeReads : List Nat := []
  /-- Reads whose handler has not settled. -/
  runningReads : List RelayDelivery := []
  completedReads : List RelayDelivery := []
  readAckQueue : AckStage := .idle
  queue : List ServerFrame := []
  work : Work := .idle

/-- What one step of a connection leaves. -/
structure Effect where
  conn : Connection
  durable : RelayState
  events : List Event := []
  acks : List Ack := []

namespace Connection

/-- The closure a connection starts with. -/
def new (number : Nat) (state : RelayState) : Connection :=
  { number, state
    nextReceiveSeq := state.lastAckedServerSeq + 1
    nextAckSeq := state.lastAckedServerSeq + 1 }

/-- `fail`: settle and close the socket. -/
def fail (c : Connection) : Connection :=
  { c with settled := true, socketOpen := false }

def drain (c : Connection) : Connection :=
  if c.settled then c else { c with draining := true }

/-- `stop` while the connection is up. -/
def stop (c : Connection) : Connection :=
  { c.drain with stopped := true }

/-- A throw inside `processMessage`: the frames chained behind it are
never looked at. -/
def rejectMessage (c : Connection) : Connection :=
  { c.drain with work := .idle, queue := [] }

/-- `sendAckFrame`: nothing leaves a closed socket. -/
def ackFrames (c : Connection) (d : RelayDelivery) : List Ack :=
  if c.socketOpen then [{ seq := d.seq, id := d.id }] else []

/-- The completed read the acknowledgement loop would take next. -/
def nextCompleted? (c : Connection) : Option RelayDelivery :=
  c.completedReads.find? fun d => d.seq == c.nextAckSeq

/-- `[...activeReadTasks.values()]` are all settled. -/
def readsSettled (c : Connection) : Bool :=
  c.runningReads.isEmpty && ((c.readAckQueue == .idle && c.nextCompleted?.isNone)
      || c.readAckQueue == .rejected)

end Connection

/-- Move to another stage of the message queue. -/
def goto (durable : RelayState) (c : Connection) (work : Work) : Effect :=
  { conn := { c with work }, durable }

def throwing (durable : RelayState) (c : Connection) : Effect :=
  { conn := c.rejectMessage, durable }

-- ===== processMessage

/-- `#validateWelcome` up to its first `await`. -/
def validateWelcome (opts : ClientOptions) (durable : RelayState)
    (c : Connection) (frame : WelcomeFrame) : Effect :=
  match frame.resumeFromSeq.safeFrom? 0,
      (frame.readConcurrency.getD (.int 1)).safeFrom? 1 with
  | some resume, some concurrency =>
    if !frame.bound
        || opts.singleDeliveryRecovery.any (fun r => r.1 != resume)
        || frame.expiredThroughSeq.any (fun through =>
            through.safeFrom? 1 != some resume)
        || opts.maxConcurrentReadDeliveries < concurrency then
      throwing durable c
    else if resume = c.state.lastAckedServerSeq then
      if frame.expiredThroughSeq.isSome then throwing durable c
      else goto durable c (.welcomed resume concurrency)
    else if resume < c.state.lastAckedServerSeq
        || frame.expiredThroughSeq.isNone then
      throwing durable c
    else
      match c.state.processing with
      | none => goto durable c (.adoptResume resume concurrency)
      | some p =>
        if resume < p.seq || !opts.onExpiredRecovery then
          throwing durable c
        else goto durable c (.expiredRecovery resume concurrency)
  | _, _ => throwing durable c

/-- `processMessage` up to its first `await`. -/
def processMessage (opts : ClientOptions) (durable : RelayState)
    (c : Connection) (frame : ServerFrame) : Effect :=
  match frame with
  | .welcome frame =>
    if c.welcomed then throwing durable c
    else validateWelcome opts durable c frame
  | .delivery frame =>
    if !c.welcomed then throwing durable c
    else
      match validateDelivery frame with
      | none => throwing durable c
      | some d =>
        if opts.singleDeliveryRecovery.any
            (fun r => r.2.1 != d.seq || r.2.2 != d.id) then
          throwing durable c
        else if 1 < c.readConcurrency && d.concurrentRead then
          goto durable c (.readCheck d)
        else if c.activeReads.isEmpty then goto durable c (.handle d)
        else goto durable c (.barrier d)

def startRead (durable : RelayState) (c : Connection) (d : RelayDelivery) : Effect :=
  if d.seq ≤ durable.lastAckedServerSeq then
    goto durable c (.sendAck d false)
  else if d.seq ≠ c.nextReceiveSeq
      ∨ c.readConcurrency ≤ c.activeReads.length then
    throwing durable c
  else
    goto durable
      { c with
        nextReceiveSeq := c.nextReceiveSeq + 1
        activeReads := c.activeReads ++ [d.seq]
        runningReads := c.runningReads ++ [d] } .idle

/-- `#handleDelivery` after its first read of the state. -/
def handleDelivery (opts : ClientOptions) (durable : RelayState)
    (c : Connection) (d : RelayDelivery) : Effect :=
  if d.seq ≤ durable.lastAckedServerSeq then
    goto durable c (.sendAck d true)
  else if d.seq ≠ durable.lastAckedServerSeq + 1 then throwing durable c
  else
    match durable.processing with
    | none => goto durable c (.mark d durable)
    | some p =>
      if p.seq ≠ d.seq ∨ p.id ≠ d.id ∨ opts.onRecovery = false then
        throwing durable c
      else goto durable c (.recovery d durable p)

def recoveryDecision (durable : RelayState) (c : Connection)
    (d : RelayDelivery) (state : RelayState) (saved : Processing)
    (decision : RecoveryDecision) : Effect :=
  let next : Effect :=
    match decision with
    | .stop => throwing durable c
    | .retry => goto durable c (.clear d state)
    | .ack => goto durable c (.complete d)
  { next with events := [.recovered saved decision] }

def workStep (opts : ClientOptions) (durable : RelayState) (c : Connection) : Answer → Option Effect
  | .proceed =>
    match c.work with
    | .idle =>
      match c.queue with
      | [] => none
      | frame :: queue =>
        some (processMessage opts durable { c with queue } frame)
    | .expiredRecovery .. | .recovery .. | .running .. => none
    | .adoptResume resume concurrency =>
      some (goto (.ackedThrough resume) c (.welcomed resume concurrency))
    | .welcomed resume concurrency =>
      if c.stopped then some (goto durable c .idle)
      else some (goto durable
        { c with
          welcomed := true
          readConcurrency := concurrency
          nextReceiveSeq := resume + 1
          nextAckSeq := resume + 1 } .idle)
    | .readCheck d => some (startRead durable c d)
    | .barrier d =>
      if c.readsSettled then
        if c.activeReads.isEmpty then some (goto durable c (.handle d))
        else some (throwing durable c)
      else none
    | .handle d => some (handleDelivery opts durable c d)
    | .clear d state =>
      some (goto { state with processing := none, contiguous := by simp } c
        (.reread d))
    | .reread d => some (goto durable c (.mark d durable))
    | .mark d state =>
      match state.withProcessing { seq := d.seq, id := d.id } with
      | some marked => some (goto marked c (.call d))
      | none => some (throwing durable c)
    | .call d =>
      some { goto durable c (.running d) with events := [.invoked d] }
    | .complete d => some (goto (.ackedThrough d.seq) c (.sendAck d true))
    | .sendAck d handled =>
      some { goto durable c (if handled then .finish d else .idle) with
        acks := c.ackFrames d }
    | .finish d =>
      let c' := if opts.singleDeliveryRecovery.any (fun r => r.2.1 == d.seq)
        then c.stop else c
      some (goto durable
        { c' with
          nextReceiveSeq := durable.lastAckedServerSeq + 1
          nextAckSeq := durable.lastAckedServerSeq + 1 } .idle)
  | .expiredRecovery ack =>
    match c.work with
    | .expiredRecovery resume concurrency =>
      if ack then some (goto durable c (.adoptResume resume concurrency))
      else some (throwing durable c)
    | _ => none
  | .recovery decision =>
    match c.work with
    | .recovery d state saved =>
      some (recoveryDecision durable c d state saved decision)
    | _ => none
  | .handler ok =>
    match c.work with
    | .running d =>
      if ok then some (goto durable c (.complete d))
      else some (throwing durable c)
    | _ => none

-- ===== concurrent reads

/-- A read handler settles: a rejection fails the connection directly. -/
def readSettles (durable : RelayState) (c : Connection) (seq : Nat) (ok : Bool) : Option Effect :=
  match c.runningReads.find? fun d => d.seq == seq with
  | none => none
  | some d =>
    let rest := c.runningReads.filter fun d => d.seq != seq
    if ok then
      some { conn := { c with
               runningReads := rest
               completedReads := c.completedReads ++ [d] }
             durable }
    else some { conn := { c.fail with runningReads := rest }, durable }

/-- The acknowledgement loop reads the state and checks it. -/
def ackRead (durable : RelayState) (c : Connection) : Option Effect :=
  match c.readAckQueue, c.nextCompleted? with
  | .idle, some d =>
    if durable.processing.isSome
        ∨ durable.lastAckedServerSeq + 1 ≠ d.seq then
      some { conn := { c.fail with readAckQueue := .rejected }, durable }
    else some { conn := { c with readAckQueue := .writing d }, durable }
  | _, _ => none

/-- The acknowledgement loop's durable write. -/
def ackWrite (c : Connection) : Option Effect :=
  match c.readAckQueue with
  | .writing d =>
    some { conn := { c with readAckQueue := .sending d }
           durable := .ackedThrough d.seq }
  | _ => none

/-- The acknowledgement loop sends the frame and moves on. -/
def ackSend (durable : RelayState) (c : Connection) : Option Effect :=
  match c.readAckQueue with
  | .sending d =>
    some { conn := { c with
             readAckQueue := .idle
             completedReads := c.completedReads.filter fun e => e.seq != d.seq
             activeReads := c.activeReads.filter fun n => n != d.seq
             nextAckSeq := d.seq + 1 }
           durable
           acks := c.ackFrames d }
  | _ => none

-- ===== the client

/-- What can happen to a connection. -/
inductive ConnAct
  | hello
  | receive (frame : ServerFrame)
  | closeSocket
  /-- A close or error event, `reconnect`, an unparsable frame. -/
  | disconnect
  | stop
  /-- `connectionDrain` has awaited everything. -/
  | settle
  | work (answer : Answer)
  | readSettles (seq : Nat) (ok : Bool)
  | ackRead
  | ackWrite
  | ackSend

def connStep (opts : ClientOptions) (durable : RelayState) (c : Connection) :
    ConnAct → Option Effect
  | .hello =>
    if c.settled || c.helloSent then none
    else some { conn := { c with helloSent := true }, durable }
  | .receive frame =>
    if c.settled || c.draining || !c.helloSent then none
    else some { conn := { c with queue := c.queue ++ [frame] }, durable }
  | .closeSocket => some { conn := { c with socketOpen := false }, durable }
  | .disconnect =>
    if c.settled then none else some { conn := c.drain, durable }
  | .stop => if c.settled then none else some { conn := c.stop, durable }
  | .settle =>
    if c.draining && !c.settled && c.queue.isEmpty && c.work == .idle
        && c.readsSettled then
      some { conn := c.fail, durable }
    else none
  | .work answer => workStep opts durable c answer
  | .readSettles seq ok => readSettles durable c seq ok
  | .ackRead => ackRead durable c
  | .ackWrite => ackWrite c
  | .ackSend => ackSend durable c

/-- A client: the state file, the connections of the running process,
newest first, how many were opened ever, the calls `#handleDelivery` made
and the frames it sent. -/
structure Client where
  durable : RelayState
  conns : List Connection
  connects : Nat
  log : List Event
  hellos : List (Nat × Nat)
  acks : List Ack

def Client.initial : Client :=
  { durable := .initial, conns := [], connects := 0, log := [], hellos := [],
    acks := [] }

inductive ClientAct
  | connect
  | crash
  | conn (i : Nat) (act : ConnAct)

/-- The hello a step sends: the socket and its cursor. -/
def ConnAct.hellos (act : ConnAct) (c : Connection) : List (Nat × Nat) :=
  match act with
  | .hello => [(c.number, c.state.lastAckedServerSeq)]
  | _ => []

/-- One step of the client. `run` opens the next connection only after
the last one settled. -/
def clientStep (opts : ClientOptions) (s : Client) : ClientAct → Option Client
  | .connect =>
    if s.conns.all (·.settled)
        && !opts.singleDeliveryRecovery.any (fun r =>
          r.1 != s.durable.lastAckedServerSeq
            || s.durable.processing.isSome) then
      some { s with
        conns := Connection.new s.connects s.durable :: s.conns
        connects := s.connects + 1 }
    else none
  | .crash => some { s with conns := [] }
  | .conn i act => do
    let c ← s.conns[i]?
    let e ← connStep opts s.durable c act
    some { s with
      durable := e.durable
      conns := s.conns.set i e.conn
      log := s.log ++ e.events
      hellos := s.hellos ++ act.hellos c
      acks := s.acks ++ e.acks }

end OperatorRuntime.Relay
