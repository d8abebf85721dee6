/-
Whole runs of the relay: what the server counts as acknowledged never
passes the client's durable cursor, and the cursor never passes what the
server assigned, so a reconnecting client is never refused.

# The condition

A connection writes its durable state some time after it read the one it
builds on. While connections are drained before they are replaced nothing
comes in between. A connection that failed on a rejecting read handler is
not drained, and a write it still owes can put an older cursor over a
newer one. `WritesForward` excludes exactly such a write; nothing else is
asked of the client, the network or the clocks.
-/
import OperatorRuntime.Relay.Proofs.ClientRuns
import OperatorRuntime.Relay.Proofs.HubInvariant

namespace OperatorRuntime.Relay

open Lib

-- ===== pending writes

/-- The cursor the stage is about to write. -/
def Work.pendingCursor? : Work → Option Nat
  | .adoptResume resume _ => some resume
  | .clear _ state | .mark _ state => some state.lastAckedServerSeq
  | .complete d => some d.seq
  | _ => none

def Connection.pendingCursor? (c : Connection) : ConnAct → Option Nat
  | .work .proceed => c.work.pendingCursor?
  | .ackWrite =>
    match c.readAckQueue with
    | .writing d => some d.seq
    | _ => none
  | _ => none

/-- No connection writes a cursor below the one in the state file. -/
def WritesForward (s : RelaySystem) : SystemAct → Prop
  | .client (.conn i act) =>
    ∀ c ∈ s.client.conns[i]?, ∀ n ∈ c.pendingCursor? act, s.client.durable.lastAckedServerSeq ≤ n
  | _ => True

instance (s : RelaySystem) (act : SystemAct) : Decidable (WritesForward s act) :=
  match act with
  | .client (.conn i act) =>
    inferInstanceAs (Decidable (∀ c ∈ s.client.conns[i]?,
      ∀ n ∈ c.pendingCursor? act, s.client.durable.lastAckedServerSeq ≤ n))
  | .client .connect | .client .crash | .enqueue .. | .observe _
  | .expireUnroutableHeads .. | .hello .. | .ack .. => isTrue trivial

section
variable {opts : ClientOptions} {durable : RelayState} {c : Connection} {e : Effect}

theorem workStep_cursor {answer : Answer} (hstep : workStep opts durable c answer = some e) :
    e.durable.lastAckedServerSeq = durable.lastAckedServerSeq
    ∨ e.durable.lastAckedServerSeq ∈ c.pendingCursor? (.work answer) := by
  have hcase := workStep_cases hstep
  generalize hwork : c.work = work at hcase
  cases hcase with
  | idle frame =>
    left
    rw [(processMessage_silent frame).durable]
  | adoptResume | clear | complete =>
    right
    simp [Connection.pendingCursor?, hwork, Work.pendingCursor?, goto, RelayState.ackedThrough]
  | mark d state marked hmarked =>
    right
    simp [Connection.pendingCursor?, hwork, Work.pendingCursor?, goto,
      withProcessing_cursor hmarked]
  | readCheck d =>
    left
    rw [(startRead_silent d).durable]
  | handle d =>
    left
    rw [(handleDelivery_silent d).durable]
  | recovery d state saved decision =>
    left
    cases decision with
    | ack | retry | stop => rfl
  | stopped | welcomed | barrier | reread | call | sendAck | finish | finishLast | expired
  | handled | throws => exact .inl rfl

/-- A step writes the cursor that was pending, or leaves it. -/
theorem connStep_cursor {act : ConnAct} (hstep : connStep opts durable c act = some e) :
    e.durable.lastAckedServerSeq = durable.lastAckedServerSeq
    ∨ e.durable.lastAckedServerSeq ∈ c.pendingCursor? act := by
  cases act with
  | work answer => exact workStep_cursor hstep
  | readSettles seq ok =>
    obtain ⟨_, _, _, hdurable, _⟩ := readSettles_cases hstep
    exact .inl (by rw [hdurable])
  | ackRead =>
    obtain ⟨_, _, _, hdurable, _⟩ := ackRead_cases hstep
    exact .inl (by rw [hdurable])
  | ackWrite =>
    obtain ⟨d, hwriting, rfl⟩ := ackWrite_cases hstep
    right
    simp [Connection.pendingCursor?, hwriting, RelayState.ackedThrough]
  | ackSend =>
    obtain ⟨d, _, rfl⟩ := ackSend_cases hstep
    exact .inl rfl
  | closeSocket =>
    cases hstep
    exact .inl rfl
  | hello | receive | disconnect | stop | settle =>
    simp only [connStep] at hstep
    split at hstep
    all_goals cases hstep
    all_goals exact .inl rfl

/-- What a step never changes or takes back. -/
structure Connection.Kept (c c' : Connection) : Prop where
  state : c'.state = c.state
  settled : c.settled = true → c'.settled = true
  welcomed : c.welcomed = true → c'.welcomed = true

theorem Connection.Kept.rejectMessage (c : Connection) : c.Kept c.rejectMessage := by
  refine ⟨?_, ?_, ?_⟩
  all_goals
    simp only [Connection.rejectMessage, Connection.drain]
    split
  all_goals first | rfl | exact id

theorem Connection.Kept.processMessage (frame : ServerFrame)
    (c : Connection) : c.Kept (processMessage opts durable c frame).conn := by
  have hthrow := Connection.Kept.rejectMessage c
  cases frame with
  | welcome frame =>
    rw [Relay.processMessage, validateWelcome.eq_def]
    repeat' split
    all_goals first | exact hthrow | exact ⟨rfl, id, id⟩
  | delivery frame =>
    rw [Relay.processMessage]
    repeat' split
    all_goals first | exact hthrow | exact ⟨rfl, id, id⟩

theorem Connection.Kept.workStep {answer : Answer}
    (hstep : workStep opts durable c answer = some e) : c.Kept e.conn := by
  have hthrow := Connection.Kept.rejectMessage c
  have hcase := workStep_cases hstep
  generalize c.work = work at hcase
  cases hcase with
  | idle frame queue =>
    have hkept := @Connection.Kept.processMessage opts durable frame
      { c with queue, work := .idle }
    exact ⟨hkept.state, hkept.settled, hkept.welcomed⟩
  | welcomed => exact ⟨rfl, id, fun _ => rfl⟩
  | readCheck d =>
    rw [startRead]
    repeat' split
    all_goals first | exact hthrow | exact ⟨rfl, id, id⟩
  | handle d =>
    rw [handleDelivery.eq_def]
    repeat' split
    all_goals first | exact hthrow | exact ⟨rfl, id, id⟩
  | finishLast d =>
    rw [Connection.stop, Connection.drain]
    split
    all_goals exact ⟨rfl, id, id⟩
  | recovery d state saved decision =>
    cases decision with
    | stop => exact hthrow
    | ack | retry => exact ⟨rfl, id, id⟩
  | throws => exact hthrow
  | adoptResume | stopped | barrier | clear | reread | mark | call | complete | sendAck
  | finish | expired | handled => exact ⟨rfl, id, id⟩

/-- No step takes back a settlement or a welcome. -/
theorem Connection.Kept.step {act : ConnAct}
    (hstep : connStep opts durable c act = some e) : c.Kept e.conn := by
  cases act with
  | work answer => exact Connection.Kept.workStep hstep
  | readSettles seq ok =>
    obtain ⟨_, _, _, _, _, _, ⟨_, hconn⟩ | ⟨_, hconn⟩⟩ := readSettles_cases hstep
    · rw [hconn]
      exact ⟨rfl, id, id⟩
    · rw [hconn]
      exact ⟨rfl, fun _ => rfl, id⟩
  | ackRead =>
    obtain ⟨_, _, _, _, _, _, ⟨_, _, hconn⟩ | hconn⟩ := ackRead_cases hstep
    · rw [hconn]
      exact ⟨rfl, id, id⟩
    · rw [hconn]
      exact ⟨rfl, fun _ => rfl, id⟩
  | ackWrite =>
    obtain ⟨_, _, rfl⟩ := ackWrite_cases hstep
    exact ⟨rfl, id, id⟩
  | ackSend =>
    obtain ⟨_, _, rfl⟩ := ackSend_cases hstep
    exact ⟨rfl, id, id⟩
  | closeSocket =>
    cases hstep
    exact ⟨rfl, id, id⟩
  | hello | receive =>
    simp only [connStep] at hstep
    split at hstep
    all_goals cases hstep
    all_goals exact ⟨rfl, id, id⟩
  | disconnect | stop =>
    simp only [connStep, Connection.stop, Connection.drain] at hstep
    repeat' split at hstep
    all_goals cases hstep
    all_goals exact ⟨rfl, id, id⟩
  | settle =>
    simp only [connStep] at hstep
    split at hstep
    all_goals cases hstep
    exact ⟨rfl, fun _ => rfl, id⟩

end

-- ===== the system

/-- `n` covers what the server acknowledged and every frame that could
make it acknowledge more. -/
structure Covers (n : Nat) (s : RelaySystem) : Prop where
  acked : AckBound n s.stream
  acks : ∀ a ∈ s.client.acks, a.seq ≤ n
  hellos : ∀ h ∈ s.client.hellos, h.2 ≤ n

/-- The system invariant. -/
structure SystemInv (cfg : StoreConfig) (s : RelaySystem) : Prop where
  stream : StreamInv cfg s.stream
  unique : UniqueIds s.stream
  assigned : s.client.durable.lastAckedServerSeq < s.stream.nextSeq
  issued : ∀ p ∈ s.issued, p.1 < s.stream.nextSeq
  welcomes : ∀ w ∈ s.welcomes, (ServerFrame.welcome w.2).Known s.stream.nextSeq
  older : ∀ j c, j ≠ 0 → s.client.conns[j]? = some c → c.settled = true
  conns : ∀ c ∈ s.client.conns, ConnInv c
    ∧ ConnBound s.stream.nextSeq s.client.durable.lastAckedServerSeq c
  covered : Covers s.client.durable.lastAckedServerSeq s
  greeting : ∀ c ∈ s.client.conns, c.settled = false → c.welcomed = false →
    Covers c.state.lastAckedServerSeq s

section
variable {cfg : StoreConfig} {opts : ClientOptions} {s t : RelaySystem}

theorem SystemInv.initial (deviceId : Uuid) : SystemInv cfg (RelaySystem.initial deviceId) where
  stream := StreamInv.new deviceId
  unique := List.nodup_nil
  assigned := Nat.zero_lt_one
  issued := by simp [RelaySystem.initial]
  welcomes := by simp [RelaySystem.initial]
  older := by simp [RelaySystem.initial, Client.initial]
  conns := by simp [RelaySystem.initial, Client.initial]
  covered := ⟨AckBound.new deviceId, by simp [RelaySystem.initial, Client.initial],
    by simp [RelaySystem.initial, Client.initial]⟩
  greeting := by simp [RelaySystem.initial, Client.initial]

theorem SystemInv.deliverable (h : SystemInv cfg s) {c : Connection}
    {frame : ServerFrame} (hframe : s.deliverable c frame = true) :
    frame.Known s.stream.nextSeq := by
  cases frame with
  | welcome frame =>
    simp only [RelaySystem.deliverable, List.any_eq_true, Bool.and_eq_true, beq_iff_eq] at hframe
    obtain ⟨w, hw, ⟨⟨⟨_, hresume⟩, _⟩, _⟩, _⟩ := hframe
    intro n hn
    exact h.welcomes w hw n (hresume.trans hn)
  | delivery frame =>
    simp only [RelaySystem.deliverable, List.any_eq_true, Bool.and_eq_true, beq_iff_eq] at hframe
    obtain ⟨p, hp, hseq, _⟩ := hframe
    intro n hn
    have hlt := h.issued p hp
    rw [hseq] at hn
    simp only [Number.int.injEq, Int.natCast_inj] at hn
    omega

theorem SystemInv.stream_step (h : SystemInv cfg s)
    {stream : DeviceDeliveryStream} (issued : List (Nat × String))
    (welcomes : List (Nat × WelcomeFrame)) (hstream : StreamInv cfg stream)
    (hunique : UniqueIds stream) (hnext : s.stream.nextSeq ≤ stream.nextSeq)
    (hack : ∀ m, Covers m s → AckBound m stream)
    (hissued : ∀ p ∈ issued, p.1 < stream.nextSeq)
    (hwelcomes : ∀ w ∈ welcomes, (ServerFrame.welcome w.2).Known stream.nextSeq) :
    SystemInv cfg { s with
      stream, issued := issued ++ s.issued, welcomes := welcomes ++ s.welcomes } where
  stream := hstream
  unique := hunique
  assigned := h.assigned.trans_le hnext
  issued := by
    intro p hp
    rcases List.mem_append.1 hp with hnew | hold
    · exact hissued p hnew
    · exact (h.issued p hold).trans_le hnext
  welcomes := by
    intro w hw
    rcases List.mem_append.1 hw with hnew | hold
    · exact hwelcomes w hnew
    · exact (h.welcomes w hold).mono hnext
  older := h.older
  conns := fun c hc =>
    ⟨(h.conns c hc).1, (h.conns c hc).2.mono hnext (Nat.le_refl _)⟩
  covered := { h.covered with acked := hack _ h.covered }
  greeting := fun c hc hlive hnew =>
    let hcovers := h.greeting c hc hlive hnew
    { hcovers with acked := hack _ hcovers }

theorem SystemInv.call (h : SystemInv cfg s) {n : Nat} {clock : CallClock}
    {op : DeviceDeliveryStream → Result (CallResult × DeviceDeliveryStream)}
    (hop : StreamOpSpec cfg s.stream.deviceId n op) (hn : ∀ m, Covers m s → n ≤ m) :
    SystemInv cfg (s.call cfg clock op fun _ s => s) := by
  rw [RelaySystem.call]
  split
  · exact h
  · next result stream hok =>
    obtain ⟨⟨hstream, hunique, hacked, _, hnext⟩, _⟩ :=
      streamCall_spec hop h.stream hok
    exact h.stream_step [] [] hstream hunique hnext
      (fun m hm => hacked m (hn m hm) hm.acked) (by simp) (by simp)

theorem SystemInv.enqueue (h : SystemInv cfg s) {clock : CallClock} {id : Uuid}
    {r : EnqueueRequest} (hr : r.Valid) (hdevice : r.deviceId = s.stream.deviceId) :
    SystemInv cfg (s.call cfg clock (enqueueStream cfg clock id r)
      fun result s => { s with issued := result.issues ++ s.issued }) := by
  rw [RelaySystem.call]
  split
  · exact h
  · next result stream hok =>
    obtain ⟨⟨hstream, hunique, hacked, _, hnext⟩, now, hrun⟩ :=
      streamCall_spec (n := 0) (hdevice ▸ enqueueStream_spec hr) h.stream hok
    exact h.stream_step result.issues [] hstream hunique hnext
      (fun m hm => hacked m (Nat.zero_le _) hm.acked)
      (enqueueStream_issues hrun) (by simp)

theorem SystemInv.hello (h : SystemInv cfg s) {clock : CallClock}
    {socket cursor k : Nat} (hmem : (socket, cursor) ∈ s.client.hellos) :
    SystemInv cfg (s.call cfg clock (reconcileStream cfg clock cursor) fun result s => { s with
        welcomes := (welcomeFor k result).map (socket, ·) ++ s.welcomes }) := by
  rw [RelaySystem.call]
  split
  · exact h
  · next result stream hok =>
    obtain ⟨⟨hstream, hunique, hacked, _, hnext⟩, now, hrun⟩ :=
      streamCall_spec (reconcileStream_spec (Nat.le_refl _)) h.stream hok
    refine h.stream_step [] _ hstream hunique hnext
      (fun m hm => hacked m (hm.hellos _ hmem) hm.acked) (by simp) ?_
    intro w hw n hn
    obtain ⟨frame, hframe, rfl⟩ := List.mem_map.1 hw
    have hmaintain := maintainStream_writes cfg now s.stream
    have hlt := reconcileStream_resume (h.stream.writes hmaintain) hrun hframe hn
    rw [hmaintain.keeps.nextSeq] at hlt
    exact hlt.trans_le hnext

/-- An event at the client's side. -/
theorem SystemInv.conn_step (h : SystemInv cfg s) {i : Nat} {act : ConnAct}
    {client : Client} (hforward : WritesForward s (.client (.conn i act)))
    (hframe : ∀ f, act = .receive f → f.Known s.stream.nextSeq)
    (hstep : clientStep opts s.client (.conn i act) = some client) :
    SystemInv cfg { s with client } := by
  obtain ⟨c, e, hc, he, hdurable, hconns, _, hacks, hhellos, _⟩ :=
    clientStep_conn hstep
  have hmem := List.mem_of_getElem? hc
  obtain ⟨hinv, hbound⟩ := h.conns c hmem
  have hkept := Connection.Kept.step he
  have hmono : s.client.durable.lastAckedServerSeq ≤ e.durable.lastAckedServerSeq := by
    rcases connStep_cursor he with hsame | hpending
    · exact hsame.ge
    · exact hforward c hc _ hpending
  have hstep' := BoundedStep.step hinv hbound h.assigned hframe he hmono
  have hhello : ∀ x ∈ act.hellos c, x.2 = c.state.lastAckedServerSeq ∧ c.settled = false := by
    intro x hx
    cases act with
    | hello =>
      obtain rfl := List.mem_singleton.1 hx
      simp only [connStep] at he
      split at he
      · cases he
      · next hnot => exact ⟨rfl, by simp_all⟩
    | _ => cases hx
  refine ⟨h.stream, h.unique, ?_, h.issued, h.welcomes, ?_, ?_, ?_, ?_⟩
  · rw [hdurable]
    exact hstep'.assigned
  · show ∀ j x, j ≠ 0 → client.conns[j]? = some x → x.settled = true
    rw [hconns]
    intro j x hj hx
    rcases getElem?_set_cases hx with ⟨rfl, rfl⟩ | ⟨_, hold⟩
    · exact hkept.settled (h.older j c hj hc)
    · exact h.older j x hj hold
  · show ∀ x ∈ client.conns, _
    rw [hconns, hdurable]
    intro x hx
    rcases List.mem_or_eq_of_mem_set hx with hold | rfl
    · exact ⟨(h.conns x hold).1, (h.conns x hold).2.mono (Nat.le_refl _) hmono⟩
    · exact ⟨hinv.step he, hstep'.conn⟩
  · rw [hdurable]
    refine ⟨h.covered.acked.mono hmono, ?_, ?_⟩
    · show ∀ a ∈ client.acks, _
      rw [hacks]
      intro a ha
      rcases List.mem_append.1 ha with hold | hnew
      · exact (h.covered.acks a hold).trans hmono
      · exact hstep'.acks a hnew
    · show ∀ x ∈ client.hellos, _
      rw [hhellos]
      intro x hx
      rcases List.mem_append.1 hx with hold | hnew
      · exact (h.covered.hellos x hold).trans hmono
      · rw [(hhello x hnew).1]
        exact hbound.hello.trans hmono
  · show ∀ x ∈ client.conns, _
    rw [hconns]
    intro x hx hlive hnew
    obtain ⟨j, hj⟩ := List.mem_iff_getElem?.1 hx
    -- Either the connection that stepped is still greeting, or it is not
    -- the live one; it acknowledges nothing in both cases.
    have hgreeting : ∃ y ∈ s.client.conns, y.state = x.state
        ∧ y.settled = false ∧ y.welcomed = false
        ∧ (c.settled = true ∨ c.welcomed = false)
        ∧ (c.settled = false → c.state = x.state) := by
      rcases getElem?_set_cases hj with ⟨rfl, rfl⟩ | ⟨hne, hold⟩
      · have hlive' : c.settled = false := by
          by_contra hset
          simp [hkept.settled (by simpa using hset)] at hlive
        have hnew' : c.welcomed = false := by
          by_contra hset
          simp [hkept.welcomed (by simpa using hset)] at hnew
        exact ⟨c, hmem, hkept.state.symm, hlive', hnew', .inr hnew', fun _ => hkept.state.symm⟩
      · have hzero : j = 0 := by
          by_contra hj0
          rw [h.older j x hj0 hold] at hlive
          cases hlive
        have hset : c.settled = true := h.older i c (by omega) hc
        exact ⟨x, List.mem_of_getElem? hold, rfl, hlive, hnew, .inl hset, by simp [hset]⟩
    obtain ⟨y, hy, hstate, hylive, hynew, hquiet, hself⟩ := hgreeting
    have hcovers := h.greeting y hy hylive hynew
    rw [hstate] at hcovers
    refine ⟨hcovers.acked, ?_, ?_⟩
    · show ∀ a ∈ client.acks, _
      rw [hacks, hinv.no_acks he hquiet, List.append_nil]
      exact hcovers.acks
    · show ∀ a ∈ client.hellos, _
      rw [hhellos]
      intro a ha
      rcases List.mem_append.1 ha with hold | hsent
      · exact hcovers.hellos a hold
      · obtain ⟨hcursor, hset⟩ := hhello a hsent
        rw [hcursor, hself hset]

theorem Covers.of_eq {n : Nat} (h : Covers n s) (hstream : t.stream = s.stream)
    (hacks : t.client.acks = s.client.acks)
    (hhellos : t.client.hellos = s.client.hellos) : Covers n t :=
  ⟨hstream ▸ h.acked, hacks ▸ h.acks, hhellos ▸ h.hellos⟩

theorem SystemInv.connect (h : SystemInv cfg s) (hall : ∀ c ∈ s.client.conns, c.settled = true) :
    SystemInv cfg { s with client := { s.client with
      conns := Connection.new s.client.connects s.client.durable :: s.client.conns
      connects := s.client.connects + 1 } } := by
  refine { h with
    older := ?_, conns := ?_, covered := h.covered.of_eq rfl rfl rfl
    greeting := ?_ }
  · intro j c hj hc
    obtain ⟨k, rfl⟩ := Nat.exists_eq_succ_of_ne_zero hj
    exact hall c (List.mem_of_getElem? hc)
  · intro c hc
    rcases List.mem_cons.1 hc with rfl | hold
    · exact ⟨ConnInv.new _ _, ConnBound.new _ _⟩
    · exact h.conns c hold
  · intro c hc hlive _
    rcases List.mem_cons.1 hc with rfl | hold
    · exact h.covered.of_eq rfl rfl rfl
    · rw [hall c hold] at hlive
      cases hlive

theorem systemStep_conn {i : Nat} {act : ConnAct}
    (hstep : systemStep cfg opts s (.client (.conn i act)) = some t) :
    ∃ client, (∀ frame, act = .receive frame → ∃ c, s.deliverable c frame = true)
    ∧ clientStep opts s.client (.conn i act) = some client ∧ t = { s with client } := by
  cases act with
  | receive frame =>
    simp only [systemStep, bind, Option.bind_eq_some_iff] at hstep
    obtain ⟨c, _, hstep⟩ := hstep
    split at hstep
    · next hdeliverable =>
      simp only [Option.bind_eq_some_iff] at hstep
      obtain ⟨client, hclient, ht⟩ := hstep
      cases ht
      refine ⟨client, ?_, hclient, rfl⟩
      rintro f ⟨⟩
      exact ⟨c, hdeliverable⟩
    · cases hstep
  | _ =>
    simp only [systemStep, bind, Option.bind_eq_some_iff] at hstep
    obtain ⟨client, hclient, ht⟩ := hstep
    cases ht
    exact ⟨client, (fun _ h => nomatch h), hclient, rfl⟩

/-- One act of the hub, of the client, or of the network between them. -/
theorem SystemInv.step (h : SystemInv cfg s) {act : SystemAct} (hforward : WritesForward s act)
    (hstep : systemStep cfg opts s act = some t) : SystemInv cfg t := by
  cases act with
  | enqueue clock id deviceId kind payload authority key caps =>
    simp only [systemStep] at hstep
    split at hstep
    · cases hstep
      exact h
    · next request hrequest =>
      split at hstep
      · cases hstep
        exact h
      · next hdevice =>
        cases hstep
        exact h.enqueue (enqueueRequest_valid hrequest) (not_not.1 hdevice)
  | observe clock =>
    cases hstep
    exact h.call (n := 0) observeStream_spec fun m _ => Nat.zero_le m
  | expireUnroutableHeads clock supported =>
    cases hstep
    exact h.call (n := 0) expireUnroutableStream_spec fun m _ => Nat.zero_le m
  | hello clock socket cursor readConcurrency =>
    simp only [systemStep] at hstep
    split at hstep
    · next hmem =>
      cases hstep
      exact h.hello hmem
    · cases hstep
  | ack clock frame =>
    simp only [systemStep] at hstep
    split at hstep
    · next hmem =>
      cases hstep
      exact h.call (acknowledgeFrame_spec (Nat.le_refl _))
        fun m hm => hm.acks frame hmem
    · cases hstep
  | client act =>
    cases act with
    | connect =>
      simp only [systemStep, clientStep, bind, Option.bind_eq_some_iff] at hstep
      obtain ⟨client, hclient, ht⟩ := hstep
      cases ht
      split at hclient
      · next hall =>
        cases hclient
        simp only [Bool.and_eq_true, List.all_eq_true] at hall
        exact h.connect hall.1
      · cases hclient
    | crash =>
      cases hstep
      exact { h with
        older := by simp
        conns := by simp
        covered := h.covered.of_eq rfl rfl rfl
        greeting := by simp }
    | conn i act =>
      obtain ⟨client, hframe, hclient, rfl⟩ := systemStep_conn hstep
      refine h.conn_step hforward ?_ hclient
      rintro frame rfl
      obtain ⟨c, hdeliverable⟩ := hframe frame rfl
      exact h.deliverable hdeliverable

end

-- ===== the main result

/-- The cursor reconciles: `reconcileClientCursor` raises neither resume
error for it. -/
def Reconciles (cfg : StoreConfig) (cursor : Nat) (s : DeviceDeliveryStream) : Prop :=
  ∀ clock e, streamCall cfg clock (reconcileStream cfg clock cursor) s = .error e →
    e.code ≠ .relayResumeBehind ∧ e.code ≠ .relayResumeAhead

/-- In every run whose client writes never put an older cursor over a
newer one: the server has acknowledged nothing past the client's durable
cursor, the cursor is an assigned sequence, and neither the durable
cursor nor the one in the hello of the live connection is refused. -/
theorem relay_cursors_sound (cfg : StoreConfig) (opts : ClientOptions)
    (deviceId : Uuid) (acts : List SystemAct) (s : RelaySystem)
    (hrun : Run (Where (stepsOf (systemStep cfg opts)) WritesForward)
      (RelaySystem.initial deviceId) acts s) :
    (∀ d ∈ s.stream.deliveries, d.status = .acked → d.seq ≤ s.client.durable.lastAckedServerSeq)
    ∧ s.stream.highestCompactedAckedSeq ≤ s.client.durable.lastAckedServerSeq
    ∧ s.client.durable.lastAckedServerSeq ≤ s.stream.nextSeq - 1
    ∧ Reconciles cfg s.client.durable.lastAckedServerSeq s.stream
    ∧ ∀ c ∈ s.client.conns, c.settled = false → c.welcomed = false →
        Reconciles cfg c.state.lastAckedServerSeq s.stream := by
  have hinv : SystemInv cfg s := hrun.invariant (SystemInv.initial deviceId)
    fun h hstep => h.step hstep.2 hstep.1
  refine ⟨hinv.covered.acked.acked, hinv.covered.acked.compacted,
    Nat.le_sub_one_of_lt hinv.assigned, ?_, ?_⟩
  · intro clock e herror
    exact hinv.stream.reconcileCall_error hinv.unique hinv.covered.acked
      hinv.assigned herror
  · intro c hc hlive hnew clock e herror
    have hle := (hinv.conns c hc).2.hello
    exact hinv.stream.reconcileCall_error hinv.unique
      (hinv.greeting c hc hlive hnew).acked (hle.trans_lt hinv.assigned) herror

-- ------------------------------------- a cursor that skips a delivery

def relayDevice : Uuid := onesUuid

/-- The ids of the two deliveries below. -/
def relayIds : Uuid × Uuid :=
  (twosUuid,
   ⟨"33333333-3333-4333-8333-333333333333", threes_uuid⟩)

def stoppedClock : CallClock := fun _ => some ⟨0, zero_instant⟩

def enqueueAct (id : Uuid) : SystemAct :=
  .enqueue stoppedClock id relayDevice.val "action" (.obj []) none none []

/-- Open socket `socket`; the hub answers its hello at `cursor`. -/
def greet (socket cursor : Nat) : List SystemAct :=
  [.client .connect, .client (.conn 0 .hello), .hello stoppedClock socket cursor 4,
   .client (.conn 0 (.receive (.welcome
     { resumeFromSeq := .int cursor, readConcurrency := some (.int 4) }))),
   .client (.conn 0 (.work .proceed)), .client (.conn 0 (.work .proceed))]

/-- The newest connection accepts a concurrent read. -/
def takeRead (seq : Nat) (id : Uuid) : List SystemAct :=
  [.client (.conn 0 (.receive (.delivery
     { seq := .int seq, id := id.val, concurrentRead := true }))),
   .client (.conn 0 (.work .proceed)), .client (.conn 0 (.work .proceed))]

/-- Its handler resolves, the cursor is written and the hub takes the
acknowledgement. -/
def completeRead (seq : Nat) (id : Uuid) : List SystemAct :=
  [.client (.conn 0 (.readSettles seq true)), .client (.conn 0 .ackRead),
   .client (.conn 0 .ackWrite), .client (.conn 0 .ackSend),
   .ack stoppedClock { seq, id := id.val }]

/-- Read 2 rejects while read 1 is running. Read 1 resolves and reads the
cursor 0; a second connection completes both reads, and then the first
one writes cursor 1. -/
def refusedTrace : List SystemAct :=
  [enqueueAct relayIds.1, enqueueAct relayIds.2]
    ++ greet 0 0 ++ takeRead 1 relayIds.1 ++ takeRead 2 relayIds.2
    ++ ([.client (.conn 0 (.readSettles 2 false)),
      .client (.conn 0 (.readSettles 1 true)), .client (.conn 0 .ackRead)] : List SystemAct)
    ++ greet 1 0 ++ takeRead 1 relayIds.1 ++ completeRead 1 relayIds.1
    ++ takeRead 2 relayIds.2 ++ completeRead 2 relayIds.2
    ++ ([.client (.conn 1 .ackWrite)] : List SystemAct)

/-- The server acknowledged 2, the client is back at 1 and is refused. -/
theorem staleAck_refused_at_hello : ∃ s, Run (stepsOf (systemStep smallConfig readingOptions))
        (RelaySystem.initial relayDevice) refusedTrace s
      ∧ (∃ d ∈ s.stream.deliveries, d.status = .acked ∧ s.client.durable.lastAckedServerSeq < d.seq)
      ∧ ¬ Reconciles smallConfig s.client.durable.lastAckedServerSeq
          s.stream := by
  have hstate : (exec (systemStep smallConfig readingOptions)
      (RelaySystem.initial relayDevice) refusedTrace).map (fun s =>
        (s.client.durable.lastAckedServerSeq, s.stream.deliveries.map fun d => (d.seq, d.status),
          match streamCall smallConfig stoppedClock (reconcileStream smallConfig
            stoppedClock s.client.durable.lastAckedServerSeq) s.stream with
          | .ok _ => none
          | .error e => some e.code))
      = some (1, [(2, .acked)], some .relayResumeBehind) := by
    decide +kernel
  obtain ⟨s, hexec, hs⟩ := Option.map_eq_some_iff.1 hstate
  simp only [Prod.mk.injEq] at hs
  obtain ⟨hcursor, hrecords, hcode⟩ := hs
  refine ⟨s, run_of_exec hexec, ?_, ?_⟩
  · have hmem : (2, DeliveryStatus.acked)
        ∈ s.stream.deliveries.map fun d => (d.seq, d.status) := by
      rw [hrecords]
      exact List.mem_singleton.2 rfl
    obtain ⟨d, hd, hpair⟩ := List.mem_map.1 hmem
    simp only [Prod.mk.injEq] at hpair
    exact ⟨d, hd, hpair.2, by omega⟩
  · intro hreconciles
    cases hcall : streamCall smallConfig stoppedClock (reconcileStream
        smallConfig stoppedClock s.client.durable.lastAckedServerSeq)
        s.stream with
    | ok answer => simp [hcall] at hcode
    | error e =>
      simp only [hcall, Option.some.injEq] at hcode
      exact (hreconciles _ _ hcall).1 hcode

/-- Both reads on one connection, and a second one that is welcomed at
the cursor they left. -/
def resumedTrace : List SystemAct :=
  [enqueueAct relayIds.1, enqueueAct relayIds.2]
    ++ greet 0 0 ++ takeRead 1 relayIds.1 ++ completeRead 1 relayIds.1
    ++ takeRead 2 relayIds.2 ++ (completeRead 2 relayIds.2).take 3
    ++ ([.client .crash, .client .connect] : List SystemAct)

/-- The client is one delivery ahead of the hub. -/
theorem relay_cursors_sound_resumedTrace :
    ∃ s, Run (Where (stepsOf (systemStep smallConfig readingOptions))
        WritesForward) (RelaySystem.initial relayDevice) resumedTrace s
      ∧ s.client.durable.lastAckedServerSeq = 2
      ∧ s.stream.lastAckedSeq = 1
      ∧ Reconciles smallConfig s.client.durable.lastAckedServerSeq
          s.stream := by
  have hstate : (exec (guarded (systemStep smallConfig readingOptions)
      WritesForward) (RelaySystem.initial relayDevice) resumedTrace).map
        (fun s => (s.client.durable.lastAckedServerSeq, s.stream.lastAckedSeq))
      = some (2, 1) := by
    decide +kernel
  obtain ⟨s, hexec, hs⟩ := Option.map_eq_some_iff.1 hstate
  have hrun := run_where_of_guarded hexec
  simp only [Prod.mk.injEq] at hs
  exact ⟨s, hrun, hs.1, hs.2, (relay_cursors_sound _ _ _ _ _ hrun).2.2.2.1⟩

end OperatorRuntime.Relay
