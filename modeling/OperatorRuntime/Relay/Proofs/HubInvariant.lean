/-
The two cursors of one device. The server's acknowledgements stay at or
below the client's durable cursor, and the client's cursor stays below
the server's next sequence; so a hello that carries the client's cursor
always reconciles.

The client here is the whole one of `Client.lean`, undrained connections
included. What the results need of a step of it is that it does not lower
the durable cursor.
-/
import OperatorRuntime.Lib.Runs
import OperatorRuntime.Relay.Hub
import OperatorRuntime.Relay.Proofs.ClientInvariant
import OperatorRuntime.Relay.Proofs.DeliveryRuns

namespace OperatorRuntime.Relay

open Lib

-- === acknowledged records

/-- Everything the server holds or compacted as acknowledged is at most
`n`. -/
structure AckBound (n : Nat) (s : DeviceDeliveryStream) : Prop where
  acked : ∀ d ∈ s.deliveries, d.status = .acked → d.seq ≤ n
  compacted : s.highestCompactedAckedSeq ≤ n

namespace AckBound

variable {cfg : StoreConfig} {n m : Nat} {s t : DeviceDeliveryStream}

theorem mono (h : AckBound n s) (hle : n ≤ m) : AckBound m s :=
  ⟨fun d hd hacked => (h.acked d hd hacked).trans hle, h.compacted.trans hle⟩

theorem new (deviceId : Uuid) : AckBound n (newStream deviceId) :=
  ⟨by simp [newStream], Nat.zero_le _⟩

theorem advance (h : AckBound n s) {settle : StoredRelayDelivery → StoredRelayDelivery}
    (hseq : ∀ d, (settle d).seq = d.seq)
    (hsettle : ∀ d, (settle d).status = .acked → s.lastAckedSeq + 1 ≤ n) :
    AckBound n (s.advance settle) := by
  refine ⟨?_, h.compacted⟩
  intro d hd hacked
  rcases mem_updateFirst hd with hold | ⟨a, _, ha, rfl⟩
  · exact h.acked d hold hacked
  · have haseq : a.seq = s.lastAckedSeq + 1 := by simpa using ha
    rw [hseq, haseq]
    exact hsettle a hacked

theorem write {new : List Nat} (h : AckBound n s) (hwrite : Write s new t)
    (hle : ∀ k ∈ new, k ≤ n) : AckBound n t := by
  cases hwrite with
  | expire at' => exact h.advance (fun _ => rfl) (by simp [expireDelivery])
  | ack at' => exact h.advance (fun _ => rfl) fun _ _ => hle _ (List.mem_singleton.2 rfl)
  | release now retentionMs =>
    refine ⟨?_, h.compacted⟩
    intro d hd hacked
    obtain ⟨a, ha, rfl⟩ := List.mem_map.1 hd
    obtain ⟨hseq, _, hstatus⟩ := releaseIdempotency_identity now retentionMs a
    rw [hseq]
    exact h.acked a ha (hstatus ▸ hacked)
  | @drop d rest hfirst =>
    have hd := h.acked d (by rw [hfirst]; exact List.mem_cons_self ..)
    refine ⟨?_, ?_⟩
    · intro x hx
      exact h.acked x (by rw [hfirst]; exact List.mem_cons_of_mem _ hx)
    · rw [DeviceDeliveryStream.drop]
      split
      · next hacked => exact Nat.max_le.2 ⟨h.compacted, hd hacked⟩
      · exact h.compacted
  | rebase => exact ⟨h.acked, h.compacted⟩

theorem writes {acks : List Nat} (h : AckBound n s) (hwrites : Writes acks s t)
    (hle : ∀ k ∈ acks, k ≤ n) : AckBound n t := by
  obtain ⟨steps, hrun, rfl⟩ := hwrites
  induction hrun with
  | nil => exact h
  | snoc _ hlast ih =>
    simp only [List.flatten_append, List.mem_append] at hle
    exact (ih fun k hk => hle k (.inl hk)).write hlast
      fun k hk => hle k (.inr (by simpa using hk))

theorem push (h : AckBound n s) {d : StoredRelayDelivery}
    (hpending : d.status = .pending) : AckBound n (s.push d) := by
  refine ⟨?_, h.compacted⟩
  intro x hx hacked
  rcases List.mem_append.1 hx with hold | hnew
  · exact h.acked x hold hacked
  · obtain rfl : x = d := by simpa using hnew
    rw [hpending] at hacked
    cases hacked

end AckBound

-- ===== reconciling

section
variable {cfg : StoreConfig} {s t : DeviceDeliveryStream} {n : Nat}

theorem StreamInv.crossing_expired (h : StreamInv cfg s) (hacked : AckBound n s)
    (hlt : n < s.lastAckedSeq) : crossingExpired s n = true := by
  have hbase := h.base_le
  have hwindow := h.window
  have hnext := h.acked_lt
  simp only [crossingExpired, Bool.and_eq_true, decide_eq_true_eq, beq_iff_eq,
    List.all_eq_true, List.mem_filter]
  refine ⟨⟨hacked.compacted, ?_⟩, ?_⟩
  · have hcount := h.consecutive.length_filter_between
      (by omega : s.baseSeq ≤ max (n + 1) s.baseSeq)
      (by omega : max (n + 1) s.baseSeq ≤ s.lastAckedSeq + 1) (by omega)
    simpa only [Nat.lt_succ_iff] using hcount
  · rintro d ⟨hd, hlow, hhigh⟩
    have hterminal := (h.settled d hd).1 hhigh
    cases hstatus : d.status with
    | pending => exact absurd hstatus hterminal
    | acked =>
      have := hacked.acked d hd hstatus
      omega
    | expired =>
      obtain ⟨_, _, hpayload, hauthority, _⟩ := (h.records d hd).expired hstatus
      simp [hpayload, hauthority]

variable {clock : CallClock}

theorem ackThrough_error {k : Nat} {e : OperatorError} (h : ackThrough k clock s = .error e) :
    e.code ≠ .relayResumeBehind ∧ e.code ≠ .relayResumeAhead := by
  induction k generalizing s clock with
  | zero => cases h
  | succ k ih =>
    rw [ackThrough] at h
    split at h
    · cases h
      simp
    · cases hclock : clock 0 with
      | none =>
        simp only [hclock, toISOString, fail, error_bind] at h
        cases h
        simp
      | some at' =>
        simp only [hclock, toISOString, ok_bind] at h
        exact ih h

theorem StreamInv.reconcile_error (h : StreamInv cfg s) (hacked : AckBound n s)
    (hassigned : n < s.nextSeq) {e : OperatorError}
    (herror : Relay.reconcileStream cfg clock n s = .error e) :
    e.code ≠ .relayResumeBehind ∧ e.code ≠ .relayResumeAhead := by
  rw [Relay.reconcileStream] at herror
  split at herror
  · next hlt =>
    rw [if_pos (h.crossing_expired hacked hlt)] at herror
    cases herror
  · split at herror
    · omega
    · split at herror
      · cases herror
      · cases hloop : Relay.ackThrough (n - s.lastAckedSeq)
            (fun i => clock (i + 1)) s with
        | error e' =>
          rw [hloop, error_bind] at herror
          cases herror
          exact ackThrough_error hloop
        | ok acked =>
          rw [hloop, ok_bind] at herror
          cases herror

-- === calls on the stream

/-- What an operation on a stream of `device` keeps: the invariant, the
device and the sequences; its acknowledgements stay below `n`. -/
def StreamOpSpec (cfg : StoreConfig) (device : Uuid) (n : Nat) (op : DeviceDeliveryStream →
      Result (CallResult × DeviceDeliveryStream)) : Prop :=
  ∀ {s t : DeviceDeliveryStream} {result : CallResult}, StreamInv cfg s →
    s.deviceId = device → op s = .ok (result, t) → StreamInv cfg t
      ∧ (∀ m, n ≤ m → AckBound m s → AckBound m t)
      ∧ t.deviceId = s.deviceId ∧ s.nextSeq ≤ t.nextSeq

theorem Writes.spec {acks : List Nat} (h : Writes acks s t) (hle : ∀ k ∈ acks, k ≤ n)
    (hs : StreamInv cfg s) : StreamInv cfg t ∧ (∀ m, n ≤ m → AckBound m s → AckBound m t)
    ∧ t.deviceId = s.deviceId ∧ s.nextSeq ≤ t.nextSeq :=
  ⟨hs.writes h, fun _ hm hb => hb.writes h fun k hk => (hle k hk).trans hm,
    h.keeps.deviceId, h.keeps.nextSeq.ge⟩

theorem maintainStream_writes (cfg : StoreConfig) (now : Instant) (s : DeviceDeliveryStream) :
    Writes [] s (maintainStream cfg now s) :=
  (expireStream_writes now cfg.retentionMs s).trans
    (compactStream_writes cfg.terminalReplayWindow _).1

variable {result : CallResult}

theorem streamCall_spec {op : DeviceDeliveryStream →
      Result (CallResult × DeviceDeliveryStream)}
    (hop : StreamOpSpec cfg s.deviceId n op) (h : StreamInv cfg s)
    (hok : streamCall cfg clock op s = .ok (result, t)) :
    (StreamInv cfg t ∧ UniqueIds t ∧ (∀ m, n ≤ m → AckBound m s → AckBound m t)
      ∧ t.deviceId = s.deviceId ∧ s.nextSeq ≤ t.nextSeq)
    ∧ ∃ now, op (maintainStream cfg now s) = .ok (result, t) := by
  rw [streamCall] at hok
  obtain ⟨now, _, hok⟩ := bind_eq_ok.1 hok
  obtain ⟨⟨answer, t₁⟩, hrun, hok⟩ := bind_eq_ok.1 hok
  obtain ⟨t₂, hvalid, hok⟩ := bind_eq_ok.1 hok
  cases hok
  have hmaintain := maintainStream_writes cfg now s
  obtain ⟨ht₁, hacked, hdevice, hnext⟩ := hop (h.writes hmaintain)
    hmaintain.keeps.deviceId hrun
  obtain ⟨hunique, hsafe⟩ := unique_of_validateStream hvalid
  have hsame := ht₁.validateStream_ok hunique hsafe
  rw [hsame] at hvalid
  cases hvalid
  refine ⟨⟨ht₁, hunique, ?_, hdevice.trans hmaintain.keeps.deviceId, ?_⟩, now, hrun⟩
  · exact fun m hm hs => hacked m hm (hs.writes hmaintain (by simp))
  · rw [← hmaintain.keeps.nextSeq]
    exact hnext

variable {device : Uuid}

theorem observeStream_spec : StreamOpSpec cfg device n observeStream := by
  intro s t result hs _ hok
  cases hok
  exact ⟨hs, fun _ _ h => h, rfl, Nat.le_refl _⟩

theorem enqueueStream_spec {id : Uuid} {r : EnqueueRequest} (hr : r.Valid) :
    StreamOpSpec cfg r.deviceId n (enqueueStream cfg clock id r) := by
  intro s t result hs hdevice hok
  rw [enqueueStream] at hok
  obtain ⟨_, hroom, hok⟩ := bind_eq_ok.1 hok
  obtain ⟨createdAt, _, hok⟩ := bind_eq_ok.1 hok
  cases hok
  rw [rejectIf_eq_ok, Nat.not_le] at hroom
  exact ⟨hs.push hroom rfl rfl (hdevice ▸ hr.delivery _ _ _),
    fun m _ hm => hm.push rfl, rfl, Nat.le_succ _⟩

theorem enqueueStream_issues {id : Uuid} {r : EnqueueRequest}
    (hok : enqueueStream cfg clock id r s = .ok (result, t)) :
    ∀ p ∈ result.issues, p.1 < t.nextSeq := by
  rw [enqueueStream] at hok
  obtain ⟨_, _, hok⟩ := bind_eq_ok.1 hok
  obtain ⟨createdAt, _, hok⟩ := bind_eq_ok.1 hok
  cases hok
  intro p hp
  obtain rfl := List.mem_singleton.1 hp
  exact Nat.lt_succ_self _

theorem expireUnroutableStream_spec {supported : List String} :
    StreamOpSpec cfg device n (expireUnroutableStream cfg clock supported) := by
  intro s t result hs _ hok
  rw [expireUnroutableStream] at hok
  obtain ⟨expiredAt, _, hok⟩ := bind_eq_ok.1 hok
  cases hok
  exact Writes.spec ((expireUnroutable_writes supported expiredAt _ s).trans
    (compactStream_writes cfg.terminalReplayWindow _).1) (by simp) hs

theorem acknowledgeFrame_spec {frame : Ack} (hle : frame.seq ≤ n) :
    StreamOpSpec cfg device n (acknowledgeFrame cfg clock frame) := by
  intro s t result hs _ hok
  rw [acknowledgeFrame] at hok
  obtain ⟨seq, hseq, hok⟩ := bind_eq_ok.1 hok
  obtain ⟨id, _, hok⟩ := bind_eq_ok.1 hok
  have hseq : seq = frame.seq := by
    rw [validSeq] at hseq
    split at hseq
    · next m hm =>
      cases hseq
      have hint := Number.safeFrom?_eq_some hm
      simp only [Number.int.injEq, Int.natCast_inj] at hint
      exact hint.symm
    · exact absurd hseq fail_ne_ok
  obtain ⟨-, hwrites, hacks⟩ := acknowledgeStream_writes hok
  exact hwrites.spec (fun k hk => (hacks k hk).trans (hseq ▸ hle)) hs

theorem reconcileStream_spec {cursor : Nat} (hle : cursor ≤ n) :
    StreamOpSpec cfg device n (reconcileStream cfg clock cursor) := by
  intro s t result hs _ hok
  obtain ⟨-, hwrites, hacks⟩ := reconcileStream_writes hok
  exact hwrites.spec (fun k hk => (hacks k hk).trans hle) hs

theorem reconcileStream_resume (h : StreamInv cfg s) {cursor k : Nat} {frame : WelcomeFrame}
    (hok : reconcileStream cfg clock cursor s = .ok (result, t))
    (hframe : frame ∈ welcomeFor k result) {m : Nat} (hm : frame.resumeFromSeq = .int m) :
    m < s.nextSeq := by
  have hlt := h.acked_lt
  rw [Relay.reconcileStream] at hok
  split at hok
  · split at hok
    · cases hok
      obtain hframe := List.mem_singleton.1 hframe
      rw [hframe] at hm
      simp only [Number.int.injEq, Int.natCast_inj] at hm
      omega
    · exact absurd hok fail_ne_ok
  · split at hok
    · exact absurd hok fail_ne_ok
    · split at hok
      · cases hok
        obtain hframe := List.mem_singleton.1 hframe
        rw [hframe] at hm
        simp only [Number.int.injEq, Int.natCast_inj] at hm
        omega
      · obtain ⟨acked, _, hok⟩ := bind_eq_ok.1 hok
        cases hok
        obtain hframe := List.mem_singleton.1 hframe
        rw [hframe] at hm
        simp only [Number.int.injEq, Int.natCast_inj] at hm
        omega

theorem StreamInv.reconcileCall_error (h : StreamInv cfg s) (hunique : UniqueIds s)
    (hacked : AckBound n s) (hassigned : n < s.nextSeq) {e : OperatorError}
    (herror : streamCall cfg clock (Relay.reconcileStream cfg clock n) s
      = .error e) : e.code ≠ .relayResumeBehind ∧ e.code ≠ .relayResumeAhead := by
  rw [streamCall] at herror
  cases hclock : clock 0 with
  | none =>
    simp only [hclock, toISOString, fail, error_bind] at herror
    cases herror
    simp
  | some now =>
    simp only [hclock, toISOString, ok_bind] at herror
    have hmaintain := maintainStream_writes cfg now s
    have hassigned' : n < (maintainStream cfg now s).nextSeq := by
      rw [hmaintain.keeps.nextSeq]
      exact hassigned
    cases hrun : Relay.reconcileStream cfg clock n
        (maintainStream cfg now s) with
    | error e' =>
      rw [hrun, error_bind] at herror
      cases herror
      exact (h.writes hmaintain).reconcile_error (hacked.writes hmaintain (by simp))
        hassigned' hrun
    | ok answer =>
      obtain ⟨result, t⟩ := answer
      rw [hrun, ok_bind] at herror
      have hwrites := (reconcileStream_writes hrun).2.1
      have hids : UniqueIds t :=
        List.Nodup.sublist (hmaintain.keeps.trans hwrites.keeps).ids hunique
      rcases ((h.writes hmaintain).writes hwrites).validateStream_cases hids with
        hok | hfail
      · rw [hok, ok_bind] at herror
        cases herror
      · rw [hfail] at herror
        cases herror
        simp

end

-- ===== the client

/-- The sequences a frame names were assigned. -/
def ServerFrame.Known (next : Nat) : ServerFrame → Prop
  | .welcome frame => ∀ n : Nat, frame.resumeFromSeq = .int n → n < next
  | .delivery frame => ∀ n : Nat, frame.seq = .int n → n < next

/-- The sequences a stage names were assigned, and the cursor covers what
it is about to acknowledge. -/
def Work.Known (next cursor : Nat) : Work → Prop
  | .idle | .finish _ => True
  | .expiredRecovery resume _ | .adoptResume resume _ | .welcomed resume _ =>
    resume < next
  | .recovery d state _ | .clear d state | .mark d state =>
    d.seq < next ∧ state.lastAckedServerSeq < next
  | .readCheck d | .barrier d | .handle d | .reread d | .call d | .running d
  | .complete d => d.seq < next
  | .sendAck d _ => d.seq ≤ cursor

/-- What a connection carries was assigned; what it sends is covered. -/
structure ConnBound (next cursor : Nat) (c : Connection) : Prop where
  hello : c.state.lastAckedServerSeq ≤ cursor
  queue : ∀ f ∈ c.queue, f.Known next
  work : c.work.Known next cursor
  reads : ∀ d ∈ c.runningReads ++ c.completedReads, d.seq < next
  sending : ∀ d, c.readAckQueue = .sending d → d.seq ≤ cursor

/-- What a step of a connection leaves, for a cursor that did not fall. -/
structure BoundedStep (next cursor : Nat) (e : Effect) : Prop where
  conn : ConnBound next cursor e.conn
  assigned : e.durable.lastAckedServerSeq < next
  acks : ∀ a ∈ e.acks, a.seq ≤ cursor

section
variable {opts : ClientOptions} {durable : RelayState} {c : Connection}
  {e : Effect} {next next' cursor cursor' : Nat}

theorem ServerFrame.Known.mono {f : ServerFrame} (h : f.Known next)
    (hle : next ≤ next') : f.Known next' := by
  cases f with
  | welcome frame => exact fun n hn => (h n hn).trans_le hle
  | delivery frame => exact fun n hn => (h n hn).trans_le hle

theorem Work.Known.mono {w : Work} (h : w.Known next cursor)
    (hnext : next ≤ next') (hcursor : cursor ≤ cursor') :
    w.Known next' cursor' := by
  cases w with
  | idle => trivial
  | finish => trivial
  | sendAck d handled => exact Nat.le_trans h hcursor
  | recovery | clear | mark =>
    exact ⟨h.1.trans_le hnext, h.2.trans_le hnext⟩
  | _ => exact Nat.lt_of_lt_of_le h hnext

theorem ConnBound.mono (h : ConnBound next cursor c) (hnext : next ≤ next')
    (hcursor : cursor ≤ cursor') : ConnBound next' cursor' c :=
  ⟨h.hello.trans hcursor, fun f hf => (h.queue f hf).mono hnext,
    h.work.mono hnext hcursor, fun d hd => (h.reads d hd).trans_le hnext,
    fun d hd => (h.sending d hd).trans hcursor⟩

theorem ConnBound.new (number : Nat) (state : RelayState) :
    ConnBound next state.lastAckedServerSeq (Connection.new number state) :=
  ⟨Nat.le_refl _, by simp [Connection.new], trivial,
    by simp [Connection.new], by simp [Connection.new]⟩

theorem BoundedStep.goto (h : ConnBound next cursor c)
    (hcursor : durable.lastAckedServerSeq < next) {work : Work} (hwork : work.Known next cursor) :
    BoundedStep next cursor (Relay.goto durable c work) :=
  ⟨{ h with work := hwork }, hcursor, by simp [Relay.goto]⟩

theorem ConnBound.drain (h : ConnBound next cursor c) : ConnBound next cursor c.drain := by
  rw [Connection.drain]
  split
  · exact h
  · exact { h with }

theorem BoundedStep.throwing (h : ConnBound next cursor c)
    (hcursor : durable.lastAckedServerSeq < next) : BoundedStep next cursor (throwing durable c) :=
  ⟨{ h.drain with
      queue := by simp [Relay.throwing, Connection.rejectMessage]
      work := trivial }, hcursor, by simp [Relay.throwing]⟩

theorem BoundedStep.validateWelcome (h : ConnBound next cursor c)
    (hcursor : durable.lastAckedServerSeq < next) {frame : WelcomeFrame}
    (hframe : (ServerFrame.welcome frame).Known next) :
    BoundedStep next cursor (validateWelcome opts durable c frame) := by
  have hthrow := BoundedStep.throwing h hcursor
  rw [Relay.validateWelcome.eq_def]
  split
  · next resume concurrency hresume _ =>
    have hlt : resume < next := hframe resume (Number.safeFrom?_eq_some hresume)
    repeat' split
    all_goals first
      | exact hthrow
      | exact BoundedStep.goto h hcursor hlt
  · exact hthrow

theorem BoundedStep.processMessage (h : ConnBound next cursor c)
    (hcursor : durable.lastAckedServerSeq < next) {frame : ServerFrame}
    (hframe : frame.Known next) :
    BoundedStep next cursor (processMessage opts durable c frame) := by
  have hthrow := BoundedStep.throwing h hcursor
  cases frame with
  | welcome frame =>
    rw [Relay.processMessage]
    split
    · exact hthrow
    · exact BoundedStep.validateWelcome h hcursor hframe
  | delivery frame =>
    rw [Relay.processMessage]
    split
    · exact hthrow
    · split
      · exact hthrow
      · next d hd =>
        have hlt : d.seq < next := by
          rw [validateDelivery] at hd
          split at hd
          · obtain ⟨seq, hseq, rfl⟩ := Option.map_eq_some_iff.1 hd
            exact hframe seq (Number.safeFrom?_eq_some hseq)
          · cases hd
        repeat' split
        all_goals first
          | exact hthrow
          | exact BoundedStep.goto h hcursor hlt

theorem withProcessing_cursor {state marked : RelayState} {p : Processing}
    (h : state.withProcessing p = some marked) :
    marked.lastAckedServerSeq = state.lastAckedServerSeq := by
  rw [RelayState.withProcessing] at h
  split at h
  · cases h
    rfl
  · cases h

theorem BoundedStep.workStep (h : ConnBound next durable.lastAckedServerSeq c)
    (hcursor : durable.lastAckedServerSeq < next) {answer : Answer}
    (hstep : workStep opts durable c answer = some e)
    (hmono : durable.lastAckedServerSeq ≤ e.durable.lastAckedServerSeq) :
    BoundedStep next e.durable.lastAckedServerSeq e := by
  have hthrow := BoundedStep.throwing h hcursor
  have hgoto := @BoundedStep.goto durable c next _ h hcursor
  have hwork := h.work
  have hcase := workStep_cases hstep
  generalize c.work = work at hcase hwork
  cases hcase with
  | idle frame queue hqueue =>
    have hidle : ConnBound next durable.lastAckedServerSeq
        { c with queue, work := .idle } :=
      { h with
        queue := fun f hf => h.queue f
          (by rw [hqueue]; exact List.mem_cons_of_mem _ hf)
        work := trivial }
    have hstep' := @BoundedStep.processMessage opts _ _ _ _ hidle
      hcursor _ (h.queue frame (by rw [hqueue]; exact List.mem_cons_self ..))
    rwa [(processMessage_silent frame).durable]
  | adoptResume resume concurrency =>
    exact ⟨{ h.mono (Nat.le_refl _) hmono with work := hwork }, hwork, by simp [Relay.goto]⟩
  | stopped => exact hgoto trivial
  | welcomed | finish => exact ⟨{ h with work := trivial }, hcursor, by simp [Relay.goto]⟩
  | readCheck d =>
    rw [Relay.startRead]
    split
    · next hle => exact hgoto hle
    · split
      · exact hthrow
      · refine ⟨{ h with work := trivial, reads := ?_ }, hcursor, by simp [Relay.goto]⟩
        intro x hx
        simp only [Relay.goto, List.mem_append, List.mem_singleton] at hx
        rcases hx with (hrunning | rfl) | hcompleted
        · exact h.reads x (List.mem_append_left _ hrunning)
        · exact hwork
        · exact h.reads x (List.mem_append_right _ hcompleted)
  | handle d =>
    rw [Relay.handleDelivery.eq_def]
    split
    · next hle => exact hgoto hle
    · split
      · exact hthrow
      · split
        · exact hgoto ⟨hwork, hcursor⟩
        · split
          · exact hthrow
          · exact hgoto ⟨hwork, hcursor⟩
  | clear =>
    exact ⟨{ h.mono (Nat.le_refl _) hmono with work := hwork.1 }, hwork.2, by simp [Relay.goto]⟩
  | reread => exact hgoto ⟨hwork, hcursor⟩
  | mark d state marked hmarked =>
    exact ⟨{ h.mono (Nat.le_refl _) hmono with work := hwork.1 },
      withProcessing_cursor hmarked ▸ hwork.2, by simp [Relay.goto]⟩
  | call => exact ⟨{ h with work := hwork }, hcursor, by simp [Relay.goto]⟩
  | complete =>
    exact ⟨{ h.mono (Nat.le_refl _) hmono with work := Nat.le_refl _ },
      hwork, by simp [Relay.goto]⟩
  | sendAck d handled =>
    refine ⟨{ h with work := ?_ }, hcursor, ?_⟩
    · cases handled with
      | false => trivial
      | true => trivial
    · intro a ha
      simp only [Connection.ackFrames] at ha
      split at ha
      · obtain rfl := List.mem_singleton.1 ha
        exact hwork
      · cases ha
  | finishLast => exact ⟨{ h.drain with work := trivial }, hcursor, by simp [Relay.goto]⟩
  | recovery d state saved decision =>
    cases decision with
    | stop => exact ⟨hthrow.conn, hcursor, hthrow.acks⟩
    | retry =>
      exact ⟨{ h with work := hwork }, hcursor, by simp [recoveryDecision, Relay.goto]⟩
    | ack =>
      exact ⟨{ h with work := hwork.1 }, hcursor, by simp [recoveryDecision, Relay.goto]⟩
  | barrier | expired | handled => exact hgoto hwork
  | throws => exact hthrow

/-- One event of a connection names no number above those assigned. -/
theorem BoundedStep.step (hinv : ConnInv c) (h : ConnBound next durable.lastAckedServerSeq c)
    (hcursor : durable.lastAckedServerSeq < next) {act : ConnAct}
    (hframe : ∀ f, act = .receive f → f.Known next) (hstep : connStep opts durable c act = some e)
    (hmono : durable.lastAckedServerSeq ≤ e.durable.lastAckedServerSeq) :
    BoundedStep next e.durable.lastAckedServerSeq e := by
  cases act with
  | hello =>
    simp only [connStep] at hstep
    split at hstep
    · cases hstep
    · cases hstep
      exact ⟨{ h with }, hcursor, by simp⟩
  | receive frame =>
    simp only [connStep] at hstep
    split at hstep
    · cases hstep
    · cases hstep
      refine ⟨{ h with queue := ?_ }, hcursor, by simp⟩
      intro f hf
      rcases List.mem_append.1 hf with hold | hnew
      · exact h.queue f hold
      · obtain rfl := List.mem_singleton.1 hnew
        exact hframe f rfl
  | closeSocket =>
    simp only [connStep, Option.some.injEq] at hstep
    subst hstep
    exact ⟨{ h with }, hcursor, by simp⟩
  | disconnect =>
    simp only [connStep] at hstep
    split at hstep
    · cases hstep
    · cases hstep
      exact ⟨h.drain, hcursor, by simp⟩
  | stop =>
    simp only [connStep] at hstep
    split at hstep
    · cases hstep
    · cases hstep
      exact ⟨{ h.drain with }, hcursor, by simp⟩
  | settle =>
    simp only [connStep] at hstep
    split at hstep
    · cases hstep
      exact ⟨{ h with }, hcursor, by simp⟩
    · cases hstep
  | work answer => exact BoundedStep.workStep h hcursor hstep hmono
  | readSettles seq ok =>
    obtain ⟨d, hd, _, hdurable, _, hacks, hconn⟩ := readSettles_cases hstep
    have hreads := h.reads
    rw [hdurable]
    refine ⟨?_, hdurable ▸ hcursor, by simp [hacks]⟩
    rcases hconn with ⟨_, heq⟩ | ⟨_, heq⟩
    · rw [heq]
      refine { h with reads := ?_ }
      intro x hx
      simp only [List.mem_append, List.mem_filter, List.mem_singleton] at hx
      rcases hx with ⟨hrunning, _⟩ | hcompleted | rfl
      · exact hreads x (List.mem_append_left _ hrunning)
      · exact hreads x (List.mem_append_right _ hcompleted)
      · exact hreads x (List.mem_append_left _ hd)
    · rw [heq]
      refine { h with reads := ?_ }
      intro x hx
      rcases List.mem_append.1 hx with hrunning | hcompleted
      · exact hreads x (List.mem_append_left _ (List.mem_filter.1 hrunning).1)
      · exact hreads x (List.mem_append_right _ hcompleted)
  | ackRead =>
    obtain ⟨d, _, _, hdurable, _, hacks, hconn⟩ := ackRead_cases hstep
    rw [hdurable]
    refine ⟨?_, hdurable ▸ hcursor, by simp [hacks]⟩
    rcases hconn with ⟨_, _, heq⟩ | heq
    · rw [heq]
      exact { h with sending := by simp }
    · rw [heq]
      exact { h with sending := by simp }
  | ackWrite =>
    obtain ⟨d, hwriting, rfl⟩ := ackWrite_cases hstep
    have hmem := (hinv.writing d hwriting).1
    refine ⟨{ h.mono (Nat.le_refl _) hmono with sending := ?_ },
      h.reads d (List.mem_append_right _ hmem), by simp⟩
    rintro x ⟨⟩
    exact Nat.le_refl _
  | ackSend =>
    obtain ⟨d, hsending, rfl⟩ := ackSend_cases hstep
    refine ⟨{ h with reads := ?_, sending := by simp }, hcursor, ?_⟩
    · intro x hx
      rcases List.mem_append.1 hx with hrunning | hcompleted
      · exact h.reads x (List.mem_append_left _ hrunning)
      · exact h.reads x
          (List.mem_append_right _ (List.mem_filter.1 hcompleted).1)
    · intro a ha
      simp only [Connection.ackFrames] at ha
      split at ha
      · obtain rfl := List.mem_singleton.1 ha
        exact h.sending d hsending
      · cases ha

end

end OperatorRuntime.Relay
