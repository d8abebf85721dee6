/-
A client cursor behind the server's. `reconcileClientCursor` lets a client
skip what expired and refuses it where something in between was acknowledged.

Compaction forgets the records, so which sequences were acknowledged is
history: `Audited` is the store with every acknowledgement it gave. Of them a
stream still knows the retained ones by their status and the highest of the
compacted ones (`AckInv`). Every client cursor the watermark covers has one
above it, so that one number is enough to decide.
-/
import OperatorRuntime.Relay.Proofs.Idempotency

namespace OperatorRuntime.Relay

open Lib

-- ===== the history

/-- The store with the sequences acknowledged so far, device by device. -/
structure Audited where
  store : Store
  acked : Uuid → List Nat

def Audited.empty : Audited := { store := .empty, acked := noAcks }

def Call.acks (cfg : StoreConfig) (c : Call) (stored : RelayDeliveryState) : Uuid → List Nat :=
  match c.run cfg stored with
  | .ok (result, _) => if c.written then c.op.acks result else noAcks
  | .error _ => noAcks

def Audited.step (cfg : StoreConfig) (s : Audited) (c : Call) : Audited :=
  { store := s.store.step cfg c
    acked := fun deviceId => s.acked deviceId ++ c.acks cfg s.store.stored deviceId }

def auditedSteps (cfg : StoreConfig) : Audited → Call → Audited → Prop :=
  fun s c t => t = s.step cfg c

/-- Any call but `purgeDevice`. -/
def Call.NoPurge (c : Call) : Prop :=
  ∀ name, c.op ≠ .purgeDevice name

-- ===== one stream

/-- What a stream knows of the sequences acknowledged so far. -/
structure AckInv (acked : List Nat) (s : DeviceDeliveryStream) : Prop where
  retained : ∀ d ∈ s.deliveries, d.status = .acked ↔ d.seq ∈ acked
  bounded : ∀ n ∈ acked, n ≤ s.lastAckedSeq
  compacted : ∀ n ∈ acked, n < s.baseSeq → n ≤ s.highestCompactedAckedSeq
  highest : s.highestCompactedAckedSeq = 0 ∨ s.highestCompactedAckedSeq ∈ acked

section
variable {cfg : StoreConfig} {acked acks : List Nat} {s t : DeviceDeliveryStream}

theorem AckInv.new (deviceId : Uuid) : AckInv [] (newStream deviceId) where
  retained := by simp [newStream]
  bounded := by simp
  compacted := by simp
  highest := .inl rfl

theorem AckInv.head_fresh (h : AckInv acked s) : s.lastAckedSeq + 1 ∉ acked := by
  intro hin
  have := h.bounded _ hin
  omega

theorem AckInv.expire (h : AckInv acked s) (hs : StreamInv cfg s)
    (at' : Instant) : AckInv acked (s.advance (expireDelivery at')) where
  retained := by
    intro x hx
    rcases mem_updateFirst_key hs.consecutive.nodup hx with
      ⟨hold, _⟩ | ⟨a, _, hseq, rfl⟩
    · exact h.retained x hold
    · show DeliveryStatus.expired = .acked ↔ a.seq ∈ acked
      rw [hseq]
      exact ⟨fun h => (nomatch h), fun hin => absurd hin h.head_fresh⟩
  bounded := fun n hn => Nat.le_succ_of_le (h.bounded n hn)
  compacted := h.compacted
  highest := h.highest

theorem AckInv.ack (h : AckInv acked s) (hs : StreamInv cfg s) (at' : Instant) :
    AckInv (acked ++ [s.lastAckedSeq + 1]) (s.advance (ackDelivery at')) where
  retained := by
    intro x hx
    rw [List.mem_append, List.mem_singleton]
    rcases mem_updateFirst_key hs.consecutive.nodup hx with
      ⟨hold, hne⟩ | ⟨a, _, hseq, rfl⟩
    · rw [h.retained x hold, or_iff_left hne]
    · exact ⟨fun _ => .inr hseq, fun _ => rfl⟩
  bounded := by
    intro n hn
    show n ≤ s.lastAckedSeq + 1
    rcases List.mem_append.1 hn with hn | hn
    · exact Nat.le_succ_of_le (h.bounded n hn)
    · exact Nat.le_of_eq (List.mem_singleton.1 hn)
  compacted := by
    intro n hn hlt
    rcases List.mem_append.1 hn with hn | hn
    · exact h.compacted n hn hlt
    · have hbase := hs.base_le
      have hlt : n < s.baseSeq := hlt
      rw [List.mem_singleton.1 hn] at hlt
      omega
  highest := h.highest.imp_right (List.mem_append_left _)

theorem AckInv.drop (h : AckInv acked s) (hs : StreamInv cfg s)
    {d : StoredRelayDelivery} {rest : List StoredRelayDelivery}
    (hfirst : s.deliveries = d :: rest) (hbase : d.seq = s.baseSeq) :
    AckInv acked (s.drop d rest) := by
  have hcompacted := hs.compacted
  have hd := h.retained d (hfirst ▸ List.mem_cons_self ..)
  refine ⟨fun x hx => h.retained x (hfirst ▸ List.mem_cons_of_mem _ hx), h.bounded, ?_, ?_⟩
  · intro n hn hlt
    have hlt : n < d.seq + 1 := hlt
    simp only [DeviceDeliveryStream.drop]
    by_cases heq : n = d.seq
    · rw [if_pos (hd.2 (heq ▸ hn)), heq]
      exact Nat.le_max_right ..
    · have hle := h.compacted n hn (by omega)
      split
      · omega
      · exact hle
  · simp only [DeviceDeliveryStream.drop]
    split
    · next hacked =>
      rw [Nat.max_eq_right (by omega)]
      exact .inr (hd.1 hacked)
    · exact h.highest

theorem AckInv.write (h : AckInv acked s) (hs : StreamInv cfg s)
    (hwrite : Write s acks t) : AckInv (acked ++ acks) t := by
  cases hwrite with
  | ack at' => exact h.ack hs at'
  | expire at' =>
    rw [List.append_nil]
    exact h.expire hs at'
  | release now retentionMs =>
    rw [List.append_nil]
    refine ⟨?_, h.bounded, h.compacted, h.highest⟩
    intro x hx
    obtain ⟨d, hd, rfl⟩ := List.mem_map.1 hx
    obtain ⟨hseq, -, hstatus⟩ := releaseIdempotency_identity now retentionMs d
    rw [hseq, hstatus]
    exact h.retained d hd
  | drop hfirst hbase =>
    rw [List.append_nil]
    exact h.drop hs hfirst hbase
  | rebase hnil =>
    rw [List.append_nil, hs.rebase_empty hnil]
    exact h

theorem AckInv.writes (h : AckInv acked s) (hs : StreamInv cfg s)
    (hwrites : Writes acks s t) : AckInv (acked ++ acks) t := by
  obtain ⟨steps, hrun, rfl⟩ := hwrites
  have hboth := hrun.history
    (P := fun steps t => StreamInv cfg t ∧ AckInv (acked ++ steps.flatten) t)
    ⟨hs, by simpa using h⟩ fun ht hwrite =>
      ⟨ht.1.write hwrite, by simpa using ht.2.write ht.1 hwrite⟩
  exact hboth.2

theorem AckInv.push (h : AckInv acked s) (hs : StreamInv cfg s)
    {d : StoredRelayDelivery} (hseq : d.seq = s.nextSeq)
    (hpending : d.status = .pending) : AckInv acked (s.push d) where
  retained := by
    intro x hx
    rcases List.mem_append.1 hx with hold | hnew
    · exact h.retained x hold
    · rw [List.mem_singleton.1 hnew, hpending, hseq]
      refine ⟨fun h => (nomatch h), fun hin => ?_⟩
      have hlt := hs.acked_lt
      have hle := h.bounded _ hin
      omega
  bounded := h.bounded
  compacted := h.compacted
  highest := h.highest

/-- A gap counts as expired exactly when nothing in it was acknowledged. -/
theorem AckInv.crossingExpired_iff (h : AckInv acked s) (hs : StreamInv cfg s)
    {clientSeq : Nat} (hbehind : clientSeq < s.lastAckedSeq) :
    crossingExpired s clientSeq = true ↔ ∀ n ∈ acked, n ≤ clientSeq := by
  have hbase := hs.base_le
  have hwindow := hs.window
  have hlast := hs.acked_lt
  have hcount := hs.consecutive.length_filter_between
    (by omega : s.baseSeq ≤ max (clientSeq + 1) s.baseSeq)
    (by omega : max (clientSeq + 1) s.baseSeq ≤ s.lastAckedSeq + 1) (by omega)
  simp only [Nat.lt_succ_iff] at hcount
  simp only [crossingExpired, Bool.and_eq_true, decide_eq_true_eq, hcount, beq_self_eq_true,
    and_true, List.all_eq_true, List.mem_filter, beq_iff_eq, List.isEmpty_iff,
    Option.isNone_iff_eq_none]
  constructor
  · rintro ⟨hhighest, hall⟩ n hn
    by_contra hlt
    rw [Nat.not_le] at hlt
    have hle := h.bounded n hn
    by_cases hold : n < s.baseSeq
    · have := h.compacted n hn hold
      omega
    · obtain ⟨d, hd, rfl⟩ := hs.consecutive.key_mem_iff.2
        (show s.baseSeq ≤ n ∧ n < s.baseSeq + s.deliveries.length by omega)
      have hexpired := (hall d ⟨hd, by omega, hle⟩).1.1
      rw [(h.retained d hd).2 hn] at hexpired
      cases hexpired
  · intro hnone
    refine ⟨?_, ?_⟩
    · rcases h.highest with hzero | hin
      · omega
      · exact hnone _ hin
    · rintro d ⟨hd, hfrom, hto⟩
      have hexpired : d.status = .expired := by
        cases hstatus : d.status with
        | expired => rfl
        | acked =>
          have := hnone _ ((h.retained d hd).1 hstatus)
          omega
        | pending => exact absurd hstatus ((hs.settled d hd).1 hto)
      obtain ⟨-, -, hpayload, hauthority, -⟩ := (hs.records d hd).expired hexpired
      exact ⟨⟨hexpired, hpayload⟩, hauthority⟩

end

-- ===== whole runs

/-- What the streams of a state know of the acknowledgements. -/
structure AcksKnown (acked : Uuid → List Nat) (st : RelayDeliveryState) : Prop where
  streams : ∀ s ∈ st.streams, AckInv (acked s.deviceId) s
  devices : ∀ deviceId, acked deviceId ≠ [] → ∃ s ∈ st.streams, s.deviceId = deviceId

section
variable {cfg : StoreConfig} {acked acks : Uuid → List Nat} {st st' : RelayDeliveryState}

theorem AcksKnown.settles (h : AcksKnown acked st) (hst : StateInv cfg st)
    (hknown : ∀ deviceId, acks deviceId ≠ [] → ∃ s ∈ st.streams, s.deviceId = deviceId)
    (hsettles : Settles acks st st') :
    AcksKnown (fun deviceId => acked deviceId ++ acks deviceId) st' where
  streams := by
    intro t ht
    obtain ⟨s, hs, hwrites⟩ := exists_left_of_forall₂ hsettles ht
    rw [hwrites.keeps.deviceId]
    exact (h.streams s hs).writes (hst.streams s hs) hwrites
  devices := by
    intro deviceId hne
    have hold : ∃ s ∈ st.streams, s.deviceId = deviceId := by
      by_cases hacked : acked deviceId = []
      · rw [hacked, List.nil_append] at hne
        exact hknown deviceId hne
      · exact h.devices deviceId hacked
    obtain ⟨s, hs, rfl⟩ := hold
    obtain ⟨t, ht, hkeeps⟩ := hsettles.keeps.forward s hs
    exact ⟨t, ht, hkeeps.deviceId⟩

theorem AcksKnown.maintain (h : AcksKnown acked st) (hst : StateInv cfg st)
    (hsettles : Settles noAcks st st') : AcksKnown acked st' := by
  simpa [noAcks] using h.settles hst (fun _ hne => absurd rfl hne) hsettles

theorem AcksKnown.append (h : AcksKnown acked st) (hst : StateInv cfg st)
    {clock : CallClock} {id : Uuid} {r : EnqueueRequest} {d : StoredRelayDelivery}
    (hok : appendDelivery cfg clock id r st = .ok (d, st')) : AcksKnown acked st' := by
  rw [appendDelivery] at hok
  obtain ⟨⟨stream, st₁⟩, hcreate, hok⟩ := bind_eq_ok.1 hok
  obtain ⟨h₁, hmem, hdevice, hstreams⟩ := hst.getOrCreateStream hcreate
  obtain ⟨_, _, hok⟩ := bind_eq_ok.1 hok
  obtain ⟨createdAt, _, hok⟩ := bind_eq_ok.1 hok
  cases hok
  -- a stream made for the append is one of a device nothing was acknowledged for
  have hknown : AcksKnown acked st₁ := by
    rcases hstreams with rfl | hperm
    · exact h
    have hdevices := h₁.devices
    rw [(hperm.map (·.deviceId)).nodup_iff, List.map_cons, List.nodup_cons] at hdevices
    constructor
    · intro s hs
      rcases List.mem_cons.1 (hperm.mem_iff.1 hs) with rfl | hold
      · have hnil : acked r.deviceId = [] := by
          by_contra hne
          obtain ⟨a, ha, had⟩ := h.devices _ hne
          exact hdevices.1 (List.mem_map.2 ⟨a, ha, had⟩)
        show AckInv (acked r.deviceId) _
        rw [hnil]
        exact AckInv.new _
      · exact h.streams s hold
    · intro deviceId hne
      obtain ⟨s, hs, hsd⟩ := h.devices deviceId hne
      exact ⟨s, hperm.mem_iff.2 (List.mem_cons_of_mem _ hs), hsd⟩
  have hfind := h₁.findStream_of_mem hmem
  rw [hdevice] at hfind
  constructor
  · intro t ht
    rcases h₁.mem_setStream ht with rfl | ⟨hold, _⟩
    · exact (hknown.streams stream hmem).push (h₁.streams stream hmem) rfl rfl
    · exact hknown.streams t hold
  · intro deviceId hne
    obtain ⟨s, hs, hsd⟩ := hknown.devices deviceId hne
    rcases h₁.setStream_forward (t := stream.push _) hfind hs with hold | ⟨rfl, hnew⟩
    · exact ⟨s, hold, hsd⟩
    · exact ⟨_, hnew, hsd⟩

/-- What a reachable audited store satisfies. -/
structure AuditInv (cfg : StoreConfig) (s : Audited) : Prop where
  store : StoreInv cfg s.store
  known : AcksKnown s.acked s.store.stored

variable {s : Audited} {c : Call}

/-- One call other than a purge. -/
theorem AuditInv.step (h : AuditInv cfg s) (hc : c.NoPurge) : AuditInv cfg (s.step cfg c) := by
  refine ⟨h.store.step rfl, ?_⟩
  unfold Audited.step Call.acks Store.step
  cases hrun : c.run cfg s.store.stored with
  | error e => simpa [noAcks] using h.known
  | ok answer =>
    obtain ⟨result, state⟩ := answer
    by_cases hwritten : c.written = true
    · simp only [hwritten, if_true]
      cases (h.store.run_ok hrun).2.2.2 with
      | settled _ hknown hsettles => exact h.known.settles h.store.state hknown hsettles
      | purged hop => exact absurd hop (hc _)
      | appended _ hanswer hsettles _ happend =>
        have hm := h.store.state.settles hsettles
        have hnil := c.op.acks_eq_noAcks result (.inr (by rw [hanswer]; rfl))
        simpa [hnil, noAcks] using (h.known.maintain h.store.state hsettles).append hm happend
    · simpa [hwritten, noAcks] using h.known

theorem audited_inv {calls : List Call}
    (hrun : Run (Where (auditedSteps cfg) fun _ c => c.NoPurge) Audited.empty calls s) :
    AuditInv cfg s := by
  refine hrun.invariant ⟨StoreInv.empty, ?_, ?_⟩ ?_
  · intro a ha
    exact absurd ha List.not_mem_nil
  · intro deviceId hne
    exact absurd rfl hne
  · intro a b c ha hstep
    rw [hstep.1]
    exact ha.step hstep.2

end

-- ===== the main result

/-- For every run of the store without `purgeDevice` and every client cursor
behind the server's after maintenance: the client may skip exactly when
nothing it skips was ever acknowledged, compacted or not. Otherwise the call
throws and acknowledges nothing. -/
theorem reconcile_behind_sound (cfg : StoreConfig) (calls : List Call) (s : Audited)
    (hrun : Run (Where (auditedSteps cfg) fun _ c => c.NoPurge) Audited.empty calls s)
    (c : Call) (name : String) (number : Number) (deviceId : Uuid) (clientSeq n : Nat)
    (m : RelayDeliveryState) (stream : DeviceDeliveryStream)
    (hop : c.op = .reconcileClientCursor name number)
    (hdevice : validUuid name "deviceId" = .ok deviceId)
    (hseq : validNonNegativeSeq number = .ok clientSeq)
    (hmaintain : maintain cfg (c.clock 0) s.store.stored = .ok (n, m))
    (hfind : m.findStream deviceId = some stream) (hbehind : clientSeq < stream.lastAckedSeq) :
    ((∀ k ∈ s.acked deviceId, ¬ (clientSeq < k ∧ k ≤ stream.lastAckedSeq)) →
      c.run cfg s.store.stored
          = .ok (.reconciled stream.lastAckedSeq (stream.lastAckedSeq - clientSeq)
              (some stream.lastAckedSeq), m) ∧ (s.step cfg c).acked = s.acked)
    ∧ ((∃ k ∈ s.acked deviceId, clientSeq < k ∧ k ≤ stream.lastAckedSeq) →
      c.run cfg s.store.stored = fail .relayResumeBehind
          "Client resume cursor is behind executed relay history; automatic replay is unsafe."
        ∧ s.step cfg c = s) := by
  have hinv := audited_inv hrun
  have hsettles := maintain_settles hmaintain
  have hm := hinv.store.state.settles hsettles
  have hmem := List.mem_of_find?_eq_some hfind
  have hsd : stream.deviceId = deviceId := by simpa using List.find?_some hfind
  have hack := (hinv.known.maintain hinv.store.state hsettles).streams stream hmem
  rw [hsd] at hack
  have hexact := hack.crossingExpired_iff (hm.streams stream hmem) hbehind
  have hread := hinv.store.state.validateState_ok hinv.store.accepted
  have hwrite := hm.validateState_ok (hsettles.keeps.accepted hinv.store.accepted)
  have hset : m.setStream deviceId stream = m := by
    rw [RelayDeliveryState.setStream, updateFirst_eq_self]
    intro a ha had
    exact (hm.findStream_unique hfind ha (by simpa using had)).symm
  have hmutator : c.run cfg s.store.stored = (reconcileStream cfg c.clock clientSeq stream
      >>= fun p => .ok (p.1, m.setStream deviceId p.2)) >>= fun p =>
        validateState cfg p.2 >>= fun written => .ok (p.1, written) := by
    rw [Call.run, hop, Operation.mutator, hdevice]
    simp only [ok_bind, hseq, mutate, hread, reconcileClientCursor, hmaintain, hfind]
  rw [reconcileStream, if_pos hbehind] at hmutator
  constructor
  · intro hnone
    have hskip : crossingExpired stream clientSeq = true := by
      rw [hexact]
      intro k hk
      by_contra hlt
      exact hnone k hk ⟨by omega, hack.bounded k hk⟩
    rw [if_pos hskip, ok_bind, ok_bind, hset, hwrite, ok_bind] at hmutator
    refine ⟨hmutator, ?_⟩
    have hnil := c.op.acks_eq_noAcks (.reconciled stream.lastAckedSeq
      (stream.lastAckedSeq - clientSeq) (some stream.lastAckedSeq)) (.inr rfl)
    simp [Audited.step, Call.acks, hmutator, hnil, noAcks]
  · rintro ⟨k, hk, hlt, -⟩
    have hskip : ¬ crossingExpired stream clientSeq = true := by
      rw [hexact]
      intro hnone
      have := hnone k hk
      omega
    rw [if_neg hskip] at hmutator
    refine ⟨hmutator, ?_⟩
    have hstep : c.run cfg s.store.stored = .error _ := hmutator
    cases s
    simp [Audited.step, Call.acks, Store.step, hstep, noAcks]

/-- One delivery, acknowledged at once. -/
def ackedOnce : Call × Call :=
  ({ enqueueThenExpire.1 with written := true },
   { enqueueThenExpire.2 with
     op := .acknowledge "11111111-1111-4111-8111-111111111111" (.int 1)
       "22222222-2222-4222-8222-222222222222"
     clock := fun _ => some ⟨0, zero_instant⟩ })

/-- The client comes back at the start. -/
def rolledBack : Call :=
  { ackedOnce.2 with
    op := .reconcileClientCursor "11111111-1111-4111-8111-111111111111" (.int 0) }

/-- A client that was rolled back below what it acknowledged. -/
theorem reconcile_behind_sound_rolledBack :
    ∃ s : Audited, s.store.stored.streams.map (·.lastAckedSeq) = [1]
    ∧ (∃ e, rolledBack.run smallConfig s.store.stored = .error e ∧ e.code = .relayResumeBehind)
    ∧ s.step smallConfig rolledBack = s := by
  have hrun : Run (Where (auditedSteps smallConfig) fun _ c => c.NoPurge) Audited.empty
      ([] ++ [ackedOnce.1] ++ [ackedOnce.2])
      ((Audited.empty.step smallConfig ackedOnce.1).step smallConfig ackedOnce.2) :=
    Run.snoc (Run.snoc Run.nil ⟨rfl, fun _ h => (nomatch h)⟩) ⟨rfl, fun _ h => (nomatch h)⟩
  have hfound : (((maintain smallConfig (rolledBack.clock 0) ((Audited.empty.step smallConfig
      ackedOnce.1).step smallConfig ackedOnce.2).store.stored).toOption.bind fun p =>
        p.2.findStream onesUuid).any
          fun stream => decide (0 < stream.lastAckedSeq)) = true := by decide +kernel
  obtain ⟨stream, hfind, hbehind⟩ := (Option.any_eq_true ..).1 hfound
  have hsound := reconcile_behind_sound smallConfig _ _ hrun rolledBack
    "11111111-1111-4111-8111-111111111111" (.int 0)
    onesUuid 0 _ _ stream rfl
    (by decide +kernel) rfl rfl hfind (of_decide_eq_true hbehind)
  obtain ⟨hrefused, hsame⟩ := hsound.2
    ⟨1, by decide +kernel, Nat.one_pos, of_decide_eq_true hbehind⟩
  exact ⟨_, by decide +kernel, ⟨_, hrefused, rfl⟩, hsame⟩

end OperatorRuntime.Relay
