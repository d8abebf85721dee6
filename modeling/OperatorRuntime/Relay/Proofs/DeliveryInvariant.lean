/-
What every stream of the store satisfies between any two operations, and
that each stream-level write keeps it.

# The invariant

Retained sequences are the consecutive numbers from `baseSeq` to
`nextSeq - 1`, the acknowledgement cursor separates terminal records from
pending ones, and every record passes the field checks of
`validateState` for its status (`DeliveryInv`).

# The writes

Whatever an operation does to a stream it does by a few writes: the
delivery right above the cursor expires or is acknowledged, retention
frees keys, the oldest record is dropped. `Write` lists them with the
sequences they acknowledge, each loop of the source is a row of them
(`Writes`), and what streams keep is shown once per write.
-/
import OperatorRuntime.Relay.DeliveryOps

namespace OperatorRuntime.Relay

open Lib

-- ===== one delivery

/-- A stored delivery passes the checks of `validateState` that do not
concern the cursors. -/
structure DeliveryInv (cfg : StoreConfig) (deviceId : Uuid)
    (d : StoredRelayDelivery) : Prop where
  payload : (Json.obj d.payload).stringify.utf8ByteSize ≤ maxPayloadBytes
  authority : ∀ a ∈ d.authority, a.deviceId = deviceId
  replayAuthority : ∀ a ∈ d.replayAuthority, a.deviceId = deviceId
  digest_key : d.idempotencyContractDigest.isSome → d.idempotencyKey.isSome
  released_key : d.idempotencyReleasedAt.isSome → d.idempotencyKey.isSome
  capabilities : ∀ caps ∈ d.requiredCapabilities, safeRequiredCapabilities caps = .ok caps
  live : d.status = .pending → ∃ caps, d.requiredCapabilities = some caps
      ∧ (d.idempotencyKey.isSome → d.idempotencyContractDigest
          = some (relayIdempotencyContractDigest cfg d.kind d.payload d.authority caps))
      ∧ d.ackedAt = none ∧ d.expiredAt = none ∧ d.replayAuthority = none
  acked : d.status = .acked → d.ackedAt.isSome ∧ d.expiredAt = none ∧ d.replayAuthority = none
  expired : d.status = .expired → d.expiredAt.isSome ∧ d.ackedAt = none ∧ d.payload = []
      ∧ d.authority = none ∧ d.idempotencyReleasedAt = none
      ∧ (d.replayAuthority.isSome → d.idempotencyKey.isSome)
  terminal : d.status ≠ .pending → d.requiredCapabilities = none

theorem emptyPayload_size : (Json.obj []).stringify.utf8ByteSize ≤ maxPayloadBytes := by
  decide

section
variable {cfg : StoreConfig} {deviceId : Uuid} {d : StoredRelayDelivery}

theorem DeliveryInv.expire (h : DeliveryInv cfg deviceId d) (at' : Instant) :
    DeliveryInv cfg deviceId (expireDelivery at' d) where
  payload := emptyPayload_size
  authority := by simp [expireDelivery]
  replayAuthority := by
    intro a ha
    simp only [expireDelivery] at ha
    split at ha
    · exact h.authority a ha
    · cases ha
  digest_key := h.digest_key
  released_key := by simp [expireDelivery]
  capabilities := by simp [expireDelivery]
  live := by simp [expireDelivery]
  acked := by simp [expireDelivery]
  expired := by
    intro _
    refine ⟨rfl, rfl, rfl, rfl, rfl, ?_⟩
    simp only [expireDelivery]
    split
    · next hkey => exact fun _ => hkey
    · simp
  terminal := fun _ => rfl

theorem DeliveryInv.ack (h : DeliveryInv cfg deviceId d)
    (hpending : d.status = .pending) (at' : Instant) :
    DeliveryInv cfg deviceId (ackDelivery at' d) where
  payload := emptyPayload_size
  authority := by simp [ackDelivery]
  replayAuthority := h.replayAuthority
  digest_key := h.digest_key
  released_key := h.released_key
  capabilities := by simp [ackDelivery]
  live := by simp [ackDelivery]
  acked := by
    intro _
    obtain ⟨_, _, _, _, hexpired, hreplay⟩ := h.live hpending
    exact ⟨rfl, hexpired, hreplay⟩
  expired := by simp [ackDelivery]
  terminal := fun _ => rfl

theorem releaseIdempotency_cases (now : Instant) (retentionMs : Nat) (d : StoredRelayDelivery) :
    releaseIdempotency now retentionMs d = d ∨ (d.status ≠ .pending
        ∧ releaseIdempotency now retentionMs d = freeKey d) := by
  rw [releaseIdempotency]
  split
  · exact .inl rfl
  · split
    · exact .inl rfl
    · next hat =>
      split
      · exact .inl rfl
      · refine .inr ⟨?_, rfl⟩
        intro hpending
        simp [terminalAt, hpending] at hat

theorem DeliveryInv.freeKey (h : DeliveryInv cfg deviceId d) (hterminal : d.status ≠ .pending) :
    DeliveryInv cfg deviceId (freeKey d) where
  payload := h.payload
  authority := h.authority
  replayAuthority := by simp [Relay.freeKey]
  digest_key := by simp [Relay.freeKey]
  released_key := by simp [Relay.freeKey]
  capabilities := h.capabilities
  live := fun hpending => absurd hpending hterminal
  acked := by
    intro hacked
    obtain ⟨hat, hexpired, _⟩ := h.acked hacked
    exact ⟨hat, hexpired, rfl⟩
  expired := by
    intro hexpired
    obtain ⟨hat, hacked, hpayload, hauthority, _, _⟩ := h.expired hexpired
    exact ⟨hat, hacked, hpayload, hauthority, rfl, by simp [Relay.freeKey]⟩
  terminal := h.terminal

theorem DeliveryInv.release (h : DeliveryInv cfg deviceId d) (now : Instant) (retentionMs : Nat) :
    DeliveryInv cfg deviceId (releaseIdempotency now retentionMs d) := by
  rcases releaseIdempotency_cases now retentionMs d with hsame | ⟨hne, hfree⟩
  · rw [hsame]
    exact h
  · rw [hfree]
    exact h.freeKey hne

theorem DeliveryInv.scrub (at' : Instant) : DeliveryInv cfg deviceId (scrubDelivery at' d) where
  payload := emptyPayload_size
  authority := by simp [scrubDelivery]
  replayAuthority := by simp [scrubDelivery]
  digest_key := by simp [scrubDelivery]
  released_key := by simp [scrubDelivery]
  capabilities := by simp [scrubDelivery]
  live := by simp [scrubDelivery]
  acked := by simp [scrubDelivery]
  expired := fun _ => ⟨rfl, rfl, rfl, rfl, rfl, by simp [scrubDelivery]⟩
  terminal := fun _ => rfl

theorem DeliveryInv.upgrade (h : DeliveryInv cfg deviceId d) {key : Hex64}
    (hkey : holdsKey key d) (digest : Option Hex64) : upgradeDigest digest d = d := by
  rw [upgradeDigest, if_neg]
  rintro ⟨hpending, hnone⟩
  obtain ⟨_, _, hdigest, _⟩ := h.live hpending
  have hsome : d.idempotencyKey.isSome := by
    simp only [holdsKey, Bool.and_eq_true, beq_iff_eq] at hkey
    simp [hkey.1]
  simp [hdigest hsome] at hnone

theorem releaseIdempotency_identity (now : Instant) (retentionMs : Nat) (d : StoredRelayDelivery) :
    (releaseIdempotency now retentionMs d).seq = d.seq
    ∧ (releaseIdempotency now retentionMs d).id = d.id
    ∧ (releaseIdempotency now retentionMs d).status = d.status := by
  rcases releaseIdempotency_cases now retentionMs d with hsame | ⟨_, hfree⟩
  · rw [hsame]
    exact ⟨rfl, rfl, rfl⟩
  · rw [hfree]
    exact ⟨rfl, rfl, rfl⟩

end

-- ===== the writes

def DeviceDeliveryStream.drop (s : DeviceDeliveryStream)
    (d : StoredRelayDelivery) (rest : List StoredRelayDelivery) :
    DeviceDeliveryStream :=
  { s with
    highestCompactedAckedSeq :=
      if d.status = .acked then max s.highestCompactedAckedSeq d.seq
      else s.highestCompactedAckedSeq
    deliveries := rest
    baseSeq := d.seq + 1 }

/-- One write to a stream, with the sequences it acknowledges. -/
inductive Write : DeviceDeliveryStream → List Nat → DeviceDeliveryStream → Prop
  | expire {s : DeviceDeliveryStream} {d : StoredRelayDelivery} (at' : Instant)
      (head : s.head? = some d) : Write s [] (s.advance (expireDelivery at'))
  | ack {s : DeviceDeliveryStream} {d : StoredRelayDelivery} (at' : Instant)
      (head : s.head? = some d) :
      Write s [s.lastAckedSeq + 1] (s.advance (ackDelivery at'))
  | release {s : DeviceDeliveryStream} (now : Instant) (retentionMs : Nat) :
      Write s [] { s with
        deliveries := s.deliveries.map (releaseIdempotency now retentionMs) }
  | drop {s : DeviceDeliveryStream} {d : StoredRelayDelivery}
      {rest : List StoredRelayDelivery} (first : s.deliveries = d :: rest)
      (base : d.seq = s.baseSeq) (settled : d.seq ≤ s.lastAckedSeq) :
      Write s [] (s.drop d rest)
  | rebase {s : DeviceDeliveryStream} (empty : s.deliveries = []) :
      Write s [] { s with baseSeq := s.nextSeq }

/-- The sequences an answer says were acknowledged by the call. -/
def CallResult.acks : CallResult → List Nat
  | .acknowledged seq false => [seq]
  | .reconciled lastAckedSeq advanced none =>
    List.range' (lastAckedSeq + 1 - advanced) advanced
  | _ => []

/-- Writes in a row. -/
def Writes (acks : List Nat) (s t : DeviceDeliveryStream) : Prop :=
  ∃ steps, Run Write s steps t ∧ steps.flatten = acks

section
variable {acks new : List Nat} {s t u : DeviceDeliveryStream}

theorem Writes.refl (s : DeviceDeliveryStream) : Writes [] s s :=
  ⟨[], Run.nil, rfl⟩

theorem Writes.trans (h : Writes acks s t) (h' : Writes new t u) : Writes (acks ++ new) s u := by
  obtain ⟨steps, hrun, rfl⟩ := h
  obtain ⟨steps', hrun', rfl⟩ := h'
  exact ⟨steps ++ steps', hrun.trans hrun', List.flatten_append⟩

theorem Write.writes (h : Write s new t) : Writes new s t :=
  ⟨[] ++ [new], Run.nil.snoc h, by simp⟩

theorem Writes.snoc (h : Writes acks s t) (hlast : Write t [] u) : Writes acks s u := by
  simpa using h.trans hlast.writes

theorem Writes.invariant {I : DeviceDeliveryStream → Prop} (h : Writes acks s t) (hs : I s)
    (hstep : ∀ {s t : DeviceDeliveryStream} {acks : List Nat},
      I s → Write s acks t → I t) : I t := by
  obtain ⟨steps, hrun, -⟩ := h
  exact hrun.invariant hs hstep

theorem expireStream_writes (now : Instant) (retentionMs : Nat)
    (s : DeviceDeliveryStream) : Writes [] s (expireStream now retentionMs s) := by
  refine Writes.snoc (whileSome_invariant (I := Writes [] s) ?_ _ (Writes.refl s))
    (.release now retentionMs)
  intro t t' ht hnext
  rw [expireHead?] at hnext
  split at hnext
  · cases hnext
  · next hhead =>
    split at hnext
    · cases hnext
    · cases hnext
      exact ht.snoc (.expire now hhead)

theorem expireUnroutable_writes (supported : List String) (at' : Instant)
    (fuel : Nat) (s : DeviceDeliveryStream) :
    Writes [] s (whileSome (expireUnroutableHead? supported at') fuel s) := by
  refine whileSome_invariant (I := Writes [] s) ?_ _ (Writes.refl s)
  intro t t' ht hnext
  rw [expireUnroutableHead?] at hnext
  split at hnext
  · cases hnext
  · next hhead =>
    split at hnext
    · cases hnext
    · cases hnext
      exact ht.snoc (.expire at' hhead)

theorem compactStream_writes (replayWindow : Nat) (s : DeviceDeliveryStream) :
    Writes [] s (compactStream replayWindow s)
    ∧ (compactStream replayWindow s).lastAckedSeq = s.lastAckedSeq := by
  have hhead : ∀ {t t' : DeviceDeliveryStream},
      Writes [] s t ∧ t.lastAckedSeq = s.lastAckedSeq → compactHead? t = some t' →
        Writes [] s t' ∧ t'.lastAckedSeq = s.lastAckedSeq := by
    rintro t t' ⟨ht, hcursor⟩ hnext
    rw [compactHead?] at hnext
    split at hnext
    · cases hnext
    · next d rest hfirst =>
      split at hnext
      · cases hnext
      · next hterminal =>
        split at hnext
        · cases hnext
        · push Not at hterminal
          cases hnext
          exact ⟨ht.snoc (.drop hfirst hterminal.1 hterminal.2.1), hcursor⟩
  have hloop := whileSome_invariant hhead (terminalCount s - replayWindow) ⟨Writes.refl s, rfl⟩
  rw [compactStream]
  split
  · next hempty =>
    exact ⟨hloop.1.snoc (.rebase (List.isEmpty_iff.1 hempty)), hloop.2⟩
  · exact hloop

variable {cfg : StoreConfig} {clock : CallClock} {result : CallResult}

theorem acknowledgeStream_writes {seq : Nat} {deliveryId : Uuid}
    (hok : acknowledgeStream cfg clock seq deliveryId s = .ok (result, t)) :
    result.assigns = [] ∧ Writes result.acks s t ∧ ∀ k ∈ result.acks, k ≤ seq := by
  rw [acknowledgeStream] at hok
  obtain ⟨_, _, hok⟩ := bind_eq_ok.1 hok
  split at hok
  · exact absurd hok fail_ne_ok
  · next delivery hfind =>
    obtain ⟨_, _, hok⟩ := bind_eq_ok.1 hok
    split at hok
    · obtain ⟨_, _, hok⟩ := bind_eq_ok.1 hok
      cases hok
      exact ⟨rfl, Writes.refl s, by simp [CallResult.acks]⟩
    · obtain ⟨_, hnext, hok⟩ := bind_eq_ok.1 hok
      obtain ⟨ackedAt, _, hok⟩ := bind_eq_ok.1 hok
      cases hok
      rw [rejectIf_eq_ok, not_not] at hnext
      subst hnext
      obtain ⟨hcompact, hcursor⟩ := compactStream_writes cfg.terminalReplayWindow
        (s.advance (ackDelivery ackedAt))
      rw [CallResult.acks, hcursor]
      refine ⟨rfl, ?_, fun k hk => (List.mem_singleton.1 hk).le⟩
      exact (Write.ack ackedAt (d := delivery) hfind).writes.trans hcompact

theorem ackThrough_writes {n : Nat} {clock : CallClock} (hok : ackThrough n clock s = .ok t) :
    Writes (List.range' (s.lastAckedSeq + 1) n) s t := by
  induction n generalizing s clock with
  | zero =>
    cases hok
    exact Writes.refl _
  | succ n ih =>
    rw [ackThrough] at hok
    split at hok
    · exact absurd hok fail_ne_ok
    · next hhead =>
      obtain ⟨ackedAt, _, hok⟩ := bind_eq_ok.1 hok
      rw [List.range'_succ]
      exact (Write.ack ackedAt hhead).writes.trans (ih hok)

theorem reconcileStream_writes {clientSeq : Nat}
    (hok : reconcileStream cfg clock clientSeq s = .ok (result, t)) :
    result.assigns = [] ∧ Writes result.acks s t ∧ ∀ k ∈ result.acks, k ≤ clientSeq := by
  rw [reconcileStream] at hok
  split at hok
  · split at hok
    · cases hok
      exact ⟨rfl, Writes.refl s, by simp [CallResult.acks]⟩
    · exact absurd hok fail_ne_ok
  · next hbehind =>
    split at hok
    · exact absurd hok fail_ne_ok
    · split at hok
      · cases hok
        exact ⟨rfl, Writes.refl s, by simp [CallResult.acks]⟩
      · obtain ⟨acked, hack, hok⟩ := bind_eq_ok.1 hok
        cases hok
        have hfrom : clientSeq + 1 - (clientSeq - s.lastAckedSeq) = s.lastAckedSeq + 1 := by omega
        rw [CallResult.acks, hfrom]
        refine ⟨rfl, ?_, fun k hk => by have := (List.mem_range'_1.1 hk).2; omega⟩
        simpa using (ackThrough_writes hack).trans
          (compactStream_writes cfg.terminalReplayWindow acked).1

end

-- ===== one stream

structure StreamInv (cfg : StoreConfig) (s : DeviceDeliveryStream) : Prop where
  consecutive : Consecutive (·.seq) s.baseSeq s.deliveries
  window : s.baseSeq + s.deliveries.length = s.nextSeq
  base_pos : 1 ≤ s.baseSeq
  base_le : s.baseSeq ≤ s.lastAckedSeq + 1
  acked_lt : s.lastAckedSeq < s.nextSeq
  compacted : s.highestCompactedAckedSeq < s.baseSeq
  settled : ∀ d ∈ s.deliveries, d.seq ≤ s.lastAckedSeq ↔ d.status ≠ .pending
  bounded : s.deliveries.length ≤ cfg.maxDeliveriesPerStream
  records : ∀ d ∈ s.deliveries, DeliveryInv cfg s.deviceId d

/-- What a stream-level write may do besides settling and dropping
records: nothing to the device, the next sequence, or the ids. -/
structure Keeps (s t : DeviceDeliveryStream) : Prop where
  deviceId : t.deviceId = s.deviceId
  nextSeq : t.nextSeq = s.nextSeq
  ids : (t.deliveries.map (·.id)).Sublist (s.deliveries.map (·.id))

theorem Keeps.refl (s : DeviceDeliveryStream) : Keeps s s :=
  ⟨rfl, rfl, List.Sublist.refl _⟩

theorem Keeps.trans {s t u : DeviceDeliveryStream} (hst : Keeps s t)
    (htu : Keeps t u) : Keeps s u :=
  ⟨htu.deviceId.trans hst.deviceId, htu.nextSeq.trans hst.nextSeq, htu.ids.trans hst.ids⟩

section
variable {cfg : StoreConfig} {s t : DeviceDeliveryStream}

theorem StreamInv.new (deviceId : Uuid) : StreamInv cfg (newStream deviceId) where
  consecutive := rfl
  window := rfl
  base_pos := Nat.le_refl _
  base_le := Nat.le_refl _
  acked_lt := Nat.zero_lt_one
  compacted := Nat.zero_lt_one
  settled := by simp [newStream]
  bounded := Nat.zero_le _
  records := by simp [newStream]

theorem StreamInv.head (h : StreamInv cfg s) {d : StoredRelayDelivery} (hhead : s.head? = some d) :
    d ∈ s.deliveries ∧ d.seq = s.lastAckedSeq + 1 ∧ d.status = .pending := by
  have hmem := List.mem_of_find?_eq_some hhead
  have hseq : d.seq = s.lastAckedSeq + 1 := by
    simpa using List.find?_some hhead
  refine ⟨hmem, hseq, ?_⟩
  by_contra hne
  have := (h.settled d hmem).2 hne
  omega

theorem StreamInv.advance (h : StreamInv cfg s) {settle : StoredRelayDelivery → StoredRelayDelivery}
    {d : StoredRelayDelivery} (hhead : s.head? = some d) (hseq : ∀ d, (settle d).seq = d.seq)
    (hstatus : ∀ d, (settle d).status ≠ .pending)
    (hvalid : ∀ d ∈ s.deliveries, d.status = .pending → DeliveryInv cfg s.deviceId (settle d)) :
    StreamInv cfg (s.advance settle) := by
  obtain ⟨hmem, hdseq, _⟩ := h.head hhead
  have hbounds := h.consecutive.bounds hmem
  have hwindow := h.window
  have hlen : (s.advance settle).deliveries.length = s.deliveries.length :=
    length_updateFirst _
  -- Every record after the write is an untouched one off the new cursor
  -- position or the settled one on it.
  have hcases : ∀ x ∈ (s.advance settle).deliveries, (x ∈ s.deliveries ∧ x.seq ≠ s.lastAckedSeq + 1)
        ∨ ∃ a ∈ s.deliveries, a.seq = s.lastAckedSeq + 1 ∧ x = settle a :=
    fun x hx => mem_updateFirst_key h.consecutive.nodup hx
  exact {
    consecutive := h.consecutive.updateFirst hseq
    window := by rw [hlen]; exact hwindow
    base_pos := h.base_pos
    base_le := by
      have := h.base_le
      simp only [DeviceDeliveryStream.advance]
      omega
    acked_lt := by
      simp only [DeviceDeliveryStream.advance]
      omega
    compacted := h.compacted
    settled := by
      intro x hx
      simp only [DeviceDeliveryStream.advance]
      rcases hcases x hx with ⟨hold, hne⟩ | ⟨a, _, haseq, rfl⟩
      · rw [← h.settled x hold]
        omega
      · simp [hseq, haseq, hstatus]
    bounded := by rw [hlen]; exact h.bounded
    records := by
      intro x hx
      rcases hcases x hx with ⟨hold, _⟩ | ⟨a, ha, haseq, rfl⟩
      · exact h.records x hold
      · have hpending : a.status = .pending := by
          by_contra hne
          have := (h.settled a ha).2 hne
          omega
        exact hvalid a ha hpending }

theorem StreamInv.release (h : StreamInv cfg s) (now : Instant) (retentionMs : Nat) :
    StreamInv cfg { s with
      deliveries := s.deliveries.map (releaseIdempotency now retentionMs) } :=
  { h with
    consecutive := h.consecutive.map fun d =>
      (releaseIdempotency_identity now retentionMs d).1
    window := by simpa using h.window
    settled := by
      intro x hx
      obtain ⟨d, hd, rfl⟩ := List.mem_map.1 hx
      obtain ⟨hseq, -, hstatus⟩ := releaseIdempotency_identity now retentionMs d
      simpa [hseq, hstatus] using h.settled d hd
    bounded := by simpa using h.bounded
    records := by
      intro x hx
      obtain ⟨d, hd, rfl⟩ := List.mem_map.1 hx
      exact (h.records d hd).release now retentionMs }

theorem StreamInv.drop (h : StreamInv cfg s) {d : StoredRelayDelivery}
    {rest : List StoredRelayDelivery} (hfirst : s.deliveries = d :: rest)
    (hbase : d.seq = s.baseSeq) (hacked : d.seq ≤ s.lastAckedSeq) :
    StreamInv cfg (s.drop d rest) := by
  have hconsecutive := h.consecutive
  have hwindow := h.window
  have hcompacted := h.compacted
  rw [hfirst] at hconsecutive hwindow
  rw [List.length_cons] at hwindow
  have hold : ∀ x ∈ rest, x ∈ s.deliveries :=
    fun x hx => hfirst ▸ List.mem_cons_of_mem _ hx
  exact {
    consecutive := by
      simp only [DeviceDeliveryStream.drop, hbase]
      exact hconsecutive.tail.1
    window := by
      simp only [DeviceDeliveryStream.drop]
      omega
    base_pos := by simp [DeviceDeliveryStream.drop]
    base_le := by simpa [DeviceDeliveryStream.drop] using hacked
    acked_lt := h.acked_lt
    compacted := by
      simp only [DeviceDeliveryStream.drop]
      split
      · omega
      · omega
    settled := fun x hx => h.settled x (hold x hx)
    bounded := by
      have := h.bounded
      rw [hfirst, List.length_cons] at this
      exact Nat.le_of_succ_le this
    records := fun x hx => h.records x (hold x hx) }

theorem StreamInv.rebase_empty (h : StreamInv cfg s)
    (hnil : s.deliveries = []) : { s with baseSeq := s.nextSeq } = s := by
  have hwindow := h.window
  rw [hnil, List.length_nil, Nat.add_zero] at hwindow
  cases s
  simp_all

theorem StreamInv.push (h : StreamInv cfg s) {d : StoredRelayDelivery}
    (hroom : s.deliveries.length < cfg.maxDeliveriesPerStream)
    (hseq : d.seq = s.nextSeq) (hpending : d.status = .pending)
    (hvalid : DeliveryInv cfg s.deviceId d) : StreamInv cfg (s.push d) where
  consecutive := h.consecutive.append (by rw [hseq]; exact h.window.symm)
  window := by
    have := h.window
    simp only [DeviceDeliveryStream.push, List.length_append, List.length_singleton]
    omega
  base_pos := h.base_pos
  base_le := h.base_le
  acked_lt := Nat.lt_succ_of_lt h.acked_lt
  compacted := h.compacted
  settled := by
    intro x hx
    rcases List.mem_append.1 hx with hold | hnew
    · exact h.settled x hold
    · obtain rfl : x = d := by simpa using hnew
      have := h.acked_lt
      simp only [DeviceDeliveryStream.push, hpending, ne_eq, not_true_eq_false, iff_false]
      omega
  bounded := by
    rw [DeviceDeliveryStream.push, List.length_append]
    exact hroom
  records := by
    intro x hx
    rcases List.mem_append.1 hx with hold | hnew
    · exact h.records x hold
    · obtain rfl : x = d := by simpa using hnew
      exact hvalid

theorem StreamInv.scrub (h : StreamInv cfg s) (at' : Instant) :
    StreamInv cfg { s with
        deliveries := s.deliveries.map (scrubDelivery at')
        lastAckedSeq := s.nextSeq - 1 }
      ∧ Keeps s { s with
        deliveries := s.deliveries.map (scrubDelivery at')
        lastAckedSeq := s.nextSeq - 1 } := by
  have hlt := h.acked_lt
  have hbase := h.base_le
  have hwindow := h.window
  constructor
  · exact { h with
      consecutive := h.consecutive.map fun _ => rfl
      window := by simpa using hwindow
      base_le := by
        simp only
        omega
      acked_lt := by
        simp only
        omega
      settled := by
        intro x hx
        obtain ⟨d, hd, rfl⟩ := List.mem_map.1 hx
        have hbounds := h.consecutive.bounds hd
        simp only [scrubDelivery, ne_eq, reduceCtorEq, not_false_eq_true, iff_true]
        omega
      bounded := by simpa using h.bounded
      records := by
        intro x hx
        obtain ⟨d, _, rfl⟩ := List.mem_map.1 hx
        exact DeliveryInv.scrub at' }
  · refine ⟨rfl, rfl, ?_⟩
    simp only [List.map_map, Function.comp_def, scrubDelivery]
    exact List.Sublist.refl _

theorem StreamInv.write {acks : List Nat} (h : StreamInv cfg s)
    (hwrite : Write s acks t) : StreamInv cfg t := by
  cases hwrite with
  | expire at' hhead =>
    exact h.advance hhead (fun _ => rfl) (fun _ => by simp [expireDelivery])
      (fun d hd _ => (h.records d hd).expire at')
  | ack at' hhead =>
    exact h.advance hhead (fun _ => rfl) (fun _ => by simp [ackDelivery])
      (fun d hd hpending => (h.records d hd).ack hpending at')
  | release now retentionMs => exact h.release now retentionMs
  | drop hfirst hbase hacked => exact h.drop hfirst hbase hacked
  | rebase hnil =>
    rw [h.rebase_empty hnil]
    exact h

theorem Write.keeps {acks : List Nat} (hwrite : Write s acks t) : Keeps s t := by
  have hsame : ∀ {l : List StoredRelayDelivery}, l.map (·.id) = s.deliveries.map (·.id) →
        (l.map (·.id)).Sublist (s.deliveries.map (·.id)) :=
    fun heq => heq ▸ List.Sublist.refl _
  cases hwrite with
  | expire at' =>
    exact ⟨rfl, rfl, hsame (map_updateFirst (f := expireDelivery at') (fun _ _ => rfl) _)⟩
  | ack at' =>
    exact ⟨rfl, rfl, hsame (map_updateFirst (f := ackDelivery at') (fun _ _ => rfl) _)⟩
  | release now retentionMs =>
    refine ⟨rfl, rfl, hsame ?_⟩
    simp only [List.map_map, Function.comp_def,
      (releaseIdempotency_identity now retentionMs _).2.1]
  | drop hfirst =>
    refine ⟨rfl, rfl, ?_⟩
    rw [hfirst, List.map_cons]
    exact List.sublist_cons_self _ _
  | rebase => exact ⟨rfl, rfl, List.Sublist.refl _⟩

theorem StreamInv.writes {acks : List Nat} (h : StreamInv cfg s)
    (hwrites : Writes acks s t) : StreamInv cfg t :=
  hwrites.invariant h StreamInv.write

theorem Writes.keeps {acks : List Nat} (hwrites : Writes acks s t) : Keeps s t :=
  hwrites.invariant (Keeps.refl s) fun hkeeps hwrite => hkeeps.trans hwrite.keeps

end

end OperatorRuntime.Relay
