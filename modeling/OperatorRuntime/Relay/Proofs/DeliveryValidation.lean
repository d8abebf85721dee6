/-
`validateState` on states that satisfy the invariant: it accepts them
unchanged, and the only thing it can object to is a next sequence past
the safe integers, which is not `RELAY_QUEUE_CORRUPT`.

Both directions are needed. Acceptance says the write never bricks the
queue; what acceptance implies (`UniqueIds`, safe cursors) is what the
next call starts from.
-/
import Mathlib.Data.List.Dedup
import OperatorRuntime.Relay.Proofs.DeliveryInvariant

namespace OperatorRuntime.Relay

open Lib

-- ===== field validators

theorem safeRequiredCapabilities_idem {input caps : List String}
    (h : safeRequiredCapabilities input = .ok caps) : safeRequiredCapabilities caps = .ok caps := by
  rw [safeRequiredCapabilities] at h
  split at h
  · exact absurd h fail_ne_ok
  · next hlen =>
    split at h
    · next hall =>
      have hperm := List.perm_insertionSort (· ≤ ·) input.dedup
      have hcaps : input.dedup.insertionSort (· ≤ ·) = caps := by
        injection h
      rw [hcaps] at hperm
      have hsub : input.dedup.length ≤ input.length :=
        (List.dedup_sublist input).length_le
      have hlen' : caps.length = input.dedup.length := hperm.length_eq
      have hall' : caps.all isCapability = true := by
        rw [List.all_eq_true] at hall ⊢
        intro c hc
        exact hall c (List.mem_dedup.1 (hperm.mem_iff.1 hc))
      have hnodup : caps.Nodup := hperm.nodup_iff.2 (List.nodup_dedup input)
      have hsorted : caps.Pairwise (· ≤ ·) := by
        rw [← hcaps]
        exact List.pairwise_insertionSort _ _
      rw [safeRequiredCapabilities, if_neg (by omega), if_pos hall',
        hnodup.dedup, hsorted.insertionSort_eq]
    · exact absurd h fail_ne_ok

theorem safePayload_obj {fields : JsonObject}
    (h : (Json.obj fields).stringify.utf8ByteSize ≤ maxPayloadBytes) :
    safePayload (.obj fields) = .ok fields := by
  rw [safePayload, if_neg (Nat.not_lt.2 h)]

theorem safePayload_size {input : Json} {fields : JsonObject} (h : safePayload input = .ok fields) :
    (Json.obj fields).stringify.utf8ByteSize ≤ maxPayloadBytes := by
  rw [safePayload.eq_def] at h
  split at h
  · split at h
    · exact absurd h fail_ne_ok
    · next hsize =>
      cases h
      exact Nat.not_lt.1 hsize
  · exact absurd h fail_ne_ok

theorem boundToDevice_mapM {authority : Option RelayDeliveryAuthority}
    {deviceId : Uuid} (h : ∀ a ∈ authority, a.deviceId = deviceId) :
    authority.mapM (boundToDevice · deviceId) = .ok authority := by
  cases authority with
  | none => rfl
  | some a =>
    have ha := h a rfl
    simp [boundToDevice, ha, Except.map, Functor.map]

theorem validSeq_int {n : Nat} (hpos : 1 ≤ n) (hmax : n ≤ maxSafeInteger) :
    validSeq (.int n) = .ok n := by
  have hrange : ((1 : Nat) : Int) ≤ n ∧ (n : Int) ≤ maxSafeInteger := by omega
  simp only [validSeq, Number.safeFrom?, if_pos hrange, Int.toNat_natCast]

theorem validSeq_overflow {n : Nat} (hmax : maxSafeInteger < n) :
    validSeq (.int n) = fail .relaySequenceInvalid
      "Relay sequence must be a positive safe integer." := by
  have hrange : ¬ (((1 : Nat) : Int) ≤ n ∧ (n : Int) ≤ maxSafeInteger) := by
    omega
  simp only [validSeq, Number.safeFrom?, if_neg hrange]

theorem validNonNegativeSeq_int {n : Nat} (hmax : n ≤ maxSafeInteger) :
    validNonNegativeSeq (.int n) = .ok n := by
  have hrange : ((0 : Nat) : Int) ≤ n ∧ (n : Int) ≤ maxSafeInteger := by omega
  simp only [validNonNegativeSeq, Number.safeFrom?, if_pos hrange, Int.toNat_natCast]

theorem le_of_validSeq_int {n m : Nat} (h : validSeq (.int n) = .ok m) : n ≤ maxSafeInteger := by
  by_contra hlt
  rw [validSeq_overflow (Nat.not_le.1 hlt)] at h
  exact absurd h fail_ne_ok

-- ===== one stream

/-- Delivery ids do not repeat within a stream. -/
def UniqueIds (s : DeviceDeliveryStream) : Prop :=
  (s.deliveries.map (·.id)).Nodup

section
variable {cfg : StoreConfig} {s : DeviceDeliveryStream}

theorem StreamInv.validateStoredDelivery_ok (h : StreamInv cfg s)
    {d : StoredRelayDelivery} (hd : d ∈ s.deliveries) : validateStoredDelivery cfg s d = .ok d := by
  have hrec := h.records d hd
  have hbounds := h.consecutive.bounds hd
  have hwindow := h.window
  have hsettled := h.settled d hd
  have hdigest_key : ¬ (d.idempotencyContractDigest.isSome ∧ d.idempotencyKey.isNone) := by
    rintro ⟨hdigest, hnone⟩
    rw [Option.isNone_iff_eq_none] at hnone
    simpa [hnone] using hrec.digest_key hdigest
  have hreleased_key : ¬ (d.idempotencyReleasedAt.isSome ∧ d.idempotencyKey.isNone) := by
    rintro ⟨hreleased, hnone⟩
    rw [Option.isNone_iff_eq_none] at hnone
    simpa [hnone] using hrec.released_key hreleased
  rw [validateStoredDelivery, safePayload_obj hrec.payload,
    boundToDevice_mapM hrec.authority, boundToDevice_mapM hrec.replayAuthority,
    rejectIf_of_not (by omega), rejectIf_of_not hdigest_key,
    rejectIf_of_not hreleased_key]
  simp only [ok_bind]
  cases hstatus : d.status with
  | pending =>
    obtain ⟨caps, hcaps, hdigest, hacked, hexpired, hreplay⟩ :=
      hrec.live hstatus
    have habove : s.lastAckedSeq < d.seq := by
      by_contra hle
      exact hsettled.1 (by omega) hstatus
    have hcontract : ¬ (d.idempotencyContractDigest.isSome
        ∧ d.idempotencyContractDigest ≠ some (relayIdempotencyContractDigest
            cfg d.kind d.payload d.authority caps)) := by
      rintro ⟨hsome, hne⟩
      exact hne (hdigest (hrec.digest_key hsome))
    have hself : { d with requiredCapabilities := some caps } = d := by
      rw [← hcaps]
    simp_all [hrec.capabilities caps hcaps, Except.map]
  | acked =>
    obtain ⟨hacked, hexpired, hreplay⟩ := hrec.acked hstatus
    obtain ⟨ackedAt, hackedAt⟩ := Option.isSome_iff_exists.1 hacked
    have hcaps := hrec.terminal (by simp [hstatus])
    have hself : { d with requiredCapabilities := none } = d := by
      rw [← hcaps]
    simp_all [legacyRequiredCapabilities]
  | expired =>
    obtain ⟨hexpired, hacked, hpayload, hauthority, hreleased, hkey⟩ :=
      hrec.expired hstatus
    obtain ⟨expiredAt, hexpiredAt⟩ := Option.isSome_iff_exists.1 hexpired
    have hreplay : ¬ (d.replayAuthority.isSome ∧ d.idempotencyKey.isNone) := by
      rintro ⟨hsome, hnone⟩
      rw [Option.isNone_iff_eq_none] at hnone
      simpa [hnone] using hkey hsome
    have hcaps := hrec.terminal (by simp [hstatus])
    have hself : { d with requiredCapabilities := none } = d := by
      rw [← hcaps]
    simp_all [legacyRequiredCapabilities]

theorem StreamInv.validateDeliveries_ok (h : StreamInv cfg s)
    (hsafe : s.nextSeq ≤ maxSafeInteger) {seqs : List Nat} {ids : List Uuid}
    {ds : List StoredRelayDelivery} (hmem : ∀ d ∈ ds, d ∈ s.deliveries)
    (hseqs : (seqs ++ ds.map (·.seq)).Nodup) (hids : (ids ++ ds.map (·.id)).Nodup) :
    validateDeliveries cfg s seqs ids ds = .ok ds := by
  induction ds generalizing seqs ids with
  | nil => rfl
  | cons d ds ih =>
    have hd := hmem d (List.mem_cons_self ..)
    have hbounds := h.consecutive.bounds hd
    have hbase := h.base_pos
    have hwindow := h.window
    rw [List.map_cons, List.nodup_middle, List.nodup_cons] at hseqs hids
    have hnew : ¬ (d.seq ∈ seqs ∨ d.id ∈ ids) := by
      rintro (hseq | hid)
      · exact hseqs.1 (List.mem_append_left _ hseq)
      · exact hids.1 (List.mem_append_left _ hid)
    have hrest := @ih (d.seq :: seqs) (d.id :: ids)
      (fun x hx => hmem x (List.mem_cons_of_mem _ hx))
      (List.nodup_cons.2 hseqs) (List.nodup_cons.2 hids)
    rw [validateDeliveries, validSeq_int (by omega) (by omega),
      rejectIf_of_not hnew, h.validateStoredDelivery_ok hd, hrest]
    rfl

theorem nodup_of_validateDeliveries {seqs : List Nat} {ids : List Uuid}
    {ds ds' : List StoredRelayDelivery} (hids : ids.Nodup)
    (h : validateDeliveries cfg s seqs ids ds = .ok ds') : (ids ++ ds.map (·.id)).Nodup := by
  induction ds generalizing seqs ids ds' with
  | nil => simpa using hids
  | cons d ds ih =>
    rw [validateDeliveries] at h
    obtain ⟨_, _, h⟩ := bind_eq_ok.1 h
    obtain ⟨_, hnew, h⟩ := bind_eq_ok.1 h
    obtain ⟨_, _, h⟩ := bind_eq_ok.1 h
    obtain ⟨_, hrest, _⟩ := bind_eq_ok.1 h
    rw [rejectIf_eq_ok, not_or] at hnew
    rw [List.map_cons, List.nodup_middle]
    exact ih (List.nodup_cons.2 ⟨hnew.2, hids⟩) hrest

theorem StreamInv.sorted (h : StreamInv cfg s) :
    s.deliveries.insertionSort (fun a b => a.seq ≤ b.seq) = s.deliveries := by
  apply List.Pairwise.insertionSort_eq
  have hlt : (s.deliveries.map (·.seq)).Pairwise (· ≤ ·) := by
    rw [h.consecutive]
    exact List.pairwise_le_range' ..
  exact List.pairwise_map.1 hlt

theorem StreamInv.validateStream_ok (h : StreamInv cfg s) (hids : UniqueIds s)
    (hsafe : s.nextSeq ≤ maxSafeInteger) : validateStream cfg s = .ok s := by
  have hwindow := h.window
  have hbase := h.base_pos
  have hle := h.base_le
  have hlt := h.acked_lt
  have hcompacted := h.compacted
  have hbounded := h.bounded
  have hlimit := cfg.deliveries_bounds.2
  have hgapless : ¬ ¬ ∀ seq ∈ List.range' s.baseSeq (s.nextSeq - s.baseSeq),
      seq ∈ s.deliveries.map (·.seq) := by
    rw [not_not, h.consecutive]
    intro seq hseq
    have hlen : s.nextSeq - s.baseSeq = s.deliveries.length := by omega
    rwa [hlen] at hseq
  have hfirst : ¬ ((s.deliveries = [] ∧ s.baseSeq ≠ s.nextSeq)
      ∨ (s.deliveries.head?.any fun d => d.seq ≠ s.baseSeq)) := by
    have hconsecutive := h.consecutive
    cases hds : s.deliveries with
    | nil =>
      rw [hds, List.length_nil, Nat.add_zero] at hwindow
      simp [hwindow]
    | cons d ds =>
      rw [hds] at hconsecutive
      simp [hconsecutive.tail.2]
  rw [validateStream, validSeq_int (by omega) hsafe,
    validNonNegativeSeq_int (by omega), validSeq_int hbase (by omega),
    validNonNegativeSeq_int (by omega), rejectIf_of_not (by omega),
    rejectIf_of_not (by omega), rejectIf_of_not (by omega),
    rejectIf_of_not (by omega),
    h.validateDeliveries_ok hsafe (fun _ hd => hd)
      (by simpa using h.consecutive.nodup) (by simpa [UniqueIds] using hids)]
  simp only [ok_bind, h.sorted]
  rw [rejectIf_of_not hgapless, rejectIf_of_not hfirst]
  rfl

theorem unique_of_validateStream {t : DeviceDeliveryStream} (h : validateStream cfg s = .ok t) :
    UniqueIds s ∧ s.nextSeq ≤ maxSafeInteger := by
  rw [validateStream] at h
  obtain ⟨_, hnext, h⟩ := bind_eq_ok.1 h
  iterate 7 obtain ⟨_, _, h⟩ := bind_eq_ok.1 h
  obtain ⟨_, hloop, _⟩ := bind_eq_ok.1 h
  have hnodup := nodup_of_validateDeliveries List.nodup_nil hloop
  exact ⟨by simpa [UniqueIds] using hnodup, le_of_validSeq_int hnext⟩

theorem StreamInv.validateStream_cases (h : StreamInv cfg s) (hids : UniqueIds s) :
    validateStream cfg s = .ok s ∨ validateStream cfg s = fail .relaySequenceInvalid
          "Relay sequence must be a positive safe integer." := by
  by_cases hsafe : s.nextSeq ≤ maxSafeInteger
  · exact .inl (h.validateStream_ok hids hsafe)
  · refine .inr ?_
    rw [validateStream, validSeq_overflow (Nat.not_le.1 hsafe)]
    rfl

end

-- ===== the whole state

/-- The state invariant: distinct devices, each with a good stream. -/
structure StateInv (cfg : StoreConfig) (state : RelayDeliveryState) : Prop where
  devices : (state.streams.map (·.deviceId)).Nodup
  bounded : state.streams.length ≤ maxStreams
  streams : ∀ s ∈ state.streams, StreamInv cfg s

/-- What `validateState` adds to the invariant. -/
def Accepted (state : RelayDeliveryState) : Prop :=
  ∀ s ∈ state.streams, UniqueIds s ∧ s.nextSeq ≤ maxSafeInteger

section
variable {cfg : StoreConfig} {state : RelayDeliveryState}

theorem validateStreams_cases {seen : List Uuid} {streams : List DeviceDeliveryStream}
    (hinv : ∀ s ∈ streams, StreamInv cfg s) (hids : ∀ s ∈ streams, UniqueIds s)
    (hdevices : (seen ++ streams.map (·.deviceId)).Nodup) :
    validateStreams cfg seen streams = .ok streams
    ∨ validateStreams cfg seen streams = fail .relaySequenceInvalid
        "Relay sequence must be a positive safe integer." := by
  induction streams generalizing seen with
  | nil => exact .inl rfl
  | cons s streams ih =>
    rw [List.map_cons, List.nodup_middle, List.nodup_cons] at hdevices
    have hnew : ¬ s.deviceId ∈ seen :=
      fun hin => hdevices.1 (List.mem_append_left _ hin)
    have hrest := @ih (s.deviceId :: seen) (fun t ht => hinv t (List.mem_cons_of_mem _ ht))
      (fun t ht => hids t (List.mem_cons_of_mem _ ht))
      (List.nodup_cons.2 hdevices)
    rw [validateStreams, rejectIf_of_not hnew]
    rcases (hinv s (List.mem_cons_self ..)).validateStream_cases
      (hids s (List.mem_cons_self ..)) with hs | hs
    · rw [hs]
      rcases hrest with hok | hfail
      · exact .inl (by rw [hok]; rfl)
      · exact .inr (by rw [hfail]; rfl)
    · exact .inr (by rw [hs]; rfl)

theorem accepted_of_validateStreams {seen : List Uuid}
    {streams streams' : List DeviceDeliveryStream}
    (h : validateStreams cfg seen streams = .ok streams') :
    ∀ s ∈ streams, UniqueIds s ∧ s.nextSeq ≤ maxSafeInteger := by
  induction streams generalizing seen streams' with
  | nil => simp
  | cons s streams ih =>
    rw [validateStreams] at h
    obtain ⟨_, _, h⟩ := bind_eq_ok.1 h
    obtain ⟨_, hs, h⟩ := bind_eq_ok.1 h
    obtain ⟨_, hrest, _⟩ := bind_eq_ok.1 h
    intro t ht
    rcases List.mem_cons.1 ht with rfl | hin
    · exact unique_of_validateStream hs
    · exact ih hrest t hin

theorem StateInv.validateState_cases (h : StateInv cfg state)
    (hids : ∀ s ∈ state.streams, UniqueIds s) :
    validateState cfg state = .ok state ∨ validateState cfg state = fail .relaySequenceInvalid
          "Relay sequence must be a positive safe integer." := by
  have hbounded := h.bounded
  rw [validateState, rejectIf_of_not (by omega)]
  rcases validateStreams_cases h.streams hids
    (by simpa using h.devices : ([] ++ _ : List Uuid).Nodup) with hok | hfail
  · exact .inl (by rw [hok]; rfl)
  · exact .inr (by rw [hfail]; rfl)

theorem StateInv.of_validateState (h : StateInv cfg state)
    {state' : RelayDeliveryState} (hok : validateState cfg state = .ok state') :
    state' = state ∧ Accepted state := by
  have hraw := hok
  rw [validateState] at hraw
  obtain ⟨_, _, hraw⟩ := bind_eq_ok.1 hraw
  obtain ⟨_, hstreams, _⟩ := bind_eq_ok.1 hraw
  have haccepted : Accepted state := accepted_of_validateStreams hstreams
  rcases h.validateState_cases fun s hs => (haccepted s hs).1 with hsame | hfail
  · rw [hsame] at hok
    cases hok
    exact ⟨rfl, haccepted⟩
  · rw [hfail] at hok
    exact absurd hok fail_ne_ok

end

end OperatorRuntime.Relay
