/-
Idempotent enqueues. A retained key names one delivery in the whole
store, and enqueuing under it again answers with that delivery exactly
when the request is the one the delivery was made from.

The payload is gone once a delivery is terminal, so "the request it was
made from" is history: `Recorded` is the store with a log of the requests
its deliveries came from. `Evolves` says once what any operation may turn
a record into; the log stays right because of that alone.
-/
import OperatorRuntime.JsonText
import OperatorRuntime.Relay.Proofs.DeliveryRuns

namespace OperatorRuntime.Relay

open Lib

-- ===== records over time

/-- What an operation may turn a record into: a pending record stays as it
is, and a record that keeps a key keeps the digest with it. -/
structure Evolves (d d' : StoredRelayDelivery) : Prop where
  seq : d'.seq = d.seq
  id : d'.id = d.id
  key : d'.idempotencyKey.isSome → d'.idempotencyKey = d.idempotencyKey
    ∧ d'.idempotencyContractDigest = d.idempotencyContractDigest
  released : d.idempotencyReleasedAt = none → d'.idempotencyReleasedAt = none
  live : d'.status = .pending → d' = d

section
variable {d d' d'' : StoredRelayDelivery}

theorem Evolves.refl (d : StoredRelayDelivery) : Evolves d d :=
  ⟨rfl, rfl, fun _ => ⟨rfl, rfl⟩, fun h => h, fun _ => rfl⟩

theorem Evolves.trans (h : Evolves d d') (h' : Evolves d' d'') : Evolves d d'' where
  seq := h'.seq.trans h.seq
  id := h'.id.trans h.id
  key := by
    intro hkey
    obtain ⟨hk, hd⟩ := h'.key hkey
    obtain ⟨hk', hd'⟩ := h.key (hk ▸ hkey)
    exact ⟨hk.trans hk', hd.trans hd'⟩
  released := fun hnone => h'.released (h.released hnone)
  live := by
    intro hpending
    have heq := h'.live hpending
    rw [heq] at hpending ⊢
    exact h.live hpending

theorem Evolves.expire (at' : Instant) (d : StoredRelayDelivery) :
    Evolves d (expireDelivery at' d) :=
  ⟨rfl, rfl, fun _ => ⟨rfl, rfl⟩, fun _ => rfl, fun h => (nomatch h)⟩

theorem Evolves.ack (at' : Instant) (d : StoredRelayDelivery) : Evolves d (ackDelivery at' d) :=
  ⟨rfl, rfl, fun _ => ⟨rfl, rfl⟩, fun h => h, fun h => (nomatch h)⟩

theorem Evolves.scrub (at' : Instant) (d : StoredRelayDelivery) : Evolves d (scrubDelivery at' d) :=
  ⟨rfl, rfl, fun h => (nomatch h), fun _ => rfl, fun h => (nomatch h)⟩

theorem Evolves.release (now : Instant) (retentionMs : Nat) (d : StoredRelayDelivery) :
    Evolves d (releaseIdempotency now retentionMs d) := by
  rcases releaseIdempotency_cases now retentionMs d with hsame | ⟨hne, hfree⟩
  · rw [hsame]
    exact Evolves.refl d
  · rw [hfree]
    exact ⟨rfl, rfl, fun h => (nomatch h), fun _ => rfl, fun h => absurd h hne⟩

end

/-- Every record of `t` was one of `s`. -/
structure StreamEvolves (s t : DeviceDeliveryStream) : Prop where
  deviceId : t.deviceId = s.deviceId
  records : ∀ d' ∈ t.deliveries, ∃ d ∈ s.deliveries, Evolves d d'

section
variable {s t u : DeviceDeliveryStream}

theorem StreamEvolves.refl (s : DeviceDeliveryStream) : StreamEvolves s s :=
  ⟨rfl, fun d hd => ⟨d, hd, Evolves.refl d⟩⟩

theorem StreamEvolves.trans (h : StreamEvolves s t) (h' : StreamEvolves t u) :
    StreamEvolves s u := by
  refine ⟨h'.deviceId.trans h.deviceId, ?_⟩
  intro d'' hd''
  obtain ⟨d', hd', he'⟩ := h'.records d'' hd''
  obtain ⟨d, hd, he⟩ := h.records d' hd'
  exact ⟨d, hd, he.trans he'⟩

theorem StreamEvolves.advance {settle : StoredRelayDelivery → StoredRelayDelivery}
    (hsettle : ∀ d, Evolves d (settle d)) (s : DeviceDeliveryStream) :
    StreamEvolves s (s.advance settle) := by
  refine ⟨rfl, ?_⟩
  intro d' hd'
  rcases mem_updateFirst hd' with hold | ⟨d, hd, -, heq⟩
  · exact ⟨d', hold, Evolves.refl d'⟩
  · exact ⟨d, hd, heq ▸ hsettle d⟩

theorem StreamEvolves.map {f : StoredRelayDelivery → StoredRelayDelivery}
    (hf : ∀ d, Evolves d (f d)) {n : Nat} :
    StreamEvolves s { s with deliveries := s.deliveries.map f, lastAckedSeq := n } := by
  refine ⟨rfl, ?_⟩
  intro d' hd'
  obtain ⟨d, hd, heq⟩ := List.mem_map.1 hd'
  exact ⟨d, hd, heq ▸ hf d⟩

theorem Write.evolves {acks : List Nat} (h : Write s acks t) : StreamEvolves s t := by
  cases h with
  | expire at' => exact StreamEvolves.advance (Evolves.expire at') s
  | ack at' => exact StreamEvolves.advance (Evolves.ack at') s
  | release now retentionMs =>
    exact StreamEvolves.map (Evolves.release now retentionMs)
  | drop hfirst =>
    refine ⟨rfl, ?_⟩
    intro x hx
    exact ⟨x, hfirst ▸ List.mem_cons_of_mem _ hx, Evolves.refl x⟩
  | rebase => exact ⟨rfl, (StreamEvolves.refl s).records⟩

theorem Writes.evolves {acks : List Nat} (h : Writes acks s t) : StreamEvolves s t :=
  h.invariant (StreamEvolves.refl s) fun hevolves hwrite =>
    hevolves.trans hwrite.evolves

end

-- ===== states over time

/-- Every stream of `st'` was one of `st`. -/
def StateEvolves (st st' : RelayDeliveryState) : Prop :=
  ∀ t ∈ st'.streams, ∃ s ∈ st.streams, StreamEvolves s t

section
variable {st st' st'' : RelayDeliveryState} {cfg : StoreConfig} {clock : CallClock}

theorem Settles.evolves {acks : Uuid → List Nat} (h : Settles acks st st') :
    StateEvolves st st' := by
  intro t ht
  obtain ⟨s, hs, hwrites⟩ := exists_left_of_forall₂ h ht
  exact ⟨s, hs, hwrites.evolves⟩

theorem StateEvolves.setStream {deviceId : Uuid} {s t : DeviceDeliveryStream}
    (hfind : st.findStream deviceId = some s) (hst : StreamEvolves s t) :
    StateEvolves st (st.setStream deviceId t) := by
  intro x hx
  rcases mem_updateFirst hx with hold | ⟨_, -, -, heq⟩
  · exact ⟨x, hold, StreamEvolves.refl x⟩
  · exact ⟨s, List.mem_of_find?_eq_some hfind, heq ▸ hst⟩

/-- The records of the state after an append: those of `st`, stream by
stream, and the new one. -/
def AppendsTo (deviceId : Uuid) (d : StoredRelayDelivery) (st st' : RelayDeliveryState) : Prop :=
  ∀ t ∈ st'.streams, ∀ x ∈ t.deliveries,
    (∃ s ∈ st.streams, s.deviceId = t.deviceId ∧ x ∈ s.deliveries) ∨ (t.deviceId = deviceId ∧ x = d)

theorem StateInv.appendsTo (h : StateInv cfg st) {id : Uuid}
    {r : EnqueueRequest} {d : StoredRelayDelivery}
    (hok : Relay.appendDelivery cfg clock id r st = .ok (d, st')) :
    AppendsTo r.deviceId d st st' ∧ ∃ seq at', d = r.delivery cfg seq id at' := by
  rw [Relay.appendDelivery] at hok
  obtain ⟨⟨stream, st₁⟩, hcreate, hok⟩ := bind_eq_ok.1 hok
  obtain ⟨h₁, hmem, hdevice, hstreams⟩ := h.getOrCreateStream hcreate
  obtain ⟨_, _, hok⟩ := bind_eq_ok.1 hok
  obtain ⟨at', _, hok⟩ := bind_eq_ok.1 hok
  cases hok
  refine ⟨?_, _, _, rfl⟩
  -- before the append, records are those of the old state
  have hold : ∀ t ∈ st₁.streams, ∀ x ∈ t.deliveries,
      ∃ s ∈ st.streams, s.deviceId = t.deviceId ∧ x ∈ s.deliveries := by
    intro t ht x hx
    rcases hstreams with heq | hperm
    · exact ⟨t, heq ▸ ht, rfl, hx⟩
    · rcases List.mem_cons.1 (hperm.mem_iff.1 ht) with heq | hin
      · rw [heq] at hx
        exact absurd hx List.not_mem_nil
      · exact ⟨t, hin, rfl, hx⟩
  intro t ht x hx
  rcases h₁.mem_setStream ht with heq | ⟨hin, _⟩
  · rw [heq] at hx ⊢
    rcases List.mem_append.1 hx with hx | hx
    · exact .inl (hold stream hmem x hx)
    · exact .inr ⟨hdevice, List.mem_singleton.1 hx⟩
  · exact .inl (hold t hin x hx)

/-- What an answered operation did to the records. -/
inductive Did (cfg : StoreConfig) (id : Uuid) (r? : Option EnqueueRequest)
    (st st' : RelayDeliveryState) (result : CallResult) : Prop
  | settled : result.assigns = [] → StateEvolves st st' → Did cfg id r? st st' result
  | appended (r : EnqueueRequest) (m : RelayDeliveryState)
      (d : StoredRelayDelivery) (seq : Nat) (at' : Instant) :
      r? = some r → result = .enqueued r.deviceId d →
      StateEvolves st m →
      (∀ key ∈ r.idempotencyKey, findExisting key m = none) →
      d = r.delivery cfg seq id at' → AppendsTo r.deviceId d m st' →
      Did cfg id r? st st' result

variable {id : Uuid} {result : CallResult}

theorem Answered.did {op : Operation} (hst : StateInv cfg st)
    (h : Answered cfg clock id op st st' result) : Did cfg id op.request? st st' result := by
  cases h with
  | settled hassigns _ hsettles => exact .settled hassigns hsettles.evolves
  | @purged _ _ s at' _ _ hanswer hfind hstate =>
    rw [hanswer, hstate]
    exact .settled rfl (StateEvolves.setStream hfind
      ((StreamEvolves.map (Evolves.scrub at')).trans (compactStream_writes _ _).1.evolves))
  | @appended r m d hrequest hanswer hsettles hfree happend =>
    obtain ⟨happends, seq, at', hd⟩ := (hst.settles hsettles).appendsTo happend
    exact .appended r m d seq at' hrequest hanswer hsettles.evolves hfree hd
      happends

end

-- ===== the history

/-- A request and the delivery it was appended as. -/
structure Original where
  request : EnqueueRequest
  delivery : StoredRelayDelivery

/-- The store with the origin of every delivery it ever appended. -/
structure Recorded where
  store : Store
  originals : List Original

def Recorded.empty : Recorded := { store := .empty, originals := [] }

def Call.logs (cfg : StoreConfig) (c : Call) (stored : RelayDeliveryState) : List Original :=
  match c.run cfg stored, c.op.request? with
  | .ok (.enqueued _ delivery, _), some request =>
    if c.written then [{ request, delivery }] else []
  | _, _ => []

theorem Call.request_of_mem_logs {cfg : StoreConfig} {c : Call}
    {stored : RelayDeliveryState} {o : Original} (h : o ∈ c.logs cfg stored) :
    c.op.request? = some o.request := by
  unfold Call.logs at h
  split at h
  · next hr =>
    split at h
    · rw [List.mem_singleton.1 h]
      exact hr
    · exact absurd h List.not_mem_nil
  · exact absurd h List.not_mem_nil

def Recorded.step (cfg : StoreConfig) (s : Recorded) (c : Call) : Recorded :=
  { store := s.store.step cfg c
    originals := c.logs cfg s.store.stored ++ s.originals }

def recordedSteps (cfg : StoreConfig) : Recorded → Call → Recorded → Prop :=
  fun s c t => t = s.step cfg c

/-- A record of a device with a key is the delivery its original request
was appended as, with the digest of that request. -/
structure Original.Matches (cfg : StoreConfig) (o : Original) (deviceId : Uuid)
    (d : StoredRelayDelivery) : Prop where
  deviceId : o.request.deviceId = deviceId
  seq : o.delivery.seq = d.seq
  id : o.delivery.id = d.id
  key : d.idempotencyKey = o.request.idempotencyKey
  digest : d.idempotencyContractDigest = o.request.contractDigest cfg
  live : d.status = .pending → d.kind = o.request.kind
    ∧ d.payload = o.request.payload ∧ d.authority = o.request.authority
    ∧ d.requiredCapabilities = some o.request.requiredCapabilities

/-- What a reachable store satisfies about keys. -/
structure KeyInv (cfg : StoreConfig) (st : RelayDeliveryState)
    (originals : List Original) : Prop where
  unreleased : ∀ s ∈ st.streams, ∀ d ∈ s.deliveries, d.idempotencyReleasedAt = none
  unique : ∀ s ∈ st.streams, ∀ d ∈ s.deliveries, ∀ t ∈ st.streams,
    ∀ e ∈ t.deliveries, d.idempotencyKey.isSome → e.idempotencyKey = d.idempotencyKey →
      t.deviceId = s.deviceId ∧ e.seq = d.seq
  original : ∀ s ∈ st.streams, ∀ d ∈ s.deliveries, d.idempotencyKey.isSome →
    ∃ o ∈ originals, o.Matches cfg s.deviceId d

section
variable {cfg : StoreConfig} {st st' m : RelayDeliveryState} {originals : List Original}

theorem KeyInv.evolve (h : KeyInv cfg st originals)
    (hev : StateEvolves st st') : KeyInv cfg st' originals where
  unreleased := by
    intro t ht d' hd'
    obtain ⟨s, hs, hst⟩ := hev t ht
    obtain ⟨d, hd, hdd⟩ := hst.records d' hd'
    exact hdd.released (h.unreleased s hs d hd)
  unique := by
    intro t ht d' hd' t₂ ht₂ e' he' hkey hsame
    obtain ⟨s, hs, hst⟩ := hev t ht
    obtain ⟨d, hd, hdd⟩ := hst.records d' hd'
    obtain ⟨s₂, hs₂, hst₂⟩ := hev t₂ ht₂
    obtain ⟨e, he, hee⟩ := hst₂.records e' he'
    have hdk := (hdd.key hkey).1
    have hek := (hee.key (hsame ▸ hkey)).1
    obtain ⟨hdev, hseq⟩ := h.unique s hs d hd s₂ hs₂ e he (hdk ▸ hkey)
      (hek.symm.trans (hsame.trans hdk))
    refine ⟨?_, ?_⟩
    · rw [hst₂.deviceId, hst.deviceId, hdev]
    · rw [hee.seq, hdd.seq, hseq]
  original := by
    intro t ht d' hd' hkey
    obtain ⟨s, hs, hst⟩ := hev t ht
    obtain ⟨d, hd, hdd⟩ := hst.records d' hd'
    obtain ⟨hk, hdigest⟩ := hdd.key hkey
    obtain ⟨o, ho, hmatch⟩ := h.original s hs d hd (hk ▸ hkey)
    refine ⟨o, ho, hmatch.deviceId.trans hst.deviceId.symm,
      hmatch.seq.trans hdd.seq.symm, hmatch.id.trans hdd.id.symm,
      hk.trans hmatch.key, hdigest.trans hmatch.digest, ?_⟩
    intro hpending
    have heq := hdd.live hpending
    rw [heq] at hpending ⊢
    exact hmatch.live hpending

theorem KeyInv.not_held (h : KeyInv cfg st originals) {key : Hex64}
    (hnone : findExisting key st = none) {s : DeviceDeliveryStream}
    (hs : s ∈ st.streams) {d : StoredRelayDelivery} (hd : d ∈ s.deliveries) :
    d.idempotencyKey ≠ some key := by
  intro hkey
  have hs' := List.findSome?_eq_none_iff.1 hnone s hs
  rw [Option.map_eq_none_iff, List.find?_eq_none] at hs'
  refine hs' d hd ?_
  rw [holdsKey, hkey, h.unreleased s hs d hd]
  simp

theorem KeyInv.append (h : KeyInv cfg m originals) {r : EnqueueRequest}
    {id : Uuid} {seq : Nat} {at' : Instant}
    (hfree : ∀ key ∈ r.idempotencyKey, findExisting key m = none)
    (happends : AppendsTo r.deviceId (r.delivery cfg seq id at') m st') :
    KeyInv cfg st' (⟨r, r.delivery cfg seq id at'⟩ :: originals) where
  unreleased := by
    intro t ht x hx
    rcases happends t ht x hx with ⟨s, hs, -, hx⟩ | ⟨-, heq⟩
    · exact h.unreleased s hs x hx
    · rw [heq]
      rfl
  unique := by
    intro t ht x hx t₂ ht₂ y hy hkey hsame
    rcases happends t ht x hx with ⟨s, hs, hdev, hx⟩ | ⟨hdev, hxd⟩
    · rcases happends t₂ ht₂ y hy with ⟨s₂, hs₂, hdev₂, hy⟩ | ⟨hdev₂, hyd⟩
      · obtain ⟨hd, hseq⟩ := h.unique s hs x hx s₂ hs₂ y hy hkey hsame
        exact ⟨by rw [← hdev, ← hdev₂, hd], hseq⟩
      · -- the new record took a key nobody held
        obtain ⟨key, hk⟩ := Option.isSome_iff_exists.1 hkey
        rw [hyd, hk] at hsame
        exact absurd hk (h.not_held (hfree key hsame) hs hx)
    · rcases happends t₂ ht₂ y hy with ⟨s₂, hs₂, hdev₂, hy⟩ | ⟨hdev₂, hyd⟩
      · obtain ⟨key, hk⟩ := Option.isSome_iff_exists.1 hkey
        rw [hk] at hsame
        rw [hxd] at hk
        exact absurd hsame (h.not_held (hfree key hk) hs₂ hy)
      · exact ⟨by rw [hdev, hdev₂], by rw [hxd, hyd]⟩
  original := by
    intro t ht x hx hkey
    rcases happends t ht x hx with ⟨s, hs, hdev, hx⟩ | ⟨hdev, hxd⟩
    · obtain ⟨o, ho, hmatch⟩ := h.original s hs x hx hkey
      exact ⟨o, List.mem_cons_of_mem _ ho, hdev ▸ hmatch⟩
    · refine ⟨_, List.mem_cons_self .., ?_⟩
      rw [hxd]
      exact ⟨hdev.symm, rfl, rfl, rfl, rfl, fun _ => ⟨rfl, rfl, rfl, rfl⟩⟩

end

-- ===== the contract

/-- What the contract digest covers. -/
def EnqueueRequest.contract (r : EnqueueRequest) : Json :=
  .obj [("kind", .str r.kind.val), ("payload", .obj r.payload),
    ("authority", (r.authority.map RelayDeliveryAuthority.toJson).getD .null),
    ("requiredCapabilities", .arr (r.requiredCapabilities.map .str))]

/-- The text it is taken of. -/
def EnqueueRequest.contractText (r : EnqueueRequest) : String :=
  "mecord-relay-idempotency-v1\x00" ++ Json.canonicalJson r.contract

/-- One request says the same as another one. -/
structure SameContract (r q : EnqueueRequest) : Prop where
  deviceId : r.deviceId = q.deviceId
  kind : r.kind = q.kind
  payload : Json.Same (.obj r.payload) (.obj q.payload)
  authority : r.authority = q.authority
  capabilities : ∀ c, c ∈ r.requiredCapabilities ↔ c ∈ q.requiredCapabilities

theorem wellFormed_authority (authority : Option RelayDeliveryAuthority) :
    ((authority.map RelayDeliveryAuthority.toJson).getD Json.null).WellFormed := by
  cases authority with
  | none => exact .null
  | some a =>
    refine .obj (by simp) ?_
    intro field hfield
    simp only [List.mem_cons, List.not_mem_nil, or_false] at hfield
    rcases hfield with rfl | rfl | rfl
    · exact .str _
    · exact .str _
    · exact .num (Json.isNumberText_toString _)

variable {r : EnqueueRequest}

theorem EnqueueRequest.contract_wellFormed (h : (Json.obj r.payload).WellFormed) :
    r.contract.WellFormed := by
  refine .obj (by simp) ?_
  intro field hfield
  simp only [List.mem_cons, List.not_mem_nil, or_false] at hfield
  rcases hfield with rfl | rfl | rfl | rfl
  · exact .str _
  · exact h
  · exact wellFormed_authority r.authority
  · refine .arr ?_
    intro item hitem
    obtain ⟨c, -, rfl⟩ := List.mem_map.1 hitem
    exact .str c

theorem authority_inj {a b : Option RelayDeliveryAuthority}
    (h : ((a.map RelayDeliveryAuthority.toJson).getD Json.null).canonicalize
      = ((b.map RelayDeliveryAuthority.toJson).getD Json.null).canonicalize) : a = b := by
  cases a with
  | none =>
    cases b with
    | none => rfl
    | some b =>
      rw [Option.map_some, Option.getD_some, RelayDeliveryAuthority.toJson,
        Json.canonicalize_obj] at h
      cases h
  | some a =>
    cases b with
    | none =>
      rw [Option.map_some, Option.getD_some, RelayDeliveryAuthority.toJson,
        Json.canonicalize_obj] at h
      cases h
    | some b =>
      have hb := wellFormed_authority (some b)
      have h₁ := Json.field_eq_of_canonicalize_eq h hb (k := "accountId") rfl rfl
      have h₂ := Json.field_eq_of_canonicalize_eq h hb (k := "deviceId") rfl rfl
      have h₃ := Json.field_eq_of_canonicalize_eq h hb (k := "generation") rfl rfl
      simp only [Json.canonicalize, Json.str.injEq, Json.num.injEq] at h₁ h₂ h₃
      have hgen := Subtype.ext (Json.toString_inj h₃)
      cases a
      cases b
      simp only [Option.some.injEq, RelayDeliveryAuthority.mk.injEq]
      exact ⟨Subtype.ext h₁, Subtype.ext h₂, hgen⟩

variable {q : EnqueueRequest}

theorem EnqueueRequest.Valid.capabilities_ext (hr : r.Valid) (hq : q.Valid)
    (h : ∀ c, c ∈ r.requiredCapabilities ↔ c ∈ q.requiredCapabilities) :
    r.requiredCapabilities = q.requiredCapabilities := by
  have hsorted : ∀ {caps : List String}, safeRequiredCapabilities caps = .ok caps →
      caps.Pairwise (· ≤ ·) ∧ caps.Nodup := by
    intro caps hcaps
    unfold safeRequiredCapabilities at hcaps
    split at hcaps
    · exact absurd hcaps fail_ne_ok
    · split at hcaps
      · have heq := Except.ok.inj hcaps
        rw [← heq]
        exact ⟨List.pairwise_insertionSort _ _,
          (List.perm_insertionSort _ _).nodup_iff.2 (List.nodup_dedup _)⟩
      · exact absurd hcaps fail_ne_ok
  obtain ⟨hrs, hrn⟩ := hsorted hr.capabilities
  obtain ⟨hqs, hqn⟩ := hsorted hq.capabilities
  exact List.Perm.eq_of_pairwise (fun a b _ _ hab hba => le_antisymm hab hba) hrs
    hqs ((List.perm_ext_iff_of_nodup hrn hqn).2 h)

theorem EnqueueRequest.contract_fields (r : EnqueueRequest) :
    r.contract.field? "kind" = some (.str r.kind.val)
    ∧ r.contract.field? "payload" = some (.obj r.payload) ∧ r.contract.field? "authority"
        = some ((r.authority.map RelayDeliveryAuthority.toJson).getD .null)
    ∧ r.contract.field? "requiredCapabilities"
        = some (.arr (r.requiredCapabilities.map .str)) := by
  simp [EnqueueRequest.contract, Json.field?]

theorem contract_canonicalize_iff (hr : r.Valid) (hq : q.Valid)
    (hrp : (Json.obj r.payload).WellFormed) (hqp : (Json.obj q.payload).WellFormed)
    (hdevice : r.deviceId = q.deviceId) :
    r.contract.canonicalize = q.contract.canonicalize ↔ SameContract r q := by
  have hwf := EnqueueRequest.contract_wellFormed hqp
  obtain ⟨hrkind, hrpayload, hrauth, hrcaps⟩ := r.contract_fields
  obtain ⟨hqkind, hqpayload, hqauth, hqcaps⟩ := q.contract_fields
  constructor
  · intro h
    have hkind := Json.field_eq_of_canonicalize_eq h hwf hrkind hqkind
    have hpayload := Json.field_eq_of_canonicalize_eq h hwf hrpayload hqpayload
    have hauth := Json.field_eq_of_canonicalize_eq h hwf hrauth hqauth
    have hcaps := Json.field_eq_of_canonicalize_eq h hwf hrcaps hqcaps
    simp only [Json.canonicalize, Json.str.injEq] at hkind
    refine ⟨hdevice, Subtype.ext hkind, Json.same_of_canonicalize_eq _ hqp hpayload,
      authority_inj hauth, ?_⟩
    rw [Json.texts_eq_of_canonicalize_eq hcaps]
    exact fun _ => Iff.rfl
  · intro h
    rw [EnqueueRequest.contract, EnqueueRequest.contract, h.kind, h.authority,
      hr.capabilities_ext hq h.capabilities, Json.canonicalize_obj,
      Json.canonicalize_obj, Json.canonicalFields, Json.canonicalFields]
    simp only [List.map_cons, Json.canonicalField, h.payload.canonicalize_eq hrp hqp]

theorem contractText_eq_iff (hr : r.Valid) (hq : q.Valid)
    (hrp : (Json.obj r.payload).WellFormed) (hqp : (Json.obj q.payload).WellFormed)
    (hdevice : r.deviceId = q.deviceId) : r.contractText = q.contractText ↔ SameContract r q := by
  rw [← contract_canonicalize_iff hr hq hrp hqp hdevice,
    ← Json.canonicalJson_inj (EnqueueRequest.contract_wellFormed hrp)
      (EnqueueRequest.contract_wellFormed hqp)]
  exact String.append_right_inj _

/-- A replay is accepted exactly for the contract of its original. -/
theorem checkReplay_iff {cfg : StoreConfig} {x : DeviceDeliveryStream} {d : StoredRelayDelivery}
    {o : Original} {key : Hex64} (hm : o.Matches cfg x.deviceId d)
    (hkey : d.idempotencyKey = some key) (hrkey : r.idempotencyKey = some key)
    (ho : o.request.Valid) (hr : r.Valid) (hop : (Json.obj o.request.payload).WellFormed)
    (hrp : (Json.obj r.payload).WellFormed)
    (hsha : Json.CollisionFree cfg.sha256 [o.request.contractText, r.contractText]) :
    checkReplay cfg r x d = .ok () ↔ SameContract o.request r := by
  have hokey : o.request.idempotencyKey = some key := hm.key.symm.trans hkey
  have hodigest : d.idempotencyContractDigest = some (cfg.sha256 o.request.contractText) := by
    rw [hm.digest, EnqueueRequest.contractDigest, hokey]
    rfl
  have hrdigest : r.contractDigest cfg = some (cfg.sha256 r.contractText) := by
    rw [EnqueueRequest.contractDigest, hrkey]
    rfl
  have htext : o.request.deviceId = r.deviceId →
      (cfg.sha256 o.request.contractText = cfg.sha256 r.contractText
        ↔ SameContract o.request r) := by
    intro hdevice
    rw [← contractText_eq_iff ho hr hop hrp hdevice]
    constructor
    · exact hsha _ (by simp) _ (by simp)
    · exact fun h => congrArg cfg.sha256 h
  unfold checkReplay
  rw [bind_eq_ok]
  simp only [rejectIf_eq_ok, ne_eq, not_not, hodigest, hrdigest, hm.deviceId.symm]
  by_cases hpending : d.status = .pending
  · obtain ⟨hkind, hpayload, hauth, hcaps⟩ := hm.live hpending
    simp only [hpending, not_true_eq_false, if_false, bind_eq_ok, rejectIf_eq_ok,
      hkind, hpayload, hauth, hcaps, not_or, not_not, Option.some.injEq,
      Option.isSome_some, true_and]
    constructor
    · intro h
      obtain ⟨_, hdevice, _, -, _, -, _, -, hdigest⟩ := h
      exact (htext hdevice).1 hdigest
    · intro h
      exact ⟨(), h.deviceId, (), ho.capabilities_ext hr h.capabilities, (),
        ⟨h.kind, (Json.canonicalJson_inj hop hrp).2
          (h.payload.canonicalize_eq hop hrp)⟩, (), h.authority,
        (htext h.deviceId).2 h⟩
  · simp only [hpending, not_false_eq_true, if_true, bind_eq_ok, rejectIf_eq_ok,
      Option.isNone_some, Bool.false_eq_true, not_not, Option.some.injEq]
    constructor
    · intro h
      obtain ⟨_, hdevice, _, -, hdigest⟩ := h
      exact (htext hdevice).1 hdigest
    · intro h
      exact ⟨(), h.deviceId, (), trivial, (htext h.deviceId).2 h⟩

-- ===== whole runs

/-- The payload a call passes is a JSON value. -/
def Call.JsonPayload (c : Call) : Prop :=
  match c.op with
  | .enqueue _ _ payload _ _ _ => payload.WellFormed
  | _ => True

theorem Call.request_spec {c : Call} (hr : c.op.request? = some r) (hjson : c.JsonPayload) :
    (∀ cfg, c.op.mutator cfg c.clock c.randomUUID = .ok (enqueue cfg c.clock c.randomUUID r))
    ∧ r.Valid ∧ (Json.obj r.payload).WellFormed := by
  unfold Call.JsonPayload at hjson
  cases hop : c.op with
  | enqueue deviceId kind payload authority idempotencyKey caps =>
    rw [hop, Operation.request?] at hr
    rw [hop] at hjson
    cases henqueue : enqueueRequest deviceId kind payload authority
        idempotencyKey caps with
    | error e =>
      rw [henqueue] at hr
      cases hr
    | ok q =>
      rw [henqueue] at hr
      obtain rfl : q = r := Option.some.inj hr
      refine ⟨?_, enqueueRequest_valid henqueue, ?_⟩
      · intro cfg
        rw [Operation.mutator, henqueue]
        rfl
      · unfold enqueueRequest at henqueue
        obtain ⟨_, _, h⟩ := bind_eq_ok.1 henqueue
        obtain ⟨_, _, h⟩ := bind_eq_ok.1 h
        obtain ⟨fields, hpayload, h⟩ := bind_eq_ok.1 h
        iterate 3 obtain ⟨_, _, h⟩ := bind_eq_ok.1 h
        cases h
        rw [safePayload.eq_def] at hpayload
        split at hpayload
        · split at hpayload
          · exact absurd hpayload fail_ne_ok
          · cases hpayload
            exact hjson
        · exact absurd hpayload fail_ne_ok
  | _ =>
    rw [hop] at hr
    cases hr

/-- What a reachable recorded store satisfies. -/
structure RecordedInv (cfg : StoreConfig) (s : Recorded) : Prop where
  store : StoreInv cfg s.store
  keys : KeyInv cfg s.store.stored s.originals
  assigned : s.store.assigned = s.originals.map fun o => (o.request.deviceId, o.delivery.seq)
  requests : ∀ o ∈ s.originals, o.request.Valid ∧ (Json.obj o.request.payload).WellFormed

section
variable {cfg : StoreConfig} {s t : Recorded} {c : Call}

theorem RecordedInv.empty : RecordedInv cfg Recorded.empty where
  store := StoreInv.empty
  keys := by
    refine ⟨?_, ?_, ?_⟩
    · intro a ha
      exact absurd ha List.not_mem_nil
    · intro a ha
      exact absurd ha List.not_mem_nil
    · intro a ha
      exact absurd ha List.not_mem_nil
  assigned := rfl
  requests := by
    intro o ho
    exact absurd ho List.not_mem_nil

/-- One call of the store. -/
theorem RecordedInv.step (h : RecordedInv cfg s) (hjson : c.JsonPayload) :
    RecordedInv cfg (s.step cfg c) := by
  have hstore : StoreInv cfg (s.store.step cfg c) := h.store.step rfl
  have hlogs : (s.step cfg c).originals = c.logs cfg s.store.stored ++ s.originals := rfl
  -- a call that stores nothing logs nothing
  have hkept : s.store.step cfg c = s.store → c.logs cfg s.store.stored = [] →
      RecordedInv cfg (s.step cfg c) := by
    intro hsame hnil
    refine ⟨hstore, ?_, ?_, ?_⟩
    · rw [hlogs, hnil]
      show KeyInv cfg (s.store.step cfg c).stored s.originals
      rw [hsame]
      exact h.keys
    · rw [hlogs, hnil]
      show (s.store.step cfg c).assigned = _
      rw [hsame]
      exact h.assigned
    · rw [hlogs, hnil]
      exact h.requests
  cases hrun : c.run cfg s.store.stored with
  | error e =>
    refine hkept ?_ ?_
    · rw [Store.step, hrun]
    · rw [Call.logs, hrun]
  | ok answer =>
    obtain ⟨result, state⟩ := answer
    by_cases hwritten : c.written = true
    · have hstep : s.store.step cfg c
          = { stored := state, assigned := result.assigns ++ s.store.assigned } := by
        rw [Store.step, hrun]
        exact if_pos hwritten
      cases (h.store.run_ok hrun).2.2.2.did h.store.state with
      | settled hassigns hevolves =>
        have hnil : c.logs cfg s.store.stored = [] := by
          rw [Call.logs, hrun]
          cases result with
          | enqueued deviceId d => cases hassigns
          | _ => rfl
        refine ⟨hstore, ?_, ?_, ?_⟩
        · rw [hlogs, hnil]
          show KeyInv cfg (s.store.step cfg c).stored s.originals
          rw [hstep]
          exact h.keys.evolve hevolves
        · rw [hlogs, hnil]
          show (s.store.step cfg c).assigned = _
          rw [hstep, hassigns]
          exact h.assigned
        · rw [hlogs, hnil]
          exact h.requests
      | appended r m d seq at' hr hresult hevolves hfree hd happends =>
        obtain ⟨-, hvalid, hwf⟩ := c.request_spec hr hjson
        have hlog : c.logs cfg s.store.stored = [⟨r, d⟩] := by
          rw [Call.logs, hrun, hr, hresult]
          exact if_pos hwritten
        refine ⟨hstore, ?_, ?_, ?_⟩
        · rw [hlogs, hlog]
          show KeyInv cfg (s.store.step cfg c).stored _
          rw [hstep, hd]
          exact (h.keys.evolve hevolves).append hfree (hd ▸ happends)
        · rw [hlogs, hlog]
          show (s.store.step cfg c).assigned = _
          rw [hstep, hresult, h.assigned]
          rfl
        · rw [hlogs, hlog]
          intro o ho
          rcases List.mem_cons.1 ho with heq | ho
          · rw [heq]
            exact ⟨hvalid, hwf⟩
          · exact h.requests o ho
    · refine hkept ?_ ?_
      · rw [Store.step, hrun]
        exact if_neg hwritten
      · rw [Call.logs, hrun]
        cases result with
        | enqueued deviceId d =>
          cases c.op.request? with
          | none => rfl
          | some r => exact if_neg hwritten
        | _ => rfl

theorem recorded_inv {calls : List Call}
    (hrun : Run (Where (recordedSteps cfg) fun _ c => c.JsonPayload)
      Recorded.empty calls s) : RecordedInv cfg s := by
  refine hrun.invariant RecordedInv.empty ?_
  intro a b c ha hstep
  rw [hstep.1]
  exact ha.step hstep.2

end

-- ===== the replayed call

section
variable {cfg : StoreConfig} {st m : RelayDeliveryState}

theorem validateStreams_of_accepted {seen : List Uuid} {streams : List DeviceDeliveryStream}
    (hinv : ∀ s ∈ streams, StreamInv cfg s)
    (haccepted : ∀ s ∈ streams, UniqueIds s ∧ s.nextSeq ≤ maxSafeInteger)
    (hdevices : (seen ++ streams.map (·.deviceId)).Nodup) :
    validateStreams cfg seen streams = .ok streams := by
  induction streams generalizing seen with
  | nil => rfl
  | cons s streams ih =>
    rw [List.map_cons, List.nodup_middle, List.nodup_cons] at hdevices
    have hnew : ¬ s.deviceId ∈ seen :=
      fun hin => hdevices.1 (List.mem_append_left _ hin)
    have hrest : validateStreams cfg (s.deviceId :: seen) streams = .ok streams :=
      ih (fun t ht => hinv t (List.mem_cons_of_mem _ ht))
        (fun t ht => haccepted t (List.mem_cons_of_mem _ ht))
        (List.nodup_cons.2 hdevices)
    obtain ⟨hids, hsafe⟩ := haccepted s (List.mem_cons_self ..)
    rw [validateStreams, rejectIf_of_not hnew,
      (hinv s (List.mem_cons_self ..)).validateStream_ok hids hsafe, hrest]
    rfl

theorem StateInv.validateState_ok (h : StateInv cfg st) (ha : Accepted st) :
    validateState cfg st = .ok st := by
  have hbounded := h.bounded
  have hdevices : (([] : List Uuid) ++ st.streams.map fun s => s.deviceId).Nodup := h.devices
  rw [validateState, rejectIf_of_not (by omega),
    validateStreams_of_accepted h.streams ha hdevices]
  rfl

theorem StateKeeps.accepted (h : StateKeeps st m) (ha : Accepted st) : Accepted m := by
  intro t ht
  obtain ⟨s, hs, hst⟩ := h.backward t ht
  obtain ⟨hids, hsafe⟩ := ha s hs
  exact ⟨hids.sublist hst.ids, by rw [hst.nextSeq]; exact hsafe⟩

theorem KeyInv.findExisting_eq {originals : List Original}
    (h : KeyInv cfg m originals) (hm : StateInv cfg m) {key : Hex64}
    {x : DeviceDeliveryStream} {d : StoredRelayDelivery} (hx : x ∈ m.streams)
    (hd : d ∈ x.deliveries) (hkey : d.idempotencyKey = some key) :
    findExisting key m = some (x, d) := by
  have hsome : d.idempotencyKey.isSome := by rw [hkey]; rfl
  cases hfind : findExisting key m with
  | none => exact absurd hkey (h.not_held hfind hx hd)
  | some found =>
    obtain ⟨y, e⟩ := found
    obtain ⟨y', hy', hmap⟩ := List.exists_of_findSome?_eq_some hfind
    obtain ⟨e', he', heq⟩ := Option.map_eq_some_iff.1 hmap
    cases heq
    have hheld := List.find?_some he'
    rw [holdsKey, Bool.and_eq_true, beq_iff_eq] at hheld
    have hemem := List.mem_of_find?_eq_some he'
    obtain ⟨hdev, hseq⟩ := h.unique x hx d hd y hy' e hemem hsome
      (hheld.1.trans hkey.symm)
    obtain rfl := List.inj_on_of_nodup_map hm.devices hy' hx hdev
    obtain rfl := (hm.streams y hy').consecutive.eq_of_key_eq hemem hd hseq
    rfl

/-- A request sent again is answered by its original. -/
theorem RecordedInv.run_replay {s : Recorded} (h : RecordedInv cfg s) {c : Call}
    {r : EnqueueRequest} {key : Hex64} (hr : c.op.request? = some r)
    (hjson : c.JsonPayload) (hrkey : r.idempotencyKey = some key) {n : Nat}
    (hmaintain : maintain cfg (c.clock 0) s.store.stored = .ok (n, m))
    {x : DeviceDeliveryStream} {d : StoredRelayDelivery} (hx : x ∈ m.streams)
    (hd : d ∈ x.deliveries) (hkey : d.idempotencyKey = some key) :
    c.run cfg s.store.stored = (checkReplay cfg r x d).map fun _ => (.replayed d, m) := by
  have hsettles := maintain_settles hmaintain
  have hm := h.store.state.settles hsettles
  have hkeeps := hsettles.keeps
  have hkeys := h.keys.evolve hsettles.evolves
  have hfind := hkeys.findExisting_eq hm hx hd hkey
  have hholds : holdsKey key d := by
    rw [holdsKey, hkey, hkeys.unreleased x hx d hd]
    simp
  have hupgrade := ((hm.streams x hx).records d hd).upgrade hholds (r.contractDigest cfg)
  have hread := h.store.state.validateState_ok h.store.accepted
  have hwrite := hm.validateState_ok (hkeeps.accepted h.store.accepted)
  obtain ⟨hmutator, -, -⟩ := c.request_spec hr hjson
  rw [Call.run, hmutator cfg, ok_bind, mutate, hread, ok_bind, enqueue, hmaintain]
  simp only [ok_bind, hrkey, Option.bind_some, hfind, Option.map_some, hupgrade, hm.updateExisting]
  cases checkReplay cfg r x d with
  | error e => rfl
  | ok u =>
    simp only [ok_bind, hwrite]
    rfl

/-- At most one delivery holds a key. -/
theorem KeyInv.holders_le_one {originals : List Original}
    (h : KeyInv cfg st originals) (hst : StateInv cfg st) (key : Hex64) :
    ((st.streams.flatMap fun s => s.deliveries.map fun d => (s.deviceId, d)).filter
      fun p => p.2.idempotencyKey == some key).length ≤ 1 := by
  have hpairs : ((st.streams.flatMap fun s =>
      s.deliveries.map fun d => (s.deviceId, d)).map
        fun p => (p.1, p.2.seq)).Nodup := by
    rw [List.map_flatMap, List.nodup_flatMap]
    refine ⟨?_, ?_⟩
    · intro s hs
      have hseqs := (hst.streams s hs).consecutive.nodup
      rw [List.map_map]
      rw [List.Nodup, List.pairwise_map] at hseqs ⊢
      exact hseqs.imp fun hne heq => hne (Prod.mk.inj heq).2
    · have hdevices := hst.devices
      rw [List.Nodup, List.pairwise_map] at hdevices
      refine hdevices.imp ?_
      intro a b hne
      show List.Disjoint _ _
      intro p hpa hpb
      obtain ⟨q, hq, hqp⟩ := List.mem_map.1 hpa
      obtain ⟨_, -, rfl⟩ := List.mem_map.1 hq
      obtain ⟨q', hq', hqp'⟩ := List.mem_map.1 hpb
      obtain ⟨_, -, rfl⟩ := List.mem_map.1 hq'
      exact hne ((Prod.mk.inj (hqp.trans hqp'.symm)).1)
  by_contra hlt
  obtain ⟨p, q, rest, hlist⟩ : ∃ p q rest,
      (st.streams.flatMap fun s => s.deliveries.map fun d => (s.deviceId, d)).filter
        (fun p => p.2.idempotencyKey == some key) = p :: q :: rest := by
    cases hfilter : (st.streams.flatMap fun s =>
        s.deliveries.map fun d => (s.deviceId, d)).filter
          fun p => p.2.idempotencyKey == some key with
    | nil => simp [hfilter] at hlt
    | cons p tail =>
      cases tail with
      | nil => simp [hfilter] at hlt
      | cons q rest => exact ⟨p, q, rest, rfl⟩
  -- two entries of the filtered list stand for different sequences
  have hsub := hpairs.sublist ((List.filter_sublist (p := fun p : Uuid × StoredRelayDelivery =>
      p.2.idempotencyKey == some key)).map fun p => (p.1, p.2.seq))
  rw [hlist, List.map_cons, List.map_cons, List.nodup_cons] at hsub
  have hin : ∀ x ∈ p :: q :: rest, ∃ s ∈ st.streams, x.2 ∈ s.deliveries
      ∧ x.1 = s.deviceId ∧ x.2.idempotencyKey = some key := by
    intro x hx
    rw [← hlist, List.mem_filter, List.mem_flatMap, beq_iff_eq] at hx
    obtain ⟨⟨s, hs, hmem⟩, hk⟩ := hx
    obtain ⟨d, hd, rfl⟩ := List.mem_map.1 hmem
    exact ⟨s, hs, hd, rfl, hk⟩
  obtain ⟨s, hs, hps, hpdev, hpk⟩ := hin p (by simp)
  obtain ⟨t, ht, hqt, hqdev, hqk⟩ := hin q (by simp)
  obtain ⟨hdev, hseq⟩ := h.unique s hs p.2 hps t ht q.2 hqt (by rw [hpk]; rfl)
    (hqk.trans hpk.symm)
  exact hsub.1 (List.mem_cons.2 (.inl (by rw [hpdev, hqdev, hdev, hseq])))

theorem KeyInv.findIdempotent_error {originals : List Original}
    (h : KeyInv cfg st originals) (hst : StateInv cfg st) {clock : CallClock}
    {key : Hex64} {e : OperatorError} (herror : findIdempotent cfg clock key st = .error e) :
    e.code ≠ .relayQueueCorrupt := by
  rw [findIdempotent] at herror
  cases hmaintain : maintain cfg (clock 0) st with
  | error e' =>
    rw [hmaintain] at herror
    obtain rfl := Except.error.inj herror
    rw [maintain] at hmaintain
    unfold toISOString at hmaintain
    cases hclock : clock 0 with
    | none =>
      rw [hclock] at hmaintain
      cases hmaintain
      simp
    | some at' =>
      rw [hclock] at hmaintain
      cases hmaintain
  | ok p =>
    obtain ⟨n, m⟩ := p
    have hsettles := maintain_settles hmaintain
    have hm := hst.settles hsettles
    have hkeys := h.evolve hsettles.evolves
    have hholders : (m.streams.flatMap fun s =>
          (s.deliveries.filter (holdsKey key)).map fun d => (s.deviceId, d))
        = (m.streams.flatMap fun s =>
            s.deliveries.map fun d => (s.deviceId, d)).filter
          fun p => p.2.idempotencyKey == some key := by
      rw [List.filter_flatMap]
      refine List.flatMap_congr ?_
      intro s hs
      rw [List.filter_map]
      congr 1
      refine List.filter_congr ?_
      intro d hd
      rw [holdsKey, hkeys.unreleased s hs d hd]
      simp
    have hle := hkeys.holders_le_one hm key
    rw [← hholders] at hle
    rw [hmaintain, ok_bind] at herror
    simp only [rejectIf_of_not (Nat.not_lt.2 hle), ok_bind] at herror
    cases herror

end

-- ===== the main result

/-- For every run of store calls from the empty state: a key is the key of
at most one retained delivery, so `findIdempotent` never finds two; and an
enqueue under a key that maintenance leaves retained answers with that
delivery, and stores the maintained state as it is, exactly when it says
what the delivery's original request said. Otherwise it throws and the
store stays as it was. -/
theorem idempotency_sound (cfg : StoreConfig) (calls : List Call) (s : Recorded)
    (hrun : Run (Where (recordedSteps cfg) fun _ c => c.JsonPayload) Recorded.empty calls s) :
    (∀ key, ((s.store.stored.streams.flatMap fun stream =>
          stream.deliveries.map fun d => (stream.deviceId, d)).filter
        fun p => p.2.idempotencyKey == some key).length ≤ 1)
      ∧ (∀ clock key e, findIdempotent cfg clock key s.store.stored = .error e →
          e.code ≠ .relayQueueCorrupt)
      ∧ ∀ (c : Call) (r : EnqueueRequest) (key : Hex64) (n : Nat)
          (m : RelayDeliveryState) (x : DeviceDeliveryStream)
          (d : StoredRelayDelivery),
          c.op.request? = some r → c.JsonPayload → r.idempotencyKey = some key →
          maintain cfg (c.clock 0) s.store.stored = .ok (n, m) →
          x ∈ m.streams → d ∈ x.deliveries → d.idempotencyKey = some key →
          ∃ o ∈ s.originals, o.request.idempotencyKey = some key
            ∧ o.request.deviceId = x.deviceId ∧ o.delivery.seq = d.seq
            ∧ o.delivery.id = d.id
            ∧ (∀ o' ∈ s.originals, o'.request.deviceId = x.deviceId →
                o'.delivery.seq = d.seq → o' = o)
            ∧ (Json.CollisionFree cfg.sha256 [o.request.contractText, r.contractText] →
              (SameContract o.request r → c.run cfg s.store.stored = .ok (.replayed d, m))
              ∧ (¬ SameContract o.request r → (∃ e, c.run cfg s.store.stored = .error e)
                  ∧ s.store.step cfg c = s.store)) := by
  have hinv := recorded_inv hrun
  refine ⟨hinv.keys.holders_le_one hinv.store.state,
    fun clock key e => hinv.keys.findIdempotent_error hinv.store.state, ?_⟩
  intro c r key n m x d hr hjson hrkey hmaintain hx hd hkey
  have hkeys := hinv.keys.evolve (maintain_settles hmaintain).evolves
  obtain ⟨o, ho, hmatch⟩ := hkeys.original x hx d hd (by rw [hkey]; rfl)
  refine ⟨o, ho, hmatch.key.symm.trans hkey, hmatch.deviceId, hmatch.seq, hmatch.id, ?_, ?_⟩
  · -- a sequence of a device was assigned once
    intro o' ho' hdev' hseq'
    have hnodup := hinv.store.nodup
    rw [hinv.assigned] at hnodup
    refine List.inj_on_of_nodup_map hnodup ho' ho ?_
    rw [hdev', hseq', hmatch.deviceId, hmatch.seq]
  · intro hsha
    obtain ⟨-, hvalid, hwf⟩ := c.request_spec hr hjson
    obtain ⟨hovalid, howf⟩ := hinv.requests o ho
    have hreplay := hinv.run_replay hr hjson hrkey hmaintain hx hd hkey
    have hiff := checkReplay_iff hmatch hkey hrkey hovalid hvalid howf hwf hsha
    constructor
    · intro hsame
      rw [hreplay, hiff.2 hsame]
      rfl
    · intro hother
      cases hcheck : checkReplay cfg r x d with
      | ok u => exact absurd (hiff.1 hcheck) hother
      | error e =>
        rw [hcheck] at hreplay
        refine ⟨⟨e, hreplay⟩, ?_⟩
        rw [Store.step, hreplay]
        rfl

def hashingConfig : StoreConfig :=
  { smallConfig with sha256 := sha256Utf8 }

def keyedEnqueue : Call where
  op := .enqueue "11111111-1111-4111-8111-111111111111" "action"
    (.obj [("a", .num "1")]) none (some (String.ofList (List.replicate 64 'a'))) []
  clock := fun _ => some ⟨0, zero_instant⟩
  randomUUID := twosUuid
  written := true

/-- An enqueue with a key, sent again. -/
theorem idempotency_sound_retriedEnqueue :
    ∃ (r : EnqueueRequest) (d : StoredRelayDelivery) (m : RelayDeliveryState),
      keyedEnqueue.op.request? = some r ∧ r.idempotencyKey.isSome ∧ d.seq = 1
        ∧ keyedEnqueue.run hashingConfig
            (Recorded.empty.step hashingConfig keyedEnqueue).store.stored
          = .ok (.replayed d, m) := by
  have hjson : keyedEnqueue.JsonPayload := by
    refine .obj (by simp) ?_
    intro field hfield
    obtain rfl := List.mem_singleton.1 hfield
    exact .num (by decide)
  have hrun : Run (Where (recordedSteps hashingConfig) fun _ c => c.JsonPayload)
      Recorded.empty ([] ++ [keyedEnqueue])
      (Recorded.empty.step hashingConfig keyedEnqueue) :=
    Run.snoc Run.nil ⟨rfl, hjson⟩
  obtain ⟨r, hr⟩ := Option.isSome_iff_exists.1
    (show keyedEnqueue.op.request?.isSome = true by decide +kernel)
  obtain ⟨key, hkey⟩ := Option.isSome_iff_exists.1
    (show (keyedEnqueue.op.request?.bind (·.idempotencyKey)).isSome = true by
      decide +kernel)
  have hrkey : r.idempotencyKey = some key := by
    rwa [hr, Option.bind_some] at hkey
  -- the stored record carries the key of the request
  obtain ⟨x, hx, d, hd, hdkey, hseq⟩ : ∃ x ∈ ((Recorded.empty.step hashingConfig
        keyedEnqueue).store.stored.streams.map (expireStream ⟨0, by decide⟩
          hashingConfig.retentionMs)).map
            (compactStream hashingConfig.terminalReplayWindow),
      ∃ d ∈ x.deliveries, d.idempotencyKey
          = keyedEnqueue.op.request?.bind (·.idempotencyKey) ∧ d.seq = 1 := by
    decide +kernel
  obtain ⟨o, ho, -, -, -, -, -, hreplay⟩ := (idempotency_sound hashingConfig _ _
    hrun).2.2 keyedEnqueue r key _ _ x d hr hjson hrkey rfl hx hd (hdkey.trans hkey)
  have hrequest : o.request = r := by
    rcases List.mem_append.1 ho with hlog | hnil
    · exact Option.some.inj ((Call.request_of_mem_logs hlog).symm.trans hr)
    · exact absurd hnil List.not_mem_nil
  obtain ⟨-, hvalid, hwf⟩ := keyedEnqueue.request_spec hr hjson
  have hsame : SameContract o.request r := by
    rw [hrequest]
    exact ⟨rfl, rfl, Json.same_of_canonicalize_eq _ hwf rfl, rfl, fun _ => Iff.rfl⟩
  refine ⟨r, d, _, hr, by rw [hrkey]; rfl, hseq, (hreplay ?_).1 hsame⟩
  rw [hrequest]
  intro a ha b hb _
  simp only [List.mem_cons, List.not_mem_nil, or_false, or_self] at ha hb
  rw [ha, hb]

end OperatorRuntime.Relay
