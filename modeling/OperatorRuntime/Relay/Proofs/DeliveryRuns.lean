/-
The delivery store over whole runs: every reachable state satisfies the
stream invariant, sequences only grow and are handed out once, and the
validation inside `#write` has nothing to report on what an operation
produced.

`Answered` says once what an operation does: it settles and drops records
stream by stream (`Settles`), it scrubs one stream, or it maintains and
appends one record (`Grows`).
-/
import OperatorRuntime.Lib.Pointwise
import OperatorRuntime.Relay.Proofs.DeliveryValidation

namespace OperatorRuntime.Relay

open Lib

-- ===== state moves

def DeviceDeliveryStream.ids (s : DeviceDeliveryStream) : List Uuid :=
  s.deliveries.map (·.id)

/-- Stream by stream, nothing but settling and dropping records. -/
structure StateKeeps (st st' : RelayDeliveryState) : Prop where
  forward : ∀ s ∈ st.streams, ∃ t ∈ st'.streams, Keeps s t
  backward : ∀ t ∈ st'.streams, ∃ s ∈ st.streams, Keeps s t

/-- A move that may also assign the sequences `new` to one delivery with
the given id. -/
structure Grows (id : Uuid) (new : List (Uuid × Nat))
    (st st' : RelayDeliveryState) : Prop where
  mono : ∀ s ∈ st.streams, ∃ t ∈ st'.streams, t.deviceId = s.deviceId ∧ s.nextSeq ≤ t.nextSeq
  single : new.length ≤ 1
  unassigned : ∀ p ∈ new, ∀ s ∈ st.streams, s.deviceId = p.1 → s.nextSeq ≤ p.2
  assigned : ∀ p ∈ new, ∃ t ∈ st'.streams, t.deviceId = p.1 ∧ p.2 < t.nextSeq
  ids : ∀ t ∈ st'.streams, ∃ base : List Uuid, (base = [] ∨ ∃ s ∈ st.streams, base.Sublist s.ids)
      ∧ (t.ids = base ∨ t.ids = base ++ [id])

section
variable {st st' st'' : RelayDeliveryState}

theorem StateKeeps.grows (h : StateKeeps st st') (id : Uuid) : Grows id [] st st' where
  mono := by
    intro s hs
    obtain ⟨t, ht, hst⟩ := h.forward s hs
    exact ⟨t, ht, hst.deviceId, hst.nextSeq.ge⟩
  single := Nat.zero_le _
  unassigned := by simp
  assigned := by simp
  ids := by
    intro t ht
    obtain ⟨s, hs, hst⟩ := h.backward t ht
    exact ⟨t.ids, .inr ⟨s, hs, hst.ids⟩, .inl rfl⟩

theorem Grows.after {id : Uuid} {new : List (Uuid × Nat)}
    (h : StateKeeps st st') (hgrows : Grows id new st' st'') :
    Grows id new st st'' where
  mono := by
    intro s hs
    obtain ⟨t, ht, hst⟩ := h.forward s hs
    obtain ⟨u, hu, hdevice, hle⟩ := hgrows.mono t ht
    exact ⟨u, hu, hdevice.trans hst.deviceId, by rw [← hst.nextSeq]; exact hle⟩
  single := hgrows.single
  unassigned := by
    intro p hp s hs hdevice
    obtain ⟨t, ht, hst⟩ := h.forward s hs
    rw [← hst.nextSeq]
    exact hgrows.unassigned p hp t ht (hst.deviceId.trans hdevice)
  assigned := hgrows.assigned
  ids := by
    intro u hu
    obtain ⟨base, hbase, hids⟩ := hgrows.ids u hu
    refine ⟨base, ?_, hids⟩
    rcases hbase with hnil | ⟨t, ht, hsub⟩
    · exact .inl hnil
    · obtain ⟨s, hs, hst⟩ := h.backward t ht
      exact .inr ⟨s, hs, hsub.trans hst.ids⟩

end

-- === writes on whole states

section
variable {cfg : StoreConfig} {st st' : RelayDeliveryState}

/-- Stream by stream, writes that acknowledge what `acks` names. -/
def Settles (acks : Uuid → List Nat) (st st' : RelayDeliveryState) : Prop :=
  List.Forall₂ (fun s t => Writes (acks s.deviceId) s t) st.streams st'.streams

/-- No acknowledgement for any device. -/
def noAcks : Uuid → List Nat := fun _ => []

section
variable {acks : Uuid → List Nat}

theorem Settles.refl (st : RelayDeliveryState) : Settles noAcks st st :=
  List.forall₂_same.2 fun s _ => Writes.refl s

theorem Settles.after {m : RelayDeliveryState} (h : Settles noAcks st m)
    (h' : Settles acks m st') : Settles acks st st' := by
  refine forall₂_comp ?_ h h'
  intro s t u hst htu
  rw [hst.keeps.deviceId] at htu
  exact hst.trans htu

theorem Settles.keeps (h : Settles acks st st') : StateKeeps st st' := by
  constructor
  · intro s hs
    obtain ⟨t, ht, hwrites⟩ := exists_right_of_forall₂ h hs
    exact ⟨t, ht, hwrites.keeps⟩
  · intro t ht
    obtain ⟨s, hs, hwrites⟩ := exists_left_of_forall₂ h ht
    exact ⟨s, hs, hwrites.keeps⟩

theorem StateInv.settles (h : StateInv cfg st) (hsettles : Settles acks st st') :
    StateInv cfg st' := by
  constructor
  · have hids : st.streams.map (·.deviceId) = st'.streams.map (·.deviceId) := by
      rw [← List.forall₂_eq_eq_eq, List.forall₂_map_left_iff, List.forall₂_map_right_iff]
      exact hsettles.imp fun s t hwrites => hwrites.keeps.deviceId.symm
    rw [← hids]
    exact h.devices
  · rw [← hsettles.length_eq]
    exact h.bounded
  · intro t ht
    obtain ⟨s, hs, hwrites⟩ := exists_left_of_forall₂ hsettles ht
    exact (h.streams s hs).writes hwrites

theorem maintain_settles {reading : ClockReading} {n : Nat}
    (hok : maintain cfg reading st = .ok (n, st')) : Settles noAcks st st' := by
  rw [maintain] at hok
  obtain ⟨now, _, hok⟩ := bind_eq_ok.1 hok
  cases hok
  rw [Settles, List.map_map]
  exact forall₂_map_self fun s _ => (expireStream_writes _ _ s).trans
    (compactStream_writes _ _).1

end

variable {deviceId : Uuid}

theorem StateInv.findStream_unique (h : StateInv cfg st) {s t : DeviceDeliveryStream}
    (hfind : st.findStream deviceId = some s) (ht : t ∈ st.streams)
    (hdevice : t.deviceId = deviceId) : t = s := by
  have hs := List.mem_of_find?_eq_some hfind
  have hsd : s.deviceId = deviceId := by simpa using List.find?_some hfind
  exact List.inj_on_of_nodup_map h.devices ht hs (hdevice.trans hsd.symm)

theorem StateInv.findStream_of_mem (h : StateInv cfg st)
    {s : DeviceDeliveryStream} (hs : s ∈ st.streams) : st.findStream s.deviceId = some s := by
  cases hfind : st.findStream s.deviceId with
  | none =>
    have hno := List.find?_eq_none.1 hfind s hs
    simp at hno
  | some t => rw [h.findStream_unique hfind hs rfl]

theorem StateInv.mem_setStream (h : StateInv cfg st) {t x : DeviceDeliveryStream}
    (hx : x ∈ (st.setStream deviceId t).streams) :
    x = t ∨ (x ∈ st.streams ∧ x.deviceId ≠ deviceId) := by
  rcases mem_updateFirst_key h.devices hx with hold | ⟨_, _, _, rfl⟩
  · exact .inr hold
  · exact .inl rfl

theorem StateInv.setStream (h : StateInv cfg st) {s t : DeviceDeliveryStream}
    (hfind : st.findStream deviceId = some s) (ht : StreamInv cfg t)
    (hdevice : t.deviceId = s.deviceId) : StateInv cfg (st.setStream deviceId t) := by
  have hsd : s.deviceId = deviceId := by simpa using List.find?_some hfind
  constructor
  · have hids : (st.setStream deviceId t).streams.map (·.deviceId)
        = st.streams.map (·.deviceId) := by
      apply map_updateFirst
      intro a ha
      rw [hdevice, hsd]
      simpa using (beq_iff_eq.1 ha).symm
    rw [hids]
    exact h.devices
  · rw [RelayDeliveryState.setStream, length_updateFirst]
    exact h.bounded
  · intro x hx
    rcases h.mem_setStream hx with rfl | ⟨hold, _⟩
    · exact ht
    · exact h.streams x hold

theorem StateInv.setStream_forward (h : StateInv cfg st) {s t u : DeviceDeliveryStream}
    (hfind : st.findStream deviceId = some s) (hu : u ∈ st.streams) :
    u ∈ (st.setStream deviceId t).streams ∨ (u = s ∧ t ∈ (st.setStream deviceId t).streams) := by
  by_cases hdevice : u.deviceId = deviceId
  · refine .inr ⟨h.findStream_unique hfind hu hdevice, ?_⟩
    exact mem_updateFirst_of_find? (f := fun _ => t) hfind
  · exact .inl (mem_updateFirst_of_not hu (by simpa using hdevice))

theorem StateInv.setStream_keeps (h : StateInv cfg st) {s t : DeviceDeliveryStream}
    (hfind : st.findStream deviceId = some s) (ht : StreamInv cfg t) (hkeeps : Keeps s t) :
    StateInv cfg (st.setStream deviceId t) ∧ StateKeeps st (st.setStream deviceId t) := by
  refine ⟨h.setStream hfind ht hkeeps.deviceId, ?_, ?_⟩
  · intro u hu
    rcases h.setStream_forward (t := t) hfind hu with hold | ⟨rfl, hnew⟩
    · exact ⟨u, hold, Keeps.refl u⟩
    · exact ⟨t, hnew, hkeeps⟩
  · intro x hx
    rcases h.mem_setStream hx with rfl | ⟨hold, _⟩
    · exact ⟨s, List.mem_of_find?_eq_some hfind, hkeeps⟩
    · exact ⟨x, hold, Keeps.refl x⟩

theorem StateInv.setStream_settles (h : StateInv cfg st) {s t : DeviceDeliveryStream}
    {acks : Uuid → List Nat} (hfind : st.findStream deviceId = some s)
    (hwrites : Writes (acks deviceId) s t) (hother : ∀ other, other ≠ deviceId → acks other = []) :
    Settles acks st (st.setStream deviceId t) := by
  rw [Settles, RelayDeliveryState.setStream, updateFirst_eq_map h.devices]
  refine forall₂_map_self ?_
  intro a ha
  by_cases hdevice : a.deviceId = deviceId
  · rw [if_pos hdevice, hdevice, h.findStream_unique hfind ha hdevice]
    exact hwrites
  · rw [if_neg hdevice, hother _ hdevice]
    exact Writes.refl a

-- ===== enqueue

/-- What argument validation promises about a request. -/
structure EnqueueRequest.Valid (r : EnqueueRequest) : Prop where
  payload : (Json.obj r.payload).stringify.utf8ByteSize ≤ maxPayloadBytes
  authority : ∀ a ∈ r.authority, a.deviceId = r.deviceId
  capabilities :
    safeRequiredCapabilities r.requiredCapabilities = .ok r.requiredCapabilities

theorem authority_of_safeAuthority {input : Option AuthorityInput}
    {authority : Option RelayDeliveryAuthority}
    (h : input.mapM (safeAuthority · deviceId) = .ok authority) :
    ∀ a ∈ authority, a.deviceId = deviceId := by
  cases input with
  | none =>
    cases h
    simp
  | some i =>
    rw [Option.mapM_some] at h
    obtain ⟨a, ha, h⟩ := bind_eq_ok.1 h
    cases h
    rw [safeAuthority] at ha
    obtain ⟨_, _, ha⟩ := bind_eq_ok.1 ha
    obtain ⟨_, _, ha⟩ := bind_eq_ok.1 ha
    obtain ⟨_, hbound, ha⟩ := bind_eq_ok.1 ha
    obtain ⟨_, _, ha⟩ := bind_eq_ok.1 ha
    cases ha
    rw [rejectIf_eq_ok, not_not] at hbound
    rintro b ⟨⟩
    exact hbound

variable {r : EnqueueRequest}

theorem enqueueRequest_valid {deviceId kind : String} {payload : Json}
    {authority : Option AuthorityInput} {idempotencyKey : Option String} {caps : List String}
    (h : enqueueRequest deviceId kind payload authority idempotencyKey caps = .ok r) : r.Valid := by
  rw [enqueueRequest] at h
  obtain ⟨_, _, h⟩ := bind_eq_ok.1 h
  obtain ⟨_, _, h⟩ := bind_eq_ok.1 h
  obtain ⟨_, hpayload, h⟩ := bind_eq_ok.1 h
  obtain ⟨_, hauthority, h⟩ := bind_eq_ok.1 h
  obtain ⟨_, _, h⟩ := bind_eq_ok.1 h
  obtain ⟨_, hcaps, h⟩ := bind_eq_ok.1 h
  cases h
  exact ⟨safePayload_size hpayload, authority_of_safeAuthority hauthority,
    safeRequiredCapabilities_idem hcaps⟩

theorem EnqueueRequest.Valid.delivery (h : r.Valid) (seq : Nat) (id : Uuid) (createdAt : Instant) :
    DeliveryInv cfg r.deviceId (r.delivery cfg seq id createdAt) where
  payload := h.payload
  authority := h.authority
  replayAuthority := by simp [EnqueueRequest.delivery]
  digest_key := by
    simp [EnqueueRequest.delivery, EnqueueRequest.contractDigest]
  released_key := by simp [EnqueueRequest.delivery]
  capabilities := by
    rintro caps ⟨⟩
    exact h.capabilities
  live := by
    intro _
    refine ⟨r.requiredCapabilities, rfl, ?_, rfl, rfl, rfl⟩
    intro hkey
    obtain ⟨key, hkey⟩ := Option.isSome_iff_exists.1 hkey
    simp only [EnqueueRequest.delivery] at hkey
    simp [EnqueueRequest.delivery, EnqueueRequest.contractDigest, hkey]
  acked := by simp [EnqueueRequest.delivery]
  expired := by simp [EnqueueRequest.delivery]
  terminal := by simp [EnqueueRequest.delivery]

theorem StateInv.updateExisting (h : StateInv cfg st) (key : Hex64) (digest : Option Hex64) :
    updateExisting key (upgradeDigest digest) st = st := by
  rw [Relay.updateExisting, updateFirst_eq_self]
  intro s hs _
  have hsame : updateFirst (holdsKey key) (upgradeDigest digest) s.deliveries = s.deliveries :=
    updateFirst_eq_self fun d hd hkey =>
      ((h.streams s hs).records d hd).upgrade hkey digest
  rw [hsame]

theorem StateInv.getOrCreateStream (h : StateInv cfg st) {stream : DeviceDeliveryStream}
    (hok : getOrCreateStream st deviceId = .ok (stream, st')) :
    StateInv cfg st' ∧ stream ∈ st'.streams ∧ stream.deviceId = deviceId
    ∧ (st' = st ∨ st'.streams.Perm (newStream deviceId :: st.streams)) := by
  rw [Relay.getOrCreateStream.eq_def] at hok
  split at hok
  · next hfind =>
    cases hok
    exact ⟨h, List.mem_of_find?_eq_some hfind, by
      simpa using List.find?_some hfind, .inl rfl⟩
  · next hnone =>
    split at hok
    · exact absurd hok fail_ne_ok
    · next hroom =>
      cases hok
      have hperm : ((st.streams ++ [newStream deviceId]).insertionSort
          fun a b => a.deviceId.le b.deviceId).Perm
            (newStream deviceId :: st.streams) :=
        (List.perm_insertionSort _ _).trans (List.perm_append_singleton _ _)
      refine ⟨?_, hperm.mem_iff.2 (List.mem_cons_self ..), rfl, .inr hperm⟩
      constructor
      · rw [(hperm.map (·.deviceId)).nodup_iff, List.map_cons, List.nodup_cons]
        refine ⟨?_, h.devices⟩
        intro hin
        obtain ⟨s, hs, hdevice⟩ := List.mem_map.1 hin
        have hother := List.find?_eq_none.1 hnone s hs
        simp [hdevice, newStream] at hother
      · rw [hperm.length_eq, List.length_cons]
        exact Nat.lt_of_not_le hroom
      · intro s hs
        rcases List.mem_cons.1 (hperm.mem_iff.1 hs) with rfl | hold
        · exact StreamInv.new deviceId
        · exact h.streams s hold

theorem StateInv.appendDelivery (h : StateInv cfg st) {clock : CallClock} {id : Uuid}
    (hr : r.Valid) {d : StoredRelayDelivery}
    (hok : appendDelivery cfg clock id r st = .ok (d, st')) :
    StateInv cfg st' ∧ Grows id [(r.deviceId, d.seq)] st st' := by
  rw [Relay.appendDelivery] at hok
  obtain ⟨⟨stream, st₁⟩, hcreate, hok⟩ := bind_eq_ok.1 hok
  obtain ⟨h₁, hmem, hdevice, hstreams⟩ := h.getOrCreateStream hcreate
  obtain ⟨_, hroom, hok⟩ := bind_eq_ok.1 hok
  obtain ⟨createdAt, _, hok⟩ := bind_eq_ok.1 hok
  cases hok
  rw [rejectIf_eq_ok, Nat.not_le] at hroom
  have hfind := h₁.findStream_of_mem hmem
  rw [hdevice] at hfind
  have hpush : StreamInv cfg (stream.push (r.delivery cfg stream.nextSeq id createdAt)) :=
    (h₁.streams stream hmem).push hroom rfl rfl
      (by rw [hdevice]; exact hr.delivery _ _ _)
  -- A stream of the old state is still there before the append, and the
  -- ids before the append come from the old state or are none.
  have hforward : ∀ s ∈ st.streams, s ∈ st₁.streams := by
    rcases hstreams with rfl | hperm
    · exact fun _ hs => hs
    · exact fun s hs => hperm.mem_iff.2 (List.mem_cons_of_mem _ hs)
  have hbackward : ∀ t ∈ st₁.streams, t.ids = [] ∨ ∃ s ∈ st.streams, t.ids.Sublist s.ids := by
    rcases hstreams with rfl | hperm
    · exact fun t ht => .inr ⟨t, ht, List.Sublist.refl _⟩
    · intro t ht
      rcases List.mem_cons.1 (hperm.mem_iff.1 ht) with rfl | hold
      · exact .inl rfl
      · exact .inr ⟨t, hold, List.Sublist.refl _⟩
  refine ⟨h₁.setStream hfind hpush rfl, ?_, Nat.le_refl _, ?_, ?_, ?_⟩
  · intro s hs
    rcases h₁.setStream_forward hfind (hforward s hs) with hold | ⟨rfl, hnew⟩
    · exact ⟨s, hold, rfl, Nat.le_refl _⟩
    · exact ⟨_, hnew, rfl, Nat.le_succ _⟩
  · rintro p hp s hs hsd
    obtain rfl := List.mem_singleton.1 hp
    rw [h₁.findStream_unique hfind (hforward s hs) hsd]
    exact Nat.le_refl _
  · intro p hp
    obtain rfl := List.mem_singleton.1 hp
    exact ⟨_, mem_updateFirst_of_find? (f := fun _ => _) hfind, hdevice, Nat.lt_succ_self _⟩
  · intro t ht
    rcases h₁.mem_setStream ht with rfl | ⟨hold, _⟩
    · refine ⟨stream.ids, hbackward stream hmem, .inr ?_⟩
      simp [DeviceDeliveryStream.ids, DeviceDeliveryStream.push, EnqueueRequest.delivery]
    · exact ⟨t.ids, hbackward t hold, .inl rfl⟩

-- ===== one operation

/-- The validated request of an operation, where it is an enqueue. -/
def Operation.request? : Operation → Option EnqueueRequest
  | .enqueue deviceId kind payload authority idempotencyKey caps =>
    (enqueueRequest deviceId kind payload authority idempotencyKey caps).toOption
  | _ => none

/-- The device whose cursor an operation may acknowledge up to. -/
def Operation.acknowledging? : Operation → Option Uuid
  | .acknowledge deviceId .. | .reconcileClientCursor deviceId .. =>
    (validUuid deviceId "deviceId").toOption
  | _ => none

/-- The sequences of a device that an answer acknowledges. -/
def Operation.acks (op : Operation) (result : CallResult) (deviceId : Uuid) : List Nat :=
  if op.acknowledging? = some deviceId then result.acks else []

def purgedStream (cfg : StoreConfig) (at' : Instant) (s : DeviceDeliveryStream) :
    DeviceDeliveryStream :=
  compactStream cfg.terminalReplayWindow { s with
    deliveries := s.deliveries.map (scrubDelivery at')
    lastAckedSeq := s.nextSeq - 1 }

/-- What an answered operation did to the state it read. -/
inductive Answered (cfg : StoreConfig) (clock : CallClock) (id : Uuid)
    (op : Operation) (st st' : RelayDeliveryState) (result : CallResult) : Prop
  | settled (assigns : result.assigns = [])
      (known : ∀ deviceId, op.acks result deviceId ≠ [] → ∃ s ∈ st.streams, s.deviceId = deviceId)
      (settles : Settles (op.acks result) st st')
  | purged {name : String} {deviceId : Uuid} {s : DeviceDeliveryStream}
      {at' : Instant} {n : Nat} (call : op = .purgeDevice name)
      (answer : result = .count n) (find : st.findStream deviceId = some s)
      (state : st' = st.setStream deviceId (purgedStream cfg at' s))
  | appended {r : EnqueueRequest} {m : RelayDeliveryState}
      {d : StoredRelayDelivery} (request : op.request? = some r)
      (answer : result = .enqueued r.deviceId d) (settles : Settles noAcks st m)
      (free : ∀ key ∈ r.idempotencyKey, findExisting key m = none)
      (append : appendDelivery cfg clock id r m = .ok (d, st'))

section
variable {clock : CallClock} {id : Uuid} {op : Operation} {result : CallResult}

theorem Operation.acks_eq_noAcks (op : Operation) (result : CallResult)
    (h : op.acknowledging? = none ∨ result.acks = []) : op.acks result = noAcks := by
  funext deviceId
  rw [Operation.acks, noAcks]
  rcases h with hnone | hnil
  · rw [hnone, if_neg (by simp)]
  · rw [hnil, ite_self]

theorem Answered.quiet {m : RelayDeliveryState} (hassigns : result.assigns = [])
    (hnone : op.acknowledging? = none ∨ result.acks = [])
    (hsettles : Settles noAcks st m) : Answered cfg clock id op st m result := by
  have hacks := op.acks_eq_noAcks result hnone
  refine .settled hassigns ?_ (hacks ▸ hsettles)
  intro deviceId hne
  exact absurd (congrFun hacks deviceId) hne

theorem query_answered {reading : ClockReading}
    {f : Nat × RelayDeliveryState →
      Result (CallResult × RelayDeliveryState)}
    (hnone : op.acknowledging? = none)
    (hf : ∀ {p : Nat × RelayDeliveryState} {result st'},
      f p = .ok (result, st') → result.assigns = [] ∧ st' = p.2)
    (hok : (maintain cfg reading st >>= f) = .ok (result, st')) :
    Answered cfg clock id op st st' result := by
  obtain ⟨p, hmaintain, hok⟩ := bind_eq_ok.1 hok
  obtain ⟨hassigns, rfl⟩ := hf hok
  exact .quiet hassigns (.inl hnone) (maintain_settles hmaintain)

theorem Answered.written {m : RelayDeliveryState} {s t : DeviceDeliveryStream}
    (hst : StateInv cfg st) (hdevice : op.acknowledging? = some deviceId)
    (hmaintain : Settles noAcks st m) (hfind : m.findStream deviceId = some s)
    (hassigns : result.assigns = []) (hwrites : Writes result.acks s t) :
    Answered cfg clock id op st (m.setStream deviceId t) result := by
  have hother : ∀ other, other ≠ deviceId → op.acks result other = [] := by
    intro other hne
    rw [Operation.acks, hdevice, if_neg]
    exact fun heq => hne (Option.some.inj heq).symm
  refine .settled hassigns ?_ (hmaintain.after
    ((hst.settles hmaintain).setStream_settles hfind ?_ hother))
  · intro other hne
    obtain rfl : other = deviceId := by_contra fun h => hne (hother other h)
    obtain ⟨a, ha, hkeeps⟩ :=
      hmaintain.keeps.backward s (List.mem_of_find?_eq_some hfind)
    exact ⟨a, ha, hkeeps.deviceId.symm.trans (by simpa using List.find?_some hfind)⟩
  · rw [Operation.acks, if_pos hdevice]
    exact hwrites

theorem enqueue_answered {r : EnqueueRequest} (hst : StateInv cfg st)
    (hr : op.request? = some r) (hnone : op.acknowledging? = none)
    (hok : enqueue cfg clock id r st = .ok (result, st')) :
    Answered cfg clock id op st st' result := by
  rw [enqueue] at hok
  obtain ⟨⟨n, m⟩, hmaintain, hok⟩ := bind_eq_ok.1 hok
  have hsettles := maintain_settles hmaintain
  simp only at hok
  split at hok
  · obtain ⟨_, _, hok⟩ := bind_eq_ok.1 hok
    cases hok
    rw [(hst.settles hsettles).updateExisting]
    exact .quiet rfl (.inl hnone) hsettles
  · next hfree =>
    obtain ⟨⟨d, st₂⟩, happend, hok⟩ := bind_eq_ok.1 hok
    cases hok
    refine .appended hr rfl hsettles ?_ happend
    intro key hkey
    rw [Option.mem_def.1 hkey, Option.bind_some, Option.map_eq_none_iff] at hfree
    exact hfree

theorem acknowledge_answered {seq : Nat} {deliveryId : Uuid} (hst : StateInv cfg st)
    (hdevice : op.acknowledging? = some deviceId)
    (hok : acknowledge cfg clock deviceId seq deliveryId st = .ok (result, st')) :
    Answered cfg clock id op st st' result := by
  rw [acknowledge] at hok
  obtain ⟨⟨n, m⟩, hmaintain, hok⟩ := bind_eq_ok.1 hok
  have hsettles := maintain_settles hmaintain
  simp only at hok
  split at hok
  · exact absurd hok fail_ne_ok
  · next s hfind =>
    obtain ⟨⟨answer, t⟩, hack, hok⟩ := bind_eq_ok.1 hok
    cases hok
    obtain ⟨hassigns, hwrites, -⟩ := acknowledgeStream_writes hack
    exact .written hst hdevice hsettles hfind hassigns hwrites

theorem reconcileClientCursor_answered {clientSeq : Nat} (hst : StateInv cfg st)
    (hdevice : op.acknowledging? = some deviceId)
    (hok : reconcileClientCursor cfg clock deviceId clientSeq st
      = .ok (result, st')) : Answered cfg clock id op st st' result := by
  rw [reconcileClientCursor] at hok
  obtain ⟨⟨n, m⟩, hmaintain, hok⟩ := bind_eq_ok.1 hok
  have hsettles := maintain_settles hmaintain
  simp only at hok
  split at hok
  · split at hok
    · cases hok
      exact .quiet rfl (.inr rfl) hsettles
    · exact absurd hok fail_ne_ok
  · next s hfind =>
    obtain ⟨⟨answer, t⟩, hreconcile, hok⟩ := bind_eq_ok.1 hok
    cases hok
    obtain ⟨hassigns, hwrites, -⟩ := reconcileStream_writes hreconcile
    exact .written hst hdevice hsettles hfind hassigns hwrites

theorem expireUnroutableHeads_answered {supported : List String} {canCommit : Bool}
    (hst : StateInv cfg st) (hnone : op.acknowledging? = none)
    (hok : expireUnroutableHeads cfg clock deviceId supported canCommit st
      = .ok (result, st')) : Answered cfg clock id op st st' result := by
  rw [expireUnroutableHeads] at hok
  obtain ⟨⟨n, m⟩, hmaintain, hok⟩ := bind_eq_ok.1 hok
  have hsettles := maintain_settles hmaintain
  simp only at hok
  split at hok
  · cases hok
    exact .quiet rfl (.inl hnone) hsettles
  · next s hfind =>
    split at hok
    · obtain ⟨at', _, hok⟩ := bind_eq_ok.1 hok
      cases hok
      exact .quiet rfl (.inl hnone) (hsettles.after
        ((hst.settles hsettles).setStream_settles hfind
          ((expireUnroutable_writes _ _ _ s).trans (compactStream_writes _ _).1)
          fun _ _ => rfl))
    · cases hok
      exact .quiet rfl (.inl hnone) hsettles

theorem operation_answered {mutator : Mutator}
    (h : op.mutator cfg clock id = .ok mutator) (hst : StateInv cfg st)
    (hok : mutator st = .ok (result, st')) :
    Answered cfg clock id op st st' result := by
  cases op with
  | enqueue =>
    obtain ⟨r, hr, h⟩ := bind_eq_ok.1 h
    cases h
    exact enqueue_answered hst (by rw [Operation.request?, hr]; rfl) rfl hok
  | findIdempotent =>
    obtain ⟨_, _, h⟩ := bind_eq_ok.1 h
    cases h
    refine query_answered rfl ?_ hok
    intro p result st' hp
    obtain ⟨_, _, hp⟩ := bind_eq_ok.1 hp
    cases hp
    exact ⟨rfl, rfl⟩
  | retained =>
    obtain ⟨_, _, h⟩ := bind_eq_ok.1 h
    obtain ⟨_, _, h⟩ := bind_eq_ok.1 h
    cases h
    refine query_answered rfl ?_ hok
    intro p result st' hp
    cases hp
    exact ⟨rfl, rfl⟩
  | pending =>
    obtain ⟨_, _, h⟩ := bind_eq_ok.1 h
    obtain ⟨_, _, h⟩ := bind_eq_ok.1 h
    cases h
    refine query_answered rfl ?_ hok
    intro p result st' hp
    simp only at hp
    split at hp
    · cases hp
      exact ⟨rfl, rfl⟩
    · cases hp
      exact ⟨rfl, rfl⟩
  | cursor =>
    obtain ⟨_, _, h⟩ := bind_eq_ok.1 h
    cases h
    refine query_answered rfl ?_ hok
    intro p result st' hp
    simp only at hp
    split at hp
    · cases hp
      exact ⟨rfl, rfl⟩
    · cases hp
      exact ⟨rfl, rfl⟩
  | acknowledge =>
    obtain ⟨_, hdevice, h⟩ := bind_eq_ok.1 h
    obtain ⟨_, _, h⟩ := bind_eq_ok.1 h
    obtain ⟨_, _, h⟩ := bind_eq_ok.1 h
    cases h
    exact acknowledge_answered hst
      (by rw [Operation.acknowledging?, hdevice]; rfl) hok
  | reconcileClientCursor =>
    obtain ⟨_, hdevice, h⟩ := bind_eq_ok.1 h
    obtain ⟨_, _, h⟩ := bind_eq_ok.1 h
    cases h
    exact reconcileClientCursor_answered hst
      (by rw [Operation.acknowledging?, hdevice]; rfl) hok
  | expireUnroutableHeads =>
    obtain ⟨_, _, h⟩ := bind_eq_ok.1 h
    obtain ⟨_, _, h⟩ := bind_eq_ok.1 h
    cases h
    exact expireUnroutableHeads_answered hst rfl hok
  | expirePending =>
    cases h
    refine query_answered rfl ?_ hok
    intro p result st' hp
    cases hp
    exact ⟨rfl, rfl⟩
  | purgeDevice =>
    obtain ⟨_, _, h⟩ := bind_eq_ok.1 h
    cases h
    rw [purgeDevice] at hok
    split at hok
    · cases hok
      exact .quiet rfl (.inl rfl) (Settles.refl _)
    · next hfind =>
      obtain ⟨at', _, hok⟩ := bind_eq_ok.1 hok
      cases hok
      exact .purged rfl rfl hfind rfl

/-- What an operation's mutator may do to a state of the invariant. -/
def MutatorSpec (cfg : StoreConfig) (id : Uuid) (mutator : Mutator) : Prop :=
  ∀ {st st' : RelayDeliveryState} {result : CallResult},
    StateInv cfg st → mutator st = .ok (result, st') →
      StateInv cfg st' ∧ Grows id result.assigns st st'

theorem operation_spec {mutator : Mutator} (h : op.mutator cfg clock id = .ok mutator) :
    MutatorSpec cfg id mutator := by
  intro st st' result hst hok
  cases operation_answered h hst hok with
  | settled hassigns _ hsettles =>
    rw [hassigns]
    exact ⟨hst.settles hsettles, hsettles.keeps.grows id⟩
  | @purged _ _ s at' _ _ hanswer hfind hstate =>
    rw [hanswer, hstate]
    have hs := hst.streams s (List.mem_of_find?_eq_some hfind)
    obtain ⟨hscrub, hkeeps⟩ := hs.scrub at'
    have hcompact := (compactStream_writes cfg.terminalReplayWindow { s with
      deliveries := s.deliveries.map (scrubDelivery at')
      lastAckedSeq := s.nextSeq - 1 }).1
    obtain ⟨hinv, hkeeps⟩ := hst.setStream_keeps hfind (hscrub.writes hcompact)
      (hkeeps.trans hcompact.keeps)
    exact ⟨hinv, hkeeps.grows id⟩
  | @appended r m d hrequest hanswer hsettles _ happend =>
    have hvalid : r.Valid := by
      cases op with
      | enqueue =>
        obtain ⟨q, hq, -⟩ := bind_eq_ok.1 h
        rw [Operation.request?, hq] at hrequest
        cases hrequest
        exact enqueueRequest_valid hq
      | _ => cases hrequest
    obtain ⟨hinv, hgrows⟩ := (hst.settles hsettles).appendDelivery hvalid happend
    rw [hanswer]
    exact ⟨hinv, hgrows.after hsettles.keeps⟩

end

end

-- ===== whole runs

def storeSteps (cfg : StoreConfig) : Store → Call → Store → Prop :=
  fun s c t => t = s.step cfg c

/-- What a reachable store satisfies. -/
structure StoreInv (cfg : StoreConfig) (s : Store) : Prop where
  state : StateInv cfg s.stored
  accepted : Accepted s.stored
  assigned : ∀ p ∈ s.assigned, ∃ t ∈ s.stored.streams, t.deviceId = p.1 ∧ p.2 < t.nextSeq
  nodup : s.assigned.Nodup

/-- Streams stay and their next sequences do not decrease. -/
def NextSeqLe (s t : Store) : Prop :=
  ∀ a ∈ s.stored.streams, ∃ b ∈ t.stored.streams, b.deviceId = a.deviceId ∧ a.nextSeq ≤ b.nextSeq

/-- Every retained id was drawn by one of the calls. -/
def IdsDrawn (calls : List Call) (s : Store) : Prop :=
  ∀ t ∈ s.stored.streams, ∀ i ∈ t.ids, i ∈ calls.map (·.randomUUID)

theorem NextSeqLe.refl (s : Store) : NextSeqLe s s :=
  fun a ha => ⟨a, ha, rfl, Nat.le_refl _⟩

theorem NextSeqLe.trans {s t u : Store} (hst : NextSeqLe s t)
    (htu : NextSeqLe t u) : NextSeqLe s u := by
  intro a ha
  obtain ⟨b, hb, hba, hab⟩ := hst a ha
  obtain ⟨c, hc, hcb, hbc⟩ := htu b hb
  exact ⟨c, hc, hcb.trans hba, hab.trans hbc⟩

section
variable {cfg : StoreConfig} {s t : Store} {c : Call}

theorem StoreInv.empty : StoreInv cfg Store.empty where
  state := ⟨List.nodup_nil, Nat.zero_le _, by simp [Store.empty, RelayDeliveryState.empty]⟩
  accepted := by simp [Accepted, Store.empty, RelayDeliveryState.empty]
  assigned := by simp [Store.empty]
  nodup := List.nodup_nil

theorem StoreInv.run_ok (h : StoreInv cfg s) {result : CallResult} {state : RelayDeliveryState}
    (hok : c.run cfg s.stored = .ok (result, state)) :
    StateInv cfg state ∧ Accepted state ∧ Grows c.randomUUID result.assigns s.stored state
    ∧ Answered cfg c.clock c.randomUUID c.op s.stored state result := by
  rw [Call.run] at hok
  obtain ⟨mutator, hmutator, hok⟩ := bind_eq_ok.1 hok
  rw [mutate] at hok
  obtain ⟨read, hread, hok⟩ := bind_eq_ok.1 hok
  obtain ⟨⟨answer, state₁⟩, hmutate, hok⟩ := bind_eq_ok.1 hok
  obtain ⟨written, hwrite, hok⟩ := bind_eq_ok.1 hok
  cases hok
  obtain ⟨rfl, _⟩ := h.state.of_validateState hread
  obtain ⟨hstate, hgrows⟩ := operation_spec hmutator h.state hmutate
  obtain ⟨rfl, haccepted⟩ := hstate.of_validateState hwrite
  exact ⟨hstate, haccepted, hgrows, operation_answered hmutator h.state hmutate⟩

theorem step_cases (hstep : storeSteps cfg s c t) :
    t = s ∨ ∃ result state, c.run cfg s.stored = .ok (result, state)
    ∧ t = { stored := state, assigned := result.assigns ++ s.assigned } := by
  rw [storeSteps, Store.step] at hstep
  split at hstep
  · exact .inl hstep
  · next result state hrun =>
    split at hstep
    · exact .inr ⟨result, state, hrun, hstep⟩
    · exact .inl hstep

/-- One call of the store, by what it writes. -/
theorem StoreInv.step (h : StoreInv cfg s) (hstep : storeSteps cfg s c t) : StoreInv cfg t := by
  rcases step_cases hstep with rfl | ⟨result, state, hrun, rfl⟩
  · exact h
  obtain ⟨hstate, haccepted, hgrows, -⟩ := h.run_ok hrun
  refine ⟨hstate, haccepted, ?_, ?_⟩
  · intro p hp
    rcases List.mem_append.1 hp with hnew | hold
    · exact hgrows.assigned p hnew
    · obtain ⟨a, ha, hdevice, hlt⟩ := h.assigned p hold
      obtain ⟨b, hb, hba, hle⟩ := hgrows.mono a ha
      exact ⟨b, hb, hba.trans hdevice, Nat.lt_of_lt_of_le hlt hle⟩
  · rw [List.nodup_append]
    refine ⟨?_, h.nodup, ?_⟩
    · have hsingle := hgrows.single
      match result.assigns, hsingle with
      | [], _ => exact List.nodup_nil
      | [p], _ => exact List.nodup_singleton p
    -- A sequence handed out before lies below its stream's next sequence,
    -- one handed out now does not.
    · rintro p hnew q hold rfl
      obtain ⟨a, ha, hdevice, hlt⟩ := h.assigned p hold
      have hle := hgrows.unassigned p hnew a ha hdevice
      omega

theorem StoreInv.step_mono (h : StoreInv cfg s) (hstep : storeSteps cfg s c t) : NextSeqLe s t := by
  rcases step_cases hstep with rfl | ⟨result, state, hrun, rfl⟩
  · exact NextSeqLe.refl t
  · exact (h.run_ok hrun).2.2.1.mono

theorem Grows.mem_ids {id : Uuid} {new : List (Uuid × Nat)}
    {st st' : RelayDeliveryState} (h : Grows id new st st')
    {t : DeviceDeliveryStream} (ht : t ∈ st'.streams) {i : Uuid}
    (hi : i ∈ t.ids) : i = id ∨ ∃ s ∈ st.streams, i ∈ s.ids := by
  obtain ⟨base, hbase, hids⟩ := h.ids t ht
  have hmem : i ∈ base ∨ i = id := by
    rcases hids with heq | heq
    · exact .inl (heq ▸ hi)
    · rw [heq, List.mem_append, List.mem_singleton] at hi
      exact hi
  rcases hmem with hin | rfl
  · rcases hbase with rfl | ⟨s, hs, hsub⟩
    · cases hin
    · exact .inr ⟨s, hs, hsub.subset hin⟩
  · exact .inl rfl

theorem Grows.unique {id : Uuid} {new : List (Uuid × Nat)}
    {st st' : RelayDeliveryState} (h : Grows id new st st')
    (hunique : ∀ s ∈ st.streams, UniqueIds s)
    (hfresh : ∀ s ∈ st.streams, id ∉ s.ids) : ∀ t ∈ st'.streams, UniqueIds t := by
  intro t ht
  obtain ⟨base, hbase, hids⟩ := h.ids t ht
  have hnodup : base.Nodup ∧ id ∉ base := by
    rcases hbase with rfl | ⟨s, hs, hsub⟩
    · exact ⟨List.nodup_nil, List.not_mem_nil⟩
    · exact ⟨(hunique s hs).sublist hsub, fun hin => hfresh s hs (hsub.subset hin)⟩
  show t.ids.Nodup
  rcases hids with heq | heq
  · rw [heq]
    exact hnodup.1
  · rw [heq, List.nodup_append]
    refine ⟨hnodup.1, List.nodup_singleton _, ?_⟩
    rintro a ha b hb rfl
    exact hnodup.2 (List.mem_singleton.1 hb ▸ ha)

variable {calls : List Call}

theorem StoreInv.step_drawn (h : StoreInv cfg s) (hdrawn : IdsDrawn calls s)
    (hstep : storeSteps cfg s c t) : IdsDrawn (calls ++ [c]) t := by
  rw [IdsDrawn, List.map_append]
  rcases step_cases hstep with rfl | ⟨result, state, hrun, rfl⟩
  · exact fun a ha i hi => List.mem_append_left _ (hdrawn a ha i hi)
  · intro a ha i hi
    rcases (h.run_ok hrun).2.2.1.mem_ids ha hi with rfl | ⟨b, hb, hib⟩
    · exact List.mem_append_right _ (List.mem_singleton_self _)
    · exact List.mem_append_left _ (hdrawn b hb i hib)

theorem run_inv (hrun : Run (storeSteps cfg) Store.empty calls s) :
    StoreInv cfg s ∧ IdsDrawn calls s :=
  hrun.history (P := fun calls s => StoreInv cfg s ∧ IdsDrawn calls s)
    ⟨StoreInv.empty, by simp [IdsDrawn, Store.empty, RelayDeliveryState.empty]⟩
    fun h hstep => ⟨h.1.step hstep, h.1.step_drawn h.2 hstep⟩

theorem run_mono (h : StoreInv cfg s) (hrun : Run (storeSteps cfg) s calls t) : NextSeqLe s t :=
  (hrun.invariant (I := fun t => StoreInv cfg t ∧ NextSeqLe s t)
    ⟨h, NextSeqLe.refl s⟩ fun ht hstep =>
      ⟨ht.1.step hstep, ht.2.trans (ht.1.step_mono hstep)⟩).2

end

-- ===== the main result

/-- The shape of a stream between calls. -/
structure StreamShape (s : DeviceDeliveryStream) : Prop where
  retained : s.deliveries.map (·.seq) = List.range' s.baseSeq (s.nextSeq - s.baseSeq)
  terminal : ∀ d ∈ s.deliveries, d.seq ≤ s.lastAckedSeq → d.status = .acked ∨ d.status = .expired
  pending : ∀ d ∈ s.deliveries, s.lastAckedSeq < d.seq → d.status = .pending
  cursor : s.baseSeq - 1 ≤ s.lastAckedSeq ∧ s.lastAckedSeq < s.nextSeq
  window : 1 ≤ s.baseSeq ∧ s.baseSeq ≤ s.nextSeq
  compacted : s.highestCompactedAckedSeq < s.baseSeq

theorem StreamInv.shape {cfg : StoreConfig} {s : DeviceDeliveryStream}
    (h : StreamInv cfg s) : StreamShape s where
  retained := by
    rw [← h.window, Nat.add_sub_cancel_left]
    exact h.consecutive
  terminal := by
    intro d hd hle
    have hne := (h.settled d hd).1 hle
    cases hstatus : d.status with
    | pending => exact absurd hstatus hne
    | acked => exact .inl rfl
    | expired => exact .inr rfl
  pending := by
    intro d hd hlt
    by_contra hne
    have := (h.settled d hd).2 hne
    omega
  cursor := ⟨by have := h.base_le; omega, h.acked_lt⟩
  window := ⟨h.base_pos, by have := h.window; omega⟩
  compacted := h.compacted

/-- For every run of store calls from the empty state, with any arguments
and clock readings: every stream has its shape, no sequence of a device is
assigned twice, next sequences never decrease, and while `randomUUID` does
not repeat itself the validation in `#write` never finds the queue
corrupt. -/
theorem deliveryStore_run_sound (cfg : StoreConfig) (calls : List Call)
    (s : Store) (hrun : Run (storeSteps cfg) Store.empty calls s) :
    (∀ stream ∈ s.stored.streams, StreamShape stream) ∧ s.assigned.Nodup
    ∧ (∀ (later : List Call) (t : Store), Run (storeSteps cfg) s later t → NextSeqLe s t)
    ∧ ∀ (c : Call) (mutator : Mutator) (result : CallResult) (state : RelayDeliveryState),
        ((calls ++ [c]).map (·.randomUUID)).Nodup →
        c.op.mutator cfg c.clock c.randomUUID = .ok mutator →
        mutator s.stored = .ok (result, state) →
        ∀ e, validateState cfg state = .error e → e.code ≠ .relayQueueCorrupt := by
  obtain ⟨hinv, hdrawn⟩ := run_inv hrun
  refine ⟨fun stream hs => (hinv.state.streams stream hs).shape, hinv.nodup,
    fun later t hlater => run_mono hinv hlater, ?_⟩
  intro c mutator result state hdistinct hmutator hok e herror
  obtain ⟨hstate, hgrows⟩ := operation_spec hmutator hinv.state hok
  have hfresh : ∀ a ∈ s.stored.streams, c.randomUUID ∉ a.ids := by
    intro a ha hin
    rw [List.map_append, List.nodup_append] at hdistinct
    exact hdistinct.2.2 _ (hdrawn a ha _ hin) _ (by simp) rfl
  have hunique := hgrows.unique (fun a ha => (hinv.accepted a ha).1) hfresh
  rcases hstate.validateState_cases hunique with hsame | hfail
  · rw [hsame] at herror
    cases herror
  · rw [hfail] at herror
    cases herror
    simp

/-- A small store; the calls below carry no idempotency key, so nothing
is hashed. -/
def smallConfig : StoreConfig where
  retentionMs := 60000
  maxDeliveriesPerStream := 2
  terminalReplayWindow := 1
  sha256 := fun _ => ⟨String.ofList (List.replicate 64 '0'), zeros_hex64⟩
  retention_bounds := by decide
  deliveries_bounds := by decide
  window_bounds := by decide

/-- Enqueue an empty action for a device, then expire it a minute later. -/
def enqueueThenExpire : Call × Call :=
  ({ op := .enqueue "11111111-1111-4111-8111-111111111111" "action"
       (.obj []) none none []
     clock := fun _ => some ⟨0, zero_instant⟩
     randomUUID := twosUuid
     written := true },
   { op := .expirePending
     clock := fun _ => some ⟨60000, minute_instant⟩
     randomUUID := ⟨"33333333-3333-4333-8333-333333333333", threes_uuid⟩
     written := true })

/-- One delivery is enqueued and expires. -/
theorem deliveryStore_run_sound_enqueueThenExpire :
    (Store.empty.step smallConfig enqueueThenExpire.1).assigned.map (·.2) = [1] ∧ (∀ stream ∈
          (Store.empty.step smallConfig enqueueThenExpire.1).stored.streams, StreamShape stream)
      ∧ ∃ result state, expirePending smallConfig enqueueThenExpire.2.clock
              (Store.empty.step smallConfig enqueueThenExpire.1).stored = .ok (result, state)
          ∧ ∀ e, validateState smallConfig state = .error e → e.code ≠ .relayQueueCorrupt := by
  have hrun : Run (storeSteps smallConfig) Store.empty ([] ++ [enqueueThenExpire.1])
      (Store.empty.step smallConfig enqueueThenExpire.1) :=
    Run.snoc Run.nil rfl
  have hsound := deliveryStore_run_sound smallConfig _ _ hrun
  exact ⟨by decide +kernel, hsound.1, _, _, rfl,
    hsound.2.2.2 enqueueThenExpire.2 _ _ _ (by decide) rfl rfl⟩

end OperatorRuntime.Relay
