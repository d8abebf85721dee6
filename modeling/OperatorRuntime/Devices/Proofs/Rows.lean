/-
What the validator of the device registry keeps of a file and asks of it,
and what a turn of `#mutate` therefore leaves: the devices keep their
identity and status, no two of them share an identifier or a fingerprint,
and the challenges are left as they are.
-/
import OperatorRuntime.Devices.DeviceRegistry
import OperatorRuntime.Lib.Passes

namespace OperatorRuntime.DeviceRegistry

open Lib

-- ===== rows

/-- Two devices share neither their identifier nor their fingerprint. -/
def Apart (a b : RegisteredDevice) : Prop :=
  a.deviceId ≠ b.deviceId ∧ a.fingerprint ≠ b.fingerprint

/-- What the validator keeps of a device. -/
def RegisteredDevice.standing (device : RegisteredDevice) : Identity × DeviceStatus :=
  (device.identity, device.status)

/-- A challenge that is not consumed records no peer, and one that records
a peer records both its identifier and its fingerprint. -/
def Recorded (challenge : StoredChallenge) : Prop :=
  challenge.consumedAt = none → challenge.consumedPeerDeviceId = none

section
variable {crypto : Crypto}

theorem uuid_val (id : Uuid) : uuid? id.val = some id := by
  have hlower : id.val.map Char.toLower = id.val := by
    apply String.toList_injective
    rw [String.toList_map]
    exact uuid_toLower id
  rw [uuid?]
  simp only [hlower]
  rw [dif_pos id.property]
  rfl

theorem normalize_stored {peer peer' : PeerIdentity}
    (h : normalizePublicIdentity crypto peer.input = .ok peer') :
    peer'.identity = peer.identity := by
  rw [normalizePublicIdentity] at h
  simp only [bind_eq_ok, rejectIf_eq_ok, not_not, Except.ok.injEq] at h
  obtain ⟨deviceId, hid, _, _, _, _, _, _, _, hfingerprint, rfl⟩ := h
  have hsame : deviceId = peer.deviceId := by
    rw [validUuid, PeerIdentity.input, uuid_val] at hid
    exact (Except.ok.inj hid).symm
  show (deviceId, _) = (peer.deviceId, peer.fingerprint)
  rw [hsame, hfingerprint]
  rfl

@[simp] theorem corruptIf_eq_ok {bad : Prop} [Decidable bad] {message : String} {u : Unit} :
    corruptIf bad message = .ok u ↔ ¬ bad := rejectIf_eq_ok

theorem validateDevices_eq {seen rows rows' : List RegisteredDevice}
    (h : validateDevices crypto seen rows = .ok rows') :
    rows'.map (·.standing) = rows.map (·.standing) ∧ rows'.Pairwise Apart
    ∧ ∀ other ∈ seen, ∀ row ∈ rows', Apart other row := by
  induction rows generalizing seen rows' with
  | nil =>
    cases h
    exact ⟨rfl, List.Pairwise.nil, fun _ _ _ hin => (nomatch hin)⟩
  | cons raw rest ih =>
    rw [validateDevices] at h
    simp only [bind_eq_ok, corruptIf_eq_ok, Except.ok.injEq] at h
    obtain ⟨peer, hpeer, _, hnew, reason, _, _, _, devices, hdevices, rfl⟩ := h
    obtain ⟨hstanding, hapart, hseen⟩ := ih hdevices
    have hidentity := normalize_stored hpeer
    refine ⟨?_, List.pairwise_cons.2 ⟨hseen _ (List.mem_cons_self ..), hapart⟩, ?_⟩
    · rw [List.map_cons, List.map_cons, hstanding]
      show (peer.identity, raw.status) :: _ = (raw.toPeerIdentity.identity, raw.status) :: _
      rw [hidentity]
    · intro other hother row hrow
      rcases List.mem_cons.1 hrow with rfl | hrow
      · exact ⟨fun heq => hnew ⟨other, hother, .inl heq⟩,
          fun heq => hnew ⟨other, hother, .inr heq⟩⟩
      · exact hseen other (List.mem_cons_of_mem _ hother) row hrow

theorem validateChallenges_eq {seen rows : List StoredChallenge} {u : Unit}
    (h : validateChallenges seen rows = .ok u) :
    (∀ row ∈ rows, Recorded row) ∧ (rows.map (·.challengeId)).Nodup
    ∧ ∀ other ∈ seen, ∀ row ∈ rows, other.challengeId ≠ row.challengeId := by
  induction rows generalizing seen with
  | nil => exact ⟨fun _ hin => (nomatch hin), List.nodup_nil, fun _ _ _ hin => (nomatch hin)⟩
  | cons raw rest ih =>
    rw [validateChallenges] at h
    simp only [bind_eq_ok, corruptIf_eq_ok] at h
    obtain ⟨_, _, _, hnew, _, _, _, hauthority, hrest⟩ := h
    obtain ⟨hrecorded, hnodup, hseen⟩ := ih hrest
    refine ⟨List.forall_mem_cons.2 ⟨?_, hrecorded⟩, ?_, ?_⟩
    · intro hopen
      by_contra hsome
      exact hauthority (.inr ⟨hopen, hsome⟩)
    · rw [List.map_cons, List.nodup_cons]
      refine ⟨?_, hnodup⟩
      intro hin
      obtain ⟨row, hrow, heq⟩ := List.mem_map.1 hin
      exact hseen raw (List.mem_cons_self ..) row hrow heq.symm
    · intro other hother row hrow
      rcases List.mem_cons.1 hrow with rfl | hrow
      · exact fun heq => hnew ⟨other, hother, heq⟩
      · exact hseen other (List.mem_cons_of_mem _ hother) row hrow

-- ===== turns

/-- A file that passes the validator. -/
structure Accepted (state : RegistryState) : Prop where
  apart : state.devices.Pairwise Apart
  ids : (state.challenges.map (·.challengeId)).Nodup
  recorded : ∀ challenge ∈ state.challenges, Recorded challenge

theorem validateState_eq {state state' : RegistryState}
    (h : validateState crypto state = .ok state') :
    Accepted state' ∧ state'.challenges = state.challenges
    ∧ state'.devices.map (·.standing) = state.devices.map (·.standing) := by
  rw [validateState] at h
  simp only [bind_eq_ok, Except.ok.injEq] at h
  obtain ⟨_, _, devices, hdevices, _, hchallenges, rfl⟩ := h
  obtain ⟨hstanding, hapart, _⟩ := validateDevices_eq hdevices
  obtain ⟨hrecorded, hids, _⟩ := validateChallenges_eq hchallenges
  exact ⟨⟨hapart, hids, hrecorded⟩, rfl, hstanding⟩

theorem mutate_eq {α : Type} {env : Environment}
    {mutator : RegistryState → Result (RegistryState × α)}
    {stored written : RegistryState} {result : α}
    (h : mutate crypto env mutator stored = .ok (written, result)) :
    ∃ state state', validateState crypto stored = .ok state
    ∧ mutator state = .ok (state', result) ∧ validateState crypto state' = .ok written := by
  rw [mutate] at h
  simp only [bind_eq_ok] at h
  obtain ⟨state, hread, ⟨state', result'⟩, hmutator, written', hwrite, hdone⟩ := h
  split at hdone
  · cases hdone
  · cases hdone
    exact ⟨state, state', hread, hmutator, hwrite⟩

theorem mutate_of {α : Type} {env : Environment}
    {mutator : RegistryState → Result (RegistryState × α)}
    {stored written : RegistryState} {result : α} (hread : validateState crypto stored = .ok stored)
    (hmutator : mutator stored = .ok (written, result))
    (hwrite : validateState crypto written = .ok written) (henv : env.unwritten = none) :
    mutate crypto env mutator stored = .ok (written, result) := by
  rw [mutate, hread, ok_bind, hmutator, ok_bind]
  dsimp only
  rw [hwrite, ok_bind, henv]

end

end OperatorRuntime.DeviceRegistry
