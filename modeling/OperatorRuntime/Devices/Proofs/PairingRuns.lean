/-
Runs of the device registry. A revoked identity stays revoked by what each
change does to the devices. Of the challenges, every call but one that
answers them drops some and adds a new one; a call that answers one
consumes it, or finds it consumed. `verifyPairingForEnrollment` compares a
replay with the peer the challenge records; `completePairing` compares it
with the devices that are registered, so it answers any of them. Where no
run has it answer another peer than the one that consumed the challenge
(`Meets`), each challenge answers one peer.
-/
import OperatorRuntime.Devices.Proofs.Rows
import OperatorRuntime.Lib.Runs

namespace OperatorRuntime.DeviceRegistry

open Lib

section
variable {crypto : Crypto} {env : Environment} {state state' stored : RegistryState}

-- ===== devices

/-- The identity is registered, and revoked. -/
def Revoked (state : RegistryState) (identity : Identity) : Prop :=
  ∃ device ∈ state.devices, device.standing = (identity, .revoked)

/-- What is revoked stays revoked. -/
def KeepsRevoked (state state' : RegistryState) : Prop :=
  ∀ identity, Revoked state identity → Revoked state' identity

theorem exists_standing {standing : Identity × DeviceStatus}
    (h : state'.devices.map (·.standing) = state.devices.map (·.standing))
    (hstands : ∃ device ∈ state.devices, device.standing = standing) :
    ∃ device ∈ state'.devices, device.standing = standing := by
  obtain ⟨device, hin, rfl⟩ := hstands
  have hmem : device.standing ∈ state'.devices.map (·.standing) := by
    rw [h]
    exact List.mem_map_of_mem hin
  exact List.mem_map.1 hmem

theorem keepsRevoked_of_standing
    (h : state'.devices.map (·.standing) = state.devices.map (·.standing)) :
    KeepsRevoked state state' :=
  fun _ hrevoked => exists_standing h hrevoked

theorem keepsRevoked_register {peer : PeerIdentity} {pairedAt : Instant}
    (h : state'.devices = register state peer pairedAt) : KeepsRevoked state state' := by
  rw [register] at h
  split at h
  · intro identity ⟨device, hin, hrevoked⟩
    refine ⟨device, ?_, hrevoked⟩
    rw [h]
    exact List.mem_append_left _ hin
  · apply keepsRevoked_of_standing
    rw [h]
    have hstanding : ∀ device : RegisteredDevice,
        (registered (some device) peer pairedAt).standing = device.standing := fun _ => rfl
    exact map_updateFirst (fun device _ => hstanding device) state.devices

variable {device : RegisteredDevice}

theorem keepsRevoked_erase (haccepted : Accepted state) {deviceId : Uuid}
    (hfound : state.devices.find? (fun device => device.deviceId == deviceId) = some device)
    (hactive : device.status ≠ .revoked)
    (h : state'.devices = state.devices.eraseP fun device => device.deviceId == deviceId) :
    KeepsRevoked state state' := by
  intro identity ⟨other, hin, hrevoked⟩
  refine ⟨other, ?_, hrevoked⟩
  rw [h]
  refine (List.mem_eraseP_of_neg ?_).2 hin
  intro hid
  have hnodup : (state.devices.map (·.deviceId)).Nodup :=
    List.pairwise_map.2 (haccepted.apart.imp fun hdiffer => hdiffer.1)
  have hsame : (device.deviceId == deviceId) = true := by
    simpa using List.find?_some hfound
  have heq : other = device := List.inj_on_of_nodup_map hnodup hin
    (List.mem_of_find?_eq_some hfound) ((beq_iff_eq.1 hid).trans (beq_iff_eq.1 hsame).symm)
  rw [heq] at hrevoked
  exact hactive (congrArg Prod.snd hrevoked)

theorem keepsRevoked_revoke {deviceId : Uuid} {revoke : RegisteredDevice → RegisteredDevice}
    (hrevoke : ∀ device, (revoke device).standing = (device.identity, .revoked))
    (h : state'.devices = updateFirst (fun device => device.deviceId == deviceId) revoke
      state.devices) : KeepsRevoked state state' := by
  intro identity ⟨device, hin, hrevoked⟩
  rcases mem_updateFirst_or (p := fun device => device.deviceId == deviceId) (f := revoke) hin
    with hkept | hwritten
  · exact ⟨device, h ▸ hkept, hrevoked⟩
  · refine ⟨revoke device, h ▸ hwritten, ?_⟩
    have hidentity : device.identity = identity := congrArg Prod.fst hrevoked
    rw [hrevoke device, hidentity]

-- ===== challenges

def StoredChallenge.records (challenge : StoredChallenge) (identity : Identity) : Prop :=
  challenge.consumedPeerDeviceId = some identity.1
    ∧ challenge.consumedPeerFingerprint = some identity.2

/-- Challenges are dropped, and one that is drawn may be added. -/
def Drops (env : Environment) (state state' : RegistryState) : Prop :=
  ∀ challenge ∈ state'.challenges, challenge ∈ state.challenges
    ∨ (challenge.challengeId = env.uuid ∧ challenge.consumedPeerDeviceId = none)

/-- A challenge is consumed by a peer, and records that peer or none. -/
structure Consumes (state state' : RegistryState) (pairing : Pairing) : Prop where
  found : ∃ challenge ∈ state.challenges,
    challenge.challengeId = pairing.challengeId ∧ challenge.consumedAt = none
  rest : ∀ challenge ∈ state'.challenges,
    (challenge ∈ state.challenges ∧ challenge.challengeId ≠ pairing.challengeId)
      ∨ (challenge.challengeId = pairing.challengeId ∧ challenge.consumedAt ≠ none
        ∧ ∀ identity, challenge.records identity → identity = pairing.identity)

variable {challenge : StoredChallenge}

theorem mem_prune {reading : ClockReading}
    (h : challenge ∈ (pruneChallenges reading state).challenges) : challenge ∈ state.challenges :=
  List.mem_of_mem_filter h

theorem mem_reclaimRounds {now : Instant} {rounds : Nat} {challenges : List StoredChallenge}
    (h : challenge ∈ reclaimRounds now rounds challenges) : challenge ∈ challenges := by
  induction rounds generalizing challenges with
  | zero => exact h
  | succ rounds ih =>
    rw [reclaimRounds] at h
    split at h
    · exact List.mem_of_mem_eraseP (ih h)
    · exact h

theorem consumes_of_consumeChallenge (haccepted : Accepted state) {consumedAt : Instant}
    {peer : Option PeerIdentity} {pairing : Pairing} {kept : List StoredChallenge}
    (hsub : kept.Sublist state.challenges) (hin : challenge ∈ kept)
    (hid : challenge.challengeId = pairing.challengeId) (hopen : challenge.consumedAt = none)
    (hpeer : ∀ p ∈ peer, p.identity = pairing.identity)
    (h : state'.challenges = consumeChallenge pairing.challengeId consumedAt peer kept) :
    Consumes state state' pairing := by
  refine ⟨⟨challenge, hsub.subset hin, hid, hopen⟩, ?_⟩
  have hnodup : (kept.map (·.challengeId)).Nodup := (hsub.map _).nodup haccepted.ids
  intro other hother
  rw [h] at hother
  rcases mem_updateFirst_key hnodup hother with ⟨hold, hne⟩ | ⟨old, hold, heq, rfl⟩
  · exact .inl ⟨hsub.subset hold, hne⟩
  · obtain rfl : old = challenge := List.inj_on_of_nodup_map hnodup hold hin (heq.trans hid.symm)
    refine .inr ⟨heq, Option.some_ne_none _, ?_⟩
    intro identity ⟨hdevice, hfingerprint⟩
    have hnone := haccepted.recorded old (hsub.subset hold) hopen
    cases peer with
    | none =>
      rw [Option.map_none, Option.none_or, hnone] at hdevice
      cases hdevice
    | some p =>
      rw [← hpeer p rfl]
      exact Prod.ext (Option.some.inj hdevice).symm (Option.some.inj hfingerprint).symm

-- ===== answers

/-- A challenge that is found consumed. -/
structure Replays (state state' : RegistryState) (pairing : Pairing) : Prop where
  found : ∃ challenge ∈ state.challenges,
    challenge.challengeId = pairing.challengeId ∧ challenge.consumedAt ≠ none
  rest : ∀ challenge ∈ state'.challenges, challenge ∈ state.challenges

/-- The challenge a replay by the peer finds records that peer. -/
def ByRecord (state : RegistryState) (pairing : Pairing) : Prop :=
  ∃ challenge ∈ state.challenges, challenge.challengeId = pairing.challengeId
    ∧ challenge.records pairing.identity

/-- The replay passes the checks of `completePairing`: the challenge is
retained and consumed, it is meant for the peer and signed by it, and the
peer is an active device of the registry. -/
def ByRegistry (crypto : Crypto) (env : Environment) (state : RegistryState)
    (response : NormalizedResponse) : Prop :=
  (∃ challenge, answeredChallenge crypto env response (pruneChallenges env.clock state)
      = .ok challenge ∧ challenge.consumedAt ≠ none)
    ∧ ∃ device ∈ state.devices, device.standing = (response.peer.identity, .active)

/-- The answer of the call to a response. -/
def NormalizedResponse.pairing (response : NormalizedResponse) : Pairing :=
  ⟨response.challengeId, response.peer.identity⟩

variable {response : NormalizedResponse}

theorem answeredChallenge_eq (h : answeredChallenge crypto env response state = .ok challenge) :
    challenge ∈ state.challenges ∧ challenge.challengeId = response.challengeId := by
  rw [answeredChallenge] at h
  split at h
  · cases h
  · next found hfound =>
    simp only [bind_eq_ok, Except.ok.injEq] at h
    obtain ⟨_, _, _, _, _, _, rfl⟩ := h
    exact ⟨List.mem_of_find?_eq_some hfound, by simpa using List.find?_some hfound⟩

/-- What a call that answers a challenge leaves of it. -/
inductive Answers (crypto : Crypto) (env : Environment) (state state' : RegistryState)
    (call : Call) (pairing : Pairing) : Prop
  | consumed (h : Consumes state state' pairing)
  | recorded (h : Replays state state' pairing) (hrecord : ByRecord state pairing)
  | registered (h : Replays state state' pairing) (raw : PairingResponse)
      (response : NormalizedResponse) (hcall : call = .completePairing raw true)
      (hnormal : normalizeResponse crypto raw = .ok response)
      (hpairing : pairing = response.pairing) (hregistry : ByRegistry crypto env state response)

/-- What a call does to the file. -/
structure Changes (crypto : Crypto) (env : Environment) (call : Call)
    (state state' : RegistryState) (pairing : Option Pairing) : Prop where
  keeps : KeepsRevoked state state'
  silent : pairing = none → Drops env state state'
  answers : ∀ p, pairing = some p → Answers crypto env state state' call p

-- ===== calls

theorem answeredChallenge_congr (h : state'.challenges = state.challenges) :
    answeredChallenge crypto env response (pruneChallenges env.clock state')
    = answeredChallenge crypto env response (pruneChallenges env.clock state) := by
  rw [answeredChallenge, answeredChallenge, pruneChallenges, pruneChallenges, h]

theorem Changes.turn {written : RegistryState} {call : Call} {pairing : Option Pairing}
    (h : Changes crypto env call state state' pairing)
    (hread : validateState crypto stored = .ok state)
    (hwrite : validateState crypto state' = .ok written) :
    Changes crypto env call stored written pairing ∧ Accepted written := by
  obtain ⟨-, hchallenges, hstanding⟩ := validateState_eq hread
  obtain ⟨haccepted, hchallenges', hstanding'⟩ := validateState_eq hwrite
  refine ⟨⟨?_, ?_, ?_⟩, haccepted⟩
  · intro identity hrevoked
    exact keepsRevoked_of_standing hstanding' identity
      (h.keeps identity (keepsRevoked_of_standing hstanding identity hrevoked))
  · intro hnone
    rw [Drops, hchallenges', ← hchallenges]
    exact h.silent hnone
  · intro p hp
    have hreplays : Replays state state' p → Replays stored written p := by
      intro ⟨hfound, hrest⟩
      exact ⟨hchallenges ▸ hfound, by rw [hchallenges', ← hchallenges]; exact hrest⟩
    cases h.answers p hp with
    | consumed hconsumes =>
      obtain ⟨hfound, hrest⟩ := hconsumes
      exact .consumed ⟨hchallenges ▸ hfound, by rw [hchallenges', ← hchallenges]; exact hrest⟩
    | recorded hreplay hrecord =>
      refine .recorded (hreplays hreplay) ?_
      rw [ByRecord, ← hchallenges]
      exact hrecord
    | registered hreplay raw response hcall hnormal hpairing hregistry =>
      refine .registered (hreplays hreplay) raw response hcall hnormal hpairing ⟨?_, ?_⟩
      · rw [← answeredChallenge_congr hchallenges]
        exact hregistry.1
      · exact exists_standing hstanding.symm hregistry.2

theorem changes_devices {call : Call} (hkeeps : KeepsRevoked state state')
    (hsame : state'.challenges = state.challenges) :
    Changes crypto env call state state' none := by
  refine ⟨hkeeps, ?_, fun _ hp => (nomatch hp)⟩
  intro _ challenge hin
  exact .inl (hsame ▸ hin)

theorem changes_issue {issuer : PublicDeviceIdentity} {expected : Option String}
    {ttlMs : Option Number} {call : Call} {written : RegistryState}
    {challenge : PublicPairingChallenge}
    (h : issuePairingChallenge crypto env issuer expected ttlMs stored = .ok (written, challenge)) :
    Changes crypto env call stored written none ∧ Accepted written := by
  rw [issuePairingChallenge] at h
  simp only [bind_eq_ok] at h
  obtain ⟨_, _, _, _, _, _, issuedAt, _, _, _, hturn⟩ := h
  obtain ⟨state, state', hread, hmutator, hwrite⟩ := mutate_eq hturn
  simp only [bind_eq_ok, Except.ok.injEq, Prod.mk.injEq] at hmutator
  obtain ⟨_, _, _, _, rfl, _⟩ := hmutator
  refine Changes.turn ?_ hread hwrite
  refine ⟨keepsRevoked_of_standing rfl, ?_, fun _ hp => (by cases hp)⟩
  intro _ other hother
  rcases List.mem_append.1 hother with hold | hnew
  · exact .inl (mem_prune (mem_reclaimRounds hold))
  · rw [List.mem_singleton.1 hnew]
    exact .inr ⟨rfl, rfl⟩

theorem changes_register {peer : PublicDeviceIdentity} {call : Call} {written : RegistryState}
    {result : RegisteredDevice × Bool}
    (h : registerVerifiedPeerTracked crypto env peer stored = .ok (written, result)) :
    Changes crypto env call stored written none ∧ Accepted written := by
  rw [registerVerifiedPeerTracked] at h
  simp only [bind_eq_ok] at h
  obtain ⟨_, _, hturn⟩ := h
  obtain ⟨state, state', hread, hmutator, hwrite⟩ := mutate_eq hturn
  simp only [bind_eq_ok, Except.ok.injEq, Prod.mk.injEq] at hmutator
  obtain ⟨_, _, _, _, rfl, _⟩ := hmutator
  refine Changes.turn ?_ hread hwrite
  exact changes_devices (keepsRevoked_register rfl) rfl

theorem changes_unregister {deviceId : String} {expected : Option String} {call : Call}
    {written : RegistryState} {result : Bool}
    (h : unregisterActiveDevice crypto env deviceId expected stored = .ok (written, result)) :
    Changes crypto env call stored written none ∧ Accepted written := by
  rw [unregisterActiveDevice] at h
  simp only [bind_eq_ok] at h
  obtain ⟨_, _, _, _, hturn⟩ := h
  obtain ⟨state, state', hread, hmutator, hwrite⟩ := mutate_eq hturn
  obtain ⟨haccepted, -, -⟩ := validateState_eq hread
  refine Changes.turn ?_ hread hwrite
  split at hmutator
  · cases hmutator
    exact changes_devices (keepsRevoked_of_standing rfl) rfl
  · next device hfound =>
    split at hmutator
    · cases hmutator
      exact changes_devices (keepsRevoked_of_standing rfl) rfl
    · next hactive =>
      simp only [bind_eq_ok, Except.ok.injEq, Prod.mk.injEq] at hmutator
      obtain ⟨_, _, rfl, _⟩ := hmutator
      exact changes_devices (keepsRevoked_erase haccepted hfound hactive rfl) rfl

theorem changes_revoke {deviceId : String} {reason : Option String} {call : Call}
    {written : RegistryState}
    (h : revokeDevice crypto env deviceId reason stored = .ok (written, device)) :
    Changes crypto env call stored written none ∧ Accepted written := by
  rw [revokeDevice] at h
  simp only [bind_eq_ok] at h
  obtain ⟨_, _, _, _, hturn⟩ := h
  obtain ⟨state, state', hread, hmutator, hwrite⟩ := mutate_eq hturn
  refine Changes.turn ?_ hread hwrite
  split at hmutator
  · cases hmutator
  · split at hmutator
    · cases hmutator
      exact changes_devices (keepsRevoked_of_standing rfl) rfl
    · simp only [bind_eq_ok, Except.ok.injEq, Prod.mk.injEq] at hmutator
      obtain ⟨revokedAt, _, rfl, _⟩ := hmutator
      exact changes_devices (keepsRevoked_revoke (fun _ => rfl) rfl) rfl

theorem changes_verify {raw : PairingResponse} {allowExactReplay : Bool} {call : Call}
    {written : RegistryState} {peer : PeerIdentity}
    (hnormal : normalizeResponse crypto raw = .ok response)
    (h : verifyPairingForEnrollment crypto env raw allowExactReplay stored = .ok (written, peer)) :
    Changes crypto env call stored written (some ⟨response.challengeId, peer.identity⟩)
    ∧ Accepted written := by
  rw [verifyPairingForEnrollment] at h
  simp only [bind_eq_ok] at h
  obtain ⟨response', hnormal', hturn⟩ := h
  obtain rfl := Except.ok.inj (hnormal.symm.trans hnormal')
  obtain ⟨state, state', hread, hmutator, hwrite⟩ := mutate_eq hturn
  obtain ⟨haccepted, -, -⟩ := validateState_eq hread
  refine Changes.turn ?_ hread hwrite
  simp only [bind_eq_ok] at hmutator
  obtain ⟨challenge, hanswered, hmutator⟩ := hmutator
  obtain ⟨hin, hid⟩ := answeredChallenge_eq hanswered
  split at hmutator
  · next hconsumed =>
    simp only [bind_eq_ok, rejectIf_eq_ok, not_not, Except.ok.injEq, Prod.mk.injEq] at hmutator
    obtain ⟨_, ⟨_, hdevice, hfingerprint⟩, rfl, rfl⟩ := hmutator
    refine ⟨keepsRevoked_of_standing rfl, fun hnone => (nomatch hnone), ?_⟩
    intro p hp
    obtain rfl := Option.some.inj hp
    exact .recorded ⟨⟨challenge, mem_prune hin, hid, hconsumed⟩, fun _ hmem => mem_prune hmem⟩
      ⟨challenge, mem_prune hin, hid, hdevice, hfingerprint⟩
  · next hopen =>
    simp only [bind_eq_ok, Except.ok.injEq, Prod.mk.injEq] at hmutator
    obtain ⟨consumedAt, _, rfl, rfl⟩ := hmutator
    refine ⟨keepsRevoked_of_standing rfl, fun hnone => (nomatch hnone), ?_⟩
    intro p hp
    obtain rfl := Option.some.inj hp
    refine .consumed (consumes_of_consumeChallenge haccepted List.filter_sublist hin hid
      (not_not.1 hopen) ?_ rfl)
    intro peer hpeer
    rw [← Option.some.inj hpeer]

theorem changes_complete {raw : PairingResponse} {allowExactReplay : Bool}
    {written : RegistryState} (hnormal : normalizeResponse crypto raw = .ok response)
    (h : completePairing crypto env raw allowExactReplay stored = .ok (written, device)) :
    Changes crypto env (.completePairing raw allowExactReplay) stored written
      (some ⟨response.challengeId, device.identity⟩) ∧ Accepted written := by
  rw [completePairing] at h
  simp only [bind_eq_ok] at h
  obtain ⟨response', hnormal', hturn⟩ := h
  obtain rfl := Except.ok.inj (hnormal.symm.trans hnormal')
  obtain ⟨state, state', hread, hmutator, hwrite⟩ := mutate_eq hturn
  obtain ⟨haccepted, -, -⟩ := validateState_eq hread
  refine Changes.turn ?_ hread hwrite
  simp only [bind_eq_ok] at hmutator
  obtain ⟨challenge, hanswered, hmutator⟩ := hmutator
  obtain ⟨hin, hid⟩ := answeredChallenge_eq hanswered
  split at hmutator
  · next hconsumed =>
    split at hmutator
    · next found hfound =>
      cases hmutator
      obtain ⟨hsame, hguard⟩ := Option.filter_eq_some_iff.1 hfound
      obtain ⟨hallow, hactive, hfingerprint⟩ := of_decide_eq_true hguard
      have hfid : (device.deviceId == response.peer.deviceId) = true := by
        simpa using List.find?_some hsame
      have hidentity : device.identity = response.peer.identity :=
        Prod.ext (beq_iff_eq.1 hfid) hfingerprint
      refine ⟨keepsRevoked_of_standing rfl, fun hnone => (nomatch hnone), ?_⟩
      intro p hp
      obtain rfl := Option.some.inj hp
      refine .registered ⟨⟨challenge, mem_prune hin, hid, hconsumed⟩,
          fun _ hmem => mem_prune hmem⟩ raw response (by rw [hallow]) hnormal
        (by rw [hidentity]; rfl) ⟨⟨challenge, hanswered, hconsumed⟩, device,
          List.mem_of_find?_eq_some hsame, ?_⟩
      rw [← hidentity, ← hactive]
      rfl
    · cases hmutator
  · next hopen =>
    simp only [bind_eq_ok, Except.ok.injEq, Prod.mk.injEq] at hmutator
    obtain ⟨_, hregistrable, pairedAt, _, rfl, rfl⟩ := hmutator
    refine ⟨keepsRevoked_register rfl, fun hnone => (nomatch hnone), ?_⟩
    intro p hp
    obtain rfl := Option.some.inj hp
    exact .consumed (consumes_of_consumeChallenge haccepted List.filter_sublist hin hid
      (not_not.1 hopen) (fun p hnone => absurd hnone (Option.not_mem_none p)) rfl)

theorem changes_call {call : Call} {written : RegistryState} {pairing : Option Pairing}
    (h : call.run crypto env stored = .ok (written, pairing)) :
    Changes crypto env call stored written pairing ∧ Accepted written := by
  cases call with
  | issuePairingChallenge issuer expected ttlMs =>
    simp only [Call.run, bind_eq_ok, Except.ok.injEq, Prod.mk.injEq] at h
    obtain ⟨⟨state, challenge⟩, hcall, rfl, rfl⟩ := h
    exact changes_issue hcall
  | verifyPairingForEnrollment raw allowExactReplay =>
    simp only [Call.run, bind_eq_ok, Except.ok.injEq, Prod.mk.injEq] at h
    obtain ⟨response, hnormal, ⟨state, peer⟩, hcall, rfl, rfl⟩ := h
    exact changes_verify hnormal hcall
  | registerVerifiedPeerTracked peer =>
    simp only [Call.run, bind_eq_ok, Except.ok.injEq, Prod.mk.injEq] at h
    obtain ⟨⟨state, result⟩, hcall, rfl, rfl⟩ := h
    exact changes_register hcall
  | unregisterActiveDevice deviceId expected =>
    simp only [Call.run, bind_eq_ok, Except.ok.injEq, Prod.mk.injEq] at h
    obtain ⟨⟨state, removed⟩, hcall, rfl, rfl⟩ := h
    exact changes_unregister hcall
  | completePairing raw allowExactReplay =>
    simp only [Call.run, bind_eq_ok, Except.ok.injEq, Prod.mk.injEq] at h
    obtain ⟨response, hnormal, ⟨state, device⟩, hcall, rfl, rfl⟩ := h
    exact changes_complete hnormal hcall
  | revokeDevice deviceId reason =>
    simp only [Call.run, bind_eq_ok, Except.ok.injEq, Prod.mk.injEq] at h
    obtain ⟨⟨state, device⟩, hcall, rfl, rfl⟩ := h
    exact changes_revoke hcall

end

-- ===== runs

section
variable {crypto : Crypto} {m m' : Machine}

/-- `crypto.randomUUID()` draws no identifier that a challenge has had. -/
def Fresh (m : Machine) (turn : Turn) : Prop :=
  ∀ pairing ∈ m.consumed, pairing.challengeId ≠ turn.env.uuid

/-- A replay that passes the checks of `completePairing` is by the peer
whose call consumed the challenge. -/
def Meets (crypto : Crypto) (m : Machine) (turn : Turn) : Prop :=
  ∀ raw response, turn.call = .completePairing raw true →
    normalizeResponse crypto raw = .ok response →
    ByRegistry crypto turn.env m.registry response → response.pairing ∈ m.consumed

def Sound (crypto : Crypto) (m : Machine) (turn : Turn) : Prop :=
  Fresh m turn ∧ Meets crypto m turn

/-- Each challenge that is consumed is consumed once, one that is not has
not been, and what a challenge records and who is answered agree with who
consumed it. -/
structure Inv (m : Machine) : Prop where
  accepted : Accepted m.registry
  once : m.consumed.Pairwise fun a b => a.challengeId ≠ b.challengeId
  open' : ∀ challenge ∈ m.registry.challenges, challenge.consumedAt = none →
    ∀ pairing ∈ m.consumed, pairing.challengeId ≠ challenge.challengeId
  recorded : ∀ challenge ∈ m.registry.challenges, ∀ identity, challenge.records identity →
    ⟨challenge.challengeId, identity⟩ ∈ m.consumed
  answered : ∀ pairing ∈ m.answered, pairing ∈ m.consumed

theorem inv_initial : Inv initial := by
  refine ⟨⟨List.Pairwise.nil, List.nodup_nil, ?_⟩, List.Pairwise.nil, ?_, ?_, ?_⟩
  · exact fun _ hin => (nomatch hin)
  · exact fun _ hin => (nomatch hin)
  · exact fun _ hin => (nomatch hin)
  · exact fun _ hin => (nomatch hin)

variable {registry : RegistryState}

theorem Inv.drops (h : Inv m) {turn : Turn} (hfresh : Fresh m turn)
    (haccepted : Accepted registry) (hdrops : Drops turn.env m.registry registry) :
    Inv { m with registry } := by
  refine ⟨haccepted, h.once, ?_, ?_, h.answered⟩
  · intro challenge hin hopen pairing hpairing
    rcases hdrops challenge hin with hold | ⟨hid, _⟩
    · exact h.open' challenge hold hopen pairing hpairing
    · rw [hid]
      exact hfresh pairing hpairing
  · intro challenge hin identity hrecords
    rcases hdrops challenge hin with hold | ⟨_, hnone⟩
    · exact h.recorded challenge hold identity hrecords
    · rw [hrecords.1] at hnone
      cases hnone

theorem Inv.replays (h : Inv m) {pairing : Pairing} (haccepted : Accepted registry)
    (hreplays : Replays m.registry registry pairing) : Inv { m with registry } :=
  ⟨haccepted, h.once, fun challenge hin => h.open' challenge (hreplays.rest challenge hin),
    fun challenge hin => h.recorded challenge (hreplays.rest challenge hin), h.answered⟩

theorem Inv.consumes (h : Inv m) {pairing : Pairing} (haccepted : Accepted registry)
    (hconsumes : Consumes m.registry registry pairing) :
    Inv { m with registry, consumed := pairing :: m.consumed } := by
  obtain ⟨⟨challenge, hfound, hid, hopen⟩, hrest⟩ := hconsumes
  refine ⟨haccepted, List.pairwise_cons.2 ⟨?_, h.once⟩, ?_, ?_,
    fun other hin => List.mem_cons_of_mem _ (h.answered other hin)⟩
  · intro other hin heq
    exact h.open' challenge hfound hopen other hin (heq.symm.trans hid.symm)
  · intro other hin hstill consumed hconsumed
    rcases hrest other hin with ⟨hold, hne⟩ | ⟨_, hsome, _⟩
    · rcases List.mem_cons.1 hconsumed with rfl | hconsumed
      · exact fun heq => hne heq.symm
      · exact h.open' other hold hstill consumed hconsumed
    · exact absurd hstill hsome
  · intro other hin identity hrecords
    rcases hrest other hin with ⟨hold, _⟩ | ⟨hsame, _, honly⟩
    · exact List.mem_cons_of_mem _ (h.recorded other hold identity hrecords)
    · rw [honly identity hrecords, hsame]
      exact List.mem_cons_self ..

theorem Inv.answer (h : Inv m) {pairing : Pairing} (hin : pairing ∈ m.consumed) :
    Inv { m with answered := pairing :: m.answered } :=
  ⟨h.accepted, h.once, h.open', h.recorded, List.forall_mem_cons.2 ⟨hin, h.answered⟩⟩

theorem consumes_true {registry' : RegistryState} {pairing : Pairing}
    (h : Consumes registry registry' pairing) : consumes registry pairing = true := by
  obtain ⟨challenge, hin, hid, hopen⟩ := h.found
  exact List.any_eq_true.2 ⟨challenge, hin, decide_eq_true ⟨hid, hopen⟩⟩

theorem consumes_false {registry' : RegistryState} {pairing : Pairing}
    (haccepted : Accepted registry) (h : Replays registry registry' pairing) :
    consumes registry pairing = false := by
  obtain ⟨challenge, hin, hid, hconsumed⟩ := h.found
  rw [consumes, List.any_eq_false]
  intro other hother hmatch
  obtain ⟨hsame, hopen⟩ := of_decide_eq_true hmatch
  rw [List.inj_on_of_nodup_map haccepted.ids hother hin (hsame.trans hid.symm)] at hopen
  exact hconsumed hopen

/-- One call with sound signatures. -/
theorem inv_step (h : Inv m) {turn : Turn} (hsound : Sound crypto m turn)
    (hstep : step crypto m turn = some m') : Inv m' := by
  obtain ⟨hfresh, hmeets⟩ := hsound
  rw [step] at hstep
  split at hstep
  · cases hstep
    exact h
  · next registry pairing hrun =>
    obtain ⟨hchanges, haccepted⟩ := changes_call hrun
    cases pairing with
    | none =>
      have hdropped := h.drops hfresh haccepted (hchanges.silent rfl)
      cases hlost : turn.lost with
      | true =>
        rw [hlost] at hstep
        cases hstep
        exact hdropped
      | false =>
        rw [hlost] at hstep
        cases hstep
        exact hdropped
    | some pairing =>
      have hboth : ∃ consumed, (Option.filter (consumes m.registry) (some pairing)).toList
            ++ m.consumed = consumed
          ∧ Inv { m with registry, consumed } ∧ pairing ∈ consumed := by
        refine ⟨_, rfl, ?_⟩
        cases hchanges.answers pairing rfl with
        | consumed hconsumes =>
          rw [Option.filter_some, if_pos (consumes_true hconsumes)]
          exact ⟨h.consumes haccepted hconsumes, List.mem_cons_self ..⟩
        | recorded hreplays hrecord =>
          rw [Option.filter_some, consumes_false h.accepted hreplays]
          obtain ⟨challenge, hin, hid, hrecords⟩ := hrecord
          have hmem := h.recorded challenge hin pairing.identity hrecords
          rw [hid] at hmem
          exact ⟨h.replays haccepted hreplays, hmem⟩
        | registered hreplays raw response hcall hnormal hpairing hregistry =>
          rw [Option.filter_some, consumes_false h.accepted hreplays]
          refine ⟨h.replays haccepted hreplays, ?_⟩
          rw [hpairing]
          exact hmeets raw response hcall hnormal hregistry
      obtain ⟨consumed, hconsumed, hinv, hin⟩ := hboth
      rw [hconsumed] at hstep
      cases hlost : turn.lost with
      | true =>
        rw [hlost] at hstep
        cases hstep
        exact hinv
      | false =>
        rw [hlost] at hstep
        cases hstep
        exact hinv.answer hin

-- ===== results

/-- Among the devices, an identifier is a fingerprint's and the other way
around. -/
def OneToOne (registry : RegistryState) : Prop :=
  ∀ device ∈ registry.devices, ∀ other ∈ registry.devices,
    (device.deviceId = other.deviceId ↔ device = other)
      ∧ (device.fingerprint = other.fingerprint ↔ device = other)

/-- Nothing of the identity is registered but revoked devices. -/
def Banned (registry : RegistryState) (identity : Identity) : Prop :=
  Revoked registry identity ∧ ∀ device ∈ registry.devices, device.identity = identity →
    device.status = .revoked

/-- No challenge answers two peers. -/
def AnsweredOnce (m : Machine) : Prop :=
  ∀ pairing ∈ m.answered, ∀ other ∈ m.answered,
    pairing.challengeId = other.challengeId → pairing = other

theorem Accepted.eq_of_deviceId (h : Accepted registry) {device other : RegisteredDevice}
    (hin : device ∈ registry.devices) (hother : other ∈ registry.devices)
    (heq : device.deviceId = other.deviceId) : device = other :=
  List.inj_on_of_nodup_map (List.pairwise_map.2 (h.apart.imp fun hdiffer => hdiffer.1)) hin hother
    heq

theorem Accepted.oneToOne (h : Accepted registry) : OneToOne registry := by
  have hnodup : (registry.devices.map (·.fingerprint)).Nodup :=
    List.pairwise_map.2 (h.apart.imp fun hdiffer => hdiffer.2)
  intro device hin other hother
  refine ⟨⟨h.eq_of_deviceId hin hother, ?_⟩, List.inj_on_of_nodup_map hnodup hin hother, ?_⟩
  · intro heq
    rw [heq]
  · intro heq
    rw [heq]

theorem Accepted.banned (h : Accepted registry) {identity : Identity}
    (hrevoked : Revoked registry identity) : Banned registry identity := by
  refine ⟨hrevoked, ?_⟩
  intro device hin hidentity
  obtain ⟨other, hother, hstanding⟩ := hrevoked
  have hother' : other.identity = identity := congrArg Prod.fst hstanding
  have hid : device.deviceId = other.deviceId :=
    congrArg Prod.fst (hidentity.trans hother'.symm)
  rw [h.eq_of_deviceId hin hother hid]
  exact congrArg Prod.snd hstanding

theorem Inv.answeredOnce (h : Inv m) : AnsweredOnce m := by
  intro pairing hin other hother heq
  have hnodup : (m.consumed.map (·.challengeId)).Nodup := List.pairwise_map.2 h.once
  exact List.inj_on_of_nodup_map hnodup (h.answered pairing hin) (h.answered other hother) heq

/-- No call takes a revocation back. -/
theorem keepsRevoked_step {turn : Turn} (hstep : step crypto m turn = some m') :
    KeepsRevoked m.registry m'.registry := by
  rw [step] at hstep
  split at hstep
  · cases hstep
    exact fun _ hrevoked => hrevoked
  · next registry pairing hrun =>
    cases hstep
    exact (changes_call hrun).1.keeps

/-- In a run whose calls all meet the condition, identifiers and
fingerprints of the devices correspond one to one, what was revoked at any
time is revoked, and each challenge has answered one peer. -/
theorem pairing_sound {turns turns' : List Turn}
    (hrun : Run (Where (stepsOf (step crypto)) (Sound crypto)) initial turns m)
    (hrun' : Run (Where (stepsOf (step crypto)) (Sound crypto)) m turns' m') :
    OneToOne m'.registry ∧ (∀ identity, Revoked m.registry identity → Banned m'.registry identity)
    ∧ AnsweredOnce m' := by
  have hinv : Inv m' := (hrun.trans hrun').invariant inv_initial fun h hstep =>
    inv_step h hstep.2 hstep.1
  have hkeeps : KeepsRevoked m.registry m'.registry := by
    refine hrun'.invariant (I := fun t => KeepsRevoked m.registry t.registry)
      (fun _ hrevoked => hrevoked) ?_
    intro s t turn hkept hstep identity hrevoked
    exact keepsRevoked_step hstep.1 identity (hkept identity hrevoked)
  refine ⟨hinv.accepted.oneToOne, ?_, hinv.answeredOnce⟩
  intro identity hrevoked
  exact hinv.accepted.banned (hkeeps identity hrevoked)

end

/-- Three devices, at the start of the epoch: the issuer of a challenge, and
two that sign it. -/
def issuerPeer : PeerIdentity where
  deviceId := ⟨"44444444-4444-4444-8444-444444444444", by decide⟩
  deviceName := "desktop"
  createdAt := ⟨0, zero_instant⟩
  publicKeyPem := "-----BEGIN PUBLIC KEY-----\n"
    ++ "MCowBQYDK2VwAyEADHaYXZCXiEZeFNc1DhQDqxJnOb/dQq4JkONfnfIxNLU=\n"
    ++ "-----END PUBLIC KEY-----\n"
  fingerprint := "nioEu7eE8rmey3ES_cMCoENmPDvpph_xW58snGuuYKk"

def laptop : PeerIdentity where
  deviceId := twosUuid
  deviceName := "laptop"
  createdAt := ⟨0, zero_instant⟩
  publicKeyPem := "-----BEGIN PUBLIC KEY-----\n"
    ++ "MCowBQYDK2VwAyEAHpvrTS1XdAcBLWTSk4GLTqNEDLo6lg7T5tTehAUruHQ=\n"
    ++ "-----END PUBLIC KEY-----\n"
  fingerprint := "0y2WfdaurPCBxvrqvWZtWY7JFrmYfo-SAbp4txV1bQY"

def phone : PeerIdentity where
  deviceId := ⟨"33333333-3333-4333-8333-333333333333", threes_uuid⟩
  deviceName := "phone"
  createdAt := ⟨0, zero_instant⟩
  publicKeyPem := "-----BEGIN PUBLIC KEY-----\n"
    ++ "MCowBQYDK2VwAyEAu/aXL9JJHQAlnLdeM2VAcX5rJ/ADEhWVTu5cenm+JIk=\n"
    ++ "-----END PUBLIC KEY-----\n"
  fingerprint := "gsphX2hbOu7tn9EbxkIdmK8wbh6fbjA7LV2-ZrtQrGA"

def aChallenge : PublicPairingChallenge where
  challengeId := onesUuid
  issuerDeviceId := issuerPeer.deviceId
  issuerFingerprint := issuerPeer.fingerprint
  nonce := "AAECAwQFBgcICQoLDA0ODxAREhMUFRYXGBkaGxwdHh8"
  issuedAt := ⟨0, zero_instant⟩
  expiresAt := ⟨120000, by decide⟩
  expectedPeerDeviceId := none

def laptopSignature : String :=
  "XA1bpAjDO3sOfa6IHsJFM_mpI9MtbqcR879HeZNI9xUhwxk0c2mlqQz_9JymRlMqsizOI0tx2ge53DzplhEAAw"

def phoneSignature : String :=
  "eljcesx2eXPqfAdNolrNxwq3LNMQOT0XN4Y2jwMdw_8IQlVm35uR_90CmXC4J67CLLJbgIu3jSq1MhOlHZeHAg"

/-- The keys of the three devices, and the two signatures. -/
def sampleCrypto : Crypto where
  createPublicKey text :=
    if ∃ peer ∈ [issuerPeer, laptop, phone], peer.publicKeyPem = text then .ed25519 text
    else .invalid
  sha256 text :=
    (([issuerPeer, laptop, phone].find? fun peer => peer.publicKeyPem == text).map
      (·.fingerprint)).getD "47DEQpj8HBSa-_TImW-5JCeuQeRkm5NMpJWZG3hSuFU"
  verify payload key signature :=
    (payload = ⟨aChallenge, laptop⟩ ∧ key = laptop.publicKeyPem ∧ signature = laptopSignature)
      ∨ (payload = ⟨aChallenge, phone⟩ ∧ key = phone.publicKeyPem ∧ signature = phoneSignature)

def sampleEnv (uuid : Uuid) : Environment where
  clock := some ⟨0, zero_instant⟩
  uuid
  nonce := aChallenge.nonce
  unwritten := none

def issueTurn : Turn where
  env := sampleEnv aChallenge.challengeId
  call := .issuePairingChallenge issuerPeer.input none none
  lost := false

def completeTurn (peer : PeerIdentity) (signature : String) (allowExactReplay : Bool) : Turn where
  env := sampleEnv issuerPeer.deviceId
  call := .completePairing ⟨aChallenge.challengeId.val, peer.input, signature⟩ allowExactReplay
  lost := false

def registerTurn (peer : PeerIdentity) : Turn where
  env := sampleEnv issuerPeer.deviceId
  call := .registerVerifiedPeerTracked peer.input
  lost := false

instance (m : Machine) (turn : Turn) : Decidable (Fresh m turn) :=
  inferInstanceAs (Decidable (∀ pairing ∈ m.consumed, _))

/-- The file after the laptop and the phone have been registered, and the
laptop has consumed the challenge. -/
def consumedMachine : Machine where
  registry :=
    { devices := [registered none phone ⟨0, zero_instant⟩, registered none laptop ⟨0, zero_instant⟩]
      challenges := [{ aChallenge with
        consumedAt := some ⟨0, zero_instant⟩
        consumedPeerDeviceId := none
        consumedPeerFingerprint := none }] }
  consumed := [⟨aChallenge.challengeId, laptop.identity⟩]
  answered := [⟨aChallenge.challengeId, laptop.identity⟩]

/-- The call asks for no exact replay of `completePairing`. -/
def Turn.isPlain (turn : Turn) : Bool :=
  match turn.call with
  | .completePairing _ allowExactReplay => !allowExactReplay
  | _ => true

theorem run_consumed : Run (Where (stepsOf (step sampleCrypto))
      fun m turn => Fresh m turn ∧ turn.isPlain = true) initial
    [issueTurn, registerTurn phone, completeTurn laptop laptopSignature false]
      consumedMachine := by
  apply run_where_of_guarded
  decide +kernel

theorem sound_of_plain {m : Machine} {turn : Turn} (hfresh : Fresh m turn)
    (hplain : turn.isPlain = true) : Sound sampleCrypto m turn := by
  refine ⟨hfresh, ?_⟩
  intro raw response hcall
  rw [Turn.isPlain, hcall] at hplain
  cases hplain

/-- A challenge is issued, a phone registered, and a laptop answers the challenge. -/
theorem pairing_sound_consumed : OneToOne consumedMachine.registry
    ∧ (∀ identity, Revoked consumedMachine.registry identity →
        Banned consumedMachine.registry identity) ∧ AnsweredOnce consumedMachine := by
  have hrun : Run (Where (stepsOf (step sampleCrypto)) (Sound sampleCrypto)) initial _
      consumedMachine := run_consumed.mono fun hstep =>
    ⟨hstep.1, sound_of_plain hstep.2.1 hstep.2.2⟩
  exact pairing_sound hrun Run.nil

theorem consumed_accepted :
    validateState sampleCrypto consumedMachine.registry = .ok consumedMachine.registry := by
  decide +kernel

theorem phone_normal : normalizeResponse sampleCrypto
    ⟨aChallenge.challengeId.val, phone.input, phoneSignature⟩
    = .ok ⟨aChallenge.challengeId, phone, phoneSignature⟩ := by
  decide +kernel

theorem phone_replays : completePairing sampleCrypto (sampleEnv issuerPeer.deviceId)
    ⟨aChallenge.challengeId.val, phone.input, phoneSignature⟩ true consumedMachine.registry
    = .ok (consumedMachine.registry, registered none phone ⟨0, by decide⟩) := by
  rw [completePairing, phone_normal, ok_bind]
  refine mutate_of consumed_accepted ?_ consumed_accepted rfl
  decide

theorem step_of_run {crypto : Crypto} {m : Machine} {turn : Turn} {registry : RegistryState}
    {pairing : Pairing} (hrun : turn.call.run crypto turn.env m.registry
      = .ok (registry, some pairing)) (hconsumed : consumes m.registry pairing = false)
    (hanswers : turn.lost = false) :
    step crypto m turn = some { m with registry, answered := pairing :: m.answered } := by
  rw [step, hrun]
  dsimp only
  rw [Option.filter_some, hconsumed, hanswers]
  rfl

theorem run_completePairing {crypto : Crypto} {env : Environment} {raw : PairingResponse}
    {allowExactReplay : Bool} {response : NormalizedResponse} {stored state : RegistryState}
    {device : RegisteredDevice} (hnormal : normalizeResponse crypto raw = .ok response)
    (h : completePairing crypto env raw allowExactReplay stored = .ok (state, device)) :
    Call.run crypto env (.completePairing raw allowExactReplay) stored
    = .ok (state, some ⟨response.challengeId, device.identity⟩) := by
  rw [Call.run, hnormal, ok_bind, h, ok_bind]

/-- A replay answers another peer than the one that consumed the challenge. -/
theorem replay_answers_another : ∃ m, Run (Where (stepsOf (step sampleCrypto)) Fresh) initial
        [issueTurn, registerTurn phone, completeTurn laptop laptopSignature false,
          completeTurn phone phoneSignature true] m ∧ ¬ AnsweredOnce m := by
  have hconsumed : Run (Where (stepsOf (step sampleCrypto)) Fresh) initial _ consumedMachine :=
    run_consumed.mono fun hstep => ⟨hstep.1, hstep.2.1⟩
  have hrun := run_completePairing phone_normal phone_replays
  have hreplay : consumes consumedMachine.registry
      ⟨aChallenge.challengeId, (registered none phone ⟨0, by decide⟩).identity⟩ = false := by
    decide
  have hfresh : Fresh consumedMachine (completeTurn phone phoneSignature true) := by
    decide
  have hstep : step sampleCrypto consumedMachine (completeTurn phone phoneSignature true)
      = some _ := step_of_run hrun hreplay rfl
  refine ⟨_, hconsumed.snoc ⟨hstep, hfresh⟩, ?_⟩
  intro honce
  have hsame := honce ⟨aChallenge.challengeId, phone.identity⟩ (List.mem_cons_self ..)
    ⟨aChallenge.challengeId, laptop.identity⟩
    (List.mem_cons_of_mem _ (List.mem_cons_self ..)) rfl
  have hnames : phone.fingerprint ≠ laptop.fingerprint := by decide
  exact hnames (congrArg (fun pairing => pairing.identity.2) hsame)

end OperatorRuntime.DeviceRegistry
