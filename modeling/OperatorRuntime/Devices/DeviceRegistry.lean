/-
`core/device-registry.ts`: the peers a device is paired with, and the
pairing challenges it has issued, in one file. Every call that changes the
file reads, changes and writes it in one turn under a lock, so calls run
one after the other; what it wrote stays where the process ends before it
answers.

Identifiers and times are kept as what their checks make of them. The
cryptographic functions are outside the program: a key, its fingerprint and
the check of a signature are parameters.
-/
import OperatorRuntime.Identifiers
import OperatorRuntime.Lib.Keyed
import OperatorRuntime.Policy.Delegation

namespace OperatorRuntime.DeviceRegistry

open Principals (trim)

-- ===== records

def maxDevices : Nat := 1000
def maxChallenges : Nat := 2048
def maxActiveChallenges : Nat := 128
def maxTtlMs : Int := 5 * 60000
def minTtlMs : Int := 30000
def challengeRetentionMs : Int := 24 * 60 * 60000
def deviceNameMax : Nat := 128
def reasonMax : Nat := 512

/-- A `PublicDeviceIdentity` as it comes in; `createdAt` is `none` where it
is no ISO timestamp. -/
structure PublicDeviceIdentity where
  deviceId : String
  deviceName : String
  createdAt : Option Instant
  publicKeyPem : String
  fingerprint : String

/-- A `PublicDeviceIdentity` that is normalized. -/
structure PeerIdentity where
  deviceId : Uuid
  deviceName : String
  createdAt : Instant
  publicKeyPem : String
  fingerprint : String
deriving DecidableEq

structure PublicPairingChallenge where
  challengeId : Uuid
  issuerDeviceId : Uuid
  issuerFingerprint : String
  nonce : String
  issuedAt : Instant
  expiresAt : Instant
  expectedPeerDeviceId : Option Uuid
deriving DecidableEq

structure PairingResponse where
  challengeId : String
  peer : PublicDeviceIdentity
  signature : String

inductive DeviceStatus
  | active
  | revoked
deriving DecidableEq

structure RegisteredDevice extends PeerIdentity where
  status : DeviceStatus
  pairedAt : Instant
  revokedAt : Option Instant
  revokedReason : Option String
deriving DecidableEq

structure StoredChallenge extends PublicPairingChallenge where
  consumedAt : Option Instant
  consumedPeerDeviceId : Option Uuid
  consumedPeerFingerprint : Option String
deriving DecidableEq

structure RegistryState where
  devices : List RegisteredDevice
  challenges : List StoredChallenge
deriving DecidableEq

-- ===== crypto

structure PairingPayload where
  challenge : PublicPairingChallenge
  peer : PeerIdentity
deriving DecidableEq

/-- `createPublicKey(pem)`: it throws, or the key is of another type, or it
is an Ed25519 key with the text its export gives. -/
inductive KeyParse
  | invalid
  | other
  | ed25519 (publicKeyPem : String)

structure Crypto where
  createPublicKey : String → KeyParse
  /-- The SHA-256 digest of a text, in base64url. -/
  sha256 : String → String
  verify : PairingPayload → String → String → Bool

-- ===== validators

variable {α : Type} (crypto : Crypto)

def isBase64Url (c : Char) : Bool :=
  isAlnum c || c == '_' || c == '-'

/-- `[A-Za-z0-9_-]{low,high}`. -/
def isToken (low high : Nat) (text : String) : Bool :=
  low ≤ text.toList.length ∧ text.toList.length ≤ high ∧ text.toList.all isBase64Url = true

def validUuid (value label : String) : Result Uuid :=
  match uuid? value with
  | some id => .ok id
  | none => fail .deviceIdentityInvalid (label ++ " must be a UUID.")

def boundedDeviceName (value : String) : Result String := do
  let trimmed := trim value
  rejectIf (trimmed = "" ∨ deviceNameMax < Json.unitLength trimmed
      ∨ includesChar trimmed '\x00' = true ∨ includesChar trimmed '\r' = true
      ∨ includesChar trimmed '\n' = true)
    .deviceIdentityInvalid "Device name is invalid."
  .ok trimmed

def boundedReason (value : String) : Result String := do
  let trimmed := trim value
  rejectIf (trimmed = "" ∨ reasonMax < Json.unitLength trimmed ∨ includesChar trimmed '\x00' = true)
    .deviceRevocationReasonInvalid "Revocation reason is invalid."
  .ok trimmed

def validIsoDate (value : Option Instant) (label : String) : Result Instant :=
  match value with
  | some at' => .ok at'
  | none => fail .deviceIdentityInvalid (label ++ " must be an ISO timestamp.")

def boundedTtl (value : Number) : Result Nat :=
  match value with
  | .int n =>
    if minTtlMs ≤ n ∧ n ≤ maxTtlMs then .ok n.toNat
    else fail .pairingTtlInvalid "Pairing TTL must be an integer between 30000 and 300000 ms."
  | .other => fail .pairingTtlInvalid "Pairing TTL must be an integer between 30000 and 300000 ms."

def exportKey (publicKeyPem : String) : Result String :=
  match crypto.createPublicKey publicKeyPem with
  | .invalid => fail .deviceIdentityInvalid "Public device key is invalid."
  | .other => fail .deviceIdentityInvalid "Public device key must be Ed25519."
  | .ed25519 exported => .ok exported

def normalizePublicIdentity (input : PublicDeviceIdentity) : Result PeerIdentity := do
  let deviceId ← validUuid input.deviceId "deviceId"
  let deviceName ← boundedDeviceName input.deviceName
  let createdAt ← validIsoDate input.createdAt "createdAt"
  let publicKeyPem ← exportKey crypto input.publicKeyPem
  let fingerprint := crypto.sha256 publicKeyPem
  rejectIf (fingerprint ≠ input.fingerprint) .deviceIdentityInvalid
    "Public device fingerprint does not match the public key."
  .ok { deviceId, deviceName, createdAt, publicKeyPem, fingerprint }

/-- A stored identity as it is checked again. -/
def PeerIdentity.input (peer : PeerIdentity) : PublicDeviceIdentity where
  deviceId := peer.deviceId.val
  deviceName := peer.deviceName
  createdAt := some peer.createdAt
  publicKeyPem := peer.publicKeyPem
  fingerprint := peer.fingerprint

def validateChallenge (input : PublicPairingChallenge) : Result Unit := do
  rejectIf (isToken 32 128 input.issuerFingerprint = false) .pairingChallengeInvalid
    "Pairing issuer fingerprint is invalid."
  rejectIf (isToken 40 128 input.nonce = false) .pairingChallengeInvalid
    "Pairing nonce is invalid."
  rejectIf (input.expiresAt.val ≤ input.issuedAt.val
      ∨ maxTtlMs < input.expiresAt.val - input.issuedAt.val)
    .pairingChallengeInvalid "Pairing challenge lifetime is invalid."

def corruptIf (bad : Prop) [Decidable bad] (message : String) : Result Unit :=
  rejectIf bad .deviceRegistryCorrupt message

/-- The loop of `validateState` over the devices; `seen` are those before. -/
def validateDevices (seen : List RegisteredDevice) :
    List RegisteredDevice → Result (List RegisteredDevice)
  | [] => .ok []
  | raw :: rest => do
    let peer ← normalizePublicIdentity crypto raw.toPeerIdentity.input
    corruptIf (∃ other ∈ seen,
        other.deviceId = peer.deviceId ∨ other.fingerprint = peer.fingerprint)
      "Device registry contains duplicate identities."
    let revokedReason ← raw.revokedReason.mapM boundedReason
    corruptIf (raw.status = .active ∧ raw.revokedAt ≠ none)
      "Active device cannot have a revocation timestamp."
    let device := { raw with toPeerIdentity := peer, revokedReason }
    let devices ← validateDevices (device :: seen) rest
    .ok (device :: devices)

def validateChallenges (seen : List StoredChallenge) : List StoredChallenge → Result Unit
  | [] => .ok ()
  | raw :: rest => do
    validateChallenge raw.toPublicPairingChallenge
    corruptIf (∃ other ∈ seen, other.challengeId = raw.challengeId)
      "Duplicate pairing challenge ID."
    corruptIf (∃ fingerprint ∈ raw.consumedPeerFingerprint, isToken 32 128 fingerprint = false)
      "Consumed pairing peer fingerprint is invalid."
    corruptIf (raw.consumedPeerDeviceId.isSome ≠ raw.consumedPeerFingerprint.isSome
        ∨ (raw.consumedAt = none ∧ raw.consumedPeerDeviceId ≠ none))
      "Consumed pairing replay authority is inconsistent."
    validateChallenges (raw :: seen) rest

def validateState (input : RegistryState) : Result RegistryState := do
  corruptIf (maxDevices < input.devices.length ∨ maxChallenges < input.challenges.length)
    "Device registry exceeds bounded entry limits."
  let devices ← validateDevices crypto [] input.devices
  validateChallenges [] input.challenges
  .ok { input with devices }

def pruneChallenges (reading : ClockReading) (state : RegistryState) : RegistryState :=
  { state with challenges := state.challenges.filter fun challenge =>
      ∃ now ∈ reading,
        now.val - (challenge.consumedAt.getD challenge.expiresAt).val ≤ challengeRetentionMs }

-- ===== operations

/-- What a call meets outside the file: the reading of the clock, what is
drawn for a challenge, and what writing the text throws, where it does
(it may be too long). -/
structure Environment where
  clock : ClockReading
  uuid : Uuid
  nonce : String
  unwritten : Option OperatorError

variable (env : Environment)

def mutate (mutator : RegistryState → Result (RegistryState × α))
    (stored : RegistryState) : Result (RegistryState × α) := do
  let state ← validateState crypto stored
  let (state, result) ← mutator state
  let written ← validateState crypto state
  match env.unwritten with
  | some e => .error e
  | none => .ok (written, result)

def StoredChallenge.isOpen (challenge : StoredChallenge) (now : Instant) : Bool :=
  challenge.consumedAt = none ∧ now.val < challenge.expiresAt.val

/-- The loop that reclaims challenges while there are too many: the first
that is consumed or expired. A round takes one, so the loop has at most as
many rounds as there are challenges. -/
def reclaimRounds (now : Instant) : Nat → List StoredChallenge → List StoredChallenge
  | 0, challenges => challenges
  | rounds + 1, challenges =>
    if maxChallenges ≤ challenges.length ∧ (challenges.any fun c => !c.isOpen now) = true then
      reclaimRounds now rounds (challenges.eraseP fun c => !c.isOpen now)
    else challenges

def reclaim (now : Instant) (challenges : List StoredChallenge) : List StoredChallenge :=
  reclaimRounds now challenges.length challenges

def issuePairingChallenge (issuer : PublicDeviceIdentity) (expectedPeerDeviceId : Option String)
    (ttlMs : Option Number) (stored : RegistryState) :
    Result (RegistryState × PublicPairingChallenge) := do
  let normalizedIssuer ← normalizePublicIdentity crypto issuer
  let ttlMs ← boundedTtl (ttlMs.getD (.int 120000))
  let expectedPeerDeviceId ← expectedPeerDeviceId.mapM (validUuid · "expectedPeerDeviceId")
  let issuedAt ← toISOString env.clock
  let expiresAt ← issuedAt.later ttlMs
  let challenge : PublicPairingChallenge :=
    { challengeId := env.uuid, issuerDeviceId := normalizedIssuer.deviceId
      issuerFingerprint := normalizedIssuer.fingerprint, nonce := env.nonce
      issuedAt, expiresAt, expectedPeerDeviceId }
  mutate crypto env (fun state => do
    let state := pruneChallenges env.clock state
    rejectIf (maxActiveChallenges ≤ (state.challenges.filter (·.isOpen issuedAt)).length)
      .pairingChallengeLimit "At most 128 active pairing challenges may be retained."
    let challenges := reclaim issuedAt state.challenges
    rejectIf (maxChallenges ≤ challenges.length) .pairingChallengeLimit
      "Pairing challenge retention limit reached."
    .ok ({ state with challenges := challenges ++ [{ challenge with
      consumedAt := none, consumedPeerDeviceId := none, consumedPeerFingerprint := none }] },
      challenge)) stored

/-- The response as a call takes it in. -/
structure NormalizedResponse where
  challengeId : Uuid
  peer : PeerIdentity
  signature : String
deriving DecidableEq

/-- The checks of a response before the file is read. -/
def normalizeResponse (response : PairingResponse) : Result NormalizedResponse := do
  let challengeId ← validUuid response.challengeId "challengeId"
  let peer ← normalizePublicIdentity crypto response.peer
  rejectIf (isToken 40 256 response.signature = false) .pairingSignatureInvalid
    "Pairing response signature is malformed."
  .ok { challengeId, peer, signature := response.signature }

/-- The challenge a response answers: it is retained, not expired, meant for
the peer and signed by it. -/
def answeredChallenge (response : NormalizedResponse) (state : RegistryState) :
    Result StoredChallenge :=
  match state.challenges.find? fun challenge => challenge.challengeId == response.challengeId with
  | none => fail .pairingChallengeNotFound
      "Pairing challenge was not found or is no longer retained."
  | some challenge => do
    rejectIf (challenge.consumedAt = none ∧ ∃ now ∈ env.clock, challenge.expiresAt.val < now.val)
      .pairingChallengeExpired "Pairing challenge has expired."
    rejectIf (∃ expected ∈ challenge.expectedPeerDeviceId, expected ≠ response.peer.deviceId)
      .pairingPeerMismatch
      "Pairing response came from a different device than the challenge expected."
    let payload : PairingPayload :=
      { challenge := challenge.toPublicPairingChallenge, peer := response.peer }
    rejectIf (crypto.verify payload response.peer.publicKeyPem response.signature = false)
      .pairingSignatureInvalid "Pairing response signature could not be verified."
    .ok challenge

def consumeChallenge (challengeId : Uuid) (consumedAt : Instant) (peer : Option PeerIdentity)
    (challenges : List StoredChallenge) : List StoredChallenge :=
  Lib.updateFirst (fun challenge => challenge.challengeId == challengeId)
    (fun challenge => { challenge with
      consumedAt := some consumedAt
      consumedPeerDeviceId := (peer.map (·.deviceId)).or challenge.consumedPeerDeviceId
      consumedPeerFingerprint := (peer.map (·.fingerprint)).or challenge.consumedPeerFingerprint })
    challenges

def verifyPairingForEnrollment (response : PairingResponse) (allowExactReplay : Bool)
    (stored : RegistryState) : Result (RegistryState × PeerIdentity) := do
  let response ← normalizeResponse crypto response
  mutate crypto env (fun state => do
    let state := pruneChallenges env.clock state
    let challenge ← answeredChallenge crypto env response state
    if challenge.consumedAt ≠ none then do
      rejectIf (¬ (allowExactReplay = true
          ∧ challenge.consumedPeerDeviceId = some response.peer.deviceId
          ∧ challenge.consumedPeerFingerprint = some response.peer.fingerprint))
        .pairingChallengeReplay "Pairing challenge has already been consumed."
      .ok (state, response.peer)
    else do
      let consumedAt ← toISOString env.clock
      .ok ({ state with
        challenges := consumeChallenge response.challengeId consumedAt (some response.peer)
          state.challenges }, response.peer)) stored

def sameId (state : RegistryState) (peer : PeerIdentity) : Option RegisteredDevice :=
  state.devices.find? fun device => device.deviceId == peer.deviceId

def sameFingerprint (state : RegistryState) (peer : PeerIdentity) : Option RegisteredDevice :=
  state.devices.find? fun device => device.fingerprint == peer.fingerprint

/-- The checks of a registration; `silently` is how the error of a revoked
device goes on. -/
def requireRegistrable (state : RegistryState) (peer : PeerIdentity) (silently : String) :
    Result Unit := do
  rejectIf (∃ device ∈ sameId state peer, device.fingerprint ≠ peer.fingerprint)
    .deviceIdentityConflict "The device ID is already registered with a different public key."
  rejectIf (∃ device ∈ sameFingerprint state peer, device.deviceId ≠ peer.deviceId)
    .deviceIdentityConflict
    "The public-key fingerprint is already registered to a different device ID."
  rejectIf (∃ device ∈ sameId state peer, device.status = .revoked) .deviceRevoked
    ("This device identity is revoked and cannot be silently reactivated" ++ silently)
  rejectIf (sameId state peer = none ∧ maxDevices ≤ state.devices.length) .deviceRegistryLimit
    "At most 1000 peer devices may be registered."

def registered (existing : Option RegisteredDevice) (peer : PeerIdentity) (pairedAt : Instant) :
    RegisteredDevice :=
  match existing with
  | none => { peer with status := .active, pairedAt, revokedAt := none, revokedReason := none }
  | some device => { device with
      deviceName := peer.deviceName, createdAt := peer.createdAt
      publicKeyPem := peer.publicKeyPem, pairedAt }

def register (state : RegistryState) (peer : PeerIdentity) (pairedAt : Instant) :
    List RegisteredDevice :=
  match sameId state peer with
  | none => state.devices ++ [registered none peer pairedAt]
  | some _ => Lib.updateFirst (fun device => device.deviceId == peer.deviceId)
      (fun device => registered (some device) peer pairedAt) state.devices

def registerVerifiedPeerTracked (peerInput : PublicDeviceIdentity) (stored : RegistryState) :
    Result (RegistryState × RegisteredDevice × Bool) := do
  let peer ← normalizePublicIdentity crypto peerInput
  mutate crypto env (fun state => do
    requireRegistrable state peer "."
    let pairedAt ← toISOString env.clock
    .ok ({ state with devices := register state peer pairedAt },
      registered (sameId state peer) peer pairedAt, (sameId state peer).isNone)) stored

def unregisterActiveDevice (deviceIdInput : String) (expectedFingerprint : Option String)
    (stored : RegistryState) : Result (RegistryState × Bool) := do
  let deviceId ← validUuid deviceIdInput "deviceId"
  rejectIf (∃ expected ∈ expectedFingerprint, isToken 32 128 expected = false)
    .deviceIdentityInvalid "Expected device fingerprint is invalid."
  mutate crypto env (fun state =>
    match state.devices.find? fun device => device.deviceId == deviceId with
    | none => .ok (state, false)
    | some device =>
      if device.status = .revoked then .ok (state, false)
      else do
        rejectIf (∃ expected ∈ expectedFingerprint, device.fingerprint ≠ expected)
          .deviceIdentityConflict "Device registration fingerprint changed before rollback."
        .ok ({ state with
          devices := state.devices.eraseP fun device => device.deviceId == deviceId }, true))
    stored

def completePairing (response : PairingResponse) (allowExactReplay : Bool)
    (stored : RegistryState) : Result (RegistryState × RegisteredDevice) := do
  let response ← normalizeResponse crypto response
  let peer := response.peer
  mutate crypto env (fun state => do
    let state := pruneChallenges env.clock state
    let challenge ← answeredChallenge crypto env response state
    if challenge.consumedAt ≠ none then
      match (sameId state peer).filter fun device =>
          allowExactReplay = true ∧ device.status = .active
            ∧ device.fingerprint = peer.fingerprint with
      | some device => .ok (state, device)
      | none => fail .pairingChallengeReplay "Pairing challenge has already been consumed."
    else do
      requireRegistrable state peer " by pairing."
      let pairedAt ← toISOString env.clock
      .ok ({ devices := register state peer pairedAt
             challenges := consumeChallenge response.challengeId pairedAt none state.challenges },
        registered (sameId state peer) peer pairedAt)) stored

/-- `revokeDevice(deviceIdInput, reasonInput)`, without the hook that follows
a change. -/
def revokeDevice (deviceIdInput : String) (reasonInput : Option String) (stored : RegistryState) :
    Result (RegistryState × RegisteredDevice) := do
  let deviceId ← validUuid deviceIdInput "deviceId"
  let reason ← reasonInput.mapM boundedReason
  mutate crypto env (fun state =>
    match state.devices.find? fun device => device.deviceId == deviceId with
    | none => fail .deviceNotFound "Registered device was not found."
    | some device =>
      if device.status = .revoked then .ok (state, device)
      else do
        let revokedAt ← toISOString env.clock
        let revoke (device : RegisteredDevice) : RegisteredDevice :=
          { device with status := .revoked, revokedAt := some revokedAt, revokedReason := reason }
        .ok ({ state with
          devices := Lib.updateFirst (fun device => device.deviceId == deviceId) revoke
            state.devices }, revoke device)) stored

-- ===== runs

/-- What tells one peer from another: its device identifier and the
fingerprint of its key. -/
abbrev Identity := Uuid × String

def PeerIdentity.identity (peer : PeerIdentity) : Identity :=
  (peer.deviceId, peer.fingerprint)

/-- A peer that has paired by a challenge. -/
structure Pairing where
  challengeId : Uuid
  identity : Identity
deriving DecidableEq

inductive Call
  | issuePairingChallenge (issuer : PublicDeviceIdentity) (expectedPeerDeviceId : Option String)
      (ttlMs : Option Number)
  | verifyPairingForEnrollment (response : PairingResponse) (allowExactReplay : Bool)
  | registerVerifiedPeerTracked (peer : PublicDeviceIdentity)
  | unregisterActiveDevice (deviceId : String) (expectedFingerprint : Option String)
  | completePairing (response : PairingResponse) (allowExactReplay : Bool)
  | revokeDevice (deviceId : String) (reason : Option String)

/-- The file a call leaves where it does not throw, and, of a call that
answers a challenge, the peer it answers. -/
def Call.run : Call → RegistryState → Result (RegistryState × Option Pairing)
  | .issuePairingChallenge issuer expectedPeerDeviceId ttlMs, stored => do
    let (state, _) ←
      DeviceRegistry.issuePairingChallenge crypto env issuer expectedPeerDeviceId ttlMs stored
    .ok (state, none)
  | .verifyPairingForEnrollment response allowExactReplay, stored => do
    let normalized ← normalizeResponse crypto response
    let (state, peer) ←
      DeviceRegistry.verifyPairingForEnrollment crypto env response allowExactReplay stored
    .ok (state, some ⟨normalized.challengeId, peer.identity⟩)
  | .registerVerifiedPeerTracked peer, stored => do
    let (state, _) ← DeviceRegistry.registerVerifiedPeerTracked crypto env peer stored
    .ok (state, none)
  | .unregisterActiveDevice deviceId expectedFingerprint, stored => do
    let (state, _) ←
      DeviceRegistry.unregisterActiveDevice crypto env deviceId expectedFingerprint stored
    .ok (state, none)
  | .completePairing response allowExactReplay, stored => do
    let normalized ← normalizeResponse crypto response
    let (state, device) ←
      DeviceRegistry.completePairing crypto env response allowExactReplay stored
    .ok (state, some ⟨normalized.challengeId, device.identity⟩)
  | .revokeDevice deviceId reason, stored => do
    let (state, _) ← DeviceRegistry.revokeDevice crypto env deviceId reason stored
    .ok (state, none)

/-- The file, and who has been answered: the peers whose calls consumed a
challenge, and the peers that received a successful answer to one. -/
structure Machine where
  registry : RegistryState
  consumed : List Pairing
  answered : List Pairing
deriving DecidableEq

/-- A call, what it meets, and whether the process ends before it answers. -/
structure Turn where
  env : Environment
  call : Call
  lost : Bool

/-- The call finds the challenge unconsumed. -/
def consumes (registry : RegistryState) (pairing : Pairing) : Bool :=
  registry.challenges.any fun challenge =>
    challenge.challengeId = pairing.challengeId ∧ challenge.consumedAt = none

/-- A call that throws leaves the file as it is. -/
def step (m : Machine) (turn : Turn) : Option Machine :=
  match turn.call.run crypto turn.env m.registry with
  | .error _ => some m
  | .ok (registry, pairing) =>
    some { registry
           consumed := (pairing.filter (consumes m.registry)).toList ++ m.consumed
           answered := if turn.lost = true then m.answered
             else pairing.toList ++ m.answered }

/-- No file yet. -/
def initial : Machine where
  registry := { devices := [], challenges := [] }
  consumed := []
  answered := []

end OperatorRuntime.DeviceRegistry
