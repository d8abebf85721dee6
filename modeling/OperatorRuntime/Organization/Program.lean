/-
The programs of `core/organization-coordinator.ts`: what is stored of one,
how `create` cuts the targets into waves, the derived ids of
`core/organization-identity.ts`, and `validateProgram`, which every program
passes before it is written and after it is read.

Ids, digests and timestamps are of types that only hold what `validUuid`,
`shaDigest` and `validIso` let through, and a state of the program, of a
target or of a wave is one of its enumeration, so these checks of stored
fields do not reappear.
-/
import OperatorRuntime.ControlPlane.Record
import OperatorRuntime.Identifiers
import OperatorRuntime.Team.Mission

namespace OperatorRuntime.Organization

open Lib

/-- SHA-256 of a text, and the collation of the platform. -/
structure Platform where
  sha256 : String → Hex64
  localeCompare : String → String → Int

-- ===== records

inductive OrganizationProgramState
  | pending
  | running
  | paused
  | blocked
  | failed
  | cancelled
  | verified
deriving DecidableEq

inductive OrganizationTargetState
  | pending
  | running
  | verified
  | failed
  | blocked
  | cancelled
deriving DecidableEq

inductive OrganizationWaveState
  | pending
  | running
  | verified
  | failed
deriving DecidableEq

inductive ControlOperation
  | pause
  | cancel
deriving DecidableEq

structure ControlFailure where
  operation : ControlOperation
  code : String
  message : String
  at' : Instant

structure OrganizationTarget where
  key : String
  scopeKey : String
  wave : Nat
  state : OrganizationTargetState
  workItems : List Team.TeamWorkInput
  missionId : Option Uuid
  updatedAt : Instant
  controlFailure : Option ControlFailure

structure OrganizationWave where
  index : Nat
  targetKeys : List String
  state : OrganizationWaveState
  verificationDigest : Option Hex64
  promotedAt : Option Instant
  promotionDigest : Option Hex64

structure OrganizationPolicy where
  canarySize : Int
  waveSize : Int
  maxParallel : Int
  allowedScopePrefixes : List String
  teamBudget : Option Team.TeamBudgetInput

structure OrganizationProgram where
  id : Uuid
  objective : String
  state : OrganizationProgramState
  policy : OrganizationPolicy
  targets : List OrganizationTarget
  waves : List OrganizationWave
  activeWave : Nat
  createdAt : Instant
  updatedAt : Instant

def maxPrograms : Nat := 500
def maxTargets : Nat := 5000
def maxScopePrefixes : Nat := 100

-- ===== validators

variable {α : Type}

def inputInvalid (message : String) : Result α :=
  fail .organizationInputInvalid message

/-- `if (bad) throw corrupt(message)`. -/
def corruptIf (bad : Prop) [Decidable bad] (message : String) : Result Unit :=
  rejectIf bad .organizationStateCorrupt s!"Organization execution state is invalid. {message}"

def boundedText (input : String) (max : Nat) (label : String) : Result String := do
  rejectIf (jsLength input < 1 ∨ max < jsLength input ∨ includesChar input '\x00' = true)
    .organizationInputInvalid s!"{label} is invalid."
  .ok input

def boundedContext (input label : String) : Result String := do
  let value ← boundedText input 512 label
  rejectIf (isKeyText 512 value = false) .organizationInputInvalid s!"{label} is invalid."
  .ok value

def boundedKey (input label : String) : Result String := do
  let value ← boundedText input 128 label
  rejectIf (Team.isBoundedKey value = false) .organizationInputInvalid s!"{label} is invalid."
  .ok value

/-- `boundedInteger(input, min, max, label)`, on a safe integer. -/
def boundedInteger (input min max : Int) (label : String) : Result Int := do
  rejectIf (input < min ∨ max < input) .organizationInputInvalid s!"{label} is invalid."
  .ok input

def validUuid (input label : String) : Result Uuid :=
  let value := input.map Char.toLower
  if h : matchesClasses uuidClasses value.toList = true then .ok ⟨value, h⟩
  else inputInvalid s!"{label} must be UUID."

def shaDigest (input label : String) : Result Hex64 :=
  match hex64? input with
  | some digest => .ok digest
  | none => inputInvalid s!"{label} must be SHA-256."

-- ===== derived ids

def stableOrganizationMissionId (platform : Platform) (programId : Uuid) (targetKey : String) :
    Uuid :=
  uuidOfDigest
    (platform.sha256 ("organization-mission\x00" ++ programId.val ++ "\x00" ++ targetKey))

/-- The operation a compensation intent asks for. -/
inductive CompensationOperation
  | cancelTeamMission
  | pauseTeamMission
  | reconcileUntrustedTeamIdentity
deriving DecidableEq

def CompensationOperation.text : CompensationOperation → String
  | .cancelTeamMission => "cancel-team-mission"
  | .pauseTeamMission => "pause-team-mission"
  | .reconcileUntrustedTeamIdentity => "reconcile-untrusted-team-identity"

/-- `organizationCompensationIntentId(programId, operation, targetId)`. -/
def compensationIntentId (platform : Platform) (programId : Uuid)
    (operation : CompensationOperation) (targetId : Uuid) : String :=
  "organization:" ++ (platform.sha256
    (programId.val ++ "\x00" ++ operation.text ++ "\x00" ++ targetId.val)).val

-- ===== policy

/-- `Partial<OrganizationPolicy>`. -/
structure PolicyInput where
  canarySize : Option Int := none
  waveSize : Option Int := none
  maxParallel : Option Int := none
  allowedScopePrefixes : Option (List String) := none
  teamBudget : Option Team.TeamBudgetInput := none

def normalizePolicy (input : PolicyInput) (targetCount : Nat) :
    Result OrganizationPolicy := do
  let maxParallel ← boundedInteger (input.maxParallel.getD 20) 1 200 "maxParallel"
  let canarySize ←
    boundedInteger (input.canarySize.getD 1) 1 (min (targetCount : Int) maxParallel) "canarySize"
  let waveSize ←
    boundedInteger (input.waveSize.getD (min 20 maxParallel)) 1 maxParallel "waveSize"
  let allowedScopePrefixes ←
    (input.allowedScopePrefixes.getD ["org"]).zipIdx.mapM fun (value, index) =>
      boundedContext value s!"allowedScopePrefixes[{index}]"
  rejectIf (allowedScopePrefixes.length < 1 ∨ maxScopePrefixes < allowedScopePrefixes.length
      ∨ ¬ allowedScopePrefixes.Nodup)
    .organizationInputInvalid "allowedScopePrefixes are invalid."
  .ok
    { canarySize, waveSize, maxParallel
      allowedScopePrefixes := Json.sortTexts allowedScopePrefixes, teamBudget := input.teamBudget }

/-- A stored policy, as `normalizePolicy` reads it. -/
def OrganizationPolicy.input (policy : OrganizationPolicy) : PolicyInput where
  canarySize := some policy.canarySize
  waveSize := some policy.waveSize
  maxParallel := some policy.maxParallel
  allowedScopePrefixes := some policy.allowedScopePrefixes
  teamBudget := policy.teamBudget

/-- A scope is a prefix or lies beneath it. -/
def inScope (scopeKey allowed : String) : Bool :=
  scopeKey == allowed || (allowed ++ ":").toList.isPrefixOf scopeKey.toList
    || (allowed ++ "/").toList.isPrefixOf scopeKey.toList

-- ===== waves

def newWave (index : Nat) (targetKeys : List String) : OrganizationWave where
  index := index
  targetKeys := targetKeys
  state := .pending
  verificationDigest := none
  promotedAt := none
  promotionDigest := none

/-- The loop of `buildWaves`, over the keys from the cursor on. It ends
because the size of a wave is at least one. -/
@[grind =] def restWaves (waveSize : Nat) : Nat → Nat → List String → List OrganizationWave
  | 0, _, _ => []
  | fuel + 1, index, targetKeys =>
    match targetKeys with
    | [] => []
    | _ :: _ =>
      newWave index (targetKeys.take waveSize)
        :: restWaves waveSize fuel (index + 1) (targetKeys.drop waveSize)

def buildWaves (targetKeys : List String) (policy : OrganizationPolicy) : List OrganizationWave :=
  let canarySize := policy.canarySize.toNat
  newWave 0 (targetKeys.take canarySize)
    :: restWaves policy.waveSize.toNat targetKeys.length 1 (targetKeys.drop canarySize)

/-- `waveByTarget.get(key)`: of several waves with the key, the last. -/
def waveByTarget (waves : List OrganizationWave) (key : String) : Nat :=
  ((waves.reverse.find? fun wave => wave.targetKeys.contains key).map (·.index)).getD 0

-- ===== validation

def validateTarget (program : OrganizationProgram) (seen : List String)
    (target : OrganizationTarget) : Result (List String) := do
  let _ ← boundedKey target.key "target key"
  let _ ← boundedContext target.scopeKey "scopeKey"
  let _ ← boundedInteger target.wave 0 (program.waves.length - 1) "target wave"
  corruptIf (target.key ∈ seen) "Target keys must be unique."
  corruptIf (target.workItems.length < 1) "Target work items are invalid."
  match target.controlFailure with
  | none => pure ()
  | some failure =>
    let _ ← boundedKey failure.code "control failure code"
    let _ ← boundedText failure.message (64 * 1024) "control failure message"
  .ok (target.key :: seen)

def validateWave (program : OrganizationProgram) (wave : OrganizationWave) :
    Result Unit := do
  let _ ← boundedInteger wave.index 0 (program.waves.length - 1) "wave index"
  corruptIf (wave.targetKeys.length < 1
      ∨ ∃ key ∈ wave.targetKeys, key ∉ program.targets.map (·.key)) "Wave targets are invalid."
  corruptIf (wave.promotionDigest.isSome = true ∧ wave.verificationDigest.isSome = true
      ∧ wave.promotionDigest ≠ wave.verificationDigest)
    "Wave promotion digest must be bound to the wave verification digest."

def validateProgram (program : OrganizationProgram) : Result Unit := do
  let _ ← boundedText program.objective 16384 "objective"
  let _ ← normalizePolicy program.policy.input (max 1 program.targets.length)
  corruptIf (program.targets.length < 1 ∨ maxTargets < program.targets.length)
    "Program targets are invalid."
  corruptIf (program.waves.length < 1) "Program waves are invalid."
  let _ ← boundedInteger program.activeWave 0 (program.waves.length - 1) "activeWave"
  let _ ← program.targets.foldlM (validateTarget program) []
  program.waves.forM (validateWave program)

def validateState (programs : List OrganizationProgram) : Result Unit := do
  corruptIf (maxPrograms < programs.length) "State shape is invalid."
  let _ ← programs.foldlM (fun (ids : List Uuid) program => do
    validateProgram program
    corruptIf (program.id ∈ ids) "Program IDs must be unique."
    .ok (program.id :: ids)) []

-- ===== create

structure TargetInput where
  key : String
  scopeKey : String
  workItems : List Team.TeamWorkInput

structure CreateInput where
  programId : Option String
  objective : String
  targets : List TargetInput
  policy : PolicyInput

def normalizeTarget (policy : OrganizationPolicy) (seen : List TargetInput)
    (target : TargetInput) : Result (List TargetInput) := do
  let index := seen.length
  let key ← boundedKey target.key s!"targets[{index}].key"
  rejectIf (key ∈ seen.map (·.key)) .organizationInputInvalid "Target keys must be unique."
  let scopeKey ← boundedContext target.scopeKey s!"targets[{index}].scopeKey"
  rejectIf ((policy.allowedScopePrefixes.any (inScope scopeKey)) = false)
    .organizationScopeDenied s!"Target {key} is outside allowed organization scope prefixes."
  rejectIf (target.workItems.length < 1)
    .organizationInputInvalid s!"Target {key} requires Stage-4 work items."
  .ok (seen ++ [{ key, scopeKey, workItems := target.workItems }])

def inputProgramId (randomUUID : Uuid) : Option String → Result Uuid
  | none => .ok randomUUID
  | some id => validUuid id "programId"

def newProgram (input : CreateInput) (randomUUID : Uuid) (now : Instant) :
    Result OrganizationProgram := do
  let objective ← boundedText input.objective 16384 "objective"
  let programId ← inputProgramId randomUUID input.programId
  rejectIf (input.targets.length < 1 ∨ maxTargets < input.targets.length)
    .organizationInputInvalid "targets must contain 1-5000 entries."
  let policy ← normalizePolicy input.policy input.targets.length
  let targets ← input.targets.foldlM (normalizeTarget policy) []
  let waves := buildWaves (targets.map (·.key)) policy
  .ok
    { id := programId, objective, state := .pending, policy
      targets := targets.map fun target =>
        { key := target.key, scopeKey := target.scopeKey, wave := waveByTarget waves target.key
          state := .pending, workItems := target.workItems, missionId := none, updatedAt := now
          controlFailure := none }
      waves, activeWave := 0, createdAt := now, updatedAt := now }

end OperatorRuntime.Organization
