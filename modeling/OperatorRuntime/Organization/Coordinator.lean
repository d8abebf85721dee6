/-
`OrganizationCoordinator` of `core/organization-coordinator.ts` and the
`DurableCompensationJournal` it keeps. Three things are durable: the
programs, the intents of the journal, and the child missions, which the
team coordinator stores.

An operation is a row of sections, each under the lock of the programs'
file: `recoverPendingCompensations`, the check that no intent is pending,
and the mutation. Sections of different calls may follow one another in any
order, and a process may die after any write within one.

What the team coordinator does and answers at each call is given (`Env`),
as is how each write of the two files ends. The clock is read once in a
section. The other owners of the journal are left out; the fields of an
intent are within the bounds of `normalizeIntent`.
-/
import OperatorRuntime.Lib.Script
import OperatorRuntime.Organization.Program

namespace OperatorRuntime.Organization

open Lib

-- ===== children

/-- The stored child missions. -/
abbrev Missions := Uuid → Option Team.TeamMission

inductive TeamCall
  | submit (missionId : Uuid) (objective : String) (workItems : List Team.TeamWorkInput)
      (budget : Option Team.TeamBudgetInput)
  | inspect (missionId : Uuid)
  | start (missionId : Uuid)
  | pause (missionId : Uuid)
  | resume (missionId : Uuid)
  | cancel (missionId : Uuid)

def TeamCall.missionId : TeamCall → Uuid
  | .submit missionId _ _ _ | .inspect missionId | .start missionId | .pause missionId
  | .resume missionId | .cancel missionId => missionId

/-- A thrown value: its `code`, where it has one, and its message. -/
structure Thrown where
  code : Option String
  message : String

def OperatorError.thrown (error : OperatorError) : Thrown where
  code := some error.code.text
  message := error.message

-- ===== journal

structure DurableCompensationIntent where
  id : String
  ownerId : Uuid
  operation : CompensationOperation
  targetId : Uuid
  subjectKey : String
  createdAt : Instant
  confirmedAt : Option Instant

def maxIntents : Nat := 10000

-- ===== world

/-- A target of a wave that `#verifiedWaveDigest` found verified, with the
mission it inspected. -/
structure TargetProof where
  targetKey : String
  mission : Team.TeamMission

inductive Event
  | created (program : OrganizationProgram)
  /-- A call about the child of a target, whether it was answered, and the
  state of the mission after it. -/
  | child (programId : Uuid) (targetKey : String) (call : TeamCall) (answered : Bool)
      (after : Option Team.TeamMissionState)
  /-- A promotion of a wave passed every check. -/
  | promoted (programId : Uuid) (wave : Nat) (proofs : List TargetProof) (supplied : Hex64)
  /-- The programs were written. -/
  | written

/-- A registered `onRollback` callback. -/
structure Rollback where
  operation : ControlOperation
  programId : Uuid
  targetKey : String
  missionId : Uuid
  intentId : String

/-- The callbacks of the mutation under way, the newest first: those of
`onRollback`, and the intents those of `onCommit` complete. -/
structure Transaction where
  rollbacks : List Rollback
  commits : List String

/-- The durable state, the events so far, the newest first, and what the
process that is at work holds: its transaction and the number of calls and
writes it has made. -/
structure World where
  programs : List OrganizationProgram
  intents : List DurableCompensationIntent
  missions : Missions
  log : List Event
  transaction : Transaction
  tick : Nat

inductive WriteOutcome
  | done
  | failsBefore
  | failsAfter

/-- The answers within one section, by the number of the call or write. -/
structure Env where
  now : Instant
  randomUUID : Uuid
  teams : Nat → TeamCall → Missions → Missions × Except Thrown Team.TeamMission
  writes : Nat → WriteOutcome

abbrev Op (α : Type) := Script World Thrown α

variable {α : Type}

-- ===== primitives

/-- A computation that may throw an `OperatorError`. -/
def check (x : Result α) : Op α := Script.lift (x.mapError OperatorError.thrown)

/-- A change of what the process holds. -/
def modify (f : World → World) : Op PUnit := Script.write f

def durably (env : Env) (f : World → World) : Op PUnit := do
  let w ← Script.read
  let counted := fun w : World => { w with tick := w.tick + 1 }
  match env.writes w.tick with
  | .done => Script.write fun w => counted (f w)
  | .failsBefore =>
    Script.write counted
    Script.lift (.error { code := none, message := "write" })
  | .failsAfter =>
    Script.write fun w => counted (f w)
    Script.lift (.error { code := none, message := "write" })

def teamCall (env : Env) (programId : Uuid) (targetKey : String) (call : TeamCall) :
    Op Team.TeamMission := do
  let w ← Script.read
  let (missions, answer) := env.teams w.tick call w.missions
  Script.write fun w =>
    { w with
      missions, tick := w.tick + 1
      log := .child programId targetKey call answer.isOk
        ((missions call.missionId).map (·.state)) :: w.log }
  Script.lift answer

-- ==== journal operations

def sameIntent (a b : DurableCompensationIntent) : Bool :=
  a.id == b.id && a.ownerId == b.ownerId && a.operation == b.operation && a.targetId == b.targetId
    && a.subjectKey == b.subjectKey

/-- What `prepare` leaves in the journal. -/
def prepareIn (platform : Platform) (candidate : DurableCompensationIntent)
    (intents : List DurableCompensationIntent) :
    Result (List DurableCompensationIntent) :=
  match intents.find? fun item => item.id == candidate.id with
  | some existing =>
    if sameIntent existing candidate then .ok intents
    else fail .compensationIntentConflict
      "Compensation intent id is already bound to a different recovery contract."
  | none => do
    rejectIf (maxIntents ≤ intents.length) .compensationJournalLimit
      "Too many pending durable compensation intents."
    .ok ((intents ++ [candidate]).insertionSort fun a b => platform.localeCompare a.id b.id ≤ 0)

/-- `compensations.prepare(input)`, of an intent of a program. -/
def prepare (platform : Platform) (env : Env) (programId : Uuid)
    (operation : CompensationOperation) (targetId : Uuid) (subjectKey : String) : Op Unit := do
  let w ← Script.read
  let intents ← check (prepareIn platform
    { id := compensationIntentId platform programId operation targetId, ownerId := programId
      operation, targetId, subjectKey, createdAt := env.now, confirmedAt := none } w.intents)
  durably env fun w => { w with intents }

def confirm (env : Env) (id : String) : Op Unit := do
  let w ← Script.read
  check (rejectIf (id ∉ w.intents.map (·.id)) .compensationIntentNotFound
    "Cannot confirm a missing compensation intent.")
  durably env fun w =>
    { w with
      intents := updateFirst (fun item => item.id == id) (fun item =>
        { item with confirmedAt := some (item.confirmedAt.getD env.now) }) w.intents }

def complete (env : Env) (id : String) : Op Unit :=
  durably env fun w => { w with intents := w.intents.filter fun item => item.id != id }

-- ===== reads and writes

/-- `#read()`. -/
def readPrograms : Op (List OrganizationProgram) := do
  let w ← Script.read
  check (validateState w.programs)
  pure w.programs

/-- `#write(state)`, with the event of the write. -/
def writePrograms (env : Env) (programs : List OrganizationProgram) (event : Event) : Op Unit := do
  check (validateState programs)
  durably env fun w => { w with programs, log := event :: w.log }

/-- A program changed in place. -/
def putProgram (programs : List OrganizationProgram) (program : OrganizationProgram) :
    List OrganizationProgram :=
  updateFirst (fun item => item.id == program.id) (fun _ => program) programs

-- ===== create

/-- The program retention reclaims: the terminal one updated longest ago. -/
def reclaimable (platform : Platform) (programs : List OrganizationProgram) : Option Nat :=
  let terminal := programs.zipIdx.filter fun (item, _) =>
    item.state == .verified || item.state == .failed || item.state == .cancelled
  ((terminal.insertionSort fun (a, _) (b, _) =>
    let byTime := platform.localeCompare a.updatedAt.isoText b.updatedAt.isoText
    (if byTime ≠ 0 then byTime else platform.localeCompare a.id.val b.id.val) ≤ 0).head?).map
      (·.2)

/-- The programs that stay when one is to be added. -/
def reclaim (platform : Platform) (programs : List OrganizationProgram) :
    Result (List OrganizationProgram) :=
  if maxPrograms ≤ programs.length then
    match reclaimable platform programs with
    | none => fail .organizationProgramLimit
        "Organization program limit reached with no terminal program eligible for retention reclamation."
    | some index => .ok (programs.eraseIdx index)
  else .ok programs

/-- `create(input)`, the section of the program it makes. -/
def create (platform : Platform) (env : Env) (input : CreateInput) : Op Unit := do
  let program ← check (newProgram input env.randomUUID env.now)
  let programs ← readPrograms
  check (rejectIf (program.id ∈ programs.map (·.id)) .organizationProgramIdConflict
    "Existing program identity cannot be reallocated.")
  let kept ← check (reclaim platform programs)
  writePrograms env (kept ++ [program]) (.created program)

-- ===== mutate

/-- A registered rollback; what it throws is dropped. -/
def rollback (env : Env) (callback : Rollback) : Op Unit := do
  let _ ← Script.attempt do
    let mission ← teamCall env callback.programId callback.targetKey
      (match callback.operation with
      | .cancel => .cancel callback.missionId
      | .pause => .pause callback.missionId)
    if mission.id = callback.missionId ∧ mission.state = (match callback.operation with
        | .cancel => .cancelled
        | .pause => .paused) then
      complete env callback.intentId
  pure ()

def mutate (env : Env) (id : Uuid) (body : OrganizationProgram → Op OrganizationProgram) :
    Op Unit := do
  let programs ← readPrograms
  match programs.find? fun item => item.id == id with
  | none => check (fail .organizationProgramNotFound "Organization program was not found.")
  | some program =>
    modify fun w => { w with transaction := { rollbacks := [], commits := [] } }
    let result ← Script.attempt do
      let program ← body program
      check (validateProgram program)
      writePrograms env (putProgram programs program) .written
      let w ← Script.read
      w.transaction.commits.reverse.forM fun intentId => do
        let _ ← Script.attempt (complete env intentId)
    match result with
    | .ok _ => pure ()
    | .error error =>
      let w ← Script.read
      w.transaction.rollbacks.forM (rollback env)
      Script.lift (.error error)

/-- `transaction.onRollback(..)` and `transaction.onCommit(..)`. -/
def register (callback : Rollback) : Op Unit :=
  modify fun w =>
    { w with
      transaction :=
        { rollbacks := callback :: w.transaction.rollbacks
          commits := callback.intentId :: w.transaction.commits } }

-- ===== #startWave

def startTarget (platform : Platform) (env : Env) (program : OrganizationProgram)
    (waveIndex : Nat) (target : OrganizationTarget) : Op OrganizationTarget :=
  if target.wave ≠ waveIndex ∨ target.missionId.isSome = true then pure target
  else do
    let plannedMissionId := stableOrganizationMissionId platform program.id target.key
    let compensationId :=
      compensationIntentId platform program.id .cancelTeamMission plannedMissionId
    prepare platform env program.id .cancelTeamMission plannedMissionId target.key
    let mission ← teamCall env program.id target.key
      (.submit plannedMissionId s!"{program.objective} [{target.key}]" target.workItems
        program.policy.teamBudget)
    if mission.id ≠ plannedMissionId then
      prepare platform env program.id .reconcileUntrustedTeamIdentity mission.id target.key
      check (fail .organizationMissionIdConflict
        "Child mission identity differs from its write-ahead recovery contract.")
    else
      confirm env compensationId
      register
        { operation := .cancel, programId := program.id, targetKey := target.key
          missionId := mission.id, intentId := compensationId }
      let started ← teamCall env program.id target.key (.start mission.id)
      check (rejectIf (started.id ≠ mission.id ∨ started.state ≠ .running)
        .organizationChildStartUnconfirmed
        "Child mission did not confirm exact identity and running state.")
      pure { target with missionId := some mission.id, state := .running, updatedAt := env.now }

def OrganizationProgram.modifyWave (program : OrganizationProgram) (index : Nat)
    (f : OrganizationWave → OrganizationWave) : OrganizationProgram :=
  { program with waves := program.waves.modify index f }

def startWave (platform : Platform) (env : Env) (program : OrganizationProgram)
    (waveIndex : Nat) : Op OrganizationProgram :=
  match program.waves[waveIndex]? with
  | none => check (fail .organizationWaveInvalid "Rollout wave was not found.")
  | some wave => do
    check (rejectIf (program.policy.maxParallel < wave.targetKeys.length)
      .organizationParallelLimit "Wave exceeds configured parallel blast-radius limit.")
    let targets ← program.targets.mapM (startTarget platform env program waveIndex)
    pure ({ program with targets }.modifyWave waveIndex fun wave => { wave with state := .running })

-- ===== start

/-- The part of the loop of `start` for a child that is paused or blocked. -/
def resumeChild (platform : Platform) (env : Env) (program : OrganizationProgram)
    (targetKey : String) (mission : Team.TeamMission) : Op Unit :=
  if mission.state = .paused ∨ mission.state = .blocked then do
    let compensationId := compensationIntentId platform program.id .pauseTeamMission mission.id
    prepare platform env program.id .pauseTeamMission mission.id targetKey
    register
      { operation := .pause, programId := program.id, targetKey
        missionId := mission.id, intentId := compensationId }
    let resumed ← teamCall env program.id targetKey (.resume mission.id)
    check (rejectIf (resumed.id ≠ mission.id ∨ resumed.state ≠ .running)
      .organizationChildResumeUnconfirmed
      "Child mission did not confirm exact identity and running state before advancement.")
  else pure ()

/-- One target in the loop of `start`. -/
def resumeTarget (platform : Platform) (env : Env) (program : OrganizationProgram)
    (target : OrganizationTarget) : Op OrganizationTarget :=
  match target.missionId with
  | none => pure target
  | some missionId =>
    if target.wave ≠ program.activeWave ∨ target.state ≠ .blocked then pure target
    else do
      let mission ← teamCall env program.id target.key (.inspect missionId)
      check (rejectIf (mission.id ≠ missionId) .organizationChildIdConflict
        "Provider inspection returned an unrelated mission identity.")
      resumeChild platform env program target.key mission
      pure
        { target with
          state := if mission.state = .verified then .verified else .running
          updatedAt := env.now }

/-- The loop of `start`, where the program was paused or blocked. -/
def resumeTargets (platform : Platform) (env : Env) (wasPaused : Bool)
    (program : OrganizationProgram) : Op (List OrganizationTarget) :=
  if wasPaused then program.targets.mapM (resumeTarget platform env program)
  else pure program.targets

def startBody (platform : Platform) (env : Env) (program : OrganizationProgram) :
    Op OrganizationProgram := do
  check (rejectIf (program.state ≠ .pending ∧ program.state ≠ .paused ∧ program.state ≠ .blocked)
    .organizationStateInvalid "Only pending/paused/blocked programs can start.")
  let wasPaused := program.state == .paused || program.state == .blocked
  let program := { program with state := .running }
  let targets ← resumeTargets platform env wasPaused program
  let program ← startWave platform env { program with targets } program.activeWave
  pure { program with updatedAt := env.now }

-- ===== refresh

def targetStateOf : Team.TeamMissionState → OrganizationTargetState
  | .verified => .verified
  | .failed => .failed
  | .cancelled => .cancelled
  | .blocked | .paused => .blocked
  | .pending | .running => .running

/-- A target brought up to date. -/
def refreshTarget (env : Env) (program : OrganizationProgram) (target : OrganizationTarget) :
    Op OrganizationTarget :=
  match target.missionId with
  | none => pure target
  | some missionId =>
    if target.state ≠ .running ∧ target.state ≠ .blocked then pure target
    else do
      let mission ← teamCall env program.id target.key (.inspect missionId)
      check (rejectIf (mission.id ≠ missionId) .organizationChildIdConflict
        "Provider inspection returned an unrelated mission identity.")
      pure { target with state := targetStateOf mission.state, updatedAt := env.now }

/-- A verifier item of a mission, with the digest of its receipt, if it
counts as an accepted one. -/
def acceptedVerifier (item : Team.TeamWorkItem) : Option (Team.TeamWorkItem × Hex64) :=
  match item.result with
  | none => none
  | some result =>
    if item.role = .verifier ∧ item.state = .completed ∧ result.verificationPassed = true then
      result.verificationDigest.map fun digest => (item, digest)
    else none

def acceptedVerifiers (mission : Team.TeamMission) : List (Team.TeamWorkItem × Hex64) :=
  mission.workItems.filterMap acceptedVerifier

def proofJson (platform : Platform) (proof : TargetProof) : Json :=
  let verifiers := (acceptedVerifiers proof.mission).insertionSort fun a b =>
    platform.localeCompare a.1.id b.1.id ≤ 0
  .obj [("targetKey", .str proof.targetKey), ("missionId", .str proof.mission.id.val),
    ("verifiers", .arr (verifiers.map fun (item, digest) =>
      .obj [("workItemId", .str item.id), ("verificationDigest", .str digest.val),
        ("worldObservationDigest", match item.result.bind (·.worldObservationDigest) with
          | some observed => .str observed.val
          | none => .null)]))]

def waveDigest (platform : Platform) (programId : Uuid) (waveIndex : Nat)
    (proofs : List TargetProof) : Hex64 :=
  platform.sha256 (Json.stringify (.obj
    [("purpose", .str "mecord-organization-wave-verification-v1"),
      ("programId", .str programId.val), ("waveIndex", .num (toString waveIndex)),
      ("proofs", .arr (proofs.map (proofJson platform)))]))

def proveTarget (env : Env) (program : OrganizationProgram) (targetKey : String) :
    Op TargetProof := do
  let missing := fun message : String => (fail .organizationVerificationMissing message :
    Result Uuid)
  let missionId ← check (match program.targets.find? fun candidate => candidate.key == targetKey with
    | none => missing s!"Target {targetKey} is missing a verified mission proof."
    | some target =>
      match target.missionId with
      | none => missing s!"Target {targetKey} is missing a verified mission proof."
      | some missionId =>
        if target.state = .verified then .ok missionId
        else missing s!"Target {targetKey} is missing a verified mission proof.")
  let mission ← teamCall env program.id targetKey (.inspect missionId)
  check (rejectIf (mission.id ≠ missionId ∨ mission.state ≠ .verified)
    .organizationVerificationMissing s!"Target {targetKey} mission is not currently verified.")
  check (rejectIf ((acceptedVerifiers mission).length = 0)
    .organizationVerificationMissing s!"Target {targetKey} has no accepted verifier receipt.")
  pure { targetKey, mission }

/-- The proofs `#verifiedWaveDigest(program, wave)` hashes. -/
def waveProofs (env : Env) (program : OrganizationProgram) (wave : OrganizationWave) :
    Op (List TargetProof) :=
  (Json.sortTexts wave.targetKeys).mapM (proveTarget env program)

def refreshBody (platform : Platform) (env : Env) (program : OrganizationProgram) :
    Op OrganizationProgram := do
  let targets ← program.targets.mapM (refreshTarget env program)
  let program := { program with targets, updatedAt := env.now }
  match program.waves[program.activeWave]? with
  | none => pure program
  | some wave =>
    if wave.state ≠ .running then pure program
    else
      let members := program.targets.filter fun item => item.wave == wave.index
      if members.any (fun item => item.state == .failed || item.state == .cancelled) then
        pure ({ program with state := .failed }.modifyWave program.activeWave
          fun wave => { wave with state := .failed })
      else if members.any fun item => item.state == .blocked then
        pure { program with state := .blocked }
      else if members.all fun item => item.state == .verified then do
        let proofs ← waveProofs env program wave
        pure ({ program with state := .paused }.modifyWave program.activeWave fun wave =>
          { wave with
            state := .verified
            verificationDigest := some (waveDigest platform program.id wave.index proofs) })
      else pure program

-- ===== promote

def promoteBody (platform : Platform) (env : Env) (supplied : Hex64)
    (program : OrganizationProgram) : Op OrganizationProgram := do
  let wave ← check (match program.waves[program.activeWave]? with
    | none => fail .organizationPromotionDenied
        "Current rollout wave is not independently verified."
    | some wave =>
      if wave.state = .verified then .ok wave
      else fail .organizationPromotionDenied
        "Current rollout wave is not independently verified.")
  let proofs ← waveProofs env program wave
  let digest := waveDigest platform program.id wave.index proofs
  check (rejectIf (wave.verificationDigest.any fun marked => marked ≠ digest)
    .organizationVerificationDrift
    "Current rollout wave verification evidence changed after it was marked verified.")
  check (rejectIf (supplied ≠ digest) .organizationVerificationDigestMismatch
    "Promotion digest does not match the current machine-derived wave verification proof.")
  modify fun w =>
    { w with log := .promoted program.id program.activeWave proofs supplied :: w.log }
  let program := program.modifyWave program.activeWave fun wave =>
    { wave with
      verificationDigest := some digest, promotedAt := some env.now
      promotionDigest := some digest }
  if program.waves.length - 1 ≤ program.activeWave then
    pure { program with state := .verified, updatedAt := env.now }
  else do
    let program := { program with activeWave := program.activeWave + 1, state := .running }
    let program ← startWave platform env program program.activeWave
    pure { program with updatedAt := env.now }

-- ===== pause and cancel

def controlFailure (operation : ControlOperation) (error : Thrown) (now : Instant) :
    Result ControlFailure := do
  let code ← match error.code with
    | some code => boundedKey code "control failure code"
    | none => .ok "ORGANIZATION_CHILD_CONTROL_FAILED"
  let message ← boundedText error.message (64 * 1024) "control failure message"
  .ok { operation, code, message, at' := now }

/-- One target of `pause` or `cancel`, and whether its child failed to
confirm. -/
def controlTarget (env : Env) (operation : ControlOperation) (program : OrganizationProgram)
    (missionId : Uuid) (target : OrganizationTarget) : Op (OrganizationTarget × Bool) := do
  let result ← Script.attempt do
    let mission ← teamCall env program.id target.key
      (match operation with
      | .pause => .pause missionId
      | .cancel => .cancel missionId)
    check (match operation with
      | .pause => rejectIf (mission.id ≠ missionId ∨ mission.state ≠ .paused)
          .organizationChildPauseUnconfirmed
          "Child mission did not confirm exact identity and paused state."
      | .cancel => rejectIf (mission.id ≠ missionId ∨ mission.state ≠ .cancelled)
          .organizationChildCancelUnconfirmed
          "Child mission did not confirm exact identity and cancellation.")
  match result with
  | .ok _ =>
    pure ({ target with
      state := match operation with
        | .pause => .blocked
        | .cancel => .cancelled
      controlFailure := none, updatedAt := env.now }, false)
  | .error error =>
    let failure ← check (controlFailure operation error env.now)
    pure ({ target with controlFailure := some failure, updatedAt := env.now }, true)

def pauseTarget (env : Env) (program : OrganizationProgram) (target : OrganizationTarget) :
    Op (OrganizationTarget × Bool) :=
  match target.missionId with
  | none => pure (target, false)
  | some missionId =>
    if target.state = .running then controlTarget env .pause program missionId target
    else pure (target, false)

def pauseBody (env : Env) (program : OrganizationProgram) : Op OrganizationProgram := do
  check (rejectIf (program.state ≠ .running ∧ program.state ≠ .blocked)
    .organizationStateInvalid "Program is not running.")
  let targets ← program.targets.mapM (pauseTarget env program)
  pure
    { program with
      targets := targets.map (·.1), state := if targets.any (·.2) then .blocked else .paused
      updatedAt := env.now }

def cancelTarget (env : Env) (program : OrganizationProgram) (target : OrganizationTarget) :
    Op (OrganizationTarget × Bool) :=
  match target.missionId with
  | none => pure (target, false)
  | some missionId =>
    if target.state = .verified ∨ target.state = .failed ∨ target.state = .cancelled then
      pure (target, false)
    else controlTarget env .cancel program missionId target

def OrganizationProgramState.terminal : OrganizationProgramState → Bool
  | .cancelled | .failed | .verified => true
  | _ => false

def cancelBody (env : Env) (program : OrganizationProgram) : Op OrganizationProgram :=
  if program.state.terminal then pure program
  else do
    let targets ← program.targets.mapM (cancelTarget env program)
    pure
      { program with
        targets := targets.map (·.1), state := if targets.any (·.2) then .blocked else .cancelled
        updatedAt := env.now }

-- ===== recovery

def compensationWasCommitted (platform : Platform) (intent : DurableCompensationIntent)
    (program : OrganizationProgram) (target : OrganizationTarget) : Bool :=
  target.missionId == some intent.targetId
    && intent.targetId == stableOrganizationMissionId platform program.id target.key
    && (intent.operation == .cancelTeamMission || intent.operation == .pauseTeamMission)

/-- Whether the child of an intent is as the intent asks, after a call that
may bring it there. -/
def settle (env : Env) (intent : DurableCompensationIntent) (mission : Team.TeamMission) :
    Op Bool :=
  match intent.operation with
  | .cancelTeamMission =>
    if mission.state = .cancelled then pure true
    else if mission.state = .failed ∨ mission.state = .verified then pure false
    else do
      let cancelled ← teamCall env intent.ownerId intent.subjectKey (.cancel intent.targetId)
      pure (cancelled.id == intent.targetId && cancelled.state == .cancelled)
  | .pauseTeamMission =>
    if mission.state = .running ∨ mission.state = .blocked then do
      let paused ← teamCall env intent.ownerId intent.subjectKey (.pause intent.targetId)
      pure (paused.id == intent.targetId && paused.state == .paused)
    else pure (mission.state == .paused)
  | .reconcileUntrustedTeamIdentity => pure false

/-- The part of the recovery of an intent that asks its child; what it
throws is dropped. The answer is whether the intent was completed. -/
def compensate (env : Env) (intent : DurableCompensationIntent) : Op Bool := do
  let result ← Script.attempt do
    let mission ← teamCall env intent.ownerId intent.subjectKey (.inspect intent.targetId)
    if mission.id ≠ intent.targetId then pure false
    else
      let settled ← settle env intent mission
      if settled then
        complete env intent.id
        pure true
      else pure false
  pure (match result with
    | .ok recovered => recovered
    | .error _ => false)

def recoverIntent (platform : Platform) (env : Env) (programs : List OrganizationProgram)
    (intent : DurableCompensationIntent) : Op Bool :=
  let program := programs.find? fun item => item.id == intent.ownerId
  let target := program.bind fun program =>
    program.targets.find? fun item => item.key == intent.subjectKey
  match program, target with
  | some program, some target =>
    if compensationWasCommitted platform intent program target then do
      complete env intent.id
      pure true
    else if intent.operation = .reconcileUntrustedTeamIdentity then pure false
    else if intent.confirmedAt.isNone = true then pure false
    else if intent.targetId ≠ stableOrganizationMissionId platform program.id target.key then
      pure false
    else compensate env intent
  | _, _ => pure false

/-- `recoverPendingCompensations()`: how many intents were completed, and
how many are left. -/
def recoverPendingCompensations (platform : Platform) (env : Env) : Op (Nat × Nat) := do
  let w ← Script.read
  if w.intents = [] then pure (0, 0)
  else do
    let programs ← readPrograms
    let recovered ← w.intents.mapM (recoverIntent platform env programs)
    let w ← Script.read
    pure (recovered.count true, w.intents.length)

def assertNoPendingCompensation (programId : Uuid) : Op Unit := do
  let w ← Script.read
  check (rejectIf (∃ intent ∈ w.intents, intent.ownerId = programId) .organizationRecoveryRequired
    "Organization rollout has unresolved durable compensation work and cannot advance.")

end OperatorRuntime.Organization
