/-
The team coordinator behind `OrganizationCoordinator`: what each of its
calls does to the stored missions, by the operations of
`core/team-coordinator.ts` on one mission. Workers and operators change the
missions too, so before each call they may have drifted; a call may fail
before it takes effect, or throw after it did.
-/
import OperatorRuntime.Lib.Runs
import OperatorRuntime.Organization.Coordinator
import OperatorRuntime.Team.Coordinator

namespace OperatorRuntime.Organization

open Lib

/-- The options of the team coordinator, and what one of its calls reads. -/
structure TeamReadings where
  env : Team.TeamEnv
  readings : Team.Readings
  intentAnswer : Team.IntentAnswer
  now : Instant

/-- `TeamStore.get(missionId)`. -/
def getMission (r : TeamReadings) (missions : Missions) (missionId : Uuid) :
    Except Thrown Team.TeamMission :=
  match missions missionId with
  | none =>
    .error { code := some "TEAM_NOT_FOUND", message := s!"Mission {missionId.val} was not found." }
  | some mission =>
    (do
      Team.validateMission r.env mission
      .ok mission).mapError OperatorError.thrown

def putMission (missions : Missions) (missionId : Uuid) (mission : Team.TeamMission) : Missions :=
  fun id => if id = missionId then some mission else missions id

/-- `TeamStore.update(missionId, mutate)`. -/
def updateMission (r : TeamReadings) (missions : Missions) (missionId : Uuid)
    (mutate : Team.TeamMission → Result Team.TeamMission) :
    Except Thrown (Missions × Team.TeamMission) := do
  let mission ← getMission r missions missionId
  let updated ← (Team.update r.env mutate mission).mapError OperatorError.thrown
  .ok (putMission missions missionId updated, updated)

/-- The same after `#assertForwardIntent(missionId)`. -/
def forwardMission (r : TeamReadings) (missions : Missions) (missionId : Uuid)
    (mutate : Team.TeamMission → Result Team.TeamMission) :
    Except Thrown (Missions × Team.TeamMission) :=
  updateMission r missions missionId fun mission => do
    Team.assertForwardIntent mission r.intentAnswer
    mutate mission

/-- What a call of the team coordinator makes of the missions, and what it
answers. -/
def callTeam (r : TeamReadings) (missions : Missions) :
    TeamCall → Except Thrown (Missions × Team.TeamMission)
  | .submit missionId objective workItems budget => do
    let mission ← (Team.submit r.env
      { missionId := missionId.val, objective, workItems, budget := budget.getD {} }
      r.intentAnswer r.now).mapError OperatorError.thrown
    match missions mission.id with
    | some _ => .error { code := some "EEXIST", message := "State file already exists." }
    | none => .ok (putMission missions mission.id mission, mission)
  | .inspect missionId => do
    let mission ← getMission r missions missionId
    .ok (missions, mission)
  | .start missionId => forwardMission r missions missionId (Team.startIn r.readings)
  | .pause missionId => updateMission r missions missionId (Team.pauseIn r.readings)
  | .resume missionId => forwardMission r missions missionId (Team.resumeIn r.readings)
  | .cancel missionId => updateMission r missions missionId (Team.cancelIn r.readings)

/-- A call as it may come out. -/
inductive Outcome (call : TeamCall) (missions : Missions) :
    Missions × Except Thrown Team.TeamMission → Prop
  | failed (error : Thrown) : Outcome call missions (missions, .error error)
  | done {r : TeamReadings} {after : Missions} {mission : Team.TeamMission} :
      callTeam r missions call = .ok (after, mission) → Outcome call missions (after, .ok mission)
  | lost {r : TeamReadings} {after : Missions} {mission : Team.TeamMission} (error : Thrown) :
      callTeam r missions call = .ok (after, mission) → Outcome call missions (after, .error error)

/-- A stored mission stays stored. -/
def Persist (before after : Missions) : Prop :=
  ∀ id, (before id).isSome = true → (after id).isSome = true

def running (missions : Missions) (id : Uuid) : Prop :=
  (missions id).map (·.state) = some .running

/-- No mission is set running. -/
def Quiet (before after : Missions) : Prop :=
  ∀ id, running after id → running before id

/-- The calls of a section are answered by the team coordinator, on
missions that drifted before each. -/
def Genuine (Drift : Missions → Missions → Prop) (env : Env) : Prop :=
  ∀ n call missions, ∃ drifted, Drift missions drifted
    ∧ Outcome call drifted (env.teams n call missions)

/-
Runs of the coordinator: sections of calls in any order, each cut off after
some number of its writes, and changes of the child missions in between. A
call is the section that recovers, the check that nothing is pending, and
its own section; runs here are not held to that order, so what holds of
them holds of every interleaving of calls.

The laws are read off the log: what a program was created as, and what has
happened to it since (`tenure`).
-/

-- ===== calls

/-- A section of a call, under the lock of the programs' file. -/
inductive Turn
  | create (input : CreateInput)
  | recover
  | start (programId : Uuid)
  | refresh (programId : Uuid)
  | promote (programId : Uuid) (verificationDigest : String)
  | pause (programId : Uuid)
  | cancel (programId : Uuid)

def Turn.op (platform : Platform) (env : Env) : Turn → Op Unit
  | .create input => Organization.create platform env input
  | .recover => discard (recoverPendingCompensations platform env)
  | .start programId => mutate env programId (startBody platform env)
  | .refresh programId => mutate env programId (refreshBody platform env)
  | .promote programId verificationDigest => do
    let supplied ← check (shaDigest verificationDigest "verificationDigest")
    mutate env programId (promoteBody platform env supplied)
  | .pause programId => mutate env programId (pauseBody env)
  | .cancel programId => mutate env programId (cancelBody env)

inductive Act
  /-- A section, what it is answered, and after how many writes its process
  dies, if it makes more. -/
  | run (turn : Turn) (env : Env) (writes : Nat)
  /-- The check of a call that nothing is pending, where it passes. -/
  | assert (programId : Uuid)
  /-- The child missions change. -/
  | children (missions : Missions)

def step (platform : Platform) (w : World) : Act → Option World
  | .run turn env writes => some ((turn.op platform env).upTo writes { w with tick := 0 })
  | .assert programId =>
    match (assertNoPendingCompensation programId w).answer with
    | .ok _ => some w
    | .error _ => none
  | .children missions => some { w with missions }

def World.start : World where
  programs := []
  intents := []
  missions := fun _ => none
  log := []
  transaction := { rollbacks := [], commits := [] }
  tick := 0

-- ===== the log

def Event.programId? : Event → Option Uuid
  | .created program => some program.id
  | .child programId _ _ _ _ => some programId
  | .promoted programId _ _ _ => some programId
  | .written => none

def creationOf (id : Uuid) : List Event → Option OrganizationProgram
  | [] => none
  | .created program :: log => if program.id = id then some program else creationOf id log
  | _ :: log => creationOf id log

/-- What has happened to a program since it was created, the newest first. -/
def tenure (id : Uuid) : List Event → List Event
  | [] => []
  | .created program :: log => if program.id = id then [] else tenure id log
  | event :: log => if event.programId? = some id then event :: tenure id log else tenure id log

/-- Submits, starts or resumes a child of the program. -/
def Event.advances (id : Uuid) : Event → Bool
  | .child programId _ call _ _ =>
    programId == id && (match call with
      | .submit _ _ _ _ | .start _ | .resume _ => true
      | _ => false)
  | _ => false

/-- A submission under the id that was accepted. -/
def Event.accepts (missionId : Uuid) : Event → Bool
  | .child _ _ (.submit id _ _ _) true _ => id == missionId
  | _ => false

-- ===== laws

def OrganizationProgram.waveState (program : OrganizationProgram) : Option OrganizationWaveState :=
  (program.waves[program.activeWave]?).map (·.state)

/-- The last wave is active. -/
def OrganizationProgram.last (program : OrganizationProgram) : Prop :=
  program.waves.length - 1 ≤ program.activeWave

/-- Not a creation. -/
def Act.Operates : Act → Prop
  | .run (.create _) _ _ => False
  | _ => True

/-- No `refresh` of a cancelled program whose active wave is running, and no
`promote` of one whose active wave is verified. -/
def Spares (w : World) : Act → Prop
  | .run (.refresh programId) _ _ => ∀ program ∈ w.programs, program.id = programId →
      program.state = .cancelled → program.waveState ≠ some .running
  | .run (.promote programId _) _ _ => ∀ program ∈ w.programs, program.id = programId →
      program.state = .cancelled → program.waveState ≠ some .verified
  | _ => True

-- ===== rollout

/-- What a promotion found of a target: its own mission verified, with an
accepted verifier receipt. -/
structure Evidence (platform : Platform) (programId : Uuid) (targetKey : String)
    (proof : TargetProof) : Prop where
  key : proof.targetKey = targetKey
  mission : proof.mission.id = stableOrganizationMissionId platform programId targetKey
  verified : proof.mission.state = .verified
  accepted : acceptedVerifiers proof.mission ≠ []

/-- A wave of the program was promoted: there was evidence of each of its
targets, and the digest of that evidence was supplied. -/
def PromotedWave (platform : Platform) (program : OrganizationProgram) (index : Nat)
    (log : List Event) : Prop :=
  ∃ wave proofs, program.waves[index]? = some wave
    ∧ List.Forall₂ (Evidence platform program.id) (Json.sortTexts wave.targetKeys) proofs
    ∧ .promoted program.id index proofs (waveDigest platform program.id index proofs) ∈ log

/-- A submission is about a target of a program, under the id derived for
it, after every wave before that of the target was promoted. -/
def Gate (platform : Platform) (log : List Event) : Event → Prop
  | .child programId targetKey (.submit missionId _ _ _) _ _ =>
    missionId = stableOrganizationMissionId platform programId targetKey
      ∧ ∃ program target, creationOf programId log = some program
        ∧ target ∈ program.targets ∧ target.key = targetKey
        ∧ ∀ index < target.wave, PromotedWave platform program index (tenure programId log)
  | _ => True

/-- The calls are answered by the team coordinator, and no mission that is
stored goes away. -/
def Endures (w : World) : Act → Prop
  | .run _ env _ => Genuine Persist env
  | .assert _ => True
  | .children missions => Persist w.missions missions

-- ===== recovery

/-- The target is recorded with the mission derived for it, and its state is
not PENDING, BLOCKED or CANCELLED. -/
structure Recorded (platform : Platform) (programId : Uuid) (target : OrganizationTarget) : Prop where
  mission : target.missionId = some (stableOrganizationMissionId platform programId target.key)
  state : target.state = .running ∨ target.state = .verified ∨ target.state = .failed

/-- The missions derived for the targets of a new program are those of no
other target, and none of them is running. -/
def Fresh (platform : Platform) (w : World) (program : OrganizationProgram) : Prop :=
  ∀ target ∈ program.targets,
    ¬ running w.missions (stableOrganizationMissionId platform program.id target.key)
      ∧ (∀ other ∈ program.targets, stableOrganizationMissionId platform program.id other.key
          = stableOrganizationMissionId platform program.id target.key → other.key = target.key)
      ∧ ∀ other ∈ w.programs, ∀ held ∈ other.targets,
        stableOrganizationMissionId platform other.id held.key
          ≠ stableOrganizationMissionId platform program.id target.key

/-- No intent to pause a child that is running while its target is not
recorded is taken for committed. -/
def Settles (platform : Platform) (w : World) : Prop :=
  ∀ intent ∈ w.intents, intent.operation = .pauseTeamMission →
    ∀ program ∈ w.programs, program.id = intent.ownerId → ∀ target ∈ program.targets,
      compensationWasCommitted platform intent program target = true →
      running w.missions intent.targetId → Recorded platform program.id target

/-- The calls are answered by the team coordinator, nothing else sets a child
running, and a program is created under fresh ids. -/
def Ordinary (platform : Platform) (w : World) : Act → Prop
  | .run (.create input) env _ => Genuine Quiet env
      ∧ ∀ program, newProgram input env.randomUUID env.now = .ok program → Fresh platform w program
  | .run _ env _ => Genuine Quiet env
  | .assert _ => True
  | .children missions => Quiet w.missions missions

/-- Ordinary, and a recovery finds no resumed child that was not recorded. -/
def Recovers (platform : Platform) (w : World) (act : Act) : Prop :=
  Ordinary platform w act ∧ ∀ env writes, act = .run .recover env writes → Settles platform w

end OperatorRuntime.Organization
