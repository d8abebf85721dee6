/-
A terminal program stays as it is, as long as no section meets a cancelled
program whose active wave would let it go on: `refresh` and `promote` look
at the state of the wave alone.

`Ends` is what every reachable program satisfies: a failed one has a failed
active wave, a verified one has verified its last wave.
-/
import OperatorRuntime.Organization.Proofs.Turns
import OperatorRuntime.Team.Proofs.LockRuns

namespace OperatorRuntime.Organization

open Lib

variable {platform : Platform} {env : Env} {programs : List OrganizationProgram}
  {program program' p : OrganizationProgram} {w w' : World}

-- ===== endings

structure Ends (program : OrganizationProgram) : Prop where
  failed : program.state = .failed → program.waveState = some .failed
  verified : program.state = .verified → program.waveState = some .verified ∧ program.last

theorem SamePlan.last (h : SamePlan platform program program')
    (hactive : program'.activeWave = program.activeWave) (hlast : program.last) :
    program'.last := by
  have hlength := congrArg List.length h.waves
  rw [List.length_map, List.length_map] at hlength
  rw [OrganizationProgram.last, hlength, hactive]
  exact hlast

variable {refreshes promotes : Prop}

theorem Moved.ends (h : Moved refreshes promotes program program')
    (hplan : SamePlan platform program program') (hends : Ends program) : Ends program' := by
  cases h with
  | kept hstate hactive hwave =>
    refine ⟨fun h => ?_, fun h => ?_⟩
    · rw [hwave]
      exact hends.failed (hstate.symm.trans h)
    · rw [hwave]
      obtain ⟨hverified, hlast⟩ := hends.verified (hstate.symm.trans h)
      exact ⟨hverified, hplan.last hactive hlast⟩
  | live hlive hfailed hverified hactive =>
    exact ⟨fun h => absurd h hfailed, fun h => absurd h hverified⟩
  | refreshed _ hwave hstate hactive =>
    rcases hstate with ⟨hstate, hfailed⟩ | hstate | hstate
    · refine ⟨fun _ => hfailed, fun h => ?_⟩
      rw [hstate] at h
      cases h
    · refine ⟨fun h => ?_, fun h => ?_⟩
      · rw [hstate] at h
        cases h
      · rw [hstate] at h
        cases h
    · refine ⟨fun h => ?_, fun h => ?_⟩
      · rw [hstate] at h
        cases h
      · rw [hstate] at h
        cases h
  | finished _ hwave hlast hstate hverified hactive =>
    refine ⟨fun h => ?_, fun _ => ⟨hverified, hplan.last hactive hlast⟩⟩
    rw [hstate] at h
    cases h
  | promoted _ hwave hlast hstate hactive =>
    refine ⟨fun h => ?_, fun h => ?_⟩
    · rw [hstate] at h
      cases h
    · rw [hstate] at h
      cases h

theorem Ends.not_running (hends : Ends program) (hterminal : program.state.terminal = true)
    (hrefresh : program.state = .cancelled → program.waveState ≠ some .running) :
    program.waveState ≠ some .running := by
  intro hwave
  rcases terminal_cases hterminal with hs | hs | hs
  · exact hrefresh hs hwave
  · have hfailed := hends.failed hs
    rw [hwave] at hfailed
    cases hfailed
  · have hverified := (hends.verified hs).1
    rw [hwave] at hverified
    cases hverified

theorem Ends.finished (hends : Ends program) (hterminal : program.state.terminal = true)
    (hpromote : program.state = .cancelled → program.waveState ≠ some .verified)
    (hwave : program.waveState = some .verified) : program.state = .verified ∧ program.last := by
  rcases terminal_cases hterminal with hs | hs | hs
  · exact absurd hwave (hpromote hs)
  · have hfailed := hends.failed hs
    rw [hwave] at hfailed
    cases hfailed
  · exact ⟨hs, (hends.verified hs).2⟩

theorem Moved.terminal (h : Moved refreshes promotes program program') (hends : Ends program)
    (hterminal : program.state.terminal = true)
    (hrefresh : refreshes → program.state = .cancelled → program.waveState ≠ some .running)
    (hpromote : promotes → program.state = .cancelled → program.waveState ≠ some .verified) :
    program'.state = program.state := by
  cases h with
  | kept hstate hactive hwave => exact hstate
  | live hlive hfailed hverified hactive =>
    rw [hterminal] at hlive
    cases hlive
  | refreshed hdoes hwave hstate hactive =>
    exact absurd hwave (hends.not_running hterminal (hrefresh hdoes))
  | finished hdoes hwave hlast hstate hverified hactive =>
    exact hstate.trans (hends.finished hterminal (hpromote hdoes) hwave).1.symm
  | promoted hdoes hwave hlast hstate hactive =>
    exact absurd (hends.finished hterminal (hpromote hdoes) hwave).2 hlast

-- ===== invariant

/-- Distinct ids, and every program ended as it should, whatever was logged. -/
def Ended : Frame := fun _ programs _ =>
  (programs.map (·.id)).Nodup ∧ ∀ program ∈ programs, Ends program

theorem ended_allows (programId : Uuid) (targetKey : String) (call : TeamCall) :
    AllowsCall env Ended programId targetKey call := fun _ h => h

variable {log : List Event}

theorem Ended.put {missions : Missions} (h : Ended missions programs log)
    (hmem : program ∈ programs) (hplan : SamePlan platform program program')
    (hmoved : Moved refreshes promotes program program') :
    Ended missions (putProgram programs program') (.written :: log) := by
  refine ⟨?_, ?_⟩
  · rw [putProgram_ids]
    exact h.1
  · intro q hq
    rcases mem_putProgram h.1 hq with ⟨hold, -⟩ | rfl
    · exact h.2 q hold
    · exact hmoved.ends hplan (h.2 program hmem)

theorem Ended.create {missions : Missions} {input : CreateInput} {randomUUID : Uuid}
    {now : Instant} {kept : List OrganizationProgram} (h : Ended missions programs log)
    (hnew : newProgram input randomUUID now = .ok program)
    (hid : program.id ∉ programs.map (·.id)) (hkept : kept.Sublist programs) :
    Ended missions (kept ++ [program]) (.created program :: log) := by
  have hpending : program.state = .pending := by
    simp only [newProgram, bind_eq_ok, Except.ok.injEq] at hnew
    obtain ⟨_, -, _, -, _, -, _, -, _, -, rfl⟩ := hnew
    rfl
  refine ⟨?_, ?_⟩
  · exact create_ids h.1 hid hkept
  · intro q hq
    rcases List.mem_append.1 hq with hold | hnew
    · exact h.2 q (hkept.subset hold)
    · rw [List.mem_singleton.1 hnew]
      refine ⟨fun h => ?_, fun h => ?_⟩
      · rw [hpending] at h
        cases h
      · rw [hpending] at h
        cases h

theorem turn_ended (turn : Turn) :
    Script.Triple (On Ended) (turn.op platform env) (fun _ => On Ended) (On Ended) :=
  turn_on ended_allows (fun _ _ _ _ _ _ _ h => h)
    (fun _ _ _ _ _ _ _ hmem hplan hmoved h => Ended.put h hmem hplan hmoved)
    (fun _ _ _ _ _ _ _ _ hnew h hid hkept => Ended.create h hnew hid hkept) turn

theorem step_ended {act : Act} (h : On Ended w) (hstep : step platform w act = some w') :
    On Ended w' :=
  step_on hstep h (fun _ _ _ h => h) (fun turn _ _ _ => turn_ended turn) fun _ _ => h

-- ===== terminal programs

/-- Since `old`, no event advanced a terminal program of the given ones. -/
def Rested (programs : List OrganizationProgram) (old : List Event) (log : List Event) : Prop :=
  ∃ new : List Event, log = new ++ old ∧ ∀ event ∈ new, ∀ p ∈ programs,
    p.state.terminal = true → event.advances p.id = false

theorem Rested.cons {old : List Event} {event : Event} (h : Rested programs old log)
    (hevent : ∀ p ∈ programs, p.state.terminal = true → event.advances p.id = false) :
    Rested programs old (event :: log) := by
  obtain ⟨new, rfl, hnew⟩ := h
  exact ⟨event :: new, rfl, List.forall_mem_cons.2 ⟨hevent, hnew⟩⟩

/-- What a section leaves of the terminal programs it found. -/
def Left (before : World) : Frame := fun _ programs log =>
  Rested before.programs before.log log ∧ ∀ p ∈ before.programs, p.state.terminal = true →
      ∃ p' ∈ programs, p'.id = p.id ∧ p'.state = p.state

/-- Nothing written yet. -/
def Untouched (before : World) : Frame := fun _ programs log =>
  programs = before.programs ∧ Rested before.programs before.log log

theorem Untouched.left {missions : Missions} (h : Untouched w missions programs log) :
    Left w missions programs log := by
  obtain ⟨rfl, hlog⟩ := h
  exact ⟨hlog, fun p hp _ => ⟨p, hp, rfl, rfl⟩⟩

variable {programId : Uuid}

theorem untouched_allows {targetKey : String} {call : TeamCall}
    (h : ∀ answered after, ∀ p ∈ w.programs, p.state.terminal = true →
      (Event.child programId targetKey call answered after).advances p.id = false) :
    AllowsCall env (Untouched w) programId targetKey call :=
  fun _ hk => ⟨hk.1, hk.2.cons (h _ _)⟩

theorem advances_of_quiet {id : Uuid} {targetKey : String} {missionId : Uuid} {call : TeamCall}
    {answered : Bool} {after : Option Team.TeamMissionState}
    (h : call = .inspect missionId ∨ call = .pause missionId ∨ call = .cancel missionId) :
    (Event.child programId targetKey call answered after).advances id = false := by
  rcases h with rfl | rfl | rfl <;> exact Bool.and_false _

theorem untouched_allowsQuiet {targetKey : String} {missionId : Uuid} {call : TeamCall}
    (h : call = .inspect missionId ∨ call = .pause missionId ∨ call = .cancel missionId) :
    AllowsCall env (Untouched w) programId targetKey call :=
  untouched_allows fun _ _ _ _ _ => advances_of_quiet h

theorem left_allowsStop (programId : Uuid) (targetKey : String) :
    AllowsStop env (Left w) programId targetKey := by
  intro missionId
  refine ⟨fun s hk => ?_, fun s hk => ?_⟩
  · exact ⟨hk.1.cons fun p _ _ => advances_of_quiet (.inr (.inl rfl)), hk.2⟩
  · exact ⟨hk.1.cons fun p _ _ => advances_of_quiet (.inr (.inr rfl)), hk.2⟩

theorem untouched_live {call : TeamCall} {targetKey : String} (hended : On Ended w)
    (hmem : program ∈ w.programs) (hlive : program.state.terminal = false) :
    AllowsCall env (Untouched w) program.id targetKey call := by
  refine untouched_allows ?_
  intro answered after p hp hterminal
  have hne : program.id ≠ p.id := by
    intro hid
    rw [eq_of_id hended.1 hmem hp hid, hterminal] at hlive
    cases hlive
  show (program.id == p.id && _) = false
  rw [beq_eq_false_iff_ne.2 hne]
  rfl

theorem mutate_left (platform : Platform) {body : OrganizationProgram → Op OrganizationProgram}
    (hended : On Ended w) (hrefresh : refreshes → ∀ program ∈ w.programs, program.id = programId →
      program.state = .cancelled → program.waveState ≠ some .running)
    (hpromote : promotes → ∀ program ∈ w.programs, program.id = programId →
      program.state = .cancelled → program.waveState ≠ some .verified)
    (hbody : ∀ program ∈ w.programs, program.id = programId →
      Script.Triple (On (Untouched w)) (body program)
        (Returns platform (Untouched w) refreshes promotes program) (On (Untouched w))) :
    Script.Triple (On (Untouched w)) (mutate env programId body) (fun _ => On (Left w))
      (On (Left w)) := by
  refine mutate_on (Untouched w) (fun program program' =>
    SamePlan platform program program' ∧ Moved refreshes promotes program program')
    (fun _ _ _ h => h.left) (fun _ _ _ h => h.left) ?_ ?_ left_allowsStop
  · intro programs program hmem hid
    by_cases hprograms : programs = w.programs
    · subst hprograms
      refine (hbody program hmem hid).weaken (fun _ hs => hs.2) ?_ ?_
      · intro program' s hs
        exact ⟨⟨hs.1.1, hs.1⟩, hs.2⟩
      · exact fun s hs => ⟨hs.1, hs⟩
    · intro s hs
      exact absurd (hs.1.symm.trans hs.2.1) hprograms
  · intro missions programs log program program' hmem hid hR hk
    obtain ⟨rfl, hlog⟩ := hk
    refine ⟨hlog.cons fun _ _ _ => rfl, ?_⟩
    intro p hp hterminal
    by_cases hsame : p.id = program.id
    · obtain rfl := eq_of_id hended.1 hp hmem hsame
      refine ⟨program', mem_putProgram_self hp hR.1.id.symm, hR.1.id, ?_⟩
      exact hR.2.terminal (hended.2 p hp) hterminal (fun h => hrefresh h p hp hid)
        fun h => hpromote h p hp hid
    · refine ⟨p, mem_putProgram_of_ne hp ?_, rfl, rfl⟩
      rw [hR.1.id]
      exact hsame

theorem turn_left {turn : Turn} {writes : Nat} (hended : On Ended w)
    (hoperates : (Act.run turn env writes).Operates) (hspares : Spares w (.run turn env writes)) :
    Script.Triple (On (Untouched w)) (turn.op platform env) (fun _ => On (Left w))
      (On (Left w)) := by
  have hinspect : ∀ programId targetKey missionId,
      AllowsCall env (Untouched w) programId targetKey (.inspect missionId) :=
    fun _ _ _ => untouched_allowsQuiet (.inl rfl)
  have hstop : ∀ programId targetKey, AllowsStop env (Untouched w) programId targetKey :=
    fun _ _ _ => ⟨untouched_allowsQuiet (.inr (.inl rfl)),
      untouched_allowsQuiet (.inr (.inr rfl))⟩
  cases turn with
  | create input => exact absurd hoperates not_false
  | recover =>
    refine (recover_on hinspect hstop).weaken (fun _ h => h) ?_ ?_
    · exact fun _ _ h => h.left
    · exact fun _ h => h.left
  | start programId =>
    refine mutate_left platform hended False.elim False.elim ?_
    intro program hmem _
    refine startBody_on ?_ ?_
    · exact fun _ _ _ => ⟨hinspect _ _ _, fun hlive => untouched_live hended hmem hlive⟩
    · intro hlive _ _ _
      exact ⟨fun _ _ _ => untouched_live hended hmem hlive,
        fun _ => untouched_live hended hmem hlive⟩
  | refresh programId =>
    refine mutate_left platform hended (fun _ : True => hspares) False.elim ?_
    intro program _ _
    exact refreshBody_on fun _ _ => hinspect _ _ _
  | promote programId verificationDigest =>
    refine check_bind ?_
    intro supplied _
    refine mutate_left platform hended False.elim (fun _ : True => hspares) ?_
    intro program hmem hid
    refine promoteBody_on _ (fun _ _ _ h => h) (fun _ _ => hinspect _ _ _) ?_ ?_
    · intro _ _ _ _ _ _ _ _ hk
      exact ⟨hk.1, hk.2.cons fun _ _ _ => rfl⟩
    · intro hwave hmore _ _ _
      have hlive : program.state.terminal = false := by
        by_contra hterminal
        rw [Bool.not_eq_false] at hterminal
        exact hmore ((hended.2 program hmem).finished hterminal (hspares program hmem hid) hwave).2
      exact ⟨fun _ _ _ => untouched_live hended hmem hlive,
        fun _ => untouched_live hended hmem hlive⟩
  | pause programId =>
    refine mutate_left platform hended False.elim False.elim ?_
    exact fun _ _ _ => pauseBody_on fun _ => hstop _ _
  | cancel programId =>
    refine mutate_left platform hended False.elim False.elim ?_
    exact fun _ _ _ => cancelBody_on fun _ => hstop _ _

theorem step_left {act : Act} (hended : On Ended w) (hstep : step platform w act = some w')
    (hoperates : act.Operates) (hspares : Spares w act) : On (Left w) w' := by
  have hself : On (Untouched w) w := ⟨rfl, [], rfl, fun _ h => (nomatch h)⟩
  refine step_on hstep hself (fun _ _ _ h => h.left) ?_ fun _ _ => Untouched.left hself
  intro turn env writes hact
  subst hact
  exact turn_left hended hoperates hspares

/-- In every state that a run reaches the programs ended as they should. -/
theorem ended_run {acts : List Act} (hrun : Run (stepsOf (step platform)) World.start acts w) :
    On Ended w :=
  hrun.invariant (I := On Ended) ⟨List.nodup_nil, fun _ h => (nomatch h)⟩
    fun h hstep => step_ended h hstep

/-- Once a program is cancelled, failed or verified, its state does not
change and none of its children is submitted, started or resumed, in any run
that spares cancelled programs. -/
theorem terminal_program_rests (platform : Platform) (before acts : List Act) (w w' : World)
    (hbefore : Run (stepsOf (step platform)) World.start before w)
    (hrun : Run (Where (stepsOf (step platform)) fun w act => act.Operates ∧ Spares w act) w acts w')
    (program : OrganizationProgram) (hmem : program ∈ w.programs)
    (hterminal : program.state.terminal = true) :
    (∃ program' ∈ w'.programs, program'.id = program.id ∧ program'.state = program.state)
    ∧ ∃ new, w'.log = new ++ w.log ∧ ∀ event ∈ new, event.advances program.id = false := by
  have hkept : On Ended w' ∧ (∃ program' ∈ w'.programs,
      program'.id = program.id ∧ program'.state = program.state)
        ∧ ∃ new, w'.log = new ++ w.log ∧ ∀ event ∈ new, event.advances program.id = false := by
    refine hrun.invariant (I := fun v => On Ended v ∧ (∃ program' ∈ v.programs,
      program'.id = program.id ∧ program'.state = program.state)
        ∧ ∃ new, v.log = new ++ w.log ∧ ∀ event ∈ new, event.advances program.id = false)
      ⟨ended_run hbefore, ⟨program, hmem, rfl, rfl⟩, [], rfl, fun _ h => (nomatch h)⟩ ?_
    intro s t act hs hstep
    obtain ⟨hended, ⟨p, hp, hid, hstate⟩, new, hlog, hnew⟩ := hs
    obtain ⟨hstep, hoperates, hspares⟩ := hstep
    obtain ⟨⟨more, hmore, hrested⟩, hleft⟩ := step_left hended hstep hoperates hspares
    have hterminal' : p.state.terminal = true := by
      rw [hstate]
      exact hterminal
    obtain ⟨p', hp', hid', hstate'⟩ := hleft p hp hterminal'
    refine ⟨step_ended hended hstep, ⟨p', hp', hid'.trans hid, hstate'.trans hstate⟩,
      more ++ new, ?_, ?_⟩
    · rw [hmore, hlog, List.append_assoc]
    · intro event hevent
      rcases List.mem_append.1 hevent with hin | hin
      · rw [← hid]
        exact hrested event hin p hp hterminal'
      · exact hnew event hin
  exact hkept.2

-- ===== a sample

def aProgram : Uuid := onesUuid

/-- The digests the sample asks for: of the mission of its target, of the
intents to cancel and to pause it, and of its work item. -/
def knownDigests : List (String × Hex64) :=
  [("organization-mission\x0011111111-1111-4111-8111-111111111111\x00a",
      ⟨"6a04a8acce6999fb9fac370e5ecee8895d5f92f8b383bf43b8ca7029beccac30", by decide⟩),
    ("11111111-1111-4111-8111-111111111111\x00cancel-team-mission\x006a04a8ac-ce69-59fb-9fac-370e5ecee889",
      ⟨"f93115c0a2a8036a4abaab75ab26d0ddb5703702ebea09d16219b64013df7004", by decide⟩),
    ("11111111-1111-4111-8111-111111111111\x00pause-team-mission\x006a04a8ac-ce69-59fb-9fac-370e5ecee889",
      ⟨"f0770ba77a4dbcc1c6a30d985055a83b56159e7a98f8c3f0764e86250ff1f4e4", by decide⟩),
    ("6a04a8ac-ce69-59fb-9fac-370e5ecee889\x00v",
      ⟨"e666dd59102aa6b630a044505b26bf41b6ad7fc308a32dea539fd85a0d28e74c", by decide⟩)]

def lookupSha256 (text : String) : Hex64 :=
  match knownDigests.find? fun known => known.1 == text with
  | some known => known.2
  | none => sha256Utf8 text

def aPlatform : Platform where
  sha256 := lookupSha256
  localeCompare := Team.plainTeam.localeCompare

/-- A team coordinator that works on the stored missions at midnight. -/
def anEnv : Env where
  now := Team.midnight
  randomUUID := aProgram
  teams _ call missions :=
    let readings : TeamReadings :=
      { env := { Team.plainTeam with sha256 := lookupSha256 }
        readings := Team.still Team.midnight, intentAnswer := .ok (), now := Team.midnight }
    match callTeam readings missions call with
    | .ok (after, mission) => (after, .ok mission)
    | .error error => (missions, .error error)
  writes _ := .done

theorem anEnv_genuine {Drift : Missions → Missions → Prop} (hrefl : ∀ missions, Drift missions missions) :
    Genuine Drift anEnv := by
  intro n call missions
  refine ⟨missions, hrefl missions, ?_⟩
  show Outcome call missions (match callTeam _ missions call with
    | .ok (after, mission) => (after, .ok mission)
    | .error error => (missions, .error error))
  split
  · next hdone => exact Outcome.done hdone
  · exact Outcome.failed _

def oneTarget : CreateInput where
  programId := some aProgram.val
  objective := "Roll out."
  targets :=
    [{ key := "a", scopeKey := "org"
       workItems := [{ key := "v", title := "Check", role := .verifier }] }]
  policy := {}

def whole (turn : Turn) : Act := .run turn anEnv 100

/-- A program is created, started and cancelled. -/
def cancelled : List Act :=
  [whole (.create oneTarget), whole .recover, .assert aProgram, whole (.start aProgram),
    whole .recover, .assert aProgram, whole (.cancel aProgram)]

def statesOf (w : World) : List (Uuid × OrganizationProgramState) :=
  w.programs.map fun program => (program.id, program.state)

theorem exec_cancelled : (exec (step aPlatform) World.start cancelled).map statesOf
    = some [(aProgram, .cancelled)] := by
  decide +kernel

/-- A refresh makes a cancelled program a failed one. -/
theorem refresh_fails_cancelled : ¬ ∀ before acts w w',
    Run (stepsOf (step aPlatform)) World.start before w →
    Run (Where (stepsOf (step aPlatform)) fun _ act => act.Operates) w acts w' →
    ∀ program ∈ w.programs, program.state.terminal = true →
      ∃ program' ∈ w'.programs, program'.id = program.id ∧ program'.state = program.state := by
  intro h
  obtain ⟨w, hw, hstates⟩ := Option.map_eq_some_iff.1 exec_cancelled
  have hlater : ((exec (step aPlatform) World.start cancelled).bind fun w =>
      exec (step aPlatform) w [whole .recover, .assert aProgram, whole (.refresh aProgram)]).map
        statesOf = some [(aProgram, .failed)] := by
    decide +kernel
  rw [hw, Option.bind_some] at hlater
  obtain ⟨w', hw', hstates'⟩ := Option.map_eq_some_iff.1 hlater
  have hacts : Run (Where (stepsOf (step aPlatform)) fun _ act => act.Operates) w
      [whole .recover, .assert aProgram, whole (.refresh aProgram)] w' := by
    refine run_where_of_exec hw' ?_
    intro _ act hact
    simp only [List.mem_cons, List.not_mem_nil, or_false] at hact
    rcases hact with rfl | rfl | rfl <;> trivial
  obtain ⟨program, hmem, hpair⟩ := List.mem_map.1 (hstates ▸ List.mem_singleton_self _)
  obtain ⟨hid, hstate⟩ := Prod.mk.inj hpair
  have hterminal : program.state.terminal = true := by
    rw [hstate]
    rfl
  obtain ⟨program', hmem', -, hsame⟩ :=
    h cancelled _ w w' (run_of_exec hw) hacts program hmem hterminal
  have hpair' : (program'.id, program'.state) ∈ statesOf w' := List.mem_map_of_mem hmem'
  rw [hstates', hsame, hstate] at hpair'
  cases (Prod.mk.inj (List.mem_singleton.1 hpair')).2

/-- A cancelled program that is started and cancelled again rests. -/
theorem terminal_program_rests_sample : ∃ w w' program,
    Run (stepsOf (step aPlatform)) World.start cancelled w
    ∧ Run (Where (stepsOf (step aPlatform)) fun w act => act.Operates ∧ Spares w act) w
      [whole (.start aProgram), whole (.cancel aProgram)] w'
    ∧ program ∈ w.programs ∧ program.state = .cancelled
    ∧ (∃ program' ∈ w'.programs, program'.id = program.id ∧ program'.state = program.state)
    ∧ ∃ new, w'.log = new ++ w.log ∧ ∀ event ∈ new, event.advances program.id = false := by
  obtain ⟨w, hw, hstates⟩ := Option.map_eq_some_iff.1 exec_cancelled
  obtain ⟨program, hmem, hpair⟩ := List.mem_map.1 (hstates ▸ List.mem_singleton_self _)
  have hstate := (Prod.mk.inj hpair).2
  have hterminal : program.state.terminal = true := by
    rw [hstate]
    rfl
  obtain ⟨w', hw'⟩ : ∃ w', exec (step aPlatform) w
      [whole (.start aProgram), whole (.cancel aProgram)] = some w' := ⟨_, rfl⟩
  have hacts : Run (Where (stepsOf (step aPlatform)) fun w act => act.Operates ∧ Spares w act) w
      [whole (.start aProgram), whole (.cancel aProgram)] w' := by
    refine run_where_of_exec hw' ?_
    intro _ act hact
    simp only [List.mem_cons, List.not_mem_nil, or_false] at hact
    rcases hact with rfl | rfl <;> exact ⟨trivial, trivial⟩
  exact ⟨w, w', program, run_of_exec hw, hacts, hmem, hstate,
    terminal_program_rests aPlatform cancelled _ w w' (run_of_exec hw) hacts program hmem hterminal⟩

end OperatorRuntime.Organization
