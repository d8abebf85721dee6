/-
A child is submitted only behind the promotions of all earlier waves, and
the team coordinator accepts one submission for a target.

What carries the first is that a stored program is the one its id was last
created with, moved on: its targets hold the ids derived for them or none
(`SamePlan`), and every wave before the active one was promoted since
(`Tracked`). The second is about the missions: one that was accepted is
stored, and a stored one is not accepted again (`Once`).
-/
import OperatorRuntime.Organization.Proofs.Missions
import OperatorRuntime.Organization.Proofs.Terminal

namespace OperatorRuntime.Organization

open Lib

variable {platform : Platform} {env : Env} {programs : List OrganizationProgram}
  {program program' p : OrganizationProgram} {w w' : World} {id : Uuid} {log : List Event}
  {event : Event}

-- ===== the log

def Event.creates : Event → Bool
  | .created _ => true
  | _ => false

/-- What is no creation leaves a program's own in place. -/
theorem log_cons (h : event.creates = false) :
    creationOf id (event :: log) = creationOf id log ∧ tenure id (event :: log)
    = if event.programId? = some id then event :: tenure id log else tenure id log := by
  cases event with
  | created made => cases h
  | child programId targetKey call answered after => exact ⟨rfl, rfl⟩
  | promoted programId wave proofs supplied => exact ⟨rfl, rfl⟩
  | written => exact ⟨rfl, rfl⟩

theorem tenure_subset (h : event.creates = false) : tenure id log ⊆ tenure id (event :: log) := by
  rw [(log_cons h).2]
  split
  · exact List.subset_cons_self ..
  · exact List.Subset.refl _

theorem PromotedWave.mono {index : Nat} {log log' : List Event} (hsub : log ⊆ log')
    (h : PromotedWave platform program index log) : PromotedWave platform program index log' := by
  obtain ⟨wave, proofs, hwave, hproofs, hin⟩ := h
  exact ⟨wave, proofs, hwave, hproofs, hsub hin⟩

-- ===== tracked

/-- The program is the one created under its id, moved on, and every wave
before the active one was promoted since. -/
structure Track (platform : Platform) (log : List Event) (made program : OrganizationProgram) :
    Prop where
  creation : creationOf program.id log = some made
  waves : Partitioned made
  fresh : ∀ target ∈ made.targets, target.missionId = none
  plan : SamePlan platform made program
  behind : ∀ index < program.activeWave, PromotedWave platform made index (tenure program.id log)

def Tracked (platform : Platform) (log : List Event) (program : OrganizationProgram) : Prop :=
  ∃ made, Track platform log made program

theorem Track.cons (h : Track platform log program p) (hevent : event.creates = false) :
    Track platform (event :: log) program p := by
  refine ⟨?_, h.waves, h.fresh, h.plan, ?_⟩
  · rw [(log_cons hevent).1]
    exact h.creation
  · exact fun index hindex => (h.behind index hindex).mono (tenure_subset hevent)

/-- The active wave of the program was promoted as well. -/
def Opened (platform : Platform) (programId : Uuid) (programs : List OrganizationProgram)
    (log : List Event) : Prop :=
  ∀ program ∈ programs, program.id = programId → ∀ made, creationOf programId log = some made →
    PromotedWave platform made program.activeWave (tenure programId log)

theorem Opened.cons (h : Opened platform id programs log) (hevent : event.creates = false) :
    Opened platform id programs (event :: log) := by
  intro program hmem hid made hmade
  rw [(log_cons hevent).1] at hmade
  exact (h program hmem hid made hmade).mono (tenure_subset hevent)

/-- Distinct ids, every program tracked, and every submission behind its
gate. -/
structure Gated (platform : Platform) (programs : List OrganizationProgram) (log : List Event) :
    Prop where
  ids : (programs.map (·.id)).Nodup
  tracked : ∀ program ∈ programs, Tracked platform log program
  gates : ∀ event older, event :: older <:+ log → Gate platform older event

theorem Gated.cons (h : Gated platform programs log) (hevent : event.creates = false)
    (hgate : Gate platform log event) : Gated platform programs (event :: log) := by
  refine ⟨h.ids, ?_, ?_⟩
  · intro program hmem
    obtain ⟨made, htrack⟩ := h.tracked program hmem
    exact ⟨made, htrack.cons hevent⟩
  · intro event' older hsuffix
    rcases List.suffix_cons_iff.1 hsuffix with heq | hrest
    · obtain ⟨rfl, rfl⟩ := List.cons.inj heq
      exact hgate
    · exact h.gates event' older hrest

-- ===== calls

theorem Track.submit (h : Track platform log program p) {target : OrganizationTarget}
    (hmem : target ∈ p.targets)
    (hbehind : ∀ index < target.wave, PromotedWave platform program index (tenure p.id log))
    {objective : String} {workItems : List Team.TeamWorkInput}
    {budget : Option Team.TeamBudgetInput} {answered : Bool}
    {after : Option Team.TeamMissionState} : Gate platform log (.child p.id target.key
      (.submit (stableOrganizationMissionId platform p.id target.key) objective workItems budget)
      answered after) := by
  obtain ⟨made, hmade, hplace⟩ := mem_places h.plan.targets hmem
  refine ⟨rfl, program, made, h.creation, hmade, hplace.key.symm, ?_⟩
  rw [← hplace.wave]
  exact hbehind

theorem Track.evidence (h : Track platform log program p) {targetKey : String}
    {proof : TargetProof} (hproof : Proves p targetKey proof) :
    Evidence platform program.id targetKey proof := by
  refine ⟨hproof.key, ?_, hproof.verified, hproof.accepted⟩
  obtain ⟨target, hmem, hkey, hmission⟩ := hproof.recorded
  obtain ⟨made, hmade, hplace⟩ := mem_places h.plan.targets hmem
  rcases hplace.mission with hsame | hgiven
  · rw [h.fresh made hmade, hmission] at hsame
    cases hsame
  · rw [hmission] at hgiven
    rw [Option.some.inj hgiven, ← hplace.key, hkey]

theorem Track.promoted (h : Track platform log program p) {wave : OrganizationWave}
    {proofs : List TargetProof} {supplied : Hex64} (hwave : p.waves[p.activeWave]? = some wave)
    (hproofs : List.Forall₂ (Proves p) (Json.sortTexts wave.targetKeys) proofs)
    (hsupplied : supplied = waveDigest platform p.id wave.index proofs) :
    PromotedWave platform program p.activeWave
      (tenure p.id (.promoted p.id p.activeWave proofs supplied :: log)) := by
  have hplanned := congrArg (·[p.activeWave]?) h.plan.waves
  rw [List.getElem?_map, List.getElem?_map, hwave] at hplanned
  obtain ⟨planned, hfound, hsame⟩ := Option.map_eq_some_iff.1 hplanned.symm
  obtain ⟨hindex, hkeys⟩ := Prod.mk.inj hsame
  refine ⟨planned, proofs, hfound, ?_, ?_⟩
  · rw [hkeys]
    exact hproofs.imp fun _ _ hproof => h.evidence hproof
  · have hown : (Event.promoted p.id p.activeWave proofs supplied).programId? = some p.id := rfl
    rw [(log_cons rfl).2, if_pos hown, hsupplied, ← hindex, h.waves.index _ _ hfound, h.plan.id]
    exact List.mem_cons_self ..

theorem Gated.call {targetKey : String} {call : TeamCall} {answered : Bool}
    {after : Option Team.TeamMissionState} (h : Gated platform programs log)
    (hcall : ∀ missionId objective workItems budget,
      call ≠ .submit missionId objective workItems budget) :
    Gated platform programs (.child id targetKey call answered after :: log) := by
  refine h.cons rfl ?_
  cases call with
  | submit missionId objective workItems budget => exact absurd rfl (hcall _ _ _ _)
  | inspect missionId => trivial
  | start missionId => trivial
  | pause missionId => trivial
  | resume missionId => trivial
  | cancel missionId => trivial

-- ===== sections

/-- Gated, and where `opened` the active wave of the program was promoted. -/
def Admits (platform : Platform) (opened : Prop) (id : Uuid) : Frame := fun _ programs log =>
  Gated platform programs log ∧ (opened → Opened platform id programs log)

abbrev gated (platform : Platform) : Frame := fun _ => Gated platform

theorem allows_gated {targetKey : String} {call : TeamCall}
    (hcall : ∀ missionId objective workItems budget,
      call ≠ .submit missionId objective workItems budget) :
    AllowsCall env (gated platform) id targetKey call :=
  allowsCall_of_log fun _ _ _ _ h => h.call hcall

theorem allows_admits {opened : Prop} {programId : Uuid} {targetKey : String} {call : TeamCall}
    (hcall : ∀ missionId objective workItems budget,
      call ≠ .submit missionId objective workItems budget) :
    AllowsCall env (Admits platform opened id) programId targetKey call := by
  intro s hs
  exact ⟨hs.1.call hcall, fun hopened => (hs.2 hopened).cons rfl⟩

theorem stop_gated (programId : Uuid) (targetKey : String) :
    AllowsStop env (gated platform) programId targetKey :=
  fun _ => ⟨allows_gated fun _ _ _ _ h => (nomatch h), allows_gated fun _ _ _ _ h => (nomatch h)⟩

theorem allowsStart_admits {opened : Prop} {waveIndex : Nat} {target : OrganizationTarget}
    (hmem : program ∈ programs) (htarget : target ∈ program.targets)
    (hwave : target.wave = waveIndex)
    (hbehind : ∀ log made, Track platform log made program →
      (opened → Opened platform program.id programs log) →
      ∀ index < waveIndex, PromotedWave platform made index (tenure program.id log)) :
    AllowsStart platform env (Pinned programs (Admits platform opened program.id)) program.id
      target.key := by
  refine ⟨?_, ?_⟩
  · intro objective workItems budget s hs
    obtain ⟨hsame, hgated, hopened⟩ := hs
    refine ⟨hsame, ?_, fun h => (hopened h).cons rfl⟩
    rw [hsame] at hgated hopened
    obtain ⟨made, htrack⟩ := hgated.tracked program hmem
    have hcalled : (called env program.id target.key (.submit (stableOrganizationMissionId platform
        program.id target.key) objective workItems budget) s).programs = programs := hsame
    rw [hcalled]
    refine hgated.cons rfl (htrack.submit htarget ?_)
    rw [hwave]
    exact hbehind _ _ htrack hopened
  · intro missionId
    have hstart : AllowsCall env (Admits platform opened program.id) program.id target.key
        (.start missionId) := allows_admits fun _ _ _ _ h => (nomatch h)
    exact hstart.pinned

theorem Gated.put {refreshes promotes opened : Prop} (h : Gated platform programs log)
    (hopened : opened → Opened platform program.id programs log) (hmem : program ∈ programs)
    (hplan : SamePlan platform program program') (hmoved : Moved refreshes promotes program program')
    (hpromotes : promotes → opened) :
    Gated platform (putProgram programs program') (.written :: log) := by
  have hwritten : Gated platform programs (.written :: log) := h.cons rfl trivial
  refine ⟨?_, ?_, hwritten.gates⟩
  · rw [putProgram_ids]
    exact h.ids
  · intro q hq
    rcases mem_putProgram h.ids hq with ⟨hold, -⟩ | rfl
    · exact hwritten.tracked q hold
    · obtain ⟨made, htrack⟩ := h.tracked program hmem
      have hnext : Track platform (.written :: log) made program := htrack.cons rfl
      have hbehind : ∀ index < q.activeWave,
          PromotedWave platform made index (tenure program.id (.written :: log)) := by
        have hsame : q.activeWave = program.activeWave → ∀ index < q.activeWave,
            PromotedWave platform made index (tenure program.id (.written :: log)) := by
          intro hactive
          rw [hactive]
          exact hnext.behind
        cases hmoved with
        | kept hstate hactive hwave => exact hsame hactive
        | live hlive hfailed hverified hactive => exact hsame hactive
        | refreshed hdoes hwave hstate hactive => exact hsame hactive
        | finished hdoes hwave hlast hstate hverified hactive => exact hsame hactive
        | promoted hdoes hwave hlast hstate hactive =>
          intro index hindex
          by_cases hold : index < program.activeWave
          · exact hnext.behind index hold
          · have hcurrent : index = program.activeWave := by omega
            rw [hcurrent]
            exact ((hopened (hpromotes hdoes)).cons rfl) program hmem rfl made hnext.creation
      refine ⟨made, ?_, hnext.waves, hnext.fresh, hnext.plan.trans hplan, ?_⟩
      · rw [hplan.id]
        exact hnext.creation
      · rw [hplan.id]
        exact hbehind

theorem Gated.create {input : CreateInput} {randomUUID : Uuid} {now : Instant}
    {kept : List OrganizationProgram} (h : Gated platform programs log)
    (hnew : newProgram input randomUUID now = .ok program) (hid : program.id ∉ programs.map (·.id))
    (hkept : kept.Sublist programs) :
    Gated platform (kept ++ [program]) (.created program :: log) := by
  obtain ⟨hwaves, hactive, hfresh⟩ := newProgram_partitioned hnew
  refine ⟨?_, ?_, ?_⟩
  · exact create_ids h.ids hid hkept
  · intro q hq
    rcases List.mem_append.1 hq with hold | hlast
    · obtain ⟨made, htrack⟩ := h.tracked q (hkept.subset hold)
      have hne : program.id ≠ q.id := by
        intro heq
        rw [heq] at hid
        exact hid (List.mem_map_of_mem (hkept.subset hold))
      refine ⟨made, ?_, htrack.waves, htrack.fresh, htrack.plan, ?_⟩
      · rw [creationOf, if_neg hne]
        exact htrack.creation
      · rw [tenure, if_neg hne]
        exact htrack.behind
    · rw [List.mem_singleton.1 hlast]
      refine ⟨program, ?_, hwaves, hfresh, SamePlan.refl program, ?_⟩
      · rw [creationOf, if_pos rfl]
      · rw [hactive]
        exact fun _ h => absurd h (Nat.not_lt_zero _)
  · intro event older hsuffix
    rcases List.suffix_cons_iff.1 hsuffix with heq | hrest
    · obtain ⟨rfl, rfl⟩ := List.cons.inj heq
      trivial
    · exact h.gates event older hrest

theorem mutate_gated (platform : Platform) (refreshes promotes : Prop)
    {body : OrganizationProgram → Op OrganizationProgram}
    (hbody : ∀ programs program, program ∈ programs → program.id = id →
      Script.Triple (On (Pinned programs (gated platform))) (body program)
        (Returns platform (Pinned programs (Admits platform promotes program.id)) refreshes promotes
          program) (On (Pinned programs (gated platform)))) :
    Script.Triple (On (gated platform)) (mutate env id body) (fun _ => On (gated platform))
      (On (gated platform)) := by
  refine mutate_on (Admits platform promotes id) (fun program program' =>
    SamePlan platform program program' ∧ Moved refreshes promotes program program')
    (fun _ _ _ h => h) (fun _ _ _ h => h.1) ?_ ?_ stop_gated
  · intro programs program hmem hid
    have hthis := hbody programs program hmem hid
    rw [hid] at hthis
    exact hthis
  · intro missions programs log program program' hmem hid hR h
    refine h.1.put (fun hopened => ?_) hmem hR.1 hR.2 fun h => h
    rw [hid]
    exact h.2 hopened

theorem returns_admits {refreshes : Prop} {body : OrganizationProgram → Op OrganizationProgram}
    (h : Script.Triple (On (Pinned programs (Admits platform False program.id))) (body program)
      (Returns platform (Pinned programs (Admits platform False program.id)) refreshes False program)
      (On (Pinned programs (Admits platform False program.id)))) :
    Script.Triple (On (Pinned programs (gated platform))) (body program)
      (Returns platform (Pinned programs (Admits platform False program.id)) refreshes False program)
      (On (Pinned programs (gated platform))) :=
  h.weaken (fun _ hs => ⟨hs.1, hs.2, False.elim⟩) (fun _ _ hs => hs) fun _ hs => ⟨hs.1, hs.2.1⟩

theorem turn_gated (turn : Turn) :
    Script.Triple (On (gated platform)) (turn.op platform env) (fun _ => On (gated platform))
      (On (gated platform)) := by
  have hinspect : ∀ {programs : List OrganizationProgram} {programId : Uuid} {targetKey : String}
      {missionId : Uuid}, AllowsCall env (Pinned programs (Admits platform False programId))
        programId targetKey (.inspect missionId) := by
    intro programs programId targetKey missionId
    have hcall : AllowsCall env (Admits platform False programId) programId targetKey
        (.inspect missionId) := allows_admits fun _ _ _ _ h => (nomatch h)
    exact hcall.pinned
  have hresume : ∀ {programs : List OrganizationProgram} {programId : Uuid} {targetKey : String}
      {missionId : Uuid}, AllowsCall env (Pinned programs (Admits platform False programId))
        programId targetKey (.resume missionId) := by
    intro programs programId targetKey missionId
    have hcall : AllowsCall env (Admits platform False programId) programId targetKey
        (.resume missionId) := allows_admits fun _ _ _ _ h => (nomatch h)
    exact hcall.pinned
  have hstop : ∀ {programs : List OrganizationProgram} {programId : Uuid} (targetKey : String),
      AllowsStop env (Pinned programs (Admits platform False programId)) programId targetKey := by
    intro programs programId targetKey missionId
    have hpause : AllowsCall env (Admits platform False programId) programId targetKey
        (.pause missionId) := allows_admits fun _ _ _ _ h => (nomatch h)
    have hcancel : AllowsCall env (Admits platform False programId) programId targetKey
        (.cancel missionId) := allows_admits fun _ _ _ _ h => (nomatch h)
    exact ⟨hpause.pinned, hcancel.pinned⟩
  cases turn with
  | create input =>
    refine create_on (fun _ _ _ h => h) ?_
    exact fun _ _ _ _ _ hnew h hid hkept => h.create hnew hid hkept
  | recover =>
    refine recover_on (fun _ _ _ => allows_gated fun _ _ _ _ h => (nomatch h)) ?_
    exact fun _ _ => stop_gated _ _
  | start programId =>
    refine mutate_gated platform False False fun programs program hmem _ => returns_admits ?_
    refine startBody_on (fun _ _ _ => ⟨hinspect, fun _ => hresume⟩) ?_
    intro _ target htarget hwave
    refine allowsStart_admits hmem htarget hwave ?_
    exact fun _ _ htrack _ => htrack.behind
  | refresh programId =>
    refine mutate_gated platform True False fun programs program hmem _ => returns_admits ?_
    exact refreshBody_on fun _ _ => hinspect
  | promote programId verificationDigest =>
    refine check_bind ?_
    intro supplied _
    refine mutate_gated platform False True fun programs program hmem _ => ?_
    refine promoteBody_on (Pinned programs (Admits platform True program.id))
      (fun _ _ _ h => ⟨h.1, h.2.1⟩) ?_ ?_ ?_
    · intro targetKey missionId
      have hcall : AllowsCall env (gated platform) program.id targetKey (.inspect missionId) :=
        allows_gated fun _ _ _ _ h => (nomatch h)
      exact hcall.pinned
    · intro wave proofs hwave hproofs hsupplied missions programs' log hgated
      obtain ⟨rfl, hgated⟩ := hgated
      refine ⟨rfl, hgated.cons rfl trivial, ?_⟩
      intro _ q hq hid made hmade
      obtain rfl := eq_of_id hgated.ids hq hmem hid
      obtain ⟨made', htrack⟩ := hgated.tracked q hq
      rw [(log_cons rfl).1, htrack.creation] at hmade
      rw [← Option.some.inj hmade]
      exact htrack.promoted hwave hproofs hsupplied
    · intro _ _ target htarget hwave
      refine allowsStart_admits hmem htarget hwave ?_
      intro log made htrack hopened index hindex
      by_cases hold : index < program.activeWave
      · exact htrack.behind index hold
      · have hcurrent : index = program.activeWave := by omega
        rw [hcurrent]
        exact hopened trivial program hmem rfl made htrack.creation
  | pause programId =>
    refine mutate_gated platform False False fun programs program hmem _ => returns_admits ?_
    exact pauseBody_on fun targetKey => hstop targetKey
  | cancel programId =>
    refine mutate_gated platform False False fun programs program hmem _ => returns_admits ?_
    exact cancelBody_on fun targetKey => hstop targetKey

theorem step_gated {act : Act} (h : On (gated platform) w) (hstep : step platform w act = some w') :
    On (gated platform) w' :=
  step_on hstep h (fun _ _ _ h => h) (fun turn _ _ _ => turn_gated turn) fun _ _ => h

/-- Every state that a run reaches is gated. -/
theorem gated_run {acts : List Act} (hrun : Run (stepsOf (step platform)) World.start acts w) :
    On (gated platform) w := by
  refine hrun.invariant (I := On (gated platform)) ⟨List.nodup_nil, ?_, ?_⟩
    fun h hstep => step_gated h hstep
  · exact fun _ h => (nomatch h)
  · exact fun _ _ h => absurd (List.IsSuffix.subset h (List.mem_cons_self ..)) List.not_mem_nil

-- ===== submissions

/-- A mission was accepted at most once, and not while none is stored. -/
def Once : Frame := fun missions _ log => ∀ missionId, log.countP (Event.accepts missionId) ≤ 1
    ∧ (missions missionId = none → log.countP (Event.accepts missionId) = 0)

theorem Once.drift {missions drifted : Missions} (h : Once missions programs log)
    (hdrift : Persist missions drifted) : Once drifted programs log := by
  intro missionId
  refine ⟨(h missionId).1, ?_⟩
  intro hnone
  refine (h missionId).2 (Option.not_isSome_iff_eq_none.1 fun hsome => ?_)
  have hkept := hdrift missionId hsome
  rw [hnone] at hkept
  cases hkept

theorem Once.cons {missions : Missions} (h : Once missions programs log)
    (hevent : ∀ missionId, event.accepts missionId = false) :
    Once missions programs (event :: log) := by
  intro missionId
  rw [List.countP_cons, hevent missionId]
  exact h missionId

theorem allows_once (henv : Genuine Persist env) (programId : Uuid) (targetKey : String)
    (call : TeamCall) : AllowsCall env Once programId targetKey call := by
  intro s hs
  obtain ⟨drifted, hdrift, hout⟩ := henv.cases s.tick call s.missions
  have hdrifted := Once.drift hs hdrift
  show Once (env.teams s.tick call s.missions).1 s.programs
    (.child programId targetKey call (env.teams s.tick call s.missions).2.isOk _ :: s.log)
  rcases hout with ⟨hdid, -⟩ | ⟨hsame, hfailed⟩
  · generalize (env.teams s.tick call s.missions).1 = after at hdid
    generalize (env.teams s.tick call s.missions).2.isOk = answered
    have hafter := hdrifted.drift hdid.persist
    cases hdid with
    | submitted objective workItems budget hnone hpending =>
      next id made =>
      intro missionId
      by_cases hid : id = missionId
      · subst hid
        have hzero := (hdrifted id).2 hnone
        refine ⟨?_, fun hstored => ?_⟩
        · rw [List.countP_cons, hzero]
          split <;> omega
        · rw [putMission_self] at hstored
          cases hstored
      · have hnot : ∀ after, Event.accepts missionId (.child programId targetKey
            (.submit id objective workItems budget) answered after) = false := by
          intro after
          cases answered with
          | true => exact beq_eq_false_iff_ne.2 hid
          | false => rfl
        rw [List.countP_cons, hnot]
        exact hafter missionId
    | inspected => exact hafter.cons fun _ => rfl
    | started hrunning => exact hafter.cons fun _ => rfl
    | resumed hrunning => exact hafter.cons fun _ => rfl
    | paused hpaused => exact hafter.cons fun _ => rfl
    | cancelled hstopped => exact hafter.cons fun _ => rfl
  · rw [hsame, hfailed]
    refine hdrifted.cons ?_
    intro missionId
    cases call <;> rfl

theorem step_once {act : Act} (h : On Once w) (hstep : step platform w act = some w')
    (hendures : Endures w act) : On Once w' := by
  refine step_on hstep h (fun _ _ _ h => h) ?_ ?_
  · intro turn env writes hact
    rw [hact] at hendures
    refine turn_on (allows_once hendures) ?_ ?_ ?_ turn
    · exact fun _ _ _ _ _ _ _ h => Once.cons h fun _ => rfl
    · exact fun _ _ _ _ _ _ _ _ _ _ h => Once.cons h fun _ => rfl
    · exact fun _ _ _ _ _ _ _ _ _ h _ _ => Once.cons h fun _ => rfl
  · intro missions hact
    rw [hact] at hendures
    exact Once.drift h hendures

-- ===== runs

/-- The waves of every accepted input partition its targets in order; in
every run, a child is submitted under the id derived for its target and
after every earlier wave was promoted, with the digest of the evidence of
all its targets; and no child is accepted twice. -/
theorem rollout_gated (platform : Platform) :
    (∀ input randomUUID now program, newProgram input randomUUID now = .ok program →
      Partitioned program) ∧ (∀ acts w, Run (stepsOf (step platform)) World.start acts w →
        ∀ event older, event :: older <:+ w.log → Gate platform older event)
    ∧ ∀ acts w, Run (Where (stepsOf (step platform)) Endures) World.start acts w →
        ∀ missionId, w.log.countP (Event.accepts missionId) ≤ 1 := by
  refine ⟨?_, ?_, ?_⟩
  · intro input randomUUID now program hnew
    exact (newProgram_partitioned hnew).1
  · intro acts w hrun
    exact (gated_run hrun).gates
  · intro acts w hrun missionId
    have hstart : On Once World.start := fun _ => ⟨Nat.zero_le _, fun _ => rfl⟩
    have honce : On Once w :=
      hrun.invariant (I := On Once) hstart fun h hstep => step_once h hstep.1 hstep.2
    exact (honce missionId).1

theorem persist_refl (missions : Missions) : Persist missions missions := fun _ h => h

/-- The child of the sample is submitted once. -/
theorem rollout_gated_sample : ∃ w,
    Run (Where (stepsOf (step aPlatform)) Endures) World.start cancelled w
    ∧ w.log.countP (Event.accepts (stableOrganizationMissionId aPlatform aProgram "a")) = 1
    ∧ (∀ event older, event :: older <:+ w.log → Gate aPlatform older event)
    ∧ ∀ missionId, w.log.countP (Event.accepts missionId) ≤ 1 := by
  have hcount : (exec (step aPlatform) World.start cancelled).map (fun w =>
      w.log.countP (Event.accepts (stableOrganizationMissionId aPlatform aProgram "a")))
      = some 1 := by
    decide +kernel
  obtain ⟨w, hw, hone⟩ := Option.map_eq_some_iff.1 hcount
  have hrun : Run (Where (stepsOf (step aPlatform)) Endures) World.start cancelled w := by
    refine run_where_of_exec hw ?_
    intro _ act hact
    have hall : Genuine Persist anEnv := anEnv_genuine persist_refl
    simp only [cancelled, List.mem_cons, List.not_mem_nil, or_false] at hact
    rcases hact with rfl | rfl | rfl | rfl | rfl | rfl | rfl <;> first | exact hall | trivial
  exact ⟨w, hrun, hone, (rollout_gated aPlatform).2.1 _ w (run_of_exec hw),
    (rollout_gated aPlatform).2.2 _ w hrun⟩

end OperatorRuntime.Organization
