/-
What each section does to the targets of its program, one round at a time,
and what the whole body returns: a view whose local targets are those of the
program it is about to write (`Worked`).
-/
import OperatorRuntime.Organization.Proofs.Covers

namespace OperatorRuntime.Organization

open Lib

variable {platform : Platform} {env : Env} {programs : List OrganizationProgram}
  {program : OrganizationProgram} {target target' : OrganizationTarget} {w : World}
  {locals done rest : List OrganizationTarget}

-- ===== targets

theorem View.mission_eq (h : View platform programs program locals w) (hmem : program ∈ programs)
    (ht : target ∈ locals) {missionId : Uuid} (hsome : target.missionId = some missionId) :
    missionId = missionOf platform program.id target := by
  rcases h.named hmem ht with hnone | hnamed
  · rw [hsome] at hnone
    cases hnone
  · rw [hsome] at hnamed
    exact Option.some.inj hnamed

/-- A round that replaces one local target. -/
abbrev Round (platform : Platform) (programs : List OrganizationProgram)
    (program : OrganizationProgram) (f : OrganizationTarget → Op OrganizationTarget) : Prop :=
  ∀ done target rest, Script.Triple (View platform programs program (done ++ target :: rest))
    (f target) (fun target' => View platform programs program (done ++ target' :: rest))
    (CutOff platform)

theorem round_loop {f : OrganizationTarget → Op OrganizationTarget}
    (h : Round platform programs program f) (locals : List OrganizationTarget) :
    Script.Triple (View platform programs program locals) (locals.mapM f)
      (fun locals' => View platform programs program locals') (CutOff platform) := by
  have hloop := Script.Triple.mapM (f := f)
    (I := fun done rest => View platform programs program (done ++ rest)) (C := CutOff platform) ?_
    [] locals
  · refine hloop.weaken (fun _ h => h) ?_ fun _ h => h
    intro locals' w hw
    rw [List.nil_append, List.append_nil] at hw
    exact hw
  · intro done target rest
    refine (h done target rest).weaken (fun _ h => h) ?_ fun _ h => h
    intro target' w hw
    rw [List.append_assoc]
    exact hw

theorem View.stored_none (h : View platform programs program locals w) (hmem : program ∈ programs)
    (ht : target ∈ locals) (hnone : target.missionId = none) :
    ∀ t ∈ program.targets, t.key = target.key → t.missionId = none := by
  obtain ⟨stored, hstored, hplace⟩ := mem_places h.places ht
  have hplaced := h.intact.placed
  rw [h.programs] at hplaced
  intro t htmem hkey
  obtain rfl := List.inj_on_of_nodup_map (hplaced.keys program hmem) htmem hstored
    (hkey.trans hplace.key)
  rcases hplace.mission with hsame | hgiven
  · rw [← hsame]
    exact hnone
  · rw [hnone] at hgiven
    cases hgiven

theorem View.only (h : View platform programs program (done ++ target :: rest) w)
    (hmem : program ∈ programs) : ∀ t ∈ done ++ target :: rest, missionOf platform program.id t
    = missionOf platform program.id target → t = target := by
  have hplaced := h.intact.placed
  rw [h.programs] at hplaced
  have hkeys := samePlaces_keys h.places
  have hnodup : ((done ++ target :: rest).map (·.key)).Nodup := by
    rw [hkeys]
    exact hplaced.keys program hmem
  have htarget : target ∈ done ++ target :: rest :=
    List.mem_append_right _ (List.mem_cons_self ..)
  intro t ht hmission
  refine List.inj_on_of_nodup_map hnodup ht htarget ?_
  obtain ⟨stored, hstored, hplace⟩ := mem_places h.places ht
  obtain ⟨own, hown, hplace'⟩ := mem_places h.places htarget
  rw [missionOf, missionOf, hplace.key, hplace'.key] at hmission
  rw [hplace.key, hplace'.key]
  exact (hplaced.apart program hmem stored hstored program hmem own hown hmission).2

variable {current : OrganizationProgram}

theorem startTarget_view (henv : Genuine Quiet env) (hmem : program ∈ programs)
    (hcurrent : current.id = program.id) (waveIndex : Nat) :
    Round platform programs program (startTarget platform env current waveIndex) := by
  intro done target rest
  unfold startTarget
  rw [hcurrent]
  split
  · exact Script.Triple.pure fun _ hw => hw
  · next hmust =>
    have hnone : target.missionId = none :=
      Option.not_isSome_iff_eq_none.1 (not_or.1 hmust).2
    generalize hnew : ({ target with
      missionId := some (stableOrganizationMissionId platform program.id target.key)
      state := .running, updatedAt := env.now } : OrganizationTarget) = target'
    have hplace : SamePlace platform program.id target target' := by
      rw [← hnew]
      exact ⟨rfl, rfl, .inr rfl⟩
    have hrecorded : Recorded platform program.id target' := by
      rw [← hnew]
      exact ⟨rfl, .inl rfl⟩
    have hkey : target'.key = target.key := hplace.key
    have hmission : missionOf platform program.id target' = missionOf platform program.id target := by
      rw [missionOf, missionOf, hkey]
    have hin : ∀ t : OrganizationTarget, t ∈ done ++ t :: rest :=
      fun _ => List.mem_append_right _ (List.mem_cons_self ..)
    refine Script.Triple.fix ?_
    intro w₀ hw₀
    have hstored := hw₀.stored_none hmem (hin target) hnone
    have honly := (hw₀.replace hplace (.inl fun _ => hrecorded)).only hmem
    refine Script.Triple.weaken (P := View platform programs program (done ++ target :: rest)) ?_
      (fun s hs => by rw [hs]; exact hw₀) (fun _ _ h => h) fun _ h => h
    refine prepare_view.bind ?_
    intro _
    refine (quiet_held henv rfl).bind ?_
    intro mission
    split
    · refine Script.Triple.weaken (P := View platform programs program (done ++ target :: rest)) ?_
        (fun _ hw => hw.1) (fun _ _ h => h) fun _ h => h
      refine prepare_view.bind ?_
      intro _
      exact check_triple fun _ _ _ h => absurd h fail_ne_ok
    · next hplanned =>
      rw [not_not] at hplanned
      rw [hplanned]
      refine confirm_view.bind ?_
      intro _
      have hreplaced : ∀ w, View platform programs program (done ++ target :: rest) w
          ∧ Held w.intents (compensationIntentId platform program.id .cancelTeamMission
            (missionOf platform program.id target)) program.id .cancelTeamMission
            (missionOf platform program.id target) →
          View platform programs program (done ++ target' :: rest) w
          ∧ Held w.intents (compensationIntentId platform program.id .cancelTeamMission
            (missionOf platform program.id target)) program.id .cancelTeamMission
            (missionOf platform program.id target) :=
        fun w hw => ⟨hw.1.replace hplace (.inl fun _ => hrecorded), hw.2⟩
      refine Script.Triple.weaken ?_ hreplaced (fun _ _ h => h) fun _ h => h
      refine Script.Triple.bind (register_view ?_ rfl rfl) ?_
      · exact ⟨target', hin target', hmission, hrecorded⟩
      intro _
      refine Script.Triple.bind (advance_view henv hmem (hin target') ?_ ?_ ?_ rfl) ?_
      · exact hmission
      · intro t ht hsame
        rw [honly t ht (hsame.trans hmission.symm)]
        exact hrecorded
      · intro t ht hsame
        exact .inl ⟨hstored t ht (hsame.trans hkey), rfl⟩
      · intro started
        refine check_bind ?_
        intro _ _
        rw [hnew]
        exact Script.Triple.pure fun _ hw => hw

theorem resumeTarget_view (henv : Genuine Quiet env) (hmem : program ∈ programs)
    (hcurrent : current.id = program.id) (hstored : target ∈ program.targets) :
    Script.Triple (View platform programs program (done ++ target :: rest))
      (resumeTarget platform env current target)
      (fun target' => View platform programs program (done ++ target' :: rest))
      (CutOff platform) := by
  have hin : ∀ t : OrganizationTarget, t ∈ done ++ t :: rest :=
    fun _ => List.mem_append_right _ (List.mem_cons_self ..)
  unfold resumeTarget
  rw [hcurrent]
  split
  · exact Script.Triple.pure fun _ hw => hw
  · next missionId hsome =>
    split
    · exact Script.Triple.pure fun _ hw => hw
    · refine Script.Triple.fix ?_
      intro w₀ hw₀
      have hmission := hw₀.mission_eq hmem (hin target) hsome
      have hplaced := hw₀.intact.placed
      rw [hw₀.programs] at hplaced
      subst hmission
      refine Script.Triple.weaken (P := View platform programs program (done ++ target :: rest)) ?_
        (fun s hs => by rw [hs]; exact hw₀) (fun _ _ h => h) fun _ h => h
      refine (quiet_view henv rfl).bind ?_
      intro mission
      refine check_bind ?_
      intro _ hsame
      rw [rejectIf_eq_ok, not_not] at hsame
      generalize hnew : ({ target with
        state := if mission.state = .verified then .verified else .running
        updatedAt := env.now } : OrganizationTarget) = target'
      have hplace : SamePlace platform program.id target target' := by
        rw [← hnew]
        exact ⟨rfl, rfl, .inl rfl⟩
      have hkey : target'.key = target.key := hplace.key
      have hmission : missionOf platform program.id target'
          = missionOf platform program.id target := by
        rw [missionOf, missionOf, hkey]
      have hrecorded : Recorded platform program.id target' := by
        refine ⟨?_, ?_⟩
        · rw [hkey, ← hnew]
          exact hsome
        · rw [← hnew]
          dsimp only
          split
          · exact .inr (.inl rfl)
          · exact .inl rfl
      have honly := (hw₀.replace hplace (.inl fun _ => hrecorded)).only hmem
      have hreplaced : ∀ w, View platform programs program (done ++ target :: rest) w
          ∧ w.missions (missionOf platform program.id target) = some mission →
          View platform programs program (done ++ target' :: rest) w :=
        fun w hw => hw.1.replace hplace (.inl fun _ => hrecorded)
      refine Script.Triple.weaken ?_ hreplaced (fun _ _ h => h) fun _ h => h
      have hresume : Script.Triple (View platform programs program (done ++ target' :: rest))
          (resumeChild platform env current target.key mission)
          (fun _ => View platform programs program (done ++ target' :: rest)) (CutOff platform) := by
        unfold resumeChild
        rw [hcurrent, hsame]
        split
        · refine prepare_view.bind ?_
          intro _
          refine Script.Triple.bind (register_view ?_ rfl rfl) ?_
          · exact ⟨target', hin target', hmission, hrecorded⟩
          intro _
          refine Script.Triple.bind (advance_view henv hmem (hin target') hmission ?_ ?_ rfl) ?_
          · intro t ht hown
            rw [honly t ht (hown.trans hmission.symm)]
            exact hrecorded
          · intro t ht hown
            have htarget := List.inj_on_of_nodup_map (hplaced.keys program hmem) ht hstored
              (hown.trans hkey)
            rw [htarget]
            exact .inr ⟨hsome, rfl⟩
          intro resumed
          exact check_triple fun _ _ hw _ => hw
        · exact Script.Triple.pure fun _ hw => hw
      refine hresume.bind ?_
      intro _
      exact Script.Triple.pure fun _ hw => hw

theorem refreshTarget_view (henv : Genuine Quiet env) (hmem : program ∈ programs)
    (hcurrent : current.id = program.id) :
    Round platform programs program (refreshTarget env current) := by
  intro done target rest
  have hin : target ∈ done ++ target :: rest := List.mem_append_right _ (List.mem_cons_self ..)
  unfold refreshTarget
  rw [hcurrent]
  split
  · exact Script.Triple.pure fun _ hw => hw
  · next missionId hsome =>
    split
    · exact Script.Triple.pure fun _ hw => hw
    · refine (quiet_view henv rfl).bind ?_
      intro mission
      refine check_bind ?_
      intro _ _
      refine Script.Triple.pure ?_
      intro w hw
      obtain ⟨hview, hmission⟩ := hw
      have hnamed := hview.mission_eq hmem hin hsome
      refine hview.replace ⟨rfl, rfl, .inl rfl⟩ (.inl fun hrunning => ⟨?_, ?_⟩)
      · exact hsome.trans (congrArg some hnamed)
      · rw [← hnamed, running] at hrunning
        change w.missions missionId = some mission at hmission
        rw [hmission] at hrunning
        have hstate : mission.state = .running := Option.some.inj hrunning
        refine .inl ?_
        show targetStateOf mission.state = .running
        rw [hstate]
        rfl

/-- What `controlTarget` makes of the target once the child has answered. -/
def afterControl (env : Env) (control : ControlOperation) (state : OrganizationTargetState)
    (target : OrganizationTarget) : Except Thrown Unit → Op (OrganizationTarget × Bool)
  | .ok _ => pure ({ target with state, controlFailure := none, updatedAt := env.now }, false)
  | .error error => do
    let failure ← check (controlFailure control error env.now)
    pure ({ target with controlFailure := some failure, updatedAt := env.now }, true)

theorem controlTarget_view (henv : Genuine Quiet env) (hcurrent : current.id = program.id)
    {control : ControlOperation} {missionId : Uuid}
    (hmission : missionId = missionOf platform program.id target) :
    Script.Triple (View platform programs program (done ++ target :: rest))
      (controlTarget env control current missionId target)
      (fun result => View platform programs program (done ++ result.1 :: rest))
      (CutOff platform) := by
  have hcontrolled : ∀ (call : TeamCall) (state : Team.TeamMissionState)
      (checked : Team.TeamMission → Result Unit), call.sets = false →
      call.missionId = missionId → state ≠ .running →
      (∀ mission, checked mission = .ok () → mission.state = state) →
      Script.Triple (View platform programs program (done ++ target :: rest)) (do
        let mission ← teamCall env program.id target.key call
        check (checked mission))
        (fun _ w => View platform programs program (done ++ target :: rest) w
          ∧ ¬ running w.missions missionId)
        (fun w => View platform programs program (done ++ target :: rest) w) := by
    intro call state checked hsets hcall hstate hchecked
    have hview : ∀ w, View platform programs program (done ++ target :: rest) w →
        View platform programs program (done ++ target :: rest)
          (called env program.id target.key call w) :=
      fun w hw => hw.quiet rfl rfl rfl (called_quiet henv hsets w)
    refine Script.Triple.bind (teamCall_triple (Q := fun mission w =>
        View platform programs program (done ++ target :: rest) w
          ∧ w.missions missionId = some mission) hview ?_) ?_
    · intro w mission hw hok
      refine ⟨hview w hw, ?_⟩
      rw [← hcall]
      exact called_answer henv hok
    · intro mission
      refine check_triple ?_
      intro w _ hw hok
      refine ⟨hw.1, not_running hw.2 ?_⟩
      rw [hchecked mission hok]
      exact hstate
  have hafter : ∀ {x : Op Unit} {state : OrganizationTargetState},
      Script.Triple (View platform programs program (done ++ target :: rest)) x
        (fun _ w => View platform programs program (done ++ target :: rest) w
          ∧ ¬ running w.missions missionId)
        (fun w => View platform programs program (done ++ target :: rest) w) →
      Script.Triple (View platform programs program (done ++ target :: rest))
        (Script.attempt x >>= afterControl env control state target)
        (fun result => View platform programs program (done ++ result.1 :: rest))
        (CutOff platform) := by
    intro x state hx
    refine Script.Triple.bind ((hx.attempt fun _ hw => hw).weaken (fun _ hw => hw) (fun _ _ hw => hw)
      fun _ hw => hw.cutOff) ?_
    intro result
    cases result with
    | ok _ =>
      refine Script.Triple.pure ?_
      intro w hw
      refine hw.1.replace ⟨rfl, rfl, .inl rfl⟩ (.inl fun hrunning => ?_)
      rw [← hmission] at hrunning
      exact absurd hrunning hw.2
    | error error =>
      refine check_bind ?_
      intro failure _
      refine Script.Triple.pure ?_
      intro w hw
      exact hw.replace ⟨rfl, rfl, .inl rfl⟩ (.inr ⟨rfl, rfl⟩)
  unfold controlTarget
  rw [hcurrent]
  cases control with
  | pause =>
    refine hafter (hcontrolled (.pause missionId) .paused _ rfl rfl (fun h => by cases h) ?_)
    intro mission hok
    rw [rejectIf_eq_ok, not_or, not_not, not_not] at hok
    exact hok.2
  | cancel =>
    refine hafter (hcontrolled (.cancel missionId) .cancelled _ rfl rfl (fun h => by cases h) ?_)
    intro mission hok
    rw [rejectIf_eq_ok, not_or, not_not, not_not] at hok
    exact hok.2

theorem pauseTarget_view (henv : Genuine Quiet env) (hmem : program ∈ programs)
    (hcurrent : current.id = program.id) :
    Script.Triple (View platform programs program (done ++ target :: rest))
      (pauseTarget env current target)
      (fun result => View platform programs program (done ++ result.1 :: rest))
      (CutOff platform) := by
  have hin : target ∈ done ++ target :: rest := List.mem_append_right _ (List.mem_cons_self ..)
  unfold pauseTarget
  split
  · exact Script.Triple.pure fun _ hw => hw
  · next missionId hsome =>
    split
    · refine Script.Triple.fix ?_
      intro w hw
      have hnamed := hw.mission_eq hmem hin hsome
      refine (controlTarget_view henv hcurrent hnamed).weaken ?_ (fun _ _ h => h) fun _ h => h
      intro s hs
      rw [hs]
      exact hw
    · exact Script.Triple.pure fun _ hw => hw

theorem cancelTarget_view (henv : Genuine Quiet env) (hmem : program ∈ programs)
    (hcurrent : current.id = program.id) :
    Script.Triple (View platform programs program (done ++ target :: rest))
      (cancelTarget env current target)
      (fun result => View platform programs program (done ++ result.1 :: rest))
      (CutOff platform) := by
  have hin : target ∈ done ++ target :: rest := List.mem_append_right _ (List.mem_cons_self ..)
  unfold cancelTarget
  split
  · exact Script.Triple.pure fun _ hw => hw
  · next missionId hsome =>
    split
    · exact Script.Triple.pure fun _ hw => hw
    · refine Script.Triple.fix ?_
      intro w hw
      have hnamed := hw.mission_eq hmem hin hsome
      refine (controlTarget_view henv hcurrent hnamed).weaken ?_ (fun _ _ h => h) fun _ h => h
      intro s hs
      rw [hs]
      exact hw

theorem control_loop {f : OrganizationTarget → Op (OrganizationTarget × Bool)}
    (h : ∀ done target rest,
      Script.Triple (View platform programs program (done ++ target :: rest)) (f target)
        (fun result => View platform programs program (done ++ result.1 :: rest))
        (CutOff platform)) (locals : List OrganizationTarget) :
    Script.Triple (View platform programs program locals) (locals.mapM f)
      (fun results => View platform programs program (results.map (·.1))) (CutOff platform) := by
  have hloop := Script.Triple.mapM (f := f) (I := fun done rest =>
    View platform programs program (done.map (·.1) ++ rest)) (C := CutOff platform) ?_ [] locals
  · refine hloop.weaken (fun _ h => h) ?_ fun _ h => h
    intro results w hw
    rw [List.nil_append, List.append_nil] at hw
    exact hw
  · intro done target rest
    refine (h (done.map (·.1)) target rest).weaken (fun _ h => h) ?_ fun _ h => h
    intro result w hw
    rw [List.map_append, List.append_assoc]
    exact hw

-- ===== bodies

/-- What a body returns. -/
structure Worked (platform : Platform) (programs : List OrganizationProgram)
    (program program' : OrganizationProgram) (w : World) : Prop where
  plan : SamePlan platform program program'
  view : View platform programs program program'.targets w

theorem startWave_view (henv : Genuine Quiet env) (hmem : program ∈ programs)
    (current : OrganizationProgram) (hcurrent : current.id = program.id)
    (hwaves : current.waves.map (fun wave => (wave.index, wave.targetKeys))
      = program.waves.map fun wave => (wave.index, wave.targetKeys)) (waveIndex : Nat) :
    Script.Triple (View platform programs program current.targets)
      (startWave platform env current waveIndex) (Worked platform programs program)
      (CutOff platform) := by
  unfold startWave
  split
  · exact check_triple fun _ _ _ h => absurd h fail_ne_ok
  · refine check_bind ?_
    intro _ _
    refine (round_loop (startTarget_view henv hmem hcurrent waveIndex) current.targets).bind ?_
    intro targets
    refine Script.Triple.pure ?_
    intro w hw
    refine ⟨⟨hcurrent, hw.places, ?_⟩, hw⟩
    have hmodified : (({ current with targets } : OrganizationProgram).modifyWave waveIndex fun wave =>
        { wave with state := .running }).waves.map (fun wave => (wave.index, wave.targetKeys))
        = current.waves.map fun wave => (wave.index, wave.targetKeys) :=
      waves_modifyWave fun _ => ⟨rfl, rfl⟩
    exact hmodified.trans hwaves

theorem Worked.update {program' program'' : OrganizationProgram}
    (h : Worked platform programs program program' w) (hid : program''.id = program'.id)
    (htargets : program''.targets = program'.targets) (hwaves : program''.waves = program'.waves) :
    Worked platform programs program program'' w := by
  refine ⟨⟨hid.trans h.plan.id, ?_, ?_⟩, ?_⟩
  · rw [htargets]
    exact h.plan.targets
  · rw [hwaves]
    exact h.plan.waves
  · rw [htargets]
    exact h.view

theorem startBody_view (henv : Genuine Quiet env) (hmem : program ∈ programs) :
    Script.Triple (View platform programs program program.targets) (startBody platform env program)
      (Worked platform programs program) (CutOff platform) := by
  unfold startBody
  refine check_bind ?_
  intro _ _
  have htargets : ∀ b : Bool, Script.Triple (View platform programs program program.targets)
      (resumeTargets platform env b { program with state := .running })
      (fun targets => View platform programs program targets) (CutOff platform) := by
    intro b
    unfold resumeTargets
    split
    · have hloop := Script.Triple.mapM (C := CutOff platform)
        (f := resumeTarget platform env { program with state := .running })
        (I := fun done rest w => View platform programs program (done ++ rest) w
          ∧ ∀ target ∈ rest, target ∈ program.targets) ?_ [] program.targets
      · refine hloop.weaken (fun _ hw => ⟨hw, fun _ h => h⟩) ?_ fun _ h => h
        intro targets w hw
        have hview := hw.1
        rw [List.nil_append, List.append_nil] at hview
        exact hview
      · intro done target rest
        by_cases hstored : ∀ t ∈ target :: rest, t ∈ program.targets
        · have hfirst := hstored target (List.mem_cons_self ..)
          refine (resumeTarget_view henv hmem rfl hfirst).weaken (fun _ hw => hw.1) ?_ fun _ h => h
          intro target' w hw
          rw [List.append_assoc]
          exact ⟨hw, fun t ht => hstored t (List.mem_cons_of_mem _ ht)⟩
        · intro w hw
          exact absurd hw.2 hstored
    · exact Script.Triple.pure fun _ hw => hw
  refine (htargets _).bind ?_
  intro targets
  have hwave : Script.Triple (View platform programs program targets)
      (startWave platform env { program with state := .running, targets } program.activeWave)
      (Worked platform programs program) (CutOff platform) :=
    startWave_view henv hmem { program with state := .running, targets } rfl rfl program.activeWave
  refine hwave.bind ?_
  intro program'
  exact Script.Triple.pure fun _ hw => hw.update rfl rfl rfl

theorem waveProofs_view (henv : Genuine Quiet env) (current : OrganizationProgram)
    (hcurrent : current.id = program.id) {wave : OrganizationWave} :
    Script.Triple (View platform programs program locals) (waveProofs env current wave)
      (fun _ => View platform programs program locals) (CutOff platform) := by
  refine Script.Triple.mapM (I := fun _ _ => View platform programs program locals) ?_ [] _
  intro _ targetKey _
  unfold proveTarget
  rw [hcurrent]
  refine check_bind ?_
  intro missionId _
  refine Script.Triple.bind (Q := fun _ => View platform programs program locals)
    ((quiet_view henv rfl).weaken (fun _ hw => hw) (fun _ _ hw => hw.1) fun _ hw => hw) ?_
  intro mission
  refine check_bind ?_
  intro _ _
  refine check_bind ?_
  intro _ _
  exact Script.Triple.pure fun _ hw => hw

theorem View.worked (h : View platform programs program locals w)
    {program' : OrganizationProgram} (hid : program'.id = program.id)
    (htargets : program'.targets = locals)
    (hwaves : program'.waves.map (fun wave => (wave.index, wave.targetKeys))
      = program.waves.map fun wave => (wave.index, wave.targetKeys)) :
    Worked platform programs program program' w := by
  refine ⟨⟨hid, ?_, hwaves⟩, ?_⟩
  · rw [htargets]
    exact h.places
  · rw [htargets]
    exact h

theorem refreshBody_view (henv : Genuine Quiet env) (hmem : program ∈ programs) :
    Script.Triple (View platform programs program program.targets)
      (refreshBody platform env program) (Worked platform programs program) (CutOff platform) := by
  unfold refreshBody
  refine (round_loop (refreshTarget_view henv hmem rfl) program.targets).bind ?_
  intro targets
  dsimp only
  split
  · exact Script.Triple.pure fun _ hw => hw.worked rfl rfl rfl
  · next wave hwave =>
    split
    · exact Script.Triple.pure fun _ hw => hw.worked rfl rfl rfl
    · split
      · exact Script.Triple.pure fun _ hw =>
          hw.worked rfl rfl (waves_modifyWave fun _ => ⟨rfl, rfl⟩)
      · split
        · exact Script.Triple.pure fun _ hw => hw.worked rfl rfl rfl
        · split
          · have hid : ({ program with targets, updatedAt := env.now } : OrganizationProgram).id
                = program.id := rfl
            have hproofs : Script.Triple (View platform programs program targets)
                (waveProofs env { program with targets, updatedAt := env.now } wave)
                (fun _ => View platform programs program targets) (CutOff platform) :=
              waveProofs_view henv _ hid
            refine hproofs.bind ?_
            intro proofs
            exact Script.Triple.pure fun _ hw =>
              hw.worked rfl rfl (waves_modifyWave fun _ => ⟨rfl, rfl⟩)
          · exact Script.Triple.pure fun _ hw => hw.worked rfl rfl rfl

theorem logged_view {event : Event} : Script.Triple (View platform programs program locals)
      (modify fun w => { w with log := event :: w.log })
      (fun _ => View platform programs program locals) (CutOff platform) := by
  have hview : ∀ w, View platform programs program locals w →
      View platform programs program locals { w with log := event :: w.log } :=
    fun w hw => hw.quiet rfl rfl rfl fun _ h => h
  exact Script.Triple.write (fun w hw => (hview w hw).cutOff) hview

theorem promoteBody_view (henv : Genuine Quiet env) (hmem : program ∈ programs) {supplied : Hex64} :
    Script.Triple (View platform programs program program.targets)
      (promoteBody platform env supplied program) (Worked platform programs program)
      (CutOff platform) := by
  unfold promoteBody
  refine check_bind ?_
  intro wave _
  refine (waveProofs_view henv _ rfl).bind ?_
  intro proofs
  refine check_bind ?_
  intro _ _
  refine check_bind ?_
  intro _ _
  refine logged_view.bind ?_
  intro _
  generalize waveDigest platform program.id wave.index proofs = digest
  generalize hnext : (program.modifyWave program.activeWave fun wave =>
    { wave with
      verificationDigest := some digest, promotedAt := some env.now
      promotionDigest := some digest }) = next
  have hplan : SamePlan platform program next := by
    rw [← hnext]
    exact samePlan_modifyWave fun _ => ⟨rfl, rfl⟩
  have htargets : next.targets = program.targets := by
    rw [← hnext]
    rfl
  dsimp only
  split
  · exact Script.Triple.pure fun _ hw => hw.worked hplan.id htargets hplan.waves
  · have hwaves : Script.Triple (View platform programs program program.targets)
        (startWave platform env
          { next with activeWave := next.activeWave + 1, state := .running } (next.activeWave + 1))
        (Worked platform programs program) (CutOff platform) := by
      rw [← htargets]
      exact startWave_view henv hmem
        { next with activeWave := next.activeWave + 1, state := .running } hplan.id hplan.waves _
    refine hwaves.bind ?_
    intro program'
    exact Script.Triple.pure fun _ hw => hw.update rfl rfl rfl

theorem pauseBody_view (henv : Genuine Quiet env) (hmem : program ∈ programs) :
    Script.Triple (View platform programs program program.targets) (pauseBody env program)
      (Worked platform programs program) (CutOff platform) := by
  unfold pauseBody
  refine check_bind ?_
  intro _ _
  refine (control_loop (fun _ _ _ => pauseTarget_view henv hmem rfl) program.targets).bind ?_
  intro results
  exact Script.Triple.pure fun _ hw => hw.worked rfl rfl rfl

theorem cancelBody_view (henv : Genuine Quiet env) (hmem : program ∈ programs) :
    Script.Triple (View platform programs program program.targets) (cancelBody env program)
      (Worked platform programs program) (CutOff platform) := by
  unfold cancelBody
  split
  · exact Script.Triple.pure fun _ hw => hw.worked rfl rfl rfl
  · refine (control_loop (fun _ _ _ => cancelTarget_view henv hmem rfl) program.targets).bind ?_
    intro results
    exact Script.Triple.pure fun _ hw => hw.worked rfl rfl rfl

end OperatorRuntime.Organization
