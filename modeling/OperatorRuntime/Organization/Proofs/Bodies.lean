/-
What the bodies of `#mutate` make of a program, whatever the team
coordinator answers: its targets keep their keys and waves, and its state
moves in one of the ways of `Moved`. Every event a body logs is a call
about a child of the program, or the promotion of its active wave.
-/
import OperatorRuntime.Organization.Proofs.Rules

namespace OperatorRuntime.Organization

open Lib

variable {platform : Platform} {env : Env} {k : Frame}
  {program : OrganizationProgram} {target : OrganizationTarget}

-- ===== targets

/-- A target in the place of another, with its mission or the one a target
in that place is given. -/
structure SamePlace (platform : Platform) (programId : Uuid)
    (target target' : OrganizationTarget) : Prop where
  key : target'.key = target.key
  wave : target'.wave = target.wave
  mission : target'.missionId = target.missionId
    ∨ target'.missionId = some (stableOrganizationMissionId platform programId target.key)

variable {programId : Uuid}

theorem SamePlace.refl (target : OrganizationTarget) : SamePlace platform programId target target :=
  ⟨rfl, rfl, .inl rfl⟩

theorem SamePlace.trans {a b c : OrganizationTarget} (h : SamePlace platform programId a b)
    (h' : SamePlace platform programId b c) : SamePlace platform programId a c := by
  refine ⟨h'.key.trans h.key, h'.wave.trans h.wave, ?_⟩
  rcases h'.mission with hsame | hgiven
  · rw [hsame]
    exact h.mission
  · rw [h.key] at hgiven
    exact .inr hgiven

/-- The frame, and a target in its place. -/
abbrev Kept (platform : Platform) (k : Frame) (programId : Uuid)
    (target target' : OrganizationTarget) (w : World) : Prop :=
  On k w ∧ SamePlace platform programId target target'

theorem pure_kept {target' : OrganizationTarget} (h : SamePlace platform programId target target') :
    Script.Triple (On k) (pure target' : Op OrganizationTarget) (Kept platform k programId target)
      (On k) :=
  Script.Triple.pure fun _ hw => ⟨hw, h⟩

/-- The calls with which a target of a wave is started. -/
def AllowsStart (platform : Platform) (env : Env) (k : Frame) (programId : Uuid)
    (targetKey : String) : Prop :=
  (∀ objective workItems budget, AllowsCall env k programId targetKey
      (.submit (stableOrganizationMissionId platform programId targetKey) objective workItems budget))
    ∧ ∀ missionId, AllowsCall env k programId targetKey (.start missionId)

theorem startTarget_on {waveIndex : Nat} (h : target.wave = waveIndex →
      AllowsStart platform env k program.id target.key) :
    Script.Triple (On k) (startTarget platform env program waveIndex target)
      (Kept platform k program.id target) (On k) := by
  unfold startTarget
  split
  · exact pure_kept ⟨rfl, rfl, .inl rfl⟩
  · next hmust =>
    have hallows := h (not_not.1 (not_or.1 hmust).1)
    refine prepare_on.bind ?_
    intro _
    refine (teamCall_on (hallows.1 _ _ _)).bind ?_
    intro mission
    split
    · refine prepare_on.bind ?_
      intro _
      exact check_triple fun _ _ _ h => absurd h fail_ne_ok
    · next hplanned =>
      refine confirm_on.bind ?_
      intro _
      refine register_on.bind ?_
      intro _
      refine (teamCall_on (hallows.2 _)).bind ?_
      intro started
      refine check_bind ?_
      intro _ _
      exact pure_kept ⟨rfl, rfl, .inr (congrArg some (not_not.1 hplanned))⟩

theorem resumeChild_on {targetKey : String} {mission : Team.TeamMission}
    (h : ∀ missionId, AllowsCall env k program.id targetKey (.resume missionId)) :
    Script.Triple (On k) (resumeChild platform env program targetKey mission) (fun _ => On k)
      (On k) := by
  unfold resumeChild
  split
  · refine prepare_on.bind ?_
    intro _
    refine register_on.bind ?_
    intro _
    refine (teamCall_on (h _)).bind ?_
    intro resumed
    exact check_triple fun _ _ hw _ => hw
  · exact Script.Triple.pure fun _ hw => hw

theorem resumeTarget_on
    (h : ∀ missionId, AllowsCall env k program.id target.key (.inspect missionId)
      ∧ AllowsCall env k program.id target.key (.resume missionId)) :
    Script.Triple (On k) (resumeTarget platform env program target)
      (Kept platform k program.id target) (On k) := by
  unfold resumeTarget
  split
  · exact pure_kept ⟨rfl, rfl, .inl rfl⟩
  · split
    · exact pure_kept ⟨rfl, rfl, .inl rfl⟩
    · refine (teamCall_on (h _).1).bind ?_
      intro mission
      refine check_bind ?_
      intro _ _
      refine (resumeChild_on fun _ => (h _).2).bind ?_
      intro _
      exact pure_kept ⟨rfl, rfl, .inl rfl⟩

theorem refreshTarget_on (h : ∀ missionId, AllowsCall env k program.id target.key (.inspect missionId)) :
    Script.Triple (On k) (refreshTarget env program target) (Kept platform k program.id target)
      (On k) := by
  unfold refreshTarget
  split
  · exact pure_kept ⟨rfl, rfl, .inl rfl⟩
  · split
    · exact pure_kept ⟨rfl, rfl, .inl rfl⟩
    · refine (teamCall_on (h _)).bind ?_
      intro mission
      refine check_bind ?_
      intro _ _
      exact pure_kept ⟨rfl, rfl, .inl rfl⟩

/-- The calls that stop a child. -/
def AllowsStop (env : Env) (k : Frame) (programId : Uuid) (targetKey : String) : Prop :=
  ∀ missionId, AllowsCall env k programId targetKey (.pause missionId)
    ∧ AllowsCall env k programId targetKey (.cancel missionId)

theorem controlTarget_on {operation : ControlOperation} {missionId : Uuid}
    (h : AllowsStop env k program.id target.key) :
    Script.Triple (On k) (controlTarget env operation program missionId target)
      (fun result w => Kept platform k program.id target result.1 w) (On k) := by
  unfold controlTarget
  refine Script.Triple.bind (attempt_on ?_) ?_
  · refine (teamCall_on ?_).bind ?_
    · cases operation with
      | pause => exact (h missionId).1
      | cancel => exact (h missionId).2
    · intro mission
      exact check_triple fun _ _ hw _ => hw
  · intro result
    cases result with
    | ok _ => exact Script.Triple.pure fun w hw => ⟨hw, rfl, rfl, .inl rfl⟩
    | error error =>
      refine check_bind ?_
      intro failure _
      exact Script.Triple.pure fun w hw => ⟨hw, rfl, rfl, .inl rfl⟩

theorem pauseTarget_on (h : AllowsStop env k program.id target.key) :
    Script.Triple (On k) (pauseTarget env program target)
      (fun result w => Kept platform k program.id target result.1 w) (On k) := by
  unfold pauseTarget
  split
  · exact Script.Triple.pure fun w hw => ⟨hw, rfl, rfl, .inl rfl⟩
  · split
    · exact controlTarget_on h
    · exact Script.Triple.pure fun w hw => ⟨hw, rfl, rfl, .inl rfl⟩

theorem cancelTarget_on (h : AllowsStop env k program.id target.key) :
    Script.Triple (On k) (cancelTarget env program target)
      (fun result w => Kept platform k program.id target result.1 w) (On k) := by
  unfold cancelTarget
  split
  · exact Script.Triple.pure fun w hw => ⟨hw, rfl, rfl, .inl rfl⟩
  · split
    · exact Script.Triple.pure fun w hw => ⟨hw, rfl, rfl, .inl rfl⟩
    · exact controlTarget_on h

-- ===== programs

/-- The same program as far as it was planned: its targets and waves. -/
structure SamePlan (platform : Platform) (program program' : OrganizationProgram) : Prop where
  id : program'.id = program.id
  targets : List.Forall₂ (SamePlace platform program.id) program.targets program'.targets
  waves : program'.waves.map (fun w => (w.index, w.targetKeys))
    = program.waves.map fun w => (w.index, w.targetKeys)

theorem samePlaces_refl (targets : List OrganizationTarget) :
    List.Forall₂ (SamePlace platform programId) targets targets :=
  List.forall₂_same.2 fun target _ => SamePlace.refl target

theorem SamePlan.refl (program : OrganizationProgram) : SamePlan platform program program :=
  ⟨rfl, samePlaces_refl _, rfl⟩

theorem forall₂_trans {α : Type} {R : α → α → Prop} (hR : ∀ {a b c}, R a b → R b c → R a c)
    {l l' l'' : List α} (h : List.Forall₂ R l l') (h' : List.Forall₂ R l' l'') :
    List.Forall₂ R l l'' := by
  induction h generalizing l'' with
  | nil => exact h'
  | cons hab _ ih =>
    cases h' with
    | cons hbc hrest => exact List.Forall₂.cons (hR hab hbc) (ih hrest)

theorem SamePlan.trans {p q r : OrganizationProgram} (h : SamePlan platform p q)
    (h' : SamePlan platform q r) : SamePlan platform p r := by
  refine ⟨h'.id.trans h.id, ?_, h'.waves.trans h.waves⟩
  have htargets := h'.targets
  rw [h.id] at htargets
  exact forall₂_trans (fun hab hbc => hab.trans hbc) h.targets htargets

theorem map_modify_eq {α β : Type} {f : α → α} {g : α → β} (h : ∀ a, g (f a) = g a)
    (l : List α) (i : Nat) : (l.modify i f).map g = l.map g := by
  induction l generalizing i with
  | nil => rw [List.modify_nil]
  | cons a l ih =>
    cases i with
    | zero => rw [List.modify_zero_cons, List.map_cons, List.map_cons, h]
    | succ i => rw [List.modify_succ_cons, List.map_cons, List.map_cons, ih]

variable {f : OrganizationWave → OrganizationWave}

theorem waves_modifyWave {index : Nat}
    (hf : ∀ wave, (f wave).index = wave.index ∧ (f wave).targetKeys = wave.targetKeys) :
    (program.modifyWave index f).waves.map (fun w => (w.index, w.targetKeys))
    = program.waves.map fun w => (w.index, w.targetKeys) :=
  map_modify_eq (fun wave => Prod.ext (hf wave).1 (hf wave).2) program.waves index

theorem samePlan_modifyWave {index : Nat}
    (hf : ∀ wave, (f wave).index = wave.index ∧ (f wave).targetKeys = wave.targetKeys) :
    SamePlan platform program (program.modifyWave index f) :=
  ⟨rfl, samePlaces_refl _, waves_modifyWave hf⟩

/-- The ways a body moves the state of a program: any body, one that
refreshes, and one that promotes. -/
inductive Moved (refreshes promotes : Prop) (program program' : OrganizationProgram) : Prop
  | kept : program'.state = program.state → program'.activeWave = program.activeWave →
      program'.waveState = program.waveState → Moved refreshes promotes program program'
  | live : program.state.terminal = false → program'.state ≠ .failed → program'.state ≠ .verified →
      program'.activeWave = program.activeWave → Moved refreshes promotes program program'
  | refreshed : refreshes → program.waveState = some .running →
      program'.state = .failed ∧ program'.waveState = some .failed
        ∨ program'.state = .blocked ∨ program'.state = .paused →
      program'.activeWave = program.activeWave → Moved refreshes promotes program program'
  | finished : promotes → program.waveState = some .verified → program.last →
      program'.state = .verified → program'.waveState = some .verified →
      program'.activeWave = program.activeWave → Moved refreshes promotes program program'
  | promoted : promotes → program.waveState = some .verified → ¬ program.last →
      program'.state = .running → program'.activeWave = program.activeWave + 1 →
      Moved refreshes promotes program program'

theorem waveState_modifyWave {state : OrganizationWaveState}
    (hf : ∀ wave, (f wave).state = state) (hsome : program.waveState.isSome = true) :
    (program.modifyWave program.activeWave f).waveState = some state := by
  show ((program.waves.modify program.activeWave f)[program.activeWave]?).map (·.state) = _
  rw [OrganizationProgram.waveState, Option.isSome_map] at hsome
  obtain ⟨wave, hwave⟩ := Option.isSome_iff_exists.1 hsome
  rw [List.getElem?_modify_eq, hwave]
  exact congrArg some (hf wave)

-- ===== bodies

/-- What a body returns: the frame, the same plan, and a move. -/
abbrev Returns (platform : Platform) (k : Frame) (refreshes promotes : Prop)
    (program program' : OrganizationProgram) (w : World) : Prop :=
  On k w ∧ SamePlan platform program program' ∧ Moved refreshes promotes program program'

theorem startWave_on {waveIndex : Nat} (h : ∀ target ∈ program.targets, target.wave = waveIndex →
      AllowsStart platform env k program.id target.key) :
    Script.Triple (On k) (startWave platform env program waveIndex)
      (fun program' w => On k w ∧ SamePlan platform program program'
        ∧ program'.state = program.state ∧ program'.activeWave = program.activeWave) (On k) := by
  unfold startWave
  split
  · exact check_triple fun _ _ _ h => absurd h fail_ne_ok
  · refine check_bind ?_
    intro _ _
    refine (Script.Triple.mapM_forall₂ fun target ht => startTarget_on (h target ht)).bind ?_
    intro targets
    refine Script.Triple.pure ?_
    intro w hw
    exact ⟨hw.1, ⟨rfl, hw.2, waves_modifyWave fun _ => ⟨rfl, rfl⟩⟩, rfl, rfl⟩

theorem mem_places {targets targets' : List OrganizationTarget} {target' : OrganizationTarget}
    (h : List.Forall₂ (SamePlace platform programId) targets targets') (hmem : target' ∈ targets') :
    ∃ target ∈ targets, SamePlace platform programId target target' := by
  induction h with
  | nil => cases hmem
  | cons hab _ ih =>
    rcases List.mem_cons.1 hmem with rfl | hin
    · exact ⟨_, List.mem_cons_self .., hab⟩
    · obtain ⟨target, htarget, hplace⟩ := ih hin
      exact ⟨target, List.mem_cons_of_mem _ htarget, hplace⟩

theorem live_of_not_rejected {bad : Prop} [Decidable bad] {code : ErrorCode} {message : String}
    {u : Unit} (h : rejectIf bad code message = .ok u)
    (hbad : program.state.terminal = true → bad) : program.state.terminal = false := by
  rw [rejectIf_eq_ok] at h
  exact Bool.eq_false_iff.2 fun hterminal => h (hbad hterminal)

theorem terminal_cases {state : OrganizationProgramState} (h : state.terminal = true) :
    state = .cancelled ∨ state = .failed ∨ state = .verified := by
  cases state with
  | cancelled => exact .inl rfl
  | failed => exact .inr (.inl rfl)
  | verified => exact .inr (.inr rfl)
  | pending => cases h
  | running => cases h
  | paused => cases h
  | blocked => cases h

theorem startBody_on (hinspect : ∀ target ∈ program.targets, ∀ missionId,
      AllowsCall env k program.id target.key (.inspect missionId)
        ∧ (program.state.terminal = false → AllowsCall env k program.id target.key (.resume missionId)))
    (hstart : program.state.terminal = false → ∀ target ∈ program.targets,
      target.wave = program.activeWave → AllowsStart platform env k program.id target.key) :
    Script.Triple (On k) (startBody platform env program)
      (Returns platform k False False program) (On k) := by
  unfold startBody
  refine check_bind ?_
  intro _ hstate
  have hlive : program.state.terminal = false := by
    refine live_of_not_rejected hstate ?_
    intro hterminal
    rcases terminal_cases hterminal with hs | hs | hs <;> rw [hs] <;> decide
  have htargets : Script.Triple (On k)
      (resumeTargets platform env (program.state == .paused || program.state == .blocked)
        { program with state := .running })
      (fun targets w => On k w
        ∧ List.Forall₂ (SamePlace platform program.id) program.targets targets) (On k) := by
    unfold resumeTargets
    split
    · refine Script.Triple.mapM_forall₂ ?_
      intro target ht
      refine resumeTarget_on ?_
      intro missionId
      exact ⟨(hinspect target ht missionId).1, (hinspect target ht missionId).2 hlive⟩
    · exact Script.Triple.pure fun w hw => ⟨hw, samePlaces_refl _⟩
  refine htargets.bind ?_
  intro targets
  by_cases hplaces : List.Forall₂ (SamePlace platform program.id) program.targets targets
  · have hwave : Script.Triple (On k)
        (startWave platform env { program with state := .running, targets } program.activeWave)
        (fun program' w => On k w
          ∧ SamePlan platform { program with state := .running, targets } program'
          ∧ program'.state = .running ∧ program'.activeWave = program.activeWave) (On k) := by
      refine startWave_on ?_
      intro target ht hactive
      obtain ⟨old, hold, hplace⟩ := mem_places hplaces ht
      show AllowsStart platform env k program.id target.key
      rw [hplace.key]
      exact hstart hlive old hold (hplace.wave.symm.trans hactive)
    refine Script.Triple.weaken (P := On k) ?_ (fun _ hw => hw.1) (fun _ _ h => h) fun _ h => h
    refine hwave.bind ?_
    intro program'
    refine Script.Triple.pure ?_
    intro w hw
    obtain ⟨hw, hsame, hstate', hactive⟩ := hw
    have hplan : SamePlan platform program { program with state := .running, targets } :=
      ⟨rfl, hplaces, rfl⟩
    refine ⟨hw, hplan.trans ⟨hsame.id, hsame.targets, hsame.waves⟩, ?_⟩
    refine Moved.live hlive ?_ ?_ hactive
    · show program'.state ≠ .failed
      rw [hstate']
      exact fun h => nomatch h
    · show program'.state ≠ .verified
      rw [hstate']
      exact fun h => nomatch h
  · intro w hw
    exact absurd hw.2 hplaces

/-- The proof of a target: the mission recorded for it was found verified,
with an accepted verifier receipt. -/
structure Proves (program : OrganizationProgram) (targetKey : String) (proof : TargetProof) :
    Prop where
  key : proof.targetKey = targetKey
  recorded : ∃ target ∈ program.targets, target.key = targetKey
    ∧ target.missionId = some proof.mission.id
  verified : proof.mission.state = .verified
  accepted : acceptedVerifiers proof.mission ≠ []

theorem proveTarget_on {targetKey : String}
    (h : ∀ missionId, AllowsCall env k program.id targetKey (.inspect missionId)) :
    Script.Triple (On k) (proveTarget env program targetKey)
      (fun proof w => On k w ∧ Proves program targetKey proof) (On k) := by
  unfold proveTarget
  refine check_bind ?_
  intro missionId hmission
  have hrecorded : ∃ target ∈ program.targets, target.key = targetKey
      ∧ target.missionId = some missionId := by
    split at hmission
    · exact absurd hmission fail_ne_ok
    · next target hfind =>
      split at hmission
      · exact absurd hmission fail_ne_ok
      · next found hfound =>
        split at hmission
        · have hkey := List.find?_some hfind
          rw [← Except.ok.inj hmission]
          exact ⟨target, List.mem_of_find?_eq_some hfind, beq_iff_eq.1 hkey, hfound⟩
        · exact absurd hmission fail_ne_ok
  refine (teamCall_on (h missionId)).bind ?_
  intro mission
  refine check_bind ?_
  intro _ hverified
  refine check_bind ?_
  intro _ haccepted
  refine Script.Triple.pure ?_
  intro w hw
  rw [rejectIf_eq_ok, not_or, not_not, not_not] at hverified
  rw [rejectIf_eq_ok] at haccepted
  refine ⟨hw, rfl, ?_, hverified.2, ?_⟩
  · rw [hverified.1]
    exact hrecorded
  · intro hnil
    exact haccepted (congrArg List.length hnil)

theorem waveProofs_on {wave : OrganizationWave}
    (h : ∀ key ∈ wave.targetKeys, ∀ missionId, AllowsCall env k program.id key (.inspect missionId)) :
    Script.Triple (On k) (waveProofs env program wave) (fun proofs w => On k w
        ∧ List.Forall₂ (Proves program) (Json.sortTexts wave.targetKeys) proofs) (On k) := by
  refine Script.Triple.mapM_forall₂ ?_
  intro key hkey
  exact proveTarget_on (h key ((List.mem_insertionSort _).1 hkey))

theorem refreshBody_on
    (hinspect : ∀ key missionId, AllowsCall env k program.id key (.inspect missionId)) :
    Script.Triple (On k) (refreshBody platform env program)
      (Returns platform k True False program) (On k) := by
  unfold refreshBody
  have htargets : Script.Triple (On k) (program.targets.mapM (refreshTarget env program))
      (fun targets w => On k w
        ∧ List.Forall₂ (SamePlace platform program.id) program.targets targets) (On k) :=
    Script.Triple.mapM_forall₂ fun target _ => refreshTarget_on (hinspect target.key)
  refine htargets.bind ?_
  intro targets
  by_cases hplaces : List.Forall₂ (SamePlace platform program.id) program.targets targets
  · have hkept : ∀ w, On k w →
        Returns platform k True False program { program with targets, updatedAt := env.now } w :=
      fun w hw => ⟨hw, ⟨rfl, hplaces, rfl⟩, Moved.kept rfl rfl rfl⟩
    refine Script.Triple.weaken (P := On k) ?_ (fun _ hw => hw.1) (fun _ _ h => h) fun _ h => h
    dsimp only
    split
    · exact Script.Triple.pure hkept
    · next wave hwave =>
      split
      · exact Script.Triple.pure hkept
      · next hrunning =>
        have hstate : program.waveState = some .running := by
          rw [OrganizationProgram.waveState, hwave]
          exact congrArg some (not_not.1 hrunning)
        split
        · refine Script.Triple.pure ?_
          intro w hw
          refine ⟨hw, ⟨rfl, hplaces, waves_modifyWave fun _ => ⟨rfl, rfl⟩⟩,
            Moved.refreshed trivial hstate (.inl ⟨rfl, ?_⟩) rfl⟩
          refine waveState_modifyWave (fun _ => rfl) ?_
          show program.waveState.isSome = true
          rw [hstate]
          rfl
        · split
          · refine Script.Triple.pure ?_
            intro w hw
            exact ⟨hw, ⟨rfl, hplaces, rfl⟩,
              Moved.refreshed trivial hstate (.inr (.inl rfl)) rfl⟩
          · split
            · have hproofs : Script.Triple (On k)
                  (waveProofs env { program with targets, updatedAt := env.now } wave)
                  (fun proofs w => On k w ∧ List.Forall₂
                    (Proves { program with targets, updatedAt := env.now })
                    (Json.sortTexts wave.targetKeys) proofs) (On k) :=
                waveProofs_on fun key _ => hinspect key
              refine hproofs.bind ?_
              intro proofs
              refine Script.Triple.pure ?_
              intro w hw
              exact ⟨hw.1, ⟨rfl, hplaces, waves_modifyWave fun _ => ⟨rfl, rfl⟩⟩,
                Moved.refreshed trivial hstate (.inr (.inr rfl)) rfl⟩
            · exact Script.Triple.pure hkept
  · intro w hw
    exact absurd hw.2 hplaces

theorem promoteBody_on (k' : Frame) {supplied : Hex64}
    (hweak : ∀ missions programs log, k' missions programs log → k missions programs log)
    (hinspect : ∀ key missionId, AllowsCall env k program.id key (.inspect missionId))
    (hpromote : ∀ wave proofs, program.waves[program.activeWave]? = some wave →
      List.Forall₂ (Proves program) (Json.sortTexts wave.targetKeys) proofs →
      supplied = waveDigest platform program.id wave.index proofs →
      ∀ missions programs log, k missions programs log →
        k' missions programs (.promoted program.id program.activeWave proofs supplied :: log))
    (hstart : program.waveState = some .verified → ¬ program.last → ∀ target ∈ program.targets,
      target.wave = program.activeWave + 1 → AllowsStart platform env k' program.id target.key) :
    Script.Triple (On k) (promoteBody platform env supplied program)
      (Returns platform k' False True program) (On k) := by
  unfold promoteBody
  refine check_bind ?_
  intro wave hwave
  have hactive : program.waves[program.activeWave]? = some wave ∧ wave.state = .verified := by
    split at hwave
    · exact absurd hwave fail_ne_ok
    · next wave' hfound =>
      split at hwave
      · next hverified =>
        obtain rfl := Except.ok.inj hwave
        exact ⟨hfound, hverified⟩
      · exact absurd hwave fail_ne_ok
  have hstate : program.waveState = some .verified := by
    rw [OrganizationProgram.waveState, hactive.1]
    exact congrArg some hactive.2
  refine (waveProofs_on fun key _ => hinspect key).bind ?_
  intro proofs
  by_cases hproofs : List.Forall₂ (Proves program) (Json.sortTexts wave.targetKeys) proofs
  · refine Script.Triple.weaken (P := On k) ?_ (fun _ hw => hw.1) (fun _ _ h => h) fun _ h => h
    refine check_bind ?_
    intro _ _
    refine check_bind ?_
    intro _ hsupplied
    rw [rejectIf_eq_ok, not_not] at hsupplied
    have hevent : Script.Triple (On k) (modify fun w =>
        { w with log := .promoted program.id program.activeWave proofs supplied :: w.log })
        (fun _ => On k') (On k) := by
      have hlogged : ∀ w, On k w →
          k' w.missions w.programs (.promoted program.id program.activeWave proofs supplied :: w.log) :=
        fun w hw => hpromote wave proofs hactive.1 hproofs hsupplied _ _ _ hw
      exact Script.Triple.write (fun w hw => hweak _ _ _ (hlogged w hw)) hlogged
    refine hevent.bind ?_
    intro _
    have hcrash : ∀ w, On k' w → On k w := fun w hw => hweak _ _ _ hw
    refine Script.Triple.weaken (C := On k') ?_ (fun _ h => h) (fun _ _ h => h) hcrash
    generalize hdigest : waveDigest platform program.id wave.index proofs = digest
    generalize hnext : (program.modifyWave program.activeWave fun wave =>
        { wave with
          verificationDigest := some digest, promotedAt := some env.now
          promotionDigest := some digest }) = next
    have hplan : SamePlan platform program next := by
      rw [← hnext]
      exact samePlan_modifyWave fun _ => ⟨rfl, rfl⟩
    have hkept : next.activeWave = program.activeWave ∧ next.waveState = some .verified := by
      rw [← hnext]
      refine ⟨rfl, ?_⟩
      show ((program.waves.modify program.activeWave _)[program.activeWave]?).map (·.state) = _
      rw [List.getElem?_modify_eq, hactive.1]
      exact congrArg some hactive.2
    have hlength := congrArg List.length hplan.waves
    rw [List.length_map, List.length_map] at hlength
    dsimp only
    split
    · next hlast =>
      refine Script.Triple.pure ?_
      intro w hw
      rw [hlength, hkept.1] at hlast
      exact ⟨hw, ⟨hplan.id, hplan.targets, hplan.waves⟩,
        Moved.finished trivial hstate hlast rfl hkept.2 hkept.1⟩
    · next hmore =>
      rw [hlength, hkept.1] at hmore
      have hwaves : Script.Triple (On k')
          (startWave platform env { next with activeWave := next.activeWave + 1, state := .running }
            (next.activeWave + 1))
          (fun program' w => On k' w ∧ SamePlan platform
              { next with activeWave := next.activeWave + 1, state := .running } program'
            ∧ program'.state = .running ∧ program'.activeWave = next.activeWave + 1) (On k') := by
        refine startWave_on ?_
        intro target ht hwave
        obtain ⟨old, hold, hplace⟩ := mem_places hplan.targets ht
        show AllowsStart platform env k' next.id target.key
        rw [hplan.id, hplace.key]
        refine hstart hstate hmore old hold ?_
        rw [← hplace.wave, hwave, hkept.1]
      refine hwaves.bind ?_
      intro program'
      refine Script.Triple.pure ?_
      intro w hw
      obtain ⟨hw, hsame, hrunning, hmoved⟩ := hw
      refine ⟨hw, hplan.trans ⟨hsame.id, hsame.targets, hsame.waves⟩,
        Moved.promoted trivial hstate hmore hrunning ?_⟩
      rw [← hkept.1]
      exact hmoved
  · intro w hw
    exact absurd hw.2 hproofs

theorem control_places {targets : List OrganizationTarget}
    {results : List (OrganizationTarget × Bool)}
    (h : List.Forall₂ (fun target result => SamePlace platform programId target result.1) targets
      results) : List.Forall₂ (SamePlace platform programId) targets (results.map (·.1)) :=
  List.forall₂_map_right_iff.2 h

theorem pauseBody_on (h : ∀ key, AllowsStop env k program.id key) :
    Script.Triple (On k) (pauseBody env program) (Returns platform k False False program)
      (On k) := by
  unfold pauseBody
  refine check_bind ?_
  intro _ hstate
  have hlive : program.state.terminal = false := by
    refine live_of_not_rejected hstate ?_
    intro hterminal
    rcases terminal_cases hterminal with hs | hs | hs <;> rw [hs] <;> decide
  have htargets : Script.Triple (On k) (program.targets.mapM (pauseTarget env program))
      (fun results w => On k w ∧ List.Forall₂
        (fun target result => SamePlace platform program.id target result.1) program.targets results)
      (On k) :=
    Script.Triple.mapM_forall₂ fun target _ => pauseTarget_on (h target.key)
  refine htargets.bind ?_
  intro results
  refine Script.Triple.pure ?_
  intro w hw
  refine ⟨hw.1, ⟨rfl, control_places hw.2, rfl⟩, Moved.live hlive ?_ ?_ rfl⟩
  · dsimp only
    split <;> exact fun h => nomatch h
  · dsimp only
    split <;> exact fun h => nomatch h

theorem cancelBody_on (h : ∀ key, AllowsStop env k program.id key) :
    Script.Triple (On k) (cancelBody env program) (Returns platform k False False program)
      (On k) := by
  unfold cancelBody
  split
  · exact Script.Triple.pure fun w hw => ⟨hw, SamePlan.refl program, Moved.kept rfl rfl rfl⟩
  · next hterminal =>
    have hlive : program.state.terminal = false := Bool.eq_false_iff.2 hterminal
    have htargets : Script.Triple (On k) (program.targets.mapM (cancelTarget env program))
        (fun results w => On k w ∧ List.Forall₂
          (fun target result => SamePlace platform program.id target result.1) program.targets
          results) (On k) :=
      Script.Triple.mapM_forall₂ fun target _ => cancelTarget_on (h target.key)
    refine htargets.bind ?_
    intro results
    refine Script.Triple.pure ?_
    intro w hw
    refine ⟨hw.1, ⟨rfl, control_places hw.2, rfl⟩, Moved.live hlive ?_ ?_ rfl⟩
    · dsimp only
      split <;> exact fun h => nomatch h
    · dsimp only
      split <;> exact fun h => nomatch h

end OperatorRuntime.Organization
