/-
In every reached state a running child is recorded or an intent of its
program is pending. A mutation leaves that so wherever it is cut off: its
write records what its callbacks are about, so their intents may go
(`mutate_intact`); the recovery completes an intent it takes for committed,
which is right unless the intent is to pause a child that was resumed and
not recorded (`Settles`).
-/
import OperatorRuntime.Organization.Proofs.Rounds
import OperatorRuntime.Organization.Proofs.Terminal
import OperatorRuntime.Organization.Proofs.Missions

namespace OperatorRuntime.Organization

open Lib

variable {platform : Platform} {env : Env} {programs : List OrganizationProgram}
  {program : OrganizationProgram} {w w' : World} {id : Uuid}

-- ===== mutations

/-- The intents that may be completed. -/
def Commits (platform : Platform) (ids : List String) (w : World) : Prop :=
  CutOff platform w ∧ ∀ id ∈ ids, ∀ intent ∈ w.intents, intent.id = id → Done platform w intent

theorem commit_cutOff (intentId : String) (rest : List String) :
    Script.Triple (Commits platform (intentId :: rest))
      (do let _ ← Script.attempt (complete env intentId)) (fun _ => Commits platform rest)
      (CutOff platform) := by
  have hrest : ∀ w, Commits platform (intentId :: rest) w → Commits platform rest w :=
    fun w hw => ⟨hw.1, fun id hid => hw.2 id (List.mem_cons_of_mem _ hid)⟩
  have hcomplete : Script.Triple (Commits platform (intentId :: rest)) (complete env intentId)
      (fun _ => Commits platform rest) (Commits platform rest) := by
    refine durably_triple ?_ ?_
    · exact fun w n hw => ⟨hw.1.tick n, (hrest w hw).2⟩
    · intro w n hw
      have hafter : Commits platform rest { w with
          intents := w.intents.filter fun item => item.id != intentId, tick := n } := by
        refine ⟨hw.1.complete (hw.2 intentId (List.mem_cons_self ..)) n, ?_⟩
        intro id hid intent hintent
        exact (hrest w hw).2 id hid intent (List.mem_filter.1 hintent).1
      exact ⟨hafter, hafter⟩
  refine Script.Triple.bind (Q := fun _ => Commits platform rest)
    ((hcomplete.attempt hrest).weaken (fun _ hw => hw) ?_ fun _ hw => hw.1) ?_
  · intro answer w hw
    cases answer with
    | ok _ => exact hw
    | error _ => exact hw
  · exact fun _ => Script.Triple.pure fun _ hw => hw

theorem Worked.written {program' : OrganizationProgram} (hmem : program ∈ w.programs)
    (h : Worked platform w.programs program program' w) (event : Event) (n : Nat) :
    Commits platform w.transaction.commits { w with
      programs := putProgram w.programs program', log := event :: w.log, tick := n } := by
  have hintact := h.view.intact
  have hself : program' ∈ putProgram w.programs program' :=
    mem_putProgram_self hmem h.plan.id.symm
  refine ⟨⟨⟨hintact.placed.put hmem h.plan, hintact.journal, ?_⟩, h.view.cutOff.owned⟩, ?_⟩
  · intro q hq t ht
    rcases mem_putProgram hintact.placed.ids hq with ⟨hold, -⟩ | rfl
    · exact hintact.covered q hold t ht
    · rw [h.plan.id]
      exact h.view.covered t ht
  · intro id hid intent hintent hsame
    rw [h.view.commits] at hid
    obtain ⟨callback, hcallback, rfl⟩ := List.mem_map.1 hid
    obtain ⟨⟨bound, hbound, hboundId, hmission⟩, hlocal⟩ := h.view.bound callback hcallback
    obtain rfl := List.inj_on_of_nodup_map hintact.journal hintent hbound
      (hsame.trans hboundId.symm)
    intro hrunning
    rw [hmission] at hrunning ⊢
    obtain ⟨t, ht, hown, hrecorded⟩ := hlocal hrunning
    refine ⟨program', hself, t, ht, ?_, ?_⟩
    · rw [h.plan.id]
      exact hown
    · rw [h.plan.id]
      exact hrecorded

theorem mutate_intact {body : OrganizationProgram → Op OrganizationProgram}
    (henv : Genuine Quiet env) (hbody : ∀ programs program, program ∈ programs →
      Script.Triple (View platform programs program program.targets) (body program)
        (Worked platform programs program) (CutOff platform)) :
    Script.Triple (Intact platform) (mutate env id body) (fun _ => Intact platform)
      (Intact platform) := by
  have hmutate : Script.Triple (Intact platform) (mutate env id body) (fun _ => CutOff platform)
      (CutOff platform) := by
    refine mutate_triple (B := fun program' w => ∃ program ∈ w.programs,
        Worked platform w.programs program program' w)
      (W := fun w => Commits platform w.transaction.commits w) ?_ ?_ ?_ ?_ ?_
    · exact fun w hw => ⟨⟨hw.placed, hw.journal, hw.covered⟩, fun _ h => (nomatch h)⟩
    · intro w program hw hmem _
      refine (hbody w.programs program hmem).weaken ?_ ?_ fun _ h => h
      · intro s hs
        rw [hs]
        exact ⟨rfl, ⟨hw.placed, hw.journal, hw.covered⟩, samePlaces_refl _, hw.covered program hmem,
          fun _ h => (nomatch h), rfl⟩
      · intro program' s hs
        have hsame := hs.view.programs
        refine ⟨⟨program, ?_, ?_⟩, hsame⟩
        · rw [hsame]
          exact hmem
        · rw [hsame]
          exact hs
    · intro program' programs _
      refine check_bind ?_
      intro _ _
      refine durably_triple ?_ ?_
      · intro w n hw
        obtain ⟨⟨program, -, hworked⟩, -⟩ := hw
        exact hworked.view.cutOff.tick n
      · intro w n hw
        obtain ⟨⟨program, hmem, hworked⟩, rfl⟩ := hw
        exact ⟨(hworked.written hmem .written n).1, hworked.written hmem .written n⟩
    · refine Script.Triple.reads ?_
      intro w hw
      have hloop := Script.Triple.forM (f := fun intentId : String => (do
          let _ ← Script.attempt (complete env intentId) : Op Unit))
        (I := fun ids => Commits platform ids) (C := CutOff platform) commit_cutOff
        w.transaction.commits.reverse
      refine hloop.weaken ?_ (fun _ _ h => h.1) fun _ h => h
      intro s hs
      rw [hs]
      exact ⟨hw.1, fun id hid => hw.2 id (List.mem_reverse.1 hid)⟩
    · intro w hw
      have hloop := Script.Triple.forM (I := fun callbacks => RollsBack platform callbacks)
        (C := CutOff platform) (rollback_cutOff henv) w.transaction.rollbacks
      refine hloop.weaken ?_ (fun _ _ h => h.1) fun _ h => h
      intro s hs
      rw [hs]
      exact ⟨hw, hw.owned⟩
  exact hmutate.weaken (fun _ h => h) (fun _ _ h => h.intact) fun _ h => h.intact

-- ===== recovery

/-- A recovery that has the intents `all` to see to. -/
structure Recovering (platform : Platform) (programs : List OrganizationProgram)
    (all : List DurableCompensationIntent) (w : World) : Prop where
  stored : w.programs = programs
  intact : Intact platform w
  known : ∀ intent ∈ w.intents, intent ∈ all
  settles : ∀ intent ∈ all, intent.operation = .pauseTeamMission →
    ∀ program ∈ programs, program.id = intent.ownerId → ∀ target ∈ program.targets,
      compensationWasCommitted platform intent program target = true →
      running w.missions intent.targetId → Recorded platform program.id target

variable {all : List DurableCompensationIntent} {intent : DurableCompensationIntent}

theorem Recovering.quiet (h : Recovering platform programs all w)
    (hprograms : w'.programs = w.programs) (hintents : w'.intents = w.intents)
    (hquiet : Quiet w.missions w'.missions) : Recovering platform programs all w' := by
  refine ⟨hprograms.trans h.stored, h.intact.quiet hprograms hintents hquiet, ?_, ?_⟩
  · rw [hintents]
    exact h.known
  · intro intent hintent hop program hmem hid target ht hcommitted hrunning
    exact h.settles intent hintent hop program hmem hid target ht hcommitted (hquiet _ hrunning)

theorem Recovering.complete (h : Recovering platform programs all w)
    (hnodup : (all.map (·.id)).Nodup) (hintent : intent ∈ all)
    (hdone : Done platform w intent) (n : Nat) : Recovering platform programs all { w with
      intents := w.intents.filter fun item => item.id != intent.id, tick := n } := by
  refine ⟨h.stored, h.intact.complete ?_ n, ?_, h.settles⟩
  · intro other hother hid
    rw [List.inj_on_of_nodup_map hnodup (h.known other hother) hintent hid]
    exact hdone
  · exact fun other hother => h.known other (List.mem_filter.1 hother).1

theorem complete_recovering (hnodup : (all.map (·.id)).Nodup) (hintent : intent ∈ all) :
    Script.Triple (fun w => Recovering platform programs all w ∧ Done platform w intent)
      (complete env intent.id) (fun _ => Recovering platform programs all)
      (Recovering platform programs all) := by
  refine durably_triple ?_ ?_
  · exact fun w n hw => hw.1.quiet rfl rfl fun _ h => h
  · intro w n hw
    have hafter := hw.1.complete hnodup hintent hw.2 n
    exact ⟨hafter, hafter⟩

theorem call_recovering {call : TeamCall} {programId : Uuid} {targetKey : String}
    (henv : Genuine Quiet env) (hcall : call.sets = false) :
    Script.Triple (Recovering platform programs all) (teamCall env programId targetKey call)
      (fun mission w => Recovering platform programs all w
        ∧ w.missions call.missionId = some mission) (Recovering platform programs all) := by
  have hafter : ∀ w, Recovering platform programs all w →
      Recovering platform programs all (called env programId targetKey call w) :=
    fun w hw => hw.quiet rfl rfl (called_quiet henv hcall w)
  exact teamCall_triple hafter fun w mission hw hok => ⟨hafter w hw, called_answer henv hok⟩

theorem settle_recovering (henv : Genuine Quiet env) {mission : Team.TeamMission} :
    Script.Triple (fun w => Recovering platform programs all w
        ∧ w.missions intent.targetId = some mission) (settle env intent mission)
      (fun settled w => Recovering platform programs all w
        ∧ (settled = true → ¬ running w.missions intent.targetId))
      (Recovering platform programs all) := by
  have hpure : ∀ b : Bool, (b = true → mission.state ≠ .running) →
      Script.Triple (fun w => Recovering platform programs all w
        ∧ w.missions intent.targetId = some mission) (pure b : Op Bool)
      (fun settled w => Recovering platform programs all w
        ∧ (settled = true → ¬ running w.missions intent.targetId))
      (Recovering platform programs all) := by
    intro b hb
    refine Script.Triple.pure ?_
    intro w hw
    exact ⟨hw.1, fun htrue => not_running hw.2 (hb htrue)⟩
  have hcall : ∀ (call : TeamCall) (state : Team.TeamMissionState), call.sets = false →
      call.missionId = intent.targetId → state ≠ .running →
      Script.Triple (fun w => Recovering platform programs all w
        ∧ w.missions intent.targetId = some mission) (do
          let answered ← teamCall env intent.ownerId intent.subjectKey call
          pure (answered.id == intent.targetId && answered.state == state) : Op Bool)
      (fun settled w => Recovering platform programs all w
        ∧ (settled = true → ¬ running w.missions intent.targetId))
      (Recovering platform programs all) := by
    intro call state hsets hid hstate
    refine Script.Triple.bind (((call_recovering henv hsets).weaken (fun _ hw => hw.1)
      (fun _ _ h => h) fun _ h => h)) ?_
    intro answered
    refine Script.Triple.pure ?_
    intro w hw
    refine ⟨hw.1, ?_⟩
    intro hconfirmed
    rw [Bool.and_eq_true, beq_iff_eq, beq_iff_eq] at hconfirmed
    rw [← hid]
    refine not_running hw.2 ?_
    rw [hconfirmed.2]
    exact hstate
  unfold settle
  cases intent.operation with
  | cancelTeamMission =>
    dsimp only
    split
    · next hcancelled =>
      refine hpure true fun _ => ?_
      rw [hcancelled]
      exact fun h => nomatch h
    · split
      · exact hpure false fun h => (nomatch h)
      · exact hcall (.cancel intent.targetId) .cancelled rfl rfl fun h => nomatch h
  | pauseTeamMission =>
    dsimp only
    split
    · exact hcall (.pause intent.targetId) .paused rfl rfl fun h => nomatch h
    · refine hpure _ ?_
      intro hpaused
      rw [beq_iff_eq.1 hpaused]
      exact fun h => nomatch h
  | reconcileUntrustedTeamIdentity => exact hpure false fun h => (nomatch h)

theorem compensate_recovering (henv : Genuine Quiet env) (hnodup : (all.map (·.id)).Nodup)
    (hintent : intent ∈ all) :
    Script.Triple (Recovering platform programs all) (compensate env intent)
      (fun _ => Recovering platform programs all) (Recovering platform programs all) := by
  have hpure : ∀ b : Bool, Script.Triple (Recovering platform programs all) (pure b : Op Bool)
      (fun _ => Recovering platform programs all) (Recovering platform programs all) :=
    fun b => Script.Triple.pure fun _ hw => hw
  unfold compensate
  have hasked : Script.Triple (Recovering platform programs all) (do
      let mission ← teamCall env intent.ownerId intent.subjectKey (.inspect intent.targetId)
      if mission.id ≠ intent.targetId then pure false
      else
        let settled ← settle env intent mission
        if settled then
          complete env intent.id
          pure true
        else pure false)
      (fun _ => Recovering platform programs all) (Recovering platform programs all) := by
    refine (call_recovering henv rfl).bind ?_
    intro mission
    split
    · exact (hpure false).weaken (fun _ hw => hw.1) (fun _ _ h => h) fun _ h => h
    · refine (settle_recovering henv).bind ?_
      intro settled
      split
      · next htrue =>
        refine Script.Triple.bind ((complete_recovering hnodup hintent).weaken ?_ (fun _ _ h => h)
          fun _ h => h) fun _ => hpure true
        exact fun w hw => ⟨hw.1, fun hrunning => absurd hrunning (hw.2 htrue)⟩
      · exact (hpure false).weaken (fun _ hw => hw.1) (fun _ _ h => h) fun _ h => h
  refine Script.Triple.bind (Q := fun _ => Recovering platform programs all)
    ((hasked.attempt fun _ hw => hw).weaken (fun _ hw => hw) ?_ fun _ hw => hw)
    fun _ => hpure _
  intro answer w hw
  cases answer with
  | ok _ => exact hw
  | error _ => exact hw

theorem Recovering.committed (h : Recovering platform programs all w) (hintent : intent ∈ all)
    (hmem : program ∈ programs) (howner : program.id = intent.ownerId)
    {target : OrganizationTarget} (ht : target ∈ program.targets)
    (hcommitted : compensationWasCommitted platform intent program target = true) :
    Done platform w intent := by
  have hparts := hcommitted
  simp only [compensationWasCommitted, Bool.and_eq_true, Bool.or_eq_true, beq_iff_eq] at hparts
  obtain ⟨⟨hsome, hderived⟩, hop⟩ := hparts
  intro hrunning
  refine ⟨program, ?_, target, ht, hderived.symm, ?_⟩
  · rw [h.stored]
    exact hmem
  · have hstored : program ∈ w.programs := by
      rw [h.stored]
      exact hmem
    have hown : running w.missions (missionOf platform program.id target) := by
      rw [missionOf, ← hderived]
      exact hrunning
    rcases hop with hcancel | hpause
    · rcases h.intact.covered program hstored target ht hown with hrecorded | ⟨hnone, -⟩ | ⟨-, howes⟩
      · exact hrecorded
      · rw [hsome] at hnone
        cases hnone
      · -- the intent to pause the same child answers for it
        obtain ⟨other, hother, hotherOwner, hotherOp, hotherId⟩ := howes
        refine h.settles other (h.known other hother) hotherOp program hmem hotherOwner.symm target
          ht ?_ ?_
        · simp only [compensationWasCommitted, Bool.and_eq_true, Bool.or_eq_true, beq_iff_eq]
          refine ⟨⟨?_, hotherId⟩, .inr hotherOp⟩
          rw [hotherId, hsome, hderived]
        · rw [hotherId]
          exact hown
    · exact h.settles intent hintent hpause program hmem howner target ht hcommitted hrunning

theorem recoverIntent_recovering (henv : Genuine Quiet env) (hnodup : (all.map (·.id)).Nodup)
    (hintent : intent ∈ all) :
    Script.Triple (Recovering platform programs all) (recoverIntent platform env programs intent)
      (fun _ => Recovering platform programs all) (Recovering platform programs all) := by
  have hpure : ∀ b : Bool, Script.Triple (Recovering platform programs all) (pure b : Op Bool)
      (fun _ => Recovering platform programs all) (Recovering platform programs all) :=
    fun b => Script.Triple.pure fun _ hw => hw
  unfold recoverIntent
  dsimp only
  split
  · next program target hprogram htarget =>
    have hmem := List.mem_of_find?_eq_some hprogram
    have hfound := List.find?_some hprogram
    rw [hprogram, Option.bind_some] at htarget
    have ht := List.mem_of_find?_eq_some htarget
    split
    · next hcommitted =>
      refine Script.Triple.bind ((complete_recovering hnodup hintent).weaken ?_ (fun _ _ h => h)
        fun _ h => h) fun _ => hpure true
      exact fun w hw => ⟨hw, hw.committed hintent hmem (beq_iff_eq.1 hfound) ht hcommitted⟩
    · split
      · exact hpure false
      · split
        · exact hpure false
        · split
          · exact hpure false
          · exact compensate_recovering henv hnodup hintent
  · exact hpure false

theorem recover_intact (henv : Genuine Quiet env) :
    Script.Triple (fun w => Intact platform w ∧ Settles platform w)
      (discard (recoverPendingCompensations platform env)) (fun _ => Intact platform)
      (Intact platform) := by
  have hrecover : Script.Triple (fun w => Intact platform w ∧ Settles platform w)
      (recoverPendingCompensations platform env) (fun _ => Intact platform) (Intact platform) := by
    refine Script.Triple.reads ?_
    intro w hw
    split
    · refine Script.Triple.pure ?_
      intro s hs
      rw [hs]
      exact hw.1
    · refine readPrograms_bind ?_
      intro _
      have hloop : Script.Triple (fun s => Recovering platform w.programs w.intents s)
          (w.intents.mapM (recoverIntent platform env w.programs))
          (fun _ => Recovering platform w.programs w.intents)
          (Recovering platform w.programs w.intents) := by
        have hrounds := Script.Triple.mapM (f := recoverIntent platform env w.programs)
          (I := fun _ rest s => Recovering platform w.programs w.intents s
            ∧ ∀ intent ∈ rest, intent ∈ w.intents)
          (C := Recovering platform w.programs w.intents) ?_ [] w.intents
        · exact hrounds.weaken (fun _ hs => ⟨hs, fun _ h => h⟩) (fun _ _ hs => hs.1) fun _ hs => hs
        · intro _ intent rest
          by_cases hknown : ∀ other ∈ intent :: rest, other ∈ w.intents
          · refine (recoverIntent_recovering henv hw.1.journal
              (hknown intent (List.mem_cons_self ..))).weaken (fun _ hs => hs.1) ?_ fun _ hs => hs
            exact fun _ _ hs => ⟨hs, fun other hother => hknown other (List.mem_cons_of_mem _ hother)⟩
          · intro s hs
            exact absurd hs.2 hknown
      refine Script.Triple.weaken (P := Recovering platform w.programs w.intents)
        (C := Recovering platform w.programs w.intents) ?_ ?_ (fun _ _ h => h) fun _ hs => hs.intact
      · refine hloop.bind ?_
        intro recovered
        refine Script.Triple.reads ?_
        intro s hs
        refine Script.Triple.pure ?_
        intro t ht
        rw [ht]
        exact hs.intact
      · intro s hs
        rw [hs]
        exact ⟨rfl, hw.1, fun _ h => h, hw.2⟩
  exact hrecover.bind fun _ => Script.Triple.pure fun _ hw => hw

-- ===== create

theorem Intact.create {input : CreateInput} {randomUUID : Uuid} {now : Instant}
    {kept : List OrganizationProgram} (h : Intact platform w)
    (hnew : newProgram input randomUUID now = .ok program) (hfresh : Fresh platform w program)
    (hid : program.id ∉ w.programs.map (·.id)) (hkept : kept.Sublist w.programs) (event : Event)
    (n : Nat) : Intact platform { w with
      programs := kept ++ [program], log := event :: w.log, tick := n } := by
  obtain ⟨hwaves, -, hnone⟩ := newProgram_partitioned hnew
  have hcases : ∀ p ∈ kept ++ [program], p ∈ w.programs ∨ p = program := by
    intro p hp
    rcases List.mem_append.1 hp with hold | hlast
    · exact .inl (hkept.subset hold)
    · exact .inr (List.mem_singleton.1 hlast)
  refine ⟨⟨create_ids h.placed.ids hid hkept, ?_, ?_, ?_⟩, h.journal, ?_⟩
  · intro p hp
    rcases hcases p hp with hold | rfl
    · exact h.placed.keys p hold
    · exact hwaves.distinct
  · intro p hp t ht q hq u hu hsame
    rcases hcases p hp with hold | rfl
    · rcases hcases q hq with hold' | rfl
      · exact h.placed.apart p hold t ht q hold' u hu hsame
      · exact absurd hsame ((hfresh u hu).2.2 p hold t ht)
    · rcases hcases q hq with hold' | rfl
      · exact absurd hsame.symm ((hfresh t ht).2.2 q hold' u hu)
      · exact ⟨rfl, ((hfresh t ht).2.1 u hu hsame.symm).symm⟩
  · intro p hp t ht
    rcases hcases p hp with hold | rfl
    · exact h.placed.named p hold t ht
    · exact .inl (hnone t ht)
  · intro p hp t ht hrunning
    rcases hcases p hp with hold | rfl
    · exact h.covered p hold t ht hrunning
    · exact absurd hrunning (hfresh t ht).1

theorem create_intact {input : CreateInput} : Script.Triple (fun w => Intact platform w ∧ ∀ program,
        newProgram input env.randomUUID env.now = .ok program → Fresh platform w program)
      (create platform env input) (fun _ => Intact platform) (Intact platform) := by
  refine check_bind ?_
  intro program hnew
  refine Script.Triple.fix ?_
  intro w hw
  refine readPrograms_bind ?_
  intro _
  refine check_bind ?_
  intro _ hid
  refine check_bind ?_
  intro kept hkept
  refine check_bind ?_
  intro _ _
  rw [rejectIf_eq_ok] at hid
  refine durably_triple ?_ ?_
  · intro s n hs
    rw [hs]
    exact ⟨hw.1.placed, hw.1.journal, hw.1.covered⟩
  · intro s n hs
    rw [hs]
    have hafter := hw.1.create hnew (hw.2 program hnew) hid (reclaim_sublist hkept)
      (.created program) n
    exact ⟨hafter, hafter⟩

-- ===== runs

theorem step_intact {act : Act} (h : Intact platform w) (hstep : step platform w act = some w')
    (hact : Recovers platform w act) : Intact platform w' := by
  cases act with
  | run turn env writes =>
    obtain rfl := Option.some.inj hstep
    have hstart : Intact platform { w with tick := 0 } := ⟨h.placed, h.journal, h.covered⟩
    obtain ⟨hordinary, hsettles⟩ := hact
    cases turn with
    | create input =>
      have hfresh : ∀ program, newProgram input env.randomUUID env.now = .ok program →
          Fresh platform { w with tick := 0 } program := hordinary.2
      exact create_intact.upTo ⟨hstart, hfresh⟩ hstart writes
    | recover =>
      have hcommitted : Settles platform { w with tick := 0 } := hsettles env writes rfl
      exact (recover_intact hordinary).upTo ⟨hstart, hcommitted⟩ hstart writes
    | start programId =>
      exact (mutate_intact hordinary fun _ _ hmem => startBody_view hordinary hmem).upTo hstart
        hstart writes
    | refresh programId =>
      exact (mutate_intact hordinary fun _ _ hmem => refreshBody_view hordinary hmem).upTo hstart
        hstart writes
    | promote programId verificationDigest =>
      have hpromote : Script.Triple (Intact platform)
          ((Turn.promote programId verificationDigest).op platform env)
          (fun _ => Intact platform) (Intact platform) := by
        refine check_bind ?_
        intro supplied _
        exact mutate_intact hordinary fun _ _ hmem => promoteBody_view hordinary hmem
      exact hpromote.upTo hstart hstart writes
    | pause programId =>
      exact (mutate_intact hordinary fun _ _ hmem => pauseBody_view hordinary hmem).upTo hstart
        hstart writes
    | cancel programId =>
      exact (mutate_intact hordinary fun _ _ hmem => cancelBody_view hordinary hmem).upTo hstart
        hstart writes
  | assert programId =>
    rw [step] at hstep
    split at hstep
    · rw [← Option.some.inj hstep]
      exact h
    · cases hstep
  | children missions =>
    obtain rfl := Option.some.inj hstep
    exact h.quiet rfl rfl hact.1

/-- Once no intent of a program is pending, each of its children that is
running belongs to a target recorded with it and not PENDING, BLOCKED or
CANCELLED, wherever the sections before were cut off. -/
theorem running_children_recorded (platform : Platform) (acts : List Act) (w : World)
    (hrun : Run (Where (stepsOf (step platform)) (Recovers platform)) World.start acts w)
    (program : OrganizationProgram) (hmem : program ∈ w.programs)
    (hpending : ∀ intent ∈ w.intents, intent.ownerId ≠ program.id) (target : OrganizationTarget)
    (ht : target ∈ program.targets)
    (hrunning : running w.missions (stableOrganizationMissionId platform program.id target.key)) :
    Recorded platform program.id target := by
  have hstart : Intact platform World.start := by
    refine ⟨⟨List.nodup_nil, ?_, ?_, ?_⟩, List.nodup_nil, ?_⟩
    · exact fun _ h => (nomatch h)
    · exact fun _ h => (nomatch h)
    · exact fun _ h => (nomatch h)
    · exact fun _ h => (nomatch h)
  have hintact : Intact platform w :=
    hrun.invariant (I := Intact platform) hstart fun h hstep => step_intact h hstep.1 hstep.2
  rcases hintact.covered program hmem target ht hrunning with hrecorded | ⟨-, howes⟩ | ⟨-, howes⟩
  · exact hrecorded
  · obtain ⟨intent, hintent, howner, -⟩ := howes
    exact absurd howner (hpending intent hintent)
  · obtain ⟨intent, hintent, howner, -⟩ := howes
    exact absurd howner (hpending intent hintent)

-- ===== a sample

theorem quiet_refl (missions : Missions) : Quiet missions missions := fun _ h => h

theorem fresh_sample : Ordinary aPlatform World.start (whole (.create oneTarget)) := by
  refine ⟨anEnv_genuine quiet_refl, ?_⟩
  intro program hnew
  have hkeys : (newProgram oneTarget anEnv.randomUUID anEnv.now).toOption.map
      (fun program => program.targets.map (·.key)) = some ["a"] := by
    decide +kernel
  rw [hnew] at hkeys
  have hall : ∀ target ∈ program.targets, target.key = "a" := by
    intro target ht
    have hkey : target.key ∈ program.targets.map (·.key) := List.mem_map_of_mem ht
    have hlist : program.targets.map (·.key) = ["a"] := Option.some.inj hkeys
    rw [hlist] at hkey
    exact List.mem_singleton.1 hkey
  intro target ht
  refine ⟨fun h => (nomatch h), ?_, fun _ h => (nomatch h)⟩
  intro other hother _
  rw [hall other hother, hall target ht]

theorem run_sample {Cond : World → Act → Prop} {acts : List Act}
    (hfirst : Cond World.start (whole (.create oneTarget))) (hrest : ∀ w, ∀ act ∈ acts, Cond w act)
    (hw : exec (step aPlatform) World.start (whole (.create oneTarget) :: acts) = some w) :
    Run (Where (stepsOf (step aPlatform)) Cond) World.start (whole (.create oneTarget) :: acts)
      w := by
  simp only [exec, Option.bind_eq_some_iff] at hw
  obtain ⟨made, hmade, hw⟩ := hw
  have hone : Run (Where (stepsOf (step aPlatform)) Cond) World.start
      ([] ++ [whole (.create oneTarget)]) made := Run.snoc Run.nil ⟨hmade, hfirst⟩
  exact hone.trans (run_where_of_exec hw hrest)

/-- Each program with the states of its targets and of their children. -/
def childrenOf (w : World) : List (Uuid × List (OrganizationTargetState × Option Team.TeamMissionState)) :=
  w.programs.map fun program => (program.id, program.targets.map fun target =>
    (target.state, (w.missions (missionOf aPlatform program.id target)).map (·.state)))

/-- A program is started and paused, a second start dies after it resumed
the child, and a recovery follows. -/
def resumed : List Act :=
  [whole (.start aProgram), whole (.pause aProgram), .run (.start aProgram) anEnv 5,
    whole .recover, .assert aProgram]

/-- The resumed child is running, its target is BLOCKED, and no intent is
pending. -/
theorem resumed_child_blocked : ¬ ∀ acts w,
    Run (Where (stepsOf (step aPlatform)) (Ordinary aPlatform)) World.start acts w →
    ∀ program ∈ w.programs, (∀ intent ∈ w.intents, intent.ownerId ≠ program.id) →
    ∀ target ∈ program.targets,
      running w.missions (stableOrganizationMissionId aPlatform program.id target.key) →
      Recorded aPlatform program.id target := by
  intro h
  have hend : (exec (step aPlatform) World.start (whole (.create oneTarget) :: resumed)).any
      (fun w => decide (childrenOf w = [(aProgram, [(.blocked, some .running)])])
        && w.intents.isEmpty) := by
    decide +kernel
  obtain ⟨w, hw, hboth⟩ := Option.any_eq_true _ _ |>.1 hend
  obtain ⟨hchildren, hintents⟩ := Bool.and_eq_true_iff.1 hboth
  replace hchildren := of_decide_eq_true hchildren
  have hrun : Run (Where (stepsOf (step aPlatform)) (Ordinary aPlatform)) World.start
      (whole (.create oneTarget) :: resumed) w := by
    refine run_sample fresh_sample ?_ hw
    intro _ act hact
    have hall : Genuine Quiet anEnv := anEnv_genuine quiet_refl
    simp only [resumed, List.mem_cons, List.not_mem_nil, or_false] at hact
    rcases hact with rfl | rfl | rfl | rfl | rfl <;> first | exact hall | trivial
  obtain ⟨program, hmem, hprogram⟩ := List.mem_map.1 (hchildren ▸ List.mem_singleton_self _)
  obtain ⟨-, htargets⟩ := Prod.mk.inj hprogram
  obtain ⟨target, ht, hstates⟩ := List.mem_map.1 (htargets ▸ List.mem_singleton_self _)
  obtain ⟨hstate, hrunning⟩ := Prod.mk.inj hstates
  have hrecorded := h _ w hrun program hmem (by
    rw [List.isEmpty_iff.1 hintents]
    exact fun _ h => (by cases h)) target ht hrunning
  rcases hrecorded.state with hs | hs | hs <;> rw [hstate] at hs <;> cases hs

/-- The start dies once its child runs and is recorded; a recovery keeps both. -/
theorem running_children_recorded_sample : ∃ w program target,
    Run (Where (stepsOf (step aPlatform)) (Recovers aPlatform)) World.start
      [whole (.create oneTarget), .run (.start aProgram) anEnv 7, whole .recover] w
      ∧ program ∈ w.programs ∧ target ∈ program.targets
      ∧ running w.missions (stableOrganizationMissionId aPlatform program.id target.key)
      ∧ Recorded aPlatform program.id target := by
  have hearly : (exec (step aPlatform) World.start
      [whole (.create oneTarget), .run (.start aProgram) anEnv 7]).any
      (fun w => w.intents.all fun intent => intent.operation ≠ .pauseTeamMission) := by
    decide +kernel
  have hend : (exec (step aPlatform) World.start
      [whole (.create oneTarget), .run (.start aProgram) anEnv 7, whole .recover]).any
      (fun w => decide (childrenOf w = [(aProgram, [(.running, some .running)])])
        && w.intents.isEmpty) := by
    decide +kernel
  obtain ⟨w, hw, hboth⟩ := Option.any_eq_true _ _ |>.1 hend
  obtain ⟨hchildren, hintents⟩ := Bool.and_eq_true_iff.1 hboth
  replace hchildren := of_decide_eq_true hchildren
  simp only [exec, Option.bind_eq_some_iff, Option.some.injEq] at hw
  obtain ⟨made, hmade, died, hdied, w, hrecovered, rfl⟩ := hw
  simp only [exec, hmade, hdied, Option.bind_some, Option.any_some, List.all_eq_true,
    decide_eq_true_eq] at hearly
  have hrun : Run (Where (stepsOf (step aPlatform)) (Recovers aPlatform)) World.start
      [whole (.create oneTarget), .run (.start aProgram) anEnv 7, whole .recover] w :=
    ((Run.nil.snoc ⟨hmade, fresh_sample, fun _ _ h => by cases h⟩).snoc
      ⟨hdied, anEnv_genuine quiet_refl, fun _ _ h => by cases h⟩).snoc
      ⟨hrecovered, anEnv_genuine quiet_refl,
        fun _ _ _ intent hintent hop => absurd hop (hearly intent hintent)⟩
  obtain ⟨program, hmem, hprogram⟩ := List.mem_map.1 (hchildren ▸ List.mem_singleton_self _)
  obtain ⟨-, htargets⟩ := Prod.mk.inj hprogram
  obtain ⟨target, ht, hstates⟩ := List.mem_map.1 (htargets ▸ List.mem_singleton_self _)
  have hrunning : running w.missions (stableOrganizationMissionId aPlatform program.id target.key) :=
    (Prod.mk.inj hstates).2
  have hpending : ∀ intent ∈ w.intents, intent.ownerId ≠ program.id := by
    rw [List.isEmpty_iff.1 hintents]
    exact fun _ h => by cases h
  exact ⟨w, program, target, hrun, hmem, ht, hrunning,
    running_children_recorded aPlatform _ w hrun program hmem hpending target ht hrunning⟩

end OperatorRuntime.Organization
