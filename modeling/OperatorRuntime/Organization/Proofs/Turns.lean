/-
The frame over whole sections: `#mutate` from what its body keeps to what
the programs and the log say after the write, and the recovery, which asks
about children and stops them but writes no program.
-/
import OperatorRuntime.Organization.Proofs.Bodies

namespace OperatorRuntime.Organization

open Lib

variable {platform : Platform} {env : Env} {k c : Frame} {programId : Uuid}

theorem rollback_on {callback : Rollback}
    (h : AllowsStop env k callback.programId callback.targetKey) :
    Script.Triple (On k) (rollback env callback) (fun _ => On k) (On k) := by
  unfold rollback
  refine Script.Triple.bind (Q := fun _ => On k) (attempt_on ?_) ?_
  · refine (teamCall_on ?_).bind ?_
    · cases callback.operation with
      | pause => exact (h _).1
      | cancel => exact (h _).2
    · intro mission
      have hdone : ∀ p : Prop, ∀ _ : Decidable p, Script.Triple (On k)
          (if p then complete env callback.intentId else pure ()) (fun _ => On k) (On k) := by
        intro p _
        split
        · exact complete_on
        · exact Script.Triple.pure fun _ hw => hw
      exact hdone _ _
  · exact fun _ => Script.Triple.pure fun _ hw => hw

theorem commits_on : Script.Triple (On k) (do
    let w ← Script.read
    w.transaction.commits.reverse.forM fun intentId => do
      let _ ← Script.attempt (complete env intentId)) (fun _ => On k) (On k) := by
  refine Script.Triple.reads ?_
  intro w hw
  have hloop : Script.Triple (On k) (w.transaction.commits.reverse.forM fun intentId => do
      let _ ← Script.attempt (complete env intentId)) (fun _ => On k) (On k) := by
    refine Script.Triple.forM (I := fun _ => On k) ?_ _
    intro intentId _
    exact (attempt_on complete_on).bind fun _ => Script.Triple.pure fun _ hw => hw
  refine hloop.weaken ?_ (fun _ _ h => h) fun _ h => h
  intro s hs
  rw [hs]
  exact hw

/-- The frame, with the programs as they are. -/
def Pinned (programs : List OrganizationProgram) (k : Frame) : Frame :=
  fun missions programs' log => programs' = programs ∧ k missions programs' log

theorem AllowsCall.pinned {programs : List OrganizationProgram} {targetKey : String}
    {call : TeamCall} (h : AllowsCall env k programId targetKey call) :
    AllowsCall env (Pinned programs k) programId targetKey call :=
  fun w hk => ⟨hk.1, h w hk.2⟩

theorem mutate_on (k' : Frame) (R : OrganizationProgram → OrganizationProgram → Prop)
    {body : OrganizationProgram → Op OrganizationProgram}
    (hkc : ∀ missions programs log, k missions programs log → c missions programs log)
    (hkc' : ∀ missions programs log, k' missions programs log → c missions programs log)
    (hbody : ∀ programs program, program ∈ programs → program.id = programId →
      Script.Triple (On (Pinned programs k)) (body program)
        (fun program' w => On (Pinned programs k') w ∧ R program program') (On (Pinned programs k)))
    (hwrite : ∀ missions programs log program program', program ∈ programs →
      program.id = programId → R program program' → k' missions programs log →
        c missions (putProgram programs program') (.written :: log))
    (hstop : ∀ programId targetKey, AllowsStop env c programId targetKey) :
    Script.Triple (On k) (mutate env programId body) (fun _ => On c) (On c) := by
  refine mutate_triple (B := fun program' w => On k' w
      ∧ ∃ program ∈ w.programs, program.id = programId ∧ R program program') (W := On c)
    ?_ ?_ ?_ commits_on ?_
  · intro w hw
    exact hkc _ _ _ hw
  · intro w program hw hmem hid
    refine (hbody w.programs program hmem hid).weaken ?_ ?_ ?_
    · intro s hs
      rw [hs]
      exact ⟨rfl, hw⟩
    · intro program' s hs
      obtain ⟨⟨hsame, hk⟩, hR⟩ := hs
      exact ⟨⟨hk, program, hsame.symm ▸ hmem, hid, hR⟩, hsame⟩
    · intro s hs
      exact hkc _ _ _ hs.2
  · intro program' programs _
    refine check_bind ?_
    intro _ _
    refine durably_triple ?_ ?_
    · intro w n hw
      exact hkc' _ _ _ hw.1.1
    · intro w n hw
      obtain ⟨⟨hk, program, hmem, hid, hR⟩, rfl⟩ := hw
      have hwritten := hwrite w.missions w.programs w.log program program' hmem hid hR hk
      exact ⟨hwritten, hwritten⟩
  · intro w hw
    have hloop : Script.Triple (On c) (w.transaction.rollbacks.forM (rollback env))
        (fun _ => On c) (On c) :=
      Script.Triple.forM (I := fun _ => On c) (fun _ _ => rollback_on (hstop _ _)) _
    refine hloop.weaken ?_ (fun _ _ h => h) fun _ h => h
    intro s hs
    rw [hs]
    exact hw

theorem settle_on {intent : DurableCompensationIntent}
    (h : AllowsStop env k intent.ownerId intent.subjectKey) {mission : Team.TeamMission} :
    Script.Triple (On k) (settle env intent mission) (fun _ => On k) (On k) := by
  unfold settle
  cases intent.operation with
  | cancelTeamMission =>
    dsimp only
    split
    · exact Script.Triple.pure fun _ hw => hw
    · split
      · exact Script.Triple.pure fun _ hw => hw
      · exact (teamCall_on (h _).2).bind fun _ => Script.Triple.pure fun _ hw => hw
  | pauseTeamMission =>
    dsimp only
    split
    · exact (teamCall_on (h _).1).bind fun _ => Script.Triple.pure fun _ hw => hw
    · exact Script.Triple.pure fun _ hw => hw
  | reconcileUntrustedTeamIdentity => exact Script.Triple.pure fun _ hw => hw

theorem recoverIntent_on {programs : List OrganizationProgram} {intent : DurableCompensationIntent}
    (hinspect : ∀ missionId, AllowsCall env k intent.ownerId intent.subjectKey (.inspect missionId))
    (hstop : AllowsStop env k intent.ownerId intent.subjectKey) :
    Script.Triple (On k) (recoverIntent platform env programs intent) (fun _ => On k) (On k) := by
  have hkept : ∀ b : Bool, Script.Triple (On k) (pure b : Op Bool) (fun _ => On k) (On k) :=
    fun b => Script.Triple.pure fun _ hw => hw
  have hcompensate : Script.Triple (On k) (compensate env intent) (fun _ => On k) (On k) := by
    unfold compensate
    refine Script.Triple.bind (Q := fun _ => On k) (attempt_on ?_) fun _ => hkept _
    refine (teamCall_on (hinspect _)).bind ?_
    intro mission
    split
    · exact hkept _
    · refine (settle_on hstop).bind ?_
      intro settled
      split
      · exact complete_on.bind fun _ => hkept _
      · exact hkept _
  unfold recoverIntent
  dsimp only
  split
  · split
    · exact complete_on.bind fun _ => hkept _
    · split
      · exact hkept _
      · split
        · exact hkept _
        · split
          · exact hkept _
          · exact hcompensate
  · exact hkept _

theorem recover_on (hinspect : ∀ programId targetKey missionId,
      AllowsCall env k programId targetKey (.inspect missionId))
    (hstop : ∀ programId targetKey, AllowsStop env k programId targetKey) :
    Script.Triple (On k) (discard (recoverPendingCompensations platform env)) (fun _ => On k)
      (On k) := by
  have hrecover : Script.Triple (On k) (recoverPendingCompensations platform env)
      (fun _ => On k) (On k) := by
    refine Script.Triple.reads ?_
    intro w hw
    refine Script.Triple.weaken (P := On k) ?_ (fun s hs => by rw [hs]; exact hw)
      (fun _ _ h => h) fun _ h => h
    split
    · exact Script.Triple.pure fun _ hw => hw
    · refine Script.Triple.fix ?_
      intro w' hw'
      refine readPrograms_bind ?_
      intro _
      have hloop : Script.Triple (On k)
          (w.intents.mapM (recoverIntent platform env w'.programs)) (fun _ => On k) (On k) := by
        refine Script.Triple.mapM (I := fun _ _ => On k) ?_ [] w.intents
        exact fun _ _ _ => recoverIntent_on (hinspect _ _) (hstop _ _)
      refine Script.Triple.weaken (P := On k) ?_ (fun s hs => by rw [hs]; exact hw')
        (fun _ _ h => h) fun _ h => h
      refine hloop.bind ?_
      intro recovered
      refine Script.Triple.reads ?_
      intro s hs
      refine Script.Triple.pure ?_
      intro t ht
      rw [ht]
      exact hs
  exact hrecover.bind fun _ => Script.Triple.pure fun _ hw => hw

theorem reclaim_sublist {programs kept : List OrganizationProgram}
    (h : reclaim platform programs = .ok kept) : kept.Sublist programs := by
  unfold reclaim at h
  split at h
  · split at h
    · exact absurd h fail_ne_ok
    · rw [← Except.ok.inj h]
      exact List.eraseIdx_sublist ..
  · rw [← Except.ok.inj h]

theorem create_ids {programs kept : List OrganizationProgram} {program : OrganizationProgram}
    (hids : (programs.map (·.id)).Nodup) (hid : program.id ∉ programs.map (·.id))
    (hkept : kept.Sublist programs) : ((kept ++ [program]).map (·.id)).Nodup := by
  rw [List.map_append, List.nodup_append']
  refine ⟨hids.sublist (hkept.map _), List.nodup_singleton _, ?_⟩
  intro id hold hnew
  rw [List.mem_singleton.1 hnew] at hold
  exact hid ((hkept.map _).subset hold)

theorem create_on {input : CreateInput}
    (hkc : ∀ missions programs log, k missions programs log → c missions programs log)
    (hcreate : ∀ missions programs log program kept,
      newProgram input env.randomUUID env.now = .ok program → k missions programs log →
      program.id ∉ programs.map (·.id) → kept.Sublist programs →
        c missions (kept ++ [program]) (.created program :: log)) :
    Script.Triple (On k) (create platform env input) (fun _ => On c) (On c) := by
  refine check_bind ?_
  intro program hprogram
  refine Script.Triple.fix ?_
  intro w hw
  refine readPrograms_bind ?_
  intro _
  refine check_bind ?_
  intro _ hfresh
  refine check_bind ?_
  intro kept hreclaim
  refine check_bind ?_
  intro _ _
  rw [rejectIf_eq_ok] at hfresh
  have hmade := hcreate w.missions w.programs w.log program kept hprogram hw hfresh (reclaim_sublist hreclaim)
  refine durably_triple ?_ ?_
  · intro s n hs
    rw [hs]
    exact hkc _ _ _ hw
  · intro s n hs
    rw [hs]
    exact ⟨hmade, hmade⟩

theorem turn_on (hcall : ∀ programId targetKey call, AllowsCall env k programId targetKey call)
    (hpromoted : ∀ missions programs log programId wave proofs supplied,
      k missions programs log → k missions programs (.promoted programId wave proofs supplied :: log))
    (hwrite : ∀ missions programs log program program' refreshes promotes, program ∈ programs →
      SamePlan platform program program' → Moved refreshes promotes program program' →
      k missions programs log → k missions (putProgram programs program') (.written :: log))
    (hcreate : ∀ missions programs log input randomUUID now program kept,
      newProgram input randomUUID now = .ok program → k missions programs log →
      program.id ∉ programs.map (·.id) → kept.Sublist programs →
        k missions (kept ++ [program]) (.created program :: log)) (turn : Turn) :
    Script.Triple (On k) (turn.op platform env) (fun _ => On k) (On k) := by
  have hpinned : ∀ programs programId targetKey call,
      AllowsCall env (Pinned programs k) programId targetKey call :=
    fun _ _ _ _ => (hcall _ _ _).pinned
  have hmutate : ∀ {programId : Uuid} {refreshes promotes : Prop}
      {body : OrganizationProgram → Op OrganizationProgram},
      (∀ programs program, Script.Triple (On (Pinned programs k)) (body program)
        (Returns platform (Pinned programs k) refreshes promotes program)
        (On (Pinned programs k))) →
      Script.Triple (On k) (mutate env programId body) (fun _ => On k) (On k) := by
    intro programId refreshes promotes body hbody
    refine mutate_on k (fun program program' =>
      SamePlan platform program program' ∧ Moved refreshes promotes program program')
      (fun _ _ _ h => h) (fun _ _ _ h => h) (fun programs program _ _ => hbody programs program) ?_
      fun _ _ _ => ⟨hcall _ _ _, hcall _ _ _⟩
    intro missions programs log program program' hmem _ hR h
    exact hwrite _ _ _ _ _ _ _ hmem hR.1 hR.2 h
  cases turn with
  | create input =>
    refine create_on (fun _ _ _ h => h) ?_
    exact fun _ _ _ _ _ hnew h hid hkept => hcreate _ _ _ _ _ _ _ _ hnew h hid hkept
  | recover =>
    exact recover_on (fun _ _ _ => hcall _ _ _) fun _ _ _ => ⟨hcall _ _ _, hcall _ _ _⟩
  | start programId =>
    refine hmutate fun programs program => startBody_on ?_ ?_
    · exact fun _ _ _ => ⟨hpinned _ _ _ _, fun _ => hpinned _ _ _ _⟩
    · exact fun _ _ _ _ => ⟨fun _ _ _ => hpinned _ _ _ _, fun _ => hpinned _ _ _ _⟩
  | refresh programId =>
    exact hmutate fun programs program => refreshBody_on fun _ _ => hpinned _ _ _ _
  | promote programId verificationDigest =>
    refine check_bind ?_
    intro supplied _
    refine hmutate fun programs program => promoteBody_on _ (fun _ _ _ h => h)
      (fun _ _ => hpinned _ _ _ _) ?_
      (fun _ _ _ _ _ => ⟨fun _ _ _ => hpinned _ _ _ _, fun _ => hpinned _ _ _ _⟩)
    exact fun _ _ _ _ _ _ _ _ h => ⟨h.1, hpromoted _ _ _ _ _ _ _ h.2⟩
  | pause programId =>
    exact hmutate fun programs program => pauseBody_on
      fun _ _ => ⟨hpinned _ _ _ _, hpinned _ _ _ _⟩
  | cancel programId =>
    exact hmutate fun programs program => cancelBody_on
      fun _ _ => ⟨hpinned _ _ _ _, hpinned _ _ _ _⟩

theorem step_on {w w' : World} {act : Act} (hstep : step platform w act = some w') (hk : On k w)
    (hkc : ∀ missions programs log, k missions programs log → c missions programs log)
    (hturn : ∀ turn env writes, act = .run turn env writes →
      Script.Triple (On k) (turn.op platform env) (fun _ => On c) (On c))
    (hchildren : ∀ missions, act = .children missions → c missions w.programs w.log) :
    On c w' := by
  cases act with
  | run turn env writes =>
    obtain rfl := Option.some.inj hstep
    have hstart : On k { w with tick := 0 } := hk
    exact (hturn turn env writes rfl).upTo hstart (hkc _ _ _ hk) writes
  | assert programId =>
    rw [step] at hstep
    split at hstep
    · rw [← Option.some.inj hstep]
      exact hkc _ _ _ hk
    · cases hstep
  | children missions =>
    obtain rfl := Option.some.inj hstep
    exact hchildren missions rfl

-- ===== one program

variable {programs : List OrganizationProgram} {program program' p : OrganizationProgram}

theorem putProgram_ids : (putProgram programs program').map (·.id) = programs.map (·.id) := by
  refine map_updateFirst ?_ programs
  intro a ha
  exact (beq_iff_eq.1 ha).symm

theorem mem_putProgram (hnodup : (programs.map (·.id)).Nodup)
    (h : p ∈ putProgram programs program') : p ∈ programs ∧ p.id ≠ program'.id ∨ p = program' := by
  rcases mem_updateFirst_key hnodup h with hold | ⟨_, -, -, hnew⟩
  · exact .inl hold
  · exact .inr hnew

theorem mem_putProgram_of_ne (hp : p ∈ programs) (hne : p.id ≠ program'.id) :
    p ∈ putProgram programs program' :=
  mem_updateFirst_of_not hp (beq_eq_false_iff_ne.2 hne)

theorem mem_putProgram_self (hp : p ∈ programs) (hid : p.id = program'.id) :
    program' ∈ putProgram programs program' := by
  have hsome : (programs.find? fun item => item.id == program'.id).isSome = true :=
    List.find?_isSome.2 ⟨p, hp, beq_iff_eq.2 hid⟩
  obtain ⟨found, hfound⟩ := Option.isSome_iff_exists.1 hsome
  exact mem_updateFirst_of_find? hfound

theorem eq_of_id (hnodup : (programs.map (·.id)).Nodup) {q : OrganizationProgram}
    (hp : p ∈ programs) (hq : q ∈ programs) (hid : p.id = q.id) : p = q :=
  List.inj_on_of_nodup_map hnodup hp hq hid

end OperatorRuntime.Organization
