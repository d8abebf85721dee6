/-
What stands behind a running child at every moment: its target is recorded,
or the journal holds an intent that will stop it (`Covered`). An intent may
go once the child it is about is recorded or not running (`Intact.complete`).

While a section is at work its local targets run ahead of the stored ones
(`View`); each of its writes leaves an intact world behind (`Intact`), with
callbacks that are about the children their intents name (`Owned`).
-/
import OperatorRuntime.Organization.Proofs.Missions
import OperatorRuntime.Organization.Proofs.Turns

namespace OperatorRuntime.Organization

open Lib

section

variable {platform : Platform} {env : Env} {programs : List OrganizationProgram}
  {program p : OrganizationProgram} {target : OrganizationTarget} {w : World}
  {missions after : Missions} {intents : List DurableCompensationIntent} {programId id : Uuid}
  {operation : CompensationOperation}

-- ===== covering

abbrev missionOf (platform : Platform) (programId : Uuid) (target : OrganizationTarget) : Uuid :=
  stableOrganizationMissionId platform programId target.key

/-- The journal holds an intent of the program about the mission. -/
def Owes (intents : List DurableCompensationIntent) (programId : Uuid)
    (operation : CompensationOperation) (id : Uuid) : Prop :=
  ∃ intent ∈ intents, intent.ownerId = programId ∧ intent.operation = operation
    ∧ intent.targetId = id

/-- A child that runs is recorded, or an intent will stop it. -/
def Covered (platform : Platform) (missions : Missions) (intents : List DurableCompensationIntent)
    (programId : Uuid) (target : OrganizationTarget) : Prop :=
  running missions (missionOf platform programId target) → Recorded platform programId target
      ∨ target.missionId = none
        ∧ Owes intents programId .cancelTeamMission (missionOf platform programId target)
      ∨ target.missionId = some (missionOf platform programId target)
        ∧ Owes intents programId .pauseTeamMission (missionOf platform programId target)

theorem Owes.mono {intents' : List DurableCompensationIntent}
    (h : Owes intents programId operation id)
    (hkept : ∀ intent ∈ intents, ∃ intent' ∈ intents', intent'.ownerId = intent.ownerId
      ∧ intent'.operation = intent.operation ∧ intent'.targetId = intent.targetId) :
    Owes intents' programId operation id := by
  obtain ⟨intent, hmem, howner, hop, hid⟩ := h
  obtain ⟨intent', hmem', howner', hop', hid'⟩ := hkept intent hmem
  exact ⟨intent', hmem', howner'.trans howner, hop'.trans hop, hid'.trans hid⟩

theorem Covered.mono {intents' : List DurableCompensationIntent}
    (h : Covered platform missions intents programId target)
    (hrunning : running after (missionOf platform programId target) →
      running missions (missionOf platform programId target))
    (howes : ∀ operation id, Owes intents programId operation id →
      Owes intents' programId operation id) :
    Covered platform after intents' programId target := by
  intro hafter
  rcases h (hrunning hafter) with hrecorded | ⟨hnone, howed⟩ | ⟨hsome, howed⟩
  · exact .inl hrecorded
  · exact .inr (.inl ⟨hnone, howes _ _ howed⟩)
  · exact .inr (.inr ⟨hsome, howes _ _ howed⟩)

theorem Covered.quiet (h : Covered platform missions intents programId target)
    (hquiet : Quiet missions after) : Covered platform after intents programId target :=
  h.mono (hquiet _) fun _ _ h => h

-- ===== plans

/-- What holds of the stored programs as they were planned. -/
structure Placed (platform : Platform) (programs : List OrganizationProgram) : Prop where
  ids : (programs.map (·.id)).Nodup
  keys : ∀ p ∈ programs, (p.targets.map (·.key)).Nodup
  apart : ∀ p ∈ programs, ∀ t ∈ p.targets, ∀ q ∈ programs, ∀ u ∈ q.targets,
    missionOf platform p.id t = missionOf platform q.id u → p.id = q.id ∧ t.key = u.key
  named : ∀ p ∈ programs, ∀ t ∈ p.targets,
    t.missionId = none ∨ t.missionId = some (missionOf platform p.id t)

theorem Placed.target_eq (h : Placed platform programs) {q : OrganizationProgram}
    {t u : OrganizationTarget} (hp : p ∈ programs) (ht : t ∈ p.targets) (hq : q ∈ programs)
    (hu : u ∈ q.targets) (hid : missionOf platform p.id t = missionOf platform q.id u) :
    p = q ∧ t = u := by
  obtain ⟨hsame, hkey⟩ := h.apart p hp t ht q hq u hu hid
  obtain rfl := eq_of_id h.ids hp hq hsame
  exact ⟨rfl, List.inj_on_of_nodup_map (h.keys p hp) ht hu hkey⟩

theorem samePlaces_keys {targets targets' : List OrganizationTarget}
    (h : List.Forall₂ (SamePlace platform programId) targets targets') :
    targets'.map (·.key) = targets.map (·.key) := by
  induction h with
  | nil => rfl
  | cons hab _ ih => rw [List.map_cons, List.map_cons, hab.key, ih]

theorem Placed.put (h : Placed platform programs) {program' : OrganizationProgram}
    (hmem : program ∈ programs) (hplan : SamePlan platform program program') :
    Placed platform (putProgram programs program') := by
  have hold : ∀ q ∈ putProgram programs program', ∀ u ∈ q.targets,
      ∃ q₀ ∈ programs, q₀.id = q.id ∧ ∃ u₀ ∈ q₀.targets, SamePlace platform q₀.id u₀ u := by
    intro q hq u hu
    rcases mem_putProgram h.ids hq with ⟨hq, -⟩ | rfl
    · exact ⟨q, hq, rfl, u, hu, SamePlace.refl u⟩
    · obtain ⟨u₀, hu₀, hplace⟩ := mem_places hplan.targets hu
      exact ⟨program, hmem, hplan.id.symm, u₀, hu₀, hplace⟩
  refine ⟨?_, ?_, ?_, ?_⟩
  · rw [putProgram_ids]
    exact h.ids
  · intro q hq
    rcases mem_putProgram h.ids hq with ⟨hq, -⟩ | rfl
    · exact h.keys q hq
    · rw [samePlaces_keys hplan.targets]
      exact h.keys program hmem
  · intro q hq u hu r hr v hv hid
    obtain ⟨q₀, hq₀, hqid, u₀, hu₀, hu'⟩ := hold q hq u hu
    obtain ⟨r₀, hr₀, hrid, v₀, hv₀, hv'⟩ := hold r hr v hv
    rw [missionOf, missionOf, hu'.key, hv'.key, ← hqid, ← hrid] at hid
    rw [hu'.key, hv'.key, ← hqid, ← hrid]
    exact h.apart q₀ hq₀ u₀ hu₀ r₀ hr₀ v₀ hv₀ hid
  · intro q hq u hu
    obtain ⟨q₀, hq₀, hqid, u₀, hu₀, hu'⟩ := hold q hq u hu
    rw [missionOf, hu'.key, ← hqid]
    rcases hu'.mission with hsame | hgiven
    · rw [hsame]
      exact h.named q₀ hq₀ u₀ hu₀
    · exact .inr hgiven

-- ===== intact

/-- The durable state at every moment. -/
structure Intact (platform : Platform) (w : World) : Prop where
  placed : Placed platform w.programs
  journal : (w.intents.map (·.id)).Nodup
  covered : ∀ p ∈ w.programs, ∀ t ∈ p.targets, Covered platform w.missions w.intents p.id t

/-- Every intent under the id of the callback is about its mission. -/
def Owned (intents : List DurableCompensationIntent) (callback : Rollback) : Prop :=
  ∀ intent ∈ intents, intent.id = callback.intentId → intent.targetId = callback.missionId

/-- Where a section may be left: intact, with callbacks about the missions
their intents name. -/
structure CutOff (platform : Platform) (w : World) : Prop where
  intact : Intact platform w
  owned : ∀ callback ∈ w.transaction.rollbacks, Owned w.intents callback

/-- The child of an intent is recorded if it runs. -/
def Done (platform : Platform) (w : World) (intent : DurableCompensationIntent) : Prop :=
  running w.missions intent.targetId →
    ∃ p ∈ w.programs, ∃ t ∈ p.targets, missionOf platform p.id t = intent.targetId
      ∧ Recorded platform p.id t

theorem Intact.complete (h : Intact platform w) {intentId : String}
    (hdone : ∀ intent ∈ w.intents, intent.id = intentId → Done platform w intent) (n : Nat) :
    Intact platform { w with
      intents := w.intents.filter fun item => item.id != intentId, tick := n } := by
  refine ⟨h.placed, ?_, ?_⟩
  · exact h.journal.sublist (List.filter_sublist.map _)
  · intro p hp t ht hrunning
    have hkept : ∀ operation, Owes w.intents p.id operation (missionOf platform p.id t) →
        Recorded platform p.id t ∨ Owes (w.intents.filter fun item => item.id != intentId) p.id
          operation (missionOf platform p.id t) := by
      intro operation howes
      obtain ⟨intent, hintent, howner, hop, hid⟩ := howes
      by_cases hsame : intent.id = intentId
      · have hthis := hdone intent hintent hsame
        rw [Done, hid] at hthis
        obtain ⟨q, hq, u, hu, hmission, hrecorded⟩ := hthis hrunning
        obtain ⟨rfl, rfl⟩ := h.placed.target_eq hq hu hp ht hmission
        exact .inl hrecorded
      · refine .inr ⟨intent, List.mem_filter.2 ⟨hintent, ?_⟩, howner, hop, hid⟩
        exact bne_iff_ne.2 hsame
    rcases h.covered p hp t ht hrunning with hrecorded | ⟨hnone, howed⟩ | ⟨hsome, howed⟩
    · exact .inl hrecorded
    · rcases hkept _ howed with hrecorded | howes
      · exact .inl hrecorded
      · exact .inr (.inl ⟨hnone, howes⟩)
    · rcases hkept _ howed with hrecorded | howes
      · exact .inl hrecorded
      · exact .inr (.inr ⟨hsome, howes⟩)

-- ===== calls

def TeamCall.sets : TeamCall → Bool
  | .start _ | .resume _ => true
  | _ => false

section

variable {call : TeamCall} {targetKey : String}

theorem called_quiet (henv : Genuine Quiet env) (hcall : call.sets = false) (w : World) :
    Quiet w.missions (called env programId targetKey call w).missions := by
  intro id hrunning
  obtain ⟨drifted, hdrift, hout⟩ := henv.cases w.tick call w.missions
  change running (env.teams w.tick call w.missions).1 id at hrunning
  refine hdrift id ?_
  rcases hout with ⟨hdid, -⟩ | ⟨hsame, -⟩
  · generalize (env.teams w.tick call w.missions).1 = missions at hdid hrunning
    have hput : ∀ {own : Uuid} {made : Team.TeamMission}, made.state ≠ .running →
        running (putMission drifted own made) id → running drifted id := by
      intro own made hstate hput
      by_cases hid : id = own
      · rw [running, hid, putMission_self] at hput
        exact absurd (Option.some.inj hput) hstate
      · rw [running, putMission_ne hid] at hput
        exact hput
    cases hdid with
    | submitted objective workItems budget hnone hpending =>
      refine hput ?_ hrunning
      rw [hpending]
      exact fun h => nomatch h
    | inspected => exact hrunning
    | started hmade => cases hcall
    | resumed hmade => cases hcall
    | paused hpaused =>
      refine hput ?_ hrunning
      rw [hpaused]
      exact fun h => nomatch h
    | cancelled hstopped => exact hput hstopped hrunning
  · rw [hsame] at hrunning
    exact hrunning

theorem called_other (henv : Genuine Quiet env) (hne : id ≠ call.missionId)
    (hrunning : running (called env programId targetKey call w).missions id) :
    running w.missions id := by
  obtain ⟨drifted, hdrift, hout⟩ := henv.cases w.tick call w.missions
  change running (env.teams w.tick call w.missions).1 id at hrunning
  refine hdrift id ?_
  rcases hout with ⟨hdid, -⟩ | ⟨hsame, -⟩
  · generalize (env.teams w.tick call w.missions).1 = missions at hdid hrunning
    have hput : ∀ {made : Team.TeamMission}, running (putMission drifted call.missionId made) id →
        running drifted id := by
      intro made hput
      rw [running, putMission_ne hne] at hput
      exact hput
    cases hdid with
    | submitted objective workItems budget hnone hpending => exact hput hrunning
    | inspected => exact hrunning
    | started hmade => exact hput hrunning
    | resumed hmade => exact hput hrunning
    | paused hpaused => exact hput hrunning
    | cancelled hstopped => exact hput hrunning
  · rw [hsame] at hrunning
    exact hrunning

theorem called_answer (henv : Genuine Quiet env) {mission : Team.TeamMission}
    (hok : (env.teams w.tick call w.missions).2 = .ok mission) :
    (called env programId targetKey call w).missions call.missionId = some mission := by
  obtain ⟨drifted, -, hout⟩ := henv.cases w.tick call w.missions
  rcases hout with ⟨-, hanswer⟩ | ⟨-, hfailed⟩
  · exact hanswer mission hok
  · rw [hok] at hfailed
    cases hfailed

end

theorem not_running {mission : Team.TeamMission} (h : missions id = some mission)
    (hstate : mission.state ≠ .running) : ¬ running missions id := by
  rw [running, h]
  exact fun hrunning => hstate (Option.some.inj hrunning)

theorem Intact.quiet {w' : World} (h : Intact platform w) (hprograms : w'.programs = w.programs)
    (hintents : w'.intents = w.intents) (hquiet : Quiet w.missions w'.missions) :
    Intact platform w' := by
  refine ⟨?_, ?_, ?_⟩
  · rw [hprograms]
    exact h.placed
  · rw [hintents]
    exact h.journal
  · rw [hprograms, hintents]
    exact fun p hp t ht => (h.covered p hp t ht).quiet hquiet

-- ===== rollbacks

/-- A world to roll back from, and the callbacks that are left. -/
def RollsBack (platform : Platform) (callbacks : List Rollback) (w : World) : Prop :=
  CutOff platform w ∧ ∀ callback ∈ callbacks, Owned w.intents callback

theorem Owned.filter {callback : Rollback} (h : Owned intents callback)
    (f : DurableCompensationIntent → Bool) : Owned (intents.filter f) callback :=
  fun intent hintent => h intent (List.mem_filter.1 hintent).1

theorem CutOff.complete (h : CutOff platform w) {intentId : String}
    (hdone : ∀ intent ∈ w.intents, intent.id = intentId → Done platform w intent) (n : Nat) :
    CutOff platform { w with
      intents := w.intents.filter fun item => item.id != intentId, tick := n } :=
  ⟨h.intact.complete hdone n, fun callback hc => (h.owned callback hc).filter _⟩

theorem CutOff.tick (h : CutOff platform w) (n : Nat) : CutOff platform { w with tick := n } :=
  ⟨⟨h.intact.placed, h.intact.journal, h.intact.covered⟩, h.owned⟩

theorem CutOff.called {call : TeamCall} {targetKey : String} (h : CutOff platform w)
    (henv : Genuine Quiet env) (hcall : call.sets = false) :
    CutOff platform (called env programId targetKey call w) :=
  ⟨h.intact.quiet rfl rfl (called_quiet henv hcall w), h.owned⟩

theorem rollback_cutOff (henv : Genuine Quiet env) (callback : Rollback) (rest : List Rollback) :
    Script.Triple (RollsBack platform (callback :: rest)) (rollback env callback)
      (fun _ => RollsBack platform rest) (CutOff platform) := by
  have hrest : ∀ w, RollsBack platform (callback :: rest) w → RollsBack platform rest w :=
    fun w hw => ⟨hw.1, fun c hc => hw.2 c (List.mem_cons_of_mem _ hc)⟩
  have hdone : ∀ state : Team.TeamMissionState, state ≠ .running →
      ∀ call : TeamCall, call.missionId = callback.missionId → call.sets = false →
      Script.Triple (RollsBack platform (callback :: rest)) (do
        let mission ← teamCall env callback.programId callback.targetKey call
        if mission.id = callback.missionId ∧ mission.state = state then
          complete env callback.intentId) (fun _ => RollsBack platform rest)
        (RollsBack platform rest) := by
    intro state hstate call hcall hsets
    have hcalled : ∀ w, RollsBack platform (callback :: rest) w →
        RollsBack platform (callback :: rest)
          (called env callback.programId callback.targetKey call w) :=
      fun w hw => ⟨hw.1.called henv hsets, hw.2⟩
    refine Script.Triple.bind (Q := fun mission w => RollsBack platform (callback :: rest) w
      ∧ w.missions callback.missionId = some mission)
      (teamCall_triple (fun w hw => hrest _ (hcalled w hw)) ?_) ?_
    · intro w mission hw hok
      refine ⟨hcalled w hw, ?_⟩
      rw [← hcall]
      exact called_answer henv hok
    · intro mission
      split
      · next hconfirmed =>
        refine durably_triple ?_ ?_
        · exact fun w n hw => ⟨hw.1.1.tick n, (hrest w hw.1).2⟩
        · intro w n hw
          obtain ⟨hw, hmission⟩ := hw
          have hstopped : ∀ intent ∈ w.intents, intent.id = callback.intentId →
              Done platform w intent := by
            intro intent hintent hid hrunning
            rw [hw.2 callback (List.mem_cons_self ..) intent hintent hid] at hrunning
            refine absurd hrunning (not_running hmission ?_)
            rw [hconfirmed.2]
            exact hstate
          have hafter : RollsBack platform rest { w with
              intents := w.intents.filter fun item => item.id != callback.intentId, tick := n } :=
            ⟨hw.1.complete hstopped n, fun c hc => ((hrest w hw).2 c hc).filter _⟩
          exact ⟨hafter, hafter⟩
      · exact Script.Triple.pure fun w hw => hrest w hw.1
  unfold rollback
  have hcut : ∀ w, RollsBack platform rest w → CutOff platform w := fun _ hw => hw.1
  cases hoperation : callback.operation with
  | pause =>
    have hone := hdone .paused (fun h => nomatch h) (.pause callback.missionId) rfl rfl
    refine Script.Triple.bind (Q := fun _ => RollsBack platform rest)
      ((hone.attempt hrest).weaken (fun _ h => h) ?_ hcut) ?_
    · intro answer w hw
      cases answer with
      | ok _ => exact hw
      | error _ => exact hw
    · exact fun _ => Script.Triple.pure fun _ hw => hw
  | cancel =>
    have hone := hdone .cancelled (fun h => nomatch h) (.cancel callback.missionId) rfl rfl
    refine Script.Triple.bind (Q := fun _ => RollsBack platform rest)
      ((hone.attempt hrest).weaken (fun _ h => h) ?_ hcut) ?_
    · intro answer w hw
      cases answer with
      | ok _ => exact hw
      | error _ => exact hw
    · exact fun _ => Script.Triple.pure fun _ hw => hw

end

/-
A section at work: its local targets run ahead of the stored ones, and every
running child stays covered by both. The callbacks of its transaction are
about children its local targets have recorded, so that once the program is
written their intents may go.
-/

variable {platform : Platform} {env : Env} {programs : List OrganizationProgram}
  {program : OrganizationProgram} {target target' : OrganizationTarget} {w : World}
  {locals done rest : List OrganizationTarget} {operation : CompensationOperation}
  {intentId targetKey : String} {id : Uuid}

-- ===== views

/-- The intent of a callback is there, and if its child runs a local target
has recorded it. -/
structure Bound (platform : Platform) (program : OrganizationProgram)
    (locals : List OrganizationTarget) (w : World) (callback : Rollback) : Prop where
  intent : ∃ intent ∈ w.intents, intent.id = callback.intentId
    ∧ intent.targetId = callback.missionId
  local' : running w.missions callback.missionId →
    ∃ t ∈ locals, missionOf platform program.id t = callback.missionId
      ∧ Recorded platform program.id t

/-- The body of a mutation of `program`, with its local targets. -/
structure View (platform : Platform) (programs : List OrganizationProgram)
    (program : OrganizationProgram) (locals : List OrganizationTarget) (w : World) : Prop where
  programs : w.programs = programs
  intact : Intact platform w
  places : List.Forall₂ (SamePlace platform program.id) program.targets locals
  covered : ∀ t ∈ locals, Covered platform w.missions w.intents program.id t
  bound : ∀ callback ∈ w.transaction.rollbacks, Bound platform program locals w callback
  commits : w.transaction.commits = w.transaction.rollbacks.map (·.intentId)

theorem View.cutOff (h : View platform programs program locals w) : CutOff platform w := by
  refine ⟨h.intact, ?_⟩
  intro callback hc intent hintent hid
  obtain ⟨bound, hbound, hboundId, hmission⟩ := (h.bound callback hc).intent
  obtain rfl := List.inj_on_of_nodup_map h.intact.journal hintent hbound (hid.trans hboundId.symm)
  exact hmission

theorem View.named (h : View platform programs program locals w) (hmem : program ∈ programs)
    (ht : target ∈ locals) : target.missionId = none
    ∨ target.missionId = some (missionOf platform program.id target) := by
  obtain ⟨stored, hstored, hplace⟩ := mem_places h.places ht
  have hplaced := h.intact.placed
  rw [h.programs] at hplaced
  rw [missionOf, hplace.key]
  rcases hplace.mission with hsame | hgiven
  · rw [hsame]
    exact hplaced.named program hmem stored hstored
  · exact .inr hgiven

theorem View.replace (h : View platform programs program (done ++ target :: rest) w)
    (hplace : SamePlace platform program.id target target')
    (hbetter : (running w.missions (missionOf platform program.id target) →
        Recorded platform program.id target')
      ∨ target'.missionId = target.missionId ∧ target'.state = target.state) :
    View platform programs program (done ++ target' :: rest) w := by
  have hmission : missionOf platform program.id target' = missionOf platform program.id target := by
    rw [missionOf, missionOf, hplace.key]
  have hrecorded : running w.missions (missionOf platform program.id target) →
      Recorded platform program.id target → Recorded platform program.id target' := by
    intro hrunning hold
    rcases hbetter with hnew | ⟨hid, hstate⟩
    · exact hnew hrunning
    · refine ⟨?_, ?_⟩
      · rw [hid, hplace.key]
        exact hold.mission
      · rw [hstate]
        exact hold.state
  have hin : ∀ t ∈ done ++ target :: rest, t = target ∨ t ∈ done ++ target' :: rest := by
    intro t ht
    rcases List.mem_append.1 ht with hdone | hrest
    · exact .inr (List.mem_append_left _ hdone)
    · rcases List.mem_cons.1 hrest with rfl | hrest
      · exact .inl rfl
      · exact .inr (List.mem_append_right _ (List.mem_cons_of_mem _ hrest))
  refine ⟨h.programs, h.intact, ?_, ?_, ?_, h.commits⟩
  · have hstep : List.Forall₂ (SamePlace platform program.id) (done ++ target :: rest)
        (done ++ target' :: rest) :=
      List.rel_append (samePlaces_refl done) (List.Forall₂.cons hplace (samePlaces_refl rest))
    exact forall₂_trans (fun hab hbc => hab.trans hbc) h.places hstep
  · intro t ht
    rcases List.mem_append.1 ht with hdone | hrest
    · exact h.covered t (List.mem_append_left _ hdone)
    · rcases List.mem_cons.1 hrest with rfl | hrest
      · have hold := h.covered target (List.mem_append_right _ (List.mem_cons_self ..))
        intro hrunning
        rw [hmission] at hrunning ⊢
        rcases hbetter with hnew | ⟨hid, hstate⟩
        · exact .inl (hnew hrunning)
        · rcases hold hrunning with hrec | ⟨hnone, howes⟩ | ⟨hsome, howes⟩
          · exact .inl (hrecorded hrunning hrec)
          · exact .inr (.inl ⟨hid.trans hnone, howes⟩)
          · exact .inr (.inr ⟨hid.trans hsome, howes⟩)
      · exact h.covered t (List.mem_append_right _ (List.mem_cons_of_mem _ hrest))
  · intro callback hc
    refine ⟨(h.bound callback hc).intent, ?_⟩
    intro hrunning
    obtain ⟨t, ht, hid, hrec⟩ := (h.bound callback hc).local' hrunning
    rcases hin t ht with rfl | hkept
    · rw [← hid] at hrunning
      exact ⟨target', List.mem_append_right _ (List.mem_cons_self ..), hmission.trans hid,
        hrecorded hrunning hrec⟩
    · exact ⟨t, hkept, hid, hrec⟩

theorem View.missions {w' : World} (h : View platform programs program locals w)
    (hprograms : w'.programs = w.programs) (hintents : w'.intents = w.intents)
    (htransaction : w'.transaction = w.transaction)
    (hset : ∀ id, running w'.missions id → running w.missions id
      ∨ (∃ t ∈ locals, missionOf platform program.id t = id ∧ Recorded platform program.id t)
        ∧ (∀ t ∈ locals, missionOf platform program.id t = id → Recorded platform program.id t)
        ∧ ∀ p ∈ programs, ∀ t ∈ p.targets, missionOf platform p.id t = id →
          Covered platform w'.missions w.intents p.id t) :
    View platform programs program locals w' := by
  refine ⟨hprograms.trans h.programs, ⟨?_, ?_, ?_⟩, h.places, ?_, ?_, ?_⟩
  · rw [hprograms]
    exact h.intact.placed
  · rw [hintents]
    exact h.intact.journal
  · rw [hprograms, hintents]
    intro p hp t ht hrunning
    rcases hset _ hrunning with hold | ⟨-, -, hcovered⟩
    · exact h.intact.covered p hp t ht hold
    · rw [h.programs] at hp
      exact hcovered p hp t ht rfl hrunning
  · rw [hintents]
    intro t ht hrunning
    rcases hset _ hrunning with hold | ⟨-, hrecorded, -⟩
    · exact h.covered t ht hold
    · exact .inl (hrecorded t ht rfl)
  · rw [htransaction]
    intro callback hc
    obtain ⟨hintent, hlocal⟩ := h.bound callback hc
    refine ⟨?_, ?_⟩
    · rw [hintents]
      exact hintent
    · intro hrunning
      rcases hset _ hrunning with hold | ⟨hrecorded, -, -⟩
      · exact hlocal hold
      · exact hrecorded
  · rw [htransaction]
    exact h.commits

theorem View.quiet {w' : World} (h : View platform programs program locals w)
    (hprograms : w'.programs = w.programs) (hintents : w'.intents = w.intents)
    (htransaction : w'.transaction = w.transaction) (hquiet : Quiet w.missions w'.missions) :
    View platform programs program locals w' :=
  h.missions hprograms hintents htransaction fun id hrunning => .inl (hquiet id hrunning)

-- ===== intents

/-- The intent of that id, of the program and about the mission. -/
def Held (intents : List DurableCompensationIntent) (intentId : String) (programId : Uuid)
    (operation : CompensationOperation) (id : Uuid) : Prop :=
  ∃ intent ∈ intents, intent.id = intentId ∧ intent.ownerId = programId
    ∧ intent.operation = operation ∧ intent.targetId = id

/-- Every intent is still there. -/
def Extends (intents intents' : List DurableCompensationIntent) : Prop :=
  ∀ intent ∈ intents, ∃ intent' ∈ intents', intent'.id = intent.id
    ∧ intent'.ownerId = intent.ownerId ∧ intent'.operation = intent.operation
    ∧ intent'.targetId = intent.targetId

theorem Held.owes {intents : List DurableCompensationIntent} {programId : Uuid}
    (h : Held intents intentId programId operation id) : Owes intents programId operation id := by
  obtain ⟨intent, hmem, -, howner, hop, hid⟩ := h
  exact ⟨intent, hmem, howner, hop, hid⟩

theorem View.intents (h : View platform programs program locals w)
    {intents : List DurableCompensationIntent} (hnodup : (intents.map (·.id)).Nodup)
    (hkept : Extends w.intents intents) (n : Nat) :
    View platform programs program locals { w with intents := intents, tick := n } := by
  have howes : ∀ programId operation id, Owes w.intents programId operation id →
      Owes intents programId operation id := by
    intro programId operation id howes
    refine howes.mono ?_
    intro intent hintent
    obtain ⟨intent', hmem, -, howner, hop, hid⟩ := hkept intent hintent
    exact ⟨intent', hmem, howner, hop, hid⟩
  refine ⟨h.programs, ⟨h.intact.placed, hnodup, ?_⟩, h.places, ?_, ?_, h.commits⟩
  · exact fun p hp t ht => (h.intact.covered p hp t ht).mono (fun h => h) (howes p.id)
  · exact fun t ht => (h.covered t ht).mono (fun h => h) (howes program.id)
  · intro callback hc
    obtain ⟨⟨intent, hmem, hid, hmission⟩, hlocal⟩ := h.bound callback hc
    obtain ⟨intent', hmem', hid', -, -, hmission'⟩ := hkept intent hmem
    exact ⟨⟨intent', hmem', hid'.trans hid, hmission'.trans hmission⟩, hlocal⟩

theorem prepareIn_spec {candidate : DurableCompensationIntent}
    {intents intents' : List DurableCompensationIntent}
    (h : prepareIn platform candidate intents = .ok intents')
    (hnodup : (intents.map (·.id)).Nodup) : (intents'.map (·.id)).Nodup ∧ Extends intents intents'
    ∧ Held intents' candidate.id candidate.ownerId candidate.operation candidate.targetId := by
  unfold prepareIn at h
  split at h
  · next existing hfind =>
    split at h
    · next hsame =>
      obtain rfl := Except.ok.inj h
      refine ⟨hnodup, fun intent hmem => ⟨intent, hmem, rfl, rfl, rfl, rfl⟩, existing,
        List.mem_of_find?_eq_some hfind, ?_⟩
      simp only [sameIntent, Bool.and_eq_true, beq_iff_eq] at hsame
      exact ⟨hsame.1.1.1.1, hsame.1.1.1.2, hsame.1.1.2, hsame.1.2⟩
    · exact absurd h fail_ne_ok
  · next hfind =>
    obtain ⟨_, -, h⟩ := bind_eq_ok.1 h
    obtain rfl := Except.ok.inj h
    have hperm := List.perm_insertionSort
      (fun a b : DurableCompensationIntent => platform.localeCompare a.id b.id ≤ 0)
      (intents ++ [candidate])
    refine ⟨?_, ?_, candidate, ?_, rfl, rfl, rfl, rfl⟩
    · refine (hperm.map _).nodup_iff.2 ?_
      rw [List.map_append, List.nodup_append']
      refine ⟨hnodup, List.nodup_singleton _, ?_⟩
      intro id hold hnew
      rw [List.mem_singleton.1 hnew] at hold
      obtain ⟨intent, hintent, hid⟩ := List.mem_map.1 hold
      exact List.find?_eq_none.1 hfind intent hintent (beq_iff_eq.2 hid)
    · intro intent hmem
      exact ⟨intent, hperm.mem_iff.2 (List.mem_append_left _ hmem), rfl, rfl, rfl, rfl⟩
    · exact hperm.mem_iff.2 (List.mem_append_right _ (List.mem_singleton_self _))

-- ===== primitives

theorem prepare_view : Script.Triple (View platform programs program locals)
      (prepare platform env program.id operation id targetKey)
      (fun _ w => View platform programs program locals w
        ∧ Held w.intents (compensationIntentId platform program.id operation id) program.id
          operation id) (CutOff platform) := by
  refine Script.Triple.reads ?_
  intro w hw
  refine check_bind ?_
  intro intents hintents
  obtain ⟨hnodup, hkept, hheld⟩ := prepareIn_spec hintents hw.intact.journal
  refine durably_triple ?_ ?_
  · intro s n hs
    rw [hs]
    exact hw.cutOff.tick n
  · intro s n hs
    rw [hs]
    exact ⟨(hw.intents hnodup hkept n).cutOff, hw.intents hnodup hkept n, hheld⟩

theorem Held.extends {intents intents' : List DurableCompensationIntent} {programId : Uuid}
    (h : Held intents intentId programId operation id) (hkept : Extends intents intents') :
    Held intents' intentId programId operation id := by
  obtain ⟨intent, hmem, hid, howner, hop, hmission⟩ := h
  obtain ⟨intent', hmem', hid', howner', hop', hmission'⟩ := hkept intent hmem
  exact ⟨intent', hmem', hid'.trans hid, howner'.trans howner, hop'.trans hop,
    hmission'.trans hmission⟩

theorem confirm_view {programId : Uuid} {confirmed : String} :
    Script.Triple (fun w => View platform programs program locals w
        ∧ Held w.intents intentId programId operation id) (confirm env confirmed)
      (fun _ w => View platform programs program locals w
        ∧ Held w.intents intentId programId operation id) (CutOff platform) := by
  refine Script.Triple.reads ?_
  intro w hw
  refine check_bind ?_
  intro _ _
  refine durably_triple ?_ ?_
  · intro s n hs
    rw [hs]
    exact hw.1.cutOff.tick n
  · intro s n hs
    rw [hs]
    generalize hwritten : updateFirst (fun item : DurableCompensationIntent => item.id == confirmed)
        (fun item => { item with confirmedAt := some (item.confirmedAt.getD env.now) })
        w.intents = intents
    have hids : intents.map (·.id) = w.intents.map (·.id) := by
      rw [← hwritten]
      refine map_updateFirst ?_ w.intents
      intro _ _
      rfl
    have hnodup : (intents.map (·.id)).Nodup := by
      rw [hids]
      exact hw.1.intact.journal
    have hkept : Extends w.intents intents := by
      intro intent hmem
      rw [← hwritten]
      rcases mem_updateFirst_or hmem with hold | hnew
      · exact ⟨intent, hold, rfl, rfl, rfl, rfl⟩
      · exact ⟨_, hnew, rfl, rfl, rfl, rfl⟩
    exact ⟨(hw.1.intents hnodup hkept n).cutOff, hw.1.intents hnodup hkept n, hw.2.extends hkept⟩

theorem register_view {callback : Rollback} {programId : Uuid}
    (hlocal : ∃ t ∈ locals, missionOf platform program.id t = id ∧ Recorded platform program.id t)
    (hid : callback.intentId = intentId) (hmission : callback.missionId = id) :
    Script.Triple (fun w => View platform programs program locals w
        ∧ Held w.intents intentId programId operation id) (register callback)
      (fun _ w => View platform programs program locals w
        ∧ Held w.intents intentId programId operation id) (CutOff platform) := by
  have hview : ∀ w, View platform programs program locals w
      ∧ Held w.intents intentId programId operation id →
      View platform programs program locals { w with
        transaction :=
          { rollbacks := callback :: w.transaction.rollbacks
            commits := callback.intentId :: w.transaction.commits } } := by
    intro w hw
    obtain ⟨hview, intent, hmem, hintentId, -, -, hintent⟩ := hw
    refine ⟨hview.programs, ⟨hview.intact.placed, hview.intact.journal, hview.intact.covered⟩,
      hview.places, hview.covered, ?_, ?_⟩
    · intro c hc
      rcases List.mem_cons.1 hc with rfl | hold
      · rw [← hmission] at hlocal hintent
        exact ⟨⟨intent, hmem, hintentId.trans hid.symm, hintent⟩, fun _ => hlocal⟩
      · exact ⟨(hview.bound c hold).intent, (hview.bound c hold).local'⟩
    · show callback.intentId :: w.transaction.commits = _
      rw [hview.commits]
      rfl
  exact Script.Triple.write (fun w hw => (hview w hw).cutOff) fun w hw => ⟨hview w hw, hw.2⟩

theorem quiet_view {call : TeamCall} (henv : Genuine Quiet env) (hcall : call.sets = false) :
    Script.Triple (View platform programs program locals) (teamCall env program.id targetKey call)
      (fun mission w => View platform programs program locals w
        ∧ w.missions call.missionId = some mission) (CutOff platform) := by
  have hview : ∀ w, View platform programs program locals w →
      View platform programs program locals (called env program.id targetKey call w) :=
    fun w hw => hw.quiet rfl rfl rfl (called_quiet henv hcall w)
  refine teamCall_triple (fun w hw => (hview w hw).cutOff) ?_
  intro w mission hw hok
  exact ⟨hview w hw, called_answer henv hok⟩

theorem quiet_held {call : TeamCall} {programId : Uuid} (henv : Genuine Quiet env)
    (hcall : call.sets = false) : Script.Triple (fun w => View platform programs program locals w
        ∧ Held w.intents intentId programId operation id) (teamCall env program.id targetKey call)
      (fun _ w => View platform programs program locals w
        ∧ Held w.intents intentId programId operation id) (CutOff platform) := by
  have hview : ∀ w, View platform programs program locals w →
      View platform programs program locals (called env program.id targetKey call w) :=
    fun w hw => hw.quiet rfl rfl rfl (called_quiet henv hcall w)
  exact teamCall_triple (fun w hw => (hview w hw.1).cutOff) fun w _ hw _ => ⟨hview w hw.1, hw.2⟩

theorem advance_view {call : TeamCall} (henv : Genuine Quiet env) (hmem : program ∈ programs)
    (hin : target ∈ locals) (hid : missionOf platform program.id target = id)
    (hlocal : ∀ t ∈ locals, missionOf platform program.id t = id → Recorded platform program.id t)
    (hstored : ∀ t ∈ program.targets, t.key = target.key →
      t.missionId = none ∧ operation = .cancelTeamMission
        ∨ t.missionId = some id ∧ operation = .pauseTeamMission) (hcall : call.missionId = id) :
    Script.Triple (fun w => View platform programs program locals w
        ∧ Held w.intents intentId program.id operation id) (teamCall env program.id targetKey call)
      (fun _ => View platform programs program locals) (CutOff platform) := by
  have hview : ∀ w, View platform programs program locals w
      ∧ Held w.intents intentId program.id operation id →
      View platform programs program locals (called env program.id targetKey call w) := by
    intro w hw
    obtain ⟨hview, hheld⟩ := hw
    refine hview.missions rfl rfl rfl ?_
    intro other hrunning
    by_cases hsame : other = id
    · refine .inr ⟨⟨target, hin, hid.trans hsame.symm, hlocal target hin hid⟩, ?_, ?_⟩
      · rw [hsame]
        exact hlocal
      · intro p hp t ht hmission _
        obtain ⟨stored, hstoredMem, hplace⟩ := mem_places hview.places hin
        have hplaced := hview.intact.placed
        rw [hview.programs] at hplaced
        have hmine : missionOf platform program.id stored = id := by
          rw [← hid, missionOf, missionOf, hplace.key]
        obtain ⟨rfl, rfl⟩ := hplaced.target_eq hp ht hmem hstoredMem
          (hmission.trans (hsame.trans hmine.symm))
        rcases hstored t ht hplace.key.symm with ⟨hnone, hop⟩ | ⟨hsome, hop⟩
        · refine .inr (.inl ⟨hnone, ?_⟩)
          rw [hmine, ← hop]
          exact hheld.owes
        · refine .inr (.inr ⟨?_, ?_⟩)
          · rw [hmine]
            exact hsome
          · rw [hmine, ← hop]
            exact hheld.owes
    · rw [← hcall] at hsame
      exact .inl (called_other henv hsame hrunning)
  exact teamCall_triple (fun w hw => (hview w hw).cutOff) fun w _ hw _ => hview w hw

end OperatorRuntime.Organization
