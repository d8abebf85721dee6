/-
Rules of the coordinator's primitives as crash triples, and the frame they
share: a body of `#mutate` does not write the programs, so what the
programs and the log say stays true if every event it logs is allowed
(`On`, `Allows`).
-/
import OperatorRuntime.Organization.Calls

namespace OperatorRuntime.Organization

open Lib

variable {platform : Platform} {env : Env} {α : Type} {P C : World → Prop}

-- ===== primitives

theorem check_bind {x : Result α} {β : Type} {f : α → Op β}
    {R : β → World → Prop} (h : ∀ a, x = .ok a → Script.Triple P (f a) R C) :
    Script.Triple P (check x >>= f) R C := by
  refine Script.Triple.lift_bind ?_
  intro a ha
  cases x with
  | error e => cases ha
  | ok b =>
    obtain rfl := Except.ok.inj ha
    exact h b rfl

theorem check_triple {x : Result α} {Q : α → World → Prop}
    (h : ∀ w a, P w → x = .ok a → Q a w) : Script.Triple P (check x) Q C := by
  refine Script.Triple.lift ?_
  intro w a hw ha
  cases x with
  | error e => cases ha
  | ok b =>
    obtain rfl := Except.ok.inj ha
    exact h w b hw rfl

theorem durably_triple {f : World → World} {Q : World → Prop}
    (hbefore : ∀ w n, P w → C { w with tick := n })
    (hafter : ∀ w n, P w → C { f w with tick := n } ∧ Q { f w with tick := n }) :
    Script.Triple P (durably env f) (fun _ => Q) C := by
  refine Script.Triple.reads ?_
  intro w hw
  dsimp only
  split
  · refine Script.Triple.write ?_ ?_
    · intro s hs
      rw [hs]
      exact (hafter w _ hw).1
    · intro s hs
      rw [hs]
      exact (hafter w _ hw).2
  · have hcounted : Script.Triple (fun s => s = w)
        (Script.write fun w : World => { w with tick := w.tick + 1 } : Op PUnit)
        (fun _ _ => True) C := by
      refine Script.Triple.write ?_ fun _ _ => trivial
      intro s hs
      rw [hs]
      exact hbefore w _ hw
    exact hcounted.bind fun _ => Script.Triple.lift fun _ _ _ h => (nomatch h)
  · have hwritten : Script.Triple (fun s => s = w)
        (Script.write fun w : World => { f w with tick := (f w).tick + 1 } : Op PUnit)
        (fun _ _ => True) C := by
      refine Script.Triple.write ?_ fun _ _ => trivial
      intro s hs
      rw [hs]
      exact (hafter w _ hw).1
    exact hwritten.bind fun _ => Script.Triple.lift fun _ _ _ h => (nomatch h)

theorem readPrograms_bind {β : Type} {f : List OrganizationProgram → Op β}
    {R : β → World → Prop} {w : World}
    (h : validateState w.programs = .ok () → Script.Triple (fun s => s = w) (f w.programs) R C) :
    Script.Triple (fun s => s = w) (readPrograms >>= f) R C := by
  rw [readPrograms, bind_assoc]
  refine Script.Triple.read_bind ?_
  rw [bind_assoc]
  refine check_bind ?_
  intro _ hvalid
  rw [pure_bind]
  exact h hvalid

def called (env : Env) (programId : Uuid) (targetKey : String) (call : TeamCall) (w : World) :
    World :=
  let (missions, answer) := env.teams w.tick call w.missions
  { w with
    missions, tick := w.tick + 1
    log := .child programId targetKey call answer.isOk
      ((missions call.missionId).map (·.state)) :: w.log }

theorem teamCall_triple {programId : Uuid} {targetKey : String} {call : TeamCall}
    {Q : Team.TeamMission → World → Prop}
    (hcrash : ∀ w, P w → C (called env programId targetKey call w))
    (hreturn : ∀ w mission, P w → (env.teams w.tick call w.missions).2 = .ok mission →
      Q mission (called env programId targetKey call w)) :
    Script.Triple P (teamCall env programId targetKey call) Q C := by
  intro w hw
  have htrace : teamCall env programId targetKey call w
      = { states := [called env programId targetKey call w]
          answer := (env.teams w.tick call w.missions).2 } := by
    have hread : ∀ f : World → Op Team.TeamMission, (Script.read >>= f) w = f w w := fun _ => rfl
    rw [teamCall, hread, called]
    generalize env.teams w.tick call w.missions = turn
    obtain ⟨missions, answer⟩ := turn
    cases answer <;> rfl
  rw [htrace]
  refine ⟨?_, ?_⟩
  · intro t ht
    rw [List.mem_singleton.1 ht]
    exact hcrash w hw
  · intro mission hmission
    exact hreturn w mission hw hmission

-- ===== the frame

/-- A property of the missions, the programs and the log. -/
abbrev Frame := Missions → List OrganizationProgram → List Event → Prop

def On (k : Frame) (w : World) : Prop :=
  k w.missions w.programs w.log

/-- A call about a child, with what it does to the missions, keeps the frame. -/
def AllowsCall (env : Env) (k : Frame) (programId : Uuid) (targetKey : String) (call : TeamCall) :
    Prop :=
  ∀ w, On k w → On k (called env programId targetKey call w)

variable {k : Frame} {programId : Uuid} {targetKey : String}

theorem allowsCall_of_log {call : TeamCall} {k : List OrganizationProgram → List Event → Prop}
    (h : ∀ answered after programs log, k programs log →
      k programs (.child programId targetKey call answered after :: log)) :
    AllowsCall env (fun _ => k) programId targetKey call :=
  fun _ hw => h _ _ _ _ hw

theorem teamCall_on {call : TeamCall} (h : AllowsCall env k programId targetKey call) :
    Script.Triple (On k) (teamCall env programId targetKey call) (fun _ => On k) (On k) :=
  teamCall_triple (fun w hw => h w hw) fun w _ hw _ => h w hw

theorem modify_on {f : World → World} (h : ∀ w, On k w → On k (f w)) :
    Script.Triple (On k) (modify f) (fun _ => On k) (On k) :=
  Script.Triple.write (fun w hw => h w hw) fun w hw => h w hw

theorem register_on {callback : Rollback} :
    Script.Triple (On k) (register callback) (fun _ => On k) (On k) :=
  modify_on fun _ hw => hw

theorem prepare_on {operation : CompensationOperation} {targetId : Uuid} :
    Script.Triple (On k) (prepare platform env programId operation targetId targetKey)
      (fun _ => On k) (On k) := by
  refine Script.Triple.reads ?_
  intro w hw
  refine check_bind ?_
  intro intents _
  refine durably_triple ?_ ?_
  · intro s n hs
    rw [hs]
    exact hw
  · intro s n hs
    rw [hs]
    exact ⟨hw, hw⟩

theorem confirm_on {id : String} :
    Script.Triple (On k) (confirm env id) (fun _ => On k) (On k) := by
  refine Script.Triple.reads ?_
  intro w hw
  refine check_bind ?_
  intro _ _
  refine durably_triple ?_ ?_
  · intro s n hs
    rw [hs]
    exact hw
  · intro s n hs
    rw [hs]
    exact ⟨hw, hw⟩

theorem complete_on {id : String} : Script.Triple (On k) (complete env id) (fun _ => On k) (On k) :=
  durably_triple (fun _ _ hw => hw) fun _ _ hw => ⟨hw, hw⟩

theorem attempt_on {x : Op α} (h : Script.Triple (On k) x (fun _ => On k) (On k)) :
    Script.Triple (On k) (Script.attempt x) (fun _ => On k) (On k) := by
  refine (h.attempt fun _ hw => hw).weaken (fun _ hw => hw) ?_ fun _ hw => hw
  intro answer w hw
  cases answer with
  | ok a => exact hw
  | error e => exact hw

-- ===== mutate

theorem mutate_triple {body : OrganizationProgram → Op OrganizationProgram}
    {B : OrganizationProgram → World → Prop} {W : World → Prop}
    (hreset : ∀ w, P w → C { w with transaction := { rollbacks := [], commits := [] } })
    (hbody : ∀ w program, P w → program ∈ w.programs → program.id = programId →
      Script.Triple (fun s => s = { w with transaction := { rollbacks := [], commits := [] } })
        (body program) (fun program' s => B program' s ∧ s.programs = w.programs) C)
    (hwrite : ∀ program' programs, validateProgram program' = .ok () →
      Script.Triple (fun s => B program' s ∧ s.programs = programs)
        (writePrograms env (putProgram programs program') .written) (fun _ => W) C)
    (hcommit : Script.Triple W (do
        let w ← Script.read
        w.transaction.commits.reverse.forM fun intentId => do
          let _ ← Script.attempt (complete env intentId)) (fun _ => C) C)
    (hrollback : ∀ w, C w → Script.Triple (fun s => s = w)
      (w.transaction.rollbacks.forM (rollback env)) (fun _ => C) C) :
    Script.Triple P (mutate env programId body) (fun _ => C) C := by
  refine Script.Triple.fix ?_
  intro w hw
  refine readPrograms_bind ?_
  intro _
  split
  · exact check_triple fun _ _ _ h => absurd h fail_ne_ok
  · next program hfind =>
    have hmem := List.mem_of_find?_eq_some hfind
    have hfound := List.find?_some hfind
    have hid : program.id = programId := beq_iff_eq.1 hfound
    have hmodify : Script.Triple (fun s => s = w)
        (modify fun w => { w with transaction := { rollbacks := [], commits := [] } })
        (fun _ s => s = { w with transaction := { rollbacks := [], commits := [] } }) C := by
      refine Script.Triple.write ?_ ?_
      · intro s hs
        rw [hs]
        exact hreset w hw
      · intro s hs
        rw [hs]
    refine hmodify.bind ?_
    intro _
    have hbodies : Script.Triple
        (fun s => s = { w with transaction := { rollbacks := [], commits := [] } }) (do
          let program ← body program
          check (validateProgram program)
          writePrograms env (putProgram w.programs program) .written
          let w ← Script.read
          w.transaction.commits.reverse.forM fun intentId => do
            let _ ← Script.attempt (complete env intentId)) (fun _ => C) C := by
      refine (hbody w program hw hmem hid).bind ?_
      intro program'
      refine check_bind ?_
      intro _ hvalid
      exact (hwrite program' w.programs hvalid).bind fun _ => hcommit
    refine (hbodies.attempt ?_).bind ?_
    · intro s hs
      rw [hs]
      exact hreset w hw
    · intro result
      cases result with
      | ok _ => exact Script.Triple.pure fun s hs => hs
      | error e =>
        refine Script.Triple.reads ?_
        intro s hs
        refine (hrollback s hs).bind ?_
        exact fun _ => Script.Triple.lift fun _ _ _ h => (nomatch h)

end OperatorRuntime.Organization
