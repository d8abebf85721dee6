/-
When the coordinator lock comes free again. A file with an owner is removed
once the owner is dead; a file without one is never removed, and stays for
good where its creator died before it wrote the owner (`LeavesOwner` says
that none did).
-/
import OperatorRuntime.Developer.Proofs.CoordinatorExclusion

namespace OperatorRuntime.CoordinatorLock

open Lib LockSystem

variable {dateParse : DateParse} {processOf : Nat → Process} {s t : LockSystem} {c d : Nat}

-- ===== recovery

/-- A crash that leaves a file without an owner is not that of the process
that created it. -/
def LeavesOwner (processOf : Nat → Process) (s : LockSystem) : LockAct → Prop
  | .crash p => ∀ f ∈ s.file, f.owner = none → processOf f.createdBy ≠ p
  | _ => True

/-- The file is labelled, or its creator lives and is about to label it; the
label is that of the creator, which has the lock while it lives. -/
def Labelled (processOf : Nat → Process) (s : LockSystem) (f : LockFile) : Prop :=
  (f.owner = none → s.stages f.createdBy = .writing ∧ s.alive (processOf f.createdBy) = true)
    ∧ ∀ o, f.owner = some o → o = { id := f.createdBy, processInstance := processOf f.createdBy }
      ∧ (s.alive (processOf f.createdBy) = true → (s.stages f.createdBy).acquired = true)

def FileInv (processOf : Nat → Process) (s : LockSystem) : Prop :=
  ∀ f ∈ s.file, Labelled processOf s f

theorem Labelled.goto {f : LockFile} {stage : Stage} (h : Labelled processOf s f)
    (hwriting : f.createdBy = c → s.stages c = .writing → f.owner = none → stage = .writing)
    (hacquired : f.createdBy = c → (s.stages c).acquired = true → f.owner ≠ none →
      stage.acquired = true) : Labelled processOf (s.goto c stage) f := by
  by_cases hfc : f.createdBy = c
  · refine ⟨?_, ?_⟩
    · intro hnone
      have hold := h.1 hnone
      refine ⟨?_, hold.2⟩
      rw [hfc, goto_self]
      rw [hfc] at hold
      exact hwriting hfc hold.1 hnone
    · intro o howner
      have hold := h.2 o howner
      refine ⟨hold.1, ?_⟩
      intro halive
      have hheld := hold.2 halive
      rw [hfc] at hheld
      rw [hfc, goto_self]
      exact hacquired hfc hheld (by rw [howner]; simp)
  · unfold Labelled
    rw [goto_other _ _ hfc]
    exact h

theorem FileInv.moved {stage : Stage} {file : Option LockFile} (h : FileInv processOf s)
    (hc : s.alive (processOf c) = true) (hmoved : Moved processOf s c stage file) :
    FileInv processOf ({ s with file }.goto c stage) := by
  intro f hf
  cases hmoved with
  | waited _ hold hnew =>
    apply (h f hf).goto
    · intro _ hwriting _
      exact absurd hwriting hold.2
    · intro _ hacquired _
      rw [hold.1] at hacquired
      cases hacquired
  | condemned n o hold hdead =>
    apply (h f hf).goto
    · intro _ hwriting _
      rw [hold] at hwriting
      cases hwriting
    · intro _ hacquired _
      rw [hold] at hacquired
      cases hacquired
  | created n hold hfree =>
    cases hf
    refine ⟨fun _ => ⟨goto_self .., hc⟩, ?_⟩
    intro o howner
    cases howner
  | labelled hold =>
    obtain ⟨old, hold', rfl⟩ := Option.mem_map.1 hf
    by_cases hcreated : old.createdBy = c
    · rw [if_pos hcreated]
      refine ⟨fun hnone => (nomatch hnone), ?_⟩
      intro o howner
      cases howner
      dsimp only
      rw [hcreated]
      refine ⟨rfl, ?_⟩
      intro _
      rw [goto_self]
      rfl
    · rw [if_neg hcreated]
      apply Labelled.goto (h old hold')
      · exact fun heq => absurd heq hcreated
      · exact fun heq => absurd heq hcreated
  | removed n o hold => cases hf
  | settled hold =>
    apply (h f hf).goto
    · intro _ hwriting _
      rw [hold] at hwriting
      cases hwriting
    · exact fun _ _ _ => rfl
  | confirmed o hold howner hid =>
    apply (h f hf).goto
    · intro _ hwriting _
      rw [hold] at hwriting
      cases hwriting
    · exact fun _ _ _ => rfl
  | lost hold hid =>
    apply (h f hf).goto
    · intro _ hwriting _
      rw [hold] at hwriting
      cases hwriting
    · intro hcreated _ howner
      obtain ⟨o, ho⟩ := Option.ne_none_iff_exists'.1 howner
      have hlabel := ((h f hf).2 o ho).1
      have hfile : s.file = some f := hf
      refine absurd ?_ (hid o (by rw [hfile]; exact ho))
      rw [hlabel]
      exact hcreated
  | unlinked hold => cases hf

theorem FileInv.step {act : LockAct} (h : FileInv processOf s)
    (hstep : s.step dateParse processOf act = some t) (hleaves : LeavesOwner processOf s act) :
    FileInv processOf t := by
  rcases step_cases hstep with ⟨p, rfl, rfl⟩ | ⟨c, stage, file, hc, hmoved, rfl, -⟩
  · intro f hf
    refine ⟨?_, ?_⟩
    · intro hnone
      have hold := (h f hf).1 hnone
      refine ⟨hold.1, ?_⟩
      have hne : processOf f.createdBy ≠ p := hleaves f hf hnone
      show Function.update s.alive p false (processOf f.createdBy) = true
      rw [Function.update_of_ne hne]
      exact hold.2
    · intro o howner
      have hold := (h f hf).2 o howner
      refine ⟨hold.1, ?_⟩
      intro halive
      have halive' : Function.update s.alive p false (processOf f.createdBy) = true := halive
      by_cases hp : processOf f.createdBy = p
      · rw [hp, Function.update_self] at halive'
        cases halive'
      · rw [Function.update_of_ne hp] at halive'
        exact hold.2 halive'
  · exact h.moved hc hmoved

/-- A call has not started, has ended, or its process has. -/
def Ended (processOf : Nat → Process) (s : LockSystem) (c : Nat) : Prop :=
  s.alive (processOf c) = false ∨ s.stages c = .idle ∨ s.stages c = .ended

/-- The lock file, where there is one, is labelled with a dead owner. -/
def Reclaimable (s : LockSystem) : Prop :=
  ∀ f ∈ s.file, ∃ o, f.owner = some o ∧ s.alive o.processInstance = false

theorem FileInv.reclaimable (h : FileInv processOf s) (hended : ∀ d, Ended processOf s d) :
    Reclaimable s := by
  intro f hf
  have hlabelled := h f hf
  cases howner : f.owner with
  | none =>
    obtain ⟨hwriting, halive⟩ := hlabelled.1 howner
    rcases hended f.createdBy with hdead | hidle | hend
    · rw [hdead] at halive
      cases halive
    · rw [hidle] at hwriting
      cases hwriting
    · rw [hend] at hwriting
      cases hwriting
  | some o =>
    refine ⟨o, rfl, ?_⟩
    obtain ⟨hlabel, hheld⟩ := hlabelled.2 o howner
    rw [hlabel]
    by_contra halive
    have hacquired := hheld (Bool.not_eq_false _ ▸ halive)
    rcases hended f.createdBy with hdead | hidle | hend
    · exact halive hdead
    · rw [hidle] at hacquired
      cases hacquired
    · rw [hend] at hacquired
      cases hacquired

/-- What a call does until it has the lock. -/
def Acquires (c : Nat) : LockAct → Prop
  | .call d | .fs d | .inspect d _ => d = c
  | .settle _ | .crash _ => False

/-- How many steps a call that runs alone is away from the lock. -/
inductive Away (s : LockSystem) (c : Nat) : Nat → Prop
  | calls (hstage : s.stages c = .idle) (hfile : Reclaimable s) : Away s c 7
  | opens (hstage : s.stages c = .opening 0) (hfile : Reclaimable s) : Away s c 6
  | reads (o : Owner) (hstage : s.stages c = .reading 0) (hfile : s.file.bind LockFile.owner = some o)
      (hdead : s.alive o.processInstance = false) : Away s c 5
  | inspects (o : Owner) (hstage : s.stages c = .inspecting 0 o)
      (hdead : s.alive o.processInstance = false) : Away s c 4
  | removes (o : Owner) (hstage : s.stages c = .removing 0 o) : Away s c 3
  | creates (n : Nat) (hstage : s.stages c = .opening n) (hfree : s.file = none) : Away s c 2
  | labels (hstage : s.stages c = .writing) : Away s c 1
  | acquired (hstage : s.stages c = .mutating) : Away s c 0

variable {n : Nat}

theorem Away.fs (h : Away s c n) (hstep : s.fsStep processOf c = some t) :
    t.alive = s.alive ∧ ∃ m < n, Away t c m := by
  unfold fsStep at hstep
  cases h with
  | calls hstage | inspects o hstage | acquired hstage =>
    rw [hstage] at hstep
    cases hstep
  | opens hstage hfile =>
    rw [hstage] at hstep
    dsimp only at hstep
    cases hf : s.file with
    | none =>
      rw [hf] at hstep
      cases hstep
      exact ⟨rfl, 1, by omega, .labels (goto_self ..)⟩
    | some f =>
      rw [hf] at hstep
      cases hstep
      obtain ⟨o, howner, hdead⟩ := hfile f hf
      refine ⟨rfl, 5, by omega, .reads o (goto_self ..) ?_ hdead⟩
      rw [goto_file, hf]
      exact howner
  | reads o hstage hfile hdead =>
    rw [hstage] at hstep
    dsimp only at hstep
    rw [hfile] at hstep
    cases hstep
    exact ⟨rfl, 4, by omega, .inspects o (goto_self ..) hdead⟩
  | removes o hstage =>
    rw [hstage] at hstep
    cases hstep
    exact ⟨rfl, 2, by omega, .creates 1 (goto_self ..) rfl⟩
  | creates m hstage hfree =>
    rw [hstage] at hstep
    dsimp only at hstep
    rw [hfree] at hstep
    cases hstep
    exact ⟨rfl, 1, by omega, .labels (goto_self ..)⟩
  | labels hstage =>
    rw [hstage] at hstep
    cases hstep
    exact ⟨rfl, 0, by omega, .acquired (goto_self ..)⟩

theorem Away.call (h : Away s c n) (hidle : s.stages c = .idle) :
    ∃ m < n, Away (s.goto c (.opening 0)) c m := by
  cases h with
  | calls _ hfile => exact ⟨6, by omega, .opens (goto_self ..) hfile⟩
  | opens hstage | reads _ hstage | inspects _ hstage | removes _ hstage | creates _ hstage
  | labels hstage | acquired hstage =>
    rw [hidle] at hstage
    cases hstage

theorem Away.inspect {attempt : Nat} {owner : Owner} {live : Option ProcessInstanceIdentity}
    (h : Away s c n) (hinspecting : s.stages c = .inspecting attempt owner)
    (htruthful : s.Truthful dateParse owner.processInstance live) :
    ∃ m < n, Away (s.goto c (if reclaimable dateParse owner.processInstance.val live = true then
      .removing attempt owner else nextAttempt attempt)) c m := by
  cases h with
  | inspects o hstage hdead =>
    rw [hinspecting] at hstage
    cases hstage
    refine ⟨3, by omega, .removes owner ?_⟩
    have hnot : live.any (sameProcessInstance dateParse owner.processInstance.val) = false :=
      htruthful.trans hdead
    rw [goto_self, reclaimable_eq, hnot]
    rfl
  | calls hstage | opens hstage | reads _ hstage | removes _ hstage | creates _ hstage
  | labels hstage | acquired hstage =>
    rw [hinspecting] at hstage
    cases hstage

/-- Each step of the caller brings it nearer to its own. -/
theorem Away.step {act : LockAct} (h : Away s c n) (hact : Acquires c act)
    (hstep : s.step dateParse processOf act = some t) :
    t.alive = s.alive ∧ ∃ m < n, Away t c m := by
  cases act with
  | call d =>
    cases (hact : d = c)
    simp only [LockSystem.step] at hstep
    split at hstep
    · next hcall =>
      cases hstep
      exact ⟨rfl, h.call hcall.2⟩
    · cases hstep
  | fs d =>
    cases (hact : d = c)
    simp only [LockSystem.step] at hstep
    split at hstep
    · exact h.fs hstep
    · cases hstep
  | inspect d live =>
    cases (hact : d = c)
    simp only [LockSystem.step] at hstep
    split at hstep
    · next attempt owner hstage =>
      split at hstep
      · next hinspect =>
        cases hstep
        exact ⟨rfl, h.inspect hstage hinspect.2⟩
      · cases hstep
    · cases hstep
  | settle d | crash p => cases hact

theorem Away.enabled (h : Away s c n) (hc : s.alive (processOf c) = true)
    (hnot : s.stages c ≠ .mutating) :
    ∃ act t, Acquires c act ∧ s.step dateParse processOf act = some t := by
  have hfs : (s.fsStep processOf c).isSome = true →
      ∃ act t, Acquires c act ∧ s.step dateParse processOf act = some t := by
    intro hsome
    obtain ⟨u, hu⟩ := Option.isSome_iff_exists.1 hsome
    refine ⟨.fs c, u, rfl, ?_⟩
    simp only [LockSystem.step, if_pos hc, hu]
  cases h with
  | calls hstage =>
    refine ⟨.call c, s.goto c (.opening 0), rfl, ?_⟩
    simp only [LockSystem.step]
    rw [if_pos ⟨hc, hstage⟩]
  | opens hstage | creates _ hstage =>
    cases hf : s.file with
    | none => exact hfs (by simp only [fsStep, hstage, hf, Option.isSome_some])
    | some f => exact hfs (by simp only [fsStep, hstage, hf, Option.isSome_some])
  | reads o hstage hfile => exact hfs (by simp only [fsStep, hstage, hfile, Option.isSome_some])
  | inspects o hstage hdead =>
    have htruthful : s.Truthful dateParse o.processInstance none := hdead.symm
    have hstep : s.step dateParse processOf (.inspect c none)
        = some (s.goto c (if reclaimable dateParse o.processInstance.val none = true then
            .removing 0 o else nextAttempt 0)) := by
      simp only [LockSystem.step, hstage]
      rw [if_pos ⟨hc, htruthful⟩]
    exact ⟨.inspect c none, _, rfl, hstep⟩
  | removes o hstage => exact hfs (by simp only [fsStep, hstage, Option.isSome_some])
  | labels hstage => exact hfs (by simp only [fsStep, hstage, Option.isSome_some])
  | acquired hstage => exact absurd hstage hnot

theorem Away.run {acts : List LockAct} (h : Away s c n)
    (hrun : Run (Where (stepsOf (LockSystem.step dateParse processOf)) fun _ => Acquires c) s acts t) :
    t.alive = s.alive ∧ ∃ m, acts.length + m ≤ n ∧ Away t c m := by
  apply hrun.history (P := fun acts t => t.alive = s.alive ∧ ∃ m, acts.length + m ≤ n ∧ Away t c m)
  · exact ⟨rfl, n, by simp, h⟩
  · intro acts u v act hu hstep
    obtain ⟨halive, m, hm, haway⟩ := hu
    obtain ⟨halive', k, hk, haway'⟩ := haway.step hstep.2 hstep.1
    refine ⟨halive'.trans halive, k, ?_, haway'⟩
    rw [List.length_append, List.length_singleton]
    omega

-- ===== the coordinator

/-- What both halves of the lock ask of a step. -/
def Undisturbed (processOf : Nat → Process) (s : LockSystem) (act : LockAct) : Prop :=
  RemovesInspected s act ∧ LeavesOwner processOf s act

/-- A call that runs alone gets the lock: it takes at most seven steps, and
until it has the lock it can take one. -/
def AcquiresAlone (dateParse : DateParse) (processOf : Nat → Process) (s : LockSystem) (c : Nat) :
    Prop :=
  ∀ acts t,
    Run (Where (stepsOf (LockSystem.step dateParse processOf)) fun _ => Acquires c) s acts t →
      acts.length ≤ 7 ∧ (t.stages c = .mutating
        ∨ ∃ act u, Acquires c act ∧ t.step dateParse processOf act = some u)

theorem acquires_alone (hfile : FileInv processOf s) (hended : ∀ d, Ended processOf s d)
    (hc : s.alive (processOf c) = true) (hidle : s.stages c = .idle) :
    AcquiresAlone dateParse processOf s c := by
  intro acts t hrun
  obtain ⟨halive, m, hm, haway⟩ := (Away.calls hidle (hfile.reclaimable hended)).run hrun
  refine ⟨by omega, ?_⟩
  by_cases hmutating : t.stages c = .mutating
  · exact .inl hmutating
  · exact .inr (haway.enabled (by rw [halive]; exact hc) hmutating)

/-- In every run whose steps are undisturbed the lock has at most one live
holder, and once all its users have ended a call that runs alone gets it. -/
theorem coordinator_lock_sound {acts : List LockAct}
    (hrun : Run (Where (stepsOf (LockSystem.step dateParse processOf)) (Undisturbed processOf))
      LockSystem.initial acts s) :
    (∀ c d, Holding processOf s c → Holding processOf s d → c = d)
      ∧ ∀ c, (∀ d, Ended processOf s d) → s.alive (processOf c) = true → s.stages c = .idle →
        AcquiresAlone dateParse processOf s c := by
  refine ⟨?_, ?_⟩
  · intro c d hc hd
    exact exclusive (hrun.mono fun h => ⟨h.1, h.2.1⟩) hc hd
  · intro c hended halive hidle
    have hfile : FileInv processOf s :=
      hrun.invariant (fun _ hf => (nomatch hf)) fun h hstep => h.step hstep.1 hstep.2.2
    exact acquires_alone hfile hended halive hidle

-- === two reclaiming calls

theorem threeProcesses_valid (c : Nat) :
    validProcessInstance { pid := c % 3 + 1, started := "7" } = true := by
  have hpid : c % 3 < 3 := Nat.mod_lt _ (by decide)
  simp only [validProcessInstance, Bool.and_eq_true, decide_eq_true_eq]
  exact ⟨⟨⟨⟨by omega, by omega⟩, by decide⟩, by decide⟩, by decide⟩

def threeProcesses (c : Nat) : Process :=
  ⟨{ pid := c % 3 + 1, started := "7" }, threeProcesses_valid c⟩

/-- A call that finds the path free. -/
def acquireFree (c : Nat) : List LockAct :=
  [.fs c, .fs c]

/-- A call that finds a lock and learns that its owner is dead. -/
def inspectDead (c : Nat) : List LockAct :=
  [.call c, .fs c, .fs c, .inspect c none]

/-- Call 1 dies with the lock; call 2 takes it over. -/
def oneReclaims : List LockAct :=
  [LockAct.call 1] ++ acquireFree 1 ++ [LockAct.crash (threeProcesses 1)]
    ++ inspectDead 2 ++ [LockAct.fs 2] ++ acquireFree 2

/-- Calls 2 and 3 both learn that call 1 is dead; each removes the lock and
takes it, call 3 that of call 2. -/
def twoReclaim : List LockAct :=
  [LockAct.call 1] ++ acquireFree 1 ++ [LockAct.crash (threeProcesses 1)]
    ++ inspectDead 2 ++ inspectDead 3 ++ [LockAct.fs 2] ++ acquireFree 2
    ++ [LockAct.fs 3] ++ acquireFree 3

/-- Call 1 dies between creating the lock and labelling it. -/
def diesUnlabelled : List LockAct :=
  [.call 1, .fs 1, .crash (threeProcesses 1)]

instance (s : LockSystem) (act : LockAct) : Decidable (RemovesInspected s act) :=
  match act with
  | .fs c =>
    match hstage : s.stages c with
    | .removing n o =>
      decidable_of_iff (∀ f ∈ s.file, f.owner = some o) (by simp [RemovesInspected, hstage])
    | .idle | .opening _ | .writing | .reading _ | .inspecting _ _ | .mutating | .releasing
    | .unlinking | .ended => isTrue (by simp [RemovesInspected, hstage])
  | .call _ | .inspect _ _ | .settle _ | .crash _ => isTrue trivial

instance (s : LockSystem) (act : LockAct) : Decidable (LeavesOwner processOf s act) :=
  match act with
  | .crash p => inferInstanceAs (Decidable (∀ f ∈ s.file, f.owner = none → processOf f.createdBy ≠ p))
  | .call _ | .fs _ | .inspect _ _ | .settle _ => isTrue trivial

instance (s : LockSystem) (act : LockAct) : Decidable (Undisturbed processOf s act) :=
  inferInstanceAs (Decidable (_ ∧ _))

/-- The lock of call 1 after it died. -/
theorem coordinator_lock_sound_reclaimed :
    (∃ s, Run (Where (stepsOf (LockSystem.step (fun _ => none) threeProcesses))
          (Undisturbed threeProcesses)) LockSystem.initial oneReclaims s
        ∧ Holding threeProcesses s 2 ∧ ∀ c, Holding threeProcesses s c → c = 2)
      ∧ ∃ s, Run (Where (stepsOf (LockSystem.step (fun _ => none) threeProcesses))
          (Undisturbed threeProcesses)) LockSystem.initial
          ([LockAct.call 1] ++ acquireFree 1 ++ [LockAct.crash (threeProcesses 1)]) s
        ∧ AcquiresAlone (fun _ => none) threeProcesses s 2 := by
  refine ⟨?_, ?_⟩
  · have hstate : (exec (guarded (LockSystem.step (fun _ => none) threeProcesses)
        (Undisturbed threeProcesses)) LockSystem.initial oneReclaims).map
          (fun s => (s.alive (threeProcesses 2), s.stages 2)) = some (true, .mutating) := by
      decide
    obtain ⟨s, hexec, hs⟩ := Option.map_eq_some_iff.1 hstate
    simp only [Prod.mk.injEq] at hs
    have hrun := run_where_of_guarded hexec
    have hholding : Holding threeProcesses s 2 := ⟨hs.1, by rw [hs.2]; rfl⟩
    exact ⟨s, hrun, hholding, fun c hc => (coordinator_lock_sound hrun).1 c 2 hc hholding⟩
  · let s : LockSystem :=
      { file := some { createdBy := 1, owner := some { id := 1, processInstance := threeProcesses 1 } }
        stages := Function.update (Function.update (Function.update (fun _ => .idle) 1 (.opening 0))
          1 .writing) 1 .mutating
        alive := Function.update (fun _ => true) (threeProcesses 1) false }
    have hexec : exec (guarded (LockSystem.step (fun _ => none) threeProcesses)
        (Undisturbed threeProcesses)) LockSystem.initial
        ([LockAct.call 1] ++ acquireFree 1 ++ [LockAct.crash (threeProcesses 1)]) = some s := rfl
    have hrun := run_where_of_guarded hexec
    refine ⟨s, hrun, (coordinator_lock_sound hrun).2 2 ?_ (by decide) (by decide)⟩
    intro d
    by_cases hd : d = 1
    · subst hd
      exact .inl (by decide)
    · refine .inr (.inl ?_)
      show Function.update _ 1 _ d = _
      rw [Function.update_of_ne hd, Function.update_of_ne hd, Function.update_of_ne hd]

-- ===== jammed locks

/-- The path holds a file without an owner, and the call waits for it. -/
def Jammed (s : LockSystem) (c : Nat) : Prop :=
  (∃ f, s.file = some f ∧ f.owner = none) ∧ match s.stages c with
    | .idle | .opening _ | .reading _ | .ended => True
    | _ => False

theorem Jammed.waits (h : Jammed s c) (n : Nat) : Jammed (s.goto c (nextAttempt n)) c := by
  unfold nextAttempt
  by_cases hlast : n + 1 < maxAttempts
  · rw [if_pos hlast]
    refine ⟨h.1, ?_⟩
    rw [goto_self]
    trivial
  · rw [if_neg hlast]
    refine ⟨h.1, ?_⟩
    rw [goto_self]
    trivial

theorem Jammed.moves (h : Jammed s c) {act : LockAct} (hact : Acquires c act)
    (hstep : s.step dateParse processOf act = some t) : Jammed t c := by
  obtain ⟨⟨f, hfile, howner⟩, hstage⟩ := h
  cases act with
  | call d =>
    cases (hact : d = c)
    simp only [LockSystem.step] at hstep
    split at hstep
    · cases hstep
      refine ⟨⟨f, hfile, howner⟩, ?_⟩
      rw [goto_self]
      trivial
    · cases hstep
  | fs d =>
    cases (hact : d = c)
    simp only [LockSystem.step] at hstep
    split at hstep
    · unfold fsStep at hstep
      cases hnow : s.stages c with
      | opening n =>
        rw [hnow, hfile] at hstep
        cases hstep
        refine ⟨⟨f, hfile, howner⟩, ?_⟩
        rw [goto_self]
        trivial
      | reading n =>
        have hunread : s.file.bind LockFile.owner = none := by
          rw [hfile]
          exact howner
        rw [hnow] at hstep
        dsimp only at hstep
        rw [hunread] at hstep
        cases hstep
        exact Jammed.waits ⟨⟨f, hfile, howner⟩, hstage⟩ n
      | idle | ended =>
        rw [hnow] at hstep
        cases hstep
      | writing | inspecting | removing | mutating | releasing | unlinking =>
        rw [hnow] at hstage
        exact hstage.elim
    · cases hstep
  | inspect d live =>
    cases (hact : d = c)
    simp only [LockSystem.step] at hstep
    split at hstep
    · next attempt owner hnow =>
      rw [hnow] at hstage
      exact hstage.elim
    · cases hstep
  | settle d | crash p => cases hact

/-- A jammed caller never mutates. -/
theorem Jammed.run (h : Jammed s c) {acts : List LockAct}
    (hrun : Run (Where (stepsOf (LockSystem.step dateParse processOf)) fun _ => Acquires c) s acts t) :
    t.stages c ≠ .mutating := by
  have hjammed : Jammed t c :=
    hrun.invariant (I := fun u => Jammed u c) h fun h hstep => h.moves hstep.2 hstep.1
  intro hmutating
  have hstage := hjammed.2
  rw [hmutating] at hstage
  exact hstage

/-- Two calls of live processes hold the lock at once; and a crash leaves a
lock that nobody gets, though all its users have ended. -/
theorem coordinator_lock_unsound :
    (∃ s, Run (stepsOf (LockSystem.step (fun _ => none) threeProcesses)) LockSystem.initial
          twoReclaim s ∧ Holding threeProcesses s 2 ∧ Holding threeProcesses s 3
        ∧ threeProcesses 2 ≠ threeProcesses 3)
      ∧ ∃ s, Run (stepsOf (LockSystem.step (fun _ => none) threeProcesses)) LockSystem.initial
          diesUnlabelled s
        ∧ (∀ d, Ended threeProcesses s d) ∧ s.alive (threeProcesses 2) = true ∧ s.stages 2 = .idle
        ∧ ∀ acts t, Run (Where (stepsOf (LockSystem.step (fun _ => none) threeProcesses))
            fun _ => Acquires 2) s acts t → t.stages 2 ≠ .mutating := by
  refine ⟨?_, ?_⟩
  · have hstate : (exec (LockSystem.step (fun _ => none) threeProcesses) LockSystem.initial
        twoReclaim).map (fun s => (s.alive (threeProcesses 2), s.stages 2,
          s.alive (threeProcesses 3), s.stages 3)) = some (true, .mutating, true, .mutating) := by
      decide
    obtain ⟨s, hexec, hs⟩ := Option.map_eq_some_iff.1 hstate
    simp only [Prod.mk.injEq] at hs
    refine ⟨s, run_of_exec hexec, ⟨hs.1, ?_⟩, ⟨hs.2.2.1, ?_⟩, by decide⟩
    · rw [hs.2.1]
      rfl
    · rw [hs.2.2.2]
      rfl
  · let s : LockSystem :=
      { file := some { createdBy := 1, owner := none }
        stages := Function.update (Function.update (fun _ => .idle) 1 (.opening 0)) 1 .writing
        alive := Function.update (fun _ => true) (threeProcesses 1) false }
    have hexec : exec (LockSystem.step (fun _ => none) threeProcesses) LockSystem.initial
        diesUnlabelled = some s := rfl
    refine ⟨s, run_of_exec hexec, ?_, by decide, by decide, ?_⟩
    · intro d
      by_cases hd : d = 1
      · subst hd
        exact .inl (by decide)
      · refine .inr (.inl ?_)
        show Function.update _ 1 _ d = _
        rw [Function.update_of_ne hd, Function.update_of_ne hd]
    · intro acts t hrun
      have hjammed : Jammed s 2 := ⟨⟨_, rfl, rfl⟩, trivial⟩
      exact hjammed.run hrun

end OperatorRuntime.CoordinatorLock
