/-
Who is in the coordinator lock. A live call that created the file holds the
path until it removes it, as long as a removal takes the file that was
inspected (`RemovesInspected`); the code does not look again before it
removes.
-/
import OperatorRuntime.Developer.CoordinatorLock
import OperatorRuntime.Lib.Runs

namespace OperatorRuntime.CoordinatorLock

open Lib LockSystem

variable {dateParse : DateParse} {processOf : Nat → Process} {s t : LockSystem} {c d : Nat}

theorem reclaimable_eq (owner : Process) (live : Option ProcessInstanceIdentity) :
    reclaimable dateParse owner.val live = !live.any (sameProcessInstance dateParse owner.val) := by
  have hvalid := owner.property
  have hpid : 0 < owner.val.pid ∧ owner.val.pid ≤ 0x7fffffff := by
    simp only [validProcessInstance, Bool.and_eq_true, decide_eq_true_eq] at hvalid
    exact ⟨hvalid.1.1.1.1, hvalid.1.1.1.2⟩
  have hsafe : owner.val.pid ≤ maxSafeInteger := hpid.2.trans (by decide)
  rw [reclaimable, if_pos hvalid, decide_eq_true hpid.1, decide_eq_true hsafe, Bool.true_and,
    Bool.true_and]

@[simp] theorem goto_file (s : LockSystem) (c : Nat) (stage : Stage) :
    (s.goto c stage).file = s.file := rfl

theorem goto_self (s : LockSystem) (c : Nat) (stage : Stage) : (s.goto c stage).stages c = stage :=
  Function.update_self ..

theorem goto_other (s : LockSystem) {c d : Nat} (stage : Stage) (h : d ≠ c) :
    (s.goto c stage).stages d = s.stages d :=
  Function.update_of_ne h ..

-- ===== steps

/-- How a live call moves: its stage, and the file. -/
inductive Moved (processOf : Nat → Process) (s : LockSystem) (c : Nat) :
    Stage → Option LockFile → Prop
  /-- It starts, reads, inspects a live owner or waits; the file stays. -/
  | waited (stage : Stage) (hold : (s.stages c).acquired = false ∧ s.stages c ≠ .writing)
      (hnew : stage.acquired = false ∧ stage ≠ .writing ∧ ∀ n o, stage ≠ .removing n o) :
      Moved processOf s c stage s.file
  | condemned (n : Nat) (o : Owner) (hold : s.stages c = .inspecting n o)
      (hdead : s.alive o.processInstance = false) : Moved processOf s c (.removing n o) s.file
  | created (n : Nat) (hold : s.stages c = .opening n) (hfree : s.file = none) :
      Moved processOf s c .writing (some { createdBy := c, owner := none })
  | labelled (hold : s.stages c = .writing) :
      Moved processOf s c .mutating (s.file.map fun f =>
        if f.createdBy = c then { f with owner := some { id := c, processInstance := processOf c } }
        else f)
  | removed (n : Nat) (o : Owner) (hold : s.stages c = .removing n o) :
      Moved processOf s c (nextAttempt n) none
  | settled (hold : s.stages c = .mutating) : Moved processOf s c .releasing s.file
  | confirmed (o : Owner) (hold : s.stages c = .releasing) (howner : s.file.bind LockFile.owner = some o)
      (hid : o.id = c) : Moved processOf s c .unlinking s.file
  | lost (hold : s.stages c = .releasing)
      (hid : ∀ o, s.file.bind LockFile.owner = some o → o.id ≠ c) : Moved processOf s c .ended s.file
  | unlinked (hold : s.stages c = .unlinking) : Moved processOf s c .ended none

theorem nextAttempt_waits (n : Nat) : (nextAttempt n).acquired = false ∧ nextAttempt n ≠ .writing
    ∧ ∀ m o, nextAttempt n ≠ .removing m o := by
  unfold nextAttempt
  split
  · exact ⟨rfl, by simp, by simp⟩
  · exact ⟨rfl, by simp, by simp⟩

theorem fsStep_moved (h : s.fsStep processOf c = some t) :
    ∃ stage file, Moved processOf s c stage file ∧ t = { s with file }.goto c stage := by
  unfold fsStep at h
  cases hstage : s.stages c with
  | opening n =>
    rw [hstage] at h
    dsimp only at h
    cases hfile : s.file with
    | none =>
      rw [hfile] at h
      cases h
      exact ⟨_, _, .created n hstage hfile, rfl⟩
    | some f =>
      rw [hfile] at h
      cases h
      refine ⟨.reading n, _, .waited _ ?_ ?_, rfl⟩
      · rw [hstage]
        exact ⟨rfl, by simp⟩
      · exact ⟨rfl, by simp, by simp⟩
  | writing =>
    rw [hstage] at h
    cases h
    exact ⟨_, _, .labelled hstage, rfl⟩
  | reading n =>
    rw [hstage] at h
    dsimp only at h
    have hold : (s.stages c).acquired = false ∧ s.stages c ≠ .writing := by
      rw [hstage]
      exact ⟨rfl, by simp⟩
    cases howner : s.file.bind LockFile.owner with
    | none =>
      rw [howner] at h
      cases h
      exact ⟨_, _, .waited _ hold (nextAttempt_waits n), rfl⟩
    | some o =>
      rw [howner] at h
      cases h
      exact ⟨_, _, .waited _ hold ⟨rfl, by simp, by simp⟩, rfl⟩
  | removing n o =>
    rw [hstage] at h
    cases h
    exact ⟨_, _, .removed n o hstage, rfl⟩
  | releasing =>
    rw [hstage] at h
    dsimp only at h
    cases howner : s.file.bind LockFile.owner with
    | none =>
      rw [howner] at h
      cases h
      exact ⟨_, _, .lost hstage (by rw [howner]; simp), rfl⟩
    | some o =>
      rw [howner] at h
      cases h
      by_cases hid : o.id = c
      · rw [if_pos hid]
        exact ⟨_, _, .confirmed o hstage howner hid, rfl⟩
      · rw [if_neg hid]
        refine ⟨_, _, .lost hstage ?_, rfl⟩
        intro o' ho'
        rw [howner] at ho'
        cases ho'
        exact hid
  | unlinking =>
    rw [hstage] at h
    cases h
    exact ⟨_, _, .unlinked hstage, rfl⟩
  | idle | inspecting n o | mutating | ended =>
    rw [hstage] at h
    cases h

theorem step_cases {act : LockAct} (h : s.step dateParse processOf act = some t) :
    (∃ p, act = .crash p ∧ t = { s with alive := Function.update s.alive p false })
      ∨ ∃ c stage file, s.alive (processOf c) = true
        ∧ Moved processOf s c stage file ∧ t = { s with file }.goto c stage
        ∧ ∀ n o, s.stages c = .removing n o → act = .fs c := by
  cases act with
  | crash p =>
    cases h
    exact .inl ⟨p, rfl, rfl⟩
  | call c =>
    simp only [step] at h
    split at h
    · next hcall =>
      cases h
      refine .inr ⟨c, .opening 0, _, hcall.1, .waited _ ?_ ?_, rfl, ?_⟩
      · rw [hcall.2]
        exact ⟨rfl, by simp⟩
      · exact ⟨rfl, by simp, by simp⟩
      · intro n o hremoving
        rw [hcall.2] at hremoving
        cases hremoving
    · cases h
  | fs c =>
    simp only [step] at h
    split at h
    · next halive =>
      obtain ⟨stage, file, hmoved, ht⟩ := fsStep_moved h
      exact .inr ⟨c, stage, file, halive, hmoved, ht, fun _ _ _ => rfl⟩
    · cases h
  | inspect c live =>
    simp only [step] at h
    split at h
    · next n o hstage =>
      split at h
      · next hinspect =>
        cases h
        refine .inr ⟨c, _, s.file, hinspect.1, ?_, rfl, ?_⟩
        · rw [reclaimable_eq]
          by_cases hsame : live.any (sameProcessInstance dateParse o.processInstance.val) = true
          · rw [hsame]
            refine .waited _ ?_ (nextAttempt_waits n)
            rw [hstage]
            exact ⟨rfl, by simp⟩
          · have hfalse := Bool.eq_false_iff.2 hsame
            rw [hfalse]
            exact .condemned n o hstage (hinspect.2.symm.trans hfalse)
        · intro m o' hremoving
          rw [hstage] at hremoving
          cases hremoving
      · cases h
    · cases h
  | settle c =>
    simp only [step] at h
    split at h
    · next hsettle =>
      cases h
      refine .inr ⟨c, .releasing, s.file, hsettle.1, .settled hsettle.2, rfl, ?_⟩
      intro n o hremoving
      rw [hsettle.2] at hremoving
      cases hremoving
    · cases h

-- ===== exclusion

/-- A lock that is removed as stale is the one that was inspected. -/
def RemovesInspected (s : LockSystem) : LockAct → Prop
  | .fs c => ∀ n o, s.stages c = .removing n o → ∀ f ∈ s.file, f.owner = some o
  | _ => True

/-- What is true of a live call. -/
def StageInv (processOf : Nat → Process) (file : Option LockFile) (alive : Process → Bool) (c : Nat) :
    Stage → Prop
  | .writing => file = some { createdBy := c, owner := none }
  | .mutating | .releasing | .unlinking =>
    file = some { createdBy := c, owner := some { id := c, processInstance := processOf c } }
  | .removing _ o => alive o.processInstance = false
  | _ => True

def LockInv (processOf : Nat → Process) (s : LockSystem) : Prop :=
  ∀ c, s.alive (processOf c) = true → StageInv processOf s.file s.alive c (s.stages c)

def Stage.holds : Stage → Bool
  | .writing | .mutating | .releasing | .unlinking => true
  | _ => false

variable {file : Option LockFile} {alive : Process → Bool}

theorem StageInv.createdBy {stage : Stage} (h : StageInv processOf file alive c stage)
    (hholds : stage.holds = true) : ∃ f, file = some f ∧ f.createdBy = c := by
  cases stage with
  | writing | mutating | releasing | unlinking => exact ⟨_, h, rfl⟩
  | idle | opening | reading | inspecting | removing | ended => cases hholds

theorem StageInv.mono {file' : Option LockFile} {alive' : Process → Bool} {stage : Stage}
    (h : StageInv processOf file alive c stage) (halive : ∀ p, alive p = false → alive' p = false)
    (hfile : stage.holds = true → file' = file) : StageInv processOf file' alive' c stage := by
  cases stage with
  | writing | mutating | releasing | unlinking =>
    rw [hfile rfl]
    exact h
  | removing n o => exact halive _ h
  | idle | opening | reading | inspecting | ended => trivial

theorem LockInv.holds_unique (h : LockInv processOf s) (hc : s.alive (processOf c) = true)
    (hd : s.alive (processOf d) = true) (hcholds : (s.stages c).holds = true)
    (hdholds : (s.stages d).holds = true) : c = d := by
  obtain ⟨f, hf, rfl⟩ := (h c hc).createdBy hcholds
  obtain ⟨f', hf', rfl⟩ := (h d hd).createdBy hdholds
  rw [hf] at hf'
  rw [Option.some.inj hf']

theorem waits_inv {stage : Stage}
    (h : stage.acquired = false ∧ stage ≠ .writing ∧ ∀ n o, stage ≠ .removing n o) :
    StageInv processOf file alive c stage := by
  cases stage with
  | writing => exact absurd rfl h.2.1
  | mutating | releasing | unlinking => cases h.1
  | removing n o => exact absurd rfl (h.2.2 n o)
  | idle | opening | reading | inspecting | ended => trivial

theorem LockInv.moved {stage : Stage} (h : LockInv processOf s)
    (hc : s.alive (processOf c) = true) (hmoved : Moved processOf s c stage file)
    (hinspected : ∀ n o, s.stages c = .removing n o → ∀ f ∈ s.file, f.owner = some o) :
    StageInv processOf file s.alive c stage
    ∧ ∀ d, d ≠ c → s.alive (processOf d) = true → (s.stages d).holds = true → file = s.file := by
  have hown := h c hc
  have hnone : (s.stages c).holds = true →
      ∀ d, d ≠ c → s.alive (processOf d) = true → (s.stages d).holds = true → False :=
    fun hholds d hne hd hdholds => hne (h.holds_unique hd hc hdholds hholds)
  cases hmoved with
  | waited _ hold hnew => exact ⟨waits_inv hnew, fun _ _ _ _ => rfl⟩
  | condemned n o hold hdead => exact ⟨hdead, fun _ _ _ _ => rfl⟩
  | created n hold hfree =>
    refine ⟨rfl, ?_⟩
    intro d hne hd hdholds
    obtain ⟨f, hf, -⟩ := (h d hd).createdBy hdholds
    rw [hfree] at hf
    cases hf
  | labelled hold =>
    rw [hold] at hown hnone
    have hfile : s.file = some { createdBy := c, owner := none } := hown
    refine ⟨?_, fun d hne hd hdholds => (hnone rfl d hne hd hdholds).elim⟩
    rw [hfile, Option.map_some, if_pos rfl]
    rfl
  | removed n o hold =>
    refine ⟨waits_inv (nextAttempt_waits n), ?_⟩
    intro d hne hd hdholds
    rw [hold] at hown
    have hdead : s.alive o.processInstance = false := hown
    have hdown := h d hd
    have howner := hinspected n o hold
    exfalso
    cases hstage : s.stages d with
    | writing =>
      rw [hstage] at hdown
      have hnot := howner _ hdown
      cases hnot
    | mutating | releasing | unlinking =>
      rw [hstage] at hdown
      have hsame := howner _ hdown
      rw [← Option.some.inj hsame, hd] at hdead
      cases hdead
    | idle | opening | reading | inspecting | removing | ended =>
      rw [hstage] at hdholds
      cases hdholds
  | settled hold =>
    rw [hold] at hown
    exact ⟨hown, fun _ _ _ _ => rfl⟩
  | confirmed o hold howner hid =>
    rw [hold] at hown
    exact ⟨hown, fun _ _ _ _ => rfl⟩
  | lost hold hid => exact ⟨trivial, fun _ _ _ _ => rfl⟩
  | unlinked hold =>
    rw [hold] at hnone
    exact ⟨trivial, fun d hne hd hdholds => (hnone rfl d hne hd hdholds).elim⟩

/-- One step, by what it moves. -/
theorem LockInv.step {act : LockAct} (h : LockInv processOf s)
    (hstep : s.step dateParse processOf act = some t) (hinspected : RemovesInspected s act) :
    LockInv processOf t := by
  rcases step_cases hstep with ⟨p, rfl, rfl⟩ | ⟨c, stage, file, hc, hmoved, rfl, hact⟩
  · intro d hd
    have hd' : Function.update s.alive p false (processOf d) = true := hd
    have hdead : ∀ q, s.alive q = false → Function.update s.alive p false q = false := by
      intro q hq
      by_cases hqp : q = p
      · rw [hqp, Function.update_self]
      · rw [Function.update_of_ne hqp, hq]
    have hold : s.alive (processOf d) = true := by
      by_contra hnot
      rw [hdead _ (Bool.eq_false_iff.2 hnot)] at hd'
      cases hd'
    exact (h d hold).mono hdead fun _ => rfl
  · have hremoval : ∀ n o, s.stages c = .removing n o → ∀ f ∈ s.file, f.owner = some o := by
      intro n o hremoving
      have hfs := hact n o hremoving
      subst hfs
      exact hinspected n o hremoving
    obtain ⟨hown, hothers⟩ := h.moved hc hmoved hremoval
    intro d hd
    by_cases hdc : d = c
    · subst hdc
      rw [goto_self]
      exact hown
    · rw [goto_other _ _ hdc]
      exact (h d hd).mono (fun _ hdead => hdead) fun hholds => hothers d hdc hd hholds

theorem LockInv.initial : LockInv processOf LockSystem.initial :=
  fun _ _ => trivial

/-- A live call between acquiring and releasing the lock. -/
def Holding (processOf : Nat → Process) (s : LockSystem) (c : Nat) : Prop :=
  s.alive (processOf c) = true ∧ (s.stages c).acquired = true

theorem holds_of_acquired {stage : Stage} (h : stage.acquired = true) : stage.holds = true := by
  cases stage with
  | mutating | releasing | unlinking => rfl
  | idle | opening | writing | reading | inspecting | removing | ended => cases h

theorem exclusive {acts : List LockAct}
    (hrun : Run (Where (stepsOf (LockSystem.step dateParse processOf)) RemovesInspected)
      LockSystem.initial acts s) (hc : Holding processOf s c) (hd : Holding processOf s d) : c = d := by
  have hinv : LockInv processOf s :=
    hrun.invariant LockInv.initial fun h hstep => h.step hstep.1 hstep.2
  exact hinv.holds_unique hc.1 hd.1 (holds_of_acquired hc.2) (holds_of_acquired hd.2)

end OperatorRuntime.CoordinatorLock
