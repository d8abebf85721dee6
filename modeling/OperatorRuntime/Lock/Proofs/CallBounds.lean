/-
What a call of the lock comes to, whatever the other processes do. A round
of the loop is at most seven steps and there are at most a hundred rounds,
so a call ends after a bounded number of steps of its own, with the lock or
without (`call_returns`). A lock file that carries no owner, as a process
leaves it that dies between creating the file and writing into it, is never
taken for stale: nobody enters again (`unowned_lock_blocks`).
-/
import OperatorRuntime.Lock.Proofs.MutualExclusion

namespace OperatorRuntime.Lock

open Lib

-- ===== steps of a call

/-- A step of the call that the process is in. -/
def LockAct.isOwn (p : Process) : LockAct → Bool
  | .fs q _ | .observe q _ | .settle q => q == p
  | .call _ | .crash _ => false

/-- The steps of the rounds that may follow. -/
def laterRounds (attempt : Nat) : Nat := 7 * (maxAttempts - 1 - attempt)

/-- The steps a call may still take. -/
def Stage.rank : Stage → Nat
  | .idle => 0
  | .opening _ attempt => laterRounds attempt + 7
  | .writing _ attempt _ => laterRounds attempt + 6
  | .failedWrite _ attempt _ | .closing _ attempt => laterRounds attempt + 5
  | .inspecting _ attempt => laterRounds attempt + 4
  | .observing _ attempt _ => laterRounds attempt + 3
  | .rechecking _ attempt _ => laterRounds attempt + 2
  | .removing _ attempt _ => laterRounds attempt + 1
  | .callback _ => 3
  | .releasing _ => 2
  | .unlinking _ => 1

/-- The process has not created the file and is not about to remove it. -/
def Stage.waits : Stage → Bool
  | .idle | .opening .. | .inspecting .. | .observing .. | .rechecking .. => true
  | _ => false

section
variable {s t : LockSystem} {p : Process} {f : LockFile} {dateParse : DateParse}

/-- What a step of a call may do. Nobody acts who waits on a lock without an
owner. -/
inductive Stepped (s : LockSystem) (p : Process) : LockSystem → Prop
  | waits {stage : Stage} (hrank : stage.rank < (s.procs p).stage.rank)
      (hwaits : stage.waits = true) : Stepped s p (s.goto p stage)
  | acts {mid : LockSystem} {stage : Stage} (hprocs : mid.procs = s.procs)
      (hrank : stage.rank < (s.procs p).stage.rank)
      (hacts : ∀ f, s.file = some f → f.owner = none → (s.procs p).stage.waits = false) :
      Stepped s p (mid.goto p stage)

theorem nextAttempt_rank (token attempt : Nat) :
    (LockSystem.nextAttempt token attempt).rank ≤ laterRounds attempt := by
  unfold LockSystem.nextAttempt
  split
  · simp only [Stage.rank, laterRounds]
    omega
  · exact Nat.zero_le _

theorem Stepped.next {token attempt : Nat} (h : laterRounds attempt < (s.procs p).stage.rank) :
    Stepped s p (s.goto p (LockSystem.nextAttempt token attempt)) := by
  refine .waits ((nextAttempt_rank token attempt).trans_lt h) ?_
  unfold LockSystem.nextAttempt
  split
  · rfl
  · rfl

theorem remove_procs (outcome : Outcome) : (s.remove outcome).procs = s.procs := by
  unfold LockSystem.remove
  split
  · rfl
  · rfl

theorem fsStep_stepped {outcome : Outcome} (hstep : s.fsStep p outcome = some t) :
    Stepped s p t := by
  unfold LockSystem.fsStep at hstep
  cases hwork : (s.procs p).stage with
  | idle | observing | callback => simp [hwork] at hstep
  | opening token attempt =>
    simp only [hwork] at hstep
    split at hstep
    · next hfree =>
      cases hstep
      exact .acts rfl (by simp [hwork, Stage.rank]) fun f hfile => by simp [hfree] at hfile
    · cases hstep
      exact .waits (by simp [hwork, Stage.rank]) rfl
    · cases hstep
      exact .waits (by simp [hwork, Stage.rank]) rfl
    · cases hstep
      exact .waits (by simp [hwork, Stage.rank]) rfl
    · cases hstep
  | writing | closing =>
    simp only [hwork] at hstep
    cases outcome with
    | ok | denied | failed | late =>
      cases hstep
      exact .acts rfl (by simp [hwork, Stage.rank]) fun _ _ _ => by simp [hwork, Stage.waits]
  | failedWrite token attempt contention =>
    simp only [hwork, Option.some.injEq] at hstep
    subst hstep
    refine .acts (remove_procs outcome) ?_ fun _ _ _ => by simp [hwork, Stage.waits]
    rw [hwork]
    cases contention <;> simp [Stage.rank]
  | inspecting token attempt =>
    have hnext : Stepped s p (s.goto p (LockSystem.nextAttempt token attempt)) :=
      .next (by simp [hwork, Stage.rank])
    simp only [hwork] at hstep
    split at hstep
    · split at hstep
      · cases hstep
        exact .waits (by simp [hwork, Stage.rank]) rfl
      · cases hstep
        exact hnext
    · cases hstep
      exact hnext
  | rechecking token attempt previous =>
    have hnext : Stepped s p (s.goto p (LockSystem.nextAttempt token attempt)) :=
      .next (by simp [hwork, Stage.rank])
    simp only [hwork] at hstep
    split at hstep
    · next again howner =>
      split at hstep
      · cases hstep
        refine .acts rfl (by simp [hwork, Stage.rank]) fun f hfile hnone => ?_
        simp [LockSystem.lockOwner?, hfile, hnone] at howner
      · cases hstep
        exact hnext
    · cases hstep
      exact hnext
  | removing token attempt previous =>
    simp only [hwork, Option.some.injEq] at hstep
    subst hstep
    refine .acts (remove_procs outcome) ?_ fun _ _ _ => by simp [hwork, Stage.waits]
    rw [hwork]
    exact Nat.lt_succ_of_le (nextAttempt_rank token attempt)
  | releasing =>
    have hidle : Stepped s p (s.goto p .idle) := .waits (by simp [hwork, Stage.rank]) rfl
    simp only [hwork] at hstep
    split at hstep
    · split at hstep
      · cases hstep
        exact .acts rfl (by simp [hwork, Stage.rank]) fun _ _ _ => by simp [hwork, Stage.waits]
      · cases hstep
        exact hidle
    · cases hstep
      exact hidle
  | unlinking =>
    simp only [hwork, Option.some.injEq] at hstep
    subst hstep
    exact .acts (remove_procs outcome) (by simp [hwork, Stage.rank])
      fun _ _ _ => by simp [hwork, Stage.waits]

/-- What a step of the system may do. -/
inductive Moved (s : LockSystem) : LockAct → LockSystem → Prop
  | call (p : Process) : Moved s (.call p)
      (LockSystem.goto { s with issued := s.issued ++ [p] } p (.opening s.issued.length 0))
  | own {act : LockAct} {p : Process} {t : LockSystem} (hown : act.isOwn p = true)
      (halive : (s.procs p).alive = true) (hstepped : Stepped s p t) : Moved s act t
  | crash (p : Process) : Moved s (.crash p)
      { s with procs := Function.update s.procs p { s.procs p with alive := false } }

theorem step_moved {act : LockAct} (hstep : s.step dateParse act = some t) : Moved s act t := by
  cases act with
  | call p =>
    simp only [LockSystem.step] at hstep
    split at hstep
    · exact Option.some.inj hstep ▸ .call p
    · cases hstep
  | fs p outcome =>
    simp only [LockSystem.step] at hstep
    split at hstep
    · next halive => exact .own (p := p) (by simp [LockAct.isOwn]) halive (fsStep_stepped hstep)
    · cases hstep
  | observe p observation =>
    simp only [LockSystem.step] at hstep
    split at hstep
    · next token attempt previous halive hwork =>
      refine .own (p := p) (by simp [LockAct.isOwn]) halive ?_
      split at hstep
      · split at hstep
        · cases hstep
          exact .waits (by simp [hwork, Stage.rank]) rfl
        · cases hstep
          exact .next (by simp [hwork, Stage.rank])
      · cases hstep
    · cases hstep
  | settle p =>
    simp only [LockSystem.step] at hstep
    split at hstep
    · next token halive hwork =>
      cases hstep
      exact .own (p := p) (by simp [LockAct.isOwn]) halive
        (.acts rfl (by simp [hwork, Stage.rank]) fun _ _ _ => by simp [hwork, Stage.waits])
    · cases hstep
  | crash p =>
    simp only [LockSystem.step] at hstep
    split at hstep
    · exact Option.some.inj hstep ▸ .crash p
    · cases hstep

theorem goto_self {stage : Stage} : (s.goto p stage).procs p = { s.procs p with stage } := by
  simp [LockSystem.goto]

theorem goto_of_ne {q : Process} {stage : Stage} (h : q ≠ p) :
    (s.goto p stage).procs q = s.procs q := by
  simp [LockSystem.goto, Function.update_of_ne h]

-- ===== a call ends

theorem isOwn_unique {act : LockAct} {q : Process} (hp : act.isOwn p = true)
    (hq : act.isOwn q = true) : p = q := by
  cases act with
  | call | crash => cases hp
  | fs | observe | settle =>
    simp only [LockAct.isOwn, beq_iff_eq] at hp hq
    exact hp.symm.trans hq

theorem Stepped.rank (h : Stepped s p t) : (t.procs p).stage.rank < (s.procs p).stage.rank := by
  cases h with
  | waits hrank | acts _ hrank =>
    rw [goto_self]
    exact hrank

theorem Stepped.others (h : Stepped s p t) {q : Process} (hq : q ≠ p) : t.procs q = s.procs q := by
  cases h with
  | waits => exact goto_of_ne hq
  | acts hprocs => rw [goto_of_ne hq, hprocs]

theorem Moved.rank {act : LockAct} (h : Moved s act t) (hcall : act ≠ .call p) :
    [act].countP (LockAct.isOwn p) + (t.procs p).stage.rank ≤ (s.procs p).stage.rank := by
  rw [List.countP_singleton]
  cases h with
  | call q =>
    have hne : p ≠ q := fun h => hcall (h ▸ rfl)
    rw [goto_of_ne hne]
    exact (Nat.zero_add _).le
  | @own _ q _ hown _ hstepped =>
    by_cases hpq : p = q
    · obtain rfl := hpq
      have hrank := hstepped.rank
      rw [if_pos hown]
      omega
    · rw [if_neg fun h => hpq (isOwn_unique h hown), hstepped.others hpq]
      exact (Nat.zero_add _).le
  | crash q =>
    by_cases hpq : p = q
    · simp [hpq, LockAct.isOwn]
    · simp [LockAct.isOwn, Function.update_of_ne hpq]

theorem own_step_enabled (halive : (s.procs p).alive = true) (hbusy : (s.procs p).stage ≠ .idle) :
    ∃ act, act.isOwn p = true ∧ (s.step dateParse act).isSome = true := by
  have hself : (p == p) = true := by simp
  cases hwork : (s.procs p).stage with
  | idle => exact absurd hwork hbusy
  | opening =>
    exact ⟨.fs p .denied, hself, by simp [LockSystem.step, LockSystem.fsStep, halive, hwork]⟩
  | inspecting | rechecking | releasing =>
    exact ⟨.fs p .failed, hself, by simp [LockSystem.step, LockSystem.fsStep, halive, hwork]⟩
  | writing | failedWrite | closing | removing | unlinking =>
    exact ⟨.fs p .ok, hself, by simp [LockSystem.step, LockSystem.fsStep, halive, hwork]⟩
  | observing =>
    refine ⟨.observe p .unknown, hself, ?_⟩
    simp [LockSystem.step, halive, hwork, LockSystem.truthful, processInstanceDefinitelyStale]
  | callback => exact ⟨.settle p, hself, by simp [LockSystem.step, halive, hwork]⟩

-- ===== a lock without an owner

/-- The lock file stays, and no live process created it or is about to
remove one. -/
structure Blocked (f : LockFile) (s : LockSystem) : Prop where
  file : s.file = some f
  waits : ∀ p, (s.procs p).alive = true → (s.procs p).stage.waits = true

theorem Blocked.goto (h : Blocked f s) {u : LockSystem} {stage : Stage} (hfile : u.file = s.file)
    (hprocs : u.procs = s.procs) (hwaits : stage.waits = true) : Blocked f (u.goto p stage) := by
  refine ⟨hfile.trans h.file, fun q hq => ?_⟩
  by_cases hqp : q = p
  · rw [hqp, goto_self]
    exact hwaits
  · rw [goto_of_ne hqp, hprocs] at hq ⊢
    exact h.waits q hq

theorem Blocked.moved (h : Blocked f s) (howner : f.owner = none) {act : LockAct}
    (hmoved : Moved s act t) : Blocked f t := by
  cases hmoved with
  | call q => exact h.goto (u := { s with issued := s.issued ++ [q] }) rfl rfl rfl
  | @own _ q _ _ halive hstepped =>
    cases hstepped with
    | waits _ hwaits => exact h.goto rfl rfl hwaits
    | acts _ _ hacts =>
      have hacting := hacts f h.file howner
      rw [h.waits q halive] at hacting
      cases hacting
  | crash q =>
    refine ⟨h.file, fun p hp => ?_⟩
    by_cases hpq : p = q
    · simp [hpq] at hp
    · simp only [Function.update_of_ne hpq] at hp ⊢
      exact h.waits p hp

end

/-- Whatever the other processes do, a call is over after at most seven
hundred steps of its own, and until then it has a step to take. -/
theorem call_returns (dateParse : DateParse) {s s' t : LockSystem} {p : Process}
    {acts : List LockAct} (hcall : s.step dateParse (.call p) = some s')
    (hrun : Run (Where (stepsOf (LockSystem.step dateParse)) fun _ act => act ≠ .call p)
      s' acts t) : acts.countP (LockAct.isOwn p) ≤ 7 * maxAttempts
      ∧ ((t.procs p).alive = true → (t.procs p).stage ≠ .idle →
        ∃ act, act.isOwn p = true ∧ (t.step dateParse act).isSome = true) := by
  have hrank : acts.countP (LockAct.isOwn p) + (t.procs p).stage.rank
      ≤ (s'.procs p).stage.rank := by
    refine hrun.history (P := fun as u => as.countP (LockAct.isOwn p) + (u.procs p).stage.rank
      ≤ (s'.procs p).stage.rank) (by simp) fun hbefore hstep => ?_
    have hlast := (step_moved hstep.1).rank hstep.2
    rw [List.countP_append]
    omega
  have hstart : (s'.procs p).stage.rank = 7 * maxAttempts := by
    cases step_moved hcall with
    | call =>
      rw [goto_self]
      rfl
    | own hown => cases hown
  exact ⟨by omega, own_step_enabled⟩

/-- A lock file without an owner is never removed, in any run, as long as
no live process has created it or is about to remove one: nobody enters its
callback again. -/
theorem unowned_lock_blocks (dateParse : DateParse) {s t : LockSystem} {f : LockFile}
    {acts : List LockAct} (hfile : s.file = some f) (howner : f.owner = none)
    (hwaits : ∀ p, (s.procs p).alive = true → (s.procs p).stage.waits = true)
    (hrun : Run (stepsOf (LockSystem.step dateParse)) s acts t) :
    t.file = some f ∧ ∀ p, ¬ t.inCallback p := by
  have hblocked := hrun.invariant (I := Blocked f) ⟨hfile, hwaits⟩
    fun h hstep => h.moved howner (step_moved hstep)
  refine ⟨hblocked.file, ?_⟩
  rintro p ⟨halive, token, hstage⟩
  have hwait := hblocked.waits p halive
  rw [hstage] at hwait
  cases hwait

-- ===== samples

/-- A call on a free lock runs through, and always has a next step. -/
theorem call_returns_sample : ∃ s t,
    LockSystem.initial.step (fun _ => none) (.call (lockProcess 1)) = some s
      ∧ Run (Where (stepsOf (LockSystem.step fun _ => none)) fun _ act =>
          act ≠ .call (lockProcess 1)) s (enterFree (lockProcess 1)) t
      ∧ ∃ act, act.isOwn (lockProcess 1) = true ∧ (t.step (fun _ => none) act).isSome = true := by
  have hstart : ∃ s, LockSystem.initial.step (fun _ => none) (.call (lockProcess 1)) = some s
      ∧ ∃ t, exec (LockSystem.step fun _ => none) s (enterFree (lockProcess 1)) = some t
        ∧ (t.procs (lockProcess 1)).alive = true ∧ (t.procs (lockProcess 1)).stage ≠ .idle :=
    ⟨_, rfl, _, rfl, rfl, by decide⟩
  obtain ⟨s, hs, t, ht, halive, hbusy⟩ := hstart
  have hrun := run_where_of_exec ht (fun _ => by simp [enterFree] :
    ∀ _, ∀ act ∈ enterFree (lockProcess 1), act ≠ .call (lockProcess 1))
  exact ⟨s, t, hs, hrun, (call_returns _ hs hrun).2 halive hbusy⟩

/-- A process died before it wrote into the lock file. -/
def abandoned : LockSystem := { LockSystem.initial with file := some ⟨0, none⟩, nextInode := 1 }

/-- A call finds a lock without a token and leaves it there. -/
theorem unowned_lock_blocks_sample : ∃ t, Run (stepsOf (LockSystem.step fun _ => none)) abandoned
        [.call (lockProcess 2), .fs (lockProcess 2) .ok, .fs (lockProcess 2) .ok] t
      ∧ t.file = some ⟨0, none⟩ ∧ ∀ p, ¬ t.inCallback p := by
  obtain ⟨t, ht⟩ : ∃ t, exec (LockSystem.step fun _ => none) abandoned
      [.call (lockProcess 2), .fs (lockProcess 2) .ok, .fs (lockProcess 2) .ok] = some t :=
    ⟨_, rfl⟩
  exact ⟨t, run_of_exec ht,
    unowned_lock_blocks _ rfl rfl (fun _ _ => rfl) (run_of_exec ht)⟩

end OperatorRuntime.Lock
