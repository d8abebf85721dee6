/-
When the lock file excludes. A process that created the file holds the
path until it removes it, and the path is never free while a live
process holds it; so nobody else can create the file.

# The gap

A reclaimer checks that the file still carries the token of the dead
owner and then removes the path. Between the two, another reclaimer may
have removed that file and taken the lock, and then the first one removes
a live lock (`twoReclaimers`). `RemovesVerified` says that this does not
happen: what a reclaimer removes is what it verified. It is the only
condition.
-/
import OperatorRuntime.Lib.Runs
import OperatorRuntime.Lock.DurableStateLock

namespace OperatorRuntime.Lock

open Lib

-- ===== the invariant

/-- Stages in which the file at the path is the one this call created. -/
def Stage.holds : Stage → Bool
  | .writing .. | .failedWrite .. | .closing .. | .callback _
  | .releasing _ | .unlinking _ => true
  | _ => false

/-- What is true of a live process at each stage. -/
def StageInv (file : Option LockFile) (issued : List Process)
    (alive : Process → Bool) (p : Process) : Stage → Prop
  | .idle => True
  | .opening token _ | .inspecting token _ => issued[token]? = some p
  | .writing token _ inode =>
    issued[token]? = some p ∧ file = some { inode, owner := none }
  | .failedWrite token _ _ =>
    issued[token]? = some p ∧ ∃ f, file = some f
      ∧ (f.owner = none ∨ f.owner = some { token, processInstance := p })
  | .observing token _ previous =>
    issued[token]? = some p ∧ issued[previous.token]? = some previous.processInstance
  | .rechecking token _ previous | .removing token _ previous =>
    issued[token]? = some p ∧ issued[previous.token]? = some previous.processInstance
      ∧ alive previous.processInstance = false
  | .closing token _ | .callback token | .releasing token
  | .unlinking token =>
    issued[token]? = some p ∧ ∃ f, file = some f ∧ f.owner = some { token, processInstance := p }

structure LockInv (s : LockSystem) : Prop where
  /-- The owner in the file is the process that drew its token. -/
  owner : ∀ o ∈ s.lockOwner?, s.issued[o.token]? = some o.processInstance
  stage : ∀ p, (s.procs p).alive = true →
    StageInv s.file s.issued (fun q => (s.procs q).alive) p (s.procs p).stage
  single : ∀ p q, (s.procs p).alive = true → (s.procs q).alive = true →
    (s.procs p).stage.holds = true → (s.procs q).stage.holds = true → p = q

/-- What a reclaiming `rm` removes is the file it verified. -/
def RemovesVerified (s : LockSystem) : LockAct → Prop
  | .fs p outcome =>
    match (s.procs p).stage with
    | .removing _ _ previous =>
      outcome.effective = true → ∀ f ∈ s.file, f.owner.map (·.token) = some previous.token
    | _ => True
  | _ => True

section
variable {s t : LockSystem} {p : Process} {file file' : Option LockFile}
  {issued issued' : List Process} {alive alive' : Process → Bool}

theorem StageInv.mono {stage : Stage} (h : StageInv file issued alive p stage)
    (hissued : ∀ (n : Nat) q, issued[n]? = some q → issued'[n]? = some q)
    (halive : ∀ q, alive q = false → alive' q = false)
    (hfile : stage.holds = true → file' = file) :
    StageInv file' issued' alive' p stage := by
  cases stage with
  | idle => trivial
  | opening | inspecting => exact hissued _ _ h
  | writing | failedWrite | closing | callback | releasing | unlinking =>
    rw [hfile rfl]
    exact ⟨hissued _ _ h.1, h.2⟩
  | observing => exact ⟨hissued _ _ h.1, hissued _ _ h.2⟩
  | rechecking | removing =>
    exact ⟨hissued _ _ h.1, hissued _ _ h.2.1, halive _ h.2.2⟩

theorem StageInv.nextAttempt {token : Nat} (attempt : Nat) (h : issued[token]? = some p) :
    StageInv file issued alive p (LockSystem.nextAttempt token attempt) := by
  unfold LockSystem.nextAttempt
  split
  · exact h
  · trivial

@[simp] theorem nextAttempt_holds (token attempt : Nat) :
    (LockSystem.nextAttempt token attempt).holds = false := by
  unfold LockSystem.nextAttempt
  split
  · rfl
  · rfl

theorem LockInv.goto (h : LockInv s) {stage : Stage} (hprocs : t.procs = s.procs)
    (hissued : ∀ (n : Nat) q, s.issued[n]? = some q → t.issued[n]? = some q)
    (howner : ∀ o ∈ t.lockOwner?, t.issued[o.token]? = some o.processInstance)
    (hstage : StageInv t.file t.issued (fun q => (s.procs q).alive) p stage)
    (hother : ∀ q, q ≠ p → (s.procs q).alive = true → (s.procs q).stage.holds = true →
        t.file = s.file ∧ stage.holds = false) : LockInv (t.goto p stage) := by
  have hself : (t.goto p stage).procs p = { s.procs p with stage } := by
    simp [LockSystem.goto, hprocs]
  have hne : ∀ q, q ≠ p → (t.goto p stage).procs q = s.procs q := by
    intro q hq
    simp [LockSystem.goto, hprocs, Function.update_of_ne hq]
  have halive : ∀ q, ((t.goto p stage).procs q).alive = (s.procs q).alive := by
    intro q
    by_cases hq : q = p
    · rw [hq, hself]
    · rw [hne q hq]
  refine ⟨howner, ?_, ?_⟩
  · intro q hq
    rw [halive] at hq
    simp only [halive]
    by_cases heq : q = p
    · rw [heq, hself]
      exact hstage
    · rw [hne q heq]
      exact (h.stage q hq).mono hissued (fun _ h => h)
        fun hholds => (hother q heq hq hholds).1
  · intro q r hq hr hqholds hrholds
    rw [halive] at hq hr
    by_cases hqp : q = p
    · by_cases hrp : r = p
      · rw [hqp, hrp]
      · rw [hqp, hself] at hqholds
        rw [hne r hrp] at hrholds
        rw [(hother r hrp hr hrholds).2] at hqholds
        cases hqholds
    · by_cases hrp : r = p
      · rw [hrp, hself] at hrholds
        rw [hne q hqp] at hqholds
        rw [(hother q hqp hq hqholds).2] at hrholds
        cases hrholds
      · rw [hne q hqp] at hqholds
        rw [hne r hrp] at hrholds
        exact h.single q r hq hr hqholds hrholds

theorem LockInv.move (h : LockInv s) (hp : (s.procs p).alive = true) {stage : Stage}
    (hstage : StageInv s.file s.issued (fun q => (s.procs q).alive) p stage)
    (hholds : stage.holds = true → (s.procs p).stage.holds = true) : LockInv (s.goto p stage) := by
  apply h.goto rfl (fun _ _ h => h) h.owner hstage
  intro q hq halive hqholds
  refine ⟨rfl, ?_⟩
  by_contra hnew
  exact hq (h.single q p halive hp hqholds (hholds (by simpa using hnew)))

theorem LockInv.remove (h : LockInv s) (hp : (s.procs p).alive = true)
    {stage : Stage} (outcome : Outcome) (hholds : stage.holds = false)
    (hstage : StageInv none s.issued (fun q => (s.procs q).alive) p stage)
    (hstage' : StageInv s.file s.issued (fun q => (s.procs q).alive) p stage)
    (hfree : outcome.effective = true → ∀ q, q ≠ p →
      (s.procs q).alive = true → (s.procs q).stage.holds = false) :
    LockInv ((s.remove outcome).goto p stage) := by
  unfold LockSystem.remove
  split
  · next heffective =>
    apply h.goto (t := { s with file := none }) rfl (fun _ _ h => h)
      (fun _ ho => nomatch ho) hstage
    intro q hq halive hqholds
    rw [hfree heffective q hq halive] at hqholds
    cases hqholds
  · exact h.move hp hstage' fun hnew => absurd (hholds.symm.trans hnew) (by simp)

theorem LockInv.others_free (h : LockInv s) (hp : (s.procs p).alive = true)
    (hholds : (s.procs p).stage.holds = true) :
    ∀ q, q ≠ p → (s.procs q).alive = true → (s.procs q).stage.holds = false := by
  intro q hq halive
  by_contra hqholds
  exact hq (h.single q p halive hp (by simpa using hqholds) hholds)

theorem LockInv.held_file (h : LockInv s) (hp : (s.procs p).alive = true)
    (hholds : (s.procs p).stage.holds = true) :
    ∃ f, s.file = some f ∧ (f.owner = none ∨ ∃ token, s.issued[token]? = some p
        ∧ f.owner = some { token, processInstance := p }) := by
  have hstage := h.stage p hp
  cases hwork : (s.procs p).stage with
  | writing token attempt inode =>
    rw [hwork] at hstage
    exact ⟨_, hstage.2, .inl rfl⟩
  | failedWrite token attempt contention =>
    rw [hwork] at hstage
    obtain ⟨hissued, f, hfile, howner⟩ := hstage
    exact ⟨f, hfile, howner.imp_right fun hown => ⟨token, hissued, hown⟩⟩
  | closing token | callback token | releasing token | unlinking token =>
    rw [hwork] at hstage
    obtain ⟨hissued, f, hfile, howner⟩ := hstage
    exact ⟨f, hfile, .inr ⟨token, hissued, howner⟩⟩
  | _ => simp [hwork, Stage.holds] at hholds

theorem LockInv.writeOwner (h : LockInv s) (hp : (s.procs p).alive = true)
    {token attempt inode : Nat}
    (hwork : (s.procs p).stage = .writing token attempt inode) {stage : Stage}
    (hstage : StageInv (some ⟨inode, some ⟨token, p⟩⟩) s.issued
      (fun q => (s.procs q).alive) p stage) :
    LockInv ((s.writeOwner inode ⟨token, p⟩).goto p stage) := by
  have hcurrent := h.stage p hp
  rw [hwork] at hcurrent
  obtain ⟨hissued, hfile⟩ := hcurrent
  have hwritten : (s.writeOwner inode ⟨token, p⟩).file = some ⟨inode, some ⟨token, p⟩⟩ := by
    simp [LockSystem.writeOwner, hfile]
  apply h.goto (t := s.writeOwner inode ⟨token, p⟩) rfl (fun _ _ h => h)
  · intro o ho
    rw [LockSystem.lockOwner?, hwritten] at ho
    cases ho
    exact hissued
  · rw [hwritten]
    exact hstage
  · intro q hq halive hqholds
    rw [h.others_free hp (by rw [hwork]; rfl) q hq halive] at hqholds
    cases hqholds

theorem LockInv.removing_free (h : LockInv s) (hp : (s.procs p).alive = true)
    {token attempt : Nat} {previous : LockOwner}
    (hwork : (s.procs p).stage = .removing token attempt previous)
    (hverified : ∀ f ∈ s.file, f.owner.map (·.token) = some previous.token) :
    ∀ q, (s.procs q).alive = true → (s.procs q).stage.holds = false := by
  have hcurrent := h.stage p hp
  rw [hwork] at hcurrent
  obtain ⟨_, hprevious, hdead⟩ := hcurrent
  intro q halive
  by_contra hqholds
  obtain ⟨f, hfile, hunwritten | ⟨mine, hissued, howner⟩⟩ :=
    h.held_file halive (by simpa using hqholds)
  · have hsame := hverified f hfile
    rw [hunwritten] at hsame
    cases hsame
  · have hsame := hverified f hfile
    rw [howner] at hsame
    simp only [Option.map_some, Option.some.injEq] at hsame
    rw [hsame, hprevious] at hissued
    simp only [Option.some.injEq] at hissued
    rw [← hissued] at halive
    exact absurd (hdead.symm.trans halive) (by simp)

-- === every step keeps it

theorem LockInv.fsStep (h : LockInv s) (hp : (s.procs p).alive = true)
    {outcome : Outcome} (hcond : RemovesVerified s (.fs p outcome))
    (hstep : s.fsStep p outcome = some t) : LockInv t := by
  have hcurrent := h.stage p hp
  have hfree := h.others_free hp
  unfold LockSystem.fsStep at hstep
  cases hwork : (s.procs p).stage with
  | idle | observing | callback => simp [hwork] at hstep
  | opening token attempt =>
    rw [hwork] at hcurrent
    simp only [hwork] at hstep
    split at hstep
    · next hfile =>
      cases hstep
      refine h.goto (t := { s with
        file := some ⟨s.nextInode, none⟩, nextInode := s.nextInode + 1 })
        rfl (fun _ _ h => h) (fun o ho => nomatch ho) ?_ ?_
      · exact ⟨hcurrent, rfl⟩
      intro q _ halive hqholds
      obtain ⟨f, hsome, _⟩ := h.held_file halive hqholds
      rw [hfile] at hsome
      cases hsome
    · cases hstep
      exact h.move hp hcurrent fun hnew => nomatch hnew
    · cases hstep
      exact h.move hp hcurrent fun hnew => nomatch hnew
    · cases hstep
      exact h.move hp trivial fun hnew => nomatch hnew
    · cases hstep
  | writing token attempt inode =>
    rw [hwork] at hcurrent
    simp only [hwork] at hstep
    have hfailed : StageInv s.file s.issued (fun q => (s.procs q).alive) p
        (.failedWrite token attempt true) :=
      ⟨hcurrent.1, _, hcurrent.2, .inl rfl⟩
    cases outcome with
    | ok =>
      cases hstep
      exact h.writeOwner hp hwork ⟨hcurrent.1, _, rfl, rfl⟩
    | denied =>
      cases hstep
      exact h.move hp hfailed fun _ => by rw [hwork]; rfl
    | failed =>
      cases hstep
      exact h.move hp hfailed fun _ => by rw [hwork]; rfl
    | late =>
      cases hstep
      exact h.writeOwner hp hwork ⟨hcurrent.1, _, rfl, .inr rfl⟩
  | failedWrite token attempt contention =>
    rw [hwork] at hcurrent
    simp only [hwork, Option.some.injEq] at hstep
    subst hstep
    have hstage : ∀ file, StageInv file s.issued (fun q => (s.procs q).alive) p
        (if contention = true then .inspecting token attempt else .idle) := by
      intro file
      split
      · exact hcurrent.1
      · trivial
    refine h.remove hp outcome ?_ (hstage _) (hstage _)
      fun _ => hfree (by rw [hwork]; rfl)
    split
    · rfl
    · rfl
  | closing token attempt =>
    rw [hwork] at hcurrent
    simp only [hwork] at hstep
    cases outcome with
    | ok =>
      cases hstep
      exact h.move hp hcurrent fun _ => by rw [hwork]; rfl
    | denied =>
      cases hstep
      exact h.move hp hcurrent.1 fun hnew => nomatch hnew
    | failed | late =>
      cases hstep
      exact h.move hp trivial fun hnew => nomatch hnew
  | inspecting token attempt =>
    rw [hwork] at hcurrent
    have hnext := h.move hp (StageInv.nextAttempt attempt hcurrent) (by simp)
    simp only [hwork] at hstep
    split at hstep
    · next previous howner =>
      split at hstep
      · cases hstep
        exact h.move hp ⟨hcurrent, h.owner previous howner⟩
          fun hnew => nomatch hnew
      · cases hstep
        exact hnext
    · cases hstep
      exact hnext
  | rechecking token attempt previous =>
    rw [hwork] at hcurrent
    have hnext := h.move hp (StageInv.nextAttempt attempt hcurrent.1) (by simp)
    simp only [hwork] at hstep
    split at hstep
    · split at hstep
      · cases hstep
        exact h.move hp hcurrent fun hnew => nomatch hnew
      · cases hstep
        exact hnext
    · cases hstep
      exact hnext
  | removing token attempt previous =>
    rw [hwork] at hcurrent
    simp only [hwork, Option.some.injEq] at hstep
    subst hstep
    refine h.remove hp outcome (nextAttempt_holds _ _)
      (StageInv.nextAttempt attempt hcurrent.1)
      (StageInv.nextAttempt attempt hcurrent.1) ?_
    intro heffective q _ halive
    simp only [RemovesVerified, hwork] at hcond
    exact h.removing_free hp hwork (hcond heffective) q halive
  | releasing token =>
    rw [hwork] at hcurrent
    have hidle : LockInv (s.goto p .idle) :=
      h.move hp trivial fun hnew => nomatch hnew
    simp only [hwork] at hstep
    split at hstep
    · split at hstep
      · cases hstep
        exact h.move hp hcurrent fun _ => by rw [hwork]; rfl
      · cases hstep
        exact hidle
    · cases hstep
      exact hidle
  | unlinking token =>
    simp only [hwork, Option.some.injEq] at hstep
    subst hstep
    exact h.remove hp outcome rfl trivial trivial
      fun _ => hfree (by rw [hwork]; rfl)

theorem LockInv.crash (h : LockInv s) (hfile : t.file = s.file) (hissued : t.issued = s.issued)
    (hliving : ∀ q, (t.procs q).alive = true → t.procs q = s.procs q) :
    LockInv t := by
  refine ⟨?_, ?_, ?_⟩
  · unfold LockSystem.lockOwner?
    rw [hfile, hissued]
    exact h.owner
  · intro q hq
    have hsame := hliving q hq
    rw [hsame] at hq ⊢
    apply (h.stage q hq).mono
    · rw [hissued]
      exact fun _ _ h => h
    · intro r hr
      by_contra halive
      have halive : (t.procs r).alive = true := by simpa using halive
      rw [hliving r halive, hr] at halive
      cases halive
    · exact fun _ => hfile
  · intro q r hq hr
    have hqsame := hliving q hq
    have hrsame := hliving r hr
    rw [hqsame] at hq ⊢
    rw [hrsame] at hr ⊢
    exact h.single q r hq hr

theorem dead_of_stale {dateParse : DateParse} {process : Process}
    {observation : ProcessInstanceObservation}
    (htrue : s.truthful dateParse process observation = true)
    (hstale : processInstanceDefinitelyStale dateParse (some process)
      observation = true) : (s.procs process).alive = false := by
  cases observation with
  | dead => simpa [LockSystem.truthful] using htrue
  | unknown => simp [processInstanceDefinitelyStale] at hstale
  | live identity =>
    cases identity with
    | none => simp [processInstanceDefinitelyStale] at hstale
    | some identity =>
      simp only [processInstanceDefinitelyStale] at hstale
      split at hstale
      · cases hstale
      · have hdifferent : sameProcessInstance dateParse process identity
            = false := by simpa using hstale
        simpa [LockSystem.truthful, hdifferent] using htrue

/-- One step, by the stage of the process that takes it; only the removal of a
lock needs the condition. -/
theorem LockInv.step (h : LockInv s) {dateParse : DateParse} {act : LockAct}
    (hcond : RemovesVerified s act) (hstep : s.step dateParse act = some t) : LockInv t := by
  cases act with
  | call p =>
    simp only [LockSystem.step] at hstep
    split at hstep
    · next hidle =>
      cases hstep
      have hissued : ∀ (n : Nat) q, s.issued[n]? = some q → (s.issued ++ [p])[n]? = some q := by
        intro n q hq
        rw [List.getElem?_append_left (List.getElem?_eq_some_iff.1 hq).1]
        exact hq
      apply h.goto (t := { s with issued := s.issued ++ [p] }) rfl
        hissued (fun o ho => hissued _ _ (h.owner o ho))
      · show (s.issued ++ [p])[s.issued.length]? = some p
        simp
      · exact fun _ _ _ _ => ⟨rfl, rfl⟩
    · cases hstep
  | fs p outcome =>
    simp only [LockSystem.step] at hstep
    split at hstep
    · next hp => exact h.fsStep hp hcond hstep
    · cases hstep
  | observe p observation =>
    simp only [LockSystem.step] at hstep
    split at hstep
    · next token attempt previous hp hwork =>
      have hcurrent := h.stage p hp
      rw [hwork] at hcurrent
      split at hstep
      · next htrue =>
        split at hstep
        · next hstale =>
          cases hstep
          exact h.move hp ⟨hcurrent.1, hcurrent.2, dead_of_stale htrue hstale⟩
            fun hnew => nomatch hnew
        · cases hstep
          exact h.move hp (StageInv.nextAttempt attempt hcurrent.1) (by simp)
      · cases hstep
    · cases hstep
  | settle p =>
    simp only [LockSystem.step] at hstep
    split at hstep
    · next token hp hwork =>
      cases hstep
      have hcurrent := h.stage p hp
      rw [hwork] at hcurrent
      exact h.move hp hcurrent fun _ => by rw [hwork]; rfl
    · cases hstep
  | crash p =>
    simp only [LockSystem.step] at hstep
    split at hstep
    · cases hstep
      refine h.crash rfl rfl fun q hq => ?_
      by_cases heq : q = p
      · simp [heq] at hq
      · exact Function.update_of_ne heq _ _
    · cases hstep

theorem LockInv.initial : LockInv LockSystem.initial where
  owner := fun _ ho => nomatch ho
  stage := fun _ _ => trivial
  single := fun _ _ _ _ hp => nomatch hp

end

-- ===== the main result

/-- A live process inside its callback. -/
def LockSystem.inCallback (s : LockSystem) (p : Process) : Prop :=
  (s.procs p).alive = true ∧ ∃ token, (s.procs p).stage = .callback token

/-- In every run, with any number of processes, interleaving, crashes and
failing file-system calls, in which a reclaiming `rm` removes the file it
verified: at most one live process is inside its callback. -/
theorem lock_mutual_exclusion (dateParse : DateParse) (acts : List LockAct) (s : LockSystem)
    (hrun : Run (Where (stepsOf (LockSystem.step dateParse)) RemovesVerified)
      LockSystem.initial acts s) : ∀ p q, s.inCallback p → s.inCallback q → p = q := by
  have hinv : LockInv s := hrun.invariant LockInv.initial
    fun h hstep => h.step hstep.2 hstep.1
  rintro p q ⟨hp, token, hpstage⟩ ⟨hq, token', hqstage⟩
  exact hinv.single p q hp hq (by rw [hpstage]; rfl) (by rw [hqstage]; rfl)

-- ----------------------------------------------------------- two reclaimers

/-- Three processes of one host. -/
def lockProcess (pid : Nat) : Process :=
  { pid, started := "ps-lstart:Mon Jan  5 10:00:00 2026" }

/-- `p` calls, creates the file, writes its token and enters. -/
def enterFree (p : Process) : List LockAct :=
  [.fs p .ok, .fs p .ok, .fs p .ok]

/-- `p` calls, finds a lock and verifies that its owner is dead. -/
def verifyStale (p : Process) : List LockAct :=
  [.call p, .fs p .ok, .fs p .ok, .observe p .dead, .fs p .ok]

/-- Process 1 dies inside its callback. Processes 2 and 3 both verify its
token; 2 removes the file and enters, then 3 removes the file of 2 and
enters too. -/
def twoReclaimers : List LockAct :=
  [LockAct.call (lockProcess 1)] ++ enterFree (lockProcess 1) ++ [LockAct.crash (lockProcess 1)]
    ++ verifyStale (lockProcess 2) ++ verifyStale (lockProcess 3)
    ++ [LockAct.fs (lockProcess 2) .ok] ++ enterFree (lockProcess 2)
    ++ [LockAct.fs (lockProcess 3) .ok] ++ enterFree (lockProcess 3)

/-- Both reclaimers are inside the callback. -/
theorem twoReclaimers_both_enter :
    ∃ s, Run (stepsOf (LockSystem.step fun _ => none)) LockSystem.initial twoReclaimers s
    ∧ s.inCallback (lockProcess 2) ∧ s.inCallback (lockProcess 3)
    ∧ lockProcess 2 ≠ lockProcess 3 := by
  have hstate : (exec (LockSystem.step fun _ => none) LockSystem.initial
      twoReclaimers).map (fun s =>
        ((s.procs (lockProcess 2)).alive, (s.procs (lockProcess 2)).stage,
          (s.procs (lockProcess 3)).alive, (s.procs (lockProcess 3)).stage))
      = some (true, .callback 1, true, .callback 2) := by
    decide
  obtain ⟨s, hexec, hs⟩ := Option.map_eq_some_iff.1 hstate
  simp only [Prod.mk.injEq] at hs
  exact ⟨s, run_of_exec hexec, ⟨hs.1, 1, hs.2.1⟩, ⟨hs.2.2.1, 2, hs.2.2.2⟩, by decide⟩

/-- One reclaimer alone takes over from the dead process. -/
def oneReclaimer : List LockAct :=
  [LockAct.call (lockProcess 1)] ++ enterFree (lockProcess 1) ++ [LockAct.crash (lockProcess 1)]
    ++ verifyStale (lockProcess 2) ++ [LockAct.fs (lockProcess 2) .ok]
    ++ enterFree (lockProcess 2) ++ [LockAct.call (lockProcess 3)]

instance (s : LockSystem) (act : LockAct) : Decidable (RemovesVerified s act) :=
  match act with
  | .fs p outcome =>
    match hstage : (s.procs p).stage with
    | .removing _ _ previous =>
      decidable_of_iff (outcome.effective = true → ∀ f ∈ s.file,
        f.owner.map (·.token) = some previous.token)
        (by simp [RemovesVerified, hstage])
    | .idle | .opening .. | .writing .. | .failedWrite .. | .closing ..
    | .inspecting .. | .observing .. | .rechecking .. | .callback ..
    | .releasing .. | .unlinking .. =>
      isTrue (by simp [RemovesVerified, hstage])
  | .call _ | .observe .. | .settle _ | .crash _ => isTrue trivial

/-- With one reclaimer the callback is entered alone. -/
theorem lock_mutual_exclusion_oneReclaimer :
    ∃ s, Run (Where (stepsOf (LockSystem.step fun _ => none)) RemovesVerified)
        LockSystem.initial oneReclaimer s ∧ s.inCallback (lockProcess 2)
      ∧ ∀ p, s.inCallback p → p = lockProcess 2 := by
  have hstate : (exec (guarded (LockSystem.step fun _ => none) RemovesVerified)
      LockSystem.initial oneReclaimer).map (fun s =>
        ((s.procs (lockProcess 2)).alive, (s.procs (lockProcess 2)).stage))
      = some (true, .callback 1) := by
    decide
  obtain ⟨s, hexec, hs⟩ := Option.map_eq_some_iff.1 hstate
  simp only [Prod.mk.injEq] at hs
  have hrun := run_where_of_guarded hexec
  have hinside : s.inCallback (lockProcess 2) := ⟨hs.1, 1, hs.2⟩
  exact ⟨s, hrun, hinside, fun p hp => lock_mutual_exclusion _ _ _ hrun p _ hp hinside⟩

end OperatorRuntime.Lock
