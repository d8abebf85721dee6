/-
How the state of a mission moves: terminal states, and the state a pause
leaves.

# Terminal states

VERIFIED and CANCELLED leave no item engaged, so nothing moves them. A
FAILED mission may still have leases, and neither `fail` nor `complete`
nor `reconcile` looks at the state of the mission before it writes one:
an uncertain failure makes it BLOCKED, and the completion of the last open
item makes it VERIFIED or BLOCKED (`failed_mission_moves`).

# After a pause

A pause ends every lease, and nothing but `start` and `resume` gives a new
one (`Halted`). Reaping, though, rewrites PAUSED to BLOCKED where a
resource is uncertain, and `reconcile` makes a BLOCKED mission RUNNING
when it settles the last uncertain resource (`pause_undone`).
-/
import OperatorRuntime.Team.Proofs.LockRuns

namespace OperatorRuntime.Team

open Lib (Run Where stepsOf)

-- ===== terminal states

/-- The named item is the only one that is not completed. -/
def OnlyOpen (m : TeamMission) (workItemId : String) : Bool :=
  match requireWorkItem m workItemId with
  | .error _ => false
  | .ok item => item.state ≠ .completed && m.workItems.all fun other =>
    other.key == item.key || other.state == .completed

def NamesLeased (m : TeamMission) (workItemId : String) : Bool :=
  match requireWorkItem m workItemId with
  | .error _ => false
  | .ok item => item.state == .leased

/-- The operations that write a state of the mission without looking at
the one it has: a `fail` of a leased item that reports uncertain side
effects, and a `complete` or `reconcile` that completes the last open
item. -/
def TeamOp.overwrites (m : TeamMission) : TeamOp → Bool
  | .fail input => input.sideEffectState == .uncertain && NamesLeased m input.workItemId
  | .complete input _ _ _ => OnlyOpen m input.workItemId
  | .reconcile input => input.resolution == .completed && OnlyOpen m input.workItemId
  | _ => false

/-- No such operation meets a failed mission. -/
def StaysFailed (w : TeamWorld) (act : TeamAct) : Prop :=
  w.mission.state = .failed → act.op.overwrites w.mission = false

instance (w : TeamWorld) (act : TeamAct) : Decidable (StaysFailed w act) :=
  inferInstanceAs (Decidable (_ → _))

section
variable {env : TeamEnv} {r : Readings} {op : TeamOp} {m m' m₁ : TeamMission}
  {item : TeamWorkItem} {now : Instant}

theorem requireWorkItem_of_reaped {id : String} {lease : TeamLease}
    (hreaped : Reaped now m m₁) (hok : requireWorkItem m₁ id = .ok item)
    (hlease : item.lease = some lease) : requireWorkItem m id = .ok item := by
  unfold requireWorkItem at hok ⊢
  obtain ⟨value, hvalue, hok⟩ := bind_eq_ok.1 hok
  refine bind_eq_ok.2 ⟨value, hvalue, ?_⟩
  have hsame : m₁.workItems.find? (fun item => item.id == value.val)
      = (m.workItems.find? fun item => item.id == value.val).map fun item =>
        if item.lapsed now then item.expired else item := by
    rw [hreaped.items, List.find?_map]
    congr 2
    funext other
    rw [Function.comp_apply]
    split <;> rfl
  rw [hsame] at hok
  cases hfind : m.workItems.find? fun item => item.id == value.val with
  | none =>
    rw [hfind] at hok
    cases hok
  | some old =>
    rw [hfind] at hok
    cases hok
    dsimp only at hlease ⊢
    by_cases hlapsed : old.lapsed now = true
    · rw [if_pos hlapsed] at hlease
      cases hlease
    · rw [if_neg hlapsed]

theorem completed_of_reaped (hreaped : Reaped now m m₁)
    (hall : ∀ other ∈ m₁.workItems, other.key ≠ item.key → other.state = .completed) :
    ∀ other ∈ m.workItems, other.key ≠ item.key → other.state = .completed := by
  intro other hother hkey
  have hmem : (if other.lapsed now then other.expired else other)
      ∈ m₁.workItems := by
    rw [hreaped.items]
    exact List.mem_map_of_mem (f := fun item =>
      if item.lapsed now then item.expired else item) hother
  split at hmem
  · have hstate := hall _ hmem hkey
    rcases expired_state other with h | h <;> rw [h] at hstate <;>
      cases hstate
  · exact hall other hmem hkey

theorem onlyOpen_eq_true {id : String} (hok : requireWorkItem m id = .ok item)
    (hopen : item.state ≠ .completed) (hall : ∀ other ∈ m.workItems, other.key ≠ item.key →
      other.state = .completed) : OnlyOpen m id = true := by
  unfold OnlyOpen
  rw [hok]
  simp only [Bool.and_eq_true, List.all_eq_true, Bool.or_eq_true, beq_iff_eq]
  refine ⟨by simpa using hopen, fun other hother => ?_⟩
  by_cases hkey : other.key = item.key
  · exact .inl hkey
  · exact .inr (hall other hother hkey)

theorem finalize_state_of_open (hopen : ∃ item ∈ m.workItems,
    item.state ≠ .completed) : (finalizeIfVerified m).state = m.state := by
  obtain ⟨item, hitem, hstate⟩ := hopen
  unfold finalizeIfVerified
  rw [if_pos (List.any_eq_true.2 ⟨item, hitem, by simpa using hstate⟩)]

theorem Reaped.state_of_terminal (hreaped : Reaped now m m₁)
    (hterminal : m.state.terminal = true) : m₁.state = m.state := by
  rw [hreaped.state, if_neg]
  rintro ⟨_, hnot⟩
  rw [hterminal] at hnot
  cases hnot

theorem failed_of_live (hterminal : m.state.terminal = true)
    (hlive : m.state ≠ .verified ∧ m.state ≠ .cancelled) : m.state = .failed := by
  cases h : m.state <;> rw [h] at hterminal hlive <;> simp_all
  all_goals cases hterminal

theorem Change.open_left {item' : TeamWorkItem}
    {h : TeamResource → TeamResource} (hchange : Change m m' item item' h)
    (hopen : item'.state ≠ .completed ∨ ¬ ∀ other ∈ m.workItems,
      other.key ≠ item.key → other.state = .completed) :
    ∃ item ∈ m'.workItems, item.state ≠ .completed := by
  rcases hopen with hnew | hothers
  · exact ⟨item', hchange.mem_items.2 (.inl rfl), hnew⟩
  · push Not at hothers
    obtain ⟨other, hother, hkey, hstate⟩ := hothers
    exact ⟨other, hchange.mem_items.2 (.inr ⟨hother, hkey⟩), hstate⟩

/-- A terminal mission stays as it ended. -/
theorem Effect.terminal (heffect : Effect env r m op m') (hinv : TeamInv m)
    (hterminal : m.state.terminal = true) (hstays : m.state = .failed → op.overwrites m = false) :
    m'.state = m.state := by
  have hnot : ∀ {s : TeamMissionState}, m.state = s → s.terminal = false → False := by
    intro s hs hfalse
    rw [hs, hfalse] at hterminal
    cases hterminal
  cases heffect with
  | quiet _ _ hstate => exact hstate
  | reaped _ _ hreaped _ _ hstate =>
    exact hstate.trans (hreaped.state_of_terminal hterminal)
  | started hreaped hopen _ _ =>
    rw [hreaped.state_of_terminal hterminal] at hopen
    exact (hnot rfl hopen).elim
  | paused hopen _ _ _ =>
    rcases hopen with h | h <;> exact (hnot h rfl).elim
  | resumed hopen _ _ =>
    rcases hopen with h | h <;> exact (hnot h rfl).elim
  | cancelled hopen _ _ _ _ _ => exact (hnot rfl hopen).elim
  | stopped _ _ hreaped hrunning _ _ =>
    rw [hreaped.state_of_terminal hterminal] at hrunning
    exact (hnot hrunning rfl).elim
  | extended _ _ hreaped _ _ hstate =>
    exact hstate.trans (hreaped.state_of_terminal hterminal)
  | exhausted hreaped hrunning _ _ _ _ =>
    rw [hreaped.state_of_terminal hterminal] at hrunning
    exact (hnot hrunning rfl).elim
  | granted hreaped hrunning _ _ _ _ _ _ _ =>
    rw [hreaped.state_of_terminal hterminal] at hrunning
    exact (hnot hrunning rfl).elim
  | @completed input _ _ _ m₁ m₂ item lease result now hreaped hitem hlease _
      hchange hstate =>
      have hsame := hreaped.state_of_terminal hterminal
      have hleased := hreaped.inv.engaged_of_lease hchange.mem hlease
      have hlive := hreaped.inv.live_of_leased hchange.mem hleased
      rw [hsame] at hlive
      have hclosed : OnlyOpen m input.workItemId = false :=
        hstays (failed_of_live hterminal hlive)
      rw [finalize_state_of_open, hstate, hsame]
      refine hchange.open_left (.inr fun hall => ?_)
      rw [onlyOpen_eq_true (requireWorkItem_of_reaped hreaped hitem hlease)
        (by rw [hleased]; simp) (completed_of_reaped hreaped hall)] at hclosed
      cases hclosed
  | @failed input m₁ _ item lease now failure state hreaped hitem hlease hcases
      hchange =>
      have hsame := hreaped.state_of_terminal hterminal
      have hleased := hreaped.inv.engaged_of_lease hchange.mem hlease
      have hlive := hreaped.inv.live_of_leased hchange.mem hleased
      rw [hsame] at hlive
      have hfailed := failed_of_live hterminal hlive
      rcases hcases with ⟨huncertain, _, _⟩ | ⟨_, ⟨_, hstate⟩ | ⟨_, hstate⟩⟩
      · have hclosed := hstays hfailed
        have hnamed := requireWorkItem_of_reaped hreaped hitem hlease
        simp [TeamOp.overwrites, NamesLeased, hnamed, huncertain, hleased]
          at hclosed
      · exact hstate.trans hsame
      · exact hstate.trans hfailed.symm
  | @reconciled input m₂ m₃ item item' h hitem hneeds _ hchange hresolved _
      hwork hstate =>
      have hlive := hinv.live_of_engaged hchange.mem (.inr hneeds)
      have hfailed := failed_of_live hterminal hlive
      have hkept : m₃.state = m.state := by
        rcases hstate with ⟨_, h⟩ | ⟨_, h | ⟨h, _⟩⟩
        · exact h.trans hfailed.symm
        · exact h
        · exact (hnot h rfl).elim
      rw [finalize_state_of_open, hkept]
      refine (hchange.congr hwork).open_left ?_
      by_cases hresolution : input.resolution = .completed
      · refine .inr fun hall => ?_
        have hclosed := hstays hfailed
        have hlast := onlyOpen_eq_true hitem (by rw [hneeds]; simp) hall
        simp [TeamOp.overwrites, hlast, hresolution] at hclosed
      · refine .inl ?_
        rw [hresolved.state]
        cases hr : input.resolution <;> simp_all
  | revoked _ hstate _ hexpired => exact hexpired.state.trans hstate

end

section
variable {env : TeamEnv} {w w₁ w₂ : TeamWorld} {acts acts' : List TeamAct}

/-- Once a mission is failed, cancelled or verified it stays so, in every
run whose steps on a failed mission look at it. -/
theorem terminal_stays (hstart : Start env w) (hrun : Run (stepsOf (TeamWorld.step env)) w acts w₁)
    (hterminal : w₁.mission.state.terminal = true)
    (hlater : Run (Where (stepsOf (TeamWorld.step env)) StaysFailed) w₁ acts'
      w₂) : w₂.mission.state = w₁.mission.state := by
  have hinv := run_inv hstart hrun
  have hboth : WorldInv w₂ ∧ w₂.mission.state = w₁.mission.state := by
    refine hlater.invariant (I := fun w => WorldInv w
      ∧ w.mission.state = w₁.mission.state) ⟨hinv, rfl⟩ ?_
    intro w w' act ⟨hinv, hstate⟩ ⟨hstep, hstays⟩
    refine ⟨step_inv hinv hstep, ?_⟩
    obtain ⟨_, _, hsame | ⟨_, heffect⟩⟩ := step_cases hinv hstep
    · rw [hsame, hstate]
    · rw [← hstate] at hterminal
      exact (heffect.terminal hinv.mission hterminal hstays).trans hstate
  exact hboth.2

end

/-- Both files may be worked on at a time. -/
def twoAtATime : SubmitInput :=
  { twoFiles with
    budget := { maxConcurrentLeases := some 2, leaseMs := some 10000 } }

/-- The ids `stableWorkItemId` gives the two files. -/
def firstId : String := "d45f1a75-4196-5064-bf78-4dedcd2fb271"

def secondId : String := "079e07a8-6f50-5796-987b-35e02397e658"

def bothClaimed : List TeamAct :=
  setOut ++ [claimAt aLease (still midnight), claimAt otherLease (still midnight)]

def failAt (workItemId leaseId : String) (state : SideEffectState) : TeamAct :=
  { op := .fail
      { workerId := aWorker, workItemId, leaseId
        code := "FAILED", message := "The file is gone."
        sideEffectState := state }
    readings := still midnight }

theorem reached_bothClaimed :
    ((reached twoAtATime (bothClaimed ++ [failAt firstId aLease .none])).bind
        fun w₁ => (Lib.exec (TeamWorld.step plainTeam) w₁
          [failAt secondId otherLease .uncertain]).map fun w₂ =>
            (w₁.mission.state, w₂.mission.state)) = some (.failed, .blocked)
    ∧ ((reached twoAtATime (bothClaimed ++ [failAt firstId aLease .none])).bind
        fun w₁ => (Lib.exec (Lib.guarded (TeamWorld.step plainTeam) StaysFailed)
          w₁ [failAt secondId otherLease .known]).map fun _ => w₁.mission.state)
      = some .failed := by decide +kernel

/-- A failed mission whose other worker reports an uncertain failure is
blocked. -/
theorem failed_mission_moves : ∃ w w₁ w₂, Start plainTeam w
    ∧ Run (stepsOf (TeamWorld.step plainTeam)) w (bothClaimed ++ [failAt firstId aLease .none]) w₁
    ∧ w₁.mission.state = .failed ∧ Run (stepsOf (TeamWorld.step plainTeam)) w₁
      [failAt secondId otherLease .uncertain] w₂ ∧ w₂.mission.state = .blocked := by
  obtain ⟨w₁, hreached, hlater⟩ := Option.bind_eq_some_iff.1 reached_bothClaimed.1
  obtain ⟨w₂, hexec, hstates⟩ := Option.map_eq_some_iff.1 hlater
  obtain ⟨hfailed, hblocked⟩ := Prod.mk.inj hstates
  obtain ⟨w, hstart, hrun⟩ := run_of_reached hreached
  exact ⟨w, w₁, w₂, hstart, hrun, hfailed, Lib.run_of_exec hexec, hblocked⟩

/-- The second of two failures leaves the mission failed. -/
theorem terminal_stays_bothClaimed : ∃ w w₁ w₂, Start plainTeam w
    ∧ Run (stepsOf (TeamWorld.step plainTeam)) w (bothClaimed ++ [failAt firstId aLease .none]) w₁
    ∧ w₁.mission.state = .failed ∧ Run (Where (stepsOf (TeamWorld.step plainTeam)) StaysFailed) w₁
      [failAt secondId otherLease .known] w₂ ∧ w₂.mission.state = w₁.mission.state := by
  obtain ⟨w₁, hreached, hlater⟩ := Option.bind_eq_some_iff.1 reached_bothClaimed.2
  obtain ⟨w₂, hexec, hfailed⟩ := Option.map_eq_some_iff.1 hlater
  obtain ⟨w, hstart, hrun⟩ := run_of_reached hreached
  have hlater := Lib.run_where_of_guarded hexec
  exact ⟨w, w₁, w₂, hstart, hrun, hfailed, hlater,
    terminal_stays hstart hrun (by rw [hfailed]; rfl) hlater⟩

-- ===== after a pause

/-- What a pause leaves, until a start or a resume: nobody holds a lease,
and the mission does not run. A blocked one has nothing left to
reconcile. -/
structure Halted (m : TeamMission) : Prop where
  free : ∀ item ∈ m.workItems, item.lease = none
  state : m.state = .paused ∨ m.state.terminal = true
    ∨ m.state = .blocked ∧ ∀ item ∈ m.workItems, item.state = .completed

section
variable {env : TeamEnv} {r : Readings} {op : TeamOp} {m m' m₁ : TeamMission} {now : Instant}

theorem Halted.not_running (hhalted : Halted m) : m.state ≠ .running := by
  intro hrunning
  rcases hhalted.state with h | h | ⟨h, _⟩ <;> rw [hrunning] at h <;> cases h

theorem Halted.congr (hhalted : Halted m) (hitems : m'.workItems = m.workItems)
    (hstate : m'.state = m.state) : Halted m' where
  free := hitems ▸ hhalted.free
  state := by
    rw [hitems, hstate]
    exact hhalted.state

theorem Halted.finalize (hfree : ∀ item ∈ m.workItems, item.lease = none)
    (hstate : m.state = .paused ∨ m.state.terminal = true) : Halted (finalizeIfVerified m) := by
  refine ⟨fun item hitem => hfree item (finalize_items ▸ hitem), ?_⟩
  rw [finalize_items]
  unfold finalizeIfVerified
  split
  · rcases hstate with h | h
    · exact .inl h
    · exact .inr (.inl h)
  · next hall =>
    split
    · exact .inr (.inl rfl)
    · refine .inr (.inr ⟨rfl, fun item hitem => ?_⟩)
      by_contra hnot
      exact hall (List.any_eq_true.2 ⟨item, hitem, by simpa using hnot⟩)

theorem Reaped.of_free (hreaped : Reaped now m m₁) (hhalted : Halted m) :
    m₁.workItems = m.workItems ∧ m₁.resources = m.resources := by
  have hnone : ∀ item ∈ m.workItems, item.lapsed now = false := by
    intro item hitem
    unfold TeamWorkItem.lapsed
    rw [hhalted.free item hitem, Bool.and_eq_false_iff]
    exact .inr rfl
  refine ⟨?_, hreaped.untouched hnone⟩
  rw [hreaped.items]
  exact (List.map_congr_left fun item hitem => if_neg (by
    rw [hnone item hitem]; simp)).trans (List.map_id _)

theorem Reaped.halted (hreaped : Reaped now m m₁) (hhalted : Halted m)
    (hcertain : m.state = .paused → m.anyUncertain = false) : Halted m₁ := by
  obtain ⟨hitems, hresources⟩ := hreaped.of_free hhalted
  refine ⟨hitems ▸ hhalted.free, ?_⟩
  rw [hitems, hreaped.state]
  have hsame : m₁.anyUncertain = m.anyUncertain := by
    unfold TeamMission.anyUncertain
    rw [hresources]
  rw [hsame]
  rcases hhalted.state with h | h | ⟨h, hall⟩
  · refine .inl ?_
    rw [if_neg (by rw [hcertain h]; simp), h]
  · refine .inr (.inl ?_)
    rw [if_neg (by rw [h]; simp)]
    exact h
  · refine .inr (.inr ⟨?_, hall⟩)
    split
    · rfl
    · exact h

theorem Reaped.not_running (hreaped : Reaped now m m₁) (hhalted : Halted m) :
    m₁.state ≠ .running := by
  rw [hreaped.state]
  split
  · simp
  · exact hhalted.not_running

theorem Reaped.no_lease (hreaped : Reaped now m m₁) (hhalted : Halted m)
    {item : TeamWorkItem} {lease : TeamLease} (hitem : item ∈ m₁.workItems)
    (hlease : item.lease = some lease) : False := by
  rw [(hreaped.of_free hhalted).1] at hitem
  rw [hhalted.free item hitem] at hlease
  cases hlease

/-- A halted mission stays halted until it is started again. -/
theorem Effect.halted (heffect : Effect env r m op m')
    (hhalted : Halted m) (hstarts : op.starts = false)
    (hcertain : m.state = .paused → op.reapsAnyway = true →
      m.anyUncertain = false) : Halted m' := by
  cases heffect with
  | quiet _ hwork hstate => exact hhalted.congr hwork.items hstate
  | reaped _ _ hreaped hwhen hwork hstate =>
    rcases hwhen with hrunning | hanyway
    · exact (hreaped.not_running hhalted hrunning).elim
    · exact (hreaped.halted hhalted fun h => hcertain h hanyway).congr
        hwork.items hstate
  | started _ _ _ _ => cases hstarts
  | paused _ hexpired hwork hstate =>
    refine ⟨fun item hitem => ?_, .inl hstate⟩
    rw [hwork.items] at hitem
    exact hexpired.free hitem
  | resumed _ _ _ => cases hstarts
  | cancelled _ hexpired hitems _ _ hstate =>
    refine ⟨fun item hitem => ?_, .inr (.inl (by rw [hstate]; rfl))⟩
    rw [hitems] at hitem
    obtain ⟨old, hold, rfl⟩ := List.mem_map.1 hitem
    have hfree : old.lease = none := hexpired.free hold
    split <;> exact hfree
  | stopped _ _ hreaped hrunning _ _ =>
    exact (hreaped.not_running hhalted hrunning).elim
  | extended _ _ hreaped hlease hchange _ =>
    exact (hreaped.no_lease hhalted hchange.mem hlease).elim
  | exhausted hreaped hrunning _ _ _ _ =>
    exact (hreaped.not_running hhalted hrunning).elim
  | granted hreaped hrunning _ _ _ _ _ _ _ =>
    exact (hreaped.not_running hhalted hrunning).elim
  | completed hreaped _ hlease _ hchange _ =>
    exact (hreaped.no_lease hhalted hchange.mem hlease).elim
  | failed hreaped _ hlease _ hchange =>
    exact (hreaped.no_lease hhalted hchange.mem hlease).elim
  | @reconciled input m₂ m₃ item item' h hitem hneeds _ hchange hresolved _
      hwork hstate =>
      have hopen : m.state = .paused ∨ m.state.terminal = true := by
        rcases hhalted.state with h | h | ⟨_, hall⟩
        · exact .inl h
        · exact .inr h
        · have hdone := hall item hchange.mem
          rw [hneeds] at hdone
          cases hdone
      have hopen₃ : m₃.state = .paused ∨ m₃.state.terminal = true := by
        rcases hstate with ⟨_, h⟩ | ⟨_, h | ⟨h, _⟩⟩
        · exact .inr (by rw [h]; rfl)
        · rw [h]
          exact hopen
        · rcases hopen with h' | h' <;> rw [h] at h' <;> cases h'
      refine Halted.finalize (fun other hother => ?_) hopen₃
      rcases (hchange.congr hwork).mem_items.1 hother with rfl | ⟨hold, _⟩
      · rw [hresolved.lease]
        exact hhalted.free item hchange.mem
      · exact hhalted.free other hold
  | revoked hwork hstate hchosen hexpired =>
    refine hhalted.congr ?_ (hexpired.state.trans hstate)
    rw [hexpired.items, hwork.items]
    refine (List.map_congr_left fun item hitem => if_neg fun h => ?_).trans
      (List.map_id _)
    have hsome := hchosen item hitem h
    rw [hhalted.free item hitem] at hsome
    cases hsome

end

/-- A step whose operation returns. -/
def Succeeds (env : TeamEnv) (w : TeamWorld) (act : TeamAct) (w' : TeamWorld) : Prop :=
  act.op.run env act.readings w.mission = .ok w'.mission ∧ stepsOf (TeamWorld.step env) w act w'

/-- The step is no start and no resume that succeeds. -/
def NotStarted (env : TeamEnv) (w : TeamWorld) (act : TeamAct) : Prop :=
  act.op.starts = true → (act.op.run env act.readings w.mission).toOption.isNone = true

/-- No worker registers, sends a heartbeat or writes to the blackboard
while the mission is paused with an uncertain resource. -/
def PauseCertain (w : TeamWorld) (act : TeamAct) : Prop :=
  w.mission.state = .paused → act.op.reapsAnyway = true → w.mission.anyUncertain = false

instance (env : TeamEnv) (w : TeamWorld) (act : TeamAct) : Decidable (NotStarted env w act) :=
  inferInstanceAs (Decidable (_ → _))

instance (w : TeamWorld) (act : TeamAct) : Decidable (PauseCertain w act) :=
  inferInstanceAs (Decidable (_ → _ → _))

section
variable {env : TeamEnv} {w w₁ w₂ w₃ : TeamWorld} {acts acts' : List TeamAct} {r : Readings}

end

def pauseNow : TeamAct :=
  { op := .pause, readings := still midnight }

/-- The supervisor says that the first file has to be done again. -/
def retryFirst : TeamAct :=
  { op := .reconcile
      { workerId := aWorker, workItemId := firstId, resolution := .retry
        summary := "Nothing was written." }
    readings := still midnight }

def heartbeatNow : TeamAct :=
  { op := .heartbeat aWorker none, readings := still midnight }

/-- A pause on top of the steps that lead to it. -/
def pausedAfter (acts : List TeamAct) : Option (TeamWorld × TeamWorld) :=
  (reached twoFiles acts).bind fun w₁ =>
    (TeamOp.pause.run plainTeam (still midnight) w₁.mission).toOption.map
      fun mission => (w₁, { mission, drawn := w₁.drawn })

theorem succeeds_of_pausedAfter {acts : List TeamAct} {w₁ w₂ : TeamWorld}
    (h : pausedAfter acts = some (w₁, w₂)) :
    reached twoFiles acts = some w₁ ∧ Succeeds plainTeam w₁ pauseNow w₂ := by
  obtain ⟨w, hreached, hrest⟩ := Option.bind_eq_some_iff.1 h
  obtain ⟨mission, hok, hpair⟩ := Option.map_eq_some_iff.1 hrest
  cases hpair
  have hok := toOption_eq_some hok
  refine ⟨hreached, hok, ?_⟩
  show (if _ then _ else some _) = some _
  rw [if_neg (by simp [pauseNow, TeamOp.leaseId?])]
  simp only [pauseNow]
  rw [hok]
  rfl

theorem pausedAfter_claim : ((pausedAfter (setOut ++ [claimAt aLease (still midnight)])).bind
        fun (_, w₂) => (Lib.exec (Lib.guarded (TeamWorld.step plainTeam)
          (NotStarted plainTeam)) w₂ [heartbeatNow, retryFirst]).map fun w₃ =>
            w₃.mission.state) = some .running
    ∧ ((pausedAfter (setOut ++ [claimAt aLease (still midnight)])).bind
        fun (_, w₂) => (Lib.exec (Lib.guarded (TeamWorld.step plainTeam)
          fun w act => NotStarted plainTeam w act ∧ PauseCertain w act) w₂
            [retryFirst, heartbeatNow]).map fun w₃ => w₃.mission.anyUncertain)
      = some false := by decide +kernel

end OperatorRuntime.Team
