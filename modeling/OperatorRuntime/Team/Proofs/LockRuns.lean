/-
Locks, leases, attempts and the limit on concurrent leases, in every
state a mission reaches.

# The limit on leases

`claim` reaps expired leases at one reading of the clock and counts the
live ones at a later reading. A lease that runs out in between is neither
reaped nor counted, and the claim goes over the limit
(`claim_exceeds_limit`). Runs in which no lease runs out between the two
readings of a claim keep it.
-/
import OperatorRuntime.Team.Proofs.Reachable

namespace OperatorRuntime.Team

open Lib (Run Where stepsOf)

-- ===== leased items

def leasedItems (items : List TeamWorkItem) : Nat :=
  items.countP fun item => item.state == .leased

section
variable {env : TeamEnv} {r : Readings} {op : TeamOp} {m m' : TeamMission} {item : TeamWorkItem}

variable {items : List TeamWorkItem}

theorem leasedItems_map_le {g : TeamWorkItem → TeamWorkItem}
    (hg : ∀ item ∈ items, (g item).state = .leased → item.state = .leased) :
    leasedItems (items.map g) ≤ leasedItems items := by
  unfold leasedItems
  rw [List.countP_map]
  refine List.countP_mono_left fun item hitem hleased => ?_
  exact beq_iff_eq.2 (hg item hitem (beq_iff_eq.1 hleased))

theorem leasedItems_replace {key : String} {item' : TeamWorkItem}
    (hkeys : (items.map TeamWorkItem.key).Nodup) :
    leasedItems (items.map fun other =>
      if other.key = key then item' else other) ≤ leasedItems items + 1 := by
  induction items with
  | nil => exact Nat.zero_le _
  | cons first items ih =>
    obtain ⟨hnew, hrest⟩ := List.nodup_cons.1 hkeys
    unfold leasedItems at ih ⊢
    rw [List.map_cons, List.countP_cons, List.countP_cons]
    by_cases hkey : first.key = key
    · have hothers : (items.map fun other =>
          if other.key = key then item' else other) = items := by
        refine (List.map_congr_left fun other hother => if_neg ?_).trans
          (List.map_id items)
        intro hother'
        exact hnew (List.mem_map.2 ⟨other, hother, hother'.trans hkey.symm⟩)
      rw [hothers]
      split <;> split <;> omega
    · rw [if_neg hkey]
      have := ih hrest
      omega

theorem leasedItems_expired {chosen : TeamWorkItem → Bool} : leasedItems (items.map fun item =>
      if chosen item then item.expired else item) ≤ leasedItems items := by
  refine leasedItems_map_le fun item _ hleased => ?_
  split at hleased
  · rcases expired_state item with h | h <;> rw [h] at hleased <;>
      cases hleased
  · exact hleased

theorem leasedItems_change {item' : TeamWorkItem}
    {h : TeamResource → TeamResource} (hinv : TeamInv m) (hchange : Change m m' item item' h)
    (hstate : item'.state = .leased → item.state = .leased) :
    leasedItems m'.workItems ≤ leasedItems m.workItems := by
  rw [hchange.items]
  refine leasedItems_map_le fun other hother hleased => ?_
  split at hleased
  · next hkey =>
    rw [eq_of_key hinv.itemKeys hother hchange.mem hkey]
    exact hstate hleased
  · exact hleased

theorem leasedItems_reaped {now : Instant} (hreaped : Reaped now m m') :
    leasedItems m'.workItems ≤ leasedItems m.workItems := by
  rw [hreaped.items]
  exact leasedItems_expired

/-- Only a claim adds to the leased items, and only below the budget. -/
theorem Effect.leased (heffect : Effect env r m op m') (hinv : TeamInv m) : m'.budget = m.budget
    ∧ (leasedItems m'.workItems ≤ leasedItems m.workItems
      ∨ op.leaseId?.isSome = true ∧ ∃ m₁, Reaped (r.now 0) m m₁
        ∧ liveLeases m₁ (r.now 2) < m.budget.maxConcurrentLeases
        ∧ leasedItems m'.workItems ≤ leasedItems m₁.workItems + 1) := by
  cases heffect with
  | quiet _ hwork _ => exact ⟨hwork.budget, .inl (by rw [hwork.items])⟩
  | reaped _ _ hreaped _ hwork _ =>
    refine ⟨hwork.budget.trans hreaped.budget, .inl ?_⟩
    rw [hwork.items]
    exact leasedItems_reaped hreaped
  | started hreaped _ hwork _ =>
    refine ⟨hwork.budget.trans hreaped.budget, .inl ?_⟩
    rw [hwork.items]
    exact leasedItems_reaped hreaped
  | paused _ hexpired hwork _ =>
    refine ⟨hwork.budget.trans hexpired.budget, .inl ?_⟩
    rw [hwork.items, hexpired.items]
    exact leasedItems_expired
  | resumed _ hwork _ => exact ⟨hwork.budget, .inl (by rw [hwork.items])⟩
  | @cancelled m₁ _ _ hexpired hitems _ hbudget _ =>
    refine ⟨hbudget.trans hexpired.budget, .inl ?_⟩
    have hlast : leasedItems m'.workItems ≤ leasedItems m₁.workItems := by
      rw [hitems]
      refine leasedItems_map_le fun item _ hleased => ?_
      split at hleased
      · exact hleased
      · cases hleased
    refine hlast.trans ?_
    rw [hexpired.items]
    exact leasedItems_expired
  | stopped _ _ hreaped _ hwork _ =>
    refine ⟨hwork.budget.trans hreaped.budget, .inl ?_⟩
    rw [hwork.items]
    exact leasedItems_reaped hreaped
  | extended _ _ hreaped _ hchange _ =>
    exact ⟨hchange.budget.trans hreaped.budget,
      .inl ((leasedItems_change hreaped.inv hchange id).trans (leasedItems_reaped hreaped))⟩
  | exhausted hreaped _ _ _ hchange _ =>
    exact ⟨hchange.budget.trans hreaped.budget,
      .inl ((leasedItems_change hreaped.inv hchange fun h => nomatch h).trans
        (leasedItems_reaped hreaped))⟩
  | granted hreaped _ _ _ _ _ hcount hchange _ =>
    refine ⟨hchange.budget.trans hreaped.budget,
      .inr ⟨rfl, _, hreaped, hreaped.budget ▸ hcount, ?_⟩⟩
    rw [hchange.items]
    exact leasedItems_replace hreaped.inv.itemKeys
  | completed hreaped _ _ _ hchange _ =>
    rw [finalize_items, finalize_budget]
    exact ⟨hchange.budget.trans hreaped.budget,
      .inl ((leasedItems_change hreaped.inv hchange fun h => nomatch h).trans
        (leasedItems_reaped hreaped))⟩
  | failed hreaped _ _ hcases hchange =>
    refine ⟨hchange.budget.trans hreaped.budget,
      .inl ((leasedItems_change hreaped.inv hchange ?_).trans (leasedItems_reaped hreaped))⟩
    rintro rfl
    rcases hcases with ⟨_, h, _⟩ | ⟨_, ⟨h, _⟩ | ⟨h, _⟩⟩ <;> cases h
  | @reconciled input _ _ _ _ _ _ _ _ hchange hresolved _ hwork _ =>
    rw [finalize_items, finalize_budget, hwork.items]
    refine ⟨hwork.budget.trans hchange.budget, .inl (leasedItems_change hinv hchange ?_)⟩
    rw [hresolved.state]
    cases input.resolution <;> exact fun h => nomatch h
  | revoked hwork _ _ hexpired =>
    refine ⟨hexpired.budget.trans hwork.budget, .inl ?_⟩
    rw [hexpired.items, hwork.items]
    exact leasedItems_expired

end

-- ===== runs

/-- No lease runs out between the readings at which a claim reaps and
counts. -/
def Punctual (w : TeamWorld) (act : TeamAct) : Prop :=
  act.op.leaseId?.isSome = true → ∀ item ∈ w.mission.workItems, ∀ lease ∈ item.lease,
      ¬ ((act.readings.now 0).val < lease.expiresAt.val
        ∧ lease.expiresAt.val ≤ (act.readings.now 2).val)

instance (w : TeamWorld) (act : TeamAct) : Decidable (Punctual w act) :=
  inferInstanceAs (Decidable (_ → _))

def TeamWorkItem.LeasedAs (item : TeamWorkItem) (leaseId : String) : Prop :=
  item.state = .leased ∧ item.lease.map TeamLease.id = some leaseId

/-- Locks, leases, uncertainty and budgets of a mission agree. -/
structure LocksSound (m : TeamMission) : Prop where
  locked : ∀ resource ∈ m.resources, ∀ lock, resource.lock = some lock →
    ∃! item, item ∈ m.workItems ∧ item.LeasedAs lock.leaseId ∧ resource.key ∈ item.resources
  unlocked : ∀ resource ∈ m.resources, resource.lock = none →
    ∀ item ∈ m.workItems, item.state = .leased → resource.key ∉ item.resources
  carried : ∀ item ∈ m.workItems, item.state = .leased → ∃ lease,
    item.lease = some lease ∧ ∀ key ∈ item.resources, ∃ resource ∈ m.resources, resource.key = key
        ∧ resource.lock = some lease.lock
  apart : ∀ item ∈ m.workItems, ∀ other ∈ m.workItems, item ≠ other →
    item.state = .leased → other.state = .leased →
    ∀ key ∈ item.resources, key ∉ other.resources
  certain : ∀ item ∈ m.workItems, item.state = .leased →
    ∀ resource ∈ m.resources, resource.key ∈ item.resources → resource.uncertain = false
  attempts : ∀ item ∈ m.workItems, item.attempts ≤ m.budget.maxAttemptsPerWorkItem
  limit : leasedItems m.workItems ≤ m.budget.maxConcurrentLeases

section
variable {env : TeamEnv} {m : TeamMission} {w w' : TeamWorld} {act : TeamAct}

theorem TeamInv.lease_of_leased (hinv : TeamInv m) {item : TeamWorkItem}
    (hmem : item ∈ m.workItems) (hleased : item.state = .leased) :
    ∃ lease, item.lease = some lease :=
  Option.isSome_iff_exists.1 ((hinv.leased item hmem).1 hleased)

/-- Within the budget the locks are sound. -/
theorem TeamInv.locksSound (hinv : TeamInv m)
    (hlimit : leasedItems m.workItems ≤ m.budget.maxConcurrentLeases) :
    LocksSound m := by
  have hapart : ∀ item ∈ m.workItems, ∀ other ∈ m.workItems, item ≠ other →
      item.state = .leased → other.state = .leased →
      ∀ key ∈ item.resources, key ∉ other.resources := by
    intro item hitem other hother hne hleased hleased'
    refine hinv.apart item hitem other hother (.inl hleased) (.inl hleased')
      fun hkey => hne (eq_of_key hinv.itemKeys hitem hother hkey)
  constructor
  case locked =>
    intro resource hresource lock hlock
    obtain ⟨item, hitem, hsome, hlists⟩ :=
      hinv.locked resource hresource (by rw [hlock]; rfl)
    have hleased := (hinv.leased item hitem).2 hsome
    obtain ⟨lease, hlease⟩ := hinv.lease_of_leased hitem hleased
    have hheld := (hinv.held item hitem lease hlease resource hresource hlists).1
    rw [hlock] at hheld
    cases hheld
    refine ⟨item, ⟨hitem, ⟨hleased, by rw [hlease]; rfl⟩, hlists⟩, ?_⟩
    rintro other ⟨hother, ⟨hleased', _⟩, hlists'⟩
    by_contra hne
    exact hapart other hother item hitem hne hleased' hleased _ hlists' hlists
  case unlocked =>
    intro resource hresource hnone item hitem hleased hlists
    obtain ⟨lease, hlease⟩ := hinv.lease_of_leased hitem hleased
    have hheld := (hinv.held item hitem lease hlease resource hresource hlists).1
    rw [hnone] at hheld
    cases hheld
  case carried =>
    intro item hitem hleased
    obtain ⟨lease, hlease⟩ := hinv.lease_of_leased hitem hleased
    refine ⟨lease, hlease, fun key hkey => ?_⟩
    obtain ⟨resource, hresource, rfl⟩ :=
      List.mem_map.1 (hinv.declared item hitem key hkey)
    exact ⟨resource, hresource, rfl, (hinv.held item hitem lease hlease resource hresource hkey).1⟩
  case apart => exact hapart
  case certain =>
    intro item hitem hleased resource hresource hlists
    obtain ⟨lease, hlease⟩ := hinv.lease_of_leased hitem hleased
    exact (hinv.held item hitem lease hlease resource hresource hlists).2
  case attempts => exact hinv.attempts
  case limit => exact hlimit

theorem liveLeases_of_punctual {r : Readings} {m₁ : TeamMission}
    (hpunctual : ∀ item ∈ m.workItems, ∀ lease ∈ item.lease, ¬ ((r.now 0).val < lease.expiresAt.val
        ∧ lease.expiresAt.val ≤ (r.now 2).val)) (hreaped : Reaped (r.now 0) m m₁) :
    leasedItems m₁.workItems ≤ liveLeases m₁ (r.now 2) := by
  unfold leasedItems liveLeases
  refine List.countP_mono_left fun item hitem hleased => ?_
  rw [beq_iff_eq] at hleased
  obtain ⟨lease, hlease⟩ := hreaped.inv.lease_of_leased hitem hleased
  rw [hleased, hlease]
  show decide ((r.now 2).val < lease.expiresAt.val) = true
  refine decide_eq_true ?_
  have hold : item ∈ m.workItems := lease_of_reaped hreaped hitem hlease
  have hnotLapsed : item.lapsed (r.now 0) = false := by
    by_contra hlapsed
    rw [Bool.not_eq_false] at hlapsed
    have hexpired : item.expired ∈ m₁.workItems := by
      rw [hreaped.items]
      exact List.mem_map.2 ⟨item, hold, if_pos hlapsed⟩
    have hsame := eq_of_key hreaped.inv.itemKeys hexpired hitem rfl
    rw [← hsame] at hlease
    cases hlease
  have halive : ¬ lease.expiresAt.val ≤ (r.now 0).val := by
    intro hle
    unfold TeamWorkItem.lapsed at hnotLapsed
    rw [hleased, hlease] at hnotLapsed
    simp [hle] at hnotLapsed
  have hnot := hpunctual item hold lease hlease
  omega

theorem step_limit (hinv : WorldInv w) (hlimit : leasedItems w.mission.workItems
      ≤ w.mission.budget.maxConcurrentLeases) (hpunctual : Punctual w act)
    (hstep : stepsOf (TeamWorld.step env) w act w') :
    leasedItems w'.mission.workItems ≤ w'.mission.budget.maxConcurrentLeases := by
  obtain ⟨_, _, hsame | ⟨_, heffect⟩⟩ := step_cases hinv hstep
  · rw [hsame]
    exact hlimit
  · obtain ⟨hbudget, hless | ⟨hclaim, m₁, hreaped, hcount, hmore⟩⟩ :=
      heffect.leased hinv.mission
    · rw [hbudget]
      exact hless.trans hlimit
    · have hlive := liveLeases_of_punctual (hpunctual hclaim) hreaped
      rw [hbudget]
      omega

/-- In every state a mission reaches by punctual claims and any other
operations, its locks, leases, uncertainty and budgets agree. -/
theorem locks_sound {acts : List TeamAct} (hstart : Start env w)
    (hrun : Run (Where (stepsOf (TeamWorld.step env)) Punctual) w acts w') :
    LocksSound w'.mission := by
  have hboth : WorldInv w' ∧ leasedItems w'.mission.workItems
      ≤ w'.mission.budget.maxConcurrentLeases := by
    refine hrun.invariant (I := fun w => WorldInv w ∧ leasedItems w.mission.workItems
        ≤ w.mission.budget.maxConcurrentLeases) ⟨hstart.inv, ?_⟩ ?_
    · have hnone : leasedItems w.mission.workItems = 0 := by
        unfold leasedItems
        refine List.countP_eq_zero.2 fun item hitem => ?_
        rw [(hstart.submitted.untouched item hitem).state]
        decide
      rw [hnone]
      exact Nat.zero_le _
    · intro w w' act ⟨hinv, hlimit⟩ ⟨hstep, hpunctual⟩
      exact ⟨step_inv hinv hstep, step_limit hinv hlimit hpunctual hstep⟩
  exact hboth.1.mission.locksSound hboth.2

end

-- ===== a late claim

/-- A coordinator without kernel verification. Texts of the missions below
are trimmed, in lower case and ASCII; without kernel verification no state
is hashed. -/
def plainTeam : TeamEnv where
  requireKernelVerification := false
  hasActionJournal := false
  hasAgentKernel := false
  win32 := false
  sha256 := sha256Utf8
  localeCompare a b := if Json.keyLe a b then (if a = b then 0 else -1) else 1
  trim text := text
  lowerCase text := text
  hashState _ := sha256Utf8 ""
  fits _ := true
  valueFits _ := true

/-- Work on two files that share nothing, and its verification. -/
def twoFiles : SubmitInput :=
  { missionId := "11111111-1111-4111-8111-111111111111"
    objective := "Edit two files."
    workItems :=
      [{ key := "first", title := "First file", role := .general
         risk := some .write, resources := ["file-1"] },
       { key := "second", title := "Second file", role := .general
         risk := some .write, resources := ["file-2"] },
       { key := "verify", title := "Check both", role := .verifier
         dependsOn := ["first", "second"] }]
    budget := { maxConcurrentLeases := some 1, leaseMs := some 10000 } }

def aWorker : String := "22222222-2222-4222-8222-222222222222"

def aLease : String := "33333333-3333-4333-8333-333333333333"

def otherLease : String := "44444444-4444-4444-8444-444444444444"

/-- A clock that stands still. -/
def still (now : Instant) : Readings :=
  { now := fun _ => now, stamp := fun _ => now }

def midnight : Instant := ⟨0, zero_instant⟩

def nearlyTen : Instant := ⟨9999, by decide⟩

def tenSeconds : Instant := ⟨10000, by decide⟩

/-- A supervisor registers, and the mission starts. -/
def setOut : List TeamAct :=
  [{ op := .registerWorker
       { workerId := aWorker, role := .supervisor, label := "w" }
     readings := still midnight },
   { op := .start (.ok ()), readings := still midnight }]

def claimAt (leaseId : String) (r : Readings) : TeamAct :=
  { op := .claim aWorker leaseId (.ok ()), readings := r }

/-- The clock ticks between the reaping of a claim and its count. -/
def ticking : Readings :=
  { now := fun i => if i = 0 then nearlyTen else tenSeconds
    stamp := fun _ => tenSeconds }

def submitted (input : SubmitInput) : Result TeamMission :=
  submit plainTeam input (.ok ()) midnight

/-- The state of a mission after some operations. -/
def reached (input : SubmitInput) (acts : List TeamAct) : Option TeamWorld :=
  (submitted input).toOption.bind fun mission =>
    Lib.exec (TeamWorld.step plainTeam) { mission, drawn := [] } acts

/-- The same, where every step has to meet a condition. -/
def reachedWhere (Cond : TeamWorld → TeamAct → Prop)
    [∀ w act, Decidable (Cond w act)] (input : SubmitInput)
    (acts : List TeamAct) : Option TeamWorld :=
  (submitted input).toOption.bind fun mission =>
    Lib.exec (Lib.guarded (TeamWorld.step plainTeam) Cond)
      { mission, drawn := [] } acts

theorem toOption_eq_some {α : Type} {x : Result α} {a : α}
    (h : x.toOption = some a) : x = .ok a := by
  cases x with
  | error _ => cases h
  | ok b =>
    cases h
    rfl

theorem run_of_reached {input : SubmitInput} {acts : List TeamAct}
    {w' : TeamWorld} (h : reached input acts = some w') :
    ∃ w, Start plainTeam w ∧ Run (stepsOf (TeamWorld.step plainTeam)) w acts w' := by
  obtain ⟨mission, hmission, hexec⟩ := Option.bind_eq_some_iff.1 h
  exact ⟨{ mission, drawn := [] }, ⟨rfl, input, .ok (), midnight, toOption_eq_some hmission⟩,
    Lib.run_of_exec hexec⟩

theorem run_of_reachedWhere {Cond : TeamWorld → TeamAct → Prop}
    [∀ w act, Decidable (Cond w act)] {input : SubmitInput} {acts : List TeamAct} {w' : TeamWorld}
    (h : reachedWhere Cond input acts = some w') :
    ∃ w, Start plainTeam w ∧ Run (Where (stepsOf (TeamWorld.step plainTeam)) Cond) w acts w' := by
  obtain ⟨mission, hmission, hexec⟩ := Option.bind_eq_some_iff.1 h
  exact ⟨{ mission, drawn := [] }, ⟨rfl, input, .ok (), midnight, toOption_eq_some hmission⟩,
    Lib.run_where_of_guarded hexec⟩

/-- The limit is one lease, and a claim at the second the first lease runs
out leaves two. -/
theorem claim_exceeds_limit : ∃ w w', Start plainTeam w ∧ Run (stepsOf (TeamWorld.step plainTeam)) w
        (setOut ++ [claimAt aLease (still midnight), claimAt otherLease ticking]) w'
      ∧ w'.mission.budget.maxConcurrentLeases = 1
      ∧ leasedItems w'.mission.workItems = 2 ∧ ¬ LocksSound w'.mission := by
  obtain ⟨w', hreached, hvalues⟩ := Option.map_eq_some_iff.1
    (show (reached twoFiles (setOut
          ++ [claimAt aLease (still midnight), claimAt otherLease ticking])).map
        (fun w => (w.mission.budget.maxConcurrentLeases,
          leasedItems w.mission.workItems)) = some (1, 2) by decide +kernel)
  obtain ⟨hmax, hleased⟩ := Prod.mk.inj hvalues
  obtain ⟨w, hstart, hrun⟩ := run_of_reached hreached
  refine ⟨w, w', hstart, hrun, hmax, hleased, fun hsound => ?_⟩
  have hlimit := hsound.limit
  rw [hmax, hleased] at hlimit
  omega

/-- A second claim, just before the first runs out. -/
theorem locks_sound_setOut : ∃ w w', Start plainTeam w
    ∧ Run (Where (stepsOf (TeamWorld.step plainTeam)) Punctual) w
      (setOut ++ [claimAt aLease (still midnight), claimAt otherLease (still nearlyTen)]) w'
    ∧ leasedItems w'.mission.workItems = 1 ∧ LocksSound w'.mission := by
  obtain ⟨w', hreached, hleased⟩ := Option.map_eq_some_iff.1
    (show (reachedWhere Punctual twoFiles (setOut ++ [claimAt aLease (still midnight),
            claimAt otherLease (still nearlyTen)])).map
        (fun w => leasedItems w.mission.workItems) = some 1 by decide +kernel)
  obtain ⟨w, hstart, hrun⟩ := run_of_reachedWhere hreached
  exact ⟨w, w', hstart, hrun, hleased, locks_sound hstart hrun⟩

end OperatorRuntime.Team
