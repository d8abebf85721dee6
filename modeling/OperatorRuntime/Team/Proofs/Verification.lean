/-
What a VERIFIED mission has been through.

Coverage is checked once, by `submit`, over the dependency graph; no
operation changes roles and dependencies afterwards. A verifier completes
with a passing verification and a digest, by `complete`. But `reconcile`
without kernel verification takes a worker's word that an item is done,
also for the verifier that covers the mission, and `finalizeIfVerified`
is content with any verifier that passed (`verified_without_cover`).
-/
import OperatorRuntime.Team.Proofs.MissionStates
import Mathlib.Logic.Relation

namespace OperatorRuntime.Team

open Lib (Run Where stepsOf)

-- ===== dependencies

/-- The item of the first key lists the second. -/
def DependsOn (items : List TeamWorkItem) (key dependency : String) : Prop :=
  ∃ item ∈ items, item.key = key ∧ dependency ∈ item.dependsOn

section
variable {items : List TeamWorkItem} {key target : String}

theorem dependsOn_of_mem {dependency : String} (hmem : dependency ∈ dependenciesOf items key) :
    DependsOn items key dependency := by
  unfold dependenciesOf at hmem
  cases hfind : items.find? fun item => item.key == key with
  | none =>
    rw [hfind] at hmem
    cases hmem
  | some item =>
    rw [hfind] at hmem
    exact ⟨item, List.mem_of_find?_eq_some hfind, by simpa using List.find?_some hfind, hmem⟩

/-- A key the search finds is one the item depends on. -/
theorem visitDepends_sound {fuel : Nat} {found : Bool × List String}
    (hfound : (visitDepends items target fuel found key).1 = true) :
    Relation.TransGen (DependsOn items) key target := by
  induction fuel generalizing key found with
  | zero => cases hfound
  | succ fuel ih =>
    obtain ⟨before, seen⟩ := found
    rw [visitDepends] at hfound
    split at hfound
    · cases hfound
    · -- The loop keeps: a hit so far means that the target is reached.
      have hloop : ∀ (dependencies : List String) (found : Bool × List String),
          (∀ dependency ∈ dependencies, DependsOn items key dependency) →
          (found.1 = true → Relation.TransGen (DependsOn items) key target) →
          (dependencies.foldl (fun found dependency =>
            if found.1 then found
            else if dependency == target then (true, found.2)
            else visitDepends items target fuel found dependency) found).1
              = true →
          Relation.TransGen (DependsOn items) key target := by
        intro dependencies
        induction dependencies with
        | nil => exact fun _ _ hkept => hkept
        | cons dependency dependencies ihLoop =>
          intro found hdepends hkept
          have hfirst := hdepends dependency (List.mem_cons_self ..)
          refine ihLoop _
            (fun other hother => hdepends other (List.mem_cons_of_mem _ hother))
            ?_
          dsimp only
          split
          · exact hkept
          · split
            · next htarget =>
              rw [beq_iff_eq] at htarget
              exact fun _ => Relation.TransGen.single (htarget ▸ hfirst)
            · exact fun hdeep => Relation.TransGen.head hfirst (ih hdeep)
      exact hloop _ _ (fun _ => dependsOn_of_mem) (fun h => by cases h) hfound

theorem transitivelyDependsOn_sound (hdepends : transitivelyDependsOn key target items = true) :
    Relation.TransGen (DependsOn items) key target :=
  visitDepends_sound hdepends

/-- A verifier that covers the mission depends on every other item. -/
theorem coversMission_sound {item : TeamWorkItem} (hcovers : coversMission items item = true) :
    ∀ other ∈ items, other.role ≠ .verifier →
      Relation.TransGen (DependsOn items) item.key other.key := by
  intro other hother hrole
  unfold coversMission at hcovers
  have hall := List.all_eq_true.1 hcovers other (List.mem_filter.2 ⟨hother, by simpa using hrole⟩)
  exact transitivelyDependsOn_sound hall

theorem visitDepends_congr {items' : List TeamWorkItem}
    (hsame : ∀ key, dependenciesOf items' key = dependenciesOf items key)
    (fuel : Nat) : visitDepends items' target fuel = visitDepends items target fuel := by
  induction fuel with
  | zero => rfl
  | succ fuel ih =>
    funext ⟨before, seen⟩ key
    rw [visitDepends, visitDepends, hsame, ih]

theorem dependenciesOf_map {g : TeamWorkItem → TeamWorkItem}
    (hshape : ∀ item ∈ items, SameShape item (g item)) (key : String) :
    dependenciesOf (items.map g) key = dependenciesOf items key := by
  induction items with
  | nil => rfl
  | cons first items ih =>
    have hfirst := hshape first (List.mem_cons_self ..)
    have hrest := ih fun item hitem =>
      hshape item (List.mem_cons_of_mem _ hitem)
    unfold dependenciesOf at hrest ⊢
    rw [List.map_cons, List.find?_cons, List.find?_cons, hfirst.key]
    split
    · rw [Option.map_some, Option.map_some, hfirst.dependsOn]
    · exact hrest

theorem coversMission_map {g : TeamWorkItem → TeamWorkItem}
    (hshape : ∀ item ∈ items, SameShape item (g item)) {item : TeamWorkItem}
    (hitem : item ∈ items) : coversMission (items.map g) (g item) = coversMission items item := by
  have hdepends : ∀ target, transitivelyDependsOn (g item).key target
      (items.map g) = transitivelyDependsOn item.key target items := by
    intro target
    unfold transitivelyDependsOn
    rw [visitDepends_congr (dependenciesOf_map hshape), List.length_map, (hshape item hitem).key]
  unfold coversMission
  rw [Bool.eq_iff_iff, List.all_eq_true, List.all_eq_true]
  constructor
  · intro hall other hother
    obtain ⟨hmem, hrole⟩ := List.mem_filter.1 hother
    have hcovered := hall (g other) (List.mem_filter.2
      ⟨List.mem_map_of_mem hmem, by rw [(hshape other hmem).role]; exact hrole⟩)
    rw [(hshape other hmem).key, hdepends] at hcovered
    exact hcovered
  · intro hall other' hother'
    obtain ⟨hmem', hrole⟩ := List.mem_filter.1 hother'
    obtain ⟨other, hmem, rfl⟩ := List.mem_map.1 hmem'
    rw [(hshape other hmem).role] at hrole
    rw [(hshape other hmem).key, hdepends]
    exact hall other (List.mem_filter.2 ⟨hmem, hrole⟩)

end

-- ===== runs

/-- A verifier that covers the mission. -/
def Covering (m : TeamMission) (item : TeamWorkItem) : Prop :=
  item.role = .verifier ∧ coversMission m.workItems item = true

/-- The mission has a covering verifier, and one that is completed has
passed. -/
structure CoverKept (m : TeamMission) : Prop where
  covered : ∃ item ∈ m.workItems, Covering m item
  passed : ∀ item ∈ m.workItems, Covering m item → item.state = .completed → item.Passed

/-- Without kernel verification, no reconciliation takes a worker's word
for a verifier that covers the mission. -/
def TrustsNoCover (env : TeamEnv) (w : TeamWorld) (act : TeamAct) : Prop :=
  ∀ item ∈ w.mission.workItems, TakenAsDone env w.mission item act.op → ¬ Covering w.mission item

section
variable {env : TeamEnv} {r : Readings} {op : TeamOp} {m m' : TeamMission} {w w' : TeamWorld}

theorem Effect.coverKept (heffect : Effect env r m op m') (hinv : TeamInv m)
    (hkept : CoverKept m) (htrusts : ∀ item ∈ m.workItems,
      TakenAsDone env m item op → ¬ Covering m item) : CoverKept m' := by
  obtain ⟨g, hg, hmoved⟩ := heffect.moved hinv
  have hshape : ∀ item ∈ m.workItems, SameShape item (g item) :=
    fun item hitem => (hmoved item hitem).shape
  have hcovering : ∀ item ∈ m.workItems, Covering m' (g item) ↔ Covering m item := by
    intro item hitem
    unfold Covering
    rw [hg, coversMission_map hshape hitem, (hshape item hitem).role]
  constructor
  · obtain ⟨item, hitem, hcovers⟩ := hkept.covered
    exact ⟨g item, hg ▸ List.mem_map_of_mem hitem, (hcovering item hitem).2 hcovers⟩
  · intro item' hitem' hcovers hdone
    rw [hg] at hitem'
    obtain ⟨item, hitem, rfl⟩ := List.mem_map.1 hitem'
    have hcovers := (hcovering item hitem).1 hcovers
    rcases (hmoved item hitem).done hdone with hbefore | hpassed | htaken
    · rw [(hmoved item hitem).kept hbefore]
      exact hkept.passed item hitem hcovers hbefore
    · exact hpassed hcovers.1
    · exact absurd hcovers (htrusts item hitem htaken)

theorem Start.coverKept (hstart : Start env w) : CoverKept w.mission := by
  have hsubmitted := hstart.submitted
  obtain ⟨item, hitem, hrole, hcovers⟩ := hsubmitted.covered
  refine ⟨⟨item, hitem, hrole, hcovers⟩, fun item hitem _ hdone => ?_⟩
  rw [(hsubmitted.untouched item hitem).state] at hdone
  cases hdone

/-- A verified mission is completed, and a verifier behind everything has
passed. -/
def VerifiedThroughout (m : TeamMission) : Prop :=
  (∀ item ∈ m.workItems, item.state = .completed)
    ∧ ∃ item ∈ m.workItems, item.role = .verifier ∧ item.Passed
      ∧ ∀ other ∈ m.workItems, other.role ≠ .verifier →
        Relation.TransGen (DependsOn m.workItems) item.key other.key

/-- Where no call trusts a result that covers nothing, a verified mission is
verified throughout. -/
theorem verified_throughout {acts : List TeamAct} (hstart : Start env w)
    (hrun : Run (Where (stepsOf (TeamWorld.step env)) (TrustsNoCover env)) w
      acts w') (hverified : w'.mission.state = .verified) : VerifiedThroughout w'.mission := by
  have hboth : WorldInv w' ∧ CoverKept w'.mission := by
    refine hrun.invariant (I := fun w => WorldInv w ∧ CoverKept w.mission)
      ⟨hstart.inv, hstart.coverKept⟩ ?_
    intro w w' act ⟨hinv, hkept⟩ ⟨hstep, htrusts⟩
    refine ⟨step_inv hinv hstep, ?_⟩
    obtain ⟨_, _, hsame | ⟨_, heffect⟩⟩ := step_cases hinv hstep
    · rw [hsame]
      exact hkept
    · exact heffect.coverKept hinv.mission hkept htrusts
  have hdone := hboth.1.mission.verified hverified
  obtain ⟨item, hitem, hcovers⟩ := hboth.2.covered
  exact ⟨hdone, item, hitem, hcovers.1, hboth.2.passed item hitem hcovers (hdone item hitem),
    coversMission_sound hcovers.2⟩

end

-- ===== two verifiers

/-- Work, a verifier that depends on it, and one that depends on nothing. -/
def twoVerifiers : SubmitInput :=
  { missionId := "11111111-1111-4111-8111-111111111111"
    objective := "Report"
    workItems :=
      [{ key := "work", title := "Work", role := .general, priority := some 2 },
       { key := "check", title := "Check", role := .verifier
         risk := some .write, priority := some 1, dependsOn := ["work"]
         resources := ["report"] },
       { key := "glance", title := "Glance", role := .verifier }]
    budget := { leaseMs := some 10000 } }

def workId : String := "8ce072d7-a3f7-5f89-a9a2-b00a04fb52f5"

def checkId : String := "efc1ec3a-64b9-566e-acea-d56a120a278d"

def glanceId : String := "5035326c-5e5e-55b7-9880-d9d402fbcf97"

def thirdLease : String := "55555555-5555-4555-8555-555555555555"

/-- Without kernel verification `complete` reads no mission before it takes
the lock. -/
def nothingRead : TeamMission :=
  { id := onesUuid
    objective := "", intent := none, state := .pending, epoch := 1
    budget :=
      { maxWorkers := 16, maxConcurrentLeases := 8, maxAttemptsPerWorkItem := 3
        maxWallClockMs := 14400000, leaseMs := 10000 }
    workers := [], resources := [], workItems := [], blackboard := []
    actionReceipts := [] }

def completeAt (workItemId leaseId : String) (passed : Bool) : TeamAct :=
  { op := .complete
      { workerId := aWorker, workItemId, leaseId, summary := "Done."
        verificationPassed := passed }
      nothingRead (still midnight) (.ok { request := .null, checks := [] })
    readings := still midnight }

def workDone : List TeamAct :=
  setOut ++ [claimAt aLease (still midnight), completeAt workId aLease false]

def glanceDone : List TeamAct :=
  [claimAt thirdLease (still midnight), completeAt glanceId thirdLease true]

/-- The covering verifier loses track of its report, and the supervisor
says that it is done. -/
def checkTakenAsDone : List TeamAct :=
  [claimAt otherLease (still midnight), failAt checkId otherLease .uncertain,
   { op := .reconcile
       { workerId := aWorker, workItemId := checkId, resolution := .completed
         summary := "Done." }
     readings := still midnight }]

def checkDone : List TeamAct :=
  [claimAt otherLease (still midnight), completeAt checkId otherLease true]

/-- What coverage and passing are read from. -/
structure Outline where
  key : String
  role : TeamRole
  dependsOn : List String
  passed : Bool
deriving DecidableEq

def TeamWorkItem.outline (item : TeamWorkItem) : Outline :=
  { key := item.key, role := item.role, dependsOn := item.dependsOn
    passed := item.result.any TeamWorkResult.verificationPassed }

/-- The items once they are all completed. -/
def outlines : List Outline :=
  [{ key := "work", role := .general, dependsOn := [], passed := false },
   { key := "check", role := .verifier, dependsOn := ["work"], passed := false },
   { key := "glance", role := .verifier, dependsOn := [], passed := true }]

theorem reached_twoVerifiers :
    (reached twoVerifiers (workDone ++ checkTakenAsDone ++ glanceDone)).map
        (fun w => (w.mission.state, w.mission.workItems.map TeamWorkItem.outline))
      = some (.verified, outlines)
    ∧ (reached twoVerifiers (workDone ++ checkDone ++ glanceDone)).map
        (fun w => w.mission.state) = some .verified := by
  constructor
  · decide +kernel
  · decide +kernel

/-- The mission is verified although the verifier that covers it never
verified anything. -/
theorem verified_without_cover : ∃ w w', Start plainTeam w
    ∧ Run (stepsOf (TeamWorld.step plainTeam)) w (workDone ++ checkTakenAsDone ++ glanceDone) w'
    ∧ w'.mission.state = .verified ∧ ¬ VerifiedThroughout w'.mission := by
  obtain ⟨w', hreached, hvalues⟩ := Option.map_eq_some_iff.1 reached_twoVerifiers.1
  obtain ⟨hverified, houtline⟩ := Prod.mk.inj hvalues
  obtain ⟨w, hstart, hrun⟩ := run_of_reached hreached
  refine ⟨w, w', hstart, hrun, hverified, ?_⟩
  rintro ⟨_, item, hitem, hrole, ⟨result, hresult, hpassed, _⟩, hcovers⟩
  have hmem : ∀ other ∈ w'.mission.workItems, other.outline ∈ outlines :=
    fun other hother => houtline ▸ List.mem_map_of_mem hother
  -- The one verifier that passed is the one that depends on nothing.
  have hglance : item.key = "glance" := by
    have hone : ∀ o ∈ outlines, o.passed = true → o.key = "glance" := by decide
    exact hone _ (hmem item hitem) (by
      show item.result.any TeamWorkResult.verificationPassed = true
      rw [hresult]
      exact hpassed)
  obtain ⟨other, hother, hwork⟩ := List.mem_map.1
    (show outlines[0] ∈ w'.mission.workItems.map TeamWorkItem.outline by
      rw [houtline]
      exact List.mem_cons_self ..)
  have hgeneral : other.role = .general := congrArg Outline.role hwork
  have hpath := hcovers other hother (by rw [hgeneral]; simp)
  rw [hglance] at hpath
  obtain ⟨_, ⟨first, hfirst, hkey, hdepends⟩, _⟩ :=
    Relation.TransGen.head'_iff.1 hpath
  have hnone : ∀ o ∈ outlines, o.key = "glance" → o.dependsOn = [] := by decide
  have hnil : first.dependsOn = [] := hnone _ (hmem first hfirst) hkey
  rw [hnil] at hdepends
  cases hdepends

/-- The work is done, then checked, then read over. -/
theorem verified_throughout_checkDone : ∃ w w', Start plainTeam w
    ∧ Run (Where (stepsOf (TeamWorld.step plainTeam)) (TrustsNoCover plainTeam))
      w (workDone ++ checkDone ++ glanceDone) w'
    ∧ w'.mission.state = .verified ∧ VerifiedThroughout w'.mission := by
  obtain ⟨w', hreached, hverified⟩ := Option.map_eq_some_iff.1 reached_twoVerifiers.2
  obtain ⟨mission, hmission, hexec⟩ := Option.bind_eq_some_iff.1 hreached
  have hstart : Start plainTeam { mission, drawn := [] } :=
    ⟨rfl, twoVerifiers, .ok (), midnight, toOption_eq_some hmission⟩
  have hrun : Run (Where (stepsOf (TeamWorld.step plainTeam))
      (TrustsNoCover plainTeam)) { mission, drawn := [] }
      (workDone ++ checkDone ++ glanceDone) w' := by
    refine Lib.run_where_of_exec hexec ?_
    rintro w act hact item _ ⟨input, hop, _⟩
    have hnone : ∀ act ∈ workDone ++ checkDone ++ glanceDone,
        ∀ input, act.op ≠ .reconcile input := by
      intro act hact input hop
      simp [workDone, checkDone, glanceDone, setOut] at hact
      rcases hact with rfl | rfl | rfl | rfl | rfl | rfl | rfl | rfl <;>
        cases hop
    exact absurd hop (hnone act hact input)
  exact ⟨_, w', hstart, hrun, hverified, verified_throughout hstart hrun hverified⟩

end OperatorRuntime.Team
