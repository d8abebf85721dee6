/-
The two laws of a task plan. A revision works on `Founded` plans: what is
active or verified has its dependencies met; `READY` is only restored by
the `refreshReady` at its end. Cancelled subgoals count as met, so an
operation that puts one back to `PENDING` takes the ground from under its
dependents: `Spares` names the three operations that do.

`invalidateDependents` is known by the set of ids its loop has seen, which
no dependent leaves (`Sweep`).
-/
import OperatorRuntime.Lib.Passes
import OperatorRuntime.Lib.Pointwise
import OperatorRuntime.Task.Plan

namespace OperatorRuntime.Task

open Lib

variable {platform : Platform} {subgoals subgoals' : List TaskPlanSubgoal}
  {plan plan' : DurableTaskPlan} {item : TaskPlanSubgoal}

-- ===== dependencies

/-- Active or verified. -/
def TaskPlanSubgoal.Held (item : TaskPlanSubgoal) : Prop :=
  item.status = .active ∨ item.status = .verified

/-- The dependencies of the item are met. -/
def Met (subgoals : List TaskPlanSubgoal) (item : TaskPlanSubgoal) : Prop :=
  ∀ id ∈ item.dependsOn, settledAt subgoals id = true

/-- Whatever is active or verified has its dependencies met. -/
def Founded (subgoals : List TaskPlanSubgoal) : Prop :=
  ∀ item ∈ subgoals, item.Held → Met subgoals item

theorem settled_iff : item.settled = true ↔ item.status = .verified ∨ item.status = .cancelled := by
  simp [TaskPlanSubgoal.settled]

/-- The same subgoal, settled if it was. -/
structure Advances (a b : TaskPlanSubgoal) : Prop where
  id : b.id = a.id
  settled : a.settled = true → b.settled = true

theorem Advances.refl (a : TaskPlanSubgoal) : Advances a a := ⟨rfl, fun h => h⟩

theorem settledAt_mono (h : List.Forall₂ Advances subgoals subgoals') {id : String}
    (hid : settledAt subgoals id = true) : settledAt subgoals' id = true := by
  rw [settledAt, Option.any_eq_true] at hid ⊢
  obtain ⟨a, ha, hsettled⟩ := hid
  obtain ⟨b, hb, hab⟩ := find?_forall₂ (fun a b hab => by rw [hab.id])
    (List.forall₂_reverse_iff.2 h) ha
  exact ⟨b, hb, hab.settled hsettled⟩

theorem Met.mono (h : Met subgoals item) (hrel : List.Forall₂ Advances subgoals subgoals') :
    Met subgoals' item :=
  fun id hid => settledAt_mono hrel (h id hid)

theorem exists_settled {id : String} (h : settledAt subgoals id = true) :
    ∃ s ∈ subgoals, s.id = id ∧ s.settled = true := by
  rw [settledAt, Option.any_eq_true] at h
  obtain ⟨s, hs, hsettled⟩ := h
  have hkey := List.find?_some hs
  exact ⟨s, List.mem_reverse.1 (List.mem_of_find?_eq_some hs), by simpa using hkey, hsettled⟩

theorem settledAt_of_mem (hnd : (subgoals.map (·.id)).Nodup) {s : TaskPlanSubgoal}
    (hs : s ∈ subgoals) (hsettled : s.settled = true) : settledAt subgoals s.id = true := by
  have hnd' : (subgoals.reverse.map (·.id)).Nodup := by
    rw [List.map_reverse]
    exact List.nodup_reverse.2 hnd
  have hfind : byId? subgoals s.id = some s :=
    (find?_key_eq_some hnd').2 ⟨List.mem_reverse.2 hs, rfl⟩
  rw [settledAt, hfind]
  exact hsettled

-- ===== refresh

theorem refreshItem_advances («at» : String) (a : TaskPlanSubgoal) :
    Advances a (refreshItem subgoals «at» a) := by
  unfold refreshItem
  split
  · next hopen =>
    have hnot : ¬ a.settled = true := by
      rw [settled_iff]
      rcases hopen with h | h
      · rw [h]
        decide
      · rw [h]
        decide
    split
    · exact ⟨rfl, fun h => absurd h hnot⟩
    · exact ⟨rfl, fun h => absurd h hnot⟩
  · exact Advances.refl a

theorem refreshItem_closed {«at» : String} {a : TaskPlanSubgoal}
    (h : ¬ (a.status = .pending ∨ a.status = .ready)) : refreshItem subgoals «at» a = a :=
  if_neg h

theorem Founded.refreshReady (h : Founded plan.subgoals) («at» : String) :
    Sequenced (refreshReady plan «at») := by
  have hrel : List.Forall₂ Advances plan.subgoals (Task.refreshReady plan «at»).subgoals :=
    forall₂_map_self fun a _ => refreshItem_advances «at» a
  intro item hitem hstatus
  obtain ⟨a, ha, rfl⟩ := List.mem_map.1 hitem
  by_cases hopen : a.status = .pending ∨ a.status = .ready
  · -- it is ready because its dependencies were found met
    unfold refreshItem at hstatus ⊢
    rw [if_pos hopen] at hstatus ⊢
    split at hstatus
    · next hall =>
      rw [if_pos hall]
      exact Met.mono (fun id hid => List.all_eq_true.1 hall id hid) hrel
    · simp at hstatus
  · rw [refreshItem_closed hopen] at hstatus ⊢
    refine Met.mono (h a ha ?_) hrel
    rcases hstatus with hs | hs
    · exact absurd (Or.inr hs) hopen
    · exact hs

theorem Sequenced.founded (h : Sequenced plan) : Founded plan.subgoals :=
  fun item hitem hheld => h item hitem (.inr hheld)

-- ===== operations

theorem requireSubgoal_ok {id : String} (h : requireSubgoal plan id = .ok item) :
    plan.subgoals.find? (fun candidate => candidate.id == id) = some item := by
  rw [requireSubgoal] at h
  split at h
  · next heq => rw [heq, Except.ok.inj h]
  · exact absurd h fail_ne_ok

theorem activateSubgoal_ok {id «at» : String}
    (h : activateSubgoal platform plan id «at» = .ok plan') : ∃ item updatedAt attempts,
      plan.subgoals.find? (fun candidate => candidate.id == id) = some item
        ∧ (item.status = .ready ∨ item.status = .active)
        ∧ plan'.subgoals = updateFirst (fun item => item.id == id)
          (fun item => { item with attempts, status := .active, updatedAt }) plan.subgoals := by
  rw [activateSubgoal] at h
  simp only [bind_eq_ok, rejectIf_eq_ok, Except.ok.injEq] at h
  obtain ⟨item, hitem, -, hstatus, updatedAt, -, rfl⟩ := h
  rw [not_and_or, not_not, not_not] at hstatus
  exact ⟨item, updatedAt, _, requireSubgoal_ok hitem, hstatus, rfl⟩

theorem verifySubgoal_ok {id «at» : String}
    (h : verifySubgoal platform plan id «at» = .ok plan') : ∃ item mid updatedAt,
      plan.subgoals.find? (fun candidate => candidate.id == id) = some item ∧ item.status = .active
        ∧ mid.subgoals = updateFirst (fun item => item.id == id)
          (fun item => { item with status := .verified, updatedAt }) plan.subgoals
        ∧ plan' = refreshReady mid updatedAt := by
  rw [verifySubgoal] at h
  simp only [bind_eq_ok, rejectIf_eq_ok, Except.ok.injEq, not_not] at h
  obtain ⟨item, hitem, -, hstatus, updatedAt, -, rfl⟩ := h
  exact ⟨item, _, updatedAt, requireSubgoal_ok hitem, hstatus, rfl, rfl⟩

theorem Sequenced.activate (h : Sequenced plan) {id «at» : String}
    (hok : activateSubgoal platform plan id «at» = .ok plan') : Sequenced plan' := by
  obtain ⟨item, updatedAt, attempts, hfind, hstatus, heq⟩ := activateSubgoal_ok hok
  have hmem := List.mem_of_find?_eq_some hfind
  have hnot : ¬ item.settled = true := by
    rw [settled_iff]
    rcases hstatus with hs | hs
    · rw [hs]
      decide
    · rw [hs]
      decide
  have hrel : List.Forall₂ Advances plan.subgoals plan'.subgoals := by
    rw [heq]
    exact forall₂_updateFirst (fun b _ => Advances.refl b) hfind ⟨rfl, fun hs => absurd hs hnot⟩
  intro x hx hx'
  rw [heq] at hx
  rcases mem_updateFirst_find hfind hx with hold | rfl
  · exact Met.mono (h x hold hx') hrel
  · have hmet : Met plan.subgoals item := by
      refine h item hmem ?_
      rcases hstatus with hs | hs
      · exact .inl hs
      · exact .inr (.inl hs)
    exact hmet.mono hrel

theorem Sequenced.verify (h : Sequenced plan) {id «at» : String}
    (hok : verifySubgoal platform plan id «at» = .ok plan') : Sequenced plan' := by
  obtain ⟨item, mid, updatedAt, hfind, hstatus, heq, rfl⟩ := verifySubgoal_ok hok
  have hmem := List.mem_of_find?_eq_some hfind
  have hrel : List.Forall₂ Advances plan.subgoals mid.subgoals := by
    rw [heq]
    exact forall₂_updateFirst (fun b _ => Advances.refl b) hfind ⟨rfl, fun _ => rfl⟩
  refine Founded.refreshReady ?_ updatedAt
  intro x hx hheld
  rw [heq] at hx
  rcases mem_updateFirst_find hfind hx with hold | rfl
  · exact Met.mono (h x hold (.inr hheld)) hrel
  · have hmet : Met plan.subgoals item := h item hmem (.inr (.inl hstatus))
    exact hmet.mono hrel

-- ===== normalisation

theorem bounded_eq {value text label : String} {max : Nat}
    (h : bounded value max label = .ok text) : text = value := by
  rw [bounded] at h
  simp only [bind_eq_ok, Except.ok.injEq] at h
  obtain ⟨-, -, rfl⟩ := h
  rfl

theorem validIso_eq {value text label : String}
    (h : validIso platform value label = .ok text) : text = value := by
  rw [validIso] at h
  simp only [bind_eq_ok, Except.ok.injEq] at h
  obtain ⟨text', htext, -, -, rfl⟩ := h
  exact bounded_eq htext

theorem validKey_eq {value key : String} (h : validKey value = .ok key) : key = value := by
  rw [validKey] at h
  simp only [bind_eq_ok, Except.ok.injEq] at h
  obtain ⟨key', hkey, -, -, rfl⟩ := h
  exact bounded_eq hkey

theorem uniqueBounded_eq {values result : List String} {max length : Nat} {label : String}
    (h : uniqueBounded values max length label = .ok result) : result = values := by
  rw [uniqueBounded] at h
  simp only [bind_eq_ok, Except.ok.injEq] at h
  obtain ⟨-, -, result', hmap, -, -, rfl⟩ := h
  exact mapM_eq_input bounded_eq hmap

theorem cloneAction_eq {input action : TaskPlanAction} (h : cloneAction input = .ok action) :
    action = input := by
  rw [cloneAction] at h
  simp only [bind_eq_ok, Except.ok.injEq] at h
  obtain ⟨capability, hcap, -, -, target, htarget, rfl⟩ := h
  rw [bounded_eq hcap, optionMapM_eq_input bounded_eq htarget]

theorem cloneContract_eq {input contract : SuccessContract}
    (h : cloneContract input = .ok contract) : contract = input := by
  rw [cloneContract] at h
  simp only [bind_eq_ok, Except.ok.injEq] at h
  obtain ⟨action, haction, -, -, rfl⟩ := h
  rw [cloneAction_eq haction]

theorem normalizeSubgoal_eq {taskId : String} {item' : TaskPlanSubgoal}
    (h : normalizeSubgoal platform taskId item = .ok item') : item' = item := by
  rw [normalizeSubgoal] at h
  simp only [bind_eq_ok, Except.ok.injEq] at h
  obtain ⟨-, -, -, -, -, -, -, -, -, -, -, -, -, -, dependsOn, hdeps, evidence, hevidence,
    scope, hscope, contract, hcontract, observe, hobserve, action, haction, -, -, -, -, rfl⟩ := h
  rw [uniqueBounded_eq hdeps, uniqueBounded_eq hevidence, uniqueBounded_eq hscope,
    cloneContract_eq hcontract, cloneAction_eq hobserve, cloneAction_eq haction]

theorem normalizeDurableTaskPlan_ok (h : normalizeDurableTaskPlan platform plan = .ok plan') :
    plan' = refreshReady plan plan.updatedAt ∧ (plan.subgoals.map (·.id)).Nodup
    ∧ (plan.subgoals.map (·.key)).Nodup := by
  rw [normalizeDurableTaskPlan] at h
  simp only [bind_eq_ok, rejectIf_eq_ok, Except.ok.injEq] at h
  obtain ⟨-, -, -, -, -, -, -, -, -, -, -, -, -, -, items, hitems, -, hnd, -, -, -, -, -, -, -, -,
    rfl⟩ := h
  obtain rfl := mapM_eq_input normalizeSubgoal_eq hitems
  rw [not_or, not_not, not_not] at hnd
  exact ⟨rfl, hnd⟩

theorem map_id_refreshReady («at» : String) :
    (refreshReady plan «at»).subgoals.map (·.id) = plan.subgoals.map (·.id) := by
  rw [refreshReady, List.map_map]
  refine List.map_congr_left ?_
  intro a _
  exact (refreshItem_advances «at» a).id

theorem refreshItem_key («at» : String) (a : TaskPlanSubgoal) :
    (refreshItem subgoals «at» a).key = a.key := by
  unfold refreshItem
  split
  · split <;> rfl
  · rfl

theorem map_key_refreshReady («at» : String) :
    (refreshReady plan «at»).subgoals.map (·.key) = plan.subgoals.map (·.key) := by
  rw [refreshReady, List.map_map]
  refine List.map_congr_left ?_
  intro a _
  exact refreshItem_key «at» a

-- ===== invalidation

section
variable {id reason «at» : String}

/-- What the loop of `invalidateDependents` has done to the subgoals it
started from. -/
structure Sweep (subgoals : List TaskPlanSubgoal) (id reason «at» : String)
    (s : Invalidation) : Prop where
  marked : s.subgoals = subgoals.map fun item =>
    if item.id ∈ s.seen then item.invalidated reason «at» else item
  started : id ∈ s.seen ∨ id ∈ s.queue
  closed : ∀ x ∈ s.seen, ∀ y, DependsOn subgoals x y → y ∈ s.seen ∨ y ∈ s.queue
  reached : ∀ x, x ∈ s.seen ∨ x ∈ s.queue → Relation.ReflTransGen (DependsOn subgoals) id x
  known : ∀ x ∈ s.queue, x ∈ subgoals.map (·.id)

theorem sweep_start (hid : id ∈ subgoals.map (·.id)) :
    Sweep subgoals id reason «at» { subgoals, queue := [id], seen := [] } where
  marked := by simp
  started := .inr (List.mem_singleton_self _)
  closed := fun x hx => absurd hx List.not_mem_nil
  reached := by
    intro x hx
    rcases hx with hx | hx
    · cases hx
    · rw [List.mem_singleton.1 hx]
  known := by
    intro x hx
    rw [List.mem_singleton.1 hx]
    exact hid

theorem mem_dependents {s : Invalidation} (h : Sweep subgoals id reason «at» s) {x y : String} :
    y ∈ (s.subgoals.filter fun candidate => x ∈ candidate.dependsOn).map (·.id)
    ↔ DependsOn subgoals x y := by
  rw [h.marked]
  simp only [List.mem_map, List.mem_filter, decide_eq_true_eq, DependsOn]
  constructor
  · rintro ⟨a, ⟨⟨item, hitem, rfl⟩, hx⟩, rfl⟩
    split at hx
    · next hseen =>
      rw [if_pos hseen]
      exact ⟨item, hitem, rfl, hx⟩
    · next hseen =>
      rw [if_neg hseen]
      exact ⟨item, hitem, rfl, hx⟩
  · rintro ⟨item, hitem, rfl, hx⟩
    refine ⟨_, ⟨⟨item, hitem, rfl⟩, ?_⟩, ?_⟩
    · split
      · exact hx
      · exact hx
    · split
      · rfl
      · rfl

/-- The subgoals still unseen weigh more than any queue. -/
def sweepMeasure (subgoals : List TaskPlanSubgoal) (s : Invalidation) : Nat :=
  (subgoals.filter fun item => item.id ∉ s.seen).length * (subgoals.length + 1) + s.queue.length

/-- One round keeps the sweep and brings it nearer to its end. -/
theorem Sweep.next (hnd : (subgoals.map (·.id)).Nodup) {s s' : Invalidation}
    (h : Sweep subgoals id reason «at» s) (hnext : invalidateNext reason «at» s = some s') :
    Sweep subgoals id reason «at» s' ∧ sweepMeasure subgoals s' < sweepMeasure subgoals s := by
  rw [invalidateNext] at hnext
  cases hqueue : s.queue with
  | nil =>
    rw [hqueue] at hnext
    cases hnext
  | cons current queue =>
    rw [hqueue] at hnext
    dsimp only at hnext
    split at hnext
    · next hseen =>
      obtain rfl := Option.some.inj hnext
      refine ⟨⟨h.marked, ?_, ?_, ?_, ?_⟩, ?_⟩
      · rcases h.started with hs | hs
        · exact .inl hs
        · rw [hqueue] at hs
          rcases List.mem_cons.1 hs with rfl | hs
          · exact .inl hseen
          · exact .inr hs
      · intro x hx y hxy
        rcases h.closed x hx y hxy with hy | hy
        · exact .inl hy
        · rw [hqueue] at hy
          rcases List.mem_cons.1 hy with rfl | hy
          · exact .inl hseen
          · exact .inr hy
      · intro x hx
        refine h.reached x (hx.imp_right fun hx => ?_)
        rw [hqueue]
        exact List.mem_cons_of_mem _ hx
      · intro x hx
        refine h.known x ?_
        rw [hqueue]
        exact List.mem_cons_of_mem _ hx
      · simp only [sweepMeasure, hqueue, List.length_cons]
        omega
    · next hseen =>
      obtain rfl := Option.some.inj hnext
      have hcurrent : current ∈ s.queue := by
        rw [hqueue]
        exact List.mem_cons_self ..
      have hids : s.subgoals.map (·.id) = subgoals.map (·.id) := by
        rw [h.marked, List.map_map]
        refine List.map_congr_left fun a _ => ?_
        show (if a.id ∈ s.seen then a.invalidated reason «at» else a).id = a.id
        split <;> rfl
      refine ⟨⟨?_, ?_, ?_, ?_, ?_⟩, ?_⟩
      · have hnd' : (s.subgoals.map (·.id)).Nodup := hids ▸ hnd
        dsimp only
        rw [updateFirst_eq_map hnd', h.marked, List.map_map]
        refine List.map_congr_left fun a _ => ?_
        simp only [Function.comp_apply, List.mem_cons]
        by_cases ha : a.id = current
        · have hnot : a.id ∉ s.seen := ha ▸ hseen
          simp [ha, hseen]
        · by_cases hin : a.id ∈ s.seen
          · simp [ha, hin, TaskPlanSubgoal.invalidated]
          · simp [ha, hin]
      · rcases h.started with hs | hs
        · exact .inl (List.mem_cons_of_mem _ hs)
        · rw [hqueue] at hs
          rcases List.mem_cons.1 hs with rfl | hs
          · exact .inl (List.mem_cons_self ..)
          · exact .inr (List.mem_append_left _ hs)
      · intro x hx y hxy
        rcases List.mem_cons.1 hx with rfl | hx
        · exact .inr (List.mem_append_right _ ((mem_dependents h).2 hxy))
        · rcases h.closed x hx y hxy with hy | hy
          · exact .inl (List.mem_cons_of_mem _ hy)
          · rw [hqueue] at hy
            rcases List.mem_cons.1 hy with rfl | hy
            · exact .inl (List.mem_cons_self ..)
            · exact .inr (List.mem_append_left _ hy)
      · intro x hx
        have hroot := h.reached current (.inr hcurrent)
        rcases hx with hx | hx
        · rcases List.mem_cons.1 hx with rfl | hx
          · exact hroot
          · exact h.reached x (.inl hx)
        · rcases List.mem_append.1 hx with hx | hx
          · refine h.reached x (.inr ?_)
            rw [hqueue]
            exact List.mem_cons_of_mem _ hx
          · exact hroot.tail ((mem_dependents h).1 hx)
      · intro x hx
        rcases List.mem_append.1 hx with hx | hx
        · refine h.known x ?_
          rw [hqueue]
          exact List.mem_cons_of_mem _ hx
        · obtain ⟨item, hitem, rfl, -⟩ := (mem_dependents h).1 hx
          exact List.mem_map_of_mem hitem
      · -- one subgoal fewer is unseen, and at most all of them enter the queue
        have hlength : s.subgoals.length = subgoals.length := by
          rw [h.marked, List.length_map]
        have henter := List.length_filter_le (fun candidate : TaskPlanSubgoal =>
          decide (current ∈ candidate.dependsOn)) s.subgoals
        obtain ⟨item, hitem, hitemId⟩ := List.mem_map.1 (h.known current hcurrent)
        have hfewer : (subgoals.filter fun item => item.id ∉ current :: s.seen).length
            < (subgoals.filter fun item => item.id ∉ s.seen).length := by
          have hsub : (subgoals.filter fun item => item.id ∉ current :: s.seen).Sublist
              (subgoals.filter fun item => item.id ∉ s.seen) := by
            refine List.monotone_filter_right _ ?_
            intro x hx
            simp only [List.mem_cons, not_or, decide_eq_true_eq] at hx ⊢
            exact hx.2
          refine Nat.lt_of_le_of_ne hsub.length_le ?_
          intro heq
          have hin : item ∈ subgoals.filter fun item => item.id ∉ current :: s.seen := by
            rw [hsub.eq_of_length heq]
            exact List.mem_filter.2 ⟨hitem, by simpa [hitemId] using hseen⟩
          simp [hitemId] at hin
        simp only [sweepMeasure, hqueue, List.length_cons, List.length_append, List.length_map]
        have hmul := Nat.mul_le_mul_right (subgoals.length + 1) (Nat.succ_le_of_lt hfewer)
        rw [Nat.succ_mul] at hmul
        omega

/-- The sweep ends with what depends on the subgoal, and with nothing else. -/
theorem exists_swept (hnd : (plan.subgoals.map (·.id)).Nodup)
    (hid : id ∈ plan.subgoals.map (·.id)) : ∃ seen : List String,
      (invalidateDependents plan id reason «at»).subgoals = plan.subgoals.map (fun item =>
            if item.id ∈ seen then item.invalidated reason «at» else item)
        ∧ id ∈ seen
        ∧ (∀ x ∈ seen, ∀ y, DependsOn plan.subgoals x y → y ∈ seen)
        ∧ ∀ x ∈ seen, Relation.ReflTransGen (DependsOn plan.subgoals) id x := by
  have hstart : Sweep plan.subgoals id reason «at»
      { subgoals := plan.subgoals, queue := [id], seen := [] } := sweep_start hid
  let last := whileSome (invalidateNext reason «at»)
    ((plan.subgoals.length + 1) * (plan.subgoals.length + 1))
    { subgoals := plan.subgoals, queue := [id], seen := [] }
  have hend : Sweep plan.subgoals id reason «at» last :=
    whileSome_invariant (fun hs hnext => (Sweep.next hnd hs hnext).1) _ hstart
  have hstop : invalidateNext reason «at» last = none := by
    refine whileSome_stops_of (sweepMeasure plan.subgoals)
      (fun hs hnext => Sweep.next hnd hs hnext) hstart ?_
    have hle := List.length_filter_le (fun item : TaskPlanSubgoal =>
      decide (item.id ∉ ([] : List String))) plan.subgoals
    have hmul := Nat.mul_le_mul_right (plan.subgoals.length + 1) hle
    simp only [sweepMeasure, List.length_singleton, Nat.succ_mul]
    omega
  have hqueue : last.queue = [] := by
    rw [invalidateNext] at hstop
    split at hstop
    · next heq => exact heq
    · split at hstop
      · cases hstop
      · cases hstop
  refine ⟨_, hend.marked, ?_, ?_, fun x hx => hend.reached x (.inl hx)⟩
  · rcases hend.started with hs | hs
    · exact hs
    · rw [hqueue] at hs
      cases hs
  · intro x hx y hxy
    rcases hend.closed x hx y hxy with hy | hy
    · exact hy
    · rw [hqueue] at hy
      cases hy

end

end OperatorRuntime.Task
