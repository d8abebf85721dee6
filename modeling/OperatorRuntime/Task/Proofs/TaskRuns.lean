/-
What one operation of a batch keeps, and from it what a run of sparing
calls keeps: `Revises` collects the four facts about an operation, and a
batch has them because each of its operations has. Ids are known to be
distinct only once the batch is accepted, so that fact runs backwards.
-/
import OperatorRuntime.Task.Proofs.TaskLaws

namespace OperatorRuntime.Task

open Lib

variable {platform : Platform} {subgoals subgoals' : List TaskPlanSubgoal}
  {plan plan' : DurableTaskPlan} {item target : TaskPlanSubgoal}

-- ===== inventory

theorem Founded.of_kept (h : Founded subgoals) (hnd : (subgoals'.map (·.id)).Nodup)
    (hheld : ∀ item ∈ subgoals', item.Held → item ∈ subgoals)
    (hkept : ∀ item ∈ subgoals', item.Held → ∀ s ∈ subgoals, s.id ∈ item.dependsOn →
      s.settled = true → s ∈ subgoals') : Founded subgoals' := by
  intro item hitem hh id hid
  obtain ⟨s, hs, rfl, hsettled⟩ := exists_settled (h item (hheld item hitem hh) hh id hid)
  exact settledAt_of_mem hnd (hkept item hitem hh s hs hid hsettled) hsettled

theorem not_held_pending (h : item.status = .pending) : ¬ item.Held := by
  intro hheld
  rcases hheld with hs | hs
  · rw [h] at hs
    cases hs
  · rw [h] at hs
    cases hs

theorem statusOf_eq_some (hnd : (plan.subgoals.map (·.key)).Nodup) {key : String}
    {status : TaskSubgoalStatus} : statusOf plan key = some status
    ↔ ∃ item ∈ plan.subgoals, item.key = key ∧ item.status = status := by
  rw [statusOf, Option.map_eq_some_iff]
  constructor
  · intro h
    obtain ⟨item, hfind, hstatus⟩ := h
    obtain ⟨hmem, hkey⟩ := (find?_key_eq_some hnd).1 hfind
    exact ⟨item, hmem, hkey, hstatus⟩
  · intro h
    obtain ⟨item, hmem, hkey, hstatus⟩ := h
    exact ⟨item, (find?_key_eq_some hnd).2 ⟨hmem, hkey⟩, hstatus⟩

/-- Cancelled subgoals are still there. -/
def KeepsCancelled (plan plan' : DurableTaskPlan) (key : String) : Prop :=
  ∀ item ∈ plan.subgoals, item.key = key → item.status = .cancelled →
    ∃ item' ∈ plan'.subgoals, item'.key = key ∧ item'.status = .cancelled

-- ===== operations

/-- What an operation that spares cancelled subgoals does to a plan. -/
structure Revises (operation : TaskPlanRevisionOperation) (plan plan' : DurableTaskPlan) :
    Prop where
  ids : (plan'.subgoals.map (·.id)).Nodup → (plan.subgoals.map (·.id)).Nodup
  keys : (plan.subgoals.map (·.key)).Nodup → (plan'.subgoals.map (·.key)).Nodup
  founded : (plan'.subgoals.map (·.id)).Nodup → Founded plan.subgoals → Founded plan'.subgoals
  cancelled : ∀ key, (plan'.subgoals.map (·.id)).Nodup → (∀ step, operation ≠ .replace key step) →
    KeepsCancelled plan plan' key

theorem founded_updateByKey {key : String} {write : TaskPlanSubgoal → TaskPlanSubgoal}
    (hfind : plan.subgoals.find? (fun item => item.key == key) = some target)
    (hnd : ((updateByKey plan key write).subgoals.map (·.id)).Nodup)
    (hwrite : ¬ (write target).Held)
    (hneeded : ∀ item ∈ plan.subgoals, item.Held → target.id ∈ item.dependsOn →
      target.settled = false) (h : Founded plan.subgoals) :
    Founded (updateByKey plan key write).subgoals := by
  have hheld : ∀ item ∈ (updateByKey plan key write).subgoals, item.Held →
      item ∈ plan.subgoals := by
    intro item hitem hh
    rcases mem_updateFirst_find hfind hitem with hold | rfl
    · exact hold
    · exact absurd hh hwrite
  refine h.of_kept hnd hheld ?_
  intro item hitem hh s hs hid hsettled
  refine mem_updateFirst_of_ne hfind hs ?_
  rintro rfl
  rw [hneeded item (hheld item hitem hh) hh hid] at hsettled
  cases hsettled

theorem nodup_updateByKey {γ : Type} {key : String} {write : TaskPlanSubgoal → TaskPlanSubgoal}
    {f : TaskPlanSubgoal → γ} (hf : ∀ item, f (write item) = f item) :
    ((updateByKey plan key write).subgoals.map f).Nodup ↔ (plan.subgoals.map f).Nodup := by
  rw [updateByKey, map_updateFirst fun item _ => hf item]

theorem keepsCancelled_updateByKey {key : String} {write : TaskPlanSubgoal → TaskPlanSubgoal}
    (hfind : plan.subgoals.find? (fun item => item.key == key) = some target) {other : String}
    (hwrite : target.key = other → target.status = .cancelled →
      (write target).key = other ∧ (write target).status = .cancelled) :
    KeepsCancelled plan (updateByKey plan key write) other := by
  intro item hitem hkey hstatus
  by_cases hne : item = target
  · subst hne
    exact ⟨_, mem_updateFirst_of_find? hfind, hwrite hkey hstatus⟩
  · exact ⟨item, mem_updateFirst_of_ne hfind hitem hne, hkey, hstatus⟩

variable {timestamp : String}

theorem revises_cancel {key : String}
    (hfind : plan.subgoals.find? (fun item => item.key == key) = some target) :
    Revises (.cancel key) plan (updateByKey plan key fun item =>
      { item with status := .cancelled, updatedAt := timestamp }) where
  ids := by
    intro h
    refine (nodup_updateByKey ?_).1 h
    exact fun _ => rfl
  keys := by
    intro h
    refine (nodup_updateByKey ?_).2 h
    exact fun _ => rfl
  founded := by
    intro hnd h item hitem hheld
    have hrel : List.Forall₂ Advances plan.subgoals (updateByKey plan key fun item =>
        { item with status := .cancelled, updatedAt := timestamp }).subgoals :=
      forall₂_updateFirst (fun b _ => Advances.refl b) hfind ⟨rfl, fun _ => rfl⟩
    rcases mem_updateFirst_find hfind hitem with hold | rfl
    · exact (h item hold hheld).mono hrel
    · rcases hheld with hs | hs
      · cases hs
      · cases hs
  cancelled := fun _ _ _ =>
    keepsCancelled_updateByKey hfind fun hkey _ => ⟨hkey, rfl⟩

theorem revises_replace {key : String} {step : TaskPlanStepDefinition}
    {replacement : TaskPlanSubgoal} (hpending : replacement.status = .pending)
    (hfind : plan.subgoals.find? (fun item => item.key == key) = some target)
    (hstatus : ¬ target.Held) (hspares : SparesTarget plan.subgoals target (.replace key step)) :
    Revises (.replace key step) plan (updateByKey plan key fun item =>
      { replacement with
        id := item.id, key := item.key, dependsOn := item.dependsOn
        parentId := item.parentId }) where
  ids := by
    intro h
    refine (nodup_updateByKey ?_).1 h
    exact fun _ => rfl
  keys := by
    intro h
    refine (nodup_updateByKey ?_).2 h
    exact fun _ => rfl
  founded := by
    intro hnd h
    refine founded_updateByKey hfind hnd (not_held_pending hpending) ?_ h
    intro item hitem hheld hid
    rw [← Bool.not_eq_true, settled_iff]
    intro hsettled
    rcases hsettled with hs | hs
    · exact hstatus (.inr hs)
    · obtain ⟨hactive, hverified⟩ := hspares hs item hitem hid
      rcases hheld with hi | hi
      · exact hactive hi
      · exact hverified hi
  cancelled := by
    intro other _ hne item hitem hkey hcancelled
    refine ⟨item, mem_updateFirst_of_ne hfind hitem ?_, hkey, hcancelled⟩
    rintro rfl
    have hk : item.key = key := by simpa using List.find?_some hfind
    exact hne step (by rw [← hkey, hk])

theorem insertBefore_perm {key : String} {inserted : TaskPlanSubgoal}
    {items : List TaskPlanSubgoal} (h : ∃ item ∈ items, item.key = key) :
    (insertBefore key inserted items).Perm (inserted :: items) := by
  induction items with
  | nil =>
    obtain ⟨item, hitem, -⟩ := h
    cases hitem
  | cons item items ih =>
    rw [insertBefore]
    split
    · exact List.Perm.refl _
    · next hne =>
      have hrest : ∃ item ∈ items, item.key = key := by
        obtain ⟨x, hx, hkey⟩ := h
        rcases List.mem_cons.1 hx with rfl | hx
        · exact absurd hkey hne
        · exact ⟨x, hx, hkey⟩
      exact ((ih hrest).cons item).trans (List.Perm.swap ..)

/-- The plan an accepted `insert_prerequisite` leaves. -/
def inserted (plan : DurableTaskPlan) (key timestamp : String) (item : TaskPlanSubgoal) :
    DurableTaskPlan :=
  { plan with
    subgoals := insertBefore key item (updateByKey plan key fun target =>
      { target with dependsOn := [item.id], status := .pending
                    updatedAt := timestamp }).subgoals }

theorem inserted_perm {key : String}
    (hfind : plan.subgoals.find? (fun item => item.key == key) = some target) :
    (inserted plan key timestamp item).subgoals.Perm
      (item :: (updateByKey plan key fun target =>
        { target with dependsOn := [item.id], status := .pending
                      updatedAt := timestamp }).subgoals) := by
  refine insertBefore_perm ⟨_, mem_updateFirst_of_find? hfind, ?_⟩
  simpa using List.find?_some hfind

theorem revises_insert {key : String} {step : TaskPlanStepDefinition}
    (hpending : item.status = .pending) (hfresh : item.key ∉ plan.subgoals.map (·.key))
    (hfind : plan.subgoals.find? (fun item => item.key == key) = some target)
    (hstatus : ¬ target.Held)
    (hspares : SparesTarget plan.subgoals target (.insertPrerequisite key step)) :
    Revises (.insertPrerequisite key step) plan (inserted plan key timestamp item) where
  ids := by
    intro h
    rw [((inserted_perm hfind).map _).nodup_iff, List.map_cons] at h
    refine (nodup_updateByKey ?_).1 (List.nodup_cons.1 h).2
    exact fun _ => rfl
  keys := by
    intro h
    have hmid : (updateByKey plan key fun target =>
        { target with dependsOn := [item.id], status := .pending
                      updatedAt := timestamp }).subgoals.map (·.key)
          = plan.subgoals.map (·.key) := by
      refine map_updateFirst ?_ _
      exact fun _ _ => rfl
    rw [((inserted_perm hfind).map _).nodup_iff, List.map_cons, hmid]
    exact List.nodup_cons.2 ⟨hfresh, h⟩
  founded := by
    intro hnd h
    rw [((inserted_perm hfind).map _).nodup_iff] at hnd
    have hnot : target.settled = false := by
      rw [← Bool.not_eq_true, settled_iff]
      intro hs
      rcases hs with hs | hs
      · exact hstatus (.inr hs)
      · exact hspares hs
    have hmid := founded_updateByKey hfind (List.nodup_cons.1 hnd).2
      (not_held_pending rfl) (fun _ _ _ _ => hnot) h
    have hcons : Founded (item :: (updateByKey plan key fun target =>
        { target with dependsOn := [item.id], status := .pending
                      updatedAt := timestamp }).subgoals) := by
      refine hmid.of_kept hnd ?_ fun _ _ _ s hs _ _ => List.mem_cons_of_mem _ hs
      intro x hx hheld
      rcases List.mem_cons.1 hx with rfl | hx
      · exact absurd hheld (not_held_pending hpending)
      · exact hx
    refine hcons.of_kept (((inserted_perm hfind).map _).nodup_iff.2 hnd) ?_ ?_
    · exact fun x hx _ => (inserted_perm hfind).mem_iff.1 hx
    · exact fun _ _ _ s hs _ _ => (inserted_perm hfind).mem_iff.2 hs
  cancelled := by
    intro other _ _ x hx hkey hcancelled
    refine ⟨x, ?_, hkey, hcancelled⟩
    rw [(inserted_perm hfind).mem_iff]
    refine List.mem_cons_of_mem _ (mem_updateFirst_of_ne hfind hx ?_)
    rintro rfl
    exact hspares hcancelled

variable {reason «at» : String}

theorem map_invalidateDependents {γ : Type} {f : TaskPlanSubgoal → γ} {id : String}
    (hf : ∀ item, f (TaskPlanSubgoal.invalidated reason «at» item) = f item) :
    (invalidateDependents plan id reason «at»).subgoals.map f = plan.subgoals.map f := by
  refine whileSome_invariant (I := fun s : Invalidation =>
    s.subgoals.map f = plan.subgoals.map f) ?_ _ rfl
  intro s s' hs hnext
  rw [invalidateNext] at hnext
  split at hnext
  · cases hnext
  · split at hnext
    · rw [← Option.some.inj hnext]
      exact hs
    · rw [← Option.some.inj hnext]
      exact (map_updateFirst (fun item _ => hf item) _).trans hs

theorem revises_invalidate {key : String}
    (hfind : plan.subgoals.find? (fun item => item.key == key) = some target)
    (hspares : SparesTarget plan.subgoals target (.invalidate key reason)) :
    Revises (.invalidate key reason) plan
      (invalidateDependents plan target.id reason timestamp) := by
  have hmem := List.mem_of_find?_eq_some hfind
  have hids : (invalidateDependents plan target.id reason timestamp).subgoals.map (·.id)
      = plan.subgoals.map (·.id) := map_invalidateDependents fun _ => rfl
  have hkeys : (invalidateDependents plan target.id reason timestamp).subgoals.map (·.key)
      = plan.subgoals.map (·.key) := map_invalidateDependents fun _ => rfl
  refine ⟨fun h => hids ▸ h, fun h => hkeys ▸ h, ?_, ?_⟩
  · intro hnd h
    obtain ⟨seen, hswept, -, hclosed, -⟩ :=
      @exists_swept _ _ reason timestamp (hids ▸ hnd) (List.mem_map_of_mem hmem)
    refine h.of_kept hnd ?_ ?_
    · intro item hitem hheld
      rw [hswept] at hitem
      obtain ⟨a, ha, rfl⟩ := List.mem_map.1 hitem
      by_cases hin : a.id ∈ seen
      · rw [if_pos hin] at hheld
        exact absurd hheld (not_held_pending rfl)
      · rw [if_neg hin]
        exact ha
    · intro item hitem hheld s hs hid _
      rw [hswept] at hitem ⊢
      obtain ⟨a, ha, rfl⟩ := List.mem_map.1 hitem
      by_cases hin : a.id ∈ seen
      · rw [if_pos hin] at hheld
        exact absurd hheld (not_held_pending rfl)
      · rw [if_neg hin] at hid
        -- the dependency is not swept, or its dependent were
        have hout : s.id ∉ seen := fun hs' => hin (hclosed s.id hs' a.id ⟨a, ha, rfl, hid⟩)
        exact List.mem_map.2 ⟨s, hs, if_neg hout⟩
  · intro other hnd _ item hitem hkey hcancelled
    obtain ⟨seen, hswept, -, -, hreached⟩ :=
      @exists_swept _ _ reason timestamp (hids ▸ hnd) (List.mem_map_of_mem hmem)
    have hout : item.id ∉ seen := fun hin => hspares item hitem (hreached _ hin) hcancelled
    refine ⟨item, ?_, hkey, hcancelled⟩
    rw [hswept]
    exact List.mem_map.2 ⟨item, hitem, if_neg hout⟩

-- ===== batches

theorem createRevisionSubgoal_pending {step : TaskPlanStepDefinition} {sourceIndex : Nat}
    (h : createRevisionSubgoal platform plan step sourceIndex «at» = .ok item) :
    item.status = .pending := by
  rw [createRevisionSubgoal] at h
  simp only [bind_eq_ok, Except.ok.injEq] at h
  obtain ⟨_, -, _, -, _, -, _, -, _, -, _, -, rfl⟩ := h
  rfl

theorem reviseOne_ok {operation : TaskPlanRevisionOperation}
    (h : reviseOne platform timestamp plan operation = .ok plan') : ∃ target,
      plan.subgoals.find? (fun item => item.key == operation.targetKey) = some target
        ∧ reviseTarget platform timestamp plan target operation = .ok plan' := by
  rw [reviseOne, bind_eq_ok] at h
  obtain ⟨key, hkey, h⟩ := h
  rw [validKey_eq hkey] at h
  split at h
  · exact absurd h fail_ne_ok
  · next target hfind => exact ⟨target, hfind, h⟩

theorem reviseOne_revises {operation : TaskPlanRevisionOperation}
    (h : reviseOne platform timestamp plan operation = .ok plan')
    (hspares : ∀ target, plan.subgoals.find? (fun item => item.key == operation.targetKey)
      = some target → SparesTarget plan.subgoals target operation) :
    Revises operation plan plan' := by
  obtain ⟨target, hfind, hok⟩ := reviseOne_ok h
  have hspares := hspares target hfind
  have hkey : target.key = operation.targetKey := by simpa using List.find?_some hfind
  cases operation with
  | cancel key =>
    rw [reviseTarget] at hok
    simp only [bind_eq_ok, Except.ok.injEq] at hok
    obtain ⟨_, -, rfl⟩ := hok
    rw [hkey]
    exact revises_cancel hfind
  | invalidate key reason =>
    rw [reviseTarget] at hok
    simp only [bind_eq_ok, Except.ok.injEq] at hok
    obtain ⟨_, -, reason', hreason, rfl⟩ := hok
    rw [bounded_eq hreason]
    exact revises_invalidate hfind hspares
  | replace key step =>
    rw [reviseTarget] at hok
    simp only [bind_eq_ok, rejectIf_eq_ok, Except.ok.injEq] at hok
    obtain ⟨_, hheld, replacement, hreplacement, rfl⟩ := hok
    rw [hkey]
    exact revises_replace (createRevisionSubgoal_pending hreplacement) hfind hheld hspares
  | insertPrerequisite key step =>
    rw [reviseTarget] at hok
    simp only [bind_eq_ok, rejectIf_eq_ok, Except.ok.injEq] at hok
    obtain ⟨_, hheld, _, -, item, hitem, _, hfresh, rfl⟩ := hok
    rw [hkey]
    have hpending : ({ item with dependsOn := target.dependsOn } : TaskPlanSubgoal).status
        = .pending := by
      show item.status = .pending
      exact createRevisionSubgoal_pending hitem
    refine revises_insert hpending ?_ hfind hheld hspares
    intro hin
    obtain ⟨x, hx, hxkey⟩ := List.mem_map.1 hin
    exact hfresh ⟨x, hx, hxkey⟩

/-- What a batch that spares cancelled subgoals does to a plan. -/
structure RevisesAll (operations : List TaskPlanRevisionOperation)
    (plan plan' : DurableTaskPlan) : Prop where
  ids : (plan'.subgoals.map (·.id)).Nodup → (plan.subgoals.map (·.id)).Nodup
  keys : (plan.subgoals.map (·.key)).Nodup → (plan'.subgoals.map (·.key)).Nodup
  founded : (plan'.subgoals.map (·.id)).Nodup → Founded plan.subgoals → Founded plan'.subgoals
  cancelled : ∀ key, (plan'.subgoals.map (·.id)).Nodup →
    (∀ step, .replace key step ∉ operations) → KeepsCancelled plan plan' key

theorem revisesAll {operations : List TaskPlanRevisionOperation}
    (h : operations.foldlM (reviseOne platform timestamp) plan = .ok plan')
    (hspares : SparesBatch platform timestamp plan operations) :
    RevisesAll operations plan plan' := by
  induction operations generalizing plan with
  | nil =>
    rw [← Except.ok.inj h]
    exact ⟨fun hn => hn, fun hn => hn, fun _ hf => hf,
      fun _ _ _ item hitem hkey hstatus => ⟨item, hitem, hkey, hstatus⟩⟩
  | cons operation operations ih =>
    rw [List.foldlM_cons, bind_eq_ok] at h
    obtain ⟨mid, hmid, h⟩ := h
    have hone := reviseOne_revises hmid hspares.1
    have hrest := ih h (hspares.2 mid hmid)
    refine ⟨fun hn => hone.ids (hrest.ids hn), fun hn => hrest.keys (hone.keys hn),
      fun hn hf => hrest.founded hn (hone.founded (hrest.ids hn) hf), ?_⟩
    intro key hn hne item hitem hkey hstatus
    obtain ⟨item', hitem', hkey', hstatus'⟩ := hone.cancelled key (hrest.ids hn)
      (fun step heq => hne step (heq ▸ List.mem_cons_self ..)) item hitem hkey hstatus
    exact hrest.cancelled key hn (fun step hin => hne step (List.mem_cons_of_mem _ hin))
      item' hitem' hkey' hstatus'

-- ===== calls

theorem reviseDurableTaskPlan_ok {operations : List TaskPlanRevisionOperation}
    (h : reviseDurableTaskPlan platform plan operations reason «at» = .ok plan') :
    ∃ mid last : DurableTaskPlan,
      normalizeDurableTaskPlan platform plan = .ok (refreshReady plan plan.updatedAt)
        ∧ (plan.subgoals.map (·.key)).Nodup
        ∧ operations.foldlM (reviseOne platform «at») (refreshReady plan plan.updatedAt) = .ok mid
        ∧ last.subgoals = mid.subgoals ∧ (mid.subgoals.map (·.id)).Nodup
        ∧ plan' = refreshReady (refreshReady last «at») last.updatedAt := by
  rw [reviseDurableTaskPlan] at h
  simp only [bind_eq_ok] at h
  obtain ⟨start, hstart, _, -, timestamp, hat, mid, hmid, _, -, reason', -, hlast⟩ := h
  obtain ⟨rfl, -, hkeys⟩ := normalizeDurableTaskPlan_ok hstart
  rw [validIso_eq hat] at hmid hlast
  obtain ⟨rfl, hids, -⟩ := normalizeDurableTaskPlan_ok hlast
  rw [map_id_refreshReady] at hids
  refine ⟨mid, _, hstart, hkeys, hmid, ?_, hids, rfl⟩
  rfl

theorem keepsCancelled_refreshReady (plan : DurableTaskPlan) («at» key : String) :
    KeepsCancelled plan (refreshReady plan «at») key := by
  intro item hitem hkey hstatus
  refine ⟨item, List.mem_map.2 ⟨item, hitem, refreshItem_closed ?_⟩, hkey, hstatus⟩
  rw [hstatus]
  decide

theorem KeepsCancelled.trans {a b c : DurableTaskPlan} {key : String}
    (hab : KeepsCancelled a b key) (hbc : KeepsCancelled b c key) : KeepsCancelled a c key := by
  intro item hitem hkey hstatus
  obtain ⟨item', hitem', hkey', hstatus'⟩ := hab item hitem hkey hstatus
  exact hbc item' hitem' hkey' hstatus'

/-- The state of a plan between calls. -/
structure Ordered (plan : DurableTaskPlan) : Prop where
  sequenced : Sequenced plan
  keys : (plan.subgoals.map (·.key)).Nodup

/-- One call keeps the order, and what is cancelled stays so unless its key is
replaced. -/
theorem Ordered.step {call : PlanCall} (h : Ordered plan)
    (hstep : step platform plan call = some plan') (hspares : Spares platform plan call) :
    Ordered plan' ∧ ∀ key, ¬ call.replaces key → KeepsCancelled plan plan' key := by
  cases call with
  | next =>
    obtain rfl := Option.some.inj hstep
    exact ⟨⟨h.sequenced.founded.refreshReady _, (map_key_refreshReady _).symm ▸ h.keys⟩,
      fun key _ => keepsCancelled_refreshReady plan plan.updatedAt key⟩
  | activate id «at» =>
    have hok := toOption_eq_some.1 hstep
    obtain ⟨item, updatedAt, attempts, hfind, hstatus, heq⟩ := activateSubgoal_ok hok
    refine ⟨⟨h.sequenced.activate hok, ?_⟩, ?_⟩
    · rw [heq, map_updateFirst]
      · exact h.keys
      · exact fun _ _ => rfl
    · intro key _ x hx hkey hcancelled
      refine ⟨x, ?_, hkey, hcancelled⟩
      rw [heq]
      refine mem_updateFirst_of_ne hfind hx ?_
      rintro rfl
      rw [hcancelled] at hstatus
      revert hstatus
      decide
  | verify id «at» =>
    have hok := toOption_eq_some.1 hstep
    obtain ⟨item, mid, updatedAt, hfind, hstatus, heq, hplan⟩ := verifySubgoal_ok hok
    refine ⟨⟨h.sequenced.verify hok, ?_⟩, ?_⟩
    · rw [hplan, map_key_refreshReady, heq, map_updateFirst]
      · exact h.keys
      · exact fun _ _ => rfl
    · intro key _
      have hmid : KeepsCancelled plan mid key := by
        intro x hx hkey hcancelled
        refine ⟨x, ?_, hkey, hcancelled⟩
        rw [heq]
        refine mem_updateFirst_of_ne hfind hx ?_
        rintro rfl
        rw [hcancelled] at hstatus
        cases hstatus
      rw [hplan]
      exact hmid.trans (keepsCancelled_refreshReady mid updatedAt key)
  | revise operations reason «at» =>
    have hok := toOption_eq_some.1 hstep
    obtain ⟨mid, last, hnormal, hkeys, hbatch, hlast, hids, rfl⟩ := reviseDurableTaskPlan_ok hok
    have hall := revisesAll hbatch (hspares _ hnormal)
    have hstart := (h.sequenced.founded.refreshReady plan.updatedAt).founded
    have hfounded : Founded last.subgoals := hlast ▸ hall.founded hids hstart
    refine ⟨⟨((hfounded.refreshReady «at»).founded).refreshReady _, ?_⟩, ?_⟩
    · rw [map_key_refreshReady, map_key_refreshReady, hlast]
      exact hall.keys ((map_key_refreshReady _).symm ▸ hkeys)
    · intro key hne
      have hmid := hall.cancelled key hids fun step hin => hne ⟨step, hin⟩
      have hlast' : KeepsCancelled mid last key := by
        intro x hx hkey hcancelled
        exact ⟨x, hlast ▸ hx, hkey, hcancelled⟩
      exact (((keepsCancelled_refreshReady plan _ key).trans hmid).trans hlast').trans
        ((keepsCancelled_refreshReady last «at» key).trans (keepsCancelled_refreshReady _ _ key))

-- ===== creation

theorem createSubgoal_ok {taskId : String} {keys : List String} {sourceIndex : Nat}
    {step : TaskPlanStepDefinition}
    (h : createSubgoal platform taskId keys «at» sourceIndex step = .ok item) :
    item.key = step.key ∧ (item.status = .pending ∨ item.dependsOn = []) := by
  rw [createSubgoal] at h
  split at h
  all_goals
    simp only [bind_eq_ok, Except.ok.injEq] at h
    obtain ⟨_, -, _, -, dependsOn, -, _, -, _, -, _, -, _, -, _, -, _, -, rfl⟩ := h
    refine ⟨rfl, ?_⟩
    dsimp only
    split
    · next hnil => exact .inr (List.length_eq_zero_iff.1 hnil)
    · exact .inl rfl

theorem createDurableTaskPlan_ordered {input : PlanInput}
    (h : createDurableTaskPlan platform input = .ok plan) : Ordered plan := by
  rw [createDurableTaskPlan] at h
  simp only [bind_eq_ok, rejectIf_eq_ok, Except.ok.injEq, not_not] at h
  obtain ⟨at', -, _, -, keys, hkeys, _, hnodup, items, hitems, _, -, _, -, _, -, _, -, _, -, rfl⟩ := h
  refine ⟨?_, ?_⟩
  · intro item hitem hstatus id hid
    obtain ⟨⟨step, sourceIndex⟩, -, hcreate⟩ := exists_of_mapM_eq_ok hitems hitem
    rcases (createSubgoal_ok hcreate).2 with hs | hs
    · rw [hs] at hstatus
      exact absurd hstatus (by decide)
    · rw [hs] at hid
      cases hid
  · have hkey : items.map (·.key) = input.steps.zipIdx.map fun p => p.1.key :=
      map_eq_of_mapM_eq_ok hitems fun p _ _ hcreate => (createSubgoal_ok hcreate).1
    have hkeys' : keys.map id = input.steps.map (·.key) :=
      map_eq_of_mapM_eq_ok hkeys fun step _ _ hvalid => validKey_eq hvalid
    have hzip : (input.steps.zipIdx.map fun p => p.1.key) = input.steps.map (·.key) := by
      have hfst := congrArg (List.map (·.key)) (List.zipIdx_map_fst 0 input.steps)
      rwa [List.map_map] at hfst
    rw [hkey, hzip, ← hkeys', List.map_id]
    exact hnodup

-- ===== runs

/-- The same over a run, by induction on its calls. -/
theorem Ordered.run {calls : List PlanCall} (h : Ordered plan)
    (hrun : Run (Where (stepsOf (Task.step platform)) (Spares platform)) plan calls plan') :
    Ordered plan' ∧ ∀ key, (∀ call ∈ calls, ¬ call.replaces key) →
      KeepsCancelled plan plan' key := by
  refine Run.history (P := fun calls plan' => Ordered plan' ∧ ∀ key,
    (∀ call ∈ calls, ¬ call.replaces key) → KeepsCancelled plan plan' key) hrun ⟨h, ?_⟩ ?_
  · exact fun key _ item hitem hkey hstatus => ⟨item, hitem, hkey, hstatus⟩
  · intro calls s t call hs hstep
    obtain ⟨hordered, hkeeps⟩ := hs.1.step hstep.1 hstep.2
    refine ⟨hordered, ?_⟩
    intro key hne
    have hbefore := hs.2 key fun c hc => hne c (List.mem_append_left _ hc)
    exact hbefore.trans (hkeeps key (hne call (List.mem_append_right _ (List.mem_singleton_self _))))

/-- In every run whose batches spare cancelled subgoals, what is ready,
active or verified has its dependencies verified or cancelled, and a
cancelled subgoal stays so until it is replaced itself. -/
theorem durableTaskPlan_laws (platform : Platform) (input : PlanInput)
    (plan₀ : DurableTaskPlan) (hcreate : createDurableTaskPlan platform input = .ok plan₀)
    (calls : List PlanCall) (plan : DurableTaskPlan)
    (hrun : Run (Where (stepsOf (step platform)) (Spares platform)) plan₀ calls plan) :
    Sequenced plan ∧ ∀ later plan',
      Run (Where (stepsOf (step platform)) (Spares platform)) plan later plan' →
        ∀ key, statusOf plan key = some .cancelled →
          (∀ call ∈ later, ¬ call.replaces key) → statusOf plan' key = some .cancelled := by
  have hordered := ((createDurableTaskPlan_ordered hcreate).run hrun).1
  refine ⟨hordered.sequenced, ?_⟩
  intro later plan' hlater key hcancelled hne
  obtain ⟨hordered', hkeeps⟩ := hordered.run hlater
  obtain ⟨item, hitem, hkey, hstatus⟩ := (statusOf_eq_some hordered.keys).1 hcancelled
  exact (statusOf_eq_some hordered'.keys).2 (hkeeps key hne item hitem hkey hstatus)

-- ===== samples

/-- The values of SHA-256 and `Date.parse` the sample run asks for. -/
def samplePlatform : Platform where
  sha256 := fun text =>
    if text = "t\x00a" then
      ⟨"bc6f9628ae35013a85e6690988f42959a083d5c67d20dddc7b3c41f76222d69b", by decide⟩
    else ⟨"d4381011694ab642d669596ccd8de13517a89c485369eeee76bb0ad289bb1956", by decide⟩
  dateParse := fun text =>
    if text = "2026-01-01T00:00:00.000Z" then some 1767225600000 else none

def sampleStep (key : String) : TaskPlanStepDefinition where
  key := key
  title := "work"
  parentKey := none
  dependsOn := none
  resourceScope := none
  observe := { capability := "file.read", input := [], target := none }
  action := { capability := "file.write", input := [], target := none }
  verify := { capability := "file.read", input := [], target := none, assertions := [.null] }

def sampleInput : PlanInput where
  taskId := "t"
  objective := "objective"
  constraints := []
  finalSuccessConditions := []
  steps := [sampleStep "a"]
  now := "2026-01-01T00:00:00.000Z"

def cancelCall : PlanCall := .revise [.cancel "a"] "not needed" "2026-01-01T00:00:00.000Z"

def insertCall : PlanCall :=
  .revise [.insertPrerequisite "a" (sampleStep "r")] "prepare" "2026-01-01T00:00:00.000Z"

theorem sample_trace :
    ((createDurableTaskPlan samplePlatform sampleInput).toOption.bind fun plan₀ =>
      (exec (step samplePlatform) plan₀ [cancelCall]).bind fun plan =>
        (exec (step samplePlatform) plan [insertCall]).map fun plan' =>
          (statusOf plan "a", statusOf plan' "a"))
      = some (some .cancelled, some .pending) := by
  decide +kernel

theorem sample_run : ∃ plan₀ plan plan',
    createDurableTaskPlan samplePlatform sampleInput = .ok plan₀
    ∧ exec (step samplePlatform) plan₀ [cancelCall] = some plan
    ∧ exec (step samplePlatform) plan [insertCall] = some plan'
    ∧ statusOf plan "a" = some .cancelled ∧ statusOf plan' "a" = some .pending := by
  obtain ⟨plan₀, hcreate, htrace⟩ := Option.bind_eq_some_iff.1 sample_trace
  obtain ⟨plan, hplan, htrace⟩ := Option.bind_eq_some_iff.1 htrace
  obtain ⟨plan', hplan', hpair⟩ := Option.map_eq_some_iff.1 htrace
  obtain ⟨hone, htwo⟩ := Prod.mk.inj hpair
  exact ⟨plan₀, plan, plan', toOption_eq_some.1 hcreate, hplan, hplan', hone, htwo⟩

/-- The only subgoal is cancelled. -/
theorem durableTaskPlan_laws_cancel : ∃ plan, Sequenced plan ∧ statusOf plan "a" = some .cancelled
    ∧ statusOf (nextReadySubgoal plan).1 "a" = some .cancelled := by
  obtain ⟨plan₀, plan, _, hcreate, hexec, -, hcancelled, -⟩ := sample_run
  have hspares : ∀ s, ∀ call ∈ [cancelCall], Spares samplePlatform s call := by
    intro s call hcall
    rw [List.mem_singleton.1 hcall]
    exact fun mid _ => ⟨fun target _ => trivial, fun last _ => trivial⟩
  have hlaws := durableTaskPlan_laws samplePlatform sampleInput plan₀ hcreate [cancelCall] plan
    (run_where_of_exec hexec hspares)
  refine ⟨plan, hlaws.1, hcancelled, ?_⟩
  refine hlaws.2 [.next] _ (run_where_of_exec rfl ?_) "a" hcancelled ?_
  · intro s call hcall
    rw [List.mem_singleton.1 hcall]
    trivial
  · intro call hcall
    rw [List.mem_singleton.1 hcall]
    exact fun h => h

/-- Inserting a prerequisite before a cancelled subgoal brings it back. -/
theorem cancelled_subgoal_returns : ∃ plan₀ plan plan',
    createDurableTaskPlan samplePlatform sampleInput = .ok plan₀
    ∧ Run (stepsOf (step samplePlatform)) plan₀ [cancelCall] plan
    ∧ Run (stepsOf (step samplePlatform)) plan [insertCall] plan'
    ∧ statusOf plan "a" = some .cancelled ∧ (∀ call ∈ [insertCall], ¬ call.replaces "a")
    ∧ statusOf plan' "a" ≠ some .cancelled := by
  obtain ⟨plan₀, plan, plan', hcreate, hexec, hexec', hcancelled, hpending⟩ := sample_run
  refine ⟨plan₀, plan, plan', hcreate, run_of_exec hexec, run_of_exec hexec', hcancelled, ?_, ?_⟩
  · intro call hcall h
    rw [List.mem_singleton.1 hcall] at h
    obtain ⟨step, hin⟩ := h
    cases List.mem_singleton.1 hin
  · rw [hpending]
    exact fun h => (nomatch h)

end OperatorRuntime.Task
