/-
What an operation on a mission can do, told once (`Effect`): every result
about runs of the coordinator reads an operation through this, so only
this file looks into the mutators.
-/
import OperatorRuntime.Team.Proofs.Invariant

namespace OperatorRuntime.Team

-- ===== expiry

/-- The leases of the chosen items have ended. -/
structure Expired (chosen : TeamWorkItem → Bool) (m m' : TeamMission) :
    Prop where
  inv : TeamInv m'
  budget : m'.budget = m.budget
  state : m'.state = m.state
  items : m'.workItems = m.workItems.map fun item =>
    if chosen item then item.expired else item
  untouched : (∀ item ∈ m.workItems, chosen item = false) → m'.resources = m.resources

/-- The work of a mission, without its state. -/
structure SameWork (m m' : TeamMission) : Prop where
  items : m'.workItems = m.workItems
  resources : m'.resources = m.resources
  budget : m'.budget = m.budget

/-- What `reapExpired` leaves. -/
structure Reaped (now : Instant) (m m' : TeamMission) : Prop where
  inv : TeamInv m'
  budget : m'.budget = m.budget
  items : m'.workItems = m.workItems.map fun item =>
    if item.lapsed now then item.expired else item
  untouched : (∀ item ∈ m.workItems, item.lapsed now = false) → m'.resources = m.resources
  state : m'.state = if m'.anyUncertain = true ∧ m.state.terminal = false
    then .blocked else m.state

section
variable {m m' m₁ : TeamMission} {item : TeamWorkItem} {stamp : String → Instant}

theorem SameWork.refl : SameWork m m := ⟨rfl, rfl, rfl⟩

variable {chosen : TeamWorkItem → Bool}

theorem mem_keys_filter (hinv : TeamInv m) (hmem : item ∈ m.workItems) :
    item.key ∈ (m.workItems.filter chosen).map TeamWorkItem.key ↔ chosen item = true := by
  rw [List.mem_map]
  constructor
  · rintro ⟨other, hother, hkey⟩
    obtain ⟨hother, hchosen⟩ := List.mem_filter.1 hother
    rw [eq_of_key hinv.itemKeys hother hmem hkey] at hchosen
    exact hchosen
  · exact fun hchosen => ⟨item, List.mem_filter.2 ⟨hmem, hchosen⟩, rfl⟩

theorem expireLeases_filter (hinv : TeamInv m) (hchosen : ∀ item ∈ m.workItems, chosen item = true →
      item.lease.isSome = true)
    (hok : expireLeases stamp m (m.workItems.filter chosen) = .ok m') :
    Expired chosen m m' := by
  have huntouched : (∀ item ∈ m.workItems, chosen item = false) → m'.resources = m.resources := by
    intro hnone
    have hnil : m.workItems.filter chosen = [] :=
      List.filter_eq_nil_iff.2 fun item hitem => by rw [hnone item hitem]; simp
    rw [hnil] at hok
    cases hok
    rfl
  have hkeys : ((m.workItems.filter chosen).map TeamWorkItem.key).Nodup :=
    hinv.itemKeys.sublist (List.filter_sublist.map _)
  obtain ⟨hinv', resources, hm'⟩ := expireLeases_ok hinv
    (fun item hitem => (List.mem_filter.1 hitem).1)
    (fun item hitem => hchosen item (List.mem_filter.1 hitem).1
      (List.mem_filter.1 hitem).2) hkeys hok
  refine ⟨hinv', by rw [hm'], by rw [hm'], ?_, huntouched⟩
  rw [hm']
  refine List.map_congr_left fun item hitem => ?_
  by_cases hc : chosen item = true
  · rw [if_pos hc, if_pos ((mem_keys_filter hinv hitem).2 hc)]
  · rw [if_neg hc, if_neg (mt (mem_keys_filter hinv hitem).1 hc)]

theorem invalidateLiveLeases_ok (hinv : TeamInv m) (hok : invalidateLiveLeases stamp m = .ok m') :
    Expired (fun item => item.lease.isSome) m m' :=
  expireLeases_filter hinv (fun _ _ h => h) hok

theorem reapExpired_ok {now : Instant} (hinv : TeamInv m)
    (hok : reapExpired now stamp m = .ok m') : Reaped now m m' := by
  obtain ⟨reaped, hexpire, hok⟩ := bind_eq_ok.1 hok
  cases hok
  have hworkers : TeamInv { m with
      workers := m.workers.map (TeamWorker.reap m.budget.leaseMs now) } :=
    hinv.congr_state rfl rfl rfl (.inl rfl)
  have hexpired := expireLeases_filter hworkers (fun item _ hlapsed => by
    unfold TeamWorkItem.lapsed at hlapsed
    rw [Bool.and_eq_true] at hlapsed
    exact Option.isSome_of_any hlapsed.2) hexpire
  have hstate : reaped.state = m.state := hexpired.state
  refine ⟨?_, hexpired.budget, hexpired.items, hexpired.untouched, ?_⟩
  · refine hexpired.inv.congr_state rfl rfl rfl ?_
    show (if _ then TeamMissionState.blocked else reaped.state) = _ ∨ _
    split
    · exact .inr ⟨by simp, by simp⟩
    · exact .inl rfl
  · show (if _ then TeamMissionState.blocked else reaped.state) = _
    rw [hstate]
    rfl

theorem mem_expired {items : List TeamWorkItem} (hitems : items = m.workItems.map fun item =>
      if chosen item then item.expired else item)
    (hmem : item ∈ items) :
    item ∈ m.workItems ∨ ∃ old ∈ m.workItems, chosen old = true ∧ item = old.expired := by
  rw [hitems] at hmem
  obtain ⟨old, hold, rfl⟩ := List.mem_map.1 hmem
  by_cases hc : chosen old = true
  · rw [if_pos hc]
    exact .inr ⟨old, hold, hc, rfl⟩
  · rw [if_neg hc]
    exact .inl hold

theorem Expired.free (hexpired : Expired (fun item => item.lease.isSome) m m')
    (hmem : item ∈ m'.workItems) : item.lease = none := by
  rw [hexpired.items] at hmem
  obtain ⟨old, _, rfl⟩ := List.mem_map.1 hmem
  by_cases hlease : old.lease.isSome = true
  · rw [if_pos hlease]
    rfl
  · rw [if_neg hlease]
    simpa using hlease

theorem expired_state (item : TeamWorkItem) : item.expired.state = .pending
    ∨ item.expired.state = .needsReconciliation := by
  unfold TeamWorkItem.expired
  by_cases hrisk : item.risk = .read
  · exact .inl (if_pos hrisk)
  · exact .inr (if_neg hrisk)

end

-- ===== effects

/-- The operation begins by reaping expired leases. -/
def TeamOp.reaps : TeamOp → Bool
  | .start _ | .registerWorker _ | .heartbeat _ _ | .claim _ _ _
  | .putBlackboard _ | .authorizeExecution _ _ | .complete _ _ _ _
  | .fail _ => true
  | _ => false

def TeamOp.starts : TeamOp → Bool
  | .start _ | .resume _ => true
  | _ => false

/-- The operations that reap, and write what they reaped, whatever the
state of the mission. -/
def TeamOp.reapsAnyway : TeamOp → Bool
  | .registerWorker _ | .heartbeat _ _ | .putBlackboard _ => true
  | _ => false

/-- An item with a new end of its lease. -/
def TeamWorkItem.extended (item : TeamWorkItem) (now expiresAt : Instant) : TeamWorkItem :=
  { item with
    lease := item.lease.map fun lease =>
      { lease with heartbeatAt := now, expiresAt } }

/-- An item a claim gives away. -/
def TeamWorkItem.granted (item : TeamWorkItem) (lease : TeamLease) : TeamWorkItem :=
  { item with
    attempts := item.attempts + 1, lease := some lease, state := .leased }

def TeamWorkItem.done (item : TeamWorkItem) (result : TeamWorkResult) : TeamWorkItem :=
  { item with result := some result, state := .completed, lease := none }

def TeamWorkItem.failing (item : TeamWorkItem) (failure : TeamFailure) : TeamWorkItem :=
  { item with state := .failed, failure := some failure }

def TeamWorkItem.returned (item : TeamWorkItem) (failure : TeamFailure)
    (state : TeamWorkState) : TeamWorkItem :=
  { item with lease := none, failure := some failure, state := state }

/-- Every resource the item lists is certain and free. -/
def FreeFor (m : TeamMission) (item : TeamWorkItem) : Prop :=
  ∀ resource ∈ m.resources, resource.key ∈ item.resources →
    resource.lock = none ∧ resource.uncertain = false

/-- The leases a claim counts. -/
def liveLeases (m : TeamMission) (now : Instant) : Nat :=
  m.workItems.countP fun item => item.state == .leased
    && item.lease.any fun lease => now.val < lease.expiresAt.val

/-- What a resolution makes of an item. -/
structure Resolved (resolution : Resolution) (item item' : TeamWorkItem) :
    Prop where
  state : item'.state = match resolution with
    | .completed => .completed
    | .retry => .pending
    | .failed => .failed
  lease : item'.lease = item.lease
  attempts : item'.attempts = item.attempts
  result : resolution ≠ .completed → item'.result = item.result

/-- What an operation that returns has done. -/
inductive Effect (env : TeamEnv) (r : Readings) (m : TeamMission) :
    TeamOp → TeamMission → Prop
  /-- Nothing that the other cases tell. -/
  | quiet {op : TeamOp} {m' : TeamMission} : op.starts = false →
      SameWork m m' → m'.state = m.state → Effect env r m op m'
  | reaped {op : TeamOp} {m₁ m' : TeamMission} : op.reaps = true →
      op.starts = false → Reaped (r.now 0) m m₁ →
      (m₁.state = .running ∨ op.reapsAnyway = true) → SameWork m₁ m' →
      m'.state = m₁.state → Effect env r m op m'
  | started {intent : IntentAnswer} {m₁ m' : TeamMission} :
      Reaped (r.now 0) m m₁ → m₁.state.terminal = false → SameWork m₁ m' →
      m'.state = .running → Effect env r m (.start intent) m'
  | paused {m₁ m' : TeamMission} :
      m.state = .running ∨ m.state = .blocked →
      Expired (fun item => item.lease.isSome) m m₁ → SameWork m₁ m' →
      m'.state = .paused → Effect env r m .pause m'
  | resumed {intent : IntentAnswer} {m' : TeamMission} :
      m.state = .paused ∨ m.state = .blocked → SameWork m m' →
      m'.state = .running → Effect env r m (.resume intent) m'
  | cancelled {m₁ m' : TeamMission} : m.state.terminal = false →
      Expired (fun item => item.lease.isSome) m m₁ →
      (m'.workItems = m₁.workItems.map fun item =>
        if item.state = .completed ∨ item.state = .failed then item
        else { item with state := .cancelled }) →
      m'.resources = m₁.resources → m'.budget = m₁.budget →
      m'.state = .cancelled → Effect env r m .cancel m'
  /-- A claim or an authorization found the mission out of time, or
  uncertain. -/
  | stopped {op : TeamOp} {m₁ m' : TeamMission} : op.reaps = true →
      op.starts = false → Reaped (r.now 0) m m₁ → m₁.state = .running →
      SameWork m₁ m' → m'.state = .failed ∨ m'.state = .blocked →
      Effect env r m op m'
  | extended {op : TeamOp} {m₁ m' : TeamMission} {item : TeamWorkItem}
      {lease : TeamLease} {now expiresAt : Instant} : op.reaps = true →
      op.starts = false → Reaped (r.now 0) m m₁ → item.lease = some lease →
      Change m₁ m' item (item.extended now expiresAt)
        (repeated (TeamResource.extend lease.id expiresAt) item.resources) →
      m'.state = m₁.state → Effect env r m op m'
  /-- A claim found no attempts left. -/
  | exhausted {workerId leaseId : String} {intent : IntentAnswer}
      {m₁ m' : TeamMission} {item : TeamWorkItem} {failure : TeamFailure} :
      Reaped (r.now 0) m m₁ → m₁.state = .running → item.state = .pending →
      FreeFor m₁ item → Change m₁ m' item (item.failing failure) id →
      m'.state = .failed → Effect env r m (.claim workerId leaseId intent) m'
  | granted {workerId leaseId : String} {intent : IntentAnswer}
      {m₁ m' : TeamMission} {item : TeamWorkItem} {lease : TeamLease} :
      Reaped (r.now 0) m m₁ → m₁.state = .running → item.state = .pending →
      FreeFor m₁ item → lease.id = leaseId →
      item.attempts < m₁.budget.maxAttemptsPerWorkItem →
      liveLeases m₁ (r.now 2) < m₁.budget.maxConcurrentLeases →
      Change m₁ m' item (item.granted lease)
        (repeated (fun resource => { resource with lock := some lease.lock }) item.resources) →
      m'.state = m₁.state → Effect env r m (.claim workerId leaseId intent) m'
  | completed {input : CompleteInput} {before : TeamMission}
      {earlier : Readings} {answer : Result CanonicalVerification}
      {m₁ m₂ : TeamMission} {item : TeamWorkItem} {lease : TeamLease}
      {result : TeamWorkResult} {now : Instant} :
      Reaped (r.now 0) m m₁ → requireWorkItem m₁ input.workItemId = .ok item →
      item.lease = some lease →
      (item.role = .verifier → result.verificationPassed = true
        ∧ result.verificationDigest.isSome = true) →
      Change m₁ m₂ item (item.done result)
        (repeated (TeamResource.settle item.risk now) item.resources) →
      m₂.state = m₁.state →
      Effect env r m (.complete input before earlier answer)
        (finalizeIfVerified m₂)
  | failed {input : FailInput} {m₁ m' : TeamMission} {item : TeamWorkItem}
      {lease : TeamLease} {now : Instant} {failure : TeamFailure}
      {state : TeamWorkState} :
      Reaped (r.now 0) m m₁ → requireWorkItem m₁ input.workItemId = .ok item →
      item.lease = some lease →
      (input.sideEffectState = .uncertain ∧ state = .needsReconciliation ∧ m'.state = .blocked
        ∨ input.sideEffectState ≠ .uncertain ∧ (state = .pending ∧ m'.state = m₁.state
            ∨ state = .failed ∧ m'.state = .failed)) →
      Change m₁ m' item (item.returned failure state)
        (repeated (TeamResource.afterFailure lease item.risk
          input.sideEffectState now) item.resources) →
      Effect env r m (.fail input) m'
  | reconciled {input : ReconcileInput} {m₂ m' : TeamMission}
      {item item' : TeamWorkItem} {h : TeamResource → TeamResource} :
      requireWorkItem m input.workItemId = .ok item →
      item.state = .needsReconciliation →
      (env.requireKernelVerification = true → input.resolution = .failed) →
      Change m m₂ item item' h → Resolved input.resolution item item' →
      (∀ resource, resource.lock = none → (h resource).lock = none) →
      SameWork m₂ m' →
      (input.resolution = .failed ∧ m'.state = .failed ∨ input.resolution ≠ .failed
          ∧ (m'.state = m.state ∨ m.state = .blocked ∧ m'.state = .running)) →
      Effect env r m (.reconcile input) (finalizeIfVerified m')
  | revoked {workerId : String} {chosen : TeamWorkItem → Bool}
      {m₁ m' : TeamMission} : SameWork m m₁ → m₁.state = m.state →
      (∀ item ∈ m.workItems, chosen item = true → item.lease.isSome = true) →
      Expired chosen m₁ m' → Effect env r m (.revokeWorker workerId) m'

-- ===== operations

section
variable {env : TeamEnv} {r : Readings} {m m' : TeamMission}

theorem update_ok {mutate : TeamMission → Result TeamMission}
    (hok : update env mutate m = .ok m') : mutate m = .ok m' := by
  unfold update at hok
  obtain ⟨_, _, hok⟩ := bind_eq_ok.1 hok
  obtain ⟨updated, hmutate, hok⟩ := bind_eq_ok.1 hok
  obtain ⟨_, _, hok⟩ := bind_eq_ok.1 hok
  obtain ⟨_, _, hok⟩ := bind_eq_ok.1 hok
  cases hok
  exact hmutate

variable {intent : IntentAnswer}

theorem startIn_effect (hinv : TeamInv m) (hok : startIn r m = .ok m') :
    Effect env r m (.start intent) m' := by
  unfold startIn at hok
  obtain ⟨m₁, hreap, hok⟩ := bind_eq_ok.1 hok
  obtain ⟨_, hterminal, hok⟩ := bind_eq_ok.1 hok
  obtain ⟨deadline, _, hok⟩ := bind_eq_ok.1 hok
  cases hok
  have hnot : ¬ m₁.state.terminal = true := rejectIf_eq_ok.1 hterminal
  exact Effect.started (reapExpired_ok hinv hreap) (by simpa using hnot)
    ⟨rfl, rfl, rfl⟩ rfl

theorem pauseIn_ok (hinv : TeamInv m) (hok : pauseIn r m = .ok m') :
    (m.state = .running ∨ m.state = .blocked) ∧ m'.state = .paused
    ∧ ∃ m₁, Expired (fun item => item.lease.isSome) m m₁ ∧ SameWork m₁ m' := by
  unfold pauseIn at hok
  obtain ⟨_, hstate, hok⟩ := bind_eq_ok.1 hok
  obtain ⟨m₁, hexpire, hok⟩ := bind_eq_ok.1 hok
  cases hok
  have hstate := rejectIf_eq_ok.1 hstate
  refine ⟨?_, rfl, m₁, invalidateLiveLeases_ok hinv hexpire, ⟨rfl, rfl, rfl⟩⟩
  by_contra hnot
  push Not at hnot
  exact hstate hnot

theorem pauseIn_effect (hinv : TeamInv m) (hok : pauseIn r m = .ok m') :
    Effect env r m .pause m' := by
  obtain ⟨hbefore, hstate, m₁, hexpired, hwork⟩ := pauseIn_ok hinv hok
  exact Effect.paused hbefore hexpired hwork hstate

theorem resumeIn_effect (hok : resumeIn r m = .ok m') : Effect env r m (.resume intent) m' := by
  unfold resumeIn at hok
  obtain ⟨_, hstate, hok⟩ := bind_eq_ok.1 hok
  obtain ⟨_, _, hok⟩ := bind_eq_ok.1 hok
  obtain ⟨deadline, _, hok⟩ := bind_eq_ok.1 hok
  cases hok
  have hstate := rejectIf_eq_ok.1 hstate
  refine Effect.resumed ?_ ⟨rfl, rfl, rfl⟩ rfl
  by_contra hnot
  push Not at hnot
  exact hstate hnot

theorem cancelIn_effect (hinv : TeamInv m) (hok : cancelIn r m = .ok m') :
    Effect env r m .cancel m' := by
  unfold cancelIn at hok
  split at hok
  · cases hok
    exact Effect.quiet rfl SameWork.refl rfl
  · next hterminal =>
    obtain ⟨m₁, hexpire, hok⟩ := bind_eq_ok.1 hok
    cases hok
    exact Effect.cancelled (by simpa using hterminal)
      (invalidateLiveLeases_ok hinv hexpire) rfl rfl rfl rfl

theorem registerWorkerIn_effect {input : RegisterInput} (hinv : TeamInv m)
    (hok : registerWorkerIn input r m = .ok m') : Effect env r m (.registerWorker input) m' := by
  unfold registerWorkerIn at hok
  obtain ⟨m₁, hreap, hok⟩ := bind_eq_ok.1 hok
  obtain ⟨id, _, hok⟩ := bind_eq_ok.1 hok
  have hreaped := reapExpired_ok hinv hreap
  split at hok
  · obtain ⟨_, _, hok⟩ := bind_eq_ok.1 hok
    obtain ⟨_, _, hok⟩ := bind_eq_ok.1 hok
    obtain ⟨_, _, hok⟩ := bind_eq_ok.1 hok
    cases hok
    exact Effect.reaped rfl rfl hreaped (.inr rfl) ⟨rfl, rfl, rfl⟩ rfl
  · obtain ⟨_, _, hok⟩ := bind_eq_ok.1 hok
    obtain ⟨_, _, hok⟩ := bind_eq_ok.1 hok
    obtain ⟨_, _, hok⟩ := bind_eq_ok.1 hok
    cases hok
    exact Effect.reaped rfl rfl hreaped (.inr rfl) ⟨rfl, rfl, rfl⟩ rfl

variable {leaseId : String} {expiresAt : Instant} {keys : List String}

theorem extendLocks_ok (hok : extendLocks leaseId expiresAt keys m = .ok m') : m' = { m with
      resources :=
        m.resources.map (repeated (TeamResource.extend leaseId expiresAt) keys) } := by
  refine forResources_ok ?_ fun _ => rfl
  induction keys generalizing m with
  | nil => exact hok
  | cons key keys ih =>
    obtain ⟨resource, hresource, hok⟩ := bind_eq_ok.1 hok
    obtain ⟨_, _, hok⟩ := bind_eq_ok.1 hok
    exact bind_eq_ok.2 ⟨resource, hresource, ih hok⟩

theorem Change.congr {m₁ : TeamMission} {item item' : TeamWorkItem}
    {h : TeamResource → TeamResource} (hchange : Change m m' item item' h)
    (hwork : SameWork m' m₁) : Change m m₁ item item' h :=
  { hchange with
    items := hwork.items.trans hchange.items
    resources := hwork.resources.trans hchange.resources
    budget := hwork.budget.trans hchange.budget }

theorem Change.of_item {item : TeamWorkItem} {g : TeamWorkItem → TeamWorkItem}
    (hinv : TeamInv m) (hmem : item ∈ m.workItems)
    (hshape : SameShape item (g item)) :
    Change m (m.modifyItem item.key g) item (g item) id where
  mem := hmem
  items := by
    refine List.map_congr_left fun other hother => ?_
    show (if other.key = item.key then g other else other) = _
    split
    · next hsame => rw [eq_of_key hinv.itemKeys hother hmem hsame]
    · rfl
  resources := (List.map_id _).symm
  budget := rfl
  shape := hshape
  resourceKey := fun _ => rfl
  others := fun _ _ => rfl

variable {now : Instant}

theorem Change.extend {item : TeamWorkItem} {lease : TeamLease} {workers : List TeamWorker}
    (hinv : TeamInv m) (hmem : item ∈ m.workItems)
    (hm' : m' = { m.extendLease item.key now expiresAt with
      workers := workers
      resources := m.resources.map
        (repeated (TeamResource.extend lease.id expiresAt) item.resources) }) :
    Change m m' item (item.extended now expiresAt)
      (repeated (TeamResource.extend lease.id expiresAt) item.resources) := by
  subst hm'
  exact Change.of_loop (g := fun item => item.extended now expiresAt) hinv hmem
    rfl rfl rfl ⟨rfl, rfl, rfl, rfl⟩ fun _ => rfl

variable {workerId : String}

theorem heartbeatIn_effect {leaseId : Option String} (hinv : TeamInv m)
    (hok : heartbeatIn workerId leaseId r m = .ok m') :
    Effect env r m (.heartbeat workerId leaseId) m' := by
  unfold heartbeatIn at hok
  obtain ⟨m₁, hreap, hok⟩ := bind_eq_ok.1 hok
  obtain ⟨worker, _, hok⟩ := bind_eq_ok.1 hok
  have hreaped := reapExpired_ok hinv hreap
  split at hok
  · cases hok
    exact Effect.reaped rfl rfl hreaped (.inr rfl) ⟨rfl, rfl, rfl⟩ rfl
  · obtain ⟨leaseId, _, hok⟩ := bind_eq_ok.1 hok
    split at hok
    · cases hok
    · next item hfind =>
      obtain ⟨expiresAt, _, hok⟩ := bind_eq_ok.1 hok
      have hmem : item ∈ m₁.workItems := List.mem_of_find?_eq_some hfind
      have hown := List.find?_some hfind
      obtain ⟨lease, hlease, hids⟩ := (Option.any_eq_true _ _).1 hown
      rw [Bool.and_eq_true, beq_iff_eq] at hids
      have hm' := extendLocks_ok hok
      rw [← hids.1] at hm'
      exact Effect.extended rfl rfl hreaped hlease
        (Change.extend hreaped.inv hmem hm') (by rw [hm']; rfl)

theorem putBlackboardIn_effect {input : BlackboardInput} (hinv : TeamInv m)
    (hok : putBlackboardIn env input r m = .ok m') : Effect env r m (.putBlackboard input) m' := by
  unfold putBlackboardIn at hok
  obtain ⟨m₁, hreap, hok⟩ := bind_eq_ok.1 hok
  obtain ⟨worker, _, hok⟩ := bind_eq_ok.1 hok
  have hreaped := reapExpired_ok hinv hreap
  obtain ⟨_, _, hok⟩ := bind_eq_ok.1 hok
  obtain ⟨key, _, hok⟩ := bind_eq_ok.1 hok
  obtain ⟨_, _, hok⟩ := bind_eq_ok.1 hok
  split at hok
  · obtain ⟨_, _, hok⟩ := bind_eq_ok.1 hok
    cases hok
    exact Effect.reaped rfl rfl hreaped (.inr rfl) ⟨rfl, rfl, rfl⟩ rfl
  · obtain ⟨_, _, hok⟩ := bind_eq_ok.1 hok
    obtain ⟨_, _, hok⟩ := bind_eq_ok.1 hok
    cases hok
    exact Effect.reaped rfl rfl hreaped (.inr rfl) ⟨rfl, rfl, rfl⟩ rfl

theorem requireLease_ok {item : TeamWorkItem} {epoch : Nat} {lease : TeamLease}
    (hok : requireLease item workerId leaseId epoch now = .ok lease) : item.lease = some lease := by
  unfold requireLease at hok
  obtain ⟨_, _, hok⟩ := bind_eq_ok.1 hok
  split at hok
  · cases hok
  · next found hfound =>
    obtain ⟨_, _, hok⟩ := bind_eq_ok.1 hok
    obtain ⟨_, _, hok⟩ := bind_eq_ok.1 hok
    cases hok
    exact hfound

theorem requireWorkItem_ok {id : String} {item : TeamWorkItem}
    (hok : requireWorkItem m id = .ok item) : item ∈ m.workItems := by
  unfold requireWorkItem at hok
  obtain ⟨_, _, hok⟩ := bind_eq_ok.1 hok
  split at hok
  · cases hok
  · next found hfound =>
    cases hok
    exact List.mem_of_find?_eq_some hfound

theorem ensureMissionRunnable_ok {runnable : Bool}
    (hok : ensureMissionRunnable now m = .ok (runnable, m')) :
    m.state = .running ∧ (runnable = true ∧ m' = m ∨ runnable = false ∧ SameWork m m'
        ∧ (m'.state = .failed ∨ m'.state = .blocked)) := by
  unfold ensureMissionRunnable at hok
  obtain ⟨_, hrunning, hok⟩ := bind_eq_ok.1 hok
  refine ⟨by simpa using rejectIf_eq_ok.1 hrunning, ?_⟩
  split at hok
  · cases hok
    exact .inr ⟨rfl, ⟨rfl, rfl, rfl⟩, .inl rfl⟩
  · split at hok
    · cases hok
      exact .inr ⟨rfl, ⟨rfl, rfl, rfl⟩, .inr rfl⟩
    · cases hok
      exact .inl ⟨rfl, rfl⟩

theorem authorizeExecutionIn_effect {input : AuthorizeInput} (hinv : TeamInv m)
    (hok : authorizeExecutionIn env input r m = .ok m') :
    Effect env r m (.authorizeExecution input intent) m' := by
  unfold authorizeExecutionIn at hok
  obtain ⟨m₁, hreap, hrest⟩ := bind_eq_ok.1 hok
  obtain ⟨⟨runnable, m₂⟩, hensure, hbody⟩ := bind_eq_ok.1 hrest
  have hreaped := reapExpired_ok hinv hreap
  obtain ⟨hrunning, ⟨hrunnable, hsame⟩ | ⟨hrunnable, hwork, hstate⟩⟩ :=
    ensureMissionRunnable_ok hensure
  · dsimp only at hbody
    rw [if_neg (by rw [hrunnable]; simp), hsame] at hbody
    obtain ⟨worker, _, hok⟩ := bind_eq_ok.1 hbody
    obtain ⟨item, hitem, hok⟩ := bind_eq_ok.1 hok
    obtain ⟨lease, hlease, hok⟩ := bind_eq_ok.1 hok
    iterate 7 obtain ⟨_, _, hok⟩ := bind_eq_ok.1 hok
    obtain ⟨expiresAt, _, hok⟩ := bind_eq_ok.1 hok
    have hm' := forResources_ok hok fun _ => rfl
    exact Effect.extended rfl rfl hreaped (requireLease_ok hlease)
      (Change.extend hreaped.inv (requireWorkItem_ok hitem) hm')
      (by rw [hm']; rfl)
  · dsimp only at hbody
    rw [if_pos hrunnable] at hbody
    cases hbody
    exact Effect.stopped rfl rfl hreaped hrunning hwork hstate

theorem beginActionExecutionIn_effect {input : ActionInput}
    (hok : beginActionExecutionIn env input r m = .ok m') :
    Effect env r m (.beginActionExecution input) m' := by
  unfold beginActionExecutionIn at hok
  iterate 3 obtain ⟨_, _, hok⟩ := bind_eq_ok.1 hok
  split at hok
  · obtain ⟨_, _, hok⟩ := bind_eq_ok.1 hok
    split at hok
    · cases hok
      exact Effect.quiet rfl ⟨rfl, rfl, rfl⟩ rfl
    · cases hok
      exact Effect.quiet rfl SameWork.refl rfl
  · obtain ⟨_, _, hok⟩ := bind_eq_ok.1 hok
    cases hok
    exact Effect.quiet rfl ⟨rfl, rfl, rfl⟩ rfl

theorem completeActionExecutionIn_effect {input : ActionInput} {result : ActionResult}
    (hok : completeActionExecutionIn env input result r m = .ok m') :
    Effect env r m (.completeActionExecution input result) m' := by
  unfold completeActionExecutionIn at hok
  obtain ⟨_, _, hok⟩ := bind_eq_ok.1 hok
  split at hok
  · cases hok
  · obtain ⟨_, _, hok⟩ := bind_eq_ok.1 hok
    obtain ⟨_, _, hok⟩ := bind_eq_ok.1 hok
    split at hok
    · cases hok
      exact Effect.quiet rfl SameWork.refl rfl
    · cases hok
      exact Effect.quiet rfl ⟨rfl, rfl, rfl⟩ rfl

theorem recordActionAuditFailureIn_effect {actionId : String} {degraded : ActionResult}
    (hok : recordActionAuditFailureIn actionId degraded r m = .ok m') :
    Effect env r m (.recordActionAuditFailure actionId degraded) m' := by
  unfold recordActionAuditFailureIn at hok
  obtain ⟨_, _, hok⟩ := bind_eq_ok.1 hok
  cases hok
  exact Effect.quiet rfl ⟨rfl, rfl, rfl⟩ rfl

-- ===== claim

theorem requireResource_ok {key : String} {resource : TeamResource}
    (hok : requireResource m key = .ok resource) : resource ∈ m.resources ∧ resource.key = key := by
  unfold requireResource at hok
  split at hok
  · cases hok
  · next found hfound =>
    cases hok
    exact ⟨List.mem_of_find?_eq_some hfound, by
      simpa using List.find?_some hfound⟩

theorem resourcesFree_ok (hnodup : (m.resources.map TeamResource.key).Nodup)
    (hok : resourcesFree m keys = .ok true) : ∀ resource ∈ m.resources, resource.key ∈ keys →
      resource.lock = none ∧ resource.uncertain = false := by
  induction keys with
  | nil => exact fun _ _ hkey => absurd hkey (List.not_mem_nil)
  | cons key keys ih =>
    intro resource hresource hkey
    obtain ⟨found, hfound, hok⟩ := bind_eq_ok.1 hok
    split at hok
    · cases hok
    · next hfree =>
      rcases List.mem_cons.1 hkey with hkey | hkey
      · obtain ⟨hmem, hfoundKey⟩ := requireResource_ok hfound
        have hsame : found = resource := List.inj_on_of_nodup_map hnodup hmem
          hresource (hfoundKey.trans hkey.symm)
        subst hsame
        simp only [Bool.or_eq_true, not_or, Bool.not_eq_true,
          Option.isSome_eq_false_iff, Option.isNone_iff_eq_none] at hfree
        exact ⟨hfree.2, hfree.1⟩
      · exact ih hok resource hresource hkey

variable {worker : TeamWorker}

/-- A candidate is pending, and its resources are free. -/
theorem claimCandidates_ok (hinv : TeamInv m) {items candidates : List TeamWorkItem}
    (hok : claimCandidates m worker items = .ok candidates) :
    ∀ item ∈ candidates, item ∈ items ∧ item.state = .pending ∧ FreeFor m item := by
  induction items generalizing candidates with
  | nil =>
    cases hok
    exact fun _ hmem => absurd hmem (List.not_mem_nil)
  | cons first items ih =>
    obtain ⟨rest, hrest, hok⟩ := bind_eq_ok.1 hok
    have hlater : ∀ item ∈ rest, item ∈ first :: items
        ∧ item.state = .pending ∧ FreeFor m item := by
      intro item hitem
      obtain ⟨hmem, hstate, hfree⟩ := ih hrest item hitem
      exact ⟨List.mem_cons_of_mem _ hmem, hstate, hfree⟩
    split at hok
    · next hadmits =>
      obtain ⟨free, hfree, hok⟩ := bind_eq_ok.1 hok
      cases hok
      cases free with
      | false => exact hlater
      | true =>
        intro item hitem
        rcases List.mem_cons.1 hitem with rfl | hitem
        · simp only [Bool.and_eq_true, beq_iff_eq] at hadmits
          exact ⟨List.mem_cons_self .., hadmits.1.1.1, resourcesFree_ok hinv.resourceKeys hfree⟩
        · exact hlater item hitem
    · cases hok
      exact hlater

theorem grantLease_ok {item : TeamWorkItem} (hinv : TeamInv m) (hmem : item ∈ m.workItems)
    (hok : grantLease m worker item leaseId now expiresAt = .ok m') :
    ∃ lease : TeamLease, lease.id = leaseId ∧ m'.state = m.state
    ∧ Change m m' item (item.granted lease)
      (repeated (fun resource => { resource with lock := some lease.lock }) item.resources) := by
  unfold grantLease at hok
  obtain ⟨revisions, _, hok⟩ := bind_eq_ok.1 hok
  have hm' := forResources_ok hok fun _ => rfl
  exact ⟨_, rfl, by rw [hm']; rfl,
    Change.of_loop (g := fun item => item.granted _) hinv hmem
      (by rw [hm']; rfl) (by rw [hm']; rfl) (by rw [hm']; rfl)
      ⟨rfl, rfl, rfl, rfl⟩
      (fun _ => rfl)⟩

theorem claimIn_effect (hinv : TeamInv m) (hok : claimIn env workerId leaseId r m = .ok m') :
    Effect env r m (.claim workerId leaseId intent) m' := by
  unfold claimIn at hok
  obtain ⟨m₁, hreap, hrest⟩ := bind_eq_ok.1 hok
  obtain ⟨⟨runnable, m₂⟩, hensure, hbody⟩ := bind_eq_ok.1 hrest
  have hreaped := reapExpired_ok hinv hreap
  obtain ⟨hrunning, ⟨hrunnable, hsame⟩ | ⟨hrunnable, hwork, hstate⟩⟩ :=
    ensureMissionRunnable_ok hensure
  · dsimp only at hbody
    rw [if_neg (by rw [hrunnable]; simp), hsame] at hbody
    obtain ⟨worker, _, hbody⟩ := bind_eq_ok.1 hbody
    obtain ⟨_, _, hbody⟩ := bind_eq_ok.1 hbody
    split at hbody
    · cases hbody
      exact Effect.reaped rfl rfl hreaped (.inl hrunning) SameWork.refl rfl
    · next hcount =>
      obtain ⟨candidates, hcandidates, hbody⟩ := bind_eq_ok.1 hbody
      split at hbody
      · cases hbody
        exact Effect.reaped rfl rfl hreaped (.inl hrunning) SameWork.refl rfl
      · next item others hsorted =>
        have hcandidate : item ∈ candidates :=
          (List.mem_insertionSort _).1 (hsorted ▸ List.mem_cons_self ..)
        obtain ⟨hmem, hpending, hfree⟩ :=
          claimCandidates_ok hreaped.inv hcandidates item hcandidate
        split at hbody
        · cases hbody
          have hchange := Change.of_item (g := fun item => item.failing
            { code := "TEAM_ATTEMPT_BUDGET_EXHAUSTED"
              message := "Work item exhausted attempt budget."
              at' := r.now 3 }) hreaped.inv hmem ⟨rfl, rfl, rfl, rfl⟩
          exact Effect.exhausted hreaped hrunning hpending hfree
            (hchange.congr ⟨rfl, rfl, rfl⟩) rfl
        · next hattempts =>
          obtain ⟨expiresAt, _, hbody⟩ := bind_eq_ok.1 hbody
          obtain ⟨m₃, hgrant, hbody⟩ := bind_eq_ok.1 hbody
          cases hbody
          obtain ⟨lease, hid, hstate, hchange⟩ :=
            grantLease_ok hreaped.inv hmem hgrant
          exact Effect.granted hreaped hrunning hpending hfree hid
            (Nat.lt_of_not_le hattempts) (Nat.lt_of_not_le hcount)
            (hchange.congr ⟨rfl, rfl, rfl⟩) hstate
  · dsimp only at hbody
    rw [if_pos hrunnable] at hbody
    cases hbody
    exact Effect.stopped rfl rfl hreaped hrunning hwork hstate

-- ===== complete and fail

theorem completeIn_effect {input : CompleteInput} {before : TeamMission}
    {earlier : Readings} {answer : Result CanonicalVerification}
    {verified : Option (Hex64 × CanonicalVerification)} (hinv : TeamInv m)
    (hok : completeIn env input verified r m = .ok m') :
    Effect env r m (.complete input before earlier answer) m' := by
  unfold completeIn at hok
  obtain ⟨m₁, hreap, hok⟩ := bind_eq_ok.1 hok
  obtain ⟨worker, _, hok⟩ := bind_eq_ok.1 hok
  obtain ⟨item, hitem, hok⟩ := bind_eq_ok.1 hok
  obtain ⟨lease, hlease, hok⟩ := bind_eq_ok.1 hok
  obtain ⟨_, _, hok⟩ := bind_eq_ok.1 hok
  obtain ⟨digest, hdigest, hok⟩ := bind_eq_ok.1 hok
  obtain ⟨observation, _, hok⟩ := bind_eq_ok.1 hok
  obtain ⟨summary, _, hok⟩ := bind_eq_ok.1 hok
  obtain ⟨evidence, _, hok⟩ := bind_eq_ok.1 hok
  obtain ⟨m₂, hloop, hok⟩ := bind_eq_ok.1 hok
  cases hok
  have hreaped := reapExpired_ok hinv hreap
  have hm₂ := forResources_ok hloop fun _ => rfl
  have hmem := requireWorkItem_ok hitem
  have hpassed : item.role = .verifier → digest.isSome = true := by
    intro hrole
    unfold completionDigest at hdigest
    rw [if_pos hrole] at hdigest
    cases hvalue : verifierDigest env m₁ item input verified with
    | error _ =>
      rw [hvalue] at hdigest
      cases hdigest
    | ok value =>
      rw [hvalue] at hdigest
      cases hdigest
      rfl
  refine Effect.completed hreaped hitem (requireLease_ok hlease)
    (fun hrole => ⟨?_, ?_⟩)
    (Change.of_loop (f := TeamResource.settle item.risk (r.now 2)) (g := fun other => other.done
      { summary, evidence, verificationPassed := item.role == .verifier
        verificationDigest := digest, worldObservationDigest := observation
        completedAt := r.now 2, workerId := worker.id })
      hreaped.inv hmem ?_ ?_ ?_ ⟨rfl, rfl, rfl, rfl⟩ fun _ => rfl) ?_
  · exact beq_iff_eq.2 hrole
  · exact hpassed hrole
  · rw [hm₂]
    rfl
  · rw [hm₂]
    rfl
  · rw [hm₂]
    rfl
  · rw [hm₂]
    rfl

theorem failIn_effect {input : FailInput} (hinv : TeamInv m)
    (hok : failIn input r m = .ok m') : Effect env r m (.fail input) m' := by
  unfold failIn at hok
  obtain ⟨m₁, hreap, hok⟩ := bind_eq_ok.1 hok
  obtain ⟨worker, _, hok⟩ := bind_eq_ok.1 hok
  obtain ⟨item, hitem, hok⟩ := bind_eq_ok.1 hok
  obtain ⟨lease, hlease, hok⟩ := bind_eq_ok.1 hok
  obtain ⟨code, _, hok⟩ := bind_eq_ok.1 hok
  obtain ⟨message, _, hok⟩ := bind_eq_ok.1 hok
  obtain ⟨m₂, hloop, hok⟩ := bind_eq_ok.1 hok
  have hreaped := reapExpired_ok hinv hreap
  have hm₂ := forResources_ok hloop fun _ => rfl
  have hmem := requireWorkItem_ok hitem
  cases hok
  generalize hretry : (input.retryable && input.sideEffectState == .none
    && decide (item.attempts < m₂.budget.maxAttemptsPerWorkItem)) = safeRetry
  refine Effect.failed hreaped hitem (requireLease_ok hlease) ?_
    (Change.of_loop (f := TeamResource.afterFailure lease item.risk input.sideEffectState (r.now 2))
      (g := fun item => item.returned { code, message, at' := r.now 2 }
        (if input.sideEffectState == .uncertain then .needsReconciliation
          else if safeRetry then .pending else .failed))
      hreaped.inv hmem ?_ ?_ ?_ ⟨rfl, rfl, rfl, rfl⟩ fun _ => rfl)
  · by_cases huncertain : input.sideEffectState = .uncertain
    · exact .inl ⟨huncertain, by simp [huncertain], by simp [huncertain]⟩
    · refine .inr ⟨huncertain, ?_⟩
      cases safeRetry with
      | true => exact .inl ⟨by simp [huncertain], by
          simp [huncertain, hm₂, TeamMission.modifyItem]⟩
      | false => exact .inr ⟨by simp [huncertain], by simp [huncertain]⟩
  · rw [hm₂]
    rfl
  · rw [hm₂]
    rfl
  · rw [hm₂]
    rfl

-- === reconcile and revocation

theorem resolveItem_ok {item : TeamWorkItem} {input : ReconcileInput}
    {evidence : List TeamEvidence} (hok : resolveItem m worker item input evidence now = .ok m') :
    ∃ g : TeamWorkItem → TeamWorkItem, (∀ item, SameShape item (g item)
        ∧ Resolved input.resolution item (g item)) ∧ SameWork (m.modifyItem item.key g) m'
      ∧ m'.state = if input.resolution = .failed then .failed else m.state := by
  unfold resolveItem at hok
  split at hok
  · next hresolution =>
    obtain ⟨_, _, hok⟩ := bind_eq_ok.1 hok
    cases hok
    rw [hresolution]
    refine ⟨_, ?_, ⟨rfl, rfl, rfl⟩, rfl⟩
    exact fun item => ⟨⟨rfl, rfl, rfl, rfl⟩, rfl, rfl, rfl, fun hnot => absurd rfl hnot⟩
  · next hresolution =>
    obtain ⟨_, _, hok⟩ := bind_eq_ok.1 hok
    cases hok
    rw [hresolution]
    refine ⟨_, ?_, ⟨rfl, rfl, rfl⟩, rfl⟩
    exact fun item => ⟨⟨rfl, rfl, rfl, rfl⟩, rfl, rfl, rfl, fun _ => rfl⟩
  · next hresolution =>
    obtain ⟨_, _, hok⟩ := bind_eq_ok.1 hok
    cases hok
    rw [hresolution]
    refine ⟨_, ?_, ⟨rfl, rfl, rfl⟩, rfl⟩
    exact fun item => ⟨⟨rfl, rfl, rfl, rfl⟩, rfl, rfl, rfl, fun _ => rfl⟩

theorem reconcileResources_ok (hok : reconcileResources env now keys m = .ok m') :
    ∃ f : TeamResource → TeamResource,
      m' = { m with resources := m.resources.map (repeated f keys) }
      ∧ ∀ resource, (f resource).key = resource.key
        ∧ (resource.lock = none → (f resource).lock = none) := by
  unfold reconcileResources at hok
  split at hok
  · cases hok
    refine ⟨id, ?_, fun _ => ⟨rfl, id⟩⟩
    have hid : repeated id keys = id := by
      funext resource
      exact congrFun (Function.iterate_id _) resource
    rw [hid, List.map_id]
  · exact ⟨TeamResource.reconcile now, forResources_ok hok fun _ => rfl,
      fun _ => ⟨rfl, fun _ => rfl⟩⟩

theorem repeated_lock {f : TeamResource → TeamResource}
    (hf : ∀ resource, resource.lock = none → (f resource).lock = none) (resource : TeamResource)
    (hlock : resource.lock = none) : (repeated f keys resource).lock = none := by
  by_cases hkey : resource.key ∈ keys
  · exact repeated_of_mem (P := fun other => other.lock = none) hkey
      (hf resource hlock) hf
  · rw [repeated_of_not_mem hkey]
    exact hlock

theorem reconcileIn_effect {input : ReconcileInput} (hinv : TeamInv m)
    (hok : reconcileIn env input r m = .ok m') : Effect env r m (.reconcile input) m' := by
  unfold reconcileIn at hok
  obtain ⟨worker, _, hok⟩ := bind_eq_ok.1 hok
  obtain ⟨_, _, hok⟩ := bind_eq_ok.1 hok
  obtain ⟨item, hitem, hok⟩ := bind_eq_ok.1 hok
  obtain ⟨_, hstate, hok⟩ := bind_eq_ok.1 hok
  obtain ⟨_, hkernel, hok⟩ := bind_eq_ok.1 hok
  obtain ⟨evidence, _, hok⟩ := bind_eq_ok.1 hok
  obtain ⟨m₁, hresources, hok⟩ := bind_eq_ok.1 hok
  obtain ⟨m₂, hresolve, hok⟩ := bind_eq_ok.1 hok
  cases hok
  obtain ⟨f, hm₁, hf⟩ := reconcileResources_ok hresources
  obtain ⟨g, hg, hwork, hm₂⟩ := resolveItem_ok hresolve
  have hchange : Change m m₂ item (g item) (repeated f item.resources) :=
    Change.of_loop hinv (requireWorkItem_ok hitem)
      (by rw [hwork.items, hm₁]; rfl) (by rw [hwork.resources, hm₁]; rfl)
      (by rw [hwork.budget, hm₁]; rfl) (hg item).1 fun resource => (hf resource).1
  have hsame : m₁.state = m.state := by rw [hm₁]
  refine Effect.reconciled hitem (by simpa using rejectIf_eq_ok.1 hstate) ?_
    hchange (hg item).2 (repeated_lock fun resource => (hf resource).2)
    ⟨rfl, rfl, rfl⟩ ?_
  · intro hrequires
    by_contra hnot
    exact rejectIf_eq_ok.1 hkernel ⟨hrequires, hnot⟩
  · rw [hsame] at hm₂
    show _ ∧ (if m₂.state = .blocked ∧ m₂.anyUncertain = false then
        TeamMissionState.running else m₂.state) = .failed
      ∨ _ ∧ ((if m₂.state = .blocked ∧ m₂.anyUncertain = false then
        TeamMissionState.running else m₂.state) = m.state
      ∨ _ ∧ (if m₂.state = .blocked ∧ m₂.anyUncertain = false then
        TeamMissionState.running else m₂.state) = .running)
    by_cases hfailed : input.resolution = .failed
    · rw [if_pos hfailed] at hm₂
      refine .inl ⟨hfailed, ?_⟩
      rw [if_neg (by rw [hm₂]; simp), hm₂]
    · rw [if_neg hfailed] at hm₂
      refine .inr ⟨hfailed, ?_⟩
      split
      · next hblocked => exact .inr ⟨hm₂ ▸ hblocked.1, rfl⟩
      · exact .inl hm₂

theorem revokeWorkerIn_effect (hinv : TeamInv m) (hok : revokeWorkerIn workerId r m = .ok m') :
    Effect env r m (.revokeWorker workerId) m' := by
  unfold revokeWorkerIn at hok
  obtain ⟨worker, _, hok⟩ := bind_eq_ok.1 hok
  have hworkers : TeamInv (m.modifyWorker worker.id fun worker =>
      { worker with state := .revoked, heartbeatAt := r.now 0 }) :=
    hinv.congr_state rfl rfl rfl (.inl rfl)
  have hchosen : ∀ item ∈ m.workItems, (item.lease.any fun lease =>
      lease.workerId == worker.id) = true → item.lease.isSome = true :=
    fun _ _ hany => Option.isSome_of_any hany
  have hexpired := expireLeases_filter hworkers hchosen hok
  refine Effect.revoked ?_ ?_ hchosen hexpired
  · exact ⟨rfl, rfl, rfl⟩
  · rfl

/-- Each operation that succeeds has its effect. -/
theorem run_effect {op : TeamOp} (hinv : TeamInv m)
    (hok : op.run env r m = .ok m') : Effect env r m op m' := by
  have hmutate := update_ok hok
  cases op with
  | start intent =>
    obtain ⟨_, _, hmutate⟩ := bind_eq_ok.1 hmutate
    exact startIn_effect hinv hmutate
  | pause => exact pauseIn_effect hinv hmutate
  | resume intent =>
    obtain ⟨_, _, hmutate⟩ := bind_eq_ok.1 hmutate
    exact resumeIn_effect hmutate
  | cancel => exact cancelIn_effect hinv hmutate
  | registerWorker input => exact registerWorkerIn_effect hinv hmutate
  | heartbeat workerId leaseId => exact heartbeatIn_effect hinv hmutate
  | claim workerId leaseId intent =>
    obtain ⟨_, _, hmutate⟩ := bind_eq_ok.1 hmutate
    exact claimIn_effect hinv hmutate
  | putBlackboard input => exact putBlackboardIn_effect hinv hmutate
  | authorizeExecution input intent =>
    obtain ⟨_, _, hmutate⟩ := bind_eq_ok.1 hmutate
    exact authorizeExecutionIn_effect hinv hmutate
  | beginActionExecution input => exact beginActionExecutionIn_effect hmutate
  | completeActionExecution input result =>
    exact completeActionExecutionIn_effect hmutate
  | recordActionAuditFailure actionId degraded =>
    exact recordActionAuditFailureIn_effect hmutate
  | complete input before earlier answer =>
    obtain ⟨_, _, hmutate⟩ := bind_eq_ok.1 hmutate
    exact completeIn_effect hinv hmutate
  | fail input => exact failIn_effect hinv hmutate
  | reconcile input => exact reconcileIn_effect hinv hmutate
  | revokeWorker workerId => exact revokeWorkerIn_effect hinv hmutate

end

end OperatorRuntime.Team
