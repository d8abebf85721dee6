/-
Every state the coordinator reaches from a submitted mission keeps the
invariant of locks, leases and uncertainty.

An operation is seen twice: as a change of the mission that keeps the
invariant (`Effect.inv`), and as a change of each work item by itself
(`Effect.moved`), which tells what becomes of completed items, of the
results of verifiers and of lease ids.
-/
import OperatorRuntime.Team.Proofs.Effects
import OperatorRuntime.Lib.Runs
import Mathlib.Data.List.Dedup

namespace OperatorRuntime.Team

open Lib (Run Where stepsOf)

-- ===== one operation

section
variable {env : TeamEnv} {r : Readings} {op : TeamOp} {m m' : TeamMission} {item : TeamWorkItem}

theorem TeamInv.apart_of_free (hinv : TeamInv m) (hmem : item ∈ m.workItems)
    (hfree : FreeFor m item) : ∀ other ∈ m.workItems, other.key ≠ item.key →
      other.Engaged → ∀ key ∈ item.resources, key ∉ other.resources := by
  intro other hother _ hengaged key hkey hkey'
  obtain ⟨resource, hresource, rfl⟩ :=
    List.mem_map.1 (hinv.declared item hmem key hkey)
  obtain ⟨hlock, hcertain⟩ := hfree resource hresource hkey
  rcases hengaged with hleased | hreconciling
  · obtain ⟨lease, hlease⟩ :=
      Option.isSome_iff_exists.1 ((hinv.leased other hother).1 hleased)
    have hheld := (hinv.held other hother lease hlease resource hresource hkey').1
    rw [hlock] at hheld
    cases hheld
  · have huncertain :=
      (hinv.reconciling other hother hreconciling resource hresource hkey').2
    rw [hcertain] at huncertain
    cases huncertain

theorem TeamInv.no_lease (hinv : TeamInv m) (hmem : item ∈ m.workItems)
    (hstate : item.state ≠ .leased) : item.lease = none := by
  cases hlease : item.lease with
  | none => rfl
  | some lease => exact absurd (hinv.engaged_of_lease hmem hlease) hstate

theorem TeamInv.finalize (hinv : TeamInv m) : TeamInv (finalizeIfVerified m) := by
  unfold finalizeIfVerified
  split
  · exact hinv
  · next hall =>
    split
    · refine hinv.congr rfl rfl rfl (fun _ item hitem => ?_)
        (fun h => nomatch h)
      by_contra hnot
      exact hall (List.any_eq_true.2 ⟨item, hitem, by simpa using hnot⟩)
    · exact hinv.congr_state rfl rfl rfl (.inr ⟨by simp, by simp⟩)

variable {lease : TeamLease} {now : Instant}

theorem TeamInv.extended {expiresAt : Instant} (hinv : TeamInv m) (hlease : item.lease = some lease)
    (hchange : Change m m' item (item.extended now expiresAt)
      (repeated (TeamResource.extend lease.id expiresAt) item.resources))
    (hstate : m'.state = m.state) : TeamInv m' := by
  have hmem := hchange.mem
  have hleased := hinv.engaged_of_lease hmem hlease
  have hnew : (item.extended now expiresAt).lease
      = some { lease with heartbeatAt := now, expiresAt } := by
    unfold TeamWorkItem.extended
    rw [hlease]
    rfl
  obtain ⟨hnotVerified, hnotCancelled⟩ := hinv.live_of_leased hmem hleased
  refine hinv.change hchange (hinv.apart_of_engaged hmem (.inl hleased))
    ?_ ?_ ?_ ?_ ?_ (hinv.attempts item hmem) ?_ ?_
  · rw [hnew]
    exact iff_of_true hleased rfl
  · intro lease' hlease' resource hresource hlists
    rw [hnew] at hlease'
    cases hlease'
    obtain ⟨hlock, hcertain⟩ :=
      hinv.held item hmem lease hlease resource hresource hlists
    refine repeated_of_mem (P := fun other => other.lock
      = some (TeamLease.lock { lease with heartbeatAt := now, expiresAt })
        ∧ other.uncertain = false) hlists ⟨?_, hcertain⟩ ?_
    · simp [TeamResource.extend, hlock, TeamLease.lock]
    · intro other hother
      refine ⟨?_, hother.2⟩
      simp [TeamResource.extend, hother.1, TeamLease.lock]
  · intro hreconciling
    rw [show (item.extended now expiresAt).state = item.state from rfl, hleased] at hreconciling
    cases hreconciling
  · intro hnone
    rw [hnew] at hnone
    cases hnone
  · intro lease' hlease' other hother hkey otherLease hotherLease hids
    rw [hnew] at hlease'
    cases hlease'
    exact hkey (hinv.leaseIds other hother item hmem otherLease lease hotherLease hlease hids.symm)
  · exact fun h => absurd (hstate ▸ h) hnotVerified
  · exact fun h => absurd (hstate ▸ h) hnotCancelled

theorem TeamInv.granted (hinv : TeamInv m) (hrunning : m.state = .running)
    (hfree : FreeFor m item) (hattempts : item.attempts < m.budget.maxAttemptsPerWorkItem)
    (hfresh : ∀ other ∈ m.workItems, ∀ lease', other.lease = some lease' → lease.id ≠ lease'.id)
    (hchange : Change m m' item (item.granted lease)
      (repeated (fun resource => { resource with lock := some lease.lock }) item.resources))
    (hstate : m'.state = m.state) : TeamInv m' := by
  have hmem := hchange.mem
  refine hinv.change hchange (hinv.apart_of_free hmem hfree)
    (iff_of_true rfl rfl) ?_ (fun h => nomatch h) (fun h => nomatch h) ?_
    hattempts ?_ ?_
  · intro lease' hlease' resource hresource hlists
    cases hlease'
    exact repeated_of_mem (P := fun other => other.lock = some lease.lock
      ∧ other.uncertain = false) hlists
      ⟨rfl, (hfree resource hresource hlists).2⟩ fun _ hother => ⟨rfl, hother.2⟩
  · intro lease' hlease' other hother _ otherLease hotherLease
    cases hlease'
    exact hfresh other hother otherLease hotherLease
  · intro h
    rw [hstate, hrunning] at h
    cases h
  · intro h
    rw [hstate, hrunning] at h
    cases h

variable {item' : TeamWorkItem} {h : TeamResource → TeamResource}

theorem TeamInv.released (hinv : TeamInv m) (hchange : Change m m' item item' h)
    (hlease : item.lease = some lease) (hlease' : item'.lease = none)
    (hleased : item'.state ≠ .leased) (hattempts : item'.attempts = item.attempts)
    (hfree : ∀ resource ∈ m.resources, resource.key ∈ item.resources →
      resource.lock = some lease.lock → (h resource).lock = none)
    (huncertain : item'.state = .needsReconciliation →
      ∀ resource ∈ m.resources, resource.key ∈ item.resources →
      (h resource).uncertain = true)
    (hstate : m'.state = m.state ∨ m'.state ≠ .verified ∧ m'.state ≠ .cancelled) :
    TeamInv m' := by
  have hmem := hchange.mem
  have hitem := hinv.engaged_of_lease hmem hlease
  have hunlocked : ∀ resource ∈ m.resources, resource.key ∈ item.resources →
      (h resource).lock = none := fun resource hresource hlists =>
    hfree resource hresource hlists
      (hinv.held item hmem lease hlease resource hresource hlists).1
  have hlive : m'.state ≠ .verified ∧ m'.state ≠ .cancelled := by
    rcases hstate with hsame | hlive
    · rw [hsame]
      exact hinv.live_of_leased hmem hitem
    · exact hlive
  refine hinv.change hchange (hinv.apart_of_engaged hmem (.inl hitem))
    ?_ ?_ ?_ (fun _ => hunlocked) ?_ ?_ ?_ ?_
  · rw [hlease']
    exact iff_of_false hleased (by simp)
  · intro _ hsome
    rw [hlease'] at hsome
    cases hsome
  · exact fun hstate resource hresource hlists =>
      ⟨hunlocked resource hresource hlists, huncertain hstate resource hresource hlists⟩
  · intro _ hsome
    rw [hlease'] at hsome
    cases hsome
  · rw [hattempts]
    exact hinv.attempts item hmem
  · exact fun h => absurd h hlive.1
  · exact fun h => absurd h hlive.2

theorem TeamInv.settled (hinv : TeamInv m) (hchange : Change m m' item item' h)
    (happart : ∀ other ∈ m.workItems, other.key ≠ item.key → other.Engaged →
      ∀ key ∈ item.resources, key ∉ other.resources)
    (hlease : item'.lease = none) (hengaged : ¬ item'.Engaged)
    (hattempts : item'.attempts = item.attempts)
    (hfree : ∀ resource ∈ m.resources, resource.key ∈ item.resources → (h resource).lock = none)
    (hstate : m'.state ≠ .verified ∧ m'.state ≠ .cancelled) : TeamInv m' := by
  refine hinv.change hchange happart ?_ ?_ ?_ (fun _ => hfree) ?_ ?_ ?_ ?_
  · rw [hlease]
    exact iff_of_false (fun h => hengaged (.inl h)) (by simp)
  · intro _ hsome
    rw [hlease] at hsome
    cases hsome
  · exact fun h => absurd (Or.inr h) hengaged
  · intro _ hsome
    rw [hlease] at hsome
    cases hsome
  · rw [hattempts]
    exact hinv.attempts item hchange.mem
  · exact fun h => absurd h hstate.1
  · exact fun h => absurd h hstate.2

variable {m₁ : TeamMission}

theorem TeamInv.cancel (hexpired : Expired (fun item => item.lease.isSome) m m₁)
    (hitems : m'.workItems = m₁.workItems.map fun item =>
      if item.state = .completed ∨ item.state = .failed then item
      else { item with state := .cancelled })
    (hresources : m'.resources = m₁.resources) (hbudget : m'.budget = m₁.budget)
    (hstate : m'.state = .cancelled) : TeamInv m' := by
  have hinv := hexpired.inv
  have hnone : ∀ item ∈ m₁.workItems, item.lease = none :=
    fun item hitem => hexpired.free hitem
  have hmem : ∀ item ∈ m'.workItems, item.lease = none ∧ item.state.Settled
      ∧ ∃ old ∈ m₁.workItems, item.attempts = old.attempts ∧ item.resources = old.resources := by
    intro item hitem
    rw [hitems] at hitem
    obtain ⟨old, hold, rfl⟩ := List.mem_map.1 hitem
    have hlease := hnone old hold
    by_cases hdone : old.state = .completed ∨ old.state = .failed
    · rw [if_pos hdone]
      refine ⟨hlease, ?_, old, hold, rfl, rfl⟩
      rcases hdone with h | h
      · exact .inl h
      · exact .inr (.inl h)
    · rw [if_neg hdone]
      exact ⟨hlease, .inr (.inr rfl), old, hold, rfl, rfl⟩
  have hquiet : ∀ item ∈ m'.workItems, ¬ item.Engaged := by
    intro item hitem hengaged
    obtain ⟨_, hsettled, _⟩ := hmem item hitem
    rcases hsettled with h | h | h <;> rcases hengaged with h' | h' <;>
      · rw [h] at h'
        cases h'
  have hkeys : m'.workItems.map TeamWorkItem.key = m₁.workItems.map TeamWorkItem.key := by
    rw [hitems, List.map_map]
    refine List.map_congr_left fun item _ => ?_
    show TeamWorkItem.key (if _ then item else _) = _
    split <;> rfl
  have hunlocked : ∀ resource ∈ m'.resources, resource.lock.isSome ≠ true := by
    intro resource hresource hlock
    rw [hresources] at hresource
    obtain ⟨item, hitem, hlease, _⟩ := hinv.locked resource hresource hlock
    rw [hnone item hitem] at hlease
    cases hlease
  constructor
  case itemKeys => exact hkeys ▸ hinv.itemKeys
  case resourceKeys => exact hresources ▸ hinv.resourceKeys
  case declared =>
    intro item hitem key hkey
    obtain ⟨_, _, old, hold, _, hlists⟩ := hmem item hitem
    rw [hresources]
    exact hinv.declared old hold key (hlists ▸ hkey)
  case leased =>
    intro item hitem
    refine iff_of_false (fun h => hquiet item hitem (.inl h)) ?_
    rw [(hmem item hitem).1]
    simp
  case apart =>
    exact fun item hitem _ _ hengaged => absurd hengaged (hquiet item hitem)
  case held =>
    intro item hitem lease hlease
    rw [(hmem item hitem).1] at hlease
    cases hlease
  case reconciling =>
    exact fun item hitem h => absurd (Or.inr h) (hquiet item hitem)
  case locked =>
    exact fun resource hresource hlock =>
      absurd hlock (hunlocked resource hresource)
  case leaseIds =>
    intro item hitem _ _ lease _ hlease
    rw [(hmem item hitem).1] at hlease
    cases hlease
  case attempts =>
    intro item hitem
    obtain ⟨_, _, old, hold, hattempts, _⟩ := hmem item hitem
    rw [hattempts, hbudget]
    exact hinv.attempts old hold
  case verified =>
    intro h
    rw [hstate] at h
    cases h
  case cancelled => exact fun _ item hitem => (hmem item hitem).2.1

theorem lease_of_reaped (hreaped : Reaped now m m₁) (hmem : item ∈ m₁.workItems)
    (hlease : item.lease = some lease) : item ∈ m.workItems := by
  rcases mem_expired hreaped.items hmem with hold | ⟨old, _, _, rfl⟩
  · exact hold
  · cases hlease

/-- Each effect keeps the invariant, where a lease id is drawn once. -/
theorem Effect.inv (heffect : Effect env r m op m') (hinv : TeamInv m)
    (hfresh : ∀ id, op.leaseId? = some id → ∀ item ∈ m.workItems,
      ∀ lease, item.lease = some lease → id ≠ lease.id) : TeamInv m' := by
  cases heffect with
  | quiet _ hwork hstate =>
    exact hinv.congr_state hwork.items hwork.resources hwork.budget
      (.inl hstate)
  | reaped _ _ hreaped _ hwork hstate =>
    exact hreaped.inv.congr_state hwork.items hwork.resources hwork.budget
      (.inl hstate)
  | started hreaped _ hwork hstate =>
    exact hreaped.inv.congr_state hwork.items hwork.resources hwork.budget
      (.inr (by rw [hstate]; simp))
  | paused _ hexpired hwork hstate =>
    exact hexpired.inv.congr_state hwork.items hwork.resources hwork.budget
      (.inr (by rw [hstate]; simp))
  | resumed _ hwork hstate =>
    exact hinv.congr_state hwork.items hwork.resources hwork.budget
      (.inr (by rw [hstate]; simp))
  | cancelled _ hexpired hitems hresources hbudget hstate =>
    exact TeamInv.cancel hexpired hitems hresources hbudget hstate
  | stopped _ _ hreaped _ hwork hstate =>
    refine hreaped.inv.congr_state hwork.items hwork.resources hwork.budget
      (.inr ?_)
    rcases hstate with h | h <;> rw [h] <;> simp
  | extended _ _ hreaped hlease hchange hstate =>
    exact hreaped.inv.extended hlease hchange hstate
  | @exhausted _ _ _ m₁ _ item _ hreaped _ hpending hfree hchange hstate =>
    refine hreaped.inv.settled hchange
      (hreaped.inv.apart_of_free hchange.mem hfree) ?_ ?_ rfl
      (fun resource hresource hlists => (hfree resource hresource hlists).1)
      (by rw [hstate]; simp)
    · have hnone : item.lease = none :=
        hreaped.inv.no_lease hchange.mem (by rw [hpending]; simp)
      exact hnone
    · rintro (h | h) <;> cases h
  | granted hreaped hrunning _ hfree hid hattempts _ hchange hstate =>
    refine hreaped.inv.granted hrunning hfree hattempts ?_ hchange hstate
    intro other hother lease' hlease'
    rw [hid]
    exact hfresh _ rfl other (lease_of_reaped hreaped hother hlease') lease'
      hlease'
  | completed hreaped _ hlease _ hchange hstate =>
    refine TeamInv.finalize (hreaped.inv.released hchange hlease rfl
      (fun h => nomatch h) rfl ?_ (fun h => nomatch h) (.inl hstate))
    intro resource _ hlists _
    exact repeated_of_mem (P := fun other => other.lock = none) hlists rfl
      fun _ _ => rfl
  | @failed input m₁ _ item lease now failure state hreaped _ hlease hcases
      hchange =>
      have hstates : state ≠ .leased ∧ (state = .needsReconciliation →
          input.sideEffectState = .uncertain) := by
        rcases hcases with ⟨hu, h, _⟩ | ⟨_, ⟨h, _⟩ | ⟨h, _⟩⟩ <;> rw [h] <;>
          simp [*]
      refine hreaped.inv.released hchange hlease rfl hstates.1 rfl ?_ ?_ ?_
      · intro resource _ hlists hlock
        refine repeated_of_mem (P := fun other => other.lock = none) hlists ?_ ?_
        · simp [TeamResource.afterFailure, hlock, TeamLease.lock]
        · intro other hother
          simp [TeamResource.afterFailure, hother]
      · intro hneeds resource _ hlists
        have huncertain := hstates.2 hneeds
        refine repeated_of_mem (P := fun other => other.uncertain = true)
          hlists ?_ fun other _ => ?_
        · simp [TeamResource.afterFailure, huncertain]
        · simp [TeamResource.afterFailure, huncertain]
      · rcases hcases with ⟨_, _, h⟩ | ⟨_, ⟨_, h⟩ | ⟨_, h⟩⟩
        · exact .inr (by rw [h]; simp)
        · exact .inl h
        · exact .inr (by rw [h]; simp)
  | @reconciled input m₂ m₃ item item' h hitem hneeds _ hchange hresolved hlock
      hwork hstate =>
      refine TeamInv.finalize ?_
      have hmem := hchange.mem
      have hlive := hinv.live_of_engaged hmem (.inr hneeds)
      have hstate₃ : m₃.state ≠ .verified ∧ m₃.state ≠ .cancelled := by
        rcases hstate with ⟨_, h⟩ | ⟨_, h | ⟨_, h⟩⟩
        · rw [h]
          simp
        · rw [h]
          exact hlive
        · rw [h]
          simp
      refine hinv.settled (hchange.congr hwork)
        (hinv.apart_of_engaged hmem (.inr hneeds)) ?_ ?_ hresolved.attempts
        ?_ hstate₃
      · rw [hresolved.lease]
        exact hinv.no_lease hmem (by rw [hneeds]; simp)
      · unfold TeamWorkItem.Engaged
        rw [hresolved.state]
        cases input.resolution <;> simp
      · exact fun resource hresource hlists => hlock resource
          (hinv.reconciling item hmem hneeds resource hresource hlists).1
  | revoked _ _ _ hexpired => exact hexpired.inv

-- === what becomes of items

/-- What a verifier's completion carries. -/
def TeamWorkItem.Passed (item : TeamWorkItem) : Prop :=
  ∃ result, item.result = some result ∧ result.verificationPassed = true
    ∧ result.verificationDigest.isSome = true

/-- A reconciliation took the worker's word that the item is done. -/
def TakenAsDone (env : TeamEnv) (m : TeamMission) (item : TeamWorkItem) (op : TeamOp) : Prop :=
  ∃ input, op = .reconcile input ∧ env.requireKernelVerification = false
    ∧ input.resolution = .completed
    ∧ requireWorkItem m input.workItemId = .ok item

/-- What an operation makes of one item. -/
structure Moved (env : TeamEnv) (m : TeamMission) (op : TeamOp)
    (item item' : TeamWorkItem) : Prop where
  shape : SameShape item item'
  ids : ∀ lease', item'.lease = some lease' → op.leaseId? = some lease'.id
    ∨ ∃ lease, item.lease = some lease ∧ lease.id = lease'.id
  kept : item.state = .completed → item' = item
  done : item'.state = .completed → item.state = .completed
    ∨ (item.role = .verifier → item'.Passed) ∨ TakenAsDone env m item op

theorem Moved.refl : Moved env m op item item where
  shape := ⟨rfl, rfl, rfl, rfl⟩
  ids := fun lease hlease => .inr ⟨lease, hlease, rfl⟩
  kept := fun _ => rfl
  done := .inl

theorem Moved.expired (hleased : item.state = .leased) : Moved env m op item item.expired where
  shape := ⟨rfl, rfl, rfl, rfl⟩
  ids := fun _ h => nomatch h
  kept := fun h => by rw [hleased] at h; cases h
  done := fun h => by
    rcases expired_state item with h' | h' <;> rw [h'] at h <;>
      cases h

theorem Moved.of_open (hshape : SameShape item item')
    (hids : ∀ lease', item'.lease = some lease' → op.leaseId? = some lease'.id
      ∨ ∃ lease, item.lease = some lease ∧ lease.id = lease'.id)
    (hbefore : item.state ≠ .completed) (hafter : item'.state ≠ .completed) :
    Moved env m op item item' where
  shape := hshape
  ids := hids
  kept := fun h => absurd h hbefore
  done := fun h => absurd h hafter

/-- The items after an operation, one by one. -/
def ItemsMoved (env : TeamEnv) (m : TeamMission) (op : TeamOp)
    (items' : List TeamWorkItem) : Prop :=
  ∃ g : TeamWorkItem → TeamWorkItem, items' = m.workItems.map g
    ∧ ∀ item ∈ m.workItems, Moved env m op item (g item)

theorem ItemsMoved.refl : ItemsMoved env m op m.workItems :=
  ⟨id, (List.map_id _).symm, fun _ _ => Moved.refl⟩

theorem ItemsMoved.of_expired {chosen : TeamWorkItem → Bool}
    {items' : List TeamWorkItem} (hinv : TeamInv m)
    (hitems : items' = m.workItems.map fun item =>
      if chosen item then item.expired else item)
    (hchosen : ∀ item ∈ m.workItems, chosen item = true →
      item.lease.isSome = true) : ItemsMoved env m op items' := by
  refine ⟨_, hitems, fun item hitem => ?_⟩
  by_cases hc : chosen item = true
  · rw [if_pos hc]
    exact Moved.expired ((hinv.leased item hitem).2 (hchosen item hitem hc))
  · rw [if_neg hc]
    exact Moved.refl

theorem lapsed_isSome (hlapsed : item.lapsed now = true) : item.lease.isSome = true := by
  unfold TeamWorkItem.lapsed at hlapsed
  rw [Bool.and_eq_true] at hlapsed
  exact Option.isSome_of_any hlapsed.2

theorem not_taken_of_reaps (hreaps : op.reaps = true) : ¬ TakenAsDone env m item op := by
  rintro ⟨input, rfl, _⟩
  cases hreaps

/-- A reap and the move after it are one move. -/
theorem Moved.trans {item₁ : TeamWorkItem} (hreaps : op.reaps = true)
    (hfirst : Moved env m op item item₁) (hsecond : Moved env m₁ op item₁ item') :
    Moved env m op item item' where
  shape :=
    { key := hsecond.shape.key.trans hfirst.shape.key
      lists := hsecond.shape.lists.trans hfirst.shape.lists
      role := hsecond.shape.role.trans hfirst.shape.role
      dependsOn := hsecond.shape.dependsOn.trans hfirst.shape.dependsOn }
  ids := by
    intro lease' hlease'
    rcases hsecond.ids lease' hlease' with hdrawn | ⟨lease₁, hlease₁, hid₁⟩
    · exact .inl hdrawn
    · rcases hfirst.ids lease₁ hlease₁ with hdrawn | ⟨lease, hlease, hid⟩
      · exact .inl (by rw [hdrawn, hid₁])
      · exact .inr ⟨lease, hlease, hid.trans hid₁⟩
  kept := by
    intro hcompleted
    have hsame := hfirst.kept hcompleted
    rw [hsame] at hsecond
    exact hsecond.kept hcompleted
  done := by
    intro hcompleted
    rcases hsecond.done hcompleted with hmid | hpassed | htaken
    · have hsame := hsecond.kept hmid
      rw [hsame]
      exact hfirst.done hmid
    · exact .inr (.inl fun hrole =>
        hpassed (hfirst.shape.role.trans hrole))
    · exact absurd htaken (not_taken_of_reaps hreaps)

theorem ItemsMoved.of_reaped (hinv : TeamInv m) (hreaped : Reaped now m m₁) :
    ItemsMoved env m op m₁.workItems :=
  ItemsMoved.of_expired hinv hreaped.items fun _ _ => lapsed_isSome

theorem ItemsMoved.of_change (hinv : TeamInv m) (hchange : Change m m' item item' h)
    (hmoved : Moved env m op item item') : ItemsMoved env m op m'.workItems := by
  refine ⟨_, hchange.items, fun old hold => ?_⟩
  by_cases hkey : old.key = item.key
  · rw [if_pos hkey, eq_of_key hinv.itemKeys hold hchange.mem hkey]
    exact hmoved
  · rw [if_neg hkey]
    exact Moved.refl

theorem ItemsMoved.trans (hreaps : op.reaps = true) (hfirst : ItemsMoved env m op m₁.workItems)
    (hsecond : ItemsMoved env m₁ op m'.workItems) : ItemsMoved env m op m'.workItems := by
  obtain ⟨g, hg, hgMoved⟩ := hfirst
  obtain ⟨k, hk, hkMoved⟩ := hsecond
  refine ⟨k ∘ g, by rw [hk, hg, List.map_map], fun item hitem => ?_⟩
  exact (hgMoved item hitem).trans hreaps
    (hkMoved (g item) (hg ▸ List.mem_map_of_mem hitem))

theorem finalize_items : (finalizeIfVerified m).workItems = m.workItems := by
  unfold finalizeIfVerified
  split
  · rfl
  · split <;> rfl

theorem finalize_budget : (finalizeIfVerified m).budget = m.budget := by
  unfold finalizeIfVerified
  split
  · rfl
  · split <;> rfl

/-- Each item makes one of the moves. -/
theorem Effect.moved (heffect : Effect env r m op m') (hinv : TeamInv m) :
    ItemsMoved env m op m'.workItems := by
  cases heffect with
  | quiet _ hwork _ =>
    rw [hwork.items]
    exact ItemsMoved.refl
  | reaped _ _ hreaped _ hwork _ =>
    rw [hwork.items]
    exact ItemsMoved.of_reaped hinv hreaped
  | started hreaped _ hwork _ =>
    rw [hwork.items]
    exact ItemsMoved.of_reaped hinv hreaped
  | paused _ hexpired hwork _ =>
    rw [hwork.items]
    exact ItemsMoved.of_expired hinv hexpired.items fun _ _ h => h
  | resumed _ hwork _ =>
    rw [hwork.items]
    exact ItemsMoved.refl
  | cancelled _ hexpired hitems _ _ _ =>
    refine ⟨_, by rw [hitems, hexpired.items, List.map_map], ?_⟩
    intro item hitem
    rw [Function.comp_apply]
    by_cases hlease : item.lease.isSome = true
    · have hleased := (hinv.leased item hitem).2 hlease
      rw [if_pos hlease, if_neg (by
        rcases expired_state item with h | h <;> rw [h] <;> simp)]
      exact Moved.of_open ⟨rfl, rfl, rfl, rfl⟩ (fun _ h => nomatch h)
        (by rw [hleased]; simp) (by simp)
    · rw [if_neg hlease]
      by_cases hdone : item.state = .completed ∨ item.state = .failed
      · rw [if_pos hdone]
        exact Moved.refl
      · rw [if_neg hdone]
        exact Moved.of_open ⟨rfl, rfl, rfl, rfl⟩
          (fun lease h => .inr ⟨lease, h, rfl⟩)
          (fun h => hdone (.inl h)) (by simp)
  | stopped _ _ hreaped _ hwork _ =>
    rw [hwork.items]
    exact ItemsMoved.of_reaped hinv hreaped
  | @extended _ m₁ _ item lease now expiresAt hreaps _ hreaped hlease hchange _ =>
    refine (ItemsMoved.of_reaped hinv hreaped).trans hreaps
      (ItemsMoved.of_change hreaped.inv hchange ?_)
    have hleased := hreaped.inv.engaged_of_lease hchange.mem hlease
    have hopen : item.state ≠ .completed := by rw [hleased]; simp
    refine Moved.of_open hchange.shape ?_ hopen hopen
    intro lease' hlease'
    unfold TeamWorkItem.extended at hlease'
    rw [hlease] at hlease'
    cases hlease'
    exact .inr ⟨lease, hlease, rfl⟩
  | exhausted hreaped _ hpending _ hchange _ =>
    refine (ItemsMoved.of_reaped hinv hreaped).trans rfl
      (ItemsMoved.of_change hreaped.inv hchange ?_)
    exact Moved.of_open hchange.shape
      (fun lease h => .inr ⟨lease, h, rfl⟩) (by rw [hpending]; simp)
      (fun h => nomatch h)
  | granted hreaped _ hpending _ hid _ _ hchange _ =>
    refine (ItemsMoved.of_reaped hinv hreaped).trans rfl
      (ItemsMoved.of_change hreaped.inv hchange ?_)
    refine Moved.of_open hchange.shape ?_ (by rw [hpending]; simp)
      (fun h => nomatch h)
    intro lease' hlease'
    cases hlease'
    exact .inl (congrArg some hid.symm)
  | completed hreaped _ hlease hpassed hchange _ =>
    rw [finalize_items]
    refine (ItemsMoved.of_reaped hinv hreaped).trans rfl
      (ItemsMoved.of_change hreaped.inv hchange ?_)
    have hleased := hreaped.inv.engaged_of_lease hchange.mem hlease
    exact
      { shape := hchange.shape
        ids := fun _ h => nomatch h
        kept := fun h => by rw [hleased] at h; cases h
        done := fun _ => .inr (.inl fun hrole =>
          ⟨_, rfl, hpassed hrole⟩) }
  | failed hreaped _ hlease hcases hchange =>
    refine (ItemsMoved.of_reaped hinv hreaped).trans rfl
      (ItemsMoved.of_change hreaped.inv hchange ?_)
    have hleased := hreaped.inv.engaged_of_lease hchange.mem hlease
    refine Moved.of_open hchange.shape (fun _ h => nomatch h)
      (by rw [hleased]; simp) ?_
    rintro rfl
    rcases hcases with ⟨_, h, _⟩ | ⟨_, ⟨h, _⟩ | ⟨h, _⟩⟩ <;> cases h
  | @reconciled input m₂ m₃ item item' h hitem hneeds hkernel hchange hresolved
      _ hwork _ =>
      rw [finalize_items, hwork.items]
      refine ItemsMoved.of_change hinv hchange ?_
      exact
        { shape := hchange.shape
          ids := fun lease hlease =>
            .inr ⟨lease, hresolved.lease ▸ hlease, rfl⟩
          kept := fun h => by rw [hneeds] at h; cases h
          done := by
            intro hdone
            rw [hresolved.state] at hdone
            have hresolution : input.resolution = .completed := by
              cases h : input.resolution <;> rw [h] at hdone <;> cases hdone
            refine .inr (.inr ⟨input, rfl, ?_, hresolution, hitem⟩)
            by_contra hrequires
            have hfailed := hkernel (by simpa using hrequires)
            rw [hresolution] at hfailed
            cases hfailed }
  | revoked hwork _ hchosen hexpired =>
    refine ItemsMoved.of_expired hinv ?_ hchosen
    rw [hexpired.items, hwork.items]

end

-- ===== a new mission

/-- A work item nobody has worked on. -/
structure Untouched (item : TeamWorkItem) : Prop where
  state : item.state = .pending
  attempts : item.attempts = 0
  lease : item.lease = none
  result : item.result = none

/-- A mission as `submit` writes it. -/
structure Submitted (m : TeamMission) : Prop where
  inv : TeamInv m
  state : m.state = .pending
  untouched : ∀ item ∈ m.workItems, Untouched item
  covered : ∃ item ∈ m.workItems, item.role = .verifier ∧ coversMission m.workItems item = true

section
variable {env : TeamEnv}

theorem submitItem_ok {missionId : String} {seen : List TeamWorkItem}
    {input : TeamWorkInput} {item : TeamWorkItem}
    (hok : submitItem env missionId seen input = .ok item) :
    item.key ∉ seen.map TeamWorkItem.key ∧ Untouched item := by
  unfold submitItem at hok
  obtain ⟨key, _, hok⟩ := bind_eq_ok.1 hok
  obtain ⟨_, hnew, hok⟩ := bind_eq_ok.1 hok
  iterate 6 obtain ⟨_, _, hok⟩ := bind_eq_ok.1 hok
  have hitem := Except.ok.inj hok
  subst hitem
  exact ⟨rejectIf_eq_ok.1 hnew, rfl, rfl, rfl, rfl⟩

theorem submitItems_ok {missionId : String} {inputs : List TeamWorkInput}
    {items items' : List TeamWorkItem} (hkeys : (items.map TeamWorkItem.key).Nodup)
    (huntouched : ∀ item ∈ items, Untouched item)
    (hok : submitItems env missionId items inputs = .ok items') :
    (items'.map TeamWorkItem.key).Nodup ∧ ∀ item ∈ items', Untouched item := by
  induction inputs generalizing items with
  | nil =>
    cases hok
    exact ⟨hkeys, huntouched⟩
  | cons input inputs ih =>
    obtain ⟨item, hitem, hrest⟩ := bind_eq_ok.1 hok
    obtain ⟨hnew, hitem⟩ := submitItem_ok hitem
    refine ih ?_ ?_ hrest
    · rw [List.map_append, List.map_singleton]
      exact List.nodup_append.2 ⟨hkeys, List.nodup_singleton _, by
        intro key hkey other hother hsame
        rw [List.mem_singleton.1 hother] at hsame
        exact hnew (hsame ▸ hkey)⟩
    · intro other hother
      rcases List.mem_append.1 hother with hold | hlast
      · exact huntouched other hold
      · rw [List.mem_singleton.1 hlast]
        exact hitem

theorem TeamInv.of_untouched {m : TeamMission} (hstate : m.state = .pending)
    (hkeys : (m.workItems.map TeamWorkItem.key).Nodup)
    (hresources : (m.resources.map TeamResource.key).Nodup)
    (hdeclared : ∀ item ∈ m.workItems, ∀ key ∈ item.resources,
      key ∈ m.resources.map TeamResource.key)
    (huntouched : ∀ item ∈ m.workItems, Untouched item)
    (hunlocked : ∀ resource ∈ m.resources, resource.lock = none) :
    TeamInv m := by
  have hquiet : ∀ item ∈ m.workItems, ¬ item.Engaged := by
    intro item hitem hengaged
    have hpending := (huntouched item hitem).state
    rcases hengaged with h | h <;> rw [h] at hpending <;> cases hpending
  constructor
  case itemKeys => exact hkeys
  case resourceKeys => exact hresources
  case declared => exact hdeclared
  case leased =>
    intro item hitem
    refine iff_of_false (fun h => hquiet item hitem (.inl h)) ?_
    rw [(huntouched item hitem).lease]
    simp
  case apart =>
    exact fun item hitem _ _ hengaged => absurd hengaged (hquiet item hitem)
  case held =>
    intro item hitem lease hlease
    rw [(huntouched item hitem).lease] at hlease
    cases hlease
  case reconciling =>
    exact fun item hitem h => absurd (Or.inr h) (hquiet item hitem)
  case locked =>
    intro resource hresource hlock
    rw [hunlocked resource hresource] at hlock
    cases hlock
  case leaseIds =>
    intro item hitem _ _ lease _ hlease
    rw [(huntouched item hitem).lease] at hlease
    cases hlease
  case attempts =>
    intro item hitem
    rw [(huntouched item hitem).attempts]
    exact Nat.zero_le _
  case verified =>
    intro h
    rw [hstate] at h
    cases h
  case cancelled =>
    intro h
    rw [hstate] at h
    cases h

/-- What a submitted mission looks like. -/
theorem submit_ok {input : SubmitInput} {answer : IntentAnswer} {now : Instant}
    {m : TeamMission} (hok : submit env input answer now = .ok m) :
    Submitted m := by
  unfold submit at hok
  obtain ⟨objective, _, hok⟩ := bind_eq_ok.1 hok
  obtain ⟨intent, _, hok⟩ := bind_eq_ok.1 hok
  obtain ⟨_, _, hok⟩ := bind_eq_ok.1 hok
  obtain ⟨missionId, _, hok⟩ := bind_eq_ok.1 hok
  obtain ⟨items, hitems, hok⟩ := bind_eq_ok.1 hok
  iterate 3 obtain ⟨_, _, hok⟩ := bind_eq_ok.1 hok
  obtain ⟨_, hcovered, hok⟩ := bind_eq_ok.1 hok
  obtain ⟨budget, _, hok⟩ := bind_eq_ok.1 hok
  obtain ⟨_, _, hok⟩ := bind_eq_ok.1 hok
  obtain ⟨_, _, hok⟩ := bind_eq_ok.1 hok
  have hm := Except.ok.inj hok
  subst hm
  have hnil : (([] : List TeamWorkItem).map TeamWorkItem.key).Nodup :=
    List.nodup_nil
  obtain ⟨hkeys, huntouched⟩ :=
    submitItems_ok hnil (fun _ h => absurd h (List.not_mem_nil)) hitems
  have hcovered := rejectIf_eq_ok.1 hcovered
  rw [Bool.not_eq_false, List.any_eq_true] at hcovered
  obtain ⟨item, hitem, hboth⟩ := hcovered
  rw [Bool.and_eq_true, beq_iff_eq] at hboth
  refine ⟨TeamInv.of_untouched rfl hkeys ?_ ?_ huntouched ?_, rfl, huntouched, item, hitem, hboth⟩
  · simp only [List.map_map]
    show (List.map id _).Nodup
    rw [List.map_id]
    exact (List.perm_insertionSort _ _).nodup_iff.2 (List.nodup_dedup _)
  · intro item hitem key hkey
    simp only [List.map_map]
    show key ∈ List.map id _
    rw [List.map_id, List.mem_insertionSort, List.mem_dedup]
    exact List.mem_flatMap.2 ⟨item, hitem, hkey⟩
  · intro resource hresource
    obtain ⟨key, _, rfl⟩ := List.mem_map.1 hresource
    rfl

end

-- ===== runs

/-- The mission keeps its invariant, and every lease id was drawn. -/
structure WorldInv (w : TeamWorld) : Prop where
  mission : TeamInv w.mission
  drawn : ∀ item ∈ w.mission.workItems, ∀ lease, item.lease = some lease → lease.id ∈ w.drawn

/-- The worlds a submitted mission starts from. -/
def Start (env : TeamEnv) (w : TeamWorld) : Prop :=
  w.drawn = [] ∧ ∃ input answer now, submit env input answer now = .ok w.mission

section
variable {env : TeamEnv} {w w' : TeamWorld} {act : TeamAct}

theorem Start.submitted (hstart : Start env w) : Submitted w.mission := by
  obtain ⟨_, input, answer, now, hok⟩ := hstart
  exact submit_ok hok

theorem Start.inv (hstart : Start env w) : WorldInv w := by
  have hsubmitted := hstart.submitted
  refine ⟨hsubmitted.inv, fun item hitem lease hlease => ?_⟩
  rw [(hsubmitted.untouched item hitem).lease] at hlease
  cases hlease

theorem step_cases (hinv : WorldInv w) (hstep : stepsOf (TeamWorld.step env) w act w') :
    (∀ id, act.op.leaseId? = some id → id ∉ w.drawn) ∧ w'.drawn = act.op.leaseId?.toList ++ w.drawn
    ∧ (w'.mission = w.mission ∨ act.op.run env act.readings w.mission = .ok w'.mission
        ∧ Effect env act.readings w.mission act.op w'.mission) := by
  unfold stepsOf TeamWorld.step at hstep
  split at hstep
  · cases hstep
  · next hfresh =>
    cases hstep
    refine ⟨?_, rfl, ?_⟩
    · intro id hid hmem
      rw [hid] at hfresh
      exact hfresh (by simpa using hmem)
    · cases hrun : act.op.run env act.readings w.mission with
      | error _ => exact .inl rfl
      | ok mission => exact .inr ⟨rfl, run_effect hinv.mission hrun⟩

theorem step_inv (hinv : WorldInv w)
    (hstep : stepsOf (TeamWorld.step env) w act w') : WorldInv w' := by
  obtain ⟨hfresh, hdrawn, hsame | ⟨_, heffect⟩⟩ := step_cases hinv hstep
  · refine ⟨hsame ▸ hinv.mission, fun item hitem lease hlease => ?_⟩
    rw [hsame] at hitem
    rw [hdrawn]
    exact List.mem_append_right _ (hinv.drawn item hitem lease hlease)
  · refine ⟨heffect.inv hinv.mission ?_, ?_⟩
    · intro id hid item hitem lease hlease hsame
      exact hfresh id hid (hsame ▸ hinv.drawn item hitem lease hlease)
    · intro item' hitem' lease' hlease'
      obtain ⟨g, hg, hmoved⟩ := heffect.moved hinv.mission
      rw [hg] at hitem'
      obtain ⟨item, hitem, rfl⟩ := List.mem_map.1 hitem'
      rw [hdrawn]
      rcases (hmoved item hitem).ids lease' hlease' with hid | ⟨lease, hlease, hid⟩
      · rw [hid]
        exact List.mem_append_left _ (List.mem_cons_self ..)
      · rw [← hid]
        exact List.mem_append_right _ (hinv.drawn item hitem lease hlease)

theorem run_inv {acts : List TeamAct} (hstart : Start env w)
    (hrun : Run (stepsOf (TeamWorld.step env)) w acts w') : WorldInv w' :=
  hrun.invariant hstart.inv step_inv

end

end OperatorRuntime.Team
