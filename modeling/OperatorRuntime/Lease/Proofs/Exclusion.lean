/-
What the lease store guarantees over every sequence of calls: leases
exclude each other, quarantines of different actions are apart, a call
that throws changes nothing, and a holder leaves only by its own release
or after its process ended.

A lease covers several keys and a key has several holders, so the file
is read as the list of its pairs of a key and a holder (`held`). A
mutator either drops pairs or adds the pairs of one new holder, and both
are rules of `Lib.Apart`.
-/
import OperatorRuntime.Lease.ResourceLeases
import OperatorRuntime.Lib.Apart
import OperatorRuntime.Lib.Runs

namespace OperatorRuntime.Lease

open Lib

-- ===== holders

/-- Every key with each of its holders. -/
def heldIn (resources : List ResourceEntry) : List (String × Holder) :=
  resources.flatMap fun entry => entry.holders.map fun holder =>
    (entry.key, holder)

def LeaseState.held (state : LeaseState) : List (String × Holder) :=
  heldIn state.resources

section
variable {env : LeaseEnv} {resources resources' : List ResourceEntry}
  {holder : Holder} {key : String} {p : String × Holder}

theorem mem_heldIn : p ∈ heldIn resources
    ↔ ∃ entry ∈ resources, entry.key = p.1 ∧ p.2 ∈ entry.holders := by
  unfold heldIn
  simp only [List.mem_flatMap, List.mem_map]
  constructor
  · rintro ⟨entry, hentry, h, hh, rfl⟩
    exact ⟨entry, hentry, rfl, hh⟩
  · rintro ⟨entry, hentry, hkey, hh⟩
    exact ⟨entry, hentry, p.2, hh, by rw [hkey]⟩

theorem mem_heldIn_filterHolders {keep : Holder → Bool} : p ∈ heldIn (filterHolders keep resources)
    ↔ p ∈ heldIn resources ∧ keep p.2 = true := by
  unfold filterHolders
  simp only [mem_heldIn, List.mem_filter, List.mem_map]
  constructor
  · rintro ⟨_, ⟨⟨entry, hentry, rfl⟩, _⟩, hkey, hmem⟩
    have hmem := List.mem_filter.1 hmem
    exact ⟨⟨entry, hentry, hkey, hmem.1⟩, hmem.2⟩
  · rintro ⟨⟨entry, hentry, hkey, hmem⟩, hkeep⟩
    have hkept : p.2 ∈ entry.holders.filter keep :=
      List.mem_filter.2 ⟨hmem, hkeep⟩
    refine ⟨_, ⟨⟨entry, hentry, rfl⟩, ?_⟩, hkey, hkept⟩
    simpa using List.ne_nil_of_mem hkept

theorem mem_heldIn_insertionSort {r : ResourceEntry → ResourceEntry → Prop} [DecidableRel r] :
    p ∈ heldIn (resources.insertionSort r) ↔ p ∈ heldIn resources := by
  simp only [mem_heldIn, List.mem_insertionSort]

theorem mem_addHolder {entry : ResourceEntry} {h : Holder} :
    h ∈ (addHolder env holder entry).holders ↔ h ∈ entry.holders ∨ h = holder := by
  unfold addHolder
  simp [List.mem_insertionSort]

theorem mem_heldIn_grantKey (hok : grantKey env holder resources key = .ok resources') :
    p ∈ heldIn resources' ↔ p ∈ heldIn resources ∨ p = (key, holder) := by
  unfold grantKey at hok
  cases hfind : resources.find? fun entry => entry.key == key with
  | none =>
    rw [hfind] at hok
    obtain ⟨_, _, hok⟩ := bind_eq_ok.1 hok
    cases hok
    simp only [mem_heldIn, List.mem_append, List.mem_singleton]
    constructor
    · rintro ⟨entry, hentry | rfl, hkey, hmem⟩
      · exact .inl ⟨entry, hentry, hkey, hmem⟩
      · rcases mem_addHolder.1 hmem with hnil | hholder
        · cases hnil
        · exact .inr (Prod.ext hkey.symm hholder)
    · rintro (⟨entry, hentry, hkey, hmem⟩ | rfl)
      · exact ⟨entry, .inl hentry, hkey, hmem⟩
      · exact ⟨_, .inr rfl, rfl, mem_addHolder.2 (.inr rfl)⟩
  | some found =>
    rw [hfind] at hok
    obtain ⟨_, _, hok⟩ := bind_eq_ok.1 hok
    cases hok
    have hfound : found.key = key := by simpa using List.find?_some hfind
    simp only [mem_heldIn]
    constructor
    · rintro ⟨entry, hentry, hkey, hmem⟩
      rcases mem_updateFirst hentry with hold | ⟨old, hold, holdkey, rfl⟩
      · exact .inl ⟨entry, hold, hkey, hmem⟩
      · rcases mem_addHolder.1 hmem with hmem | hholder
        · exact .inl ⟨old, hold, hkey, hmem⟩
        · have holdkey : old.key = key := by simpa using holdkey
          exact .inr (Prod.ext (hkey.symm.trans holdkey) hholder)
    · rintro (⟨entry, hentry, hkey, hmem⟩ | rfl)
      · rcases mem_updateFirst_or hentry with hkept | hwritten
        · exact ⟨entry, hkept, hkey, hmem⟩
        · exact ⟨_, hwritten, hkey, mem_addHolder.2 (.inl hmem)⟩
      · exact ⟨_, mem_updateFirst_of_find? hfind, hfound, mem_addHolder.2 (.inr rfl)⟩

theorem mem_heldIn_grantKeys {keys : List String}
    (hok : grantKeys env holder resources keys = .ok resources') :
    p ∈ heldIn resources' ↔ p ∈ heldIn resources ∨ (p.1 ∈ keys ∧ p.2 = holder) := by
  induction keys generalizing resources with
  | nil =>
    cases hok
    simp
  | cons key rest ih =>
    unfold grantKeys at hok
    obtain ⟨mid, hgrant, hok⟩ := bind_eq_ok.1 hok
    rw [ih hok, mem_heldIn_grantKey hgrant, Prod.ext_iff, List.mem_cons]
    tauto

end

-- ===== the invariant

/-- Two leases on conflicting keys, at least one of them exclusive. -/
def Collide (p q : String × Holder) : Prop :=
  p.2.leaseId ≠ q.2.leaseId ∧ resourceKeysConflict p.1 q.1 = true
    ∧ (p.2.mode = .exclusive ∨ q.2.mode = .exclusive)

/-- Quarantines of two actions on conflicting keys. -/
def Contend (p q : ResourceQuarantine) : Prop :=
  p.actionId ≠ q.actionId ∧ resourceKeysConflict p.key q.key = true

structure LeaseInv (state : LeaseState) : Prop where
  leases : Apart Collide state.held
  quarantines : Apart Contend state.quarantines
  pids : ∀ p ∈ state.held, ∀ process ∈ p.2.processInstance, process.pid = p.2.pid

section
variable {env : LeaseEnv} {state state' : LeaseState}

theorem Collide.symm {p q : String × Holder} (h : Collide p q) : Collide q p :=
  ⟨h.1.symm, resourceKeysConflict_comm p.1 q.1 ▸ h.2.1, h.2.2.symm⟩

theorem Contend.symm {p q : ResourceQuarantine} (h : Contend p q) : Contend q p :=
  ⟨h.1.symm, resourceKeysConflict_comm p.key q.key ▸ h.2⟩

theorem LeaseInv.empty : LeaseInv LeaseState.empty :=
  ⟨Apart.nil, Apart.nil, fun _ hp => nomatch hp⟩

theorem mem_held_reap {observe : ProcessInstanceObserver}
    {localInstance : ProcessInstanceIdentity} {p : String × Holder} :
    p ∈ (reapDeadHolders env observe localInstance state).held ↔ p ∈ state.held
        ∧ p.2.reapable env observe localInstance = false := by
  unfold reapDeadHolders LeaseState.held
  rw [mem_heldIn_filterHolders]
  simp

variable {keys : List String}

theorem checkHolders_ok {mode : ResourceLeaseMode} (hok : checkHolders state mode keys = .ok ())
    {p : String × Holder} (hp : p ∈ state.held) {key : String} (hkey : key ∈ keys)
    (hconflict : resourceKeysConflict p.1 key = true) : mode = .shared ∧ p.2.mode = .shared := by
  induction keys with
  | nil => cases hkey
  | cons first rest ih =>
    unfold checkHolders at hok
    split at hok
    · cases hok
    · next hfree =>
      rcases List.mem_cons.1 hkey with rfl | hrest
      · obtain ⟨entry, hentry, hkey, hmem⟩ := mem_heldIn.1 hp
        by_contra hmodes
        apply hfree
        refine List.any_eq_true.2 ⟨entry, hentry, ?_⟩
        rw [Bool.and_eq_true, hkey]
        refine ⟨hconflict, List.any_eq_true.2 ⟨p.2, hmem, ?_⟩⟩
        unfold excludes
        cases mode with
        | exclusive => rfl
        | shared =>
          cases hmode : p.2.mode with
          | exclusive => rfl
          | shared => exact absurd ⟨rfl, hmode⟩ hmodes
      · exact ih hok hrest

variable {now : Instant}

theorem acquireIn_ok {request : AcquireRequest} {leaseId : Uuid}
    {process : ProcessInstanceIdentity} {observe : ProcessInstanceObserver}
    (hok : acquireIn env request leaseId process observe now state = .ok state') :
    (∀ p, p ∈ state'.held ↔ (p ∈ state.held ∧ p.2.reapable env observe process = false)
          ∨ (p.1 ∈ request.keys ∧ p.2 = request.holder leaseId process now))
      ∧ state'.quarantines = state.quarantines
      ∧ (request.mode = .exclusive → checkQuarantines (reapDeadHolders env observe process state)
            request.mutationActionId request.keys = .ok ())
      ∧ checkHolders (reapDeadHolders env observe process state) request.mode
          request.keys = .ok () := by
  unfold acquireIn at hok
  have hchecks : (request.mode = .exclusive →
        checkQuarantines (reapDeadHolders env observe process state)
          request.mutationActionId request.keys = .ok ())
      ∧ (do
        checkHolders (reapDeadHolders env observe process state) request.mode
          request.keys
        let resources ← grantKeys env (request.holder leaseId process now)
          (reapDeadHolders env observe process state).resources request.keys
        Except.ok { reapDeadHolders env observe process state with
          resources := resources.insertionSort
            fun a b => env.le a.key b.key = true }) = .ok state' := by
    by_cases hmode : request.mode = .exclusive
    · simp only [hmode, if_true] at hok ⊢
      obtain ⟨_, hfenced, hok⟩ := bind_eq_ok.1 hok
      exact ⟨fun _ => hfenced, hok⟩
    · simp only [hmode, if_false] at hok ⊢
      exact ⟨fun h => absurd h (by simp), hok⟩
  obtain ⟨hfenced, hok⟩ := hchecks
  obtain ⟨_, hfree, hok⟩ := bind_eq_ok.1 hok
  obtain ⟨resources, hgrant, hok⟩ := bind_eq_ok.1 hok
  cases hok
  refine ⟨?_, rfl, hfenced, hfree⟩
  intro p
  unfold LeaseState.held
  rw [mem_heldIn_insertionSort, mem_heldIn_grantKeys hgrant]
  exact or_congr_left mem_held_reap

theorem LeaseInv.acquire (h : LeaseInv state) {request : AcquireRequest} {leaseId : Uuid}
    {process : ProcessInstanceIdentity} {observe : ProcessInstanceObserver}
    (hok : acquireIn env request leaseId process observe now state
      = .ok state') : LeaseInv state' := by
  obtain ⟨hheld, hquarantines, _, hfree⟩ := acquireIn_ok hok
  refine ⟨?_, by rw [hquarantines]; exact h.quarantines, ?_⟩
  case refine_2 =>
    intro p hp process hprocess
    rcases (hheld p).1 hp with ⟨hold, _⟩ | ⟨_, hnew⟩
    · exact h.pids p hold process hprocess
    · rw [hnew] at hprocess ⊢
      cases hprocess
      rfl
  have hreaped : Apart Collide (reapDeadHolders env observe process state).held :=
    h.leases.of_subset fun p hp => (mem_held_reap.1 hp).1
  apply hreaped.extend Collide.symm
    (N := fun p => p.1 ∈ request.keys ∧ p.2 = request.holder leaseId process now)
  · intro p hp
    rw [mem_held_reap]
    exact (hheld p).1 hp
  · rintro p q ⟨_, hp⟩ ⟨_, hq⟩ hcollide
    exact hcollide.1 (by rw [hp, hq])
  · rintro p hp q ⟨hqkey, hq⟩ ⟨_, hconflict, hmodes⟩
    obtain ⟨hshared, hpshared⟩ := checkHolders_ok hfree hp hqkey hconflict
    have hqmode : q.2.mode = request.mode := by rw [hq]; rfl
    rw [hqmode, hshared, hpshared] at hmodes
    simp at hmodes

theorem LeaseInv.release (h : LeaseInv state) (leaseId : Uuid) :
    LeaseInv (releaseIn leaseId state) :=
  ⟨h.leases.of_subset fun _ hp => (mem_heldIn_filterHolders.1 hp).1,
    h.quarantines, fun p hp => h.pids p (mem_heldIn_filterHolders.1 hp).1⟩

variable {actionId : String}

theorem checkQuarantined_ok (hok : checkQuarantined state actionId keys = .ok ())
    {item : ResourceQuarantine} (hitem : item ∈ state.quarantines) {key : String}
    (hkey : key ∈ keys) (hother : item.actionId ≠ actionId) :
    resourceKeysConflict item.key key = false := by
  induction keys with
  | nil => cases hkey
  | cons first rest ih =>
    unfold checkQuarantined at hok
    split at hok
    · cases hok
    · next hnone =>
      rcases List.mem_cons.1 hkey with rfl | hrest
      · have := List.find?_eq_none.1 hnone item hitem
        simpa [hother] using this
      · exact ih hok hrest

theorem armKeys_ok {quarantines quarantines' : List ResourceQuarantine}
    (hok : armKeys actionId now quarantines keys = .ok quarantines') :
    (∀ item ∈ quarantines', item ∈ quarantines ∨ (item.actionId = actionId ∧ item.key ∈ keys))
    ∧ quarantines ⊆ quarantines'
    ∧ ∀ key ∈ keys, ∃ item ∈ quarantines', item.actionId = actionId ∧ item.key = key := by
  induction keys generalizing quarantines with
  | nil =>
    cases hok
    exact ⟨fun _ h => .inl h, fun _ h => h, fun _ h => nomatch h⟩
  | cons key rest ih =>
    unfold armKeys at hok
    split at hok
    · next harmed =>
      obtain ⟨hnew, hold, hcovers⟩ := ih hok
      refine ⟨?_, hold, ?_⟩
      · intro item hitem
        exact (hnew item hitem).imp_right fun h =>
          ⟨h.1, List.mem_cons_of_mem _ h.2⟩
      · intro k hk
        rcases List.mem_cons.1 hk with rfl | hk
        · obtain ⟨item, hitem, hsame⟩ := List.any_eq_true.1 harmed
          simp only [Bool.and_eq_true, beq_iff_eq] at hsame
          exact ⟨item, hold hitem, hsame⟩
        · exact hcovers k hk
    · obtain ⟨_, _, hok⟩ := bind_eq_ok.1 hok
      obtain ⟨hnew, hold, hcovers⟩ := ih hok
      refine ⟨?_, ?_, ?_⟩
      · intro item hitem
        rcases hnew item hitem with hmem | hmem
        · rcases List.mem_append.1 hmem with hmem | hmem
          · exact .inl hmem
          · rw [List.mem_singleton.1 hmem]
            exact .inr ⟨rfl, List.mem_cons_self ..⟩
        · exact .inr ⟨hmem.1, List.mem_cons_of_mem _ hmem.2⟩
      · exact fun item hitem => hold (List.mem_append_left _ hitem)
      · intro k hk
        rcases List.mem_cons.1 hk with rfl | hk
        · exact ⟨_, hold (List.mem_append_right _ (List.mem_singleton.2 rfl)), rfl, rfl⟩
        · exact hcovers k hk

theorem quarantineIn_ok (hok : quarantineIn env actionId keys now state = .ok state') :
    state'.resources = state.resources ∧ (∀ item ∈ state'.quarantines, item ∈ state.quarantines
          ∨ (item.actionId = actionId ∧ item.key ∈ keys)) ∧ state.quarantines ⊆ state'.quarantines
      ∧ (∀ key ∈ keys, ∃ item ∈ state'.quarantines, item.actionId = actionId ∧ item.key = key)
      ∧ checkQuarantined state actionId keys = .ok () := by
  unfold quarantineIn at hok
  obtain ⟨_, hfree, hok⟩ := bind_eq_ok.1 hok
  obtain ⟨quarantines, harm, hok⟩ := bind_eq_ok.1 hok
  cases hok
  obtain ⟨hnew, hold, hcovers⟩ := armKeys_ok harm
  refine ⟨rfl, ?_, ?_, ?_, hfree⟩
  · intro item hitem
    exact hnew item ((List.mem_insertionSort _).1 hitem)
  · exact fun item hitem => (List.mem_insertionSort _).2 (hold hitem)
  · intro key hkey
    obtain ⟨item, hitem, hsame⟩ := hcovers key hkey
    exact ⟨item, (List.mem_insertionSort _).2 hitem, hsame⟩

theorem LeaseInv.quarantine (h : LeaseInv state)
    (hok : quarantineIn env actionId keys now state = .ok state') : LeaseInv state' := by
  obtain ⟨hresources, hnew, _, _, hfree⟩ := quarantineIn_ok hok
  have hheld : state'.held = state.held := by
    unfold LeaseState.held
    rw [hresources]
  refine ⟨by rw [hheld]; exact h.leases, ?_, by rw [hheld]; exact h.pids⟩
  · apply h.quarantines.extend Contend.symm
      (N := fun item => item.actionId = actionId ∧ item.key ∈ keys) hnew
    · rintro a b ⟨ha, _⟩ ⟨hb, _⟩ hcontend
      exact hcontend.1 (ha.trans hb.symm)
    · rintro a ha b ⟨hb, hkey⟩ ⟨hne, hconflict⟩
      rw [checkQuarantined_ok hfree ha hkey (hb ▸ hne)] at hconflict
      cases hconflict

theorem LeaseInv.clearQuarantine (h : LeaseInv state) (actionId : String) :
    LeaseInv (clearQuarantineIn actionId state) :=
  ⟨h.leases, h.quarantines.of_subset fun _ hitem => (List.mem_filter.1 hitem).1, h.pids⟩

variable {disk : Disk} {mutator : LeaseState → Result LeaseState}

/-- A mutation leaves the state it read, or what its mutator makes of it. -/
theorem mutate_cases (hrun : (mutate env disk mutator state).1 = state') :
    state' = state ∨ mutator state = .ok state' := by
  have hpair : mutate env disk mutator state = (state', (mutate env disk mutator state).2) := by
    rw [← hrun]
  rcases replaceState_cases hpair with ⟨hsame, -⟩ | ⟨written, _, hok, -, hstored, -⟩
  · exact .inl hsame
  · obtain ⟨_, _, hok⟩ := bind_eq_ok.1 hok
    obtain ⟨mutated, hmutator, hok⟩ := bind_eq_ok.1 hok
    cases hok
    exact .inr (hstored ▸ hmutator)

/-- A mutation that throws has written nothing, or the write went through
before it threw. -/
theorem mutate_throws {e : OperatorError} (herror : (mutate env disk mutator state).2 = .error e) :
    (mutate env disk mutator state).1 = state ∨ disk = .unconfirmed
        ∧ mutate env .durable mutator state = ((mutate env disk mutator state).1, .ok ()) := by
  unfold mutate replaceState at herror ⊢
  split
  · exact .inl rfl
  · next written answer hok =>
    rw [hok] at herror
    cases haccept : accept env written with
    | error e => exact .inl rfl
    | ok _ =>
      cases disk with
      | lost => exact .inl rfl
      | unconfirmed => exact .inr ⟨rfl, rfl⟩
      | durable => simp [haccept] at herror

/-- What the file holds after a call: what it held, or what one of the
four mutators makes of it. -/
theorem LeaseCall.run_cases {c : LeaseCall} (hrun : (c.run env disk state).1 = state') :
    state' = state ∨ (∃ request leaseId process observe now ownerId keys mode actionId,
          c = .acquire ownerId keys mode actionId leaseId process observe now
          ∧ acquireIn env request leaseId process observe now state = .ok state')
      ∨ (∃ leaseId, c = .release leaseId ∧ state' = releaseIn leaseId state)
      ∨ (∃ actionId keys now, quarantineIn env actionId keys now state = .ok state')
      ∨ ∃ actionId, state' = clearQuarantineIn actionId state := by
  cases c with
  | acquire ownerId keys mode actionId leaseId process observe now =>
    simp only [LeaseCall.run, checked] at hrun
    split at hrun
    · exact .inl hrun.symm
    · next request _ =>
      split at hrun
      · exact .inl hrun.symm
      · refine (mutate_cases hrun).imp_right fun hacquire => .inl ?_
        exact ⟨request, leaseId, process, observe, now, ownerId, keys, mode, actionId, rfl, hacquire⟩
  | release leaseId =>
    refine (mutate_cases hrun).imp_right fun hrelease => .inr (.inl ⟨leaseId, rfl, ?_⟩)
    exact (Except.ok.inj hrelease).symm
  | quarantine actionId keys now =>
    simp only [LeaseCall.run, checked] at hrun
    split at hrun
    · exact .inl hrun.symm
    · next actionId _ =>
      split at hrun
      · exact .inl hrun.symm
      · next keys _ =>
        split at hrun
        · exact .inl hrun.symm
        · refine (mutate_cases hrun).imp_right fun hquarantine => .inr (.inr (.inl ?_))
          exact ⟨actionId, keys, now, hquarantine⟩
  | clearQuarantine actionId =>
    simp only [LeaseCall.run, checked] at hrun
    split at hrun
    · exact .inl hrun.symm
    · next actionId _ =>
      refine (mutate_cases hrun).imp_right fun hclear => .inr (.inr (.inr ⟨actionId, ?_⟩))
      exact (Except.ok.inj hclear).symm
  | inspect observe localInstance => exact .inl hrun.symm

/-- A call that throws leaves the file as it is, or its write went through
before it threw. -/
theorem LeaseCall.run_throws {c : LeaseCall} {e : OperatorError}
    (herror : (c.run env disk state).2 = .error e) : (c.run env disk state).1 = state
    ∨ disk = .unconfirmed ∧ c.run env .durable state = ((c.run env disk state).1, .ok ()) := by
  cases c with
  | acquire ownerId keys mode actionId leaseId process observe now =>
    simp only [LeaseCall.run, checked] at herror ⊢
    split
    · exact .inl rfl
    · next request hrequest =>
      rw [hrequest] at herror
      split
      · exact .inl rfl
      · next hkeys => exact mutate_throws (by simpa only [if_neg hkeys] using herror)
  | release leaseId => exact mutate_throws herror
  | quarantine actionId keys now =>
    simp only [LeaseCall.run, checked] at herror ⊢
    split
    · exact .inl rfl
    · next actionId hid =>
      rw [hid] at herror
      split
      · exact .inl rfl
      · next keys hkeys =>
        simp only [hkeys] at herror
        split
        · exact .inl rfl
        · next hsome => exact mutate_throws (by simpa only [if_neg hsome] using herror)
  | clearQuarantine actionId =>
    simp only [LeaseCall.run, checked] at herror ⊢
    split
    · exact .inl rfl
    · next actionId hid =>
      rw [hid] at herror
      exact mutate_throws herror
  | inspect observe localInstance => exact .inl rfl

/-- One call, by its own lemma; a write that is not confirmed stores the same
state. -/
theorem LeaseInv.run (h : LeaseInv state) (c : LeaseCall) : LeaseInv (c.run env disk state).1 := by
  have hrun : (c.run env disk state).1 = _ := rfl
  rcases c.run_cases hrun with hsame
    | ⟨_, _, _, _, _, _, _, _, _, _, hacquire⟩ | ⟨leaseId, _, hrelease⟩
    | ⟨_, _, _, hquarantine⟩ | ⟨actionId, hclear⟩
  · exact hsame.symm ▸ h
  · exact h.acquire hacquire
  · exact hrelease ▸ h.release leaseId
  · exact h.quarantine hquarantine
  · exact hclear ▸ h.clearQuarantine actionId

/-- One call, or the end of a process. -/
theorem LeaseInv.step {w : LeaseWorld} (h : LeaseInv w.stored)
    (act : LeaseAct) : LeaseInv (w.step env act).stored := by
  cases act with
  | call c disk => exact h.run c
  | processEnds process => exact h

-- ===== leaving holders

/-- The observations an acquire is based on are true: a recorded process
of this host that they report as gone has ended. -/
def Truthful (env : LeaseEnv) (w : LeaseWorld) : LeaseAct → Prop
  | .call (.acquire _ _ _ _ _ localInstance observe _) _ =>
    ∀ p ∈ w.stored.held, ∀ process ∈ p.2.processInstance,
      localPidObservationAdmissible (some process) localInstance = true →
      ReportsEnded env.dateParse observe process → process ∈ w.ended
  | _ => True

theorem reapable_reportsEnded {observe : ProcessInstanceObserver}
    {localInstance : ProcessInstanceIdentity} {holder : Holder}
    (hpid : ∀ process ∈ holder.processInstance, process.pid = holder.pid)
    (h : holder.reapable env observe localInstance = true) :
    ∃ process, holder.processInstance = some process
    ∧ localPidObservationAdmissible (some process) localInstance = true
    ∧ ReportsEnded env.dateParse observe process := by
  unfold Holder.reapable at h
  rw [Bool.and_eq_true] at h
  cases hprocess : holder.processInstance with
  | none => simp [hprocess, localPidObservationAdmissible] at h
  | some process =>
    rw [hprocess, ← hpid process hprocess] at h
    exact ⟨process, rfl, h.1, reportsEnded_of_stale h.2⟩

theorem LeaseInv.leaves {w : LeaseWorld} (h : LeaseInv w.stored)
    {act : LeaseAct} (htruthful : Truthful env w act) {p : String × Holder}
    (hp : p ∈ w.stored.held) (hgone : p ∉ (w.step env act).stored.held) :
    (∃ disk, act = .call (.release p.2.leaseId) disk)
    ∨ ∃ process, p.2.processInstance = some process ∧ process ∈ w.ended := by
  cases act with
  | processEnds process => exact absurd hp hgone
  | call c disk =>
    change p ∉ (c.run env disk w.stored).1.held at hgone
    have hrun : (c.run env disk w.stored).1 = _ := rfl
    rcases c.run_cases hrun with hsame
      | ⟨_, _, process, observe, _, _, _, _, _, rfl, hacquire⟩
      | ⟨leaseId, rfl, hrelease⟩ | ⟨_, _, _, hquarantine⟩ | ⟨actionId, hclear⟩
    · exact absurd (hsame.symm ▸ hp) hgone
    · right
      rw [(acquireIn_ok hacquire).1 p, not_or] at hgone
      have hreaped : p.2.reapable env observe process = true := by
        by_contra hkept
        exact hgone.1 ⟨hp, by simpa using hkept⟩
      obtain ⟨ended, hprocess, hlocal, hreports⟩ :=
        reapable_reportsEnded (h.pids p hp) hreaped
      exact ⟨ended, hprocess, htruthful p hp ended hprocess hlocal hreports⟩
    · left
      rw [hrelease] at hgone
      have hsame : p.2.leaseId = leaseId := by
        by_contra hne
        exact hgone (mem_heldIn_filterHolders.2 ⟨hp, by simpa using hne⟩)
      exact ⟨disk, by rw [hsame]⟩
    · unfold LeaseState.held at hgone
      rw [(quarantineIn_ok hquarantine).1] at hgone
      exact absurd hp hgone
    · rw [hclear] at hgone
      exact absurd hp hgone

end

-- ===== the main result

/-- After any sequence of calls with any arguments, clocks, lease ids,
observations and write outcomes: different leases never hold conflicting
keys unless both are shared; quarantines of different actions never
conflict; a call that throws leaves the file as it is, or as the call
leaves it when it succeeds if the write had gone through by then; and, as
far as observations are true, a holder leaves only by its own release or
after its process ended. -/
theorem leaseStore_run_sound (env : LeaseEnv) (acts : List LeaseAct) (w : LeaseWorld)
    (hrun : Run (fun w act w' => w' = LeaseWorld.step env w act) LeaseWorld.initial acts w) :
    (∀ p ∈ w.stored.held, ∀ q ∈ w.stored.held, p.2.leaseId ≠ q.2.leaseId →
        resourceKeysConflict p.1 q.1 = true → p.2.mode = .shared ∧ q.2.mode = .shared)
      ∧ (∀ p ∈ w.stored.quarantines, ∀ q ∈ w.stored.quarantines,
          p.actionId ≠ q.actionId → resourceKeysConflict p.key q.key = false)
      ∧ (∀ (c : LeaseCall) (disk : Disk) (e : OperatorError),
          (c.run env disk w.stored).2 = .error e → w.step env (.call c disk) = w
            ∨ disk = .unconfirmed ∧ (c.run env .durable w.stored).2 = .ok ()
              ∧ w.step env (.call c disk) = w.step env (.call c .durable))
      ∧ ∀ act, Truthful env w act → ∀ p ∈ w.stored.held, p ∉ (w.step env act).stored.held →
            (∃ disk, act = .call (.release p.2.leaseId) disk)
            ∨ ∃ process, p.2.processInstance = some process ∧ process ∈ w.ended := by
  have hinv : LeaseInv w.stored := hrun.invariant (I := fun w => LeaseInv w.stored) LeaseInv.empty
    fun h hstep => hstep ▸ h.step _
  refine ⟨?_, ?_, ?_, ?_⟩
  · intro p hp q hq hids hconflict
    by_contra hmodes
    apply hinv.leases p hp q hq
    refine ⟨hids, hconflict, ?_⟩
    cases hpmode : p.2.mode with
    | exclusive => exact .inl rfl
    | shared =>
      cases hqmode : q.2.mode with
      | exclusive => exact .inr rfl
      | shared => exact absurd ⟨hpmode, hqmode⟩ hmodes
  · intro p hp q hq hids
    by_contra hconflict
    exact hinv.quarantines p hp q hq ⟨hids, by simpa using hconflict⟩
  · intro c disk e herror
    rcases LeaseCall.run_throws herror with hsame | ⟨hdisk, hdurable⟩
    · exact .inl (by rw [LeaseWorld.step, hsame])
    · exact .inr ⟨hdisk, by rw [hdurable], by rw [LeaseWorld.step, LeaseWorld.step, hdurable]⟩
  · exact fun act htruthful p hp hgone => hinv.leaves htruthful hp hgone

-- ===== samples

/-- A platform without legacy Windows identities and without size
limit. -/
def plainEnv : LeaseEnv where
  localeCompare a b := if Json.keyLe a b then (if a = b then 0 else -1) else 1
  dateParse _ := none
  fits _ := true

def leaseProcess (pid : Nat) : ProcessInstanceIdentity :=
  { pid, started := "ps-lstart:Mon Jan  5 10:00:00 2026" }

/-- Process 7 takes a directory exclusively. -/
def takeDirectory : LeaseCall :=
  .acquire "kernel" ["fs-path:/data"] .exclusive none
    onesUuid (leaseProcess 7)
    (fun _ => none) ⟨0, zero_instant⟩

/-- Process 7 ends without releasing the directory; process 8 then takes a
file in it. -/
def crashedHolder : List LeaseAct :=
  [.call takeDirectory .durable, .processEnds (leaseProcess 7)]

theorem tick_instant : -8640000000000000 ≤ (1 : Int) ∧ (1 : Int) ≤ 8640000000000000 := by decide

def reapingAcquire : LeaseAct :=
  .call (.acquire "kernel" ["fs-path:/data/file"] .shared none
    twosUuid (leaseProcess 8)
    (fun pid => if pid = 7 then some .dead else none) ⟨1, tick_instant⟩) .durable

/-- The holder has ended, and an acquire below its key removes it. -/
theorem leaseStore_run_sound_reapingAcquire :
    ∃ w, Run (fun w act w' => w' = LeaseWorld.step plainEnv w act)
        LeaseWorld.initial crashedHolder w ∧ w.stored.held.map (·.1) = ["fs-path:/data"]
      ∧ (w.step plainEnv reapingAcquire).stored.held.map (·.1) = ["fs-path:/data/file"]
      ∧ ∀ p ∈ w.stored.held, p ∉ (w.step plainEnv reapingAcquire).stored.held →
            ∃ process, p.2.processInstance = some process ∧ process ∈ w.ended := by
  have hrun : Run (fun w act w' => w' = LeaseWorld.step plainEnv w act)
      LeaseWorld.initial ([] ++ [crashedHolder[0]] ++ [crashedHolder[1]]) _ :=
    Run.snoc (Run.snoc Run.nil rfl) rfl
  refine ⟨_, hrun, by decide, by decide, ?_⟩
  intro p hp hgone
  have htruthful : Truthful plainEnv
      ((LeaseWorld.initial.step plainEnv crashedHolder[0]).step plainEnv
        crashedHolder[1]) reapingAcquire := by
    intro p hp process hprocess _ _
    have hall : ∀ p ∈ ((LeaseWorld.initial.step plainEnv
        crashedHolder[0]).step plainEnv crashedHolder[1]).stored.held,
        p.2.processInstance = some (leaseProcess 7) := by
      decide
    rw [Option.mem_def, hall p hp] at hprocess
    cases hprocess
    exact List.mem_cons_self ..
  rcases (leaseStore_run_sound plainEnv _ _ hrun).2.2.2 reapingAcquire
    htruthful p hp hgone with ⟨_, hrelease⟩ | hended
  · cases hrelease
  · exact hended

/-- The write of an acquire throws after its rename: the caller gets an
error, and the lease is in the file. -/
theorem unconfirmed_acquire_stored :
    (∃ e, (takeDirectory.run plainEnv .unconfirmed LeaseState.empty).2 = .error e)
    ∧ (LeaseWorld.initial.step plainEnv (.call takeDirectory .unconfirmed)).stored.held.map (·.1)
      = ["fs-path:/data"] :=
  ⟨⟨_, rfl⟩, by decide⟩

end OperatorRuntime.Lease
