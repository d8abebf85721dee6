/-
What holds of a mission file in every state the operations reach: locks,
leases and uncertainty of resources agree with the states of the work
items.

# One change

Every operation changes one work item at a time, with the resources it
lists (`TeamInv.change`). A work item that is leased or awaits
reconciliation is engaged, and engaged items share no resource; that is
what keeps the change from touching what another item holds. Loops over
items are folds of such changes.
-/
import OperatorRuntime.Team.Coordinator
import Mathlib.Logic.Function.Iterate

namespace OperatorRuntime.Team

-- ===== invariant

/-- The item holds its resources: by a lease, or by what a lost lease may
have done to them. -/
def TeamWorkItem.Engaged (item : TeamWorkItem) : Prop :=
  item.state = .leased ∨ item.state = .needsReconciliation

/-- The states a cancelled mission leaves its items in. -/
def TeamWorkState.Settled (state : TeamWorkState) : Prop :=
  state = .completed ∨ state = .failed ∨ state = .cancelled

structure TeamInv (m : TeamMission) : Prop where
  itemKeys : (m.workItems.map TeamWorkItem.key).Nodup
  resourceKeys : (m.resources.map TeamResource.key).Nodup
  declared : ∀ item ∈ m.workItems, ∀ key ∈ item.resources, key ∈ m.resources.map TeamResource.key
  leased : ∀ item ∈ m.workItems, item.state = .leased ↔ item.lease.isSome = true
  apart : ∀ item ∈ m.workItems, ∀ other ∈ m.workItems, item.Engaged →
    other.Engaged → item.key ≠ other.key →
    ∀ key ∈ item.resources, key ∉ other.resources
  held : ∀ item ∈ m.workItems, ∀ lease, item.lease = some lease →
    ∀ resource ∈ m.resources, resource.key ∈ item.resources →
      resource.lock = some lease.lock ∧ resource.uncertain = false
  reconciling : ∀ item ∈ m.workItems, item.state = .needsReconciliation →
    ∀ resource ∈ m.resources, resource.key ∈ item.resources →
      resource.lock = none ∧ resource.uncertain = true
  locked : ∀ resource ∈ m.resources, resource.lock.isSome = true →
    ∃ item ∈ m.workItems, item.lease.isSome = true ∧ resource.key ∈ item.resources
  leaseIds : ∀ item ∈ m.workItems, ∀ other ∈ m.workItems, ∀ lease lease',
    item.lease = some lease → other.lease = some lease' →
    lease.id = lease'.id → item.key = other.key
  attempts : ∀ item ∈ m.workItems, item.attempts ≤ m.budget.maxAttemptsPerWorkItem
  verified : m.state = .verified → ∀ item ∈ m.workItems, item.state = .completed
  cancelled : m.state = .cancelled → ∀ item ∈ m.workItems, item.state.Settled

theorem eq_of_key {items : List TeamWorkItem}
    (hkeys : (items.map TeamWorkItem.key).Nodup) {item other : TeamWorkItem}
    (hitem : item ∈ items) (hother : other ∈ items) (hkey : item.key = other.key) : item = other :=
  List.inj_on_of_nodup_map hkeys hitem hother hkey

-- ===== one change

/-- What no operation changes about a work item. -/
structure SameShape (item item' : TeamWorkItem) : Prop where
  key : item'.key = item.key
  lists : item'.resources = item.resources
  role : item'.role = item.role
  dependsOn : item'.dependsOn = item.dependsOn

/-- A change of one work item and of the resources it lists. -/
structure Change (m m' : TeamMission) (item item' : TeamWorkItem)
    (h : TeamResource → TeamResource) : Prop where
  mem : item ∈ m.workItems
  items : m'.workItems = m.workItems.map fun other =>
    if other.key = item.key then item' else other
  resources : m'.resources = m.resources.map h
  budget : m'.budget = m.budget
  shape : SameShape item item'
  resourceKey : ∀ resource, (h resource).key = resource.key
  others : ∀ resource, resource.key ∉ item.resources → h resource = resource

section
variable {m m' : TeamMission} {item item' : TeamWorkItem} {h : TeamResource → TeamResource}

theorem Change.mem_items (hchange : Change m m' item item' h)
    {other : TeamWorkItem} : other ∈ m'.workItems ↔ other = item'
    ∨ other ∈ m.workItems ∧ other.key ≠ item.key := by
  rw [hchange.items, List.mem_map]
  constructor
  · rintro ⟨old, hold, rfl⟩
    by_cases hkey : old.key = item.key
    · exact .inl (if_pos hkey)
    · rw [if_neg hkey]
      exact .inr ⟨hold, hkey⟩
  · rintro (rfl | ⟨hmem, hkey⟩)
    · exact ⟨item, hchange.mem, if_pos rfl⟩
    · exact ⟨other, hmem, if_neg hkey⟩

variable {resource : TeamResource}

theorem Change.mem_resources (hchange : Change m m' item item' h) :
    resource ∈ m'.resources ↔ ∃ old ∈ m.resources, h old = resource := by
  rw [hchange.resources, List.mem_map]

theorem Change.itemKeys (hchange : Change m m' item item' h) :
    m'.workItems.map TeamWorkItem.key = m.workItems.map TeamWorkItem.key := by
  rw [hchange.items, List.map_map]
  refine List.map_congr_left fun other _ => ?_
  show TeamWorkItem.key (if other.key = item.key then item' else other) = _
  split
  · next hkey => rw [hchange.shape.key, hkey]
  · rfl

theorem Change.resourceKeys (hchange : Change m m' item item' h) :
    m'.resources.map TeamResource.key = m.resources.map TeamResource.key := by
  rw [hchange.resources, List.map_map]
  exact List.map_congr_left fun resource _ => hchange.resourceKey resource

/-- One item changes, and its resources with it. -/
theorem TeamInv.change (hinv : TeamInv m) (hchange : Change m m' item item' h)
    (happart : ∀ other ∈ m.workItems, other.key ≠ item.key → other.Engaged →
      ∀ key ∈ item.resources, key ∉ other.resources)
    (hleased : item'.state = .leased ↔ item'.lease.isSome = true)
    (hheld : ∀ lease, item'.lease = some lease → ∀ resource ∈ m.resources,
      resource.key ∈ item.resources → (h resource).lock = some lease.lock
        ∧ (h resource).uncertain = false)
    (hreconciling : item'.state = .needsReconciliation →
      ∀ resource ∈ m.resources, resource.key ∈ item.resources →
        (h resource).lock = none ∧ (h resource).uncertain = true)
    (hfree : item'.lease = none → ∀ resource ∈ m.resources,
      resource.key ∈ item.resources → (h resource).lock = none)
    (hfresh : ∀ lease, item'.lease = some lease → ∀ other ∈ m.workItems,
      other.key ≠ item.key → ∀ lease', other.lease = some lease' →
      lease.id ≠ lease'.id)
    (hattempts : item'.attempts ≤ m.budget.maxAttemptsPerWorkItem)
    (hverified : m'.state = .verified → item'.state = .completed
      ∧ ∀ other ∈ m.workItems, other.key ≠ item.key → other.state = .completed)
    (hcancelled : m'.state = .cancelled → item'.state.Settled
      ∧ ∀ other ∈ m.workItems, other.key ≠ item.key → other.state.Settled) :
    TeamInv m' where
  itemKeys := hchange.itemKeys ▸ hinv.itemKeys
  resourceKeys := hchange.resourceKeys ▸ hinv.resourceKeys
  declared := by
    intro other hother key hkey
    rw [hchange.resourceKeys]
    rcases hchange.mem_items.1 hother with rfl | ⟨hold, _⟩
    · rw [hchange.shape.lists] at hkey
      exact hinv.declared item hchange.mem key hkey
    · exact hinv.declared other hold key hkey
  leased := by
    intro other hother
    rcases hchange.mem_items.1 hother with rfl | ⟨hold, _⟩
    · exact hleased
    · exact hinv.leased other hold
  apart := by
    intro a ha b hb hengaged hengaged' hkeys key hkey
    rcases hchange.mem_items.1 ha with rfl | ⟨haold, hakey⟩
    · rcases hchange.mem_items.1 hb with rfl | ⟨hbold, hbkey⟩
      · exact absurd rfl hkeys
      · rw [hchange.shape.lists] at hkey
        exact happart b hbold hbkey hengaged' key hkey
    · rcases hchange.mem_items.1 hb with rfl | ⟨hbold, hbkey⟩
      · rw [hchange.shape.lists]
        exact fun hin => happart a haold hakey hengaged key hin hkey
      · exact hinv.apart a haold b hbold hengaged hengaged' hkeys key hkey
  held := by
    intro other hother lease hlease resource hresource hlists
    obtain ⟨old, hold, rfl⟩ := hchange.mem_resources.1 hresource
    rw [hchange.resourceKey] at hlists
    rcases hchange.mem_items.1 hother with rfl | ⟨hmem, hkey⟩
    · rw [hchange.shape.lists] at hlists
      exact hheld lease hlease old hold hlists
    · have hengaged : other.Engaged :=
        .inl ((hinv.leased other hmem).2 (by rw [hlease]; rfl))
      have hnot : old.key ∉ item.resources :=
        fun hin => happart other hmem hkey hengaged _ hin hlists
      rw [hchange.others old hnot]
      exact hinv.held other hmem lease hlease old hold hlists
  reconciling := by
    intro other hother hstate resource hresource hlists
    obtain ⟨old, hold, rfl⟩ := hchange.mem_resources.1 hresource
    rw [hchange.resourceKey] at hlists
    rcases hchange.mem_items.1 hother with rfl | ⟨hmem, hkey⟩
    · rw [hchange.shape.lists] at hlists
      exact hreconciling hstate old hold hlists
    · have hnot : old.key ∉ item.resources :=
        fun hin => happart other hmem hkey (.inr hstate) _ hin hlists
      rw [hchange.others old hnot]
      exact hinv.reconciling other hmem hstate old hold hlists
  locked := by
    intro resource hresource hlock
    obtain ⟨old, hold, rfl⟩ := hchange.mem_resources.1 hresource
    rw [hchange.resourceKey]
    by_cases hlists : old.key ∈ item.resources
    · cases hlease : item'.lease with
      | none =>
        rw [hfree hlease old hold hlists] at hlock
        cases hlock
      | some lease =>
        refine ⟨item', hchange.mem_items.2 (.inl rfl), by rw [hlease]; rfl, ?_⟩
        rw [hchange.shape.lists]
        exact hlists
    · rw [hchange.others old hlists] at hlock
      obtain ⟨other, hother, hlease, hin⟩ := hinv.locked old hold hlock
      have hkey : other.key ≠ item.key := by
        intro hkey
        rw [eq_of_key hinv.itemKeys hother hchange.mem hkey] at hin
        exact hlists hin
      exact ⟨other, hchange.mem_items.2 (.inr ⟨hother, hkey⟩), hlease, hin⟩
  leaseIds := by
    intro a ha b hb lease lease' hlease hlease' hids
    rcases hchange.mem_items.1 ha with rfl | ⟨haold, hakey⟩
    · rcases hchange.mem_items.1 hb with rfl | ⟨hbold, hbkey⟩
      · rfl
      · exact absurd hids (hfresh lease hlease b hbold hbkey lease' hlease')
    · rcases hchange.mem_items.1 hb with rfl | ⟨hbold, hbkey⟩
      · exact absurd hids.symm (hfresh lease' hlease' a haold hakey lease hlease)
      · exact hinv.leaseIds a haold b hbold lease lease' hlease hlease' hids
  attempts := by
    intro other hother
    rw [hchange.budget]
    rcases hchange.mem_items.1 hother with rfl | ⟨hold, _⟩
    · exact hattempts
    · exact hinv.attempts other hold
  verified := by
    intro hstate other hother
    obtain ⟨hnew, hothers⟩ := hverified hstate
    rcases hchange.mem_items.1 hother with rfl | ⟨hold, hkey⟩
    · exact hnew
    · exact hothers other hold hkey
  cancelled := by
    intro hstate other hother
    obtain ⟨hnew, hothers⟩ := hcancelled hstate
    rcases hchange.mem_items.1 hother with rfl | ⟨hold, hkey⟩
    · exact hnew
    · exact hothers other hold hkey

theorem TeamInv.congr (hinv : TeamInv m) (hitems : m'.workItems = m.workItems)
    (hresources : m'.resources = m.resources) (hbudget : m'.budget = m.budget)
    (hverified : m'.state = .verified → ∀ item ∈ m.workItems, item.state = .completed)
    (hcancelled : m'.state = .cancelled → ∀ item ∈ m.workItems,
      item.state.Settled) : TeamInv m' where
  itemKeys := hitems ▸ hinv.itemKeys
  resourceKeys := hresources ▸ hinv.resourceKeys
  declared := by
    rw [hitems, hresources]
    exact hinv.declared
  leased := hitems ▸ hinv.leased
  apart := hitems ▸ hinv.apart
  held := by
    rw [hitems, hresources]
    exact hinv.held
  reconciling := by
    rw [hitems, hresources]
    exact hinv.reconciling
  locked := by
    rw [hitems, hresources]
    exact hinv.locked
  leaseIds := hitems ▸ hinv.leaseIds
  attempts := by
    rw [hitems, hbudget]
    exact hinv.attempts
  verified := by
    rw [hitems]
    exact hverified
  cancelled := by
    rw [hitems]
    exact hcancelled

theorem TeamInv.congr_state (hinv : TeamInv m) (hitems : m'.workItems = m.workItems)
    (hresources : m'.resources = m.resources) (hbudget : m'.budget = m.budget)
    (hstate : m'.state = m.state ∨ m'.state ≠ .verified ∧ m'.state ≠ .cancelled) :
    TeamInv m' := by
  refine hinv.congr hitems hresources hbudget ?_ ?_
  · intro hverified
    rcases hstate with hsame | ⟨hnot, _⟩
    · exact hinv.verified (hsame ▸ hverified)
    · exact absurd hverified hnot
  · intro hcancelled
    rcases hstate with hsame | ⟨_, hnot⟩
    · exact hinv.cancelled (hsame ▸ hcancelled)
    · exact absurd hcancelled hnot

-- ===== resources

variable {f : TeamResource → TeamResource}

def repeated (f : TeamResource → TeamResource) (keys : List String)
    (resource : TeamResource) : TeamResource :=
  f^[keys.count resource.key] resource

theorem key_iterate (hf : ∀ resource, (f resource).key = resource.key)
    (n : Nat) (resource : TeamResource) : (f^[n] resource).key = resource.key := by
  induction n generalizing resource with
  | zero => rfl
  | succ n ih => rw [Function.iterate_succ_apply, ih, hf]

theorem key_repeated (hf : ∀ resource, (f resource).key = resource.key)
    (keys : List String) (resource : TeamResource) :
    (repeated f keys resource).key = resource.key :=
  key_iterate hf _ resource

variable {keys : List String}

theorem repeated_of_not_mem (hkey : resource.key ∉ keys) : repeated f keys resource = resource := by
  unfold repeated
  rw [List.count_eq_zero_of_not_mem hkey]
  rfl

theorem repeated_of_mem {P : TeamResource → Prop} (hkey : resource.key ∈ keys)
    (hfirst : P (f resource)) (hkeep : ∀ other, P other → P (f other)) :
    P (repeated f keys resource) := by
  unfold repeated
  obtain ⟨n, hn⟩ : ∃ n, keys.count resource.key = n + 1 :=
    Nat.exists_eq_succ_of_ne_zero (List.count_pos_iff.2 hkey).ne'
  rw [hn]
  clear hn hkey
  induction n with
  | zero => exact hfirst
  | succ n ih =>
    rw [Function.iterate_succ_apply']
    exact hkeep _ ih

theorem forResources_ok (hok : m.forResources f keys = .ok m')
    (hf : ∀ resource, (f resource).key = resource.key) :
    m' = { m with resources := m.resources.map (repeated f keys) } := by
  induction keys generalizing m with
  | nil =>
    cases hok
    have hid : repeated f [] = id := by
      funext resource
      exact repeated_of_not_mem (List.not_mem_nil)
    rw [hid, List.map_id]
  | cons key keys ih =>
    obtain ⟨_, _, hrest⟩ := bind_eq_ok.1 hok
    rw [ih hrest]
    unfold TeamMission.modifyResource
    simp only [List.map_map]
    congr 1
    refine List.map_congr_left fun resource _ => ?_
    show repeated f keys (if resource.key = key then f resource else resource)
      = repeated f (key :: keys) resource
    unfold repeated
    by_cases hkey : resource.key = key
    · rw [if_pos hkey, hf, hkey, List.count_cons_self, Function.iterate_succ_apply]
    · rw [if_neg hkey, List.count_cons_of_ne (Ne.symm hkey)]

theorem Change.of_loop {g : TeamWorkItem → TeamWorkItem}
    (hinv : TeamInv m) (hmem : item ∈ m.workItems)
    (hitems : m'.workItems = (m.modifyItem item.key g).workItems)
    (hresources : m'.resources = m.resources.map (repeated f item.resources))
    (hbudget : m'.budget = m.budget)
    (hshape : SameShape item (g item))
    (hf : ∀ resource, (f resource).key = resource.key) :
    Change m m' item (g item) (repeated f item.resources) where
  mem := hmem
  items := by
    rw [hitems]
    refine List.map_congr_left fun other hother => ?_
    show (if other.key = item.key then g other else other) = _
    split
    · next hsame => rw [eq_of_key hinv.itemKeys hother hmem hsame]
    · rfl
  resources := hresources
  budget := hbudget
  shape := hshape
  resourceKey := key_repeated hf item.resources
  others := fun _ hnot => repeated_of_not_mem hnot

theorem TeamInv.apart_of_engaged (hinv : TeamInv m) (hmem : item ∈ m.workItems)
    (hengaged : item.Engaged) : ∀ other ∈ m.workItems, other.key ≠ item.key →
      other.Engaged → ∀ key ∈ item.resources, key ∉ other.resources :=
  fun other hother hkey hother' =>
    hinv.apart item hmem other hother hengaged hother' (Ne.symm hkey)

-- ===== expiry

/-- An item whose lease is taken away. -/
def TeamWorkItem.expired (item : TeamWorkItem) : TeamWorkItem :=
  { item with
    lease := none
    state := if item.risk = .read then .pending else .needsReconciliation }

variable {lease : TeamLease}

theorem TeamInv.engaged_of_lease (hinv : TeamInv m) (hmem : item ∈ m.workItems)
    (hlease : item.lease = some lease) : item.state = .leased :=
  (hinv.leased item hmem).2 (by rw [hlease]; rfl)

theorem TeamInv.live_of_engaged (hinv : TeamInv m) (hmem : item ∈ m.workItems)
    (hengaged : item.Engaged) : m.state ≠ .verified ∧ m.state ≠ .cancelled := by
  constructor
  · intro hverified
    have hstate := hinv.verified hverified item hmem
    rcases hengaged with h | h <;> rw [h] at hstate <;> cases hstate
  · intro hcancelled
    rcases hinv.cancelled hcancelled item hmem with hstate | hstate | hstate <;>
      rcases hengaged with h | h <;> rw [h] at hstate <;> cases hstate

theorem TeamInv.live_of_leased (hinv : TeamInv m) (hmem : item ∈ m.workItems)
    (hstate : item.state = .leased) : m.state ≠ .verified ∧ m.state ≠ .cancelled :=
  hinv.live_of_engaged hmem (.inl hstate)

theorem repeated_expire {stamp : String → Instant} {risk : ActionRisk}
    (hkey : resource.key ∈ keys) (hlock : resource.lock = some lease.lock) :
    (repeated (TeamResource.expire lease risk stamp) keys resource).lock = none ∧ (risk ≠ .read →
        (repeated (TeamResource.expire lease risk stamp) keys resource).uncertain = true) := by
  refine repeated_of_mem (P := fun other => other.lock = none
    ∧ (risk ≠ .read → other.uncertain = true)) hkey ⟨?_, ?_⟩ ?_
  · unfold TeamResource.expire
    rw [hlock]
    exact if_pos (by simp [TeamLease.lock])
  · exact fun hrisk => by simp [TeamResource.expire, hrisk]
  · intro other hother
    constructor
    · show (TeamResource.expire lease risk stamp other).lock = none
      simp [TeamResource.expire, hother.1]
    · show risk ≠ .read → (TeamResource.expire lease risk stamp other).uncertain = true
      intro hrisk
      simp [TeamResource.expire, hrisk]

/-- Reaping one lease. -/
theorem expireLease_ok {stamp : String → Instant} (hinv : TeamInv m) (hmem : item ∈ m.workItems)
    (hlease : item.lease = some lease) (hok : expireLease stamp m item = .ok m') :
    TeamInv m' ∧ ∃ resources, m' = { m with
      workItems := m.workItems.map fun other =>
        if other.key = item.key then item.expired else other
      resources := resources } := by
  unfold expireLease at hok
  rw [hlease] at hok
  obtain ⟨m₁, hloop, hok⟩ := bind_eq_ok.1 hok
  have hm₁ := forResources_ok hloop fun _ => rfl
  cases hok
  have hchange : Change m (m₁.modifyItem item.key TeamWorkItem.expired) item
      item.expired (repeated (TeamResource.expire lease item.risk stamp) item.resources) :=
    Change.of_loop hinv hmem (by rw [hm₁]; rfl) (by rw [hm₁]; rfl)
      (by rw [hm₁]; rfl) ⟨rfl, rfl, rfl, rfl⟩ (fun _ => rfl)
  have hstate := hinv.engaged_of_lease hmem hlease
  obtain ⟨hnotVerified, hnotCancelled⟩ := hinv.live_of_leased hmem hstate
  have hsame : (m₁.modifyItem item.key TeamWorkItem.expired).state = m.state := by
    rw [hm₁]
    rfl
  refine ⟨hinv.change hchange (hinv.apart_of_engaged hmem (.inl hstate))
    ?_ ?_ ?_ ?_ ?_ (hinv.attempts item hmem) ?_ ?_, m₁.resources, ?_⟩
  · by_cases hrisk : item.risk = .read <;> simp [TeamWorkItem.expired, hrisk]
  · intro _ hnone
    cases hnone
  · intro hrec resource hresource hlists
    have hrisk : item.risk ≠ .read := by
      intro hrisk
      simp [TeamWorkItem.expired, hrisk] at hrec
    obtain ⟨hlock, _⟩ := hinv.held item hmem lease hlease resource hresource hlists
    obtain ⟨hfree, huncertain⟩ := repeated_expire hlists hlock
    exact ⟨hfree, huncertain hrisk⟩
  · intro _ resource hresource hlists
    obtain ⟨hlock, _⟩ := hinv.held item hmem lease hlease resource hresource hlists
    exact (repeated_expire hlists hlock).1
  · intro _ hnone
    cases hnone
  · exact fun h => absurd (hsame ▸ h) hnotVerified
  · exact fun h => absurd (hsame ▸ h) hnotCancelled
  · rw [← hchange.items, hm₁]
    rfl

/-- Reaping those of a list, one after the other. -/
theorem expireLeases_ok {stamp : String → Instant} {todo : List TeamWorkItem}
    (hinv : TeamInv m) (hmem : ∀ item ∈ todo, item ∈ m.workItems)
    (hleases : ∀ item ∈ todo, item.lease.isSome = true)
    (hkeys : (todo.map TeamWorkItem.key).Nodup)
    (hok : expireLeases stamp m todo = .ok m') :
    TeamInv m' ∧ ∃ resources, m' = { m with
      workItems := m.workItems.map fun other =>
        if other.key ∈ todo.map TeamWorkItem.key then other.expired else other
      resources := resources } := by
  induction todo generalizing m with
  | nil =>
    cases hok
    refine ⟨hinv, m'.resources, ?_⟩
    simp
  | cons item todo ih =>
    unfold expireLeases at hok
    rw [List.foldlM_cons] at hok
    obtain ⟨m₁, hone, hrest⟩ := bind_eq_ok.1 hok
    obtain ⟨lease, hlease⟩ :=
      Option.isSome_iff_exists.1 (hleases item (List.mem_cons_self ..))
    have hitem := hmem item (List.mem_cons_self ..)
    obtain ⟨hinv₁, resources, hm₁⟩ := expireLease_ok hinv hitem hlease hone
    obtain ⟨hnew, htodo⟩ := List.nodup_cons.1 hkeys
    -- The rest of the loop finds its items as they were.
    have hmem₁ : ∀ other ∈ todo, other ∈ m₁.workItems := by
      intro other hother
      rw [hm₁]
      refine List.mem_map.2
        ⟨other, hmem other (List.mem_cons_of_mem _ hother), if_neg ?_⟩
      intro hkey
      exact hnew (List.mem_map.2 ⟨other, hother, hkey⟩)
    obtain ⟨hinv', resources', hm'⟩ := ih hinv₁ hmem₁
      (fun other hother => hleases other (List.mem_cons_of_mem _ hother))
      htodo hrest
    refine ⟨hinv', resources', ?_⟩
    rw [hm', hm₁]
    congr 1
    simp only [List.map_map]
    refine List.map_congr_left fun other hother => ?_
    simp only [Function.comp_apply, List.map_cons, List.mem_cons]
    by_cases hkey : other.key = item.key
    · have hsame := eq_of_key hinv.itemKeys hother hitem hkey
      subst hsame
      have hold : other.expired.key ∉ todo.map TeamWorkItem.key := hnew
      rw [if_pos rfl, if_pos (Or.inl rfl), if_neg hold]
    · rw [if_neg hkey]
      simp [hkey]

end

end OperatorRuntime.Team
