/-
What a call does to the file, and what holds of every file reached: it is
valid, a lease that left ACTIVE stays as it was, and a lease is not
ACTIVE once a revocation of it, or a halt since it was issued, returned
(`Inv`).
-/
import OperatorRuntime.Authority.Proofs.Validity
import OperatorRuntime.Lib.Runs

namespace OperatorRuntime.Authority

open Lib
open Principals (AuthorityGrant validateAuthorityGrant)

-- ===== outcomes

theorem expireLease_same (now : Instant) (lease : EnterpriseAuthorityLease) :
    SameLease lease (expireLease now lease) := by
  rw [expireLease]
  split
  · exact ⟨rfl, rfl, rfl, rfl, rfl, rfl, rfl, rfl⟩
  · exact SameLease.refl lease

theorem withdraw_same (state : EnterpriseAuthorityLeaseState) (at' : Instant) (reason : String)
    (lease : EnterpriseAuthorityLease) : SameLease lease (withdraw state at' reason lease) :=
  ⟨rfl, rfl, rfl, rfl, rfl, rfl, rfl, rfl⟩

variable {now : Instant} {lease : EnterpriseAuthorityLease}

theorem expireLease_active (h : (expireLease now lease).state = .active) :
    lease.state = .active ∧ now.val < lease.expiresAt.val ∧ expireLease now lease = lease := by
  rw [expireLease] at h ⊢
  split at h
  · cases h
  · next hnot =>
    refine ⟨h, ?_, if_neg hnot⟩
    by_contra hle
    exact hnot ⟨h, not_lt.1 hle⟩

theorem mem_byId {leases : List EnterpriseAuthorityLease} {id : Uuid}
    (h : byId leases id = some lease) : lease ∈ leases ∧ lease.id = id :=
  ⟨List.mem_of_find?_eq_some h, by simpa using List.find?_some h⟩

/-- The lease is below the one of that id. -/
def Under (leases : List EnterpriseAuthorityLease) (root : Uuid)
    (lease : EnterpriseAuthorityLease) : Prop :=
  ∃ p ∈ lease.parentLeaseId, p ∈ lineage leases root

instance (leases : List EnterpriseAuthorityLease) (root : Uuid) (lease : EnterpriseAuthorityLease) :
    Decidable (Under leases root lease) :=
  inferInstanceAs (Decidable (∃ p ∈ lease.parentLeaseId, p ∈ lineage leases root))

def revokedOf (leases : List EnterpriseAuthorityLease) (id : Uuid) (at' : Instant)
    (reason : String) (lease : EnterpriseAuthorityLease) : EnterpriseAuthorityLease :=
  if lease.id = id then withdraw .revoked at' reason lease
  else if Under leases id lease ∧ lease.state = .active then
    withdraw .revoked at' ("ancestor lease revoked: " ++ reason) lease
  else lease

theorem revokedOf_same (leases : List EnterpriseAuthorityLease) (id : Uuid) (at' : Instant)
    (reason : String) (lease : EnterpriseAuthorityLease) :
    SameLease lease (revokedOf leases id at' reason lease) := by
  rw [revokedOf]
  split
  · exact withdraw_same ..
  · split
    · exact withdraw_same ..
    · exact SameLease.refl lease

/-- Revoking treats each lease by itself. -/
theorem revokeLease_eq (leases : List EnterpriseAuthorityLease) (id : Uuid) (at' : Instant)
    (reason : String) :
    revokeLease leases id at' reason = leases.map (revokedOf leases id at' reason) := by
  have hlineage : lineage (leases.map fun lease =>
      if lease.id = id then withdraw .revoked at' reason lease else lease) id
      = lineage leases id := by
    rw [lineage, lineage, List.length_map]
    refine spread_map ?_ ?_
    · intro lease
      split
      · rfl
      · rfl
    · intro lease
      split
      · rfl
      · rfl
  rw [revokeLease, revokeDescendants, hlineage, List.map_map]
  refine List.map_congr_left ?_
  intro lease _
  rw [Function.comp_apply, revokedOf]
  by_cases hid : lease.id = id
  · rw [if_pos hid, if_pos hid, if_neg]
    intro h
    cases h.2
  · rw [if_neg hid, if_neg hid]
    rfl

/-- The leases an accepted outcome writes have validated grants. -/
def Granted (state : AuthorityLeaseStateFile) : Prop :=
  ∀ lease ∈ state.leases, validateAuthorityGrant lease.grant = .ok lease.grant

theorem Valid.granted {state : AuthorityLeaseStateFile} (h : Valid state) : Granted state :=
  fun lease hl => (h.leases lease hl).grant

theorem Valid.granted_map {state : AuthorityLeaseStateFile} (h : Valid state)
    {f : EnterpriseAuthorityLease → EnterpriseAuthorityLease}
    (hf : ∀ lease, SameLease lease (f lease)) (emergencyHalt : Bool)
    (emergencyReason : Option String) :
    Granted { emergencyHalt, emergencyReason, leases := state.leases.map f } := by
  refine List.forall_mem_map.2 ?_
  intro lease hl
  rw [(hf lease).grant]
  exact (h.leases lease hl).grant

section
variable {α : Type} {disk : Disk} {stored stored' : AuthorityLeaseStateFile}
  {outcome : Result (AuthorityLeaseStateFile × α)} {answer : Result α}

theorem commit_cases (h : commit disk stored outcome = (stored', answer))
    (hgranted : ∀ {state value}, outcome = .ok (state, value) → Granted state) :
    (stored' = stored ∧ ∃ e, answer = .error e)
    ∨ ∃ state value, outcome = .ok (state, value) ∧ stored' = state ∧ Valid state
      ∧ (answer = .ok value ∨ ∃ e, answer = .error e) := by
  rcases replaceState_cases h with hleft | ⟨state, value, hok, haccept, rfl, hanswer⟩
  · exact .inl hleft
  · obtain ⟨state', hvalid, -⟩ := bind_eq_ok.1 haccept
    obtain rfl := validateState_eq hvalid (hgranted hok)
    exact .inr ⟨_, _, hok, rfl, valid_of_ok hvalid, hanswer⟩

end

section
variable {env : Environment} {stored state : AuthorityLeaseStateFile}

/-- The parent `issue` found covers the new grant. -/
structure Source (stored : AuthorityLeaseStateFile) (input : IssueInput)
    (created : EnterpriseAuthorityLease) (parent : EnterpriseAuthorityLease) : Prop where
  mem : parent ∈ stored.leases
  named : input.parentLeaseId = some parent.id.val
  parentLeaseId : created.parentLeaseId = some parent.id

structure Created (env : Environment) (stored : AuthorityLeaseStateFile) (input : IssueInput)
    (created : EnterpriseAuthorityLease) : Prop where
  id : created.id = env.randomUUID
  state : created.state = .active
  issuedAt : created.issuedAt = env.now
  withdrawn : created.revokedAt = none ∧ created.revocationReason = none
  granted : validateAuthorityGrant created.grant = .ok created.grant
  capabilities : created.grant.capabilities = [] ↔ input.grant.capabilities = []
  resourcePrefixes : created.grant.resourcePrefixes = [] ↔ input.grant.resourcePrefixes = []
  source : ∀ p ∈ created.parentLeaseId, ∃ parent, Source stored input created parent

theorem sourceOf_eq_ok {now : Instant} {purpose : String} {revision : Nat} {grant : AuthorityGrant}
    {named : Option String} {source : Option Uuid}
    (h : sourceOf state now purpose revision grant named = .ok source) :
    source = none ∨ ∃ parent ∈ state.leases, named = some parent.id.val
    ∧ source = some parent.id := by
  rw [sourceOf] at h
  split at h
  · exact .inl (Except.ok.inj h).symm
  · next text htext =>
    split at h
    · cases h
    · next parent hfind =>
      obtain ⟨_, -, hok⟩ := bind_eq_ok.1 h
      have hid := List.find?_some hfind
      rw [beq_iff_eq] at hid
      refine .inr ⟨parent, List.mem_of_find?_eq_some hfind, ?_, (Except.ok.inj hok).symm⟩
      rw [hid]
      exact (Option.filter_eq_some_iff.1 htext).1

theorem eq_nil_iff_of_mem {l l' : List String} (h : ∀ x, x ∈ l' ↔ x ∈ l) : l' = [] ↔ l = [] := by
  simp only [List.eq_nil_iff_forall_not_mem, h]

theorem issued_eq_ok (hvalid : Valid stored) {input : IssueInput}
    {created : EnterpriseAuthorityLease} (h : issued env stored input = .ok (state, created)) :
    state = { stored with leases := stored.leases.map (expireLease env.now) ++ [created] }
      ∧ Created env stored input created := by
  rw [issued] at h
  simp only [bind_eq_ok, rejectIf_eq_ok, Except.ok.injEq, Prod.mk.injEq] at h
  obtain ⟨_, -, purpose, -, revision, -, _, -, read, hread, _, -, expiresAt, -, requested,
    hrequested, grant, hgrant, source, hsource, rfl, rfl⟩ := h
  obtain rfl := hvalid.read hread
  have hreq := Principals.validateAuthorityGrant_same hrequested
  have hsame := Principals.validateAuthorityGrant_same hgrant
  refine ⟨rfl, rfl, rfl, rfl, ⟨rfl, rfl⟩, validateAuthorityGrant_again hgrant,
    eq_nil_iff_of_mem fun rule => (hsame.capabilities rule).trans (hreq.capabilities rule),
    eq_nil_iff_of_mem fun outer => (hsame.resources outer).trans (hreq.resources outer), ?_⟩
  intro p hp
  dsimp only at hp
  rcases sourceOf_eq_ok hsource with rfl | ⟨parent', hparent', hnamed, rfl⟩
  · cases hp
  · obtain ⟨parent, hparent, rfl⟩ := List.mem_map.1 hparent'
    have hid := (expireLease_same env.now parent).id
    rw [hid] at hnamed
    exact ⟨parent, hparent, hnamed, by rw [hid]⟩

theorem revoked_eq_ok (hvalid : Valid stored) {idInput reasonInput : String}
    {answer : EnterpriseAuthorityLease}
    (h : revoked env stored idInput reasonInput = .ok (state, answer)) :
    ∃ lease, uuid? idInput = some lease.id ∧ lease ∈ stored.leases ∧ answer.id = lease.id
    ∧ ¬ unfit reasonInput 2048 ∧ (((expireLease env.now lease).state = .active
        ∧ state = { stored with
            leases := (stored.leases.map (expireLease env.now)).map (revokedOf
                (stored.leases.map (expireLease env.now)) lease.id env.next reasonInput) })
        ∨ ((expireLease env.now lease).state ≠ .active
          ∧ state = { stored with leases := stored.leases.map (expireLease env.now) })) := by
  rw [revoked] at h
  simp only [bind_eq_ok] at h
  obtain ⟨id, hid, reason, hreason, read, hread, h⟩ := h
  obtain rfl := hvalid.read hread
  obtain ⟨rfl, hfit⟩ := boundedText_eq_ok.1 hreason
  have huuid : uuid? idInput = some id := by
    rw [uuid] at hid
    split at hid
    · next id' hsome => rw [hsome, Except.ok.inj hid]
    · cases hid
  split at h
  · cases h
  · next lease' hfind =>
    obtain ⟨hmem, rfl⟩ := mem_byId hfind
    obtain ⟨lease, hlease, rfl⟩ := List.mem_map.1 hmem
    have hsame := (expireLease_same env.now lease).id
    rw [hsame] at huuid
    split at h
    · next hactive =>
      obtain ⟨rfl, rfl⟩ := Prod.mk.inj (Except.ok.inj h)
      refine ⟨lease, huuid, hlease, hsame, hfit, .inl ⟨hactive, ?_⟩⟩
      rw [revokeLease_eq, hsame]
      rfl
    · next hinactive =>
      obtain ⟨rfl, rfl⟩ := Prod.mk.inj (Except.ok.inj h)
      exact ⟨lease, huuid, hlease, hsame, hfit, .inr ⟨hinactive, rfl⟩⟩

def haltedOf (at' : Instant) (reason : String) (lease : EnterpriseAuthorityLease) :
    EnterpriseAuthorityLease :=
  if lease.state = .active then withdraw .halted at' reason lease else lease

theorem haltedOf_same (at' : Instant) (reason : String) (lease : EnterpriseAuthorityLease) :
    SameLease lease (haltedOf at' reason lease) := by
  rw [haltedOf]
  split
  · exact withdraw_same ..
  · exact SameLease.refl lease

theorem halted_eq_ok (hvalid : Valid stored) {reasonInput : String} {u : Unit} :
    halted env stored reasonInput = .ok (state, u) ↔ ¬ unfit reasonInput 2048
        ∧ state = { emergencyHalt := true, emergencyReason := some reasonInput
                    leases := stored.leases.map (haltedOf env.now reasonInput) } := by
  rw [halted]
  simp only [bind_eq_ok, boundedText_eq_ok, hvalid.validateState, Except.ok.injEq, Prod.mk.injEq,
    and_true]
  constructor
  · intro ⟨_, ⟨rfl, hfit⟩, _, rfl, hstate⟩
    exact ⟨hfit, hstate.symm⟩
  · intro ⟨hfit, hstate⟩
    exact ⟨_, ⟨rfl, hfit⟩, _, rfl, hstate.symm⟩

theorem cleared_eq_ok (hvalid : Valid stored) {u : Unit} (h : cleared stored = .ok (state, u)) :
    state = { emergencyHalt := false, emergencyReason := none, leases := stored.leases } := by
  rw [cleared] at h
  simp only [bind_eq_ok, Except.ok.injEq, Prod.mk.injEq] at h
  obtain ⟨read, hread, rfl, -⟩ := h
  obtain rfl := hvalid.read hread
  rfl

end

-- ===== calls

/-- The leases after a call that issues none: each is active only as it
was. -/
structure Kept (before after : List EnterpriseAuthorityLease)
    (f : EnterpriseAuthorityLease → EnterpriseAuthorityLease) : Prop where
  eq : after = before.map f
  same : ∀ lease, SameLease lease (f lease)
  active : ∀ lease, (f lease).state = .active → f lease = lease

theorem Kept.refl (leases : List EnterpriseAuthorityLease) : Kept leases leases fun x => x where
  eq := (List.map_id' leases).symm
  same := SameLease.refl
  active := fun _ _ => rfl

theorem Kept.expire (leases : List EnterpriseAuthorityLease) (now : Instant) :
    Kept leases (leases.map (expireLease now)) (expireLease now) where
  eq := rfl
  same := expireLease_same now
  active := fun _ h => (expireLease_active h).2.2

theorem Kept.halt (leases : List EnterpriseAuthorityLease) (at' : Instant) (reason : String) :
    Kept leases (leases.map (haltedOf at' reason)) (haltedOf at' reason) where
  eq := rfl
  same := haltedOf_same at' reason
  active := by
    intro lease h
    rw [haltedOf] at h ⊢
    split at h
    · cases h
    · next hnot => exact if_neg hnot

theorem revokedOf_active {leases : List EnterpriseAuthorityLease} {id : Uuid} {at' : Instant}
    {reason : String} (h : (revokedOf leases id at' reason lease).state = .active) :
    lease.id ≠ id ∧ revokedOf leases id at' reason lease = lease := by
  rw [revokedOf] at h ⊢
  split at h
  · cases h
  · next hid =>
    split at h
    · cases h
    · next hnot => exact ⟨hid, by rw [if_neg hid, if_neg hnot]⟩

theorem Kept.revoke (leases : List EnterpriseAuthorityLease) (now at' : Instant) (id : Uuid)
    (reason : String) :
    Kept leases ((leases.map (expireLease now)).map
        (revokedOf (leases.map (expireLease now)) id at' reason))
      (fun lease => revokedOf (leases.map (expireLease now)) id at' reason
        (expireLease now lease)) where
  eq := List.map_map
  same := fun lease => (expireLease_same now lease).trans (revokedOf_same ..)
  active := by
    intro lease h
    have hkept := (revokedOf_active h).2
    rw [hkept] at h ⊢
    exact (expireLease_active h).2.2

/-- What a call does to the file and the log. -/
inductive Change (env : Environment) (stored : AuthorityLeaseStateFile) :
    Op → AuthorityLeaseStateFile → List Event → Prop
  | stayed (op : Op) : Change env stored op stored []
  | issued {input : IssueInput} {state : AuthorityLeaseStateFile}
      {created : EnterpriseAuthorityLease} (valid : Valid state)
      (leases : state.leases = stored.leases.map (expireLease env.now) ++ [created])
      (made : Created env stored input created) :
      Change env stored (.issue input) state [.issued created.id]
  | kept {op : Op} {state : AuthorityLeaseStateFile} {events : List Event}
      {f : EnterpriseAuthorityLease → EnterpriseAuthorityLease} (valid : Valid state)
      (kept : Kept stored.leases state.leases f)
      (issued : ∀ id, .issued id ∉ events)
      (known : ∀ id, .revoked id ∈ events → ∃ lease ∈ stored.leases, lease.id = id)
      (revoked : ∀ lease ∈ stored.leases, .revoked lease.id ∈ events → (f lease).state ≠ .active)
      (halted : .halted ∈ events → ∀ lease ∈ stored.leases, (f lease).state ≠ .active) :
      Change env stored op state events

theorem gained_self (stored : AuthorityLeaseStateFile) : gained stored stored = [] := by
  rw [gained, List.filter_eq_nil_iff.2, List.map_nil]
  intro id hid
  simpa using hid

theorem gained_issued {stored state : AuthorityLeaseStateFile} {created : EnterpriseAuthorityLease}
    (hleases : state.leases = stored.leases.map (expireLease now) ++ [created])
    (hnodup : (state.leases.map (·.id)).Nodup) : gained stored state = [.issued created.id] := by
  rw [hleases, List.map_append, map_ids (expireLease_same now), List.map_singleton] at hnodup
  have hnot : created.id ∉ stored.leases.map (·.id) := by
    intro hin
    exact (List.nodup_append.1 hnodup).2.2 _ hin _ (List.mem_singleton_self _) rfl
  rw [gained, hleases, List.map_append, map_ids (expireLease_same now), List.map_singleton,
    List.filter_append, List.filter_eq_nil_iff.2 (by intro id hid; simpa using hid),
    List.filter_singleton, List.nil_append]
  simp only [hnot, not_false_eq_true, decide_true, cond_true, List.map_singleton]

theorem mem_returned {α : Type} {event : α → Event} {answer : Result α} {e : Event} :
    e ∈ returned event answer ↔ ∃ a, answer = .ok a ∧ e = event a := by
  rw [returned]
  cases answer with
  | error _ => exact ⟨fun h => (nomatch h), fun ⟨_, h, _⟩ => (nomatch h)⟩
  | ok a =>
    refine ⟨fun h => ⟨a, rfl, List.mem_singleton.1 h⟩, ?_⟩
    intro ⟨a', ha, he⟩
    rw [Except.ok.inj ha]
    exact List.mem_singleton.2 he

/-- Each call makes one of the changes. -/
theorem Call.run_change {call : Call} {stored state : AuthorityLeaseStateFile}
    {events : List Event} (hvalid : Valid stored) (h : call.run stored = (state, events)) :
    Change call.env stored call.op state events := by
  obtain ⟨env, op⟩ := call
  cases op with
  | issue input =>
    obtain ⟨rfl, rfl⟩ := Prod.mk.inj h
    cases hissue : issue env stored input with
    | mk state answer =>
      rw [issue] at hissue
      rcases commit_cases hissue (by
        intro state created hok
        obtain ⟨rfl, hmade⟩ := issued_eq_ok hvalid hok
        intro lease hl
        rcases List.mem_append.1 hl with hl | hl
        · exact (hvalid.granted_map (expireLease_same env.now) false none) lease hl
        · rw [List.mem_singleton.1 hl]
          exact hmade.granted) with ⟨rfl, -⟩ | ⟨state, created, hok, rfl, hvalid', -⟩
      · rw [gained_self]
        exact .stayed _
      · obtain ⟨hstate, hmade⟩ := issued_eq_ok hvalid hok
        have hleases := congrArg AuthorityLeaseStateFile.leases hstate
        rw [gained_issued hleases hvalid'.ids]
        exact .issued hvalid' hleases hmade
  | revoke idInput reasonInput =>
    cases hrevoke : revoke env stored idInput reasonInput with
    | mk state' answer =>
      unfold Call.run at h
      dsimp only at h
      rw [hrevoke] at h
      obtain ⟨rfl, rfl⟩ := Prod.mk.inj h
      rw [revoke] at hrevoke
      rcases commit_cases hrevoke (by
        intro state lease hok
        obtain ⟨target, -, -, -, -, ⟨-, hstate⟩ | ⟨-, hstate⟩⟩ := revoked_eq_ok hvalid hok
        · rw [hstate, (Kept.revoke stored.leases env.now env.next target.id reasonInput).eq]
          exact hvalid.granted_map (Kept.revoke stored.leases ..).same _ _
        · rw [hstate]
          exact hvalid.granted_map (expireLease_same env.now) _ _) with
        ⟨rfl, e, rfl⟩ | ⟨state, lease, hok, rfl, hvalid', hanswer⟩
      · exact .stayed _
      · have hevent : ∀ e ∈ returned (fun lease => .revoked lease.id) answer,
            e = .revoked lease.id := by
          intro e he
          obtain ⟨a, ha, rfl⟩ := mem_returned.1 he
          rcases hanswer with hok' | ⟨_, herror⟩
          · rw [Except.ok.inj (ha.symm.trans hok')]
          · rw [ha] at herror
            cases herror
        obtain ⟨target, -, htarget, hid, -, hcases⟩ := revoked_eq_ok hvalid hok
        have hissued : ∀ id, .issued id ∉ returned (fun lease => .revoked lease.id) answer := by
          intro id hin
          cases hevent _ hin
        have hhalted : .halted ∉ returned (fun lease => .revoked lease.id) answer := by
          intro hin
          cases hevent _ hin
        have hknown : ∀ id, .revoked id ∈ returned (fun lease => .revoked lease.id) answer →
            ∃ lease ∈ stored.leases, lease.id = id := by
          intro id hin
          have heq : id = lease.id := Event.revoked.inj (hevent _ hin)
          exact ⟨target, htarget, hid.symm.trans heq.symm⟩
        rcases hcases with ⟨-, hstate⟩ | ⟨hinactive, hstate⟩
        · subst hstate
          refine .kept hvalid' (Kept.revoke stored.leases env.now env.next target.id reasonInput)
            hissued hknown ?_ fun hin => absurd hin hhalted
          intro x hx hin hactive
          have hxid : x.id = lease.id := Event.revoked.inj (hevent _ hin)
          have hne := (revokedOf_active hactive).1
          rw [(expireLease_same env.now x).id] at hne
          exact hne (hxid.trans hid)
        · subst hstate
          refine .kept hvalid' (Kept.expire stored.leases env.now) hissued hknown ?_ fun hin => absurd hin hhalted
          intro x hx hin
          have hxid : x.id = lease.id := Event.revoked.inj (hevent _ hin)
          rw [List.inj_on_of_nodup_map hvalid.ids hx htarget (hxid.trans hid)]
          exact hinactive
  | emergencyHalt reasonInput =>
    cases hhalt : emergencyHalt env stored reasonInput with
    | mk state' answer =>
      unfold Call.run at h
      dsimp only at h
      rw [hhalt] at h
      obtain ⟨rfl, rfl⟩ := Prod.mk.inj h
      rw [emergencyHalt] at hhalt
      rcases commit_cases hhalt (by
        intro state _ hok
        obtain ⟨-, rfl⟩ := (halted_eq_ok hvalid).1 hok
        exact hvalid.granted_map (haltedOf_same env.now reasonInput) _ _) with
        ⟨rfl, e, rfl⟩ | ⟨state, _, hok, rfl, hvalid', hanswer⟩
      · exact .stayed _
      · obtain ⟨-, rfl⟩ := (halted_eq_ok hvalid).1 hok
        refine .kept hvalid' (Kept.halt ..) ?_ ?_ ?_ ?_
        · intro id hin
          obtain ⟨_, -, he⟩ := mem_returned.1 hin
          cases he
        · intro id hin
          obtain ⟨_, -, he⟩ := mem_returned.1 hin
          cases he
        · intro lease _ hin
          obtain ⟨_, -, he⟩ := mem_returned.1 hin
          cases he
        · intro _ lease _ hactive
          have hkept := (Kept.halt stored.leases env.now reasonInput).active lease hactive
          rw [hkept] at hactive
          rw [haltedOf, if_pos hactive] at hkept
          rw [← hkept] at hactive
          cases hactive
  | clearEmergencyHalt =>
    obtain ⟨rfl, rfl⟩ := Prod.mk.inj h
    cases hclear : clearEmergencyHalt env stored with
    | mk state answer =>
      rw [clearEmergencyHalt] at hclear
      rcases commit_cases hclear (by
        intro state _ hok
        rw [cleared_eq_ok hvalid hok]
        exact hvalid.granted) with ⟨rfl, -⟩ | ⟨state, _, hok, rfl, hvalid', -⟩
      · exact .stayed _
      · refine .kept (f := fun x => x) hvalid' ?_ (fun _ h => (nomatch h))
          (fun _ h => (nomatch h)) (fun _ _ h => (nomatch h)) fun h => (nomatch h)
        rw [cleared_eq_ok hvalid hok]
        exact Kept.refl _
  | list =>
    cases h
    exact .stayed _
  | assertActive idInput expected =>
    cases h
    exact .stayed _

-- ===== invariant

/-- What holds of the file and the log of every machine reached. -/
structure Inv (m : Machine) : Prop where
  valid : Valid m.stored
  issued : ∀ id, .issued id ∈ m.log → ∃ lease ∈ m.stored.leases, lease.id = id
  known : ∀ id, .revoked id ∈ m.log → ∃ lease ∈ m.stored.leases, lease.id = id
  logged : ∀ lease ∈ m.stored.leases, .issued lease.id ∈ m.log
  revoked : ∀ lease ∈ m.stored.leases, .revoked lease.id ∈ m.log → lease.state ≠ .active
  halted : ∀ lease ∈ m.stored.leases, [.issued lease.id, .halted].Sublist m.log →
    lease.state ≠ .active
  clean : ∀ lease ∈ m.stored.leases, lease.state = .active →
    lease.revokedAt = none ∧ lease.revocationReason = none
  past : ∀ lease ∈ m.stored.leases, lease.issuedAt.val ≤ m.now.val

theorem Inv.start (now : Instant) : Inv (start now) where
  valid :=
    { size := Nat.zero_le _
      emergencyReason := fun _ h => (nomatch h)
      leases := fun _ h => (nomatch h)
      ids := List.nodup_nil
      parents := fun _ h => (nomatch h)
      acyclic := rfl }
  issued := fun _ h => (nomatch h)
  known := fun _ h => (nomatch h)
  logged := fun _ h => (nomatch h)
  revoked := fun _ h => (nomatch h)
  halted := fun _ h => (nomatch h)
  clean := fun _ h => (nomatch h)
  past := fun _ h => (nomatch h)

theorem pair_sublist_append {a b : Event} {l r : List Event} (h : [a, b].Sublist (l ++ r)) :
    [a, b].Sublist l ∨ (a ∈ l ∧ b ∈ r) ∨ [a, b].Sublist r := by
  obtain ⟨front, back, heq, hfront, hback⟩ := List.sublist_append_iff.1 h
  cases front with
  | nil =>
    rw [List.nil_append] at heq
    exact .inr (.inr (heq ▸ hback))
  | cons x front =>
    obtain ⟨rfl, htail⟩ := List.cons.inj heq
    cases front with
    | nil =>
      obtain rfl : [b] = back := htail
      exact .inr (.inl ⟨List.singleton_sublist.1 hfront, List.singleton_sublist.1 hback⟩)
    | cons y front =>
      obtain ⟨rfl, hrest⟩ := List.cons.inj htail
      obtain ⟨rfl, -⟩ := List.append_eq_nil_iff.1 hrest.symm
      exact .inl hfront

variable {m : Machine}

theorem Inv.kept (hinv : Inv m) {state : AuthorityLeaseStateFile} {events : List Event}
    {f : EnterpriseAuthorityLease → EnterpriseAuthorityLease} (hvalid : Valid state)
    (hkept : Kept m.stored.leases state.leases f) (hnow : m.now.val ≤ now.val)
    (hissued : ∀ id, .issued id ∉ events)
    (hknown : ∀ id, .revoked id ∈ events → ∃ lease ∈ m.stored.leases, lease.id = id)
    (hrevoked : ∀ lease ∈ m.stored.leases, .revoked lease.id ∈ events → (f lease).state ≠ .active)
    (hhalted : .halted ∈ events → ∀ lease ∈ m.stored.leases, (f lease).state ≠ .active) :
    Inv { stored := state, now, log := m.log ++ events } where
  valid := hvalid
  issued := by
    intro id hid
    rcases List.mem_append.1 hid with hid | hid
    · obtain ⟨lease, hl, heq⟩ := hinv.issued id hid
      exact ⟨f lease, hkept.eq ▸ List.mem_map_of_mem hl, ((hkept.same lease).id).trans heq⟩
    · exact absurd hid (hissued id)
  known := by
    intro id hid
    obtain ⟨lease, hl, heq⟩ : ∃ lease ∈ m.stored.leases, lease.id = id := by
      rcases List.mem_append.1 hid with hid | hid
      · exact hinv.known id hid
      · exact hknown id hid
    exact ⟨f lease, hkept.eq ▸ List.mem_map_of_mem hl, ((hkept.same lease).id).trans heq⟩
  logged := by
    rw [hkept.eq]
    refine List.forall_mem_map.2 fun lease hl => ?_
    rw [(hkept.same lease).id]
    exact List.mem_append_left _ (hinv.logged lease hl)
  revoked := by
    rw [hkept.eq]
    refine List.forall_mem_map.2 fun lease hl hin => ?_
    rw [(hkept.same lease).id] at hin
    rcases List.mem_append.1 hin with hin | hin
    · intro hactive
      have hsame := hkept.active lease hactive
      rw [hsame] at hactive
      exact hinv.revoked lease hl hin hactive
    · exact hrevoked lease hl hin
  halted := by
    rw [hkept.eq]
    refine List.forall_mem_map.2 fun lease hl hin => ?_
    rw [(hkept.same lease).id] at hin
    rcases pair_sublist_append hin with hin | ⟨-, hin⟩ | hin
    · intro hactive
      have hsame := hkept.active lease hactive
      rw [hsame] at hactive
      exact hinv.halted lease hl hin hactive
    · exact hhalted hin lease hl
    · exact absurd (hin.subset (List.mem_cons_self ..)) (hissued _)
  clean := by
    rw [hkept.eq]
    refine List.forall_mem_map.2 fun lease hl hactive => ?_
    have hsame := hkept.active lease hactive
    rw [hsame] at hactive ⊢
    exact hinv.clean lease hl hactive
  past := by
    rw [hkept.eq]
    refine List.forall_mem_map.2 fun lease hl => ?_
    rw [(hkept.same lease).issuedAt]
    exact (hinv.past lease hl).trans hnow

theorem Inv.issue (hinv : Inv m) {env : Environment} {input : IssueInput}
    {state : AuthorityLeaseStateFile} {created : EnterpriseAuthorityLease} (hvalid : Valid state)
    (hleases : state.leases = m.stored.leases.map (expireLease env.now) ++ [created])
    (hmade : Created env m.stored input created) (hnow : m.now.val ≤ env.now.val)
    (hnext : env.now.val ≤ env.next.val) :
    Inv { stored := state, now := env.next, log := m.log ++ [.issued created.id] } := by
  have hnew : ¬ ∃ lease ∈ m.stored.leases, lease.id = created.id := by
    intro ⟨lease, hl, hid⟩
    have hnodup := hvalid.ids
    rw [hleases, List.map_append, map_ids (expireLease_same env.now), List.map_singleton] at hnodup
    exact (List.nodup_append.1 hnodup).2.2 _ (List.mem_map_of_mem hl) _
      (List.mem_singleton_self _) hid
  have hold : ∀ lease ∈ m.stored.leases, ∃ lease' ∈ state.leases, lease'.id = lease.id := by
    intro lease hl
    rw [hleases]
    exact ⟨_, List.mem_append_left _ (List.mem_map_of_mem hl), (expireLease_same env.now lease).id⟩
  -- a lease is an old one as expiry leaves it, or the new one
  have hcases : ∀ {P : EnterpriseAuthorityLease → Prop},
      (∀ lease ∈ m.stored.leases, P (expireLease env.now lease)) → P created →
      ∀ lease ∈ state.leases, P lease := by
    intro P hold hcreated lease hl
    rw [hleases] at hl
    rcases List.mem_append.1 hl with hl | hl
    · exact List.forall_mem_map.2 hold lease hl
    · rw [List.mem_singleton.1 hl]
      exact hcreated
  -- no halt is logged by the call
  have hbefore : ∀ {id : Uuid}, [.issued id, .halted].Sublist (m.log ++ [Event.issued created.id]) →
      [.issued id, .halted].Sublist m.log := by
    intro id hin
    rcases pair_sublist_append hin with hin | ⟨-, hin⟩ | hin
    · exact hin
    · cases List.mem_singleton.1 hin
    · cases List.mem_singleton.1 (hin.subset (List.mem_cons_of_mem _ (List.mem_singleton_self _)))
  refine ⟨hvalid, ?_, ?_, ?_, ?_, ?_, ?_, ?_⟩
  · intro id hid
    rcases List.mem_append.1 hid with hid | hid
    · obtain ⟨lease, hl, rfl⟩ := hinv.issued id hid
      exact hold lease hl
    · cases List.mem_singleton.1 hid
      refine ⟨created, ?_, rfl⟩
      show created ∈ state.leases
      rw [hleases]
      exact List.mem_append_right _ (List.mem_singleton_self _)
  · intro id hid
    rcases List.mem_append.1 hid with hid | hid
    · obtain ⟨lease, hl, rfl⟩ := hinv.known id hid
      exact hold lease hl
    · cases List.mem_singleton.1 hid
  · refine hcases ?_ (List.mem_append_right _ (List.mem_singleton_self _))
    intro lease hl
    rw [(expireLease_same env.now lease).id]
    exact List.mem_append_left _ (hinv.logged lease hl)
  · refine hcases (fun lease hl hin hactive => ?_) fun hin => ?_
    · rw [(expireLease_same env.now lease).id] at hin
      rcases List.mem_append.1 hin with hin | hin
      · exact hinv.revoked lease hl hin (expireLease_active hactive).1
      · cases List.mem_singleton.1 hin
    · rcases List.mem_append.1 hin with hin | hin
      · exact absurd (hinv.known _ hin) hnew
      · cases List.mem_singleton.1 hin
  · refine hcases (fun lease hl hin hactive => ?_) fun hin => ?_
    · rw [(expireLease_same env.now lease).id] at hin
      exact hinv.halted lease hl (hbefore hin) (expireLease_active hactive).1
    · exact absurd (hinv.issued _ ((hbefore hin).subset (List.mem_cons_self ..))) hnew
  · refine hcases (fun lease hl hactive => ?_) fun _ => hmade.withdrawn
    obtain ⟨hstate, -, hsame⟩ := expireLease_active hactive
    rw [hsame]
    exact hinv.clean lease hl hstate
  · refine hcases (fun lease hl => ?_) ?_
    · rw [(expireLease_same env.now lease).issuedAt]
      exact (hinv.past lease hl).trans (hnow.trans hnext)
    · rw [hmade.issuedAt]
      exact hnext

theorem step_eq_some {m' : Machine} {call : Call} (h : step m call = some m') :
    m.now.val ≤ call.env.now.val ∧ call.env.now.val ≤ call.env.next.val
      ∧ m' = { stored := (call.run m.stored).1, now := call.env.next
               log := m.log ++ (call.run m.stored).2 } := by
  unfold step at h
  split at h
  · next htimes => exact ⟨htimes.1, htimes.2, (Option.some.inj h).symm⟩
  · cases h

/-- One call, by the lemma of its operation. -/
theorem Inv.step {m' : Machine} {call : Call} (hinv : Inv m) (h : step m call = some m') :
    Inv m' := by
  obtain ⟨hnow, hnext, rfl⟩ := step_eq_some h
  have hchange := call.run_change hinv.valid (Prod.eta (call.run m.stored)).symm
  generalize call.run m.stored = after at hchange
  obtain ⟨state, events⟩ := after
  obtain ⟨env, op⟩ := call
  cases hchange with
  | stayed op =>
    exact hinv.kept hinv.valid (Kept.refl _) (hnow.trans hnext) (fun _ h => (nomatch h))
      (fun _ h => (nomatch h)) (fun _ _ h => (nomatch h)) fun h => (nomatch h)
  | issued hvalid hleases hmade => exact hinv.issue hvalid hleases hmade hnow hnext
  | kept hvalid hkept hissued hknown hrevoked hhalted =>
    exact hinv.kept hvalid hkept (hnow.trans hnext) hissued hknown hrevoked hhalted

theorem inv_of_run {calls : List Call} (h : Run (stepsOf step) (start now) calls m) : Inv m :=
  h.invariant (Inv.start now) fun hinv hstep => hinv.step hstep

end OperatorRuntime.Authority
