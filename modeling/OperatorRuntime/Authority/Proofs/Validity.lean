/-
States of the lease file that pass their own validation (`Valid`): the
state that was read passes it again, and so does one whose leases only
have other states and withdrawals (`Valid.withLeases`), since the checks
of a lease against its parent and of the chains read the rest alone.
-/
import OperatorRuntime.Authority.Leases
import OperatorRuntime.JsonText
import OperatorRuntime.Policy.Proofs.Delegation

namespace OperatorRuntime.Authority

open Lib
open Policy (union mem_union)
open Principals (AuthorityGrant IsoText validateAuthorityGrant)

-- ===== grants

theorem union_nodup (values : List String) : (union values).Nodup :=
  (List.perm_insertionSort _ _).nodup_iff.2 values.nodup_dedup

theorem union_union (values : List String) : union (union values) = union values := by
  rw [union, List.dedup_eq_self.2 (union_nodup values), union, Json.sortTexts_sortTexts]

theorem length_union_le (values : List String) : (union values).length ≤ values.length := by
  rw [union, Json.sortTexts, List.length_insertionSort]
  exact (List.dedup_sublist values).length_le

theorem mapM_union {ε : Type} {f : String → Except ε String} {values values' : List String}
    (hf : ∀ {a b}, f a = .ok b → b = a) (h : values.mapM f = .ok values') :
    (union values').mapM f = .ok (union values') := by
  obtain rfl := mapM_eq_input hf h
  refine mapM_eq_self ?_
  intro text ht
  obtain ⟨a, -, hok⟩ := exists_of_mapM_eq_ok h (mem_union.1 ht)
  obtain rfl := hf hok
  exact hok

theorem expiresAt_again {o o' : Option IsoText}
    (h : o.mapM (Principals.iso · "expiresAt") = .ok o') :
    o'.mapM (Principals.iso · "expiresAt") = .ok o' := by
  refine Normalizes.optionMapM ?_ h
  intro a b hab
  cases a with
  | none => cases hab
  | some at' =>
    cases hab
    rfl

theorem validateAuthorityGrant_again {g g' : AuthorityGrant}
    (h : validateAuthorityGrant g = .ok g') : validateAuthorityGrant g' = .ok g' := by
  rw [validateAuthorityGrant] at h
  simp only [bind_eq_ok, rejectIf_eq_ok, Except.ok.injEq] at h
  obtain ⟨_, hlengths, capabilities, hcap, resources, hres, expiresAt, hexp, rfl⟩ := h
  have hcaplen := length_union_le capabilities
  have hreslen := length_union_le resources
  rw [length_mapM hcap] at hcaplen
  rw [length_mapM hres] at hreslen
  rw [validateAuthorityGrant]
  simp only [bind_eq_ok, rejectIf_eq_ok, Except.ok.injEq]
  refine ⟨(), by omega, _, mapM_union Principals.pattern_eq hcap, _,
    mapM_union (fun h => (Principals.text_eq_ok.1 h).1) hres, _, expiresAt_again hexp, ?_⟩
  rw [union_union, union_union]

-- ===== leases

/-- What the loop of `validateState` asks of a lease, apart from the
others. -/
structure Sound (lease : EnterpriseAuthorityLease) : Prop where
  principalId : boundedId lease.principalId "principalId" = .ok lease.principalId
  purpose : boundedText lease.purpose 2048 "purpose" = .ok lease.purpose
  authorityRevision : boundedInteger (.int lease.authorityRevision) 1 maxSafeInteger
    "authorityRevision" = .ok lease.authorityRevision
  lifetime : lease.issuedAt.val < lease.expiresAt.val
  grant : validateAuthorityGrant lease.grant = .ok lease.grant
  expiresAt : lease.grant.expiresAt = some (some lease.expiresAt)
  reason : ∀ reason ∈ lease.revocationReason, ¬ unfit reason 2048
  revokedAt : ∀ at' ∈ lease.revokedAt, lease.issuedAt.val ≤ at'.val
  withdrawn : lease.state = .revoked ∨ lease.state = .halted →
    lease.revokedAt ≠ none ∧ lease.revocationReason ≠ none

variable {v s label : String} {max : Nat}

theorem boundedText_eq_ok : boundedText v max label = .ok s ↔ s = v ∧ ¬ unfit v max := by
  rw [boundedText]
  simp only [bind_eq_ok, rejectIf_eq_ok, Except.ok.injEq]
  exact ⟨fun ⟨_, h, hs⟩ => ⟨hs.symm, h⟩, fun ⟨hs, h⟩ => ⟨(), h, hs.symm⟩⟩

theorem stateText_eq_ok : stateText v max label = .ok s ↔ s = v ∧ ¬ unfit v max := by
  rw [stateText]
  simp only [bind_eq_ok, corruptIf, rejectIf_eq_ok, Except.ok.injEq]
  exact ⟨fun ⟨_, h, hs⟩ => ⟨hs.symm, h⟩, fun ⟨hs, h⟩ => ⟨(), h, hs.symm⟩⟩

theorem boundedId_eq (h : boundedId v label = .ok s) : s = v := by
  rw [boundedId] at h
  simp only [bind_eq_ok, Except.ok.injEq] at h
  obtain ⟨_, -, rfl⟩ := h
  rfl

theorem boundedInteger_eq {v : Number} {n min : Nat}
    (h : boundedInteger v min max label = .ok n) : v = .int n := by
  rw [boundedInteger] at h
  split at h
  · next n' hsafe =>
    simp only [bind_eq_ok, Except.ok.injEq] at h
    obtain ⟨_, -, rfl⟩ := h
    exact Number.safeFrom?_eq_some hsafe
  · cases h

theorem orCorrupt_eq_ok {α : Type} {attempt : Result α} {message : String} {a : α} :
    orCorrupt attempt message = .ok a ↔ attempt = .ok a := by
  cases attempt with
  | ok b => exact Iff.rfl
  | error e => exact ⟨fun h => (nomatch h), fun h => (nomatch h)⟩

theorem reason_mapM_eq_ok {o o' : Option String} :
    o.mapM (stateText · max label) = .ok o' ↔ o' = o ∧ ∀ reason ∈ o, ¬ unfit reason max := by
  constructor
  · intro h
    obtain rfl := optionMapM_eq_input (fun h => (stateText_eq_ok.1 h).1) h
    refine ⟨rfl, ?_⟩
    intro reason hr
    cases hr
    obtain ⟨_, hok, -⟩ := bind_eq_ok.1
      (show stateText reason max label >>= (fun b => .ok (some b)) = .ok (some reason) from h)
    exact (stateText_eq_ok.1 hok).2
  · rintro ⟨rfl, hfit⟩
    cases o' with
    | none => rfl
    | some reason =>
      show stateText reason max label >>= (fun b => .ok (some b)) = .ok (some reason)
      rw [stateText_eq_ok.2 ⟨rfl, hfit reason rfl⟩]
      rfl

theorem checkLease_eq_ok {ids : List Uuid} {raw lease : EnterpriseAuthorityLease}
    (h : checkLease ids raw = .ok lease) :
    raw.id ∉ ids ∧ Sound lease ∧ validateAuthorityGrant raw.grant = .ok lease.grant
    ∧ lease = { raw with grant := lease.grant } := by
  rw [checkLease] at h
  simp only [bind_eq_ok, corruptIf, rejectIf_eq_ok, orCorrupt_eq_ok, reason_mapM_eq_ok,
    Except.ok.injEq] at h
  obtain ⟨principalId, hprincipal, purpose, hpurpose, revision, hrevision, _, hid, _, hlife,
    grant, hgrant, _, hexpires, reason, ⟨rfl, hreason⟩, _, hafter, _, hwithdrawn, rfl⟩ := h
  obtain rfl := boundedId_eq hprincipal
  obtain ⟨rfl, -⟩ := boundedText_eq_ok.1 hpurpose
  have hint := boundedInteger_eq hrevision
  rw [Number.int.injEq, Int.natCast_inj] at hint
  subst hint
  refine ⟨hid, ⟨hprincipal, hpurpose, hrevision, not_le.1 hlife,
    validateAuthorityGrant_again hgrant, not_not.1 hexpires, hreason, ?_, ?_⟩, hgrant, rfl⟩
  · intro at' hat
    by_contra hlt
    exact hafter ⟨at', hat, not_le.1 hlt⟩
  · intro hstate
    by_contra hnone
    rw [not_and_or, not_not, not_not] at hnone
    exact hwithdrawn ⟨hstate, hnone⟩

theorem Sound.checkLease {lease : EnterpriseAuthorityLease} (h : Sound lease) {ids : List Uuid}
    (hid : lease.id ∉ ids) : checkLease ids lease = .ok lease := by
  rw [Authority.checkLease]
  simp only [bind_eq_ok, corruptIf, rejectIf_eq_ok, orCorrupt_eq_ok, reason_mapM_eq_ok,
    Except.ok.injEq]
  refine ⟨_, h.principalId, _, h.purpose, _, h.authorityRevision, (), hid, (),
    not_le.2 h.lifetime, _, h.grant, (), not_not.2 h.expiresAt, _, ⟨rfl, h.reason⟩, (), ?_, (),
    ?_, rfl⟩
  · intro ⟨at', hat, hlt⟩
    exact absurd (h.revokedAt at' hat) (not_le.2 hlt)
  · intro ⟨hstate, hnone⟩
    obtain ⟨hat, hreason⟩ := h.withdrawn hstate
    exact hnone.elim hat hreason

/-- What the check of the stored leases accepts. -/
theorem checkLeases_eq_ok {ids : List Uuid} {raws leases : List EnterpriseAuthorityLease}
    (h : checkLeases ids raws = .ok leases) :
    (∀ lease ∈ leases, Sound lease ∧ lease.id ∉ ids) ∧ (leases.map (·.id)).Nodup
    ∧ List.Forall₂ (fun raw lease => validateAuthorityGrant raw.grant = .ok lease.grant
        ∧ lease = { raw with grant := lease.grant }) raws leases := by
  induction raws generalizing ids leases with
  | nil =>
    rw [← Except.ok.inj h]
    exact ⟨fun _ h => (nomatch h), List.nodup_nil, List.Forall₂.nil⟩
  | cons raw rest ih =>
    rw [checkLeases] at h
    simp only [bind_eq_ok, Except.ok.injEq] at h
    obtain ⟨lease, hlease, leases, hleases, rfl⟩ := h
    obtain ⟨hid, hsound, hgrant, heq⟩ := checkLease_eq_ok hlease
    obtain ⟨hall, hnodup, hpair⟩ := ih hleases
    have hsame : lease.id = raw.id := by rw [heq]
    refine ⟨?_, ?_, List.Forall₂.cons ⟨hgrant, heq⟩ hpair⟩
    · intro x hx
      rcases List.mem_cons.1 hx with rfl | hx
      · exact ⟨hsound, hsame ▸ hid⟩
      · exact ⟨(hall x hx).1, fun hin => (hall x hx).2 (List.mem_cons_of_mem _ hin)⟩
    · rw [List.map_cons, List.nodup_cons]
      refine ⟨?_, hnodup⟩
      intro hin
      obtain ⟨x, hx, hxid⟩ := List.mem_map.1 hin
      exact (hall x hx).2 (by rw [hxid, hsame]; exact List.mem_cons_self ..)

theorem checkLeases_of_sound {ids : List Uuid} {leases : List EnterpriseAuthorityLease}
    (hsound : ∀ lease ∈ leases, Sound lease) (hids : ∀ lease ∈ leases, lease.id ∉ ids)
    (hnodup : (leases.map (·.id)).Nodup) : checkLeases ids leases = .ok leases := by
  induction leases generalizing ids with
  | nil => rfl
  | cons lease rest ih =>
    rw [List.map_cons, List.nodup_cons] at hnodup
    rw [checkLeases]
    simp only [bind_eq_ok, Except.ok.injEq]
    refine ⟨lease, (hsound lease (List.mem_cons_self ..)).checkLease
      (hids lease (List.mem_cons_self ..)), rest, ?_, rfl⟩
    refine ih (fun x hx => hsound x (List.mem_cons_of_mem _ hx)) ?_ hnodup.2
    intro x hx hin
    rcases List.mem_cons.1 hin with heq | hin
    · exact hnodup.1 (heq ▸ List.mem_map_of_mem hx)
    · exact hids x (List.mem_cons_of_mem _ hx) hin

-- ===== states

/-- What `validateState` asks of a state whose grants are validated. -/
structure Valid (state : AuthorityLeaseStateFile) : Prop where
  size : state.leases.length ≤ 100000
  emergencyReason : ∀ reason ∈ state.emergencyReason, ¬ unfit reason 2048
  leases : ∀ lease ∈ state.leases, Sound lease
  ids : (state.leases.map (·.id)).Nodup
  parents : ∀ lease ∈ state.leases, checkParent state.leases lease = .ok ()
  acyclic : assertParentAcyclic state.leases = .ok ()

theorem Valid.validateState {state : AuthorityLeaseStateFile} (h : Valid state) :
    validateState state = .ok state := by
  rw [Authority.validateState]
  simp only [bind_eq_ok, corruptIf, rejectIf_eq_ok, Except.ok.injEq]
  refine ⟨(), not_lt.2 h.size, (), ?_, _,
    checkLeases_of_sound h.leases (fun _ _ => List.not_mem_nil) h.ids, (), forM_eq_ok.2 h.parents,
    (), h.acyclic, rfl⟩
  intro ⟨reason, hreason, hunfit⟩
  exact h.emergencyReason reason hreason hunfit

variable {state' : AuthorityLeaseStateFile}

theorem valid_of_ok {state : AuthorityLeaseStateFile} (h : validateState state = .ok state') :
    Valid state' := by
  rw [Authority.validateState] at h
  simp only [bind_eq_ok, corruptIf, rejectIf_eq_ok, Except.ok.injEq] at h
  obtain ⟨_, hsize, _, hreason, leases, hleases, _, hparents, _, hacyclic, rfl⟩ := h
  obtain ⟨hall, hnodup, hpair⟩ := checkLeases_eq_ok hleases
  refine ⟨?_, ?_, fun lease hl => (hall lease hl).1, hnodup, forM_eq_ok.1 hparents, hacyclic⟩
  · rw [← hpair.length_eq]
    exact not_lt.1 hsize
  · intro reason hr hunfit
    exact hreason ⟨reason, hr, hunfit⟩

theorem validateState_eq {state : AuthorityLeaseStateFile} (h : validateState state = .ok state')
    (hgrants : ∀ lease ∈ state.leases, validateAuthorityGrant lease.grant = .ok lease.grant) :
    state' = state := by
  rw [Authority.validateState] at h
  simp only [bind_eq_ok, Except.ok.injEq] at h
  obtain ⟨_, -, _, -, leases, hleases, _, -, _, -, rfl⟩ := h
  obtain ⟨-, -, hpair⟩ := checkLeases_eq_ok hleases
  have hsame : ∀ {raws ls : List EnterpriseAuthorityLease},
      (∀ lease ∈ raws, validateAuthorityGrant lease.grant = .ok lease.grant) →
      List.Forall₂ (fun raw lease => validateAuthorityGrant raw.grant = .ok lease.grant
        ∧ lease = { raw with grant := lease.grant }) raws ls → ls = raws := by
    intro raws ls hall hp
    induction hp with
    | nil => rfl
    | @cons raw lease raws ls hhead _ ih =>
      have hg := hall raw (List.mem_cons_self ..)
      have heq : lease.grant = raw.grant := Except.ok.inj (hhead.1.symm.trans hg)
      rw [ih fun x hx => hall x (List.mem_cons_of_mem _ hx), hhead.2, heq]
  rw [hsame hgrants hpair]

theorem Valid.read {state : AuthorityLeaseStateFile} (h : Valid state)
    (hread : Authority.validateState state = .ok state') : state' = state :=
  Except.ok.inj (hread.symm.trans h.validateState)

-- ===== other states

/-- The one lease is the other but for its state and withdrawal. -/
structure SameLease (lease lease' : EnterpriseAuthorityLease) : Prop where
  id : lease'.id = lease.id
  principalId : lease'.principalId = lease.principalId
  purpose : lease'.purpose = lease.purpose
  grant : lease'.grant = lease.grant
  authorityRevision : lease'.authorityRevision = lease.authorityRevision
  parentLeaseId : lease'.parentLeaseId = lease.parentLeaseId
  issuedAt : lease'.issuedAt = lease.issuedAt
  expiresAt : lease'.expiresAt = lease.expiresAt

theorem SameLease.refl (lease : EnterpriseAuthorityLease) : SameLease lease lease :=
  ⟨rfl, rfl, rfl, rfl, rfl, rfl, rfl, rfl⟩

theorem SameLease.trans {a b c : EnterpriseAuthorityLease} (hab : SameLease a b)
    (hbc : SameLease b c) : SameLease a c :=
  ⟨hbc.id.trans hab.id, hbc.principalId.trans hab.principalId, hbc.purpose.trans hab.purpose,
    hbc.grant.trans hab.grant, hbc.authorityRevision.trans hab.authorityRevision,
    hbc.parentLeaseId.trans hab.parentLeaseId, hbc.issuedAt.trans hab.issuedAt,
    hbc.expiresAt.trans hab.expiresAt⟩

section
variable {leases : List EnterpriseAuthorityLease}
  {f : EnterpriseAuthorityLease → EnterpriseAuthorityLease} (hf : ∀ lease, SameLease lease (f lease))
include hf

theorem map_ids : (leases.map f).map (·.id) = leases.map (·.id) := by
  rw [List.map_map]
  exact List.map_congr_left fun lease _ => (hf lease).id

theorem byId_map (id : Uuid) : byId (leases.map f) id = (byId leases id).map f := by
  rw [byId, byId, List.find?_map]
  congr 2
  funext lease
  rw [Function.comp_apply, (hf lease).id]

theorem checkParent_map (lease : EnterpriseAuthorityLease) :
    checkParent (leases.map f) (f lease) = checkParent leases lease := by
  rw [checkParent, checkParent, (hf lease).parentLeaseId]
  cases lease.parentLeaseId with
  | none => rfl
  | some parentLeaseId =>
    dsimp only
    rw [byId_map hf]
    cases byId leases parentLeaseId with
    | none => rfl
    | some parent =>
      have hp := hf parent
      have hl := hf lease
      dsimp only [Option.map_some]
      rw [hp.id, hp.purpose, hp.authorityRevision, hp.issuedAt, hp.expiresAt, hp.grant, hl.id,
        hl.purpose, hl.authorityRevision, hl.issuedAt, hl.grant]

theorem climb_map {completed path : List Uuid} {budget : Nat} (lease : EnterpriseAuthorityLease) :
    climb (leases.map f) completed budget path (f lease)
    = climb leases completed budget path lease := by
  induction budget generalizing path lease with
  | zero => rfl
  | succ budget ih =>
    rw [climb, climb, (hf lease).id, (hf lease).parentLeaseId]
    cases lease.parentLeaseId with
    | none => rfl
    | some parentLeaseId =>
      dsimp only
      rw [byId_map hf]
      cases byId leases parentLeaseId with
      | none => rfl
      | some parent =>
        dsimp only [Option.map_some]
        rw [ih parent]

theorem assertParentAcyclic_map :
    assertParentAcyclic (leases.map f) = assertParentAcyclic leases := by
  rw [assertParentAcyclic, assertParentAcyclic, List.foldlM_map]
  congr 1
  refine foldlM_congr ?_ _
  intro completed lease _
  rw [complete, complete, climb_map hf, List.length_map]

end

theorem Valid.withLeases {state : AuthorityLeaseStateFile} (h : Valid state)
    {f : EnterpriseAuthorityLease → EnterpriseAuthorityLease}
    (hf : ∀ lease, SameLease lease (f lease)) {emergencyHalt : Bool}
    {emergencyReason : Option String} (hreason : ∀ r ∈ emergencyReason, ¬ unfit r 2048)
    (hsound : ∀ lease ∈ state.leases, Sound (f lease)) :
    Valid { emergencyHalt, emergencyReason, leases := state.leases.map f } where
  size := by
    rw [List.length_map]
    exact h.size
  emergencyReason := hreason
  leases := List.forall_mem_map.2 hsound
  ids := by
    rw [map_ids hf]
    exact h.ids
  parents := by
    intro lease' hl
    obtain ⟨lease, hlease, rfl⟩ := List.mem_map.1 hl
    rw [checkParent_map hf]
    exact h.parents lease hlease
  acyclic := (assertParentAcyclic_map hf).trans h.acyclic

end OperatorRuntime.Authority
