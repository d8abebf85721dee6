/-
What an active lease stands on: it and the leases above it have not
expired, none of them was revoked, and no halt returned since it was
issued. And what it carries: no more than the leases above it, but for
one kind of grant. A lease that lists no resource prefix is issued under
one that lists some, and an empty list stands for every resource
(`unlisted_lease_amplifies`).
-/
import OperatorRuntime.Authority.Proofs.LeaseSteps

namespace OperatorRuntime.Authority

open Lib
open Principals (Allows Attenuated attenuated_of_ok)

/-- The one lease is above the other. -/
def Above (leases : List EnterpriseAuthorityLease) (a lease : EnterpriseAuthorityLease) : Prop :=
  Below (·.id) (·.parentLeaseId) leases a.id lease.id

section
variable {leases : List EnterpriseAuthorityLease}

theorem above_cases (hnodup : (leases.map (·.id)).Nodup) {a lease : EnterpriseAuthorityLease}
    (hlease : lease ∈ leases) (h : Above leases a lease) : ∃ p, lease.parentLeaseId = some p
    ∧ (p = a.id ∨ Below (·.id) (·.parentLeaseId) leases a.id p) := by
  obtain ⟨p, hreach, child, hchild, hparent, hid⟩ := Relation.TransGen.tail'_iff.1 h
  rw [List.inj_on_of_nodup_map hnodup hchild hlease hid] at hparent
  refine ⟨p, hparent, ?_⟩
  rcases Relation.reflTransGen_iff_eq_or_transGen.1 hreach with heq | hbelow
  · exact .inl heq
  · exact .inr hbelow

theorem chainActive_above (hnodup : (leases.map (·.id)).Nodup) {budget : Nat} {seen : List Uuid}
    {lease : EnterpriseAuthorityLease} (hlease : lease ∈ leases)
    (h : chainActive leases budget seen lease = .ok ()) {a : EnterpriseAuthorityLease}
    (ha : a ∈ leases) (habove : Above leases a lease) : a.state = .active := by
  induction budget generalizing seen lease with
  | zero => cases h
  | succ budget ih =>
    obtain ⟨p, hparent, hcases⟩ := above_cases hnodup hlease habove
    rw [chainActive, hparent] at h
    dsimp only at h
    obtain ⟨_, -, h⟩ := bind_eq_ok.1 h
    split at h
    · cases h
    · next parent hfind =>
      obtain ⟨hbyId, hactive⟩ := Option.filter_eq_some_iff.1 hfind
      obtain ⟨hmem, rfl⟩ := mem_byId hbyId
      obtain ⟨_, -, h⟩ := bind_eq_ok.1 h
      obtain ⟨_, -, h⟩ := bind_eq_ok.1 h
      rcases hcases with heq | hbelow
      · rw [List.inj_on_of_nodup_map hnodup ha hmem heq.symm]
        exact of_decide_eq_true hactive
      · exact ih hmem h hbelow

end

section
variable {m : Machine} {env : Environment} {idInput : String} {expected : Expected}
  {lease : EnterpriseAuthorityLease}

theorem assertActive_eq_ok (hvalid : Valid m.stored)
    (h : assertActive env m.stored idInput expected = .ok lease) :
    uuid? idInput = some lease.id ∧ lease ∈ m.stored.leases
    ∧ ∀ a ∈ m.stored.leases, (a = lease ∨ Above m.stored.leases a lease) →
      a.state = .active ∧ env.now.val < a.expiresAt.val := by
  rw [assertActive] at h
  simp only [bind_eq_ok] at h
  obtain ⟨read, hread, _, -, id, hid, h⟩ := h
  obtain rfl := hvalid.read hread
  have huuid : uuid? idInput = some id := by
    rw [uuid] at hid
    split at hid
    · next id' hsome => rw [hsome, Except.ok.inj hid]
    · cases hid
  split at h
  · cases h
  · next lease' hfind =>
    obtain ⟨hbyId, hactive⟩ := Option.filter_eq_some_iff.1 hfind
    obtain ⟨hmem, rfl⟩ := mem_byId hbyId
    obtain ⟨stored, hstored, rfl⟩ := List.mem_map.1 hmem
    simp only [bind_eq_ok, Except.ok.injEq] at h
    obtain ⟨_, hchain, _, -, _, -, _, -, rfl⟩ := h
    obtain ⟨hstate, hlive, hsame⟩ := expireLease_active (of_decide_eq_true hactive)
    rw [hsame] at huuid hchain hmem ⊢
    refine ⟨huuid, hstored, ?_⟩
    intro a ha hor
    rcases hor with rfl | habove
    · exact ⟨hstate, hlive⟩
    · have hids : (m.stored.leases.map (expireLease env.now)).map (·.id) = m.stored.leases.map (·.id) :=
        map_ids (expireLease_same env.now)
      have habove' : Above (m.stored.leases.map (expireLease env.now)) (expireLease env.now a)
          stored := by
        rw [Above, Below, childOf_map (fun l => (expireLease_same env.now l).id)
          (fun l => (expireLease_same env.now l).parentLeaseId), (expireLease_same env.now a).id]
        exact habove
      have hup := chainActive_above (hids ▸ hvalid.ids) hmem hchain (List.mem_map_of_mem ha) habove'
      obtain ⟨hold, hlive', -⟩ := expireLease_active hup
      exact ⟨hold, hlive'⟩

end

-- ===== grants

/-- A lease lists resource prefixes where its parent does. -/
def Listed (leases : List EnterpriseAuthorityLease) : Prop :=
  ∀ lease ∈ leases, ∀ parent ∈ leases, lease.parentLeaseId = some parent.id →
    lease.grant.capabilities = [] ∨ lease.grant.resourcePrefixes ≠ []
      ∨ parent.grant.resourcePrefixes = []

/-- A lease is issued with resource prefixes where its parent lists some,
or without a capability. -/
def Narrowing (m : Machine) (call : Call) : Prop :=
  ∀ input, call.op = .issue input → ∀ parent ∈ m.stored.leases,
    input.parentLeaseId = some parent.id.val → input.grant.capabilities = []
      ∨ input.grant.resourcePrefixes ≠ [] ∨ parent.grant.resourcePrefixes = []

theorem exists_parent {stored : AuthorityLeaseStateFile} (hvalid : Valid stored)
    {lease : EnterpriseAuthorityLease} (hlease : lease ∈ stored.leases) {p : Uuid}
    (hid : lease.parentLeaseId = some p) :
    ∃ parent ∈ stored.leases, parent.id = p ∧ Attenuated parent.grant lease.grant := by
  have hcheck := hvalid.parents lease hlease
  rw [checkParent, hid] at hcheck
  dsimp only at hcheck
  split at hcheck
  · cases hcheck
  · next parent hfind =>
    obtain ⟨hmem, heq⟩ := mem_byId hfind
    simp only [bind_eq_ok, orCorrupt_eq_ok] at hcheck
    obtain ⟨_, -, _, -, _, -, _, -, hatt⟩ := hcheck
    exact ⟨parent, hmem, heq, (attenuated_of_ok hatt).1⟩

theorem Listed.allows {stored : AuthorityLeaseStateFile} (hlisted : Listed stored.leases)
    (hvalid : Valid stored) {a lease : EnterpriseAuthorityLease} (ha : a ∈ stored.leases)
    (hlease : lease ∈ stored.leases) (habove : Above stored.leases a lease)
    {capability resource : String} {risk : ActionRisk} {time : Int}
    (hallows : Allows lease.grant capability resource risk time) :
    Allows a.grant capability resource risk time := by
  have hchain : ∀ {p : Uuid}, Relation.ReflTransGen (ChildOf (·.id) (·.parentLeaseId)
      stored.leases) a.id p → ∀ c ∈ stored.leases, c.id = p →
      Allows c.grant capability resource risk time →
      Allows a.grant capability resource risk time := by
    intro p hreach
    induction hreach with
    | refl =>
      intro c hc hid hallow
      rw [← List.inj_on_of_nodup_map hvalid.ids hc ha hid]
      exact hallow
    | tail _ hchild ih =>
      intro c hc hid hallow
      obtain ⟨child, hmem, hparent, hcid⟩ := hchild
      obtain rfl := List.inj_on_of_nodup_map hvalid.ids hc hmem (hid.trans hcid.symm)
      obtain ⟨parent, hp, rfl, hatt⟩ := exists_parent hvalid hc hparent
      refine ih parent hp rfl ?_
      rcases hlisted c hc parent hp hparent with hcaps | hlist | hopen
      · obtain ⟨rule, hrule, -⟩ := hallow.capability
        rw [hcaps] at hrule
        cases hrule
      · exact hatt.allows (fun hnil => absurd hnil hlist) hallow
      · exact hatt.allows (fun _ => hopen) hallow
  exact hchain habove.to_reflTransGen lease hlease rfl hallows

/-- One narrowing call. -/
theorem Listed.step {m m' : Machine} {call : Call} (hlisted : Listed m.stored.leases)
    (hinv : Inv m) (h : step m call = some m') (hnarrow : Narrowing m call) :
    Listed m'.stored.leases := by
  obtain ⟨-, -, rfl⟩ := step_eq_some h
  have hchange := call.run_change hinv.valid (Prod.eta (call.run m.stored)).symm
  generalize call.run m.stored = after at hchange
  obtain ⟨state, events⟩ := after
  obtain ⟨env, op⟩ := call
  cases hchange with
  | stayed op => exact hlisted
  | @issued input _ created hvalid hleases hmade =>
    have hsame := expireLease_same env.now
    show Listed state.leases
    intro lease hl parent hp hid
    -- the parent is an old lease: the new one's own parent is another
    have hold : ∃ p ∈ m.stored.leases, lease.parentLeaseId = some p.id ∧ p.id = parent.id := by
      rw [hleases] at hl
      rcases List.mem_append.1 hl with hl | hl
      · obtain ⟨l, hlold, rfl⟩ := List.mem_map.1 hl
        rw [(hsame l).parentLeaseId] at hid ⊢
        obtain ⟨p, hpold, hpid, -⟩ := exists_parent hinv.valid hlold hid
        exact ⟨p, hpold, hpid.symm ▸ hid, hpid⟩
      · rw [List.mem_singleton.1 hl] at hid ⊢
        obtain ⟨p, hsource⟩ := hmade.source parent.id hid
        have hpid := hsource.parentLeaseId
        exact ⟨p, hsource.mem, hpid, (Option.some.inj (hpid.symm.trans hid))⟩
    obtain ⟨p, hpold, hpid, heq⟩ := hold
    have hpmem : expireLease env.now p ∈ state.leases := by
      rw [hleases]
      exact List.mem_append_left _ (List.mem_map_of_mem hpold)
    have hparent := List.inj_on_of_nodup_map hvalid.ids hpmem hp (((hsame p).id).trans heq)
    rw [← hparent, (hsame p).grant]
    rw [hleases] at hl
    rcases List.mem_append.1 hl with hl | hl
    · obtain ⟨l, hlold, rfl⟩ := List.mem_map.1 hl
      rw [(hsame l).parentLeaseId] at hpid
      rw [(hsame l).grant]
      exact hlisted l hlold p hpold hpid
    · rw [List.mem_singleton.1 hl] at hpid ⊢
      obtain ⟨q, hsource⟩ := hmade.source p.id hpid
      have hqp : q.id = p.id := Option.some.inj (hsource.parentLeaseId.symm.trans hpid)
      have hnamed := hsource.named
      rw [hqp] at hnamed
      have hcond := hnarrow input rfl p hpold hnamed
      refine hcond.imp hmade.capabilities.2 (Or.imp_left fun hne hnil => ?_)
      exact hne (hmade.resourcePrefixes.1 hnil)
  | @kept _ _ _ f hvalid hkept _ _ _ _ =>
    show Listed state.leases
    rw [hkept.eq]
    intro lease hl parent hp hid
    obtain ⟨l, hlold, rfl⟩ := List.mem_map.1 hl
    obtain ⟨p, hpold, rfl⟩ := List.mem_map.1 hp
    rw [(hkept.same l).parentLeaseId, (hkept.same p).id] at hid
    rw [(hkept.same l).grant, (hkept.same p).grant]
    exact hlisted l hlold p hpold hid

-- ===== runs

/-- In every state reached by calls that narrow, an active lease stands on
leases that are neither expired nor revoked, without a halt since it was
issued, and every lease allows no more than those above it. -/
theorem authority_narrows (now : Instant) (calls : List Call) (m : Machine)
    (hrun : Run (Where (stepsOf step) Narrowing) (start now) calls m) :
    (∀ env idInput expected lease, m.now.val ≤ env.now.val →
        assertActive env m.stored idInput expected = .ok lease →
      uuid? idInput = some lease.id ∧ lease ∈ m.stored.leases
        ∧ (∀ a ∈ m.stored.leases, (a = lease ∨ Above m.stored.leases a lease) →
            env.now.val < a.expiresAt.val ∧ .revoked a.id ∉ m.log)
        ∧ .issued lease.id ∈ m.log ∧ ¬ [.issued lease.id, .halted].Sublist m.log)
      ∧ ∀ lease ∈ m.stored.leases, ∀ a ∈ m.stored.leases, Above m.stored.leases a lease →
        ∀ capability resource risk time, Allows lease.grant capability resource risk time →
          Allows a.grant capability resource risk time := by
  have hboth : Inv m ∧ Listed m.stored.leases := by
    refine hrun.invariant (I := fun m => Inv m ∧ Listed m.stored.leases) ⟨Inv.start now, fun _ h => (nomatch h)⟩ ?_
    intro s t call h hstep
    exact ⟨h.1.step hstep.1, h.2.step h.1 hstep.1 hstep.2⟩
  obtain ⟨hinv, hlisted⟩ := hboth
  constructor
  · intro env idInput expected lease _ hactive
    obtain ⟨hid, hmem, hall⟩ := assertActive_eq_ok hinv.valid hactive
    refine ⟨hid, hmem, ?_, hinv.logged lease hmem, ?_⟩
    · intro a ha hor
      obtain ⟨hstate, hlive⟩ := hall a ha hor
      exact ⟨hlive, fun hin => hinv.revoked a ha hin hstate⟩
    · intro hin
      exact hinv.halted lease hmem hin (hall lease hmem (.inl rfl)).1
  · intro lease hl a ha habove capability resource risk time hallows
    exact hlisted.allows hinv.valid ha hl habove hallows

-- ===== samples

def aParent : Uuid := ⟨"00000000-0000-4000-8000-00000000000a", by decide⟩
def aChild : Uuid := ⟨"00000000-0000-4000-8000-00000000000b", by decide⟩
def sampleEnv : Environment where
  now := ⟨0, zero_instant⟩
  next := ⟨0, zero_instant⟩
  randomUUID := aParent
  disk := .durable

def sampleIssue (id : Uuid) (resourcePrefixes : List String) (parent : Option Uuid) : Call where
  env := { sampleEnv with randomUUID := id }
  op := .issue
    { principalId := "agent", purpose := "build", grant := Principals.sampleGrant resourcePrefixes
      authorityRevision := .int 1, ttlMs := .int 60000, parentLeaseId := parent.map (·.val) }

def sampleLease (id : Uuid) (resourcePrefixes : List String) (parent : Option Uuid) :
    EnterpriseAuthorityLease where
  id := id
  principalId := "agent"
  purpose := "build"
  grant := { Principals.sampleGrant resourcePrefixes with expiresAt := some (some ⟨60000, minute_instant⟩) }
  authorityRevision := 1
  parentLeaseId := parent
  issuedAt := sampleEnv.now
  expiresAt := ⟨60000, minute_instant⟩
  state := .active
  revokedAt := none
  revocationReason := none

/-- A lease on `/srv`, and one under it. -/
def sampleCalls (resourcePrefixes : List String) : List Call :=
  [sampleIssue aParent ["/srv"] none, sampleIssue aChild resourcePrefixes (some aParent)]

theorem above_sample {resourcePrefixes : List String} {leases : List EnterpriseAuthorityLease}
    (h : sampleLease aChild resourcePrefixes (some aParent) ∈ leases) :
    Above leases (sampleLease aParent ["/srv"] none)
      (sampleLease aChild resourcePrefixes (some aParent)) :=
  Relation.TransGen.single ⟨_, h, rfl, rfl⟩

/-- The lease on a part of `/srv` is active, and allows what the one above
it does. -/
theorem authority_narrows_sample : ∃ m lease a,
    Run (Where (stepsOf step) Narrowing) (start sampleEnv.now) (sampleCalls ["/srv/www"]) m
    ∧ assertActive sampleEnv m.stored aChild.val {} = .ok lease ∧ a ∈ m.stored.leases
    ∧ Above m.stored.leases a lease ∧ .revoked a.id ∉ m.log
    ∧ Allows a.grant "file.read" "/srv/www/index" .read 0 := by
  have hend : (exec step (start sampleEnv.now) (sampleCalls ["/srv/www"])).any
      (fun m => decide (m.stored.leases = [sampleLease aParent ["/srv"] none,
          sampleLease aChild ["/srv/www"] (some aParent)])
        && decide ((assertActive sampleEnv m.stored aChild.val {}).toOption
          = some (sampleLease aChild ["/srv/www"] (some aParent)))) := by
    decide +kernel
  obtain ⟨m, hm, hboth⟩ := Option.any_eq_true _ _ |>.1 hend
  obtain ⟨hleases, hactive⟩ := Bool.and_eq_true_iff.1 hboth
  replace hleases := of_decide_eq_true hleases
  replace hactive := toOption_eq_some.1 (of_decide_eq_true hactive)
  have hrun : Run (Where (stepsOf step) Narrowing) (start sampleEnv.now) (sampleCalls ["/srv/www"])
      m := by
    refine run_where_of_exec hm ?_
    intro _ call hcall input hop parent _ hnamed
    rcases List.mem_cons.1 hcall with rfl | hcall
    · cases hop
      cases hnamed
    · rw [List.mem_singleton.1 hcall] at hop
      cases hop
      exact .inr (.inl (List.cons_ne_nil _ _))
  have hchild : sampleLease aChild ["/srv/www"] (some aParent) ∈ m.stored.leases := by
    rw [hleases]
    exact List.mem_cons_of_mem _ (List.mem_singleton_self _)
  have hparent : sampleLease aParent ["/srv"] none ∈ m.stored.leases := by
    rw [hleases]
    exact List.mem_cons_self ..
  have hnow : m.now.val ≤ sampleEnv.now.val := by
    have hlast : (exec step (start sampleEnv.now) (sampleCalls ["/srv/www"])).all
        (fun m => decide (m.now.val ≤ sampleEnv.now.val)) := by
      decide +kernel
    rw [hm] at hlast
    exact of_decide_eq_true hlast
  have hallows : Allows (sampleLease aChild ["/srv/www"] (some aParent)).grant "file.read"
      "/srv/www/index" .read 0 :=
    ⟨⟨"file.read", List.mem_singleton_self _, by decide⟩,
      .inr ⟨"/srv/www", List.mem_singleton_self _, by decide⟩, le_refl _, by
        intro limit hlimit
        cases hlimit
        decide⟩
  obtain ⟨hactives, hgrants⟩ := authority_narrows _ _ m hrun
  obtain ⟨-, -, habove, -⟩ := hactives sampleEnv aChild.val {} _ hnow hactive
  exact ⟨m, _, _, hrun, hactive, hparent, above_sample hchild,
    (habove _ hparent (.inr (above_sample hchild))).2,
    hgrants _ hchild _ hparent (above_sample hchild) _ _ _ _ hallows⟩

/-- Under a lease on `/srv` one without resource prefixes is issued; it
reaches `/etc/passwd`. -/
theorem unlisted_lease_amplifies : ¬ ∀ now calls m, Run (stepsOf step) (start now) calls m →
    ∀ lease ∈ m.stored.leases, ∀ a ∈ m.stored.leases, Above m.stored.leases a lease →
      ∀ capability resource risk time, Allows lease.grant capability resource risk time →
        Allows a.grant capability resource risk time := by
  intro h
  have hend : (exec step (start sampleEnv.now) (sampleCalls [])).any
      (fun m => decide (m.stored.leases = [sampleLease aParent ["/srv"] none,
        sampleLease aChild [] (some aParent)])) := by
    decide +kernel
  obtain ⟨m, hm, hleases⟩ := Option.any_eq_true _ _ |>.1 hend
  replace hleases := of_decide_eq_true hleases
  have hchild : sampleLease aChild [] (some aParent) ∈ m.stored.leases := by
    rw [hleases]
    exact List.mem_cons_of_mem _ (List.mem_singleton_self _)
  have hparent : sampleLease aParent ["/srv"] none ∈ m.stored.leases := by
    rw [hleases]
    exact List.mem_cons_self ..
  have hallows : Allows (sampleLease aChild [] (some aParent)).grant "file.read" "/etc/passwd"
      .read 0 :=
    ⟨⟨"file.read", List.mem_singleton_self _, by decide⟩, .inl rfl, le_refl _, by
      intro limit hlimit
      cases hlimit
      decide⟩
  have hup := h _ _ m (run_of_exec hm) _ hchild _ hparent (above_sample hchild) _ _ _ _ hallows
  have hout : ¬ ∃ outer ∈ ["/srv"], Principals.withinPrefix "/etc/passwd" outer = true := by decide
  rcases hup.resource with hnil | hwithin
  · cases hnil
  · exact hout hwithin

end OperatorRuntime.Authority
