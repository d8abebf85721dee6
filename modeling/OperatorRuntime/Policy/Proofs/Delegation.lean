/-
Delegation hands on no more than the roots hold, but for one kind of
grant: a delegation that lists no resource prefix is let through under a
parent that lists some, and an empty list stands for every resource.
`delegation_attenuates` says when an accepted graph is free of it.

Along a chain every other field narrows (`Attenuated.allows`). The other
direction needs that the sources of every principal of an accepted graph
are computed at all (`exists_sources`): a principal that leads back to one
of its parents would have stopped the check of that parent.
-/
import Mathlib.Logic.Relation
import OperatorRuntime.Lib.Passes
import OperatorRuntime.Policy.Delegation
import OperatorRuntime.Policy.Proofs.Narrow

namespace OperatorRuntime.Principals

open Lib
open Policy (riskOrder ruleCovers_trans mem_union union_eq_nil)

-- ===== allowing

def AuthorityGrant.expiry (g : AuthorityGrant) : Option Instant :=
  g.expiresAt.join

/-- The grant allows a capability on a resource at a risk and a time. -/
structure Allows (g : AuthorityGrant) (capability resource : String) (risk : ActionRisk)
    (time : Int) : Prop where
  capability : ∃ rule ∈ g.capabilities, matchesCapability capability rule = true
  resource : g.resourcePrefixes = []
    ∨ ∃ outer ∈ g.resourcePrefixes, withinPrefix resource outer = true
  risk : riskOrder risk ≤ riskOrder g.maxRisk
  time : ∀ limit ∈ g.expiry, time < limit.val

/-- A delegation from the one to the other. -/
def Delegates (delegations : List Delegation) (parent child : String) : Prop :=
  ∃ d ∈ delegations, d.parentPrincipalId = parent ∧ d.childPrincipalId = child

/-- A chain of delegations from the one to the other. -/
def Leads (delegations : List Delegation) : String → String → Prop :=
  Relation.ReflTransGen (Delegates delegations)

-- ===== patterns

theorem matchesCapability_trans {a b c : String} (hab : matchesCapability a b = true)
    (hbc : matchesCapability b c = true) : matchesCapability a c = true :=
  ruleCovers_trans hbc hab

theorem prefix_markedStem (mark : Char) (parent : String) :
    parent.toList <+: markedStem mark parent := by
  rw [markedStem]
  split
  · exact List.prefix_refl _
  · exact List.prefix_append _ _

theorem withinPrefix_iff {child parent : String} : withinPrefix child parent = true
    ↔ child = parent ∨ ∃ mark ∈ ['/', ':'], markedStem mark parent <+: child.toList := by
  simp [withinPrefix, List.isPrefixOf_iff_prefix, or_assoc]

theorem withinPrefix_trans {a b c : String} (hab : withinPrefix a b = true)
    (hbc : withinPrefix b c = true) : withinPrefix a c = true := by
  rw [withinPrefix_iff] at hab
  rcases hab with rfl | ⟨mark, hmark, hab⟩
  · exact hbc
  rw [withinPrefix_iff] at hbc ⊢
  rcases hbc with rfl | ⟨mark', hmark', hbc⟩
  · exact .inr ⟨mark, hmark, hab⟩
  · exact .inr ⟨mark', hmark', hbc.trans ((prefix_markedStem mark b).trans hab)⟩

theorem mark_mem_markedStem (mark : Char) (parent : String) : mark ∈ markedStem mark parent := by
  rw [markedStem]
  split
  · next h =>
    obtain ⟨front, hfront⟩ := List.isSuffixOf_iff_suffix.1 h
    rw [← hfront]
    exact List.mem_append_right _ (List.mem_singleton_self _)
  · exact List.mem_append_right _ (List.mem_singleton_self _)

theorem exists_resource_outside (outers : List String) :
    ∃ resource, ∀ outer ∈ outers, withinPrefix resource outer = false := by
  obtain ⟨n, hn⟩ : ∃ n, ∀ outer ∈ outers, outer.toList.length < n := by
    induction outers with
    | nil => exact ⟨0, fun _ h => (nomatch h)⟩
    | cons outer outers ih =>
      obtain ⟨n, hn⟩ := ih
      refine ⟨n + outer.toList.length + 1, ?_⟩
      intro o ho
      rcases List.mem_cons.1 ho with rfl | ho
      · omega
      · have hlt := hn o ho
        omega
  refine ⟨String.ofList (List.replicate n 'x'), ?_⟩
  intro outer houter
  rw [Bool.eq_false_iff]
  intro hwithin
  rw [withinPrefix_iff, String.toList_ofList] at hwithin
  rcases hwithin with heq | ⟨mark, hmark, hstem⟩
  · have hlt := hn outer houter
    rw [← heq, String.toList_ofList, List.length_replicate] at hlt
    exact lt_irrefl _ hlt
  · have hx := List.eq_of_mem_replicate (hstem.subset (mark_mem_markedStem mark outer))
    rw [hx] at hmark
    revert hmark
    decide

-- ===== attenuation

theorem text_eq_ok {v s l : String} {max : Nat} :
    text v max l = .ok s ↔ s = v ∧ ¬ (v.toList.all isBlank = true ∨ max < v.utf8ByteSize
      ∨ includesChar v '\x00' = true) := by
  rw [text]
  simp only [bind_eq_ok, rejectIf_eq_ok, Except.ok.injEq]
  constructor
  · rintro ⟨-, h, rfl⟩
    exact ⟨rfl, h⟩
  · rintro ⟨rfl, h⟩
    exact ⟨(), h, rfl⟩

theorem pattern_eq {v s : String} (h : pattern v = .ok s) : s = v := by
  rw [pattern] at h
  simp only [bind_eq_ok, text_eq_ok, Except.ok.injEq] at h
  obtain ⟨s', ⟨rfl, -⟩, -, -, rfl⟩ := h
  rfl

/-- What validation keeps of a grant. -/
structure Same (g g' : AuthorityGrant) : Prop where
  capabilities : ∀ rule, rule ∈ g'.capabilities ↔ rule ∈ g.capabilities
  resources : ∀ outer, outer ∈ g'.resourcePrefixes ↔ outer ∈ g.resourcePrefixes
  maxRisk : g'.maxRisk = g.maxRisk
  expiry : g'.expiry = g.expiry

theorem validateAuthorityGrant_same {g g' : AuthorityGrant}
    (h : validateAuthorityGrant g = .ok g') : Same g g' := by
  rw [validateAuthorityGrant] at h
  simp only [bind_eq_ok, Except.ok.injEq] at h
  obtain ⟨-, -, capabilities, hcap, resources, hres, expiresAt, hexp, rfl⟩ := h
  obtain rfl := mapM_eq_input pattern_eq hcap
  obtain rfl := mapM_eq_input (fun h => (text_eq_ok.1 h).1) hres
  refine ⟨fun _ => mem_union, fun _ => mem_union, rfl, ?_⟩
  cases he : g.expiresAt with
  | none =>
    rw [he] at hexp
    rw [AuthorityGrant.expiry, AuthorityGrant.expiry, he, ← Except.ok.inj hexp]
  | some text =>
    rw [he] at hexp
    cases text with
    | none => cases hexp
    | some at' =>
      rw [AuthorityGrant.expiry, AuthorityGrant.expiry, he, ← Except.ok.inj hexp]

namespace Same

variable {g g' : AuthorityGrant} {capability resource : String} {risk : ActionRisk} {time : Int}

theorem allows (h : Same g g') :
    Allows g' capability resource risk time ↔ Allows g capability resource risk time := by
  have hnil : g'.resourcePrefixes = [] ↔ g.resourcePrefixes = [] := by
    simp only [List.eq_nil_iff_forall_not_mem, h.resources]
  constructor
  · intro ha
    refine ⟨?_, ?_, h.maxRisk ▸ ha.risk, h.expiry ▸ ha.time⟩
    · simpa only [h.capabilities] using ha.capability
    · simpa only [h.resources, hnil] using ha.resource
  · intro ha
    refine ⟨?_, ?_, h.maxRisk.symm ▸ ha.risk, h.expiry.symm ▸ ha.time⟩
    · simpa only [h.capabilities] using ha.capability
    · simpa only [h.resources, hnil] using ha.resource

end Same

/-- What `assertAttenuates` asks, of the grants as they are passed. -/
structure Attenuated (parent child : AuthorityGrant) : Prop where
  maxRisk : riskOrder child.maxRisk ≤ riskOrder parent.maxRisk
  capabilities : ∀ cap ∈ child.capabilities, ∃ rule ∈ parent.capabilities,
    matchesCapability cap rule = true
  resources : ∀ resource ∈ child.resourcePrefixes, parent.resourcePrefixes = []
    ∨ ∃ outer ∈ parent.resourcePrefixes, withinPrefix resource outer = true
  lifetime : ∀ limit ∈ parent.expiry, ∃ e ∈ child.expiry, e.val ≤ limit.val

theorem attenuated_of_ok {parent child : AuthorityGrant} {label : String}
    (h : assertAttenuates parent child label = .ok ()) :
    Attenuated parent child ∧ ∃ g, validateAuthorityGrant child = .ok g := by
  rw [assertAttenuates] at h
  simp only [bind_eq_ok, rejectIf_eq_ok] at h
  obtain ⟨parent', hparent, child', hchild, -, hrisk, -, hcap, -, hres, hlife⟩ := h
  have hp := validateAuthorityGrant_same hparent
  have hc := validateAuthorityGrant_same hchild
  refine ⟨⟨?_, ?_, ?_, ?_⟩, child', hchild⟩
  · rw [← hc.maxRisk, ← hp.maxRisk]
    omega
  · intro cap hin
    by_contra hnone
    refine hcap ⟨cap, (hc.capabilities cap).2 hin, ?_⟩
    simpa only [hp.capabilities] using hnone
  · intro resource hin
    by_contra hnone
    rw [not_or] at hnone
    refine hres ⟨resource, (hc.resources resource).2 hin, ?_, ?_⟩
    · rw [List.length_pos_iff_exists_mem]
      obtain ⟨outer, houter⟩ := List.exists_mem_of_ne_nil _ hnone.1
      exact ⟨outer, (hp.resources outer).2 houter⟩
    · simpa only [hp.resources] using hnone.2
  · intro limit hlimit
    by_contra hnone
    refine hlife ⟨limit, ?_, ?_⟩
    · rw [← hp.expiry] at hlimit
      exact hlimit
    · have hjoin : child'.expiresAt.join = child.expiry := hc.expiry
      rw [outlasts, hjoin, Option.all_eq_true]
      intro e he
      rw [decide_eq_true_eq]
      by_contra hle
      exact hnone ⟨e, he, by omega⟩

theorem Attenuated.allows {parent child : AuthorityGrant} (h : Attenuated parent child)
    (hlisted : child.resourcePrefixes = [] → parent.resourcePrefixes = [])
    {capability resource : String} {risk : ActionRisk} {time : Int}
    (ha : Allows child capability resource risk time) :
    Allows parent capability resource risk time where
  capability := by
    obtain ⟨rule, hrule, hmatch⟩ := ha.capability
    obtain ⟨rule', hrule', hmatch'⟩ := h.capabilities rule hrule
    exact ⟨rule', hrule', matchesCapability_trans hmatch hmatch'⟩
  resource := by
    rcases ha.resource with hnil | ⟨outer, houter, hwithin⟩
    · exact .inl (hlisted hnil)
    · rcases h.resources outer houter with hnil | ⟨outer', houter', hwithin'⟩
      · exact .inl hnil
      · exact .inr ⟨outer', houter', withinPrefix_trans hwithin hwithin'⟩
  risk := ha.risk.trans h.maxRisk
  time := by
    intro limit hlimit
    obtain ⟨e, he, hle⟩ := h.lifetime limit hlimit
    exact (ha.time e he).trans_le hle

theorem exists_attenuated {parents : List AuthorityGrant} {child : AuthorityGrant}
    {label : String} (h : assertAttenuatesAny parents child label = .ok ()) :
    ∃ parent ∈ parents, assertAttenuates parent child label = .ok () := by
  induction parents with
  | nil => cases h
  | cons parent rest ih =>
    rw [assertAttenuatesAny] at h
    split at h
    · next hok => exact ⟨parent, List.mem_cons_self .., hok⟩
    · obtain ⟨p, hp, hok⟩ := ih h
      exact ⟨p, List.mem_cons_of_mem _ hp, hok⟩

-- ===== sources

section
variable {ds : List Delegation} {root : RootAuthority} {budget : Nat}
  {visiting visiting' : List String} {principalId : String} {sources : List AuthorityGrant}

theorem grantSources_ok (h : grantSources ds root (budget + 1) visiting principalId = .ok sources) :
    principalId ∉ visiting ∧ ∃ own granted,
      (root principalId).toList.mapM validateAuthorityGrant = .ok own
        ∧ (ds.filter (·.childPrincipalId = principalId)).mapM (fun d => do
            let parentSources ← grantSources ds root budget (principalId :: visiting)
              d.parentPrincipalId
            delegatedGrant parentSources d) = .ok granted
        ∧ sources = own ++ granted := by
  rw [grantSources] at h
  simp only [bind_eq_ok, rejectIf_eq_ok, Except.ok.injEq] at h
  obtain ⟨-, hnot, own, hown, granted, hgranted, -, -, rfl⟩ := h
  exact ⟨hnot, own, granted, hown, hgranted, rfl⟩

theorem parentSources_of_ok
    (h : grantSources ds root (budget + 1) visiting principalId = .ok sources)
    {d : Delegation} (hd : d ∈ ds) (hchild : d.childPrincipalId = principalId) :
    ∃ parentSources g, grantSources ds root budget (principalId :: visiting)
        d.parentPrincipalId = .ok parentSources
      ∧ delegatedGrant parentSources d = .ok g ∧ g ∈ sources := by
  obtain ⟨-, own, granted, -, hgranted, rfl⟩ := grantSources_ok h
  obtain ⟨g, hg, hround⟩ := exists_answer_of_mapM hgranted
    (List.mem_filter.2 ⟨hd, by simpa using hchild⟩)
  obtain ⟨parentSources, hparent, hdelegated⟩ := bind_eq_ok.1 hround
  exact ⟨parentSources, g, hparent, hdelegated, List.mem_append_right _ hg⟩

theorem source_cases (h : grantSources ds root (budget + 1) visiting principalId = .ok sources)
    {s : AuthorityGrant} (hs : s ∈ sources) : (∃ g, root principalId = some g ∧ Same g s)
    ∨ ∃ d ∈ ds, d.childPrincipalId = principalId ∧ Same d.grant s
      ∧ ∃ parentSources, grantSources ds root budget (principalId :: visiting)
          d.parentPrincipalId = .ok parentSources
        ∧ ∃ parent ∈ parentSources, Attenuated parent d.grant := by
  obtain ⟨-, own, granted, hown, hgranted, rfl⟩ := grantSources_ok h
  rcases List.mem_append.1 hs with hs | hs
  · obtain ⟨g, hg, hvalid⟩ := exists_of_mapM_eq_ok hown hs
    exact .inl ⟨g, by simpa using hg, validateAuthorityGrant_same hvalid⟩
  · obtain ⟨d, hd, hround⟩ := exists_of_mapM_eq_ok hgranted hs
    obtain ⟨hin, hchild⟩ := List.mem_filter.1 hd
    obtain ⟨parentSources, hparent, hdelegated⟩ := bind_eq_ok.1 hround
    obtain ⟨_, hany, hvalid⟩ := bind_eq_ok.1 hdelegated
    obtain ⟨parent, hp, hatt⟩ := exists_attenuated hany
    exact .inr ⟨d, hin, by simpa using hchild, validateAuthorityGrant_same hvalid,
      parentSources, hparent, parent, hp, (attenuated_of_ok hatt).1⟩

/-- The delegations whose child is not on the path. -/
def remaining (ds : List Delegation) (visiting : List String) : Nat :=
  (ds.filter fun d => d.childPrincipalId ∉ visiting).length

variable (visiting) in
theorem remaining_cons_lt {d : Delegation} (hd : d ∈ ds) (hnot : d.childPrincipalId ∉ visiting) :
    remaining ds (d.childPrincipalId :: visiting) < remaining ds visiting := by
  have hsub : (ds.filter fun x => x.childPrincipalId ∉ d.childPrincipalId :: visiting).Sublist
      (ds.filter fun x => x.childPrincipalId ∉ visiting) := by
    refine List.monotone_filter_right _ ?_
    intro x hx
    simp only [List.mem_cons, not_or, decide_eq_true_eq] at hx ⊢
    exact hx.2
  refine Nat.lt_of_le_of_ne hsub.length_le ?_
  intro heq
  have hin : d ∈ ds.filter fun x => x.childPrincipalId ∉ d.childPrincipalId :: visiting := by
    rw [hsub.eq_of_length heq]
    exact List.mem_filter.2 ⟨hd, by simpa using hnot⟩
  simpa using (List.mem_filter.1 hin).2

theorem grantSources_budget (h : remaining ds visiting < budget) :
    grantSources ds root budget visiting principalId
    = grantSources ds root (budget + 1) visiting principalId := by
  induction budget generalizing visiting principalId with
  | zero => omega
  | succ budget ih =>
    rw [grantSources, grantSources]
    by_cases hin : principalId ∈ visiting
    · rw [rejectIf, if_pos hin]
      rfl
    have hrounds : (ds.filter (·.childPrincipalId = principalId)).mapM (fun d => do
          let parentSources ← grantSources ds root budget (principalId :: visiting)
            d.parentPrincipalId
          delegatedGrant parentSources d)
        = (ds.filter (·.childPrincipalId = principalId)).mapM (fun d => do
          let parentSources ← grantSources ds root (budget + 1) (principalId :: visiting)
            d.parentPrincipalId
          delegatedGrant parentSources d) := by
      refine mapM_congr ?_
      intro d hd
      obtain ⟨hmem, hchild⟩ := List.mem_filter.1 hd
      have hchild : d.childPrincipalId = principalId := by simpa using hchild
      have hlt := remaining_cons_lt _ hmem (hchild ▸ hin)
      rw [hchild] at hlt
      rw [ih (by omega)]
    rw [hrounds]

theorem grantSources_visiting (h : ∀ r, Leads ds r principalId → (r ∈ visiting ↔ r ∈ visiting')) :
    grantSources ds root budget visiting principalId
    = grantSources ds root budget visiting' principalId := by
  induction budget generalizing visiting visiting' principalId with
  | zero => rfl
  | succ budget ih =>
    have hself := h principalId Relation.ReflTransGen.refl
    have hrounds : (ds.filter (·.childPrincipalId = principalId)).mapM (fun d => do
          let parentSources ← grantSources ds root budget (principalId :: visiting)
            d.parentPrincipalId
          delegatedGrant parentSources d)
        = (ds.filter (·.childPrincipalId = principalId)).mapM (fun d => do
          let parentSources ← grantSources ds root budget (principalId :: visiting')
            d.parentPrincipalId
          delegatedGrant parentSources d) := by
      refine mapM_congr ?_
      intro d hd
      obtain ⟨hmem, hchild⟩ := List.mem_filter.1 hd
      have hchild : d.childPrincipalId = principalId := by simpa using hchild
      rw [ih]
      intro r hr
      rw [List.mem_cons, List.mem_cons, h r (hr.tail ⟨d, hmem, rfl, hchild⟩)]
    rw [grantSources, grantSources, hrounds]
    simp only [rejectIf, hself]

theorem not_leads_of_ok (h : grantSources ds root budget visiting principalId = .ok sources)
    {d : Delegation} (hd : d ∈ ds) (hparent : d.parentPrincipalId = principalId) :
    ¬ Leads ds d.childPrincipalId principalId := by
  intro hleads
  -- every principal on the way up was computed with this one on its path
  have hup : ∀ r, Leads ds r principalId → ∃ m V s,
      grantSources ds root m V r = .ok s ∧ (r = principalId ∨ principalId ∈ V) := by
    intro r hr
    induction hr using Relation.ReflTransGen.head_induction_on with
    | refl => exact ⟨budget, visiting, sources, h, .inl rfl⟩
    | head hac _ ih =>
      obtain ⟨e, he, rfl, rfl⟩ := hac
      obtain ⟨m, V, s, hok, hon⟩ := ih
      cases m with
      | zero => cases hok
      | succ m =>
        obtain ⟨s', -, hok', -, -⟩ := parentSources_of_ok hok he rfl
        refine ⟨m, _, s', hok', .inr ?_⟩
        rcases hon with heq | hin
        · rw [heq]
          exact List.mem_cons_self ..
        · exact List.mem_cons_of_mem _ hin
  obtain ⟨m, V, s, hok, hon⟩ := hup _ hleads
  cases m with
  | zero => cases hok
  | succ m =>
    obtain ⟨s', -, hok', -, -⟩ := parentSources_of_ok hok hd rfl
    cases m with
    | zero => cases hok'
    | succ m =>
      refine (grantSources_ok hok').1 ?_
      rw [hparent]
      rcases hon with heq | hin
      · rw [heq]
        exact List.mem_cons_self ..
      · exact List.mem_cons_of_mem _ hin

end

-- ===== graphs

section
variable {input graph : PrincipalDelegationGraph} {root : RootAuthority}

/-- What the checks of an accepted graph leave. -/
structure Accepted (graph : PrincipalDelegationGraph) (root : RootAuthority) : Prop where
  children : ∀ d ∈ graph.delegations, ∃ p ∈ graph.principals, p.id = d.childPrincipalId
  checked : ∀ p ∈ graph.principals, checkPrincipal graph.delegations root p = .ok ()

theorem accepted_of_ok (h : validatePrincipalDelegationGraph input root = .ok graph) :
    Accepted graph root := by
  rw [validatePrincipalDelegationGraph] at h
  simp only [bind_eq_ok, rejectIf_eq_ok, Except.ok.injEq] at h
  obtain ⟨-, -, principals, -, -, -, delegations, -, -, -, _, hlinks, -, -, _, hprincipals,
    rfl⟩ := h
  refine ⟨?_, forM_eq_ok.1 hprincipals⟩
  intro d hd
  have hlink := forM_eq_ok.1 hlinks d hd
  simp only [bind_eq_ok, rejectIf_eq_ok, not_or, not_not] at hlink
  obtain ⟨-, ⟨-, hchild⟩, -⟩ := hlink
  exact List.mem_map.1 hchild

theorem Accepted.exists_sources (h : Accepted graph root) {p : Principal}
    (hp : p ∈ graph.principals) :
    ∃ sources, effectiveGrantSources p.id graph.delegations root = .ok sources := by
  have hcheck := h.checked p hp
  rw [checkPrincipal] at hcheck
  simp only [bind_eq_ok, rejectIf_eq_ok] at hcheck
  obtain ⟨own, hown, -, hsome, hparents⟩ := hcheck
  have hround : ∀ d ∈ graph.delegations.filter (·.childPrincipalId = p.id), ∃ g, (do
        let parentSources ← grantSources graph.delegations root graph.delegations.length
          (p.id :: []) d.parentPrincipalId
        delegatedGrant parentSources d) = .ok g := by
    intro d hd
    obtain ⟨hmem, hchild⟩ := List.mem_filter.1 hd
    have hchild : d.childPrincipalId = p.id := by simpa using hchild
    have hparent := forM_eq_ok.1 hparents d hd
    simp only [bind_eq_ok] at hparent
    obtain ⟨parentSources, hsources, hany⟩ := hparent
    have hnot := not_leads_of_ok hsources hmem rfl
    have hpath : grantSources graph.delegations root graph.delegations.length (p.id :: [])
        d.parentPrincipalId = .ok parentSources := by
      rw [grantSources_budget, ← hsources, effectiveGrantSources]
      · refine grantSources_visiting ?_
        intro r hr
        rw [List.mem_singleton]
        constructor
        · rintro rfl
          exact absurd hr (hchild ▸ hnot)
        · intro hin
          cases hin
      · have hlt := remaining_cons_lt [] hmem List.not_mem_nil
        rw [hchild] at hlt
        exact hlt.trans_le (List.length_filter_le ..)
    obtain ⟨parent, -, hatt⟩ := exists_attenuated hany
    obtain ⟨g, hg⟩ := (attenuated_of_ok hatt).2
    refine ⟨g, bind_eq_ok.2 ⟨parentSources, hpath, ?_⟩⟩
    exact bind_eq_ok.2 ⟨(), hany, hg⟩
  obtain ⟨granted, hgranted⟩ := exists_mapM_eq_ok hround
  refine ⟨own ++ granted, ?_⟩
  rw [effectiveGrantSources, grantSources]
  simp only [bind_eq_ok, rejectIf_eq_ok, Except.ok.injEq]
  refine ⟨(), List.not_mem_nil, own, hown, granted, hgranted, (), ?_, rfl⟩
  rw [List.length_append, length_mapM hown, length_mapM hgranted]
  intro hzero
  refine hsome ⟨?_, by omega⟩
  cases hroot : root p.id with
  | none => rfl
  | some g =>
    rw [hroot] at hzero
    simp at hzero

-- ===== amplification

/-- Everything a source of the principal allows, the root grant of some
principal that leads to it allows. -/
def Rooted (graph : PrincipalDelegationGraph) (root : RootAuthority) (principalId : String) :
    Prop :=
  ∀ sources, effectiveGrantSources principalId graph.delegations root = .ok sources →
    ∀ s ∈ sources, ∀ capability resource risk time, Allows s capability resource risk time →
        ∃ q g, Leads graph.delegations q principalId ∧ root q = some g
          ∧ Allows g capability resource risk time

/-- A root grant that lists no resource prefix either, and is no narrower
in its other fields. -/
structure Unrestricted (g child : AuthorityGrant) (capability : String) : Prop where
  resources : g.resourcePrefixes = []
  capability : ∃ rule ∈ g.capabilities, matchesCapability capability rule = true
  maxRisk : riskOrder child.maxRisk ≤ riskOrder g.maxRisk
  lifetime : ∀ limit ∈ g.expiry, ∃ e ∈ child.expiry, e.val ≤ limit.val

/-- A delegation that lists no resource prefix hands on only capabilities
that a root grant above it gives for every resource. -/
def Listed (graph : PrincipalDelegationGraph) (root : RootAuthority) : Prop :=
  ∀ d ∈ graph.delegations, d.grant.resourcePrefixes = [] → ∀ capability ∈ d.grant.capabilities,
    ∃ q g, Leads graph.delegations q d.childPrincipalId ∧ root q = some g
      ∧ Unrestricted g d.grant capability

theorem Listed.allows (h : Listed graph root) {budget : Nat} {visiting : List String}
    {principalId : String} {sources : List AuthorityGrant}
    (hsources : grantSources graph.delegations root budget visiting principalId = .ok sources)
    {s : AuthorityGrant} (hs : s ∈ sources) {capability resource : String} {risk : ActionRisk}
    {time : Int} (ha : Allows s capability resource risk time) :
    ∃ q g, Leads graph.delegations q principalId ∧ root q = some g
    ∧ Allows g capability resource risk time := by
  induction budget generalizing visiting principalId sources s with
  | zero => cases hsources
  | succ budget ih =>
    rcases source_cases hsources hs with ⟨g, hg, hsame⟩
      | ⟨d, hd, rfl, hsame, parentSources, hparent, parent, hin, hatt⟩
    · exact ⟨principalId, g, Relation.ReflTransGen.refl, hg, hsame.allows.1 ha⟩
    · have hgrant := hsame.allows.1 ha
      by_cases hnil : d.grant.resourcePrefixes = []
      · obtain ⟨rule, hrule, hmatch⟩ := hgrant.capability
        obtain ⟨q, g, hleads, hg, hopen⟩ := h d hd hnil rule hrule
        obtain ⟨rule', hrule', hmatch'⟩ := hopen.capability
        refine ⟨q, g, hleads, hg, ⟨rule', hrule', matchesCapability_trans hmatch hmatch'⟩,
          .inl hopen.resources, hgrant.risk.trans hopen.maxRisk, ?_⟩
        intro limit hlimit
        obtain ⟨e, he, hle⟩ := hopen.lifetime limit hlimit
        exact (hgrant.time e he).trans_le hle
      · have hallows := hatt.allows (fun hn => absurd hn hnil) hgrant
        obtain ⟨q, g, hleads, hg, hroot⟩ := ih hparent hin hallows
        exact ⟨q, g, hleads.tail ⟨d, hd, rfl, rfl⟩, hg, hroot⟩

theorem exists_last_time (child : AuthorityGrant) : ∃ time : Int, (∀ e ∈ child.expiry, time < e.val)
    ∧ ∀ g : AuthorityGrant, (∀ limit ∈ g.expiry, time < limit.val) →
      ∀ limit ∈ g.expiry, ∃ e ∈ child.expiry, e.val ≤ limit.val := by
  cases he : child.expiry with
  | none =>
    refine ⟨8640000000000000, fun e h => (nomatch h), ?_⟩
    intro g hg limit hlimit
    have hlt := hg limit hlimit
    have hmax := limit.property.2
    omega
  | some e =>
    refine ⟨e.val - 1, ?_, ?_⟩
    · intro e' h
      obtain rfl := Option.some.inj h
      omega
    · intro g hg limit hlimit
      have hlt := hg limit hlimit
      exact ⟨e, rfl, by omega⟩

theorem Leads.mem {ds : List Delegation} {q p : String} (h : Leads ds q p) :
    q ∈ p :: ds.map (·.parentPrincipalId) := by
  rcases Relation.ReflTransGen.cases_head h with rfl | ⟨c, ⟨d, hd, rfl, -⟩, -⟩
  · exact List.mem_cons_self ..
  · exact List.mem_cons_of_mem _ (List.mem_map_of_mem hd)

theorem Accepted.listed (h : Accepted graph root)
    (hrooted : ∀ p ∈ graph.principals, Rooted graph root p.id) : Listed graph root := by
  intro d hd hnil capability hcap
  obtain ⟨p, hp, hchild⟩ := h.children d hd
  obtain ⟨sources, hsources⟩ := h.exists_sources hp
  obtain ⟨parentSources, s, -, hdelegated, hs⟩ := parentSources_of_ok hsources hd hchild.symm
  obtain ⟨_, -, hvalid⟩ := bind_eq_ok.1 hdelegated
  have hsame := validateAuthorityGrant_same hvalid
  obtain ⟨resource, hout⟩ := exists_resource_outside
    ((p.id :: graph.delegations.map (·.parentPrincipalId)).flatMap
      fun q => (root q).elim [] (·.resourcePrefixes))
  obtain ⟨time, hbefore, hlast⟩ := exists_last_time d.grant
  have hallows : Allows s capability resource d.grant.maxRisk time :=
    hsame.allows.2 ⟨⟨capability, hcap, by simp [matchesCapability, Policy.ruleCovers]⟩,
      .inl hnil, le_refl _, hbefore⟩
  obtain ⟨q, g, hleads, hg, hroot⟩ := hrooted p hp sources hsources s hs _ _ _ _ hallows
  refine ⟨q, g, hchild ▸ hleads, hg, ?_, hroot.capability, hroot.risk, hlast g hroot.time⟩
  rcases hroot.resource with hn | ⟨outer, houter, hwithin⟩
  · exact hn
  · have hfalse := hout outer (List.mem_flatMap.2 ⟨q, hleads.mem, by rw [hg]; exact houter⟩)
    rw [hwithin] at hfalse
    cases hfalse

end

/-- An accepted graph hands on no more than its roots hold exactly when no
delegation without resource prefixes stands under narrower roots; and what
`assertAttenuates` lets through is covered exactly when it lists resource
prefixes wherever the parent does. -/
theorem delegation_attenuates (input : PrincipalDelegationGraph) (root : RootAuthority)
    (graph : PrincipalDelegationGraph)
    (h : validatePrincipalDelegationGraph input root = .ok graph) :
    ((∀ p ∈ graph.principals, Rooted graph root p.id) ↔ Listed graph root)
    ∧ ∀ parent child label, assertAttenuates parent child label = .ok () →
      ((∀ capability resource risk time, Allows child capability resource risk time →
          Allows parent capability resource risk time)
        ↔ child.capabilities = [] ∨ child.resourcePrefixes ≠ []
          ∨ parent.resourcePrefixes = []) := by
  refine ⟨⟨(accepted_of_ok h).listed, ?_⟩, ?_⟩
  · intro hlisted p _ sources hsources s hs capability resource risk time ha
    exact hlisted.allows hsources hs ha
  · intro parent child label hok
    have hatt := (attenuated_of_ok hok).1
    constructor
    · intro hcovers
      by_contra hnot
      rw [not_or, not_or, not_not] at hnot
      obtain ⟨hcaps, hnil, hparent⟩ := hnot
      obtain ⟨capability, hcap⟩ := List.exists_mem_of_ne_nil _ hcaps
      obtain ⟨resource, hout⟩ := exists_resource_outside parent.resourcePrefixes
      obtain ⟨time, hbefore, -⟩ := exists_last_time child
      have hall := hcovers capability resource child.maxRisk time
        ⟨⟨capability, hcap, by simp [matchesCapability, Policy.ruleCovers]⟩, .inl hnil,
          le_refl _, hbefore⟩
      rcases hall.resource with hn | ⟨outer, houter, hwithin⟩
      · exact hparent hn
      · have hfalse := hout outer houter
        rw [hwithin] at hfalse
        cases hfalse
    · intro hcond capability resource risk time ha
      rcases hcond with hcaps | hlisted | hparent
      · obtain ⟨rule, hrule, -⟩ := ha.capability
        rw [hcaps] at hrule
        cases hrule
      · exact hatt.allows (fun hn => absurd hn hlisted) ha
      · exact hatt.allows (fun _ => hparent) ha

-- ===== samples

def sampleGrant (resourcePrefixes : List String) : AuthorityGrant where
  capabilities := ["file.read"]
  resourcePrefixes := resourcePrefixes
  maxRisk := .read
  expiresAt := none

def sampleRoot : RootAuthority := fun principalId =>
  if principalId = "a" then some (sampleGrant ["/srv"]) else none

/-- One delegation, from `a`, who holds `/srv`, to `b`. -/
def sampleGraph (resourcePrefixes : List String) : PrincipalDelegationGraph where
  principals := [⟨"a", .human, true⟩, ⟨"b", .agent, true⟩]
  delegations :=
    [{ id := "d", parentPrincipalId := "a", childPrincipalId := "b", purpose := "work"
       grant := sampleGrant resourcePrefixes, createdAt := some ⟨0, zero_instant⟩ }]

/-- A chain, from `a` over `b` to `c`. -/
def chainGraph : PrincipalDelegationGraph where
  principals := [⟨"a", .human, true⟩, ⟨"b", .agent, true⟩, ⟨"c", .agent, true⟩]
  delegations := (sampleGraph ["/srv/www"]).delegations ++
    [{ id := "e", parentPrincipalId := "b", childPrincipalId := "c", purpose := "work"
       grant := sampleGrant ["/srv/www/docs"], createdAt := some ⟨0, zero_instant⟩ }]

theorem chainGraph_accepted :
    validatePrincipalDelegationGraph chainGraph sampleRoot = .ok chainGraph := by
  rfl

theorem sampleGraph_unlisted_accepted :
    validatePrincipalDelegationGraph (sampleGraph []) sampleRoot = .ok (sampleGraph []) := by
  rfl

/-- Both delegations of the chain list their prefixes. -/
theorem delegation_attenuates_listed : Rooted chainGraph sampleRoot "c" := by
  refine (delegation_attenuates _ _ _ chainGraph_accepted).1.2 ?_ ⟨"c", .agent, true⟩
    (by simp [chainGraph])
  intro d hd hnil
  rcases List.mem_cons.1 hd with rfl | hd
  · cases hnil
  · rw [List.mem_singleton.1 hd] at hnil
    cases hnil

theorem not_allows_sample : ¬ Allows (sampleGrant ["/srv"]) "file.read" "/etc/passwd" .read 0 := by
  intro ha
  have hout : ¬ ∃ outer ∈ ["/srv"], withinPrefix "/etc/passwd" outer = true := by decide
  rcases ha.resource with hnil | hwithin
  · cases hnil
  · exact hout hwithin

/-- `a` holds `/srv` alone; what it hands to `b` without a prefix reaches
`/etc/passwd`. -/
theorem unlisted_delegation_amplifies :
    (∃ graph, validatePrincipalDelegationGraph (sampleGraph []) sampleRoot = .ok graph
        ∧ ∃ p ∈ graph.principals, ¬ Rooted graph sampleRoot p.id)
      ∧ assertAttenuates (sampleGrant ["/srv"]) (sampleGrant []) "delegation" = .ok ()
      ∧ Allows (sampleGrant []) "file.read" "/etc/passwd" .read 0
      ∧ ¬ Allows (sampleGrant ["/srv"]) "file.read" "/etc/passwd" .read 0 := by
  have hallows : Allows (sampleGrant []) "file.read" "/etc/passwd" .read 0 :=
    ⟨⟨"file.read", List.mem_singleton_self _, by decide⟩, .inl rfl, le_refl _,
      fun limit h => (nomatch h)⟩
  refine ⟨⟨_, sampleGraph_unlisted_accepted, ⟨"b", .agent, true⟩, by simp [sampleGraph], ?_⟩,
    rfl, hallows, not_allows_sample⟩
  intro hrooted
  obtain ⟨q, g, -, hg, ha⟩ := hrooted [sampleGrant []] rfl _ (List.mem_singleton_self _) _ _ _ _
    hallows
  rw [sampleRoot] at hg
  split at hg
  · rw [← Option.some.inj hg] at ha
    exact not_allows_sample ha
  · cases hg

end OperatorRuntime.Principals
