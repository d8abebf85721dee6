/-
`narrow` never expands authority. What the returned profile accepts, the
base profile accepts, and one granted role alone covers it: capability,
path and risk together. The capability patterns it returns match exactly
what both sides match.

Three facts carry the proof: the intersection of two patterns matches
what both match (`ruleCovers_intersect`), containment of paths chains, and
the projection check speaks of pattern and root texts that stand for
everything below them (`ruleCovers_trans`).
-/
import Mathlib.Data.List.Dedup
import OperatorRuntime.Lib.Keyed
import OperatorRuntime.Policy.Enterprise

namespace OperatorRuntime.Policy

open Lib

-- ===== patterns

variable {rule : String}

theorem ruleCovers_iff {capability : String} : ruleCovers rule capability = true ↔ rule = capability
        ∨ isWildcard rule = true ∧ wildcardStem rule <+: capability.toList := by
  simp [ruleCovers, List.isPrefixOf_iff_prefix]

theorem isWildcard_toList {pattern : String} (h : isWildcard pattern = true) :
    ∃ q, wildcardStem pattern = q ++ ['.'] ∧ pattern.toList = wildcardStem pattern ++ ['*'] := by
  rw [isWildcard, List.isSuffixOf_iff_suffix] at h
  obtain ⟨q, hq⟩ := h
  have hsplit : pattern.toList = (q ++ ['.']) ++ ['*'] := by
    rw [← hq, List.append_assoc]
    rfl
  have hstem : wildcardStem pattern = q ++ ['.'] := by
    rw [wildcardStem, hsplit, List.dropLast_concat]
  exact ⟨q, hstem, by rw [hstem]; exact hsplit⟩

theorem ruleCovers_wildcard {capability : String} (h : isWildcard rule = true) :
    ruleCovers rule capability = true ↔ wildcardStem rule <+: capability.toList := by
  rw [ruleCovers_iff]
  constructor
  · intro hcovers
    rcases hcovers with rfl | ⟨-, hstem⟩
    · exact List.dropLast_prefix _
    · exact hstem
  · intro hstem
    exact .inr ⟨h, hstem⟩

theorem ruleCovers_exact {capability : String} (h : isWildcard rule = false) :
    ruleCovers rule capability = true ↔ rule = capability := by
  rw [ruleCovers_iff, h]
  simp

theorem ruleCovers_trans {pattern capability : String} (h : ruleCovers rule pattern = true)
    (h' : ruleCovers pattern capability = true) : ruleCovers rule capability = true := by
  rcases ruleCovers_iff.1 h with rfl | ⟨hwild, hstem⟩
  · exact h'
  rw [ruleCovers_wildcard hwild]
  rcases ruleCovers_iff.1 h' with rfl | ⟨hwild', hstem'⟩
  · exact hstem
  -- the stem ends in a dot, so it stops before the star of the pattern
  obtain ⟨q, hq, -⟩ := isWildcard_toList hwild
  obtain ⟨-, -, hpattern⟩ := isWildcard_toList hwild'
  rw [hpattern, List.prefix_concat_iff] at hstem
  rcases hstem with heq | hle
  · rw [hq] at heq
    have hlast := (List.append_inj' heq rfl).2
    exact absurd hlast (by decide)
  · exact hle.trans hstem'

theorem ruleCovers_intersect {left right capability : String} :
    (ruleCovers left capability = true ∧ ruleCovers right capability = true)
    ↔ ∃ p, intersectCapabilityPattern left right = some p ∧ ruleCovers p capability = true := by
  unfold intersectCapabilityPattern
  by_cases hsame : left = right
  · simp [hsame]
  rw [if_neg hsame]
  cases hl : isWildcard left with
  | true =>
    cases hr : isWildcard right with
    | true =>
      simp only [ruleCovers_wildcard hl, ruleCovers_wildcard hr, List.isPrefixOf_iff_prefix]
      split
      · next hle =>
        simp only [Option.some.injEq, exists_eq_left', ruleCovers_wildcard hl]
        exact ⟨fun h => h.1, fun h => ⟨h, hle.trans h⟩⟩
      · next hnle =>
        split
        · next hle =>
          simp only [Option.some.injEq, exists_eq_left', ruleCovers_wildcard hr]
          exact ⟨fun h => h.2, fun h => ⟨hle.trans h, h⟩⟩
        · next hnle' =>
          constructor
          · intro h
            rcases List.prefix_or_prefix_of_prefix h.1 h.2 with hle | hle
            · exact absurd hle hnle'
            · exact absurd hle hnle
          · intro h
            obtain ⟨p, hp, -⟩ := h
            cases hp
    | false =>
      simp only [ruleCovers_wildcard hl, ruleCovers_exact hr, List.isPrefixOf_iff_prefix]
      split
      · next hle =>
        simp only [Option.some.injEq, exists_eq_left', ruleCovers_exact hr]
        exact ⟨fun h => h.2, fun h => ⟨h ▸ hle, h⟩⟩
      · next hnle =>
        constructor
        · intro h
          exact absurd (h.2 ▸ h.1) hnle
        · intro h
          obtain ⟨p, hp, -⟩ := h
          cases hp
  | false =>
    cases hr : isWildcard right with
    | true =>
      simp only [ruleCovers_exact hl, ruleCovers_wildcard hr, List.isPrefixOf_iff_prefix]
      split
      · next hle =>
        simp only [Option.some.injEq, exists_eq_left', ruleCovers_exact hl]
        exact ⟨fun h => h.1, fun h => ⟨h, h ▸ hle⟩⟩
      · next hnle =>
        constructor
        · intro h
          exact absurd (h.1 ▸ h.2) hnle
        · intro h
          obtain ⟨p, hp, -⟩ := h
          cases hp
    | false =>
      simp only [ruleCovers_exact hl, ruleCovers_exact hr]
      constructor
      · intro h
        exact absurd (h.1.trans h.2.symm) hsame
      · intro h
        obtain ⟨p, hp, -⟩ := h
        cases hp

theorem CapabilityPattern.covers_ne_empty (pattern : CapabilityPattern)
    {capability : String} (h : ruleCovers pattern.val capability = true) : capability ≠ "" := by
  intro hempty
  rw [hempty] at h
  rcases ruleCovers_iff.1 h with heq | ⟨hwild, hstem⟩
  · have hvalid := pattern.property
    rw [heq] at hvalid
    exact absurd hvalid (by decide)
  · obtain ⟨q, hq, -⟩ := isWildcard_toList hwild
    rw [hq] at hstem
    have hlength := hstem.length_le
    simp at hlength

theorem mem_union {values : List String} {text : String} : text ∈ union values ↔ text ∈ values := by
  rw [union, Json.sortTexts, List.mem_insertionSort, List.mem_dedup]

theorem capabilityAllowed_iff {capability : String} {allowed : List String} :
    capabilityAllowed capability allowed = true
    ↔ ∃ rule ∈ allowed, ruleCovers rule capability = true := by
  simp [capabilityAllowed]

theorem capabilityAllowed_intersect {capability : String} {base enterprise : List String}
    (henterprise : ∀ text ∈ enterprise, ∃ p : CapabilityPattern, p.val = text) :
    capabilityAllowed capability (intersectCapabilities base enterprise) = true
    ↔ capabilityAllowed capability base = true
      ∧ capabilityAllowed capability enterprise = true := by
  simp only [capabilityAllowed_iff, intersectCapabilities, mem_union, List.mem_flatMap,
    List.mem_filterMap, Option.filter_eq_some_iff]
  constructor
  · intro h
    obtain ⟨p, ⟨left, hleft, right, hright, hp, -⟩, hcovers⟩ := h
    have hboth := ruleCovers_intersect.2 ⟨p, hp, hcovers⟩
    exact ⟨⟨left, hleft, hboth.1⟩, right, hright, hboth.2⟩
  · intro h
    obtain ⟨⟨left, hleft, hl⟩, right, hright, hr⟩ := h
    obtain ⟨p, hp, hcovers⟩ := ruleCovers_intersect.1 ⟨hl, hr⟩
    refine ⟨p, ⟨left, hleft, right, hright, hp, ?_⟩, hcovers⟩
    obtain ⟨pattern, rfl⟩ := henterprise right hright
    rw [bne_iff_ne]
    intro hempty
    rw [hempty, ruleCovers_exact (by decide)] at hcovers
    exact pattern.covers_ne_empty hr hcovers.symm

-- ===== roots

/-- A list of roots lets a path through; an empty one lets all through. -/
def RootsAllow (paths : Paths) (roots : List String) (path : String) : Prop :=
  roots = [] ∨ ∃ root ∈ roots, pathWithin paths path root = true

section
variable {paths : Paths} {path : String}

variable {root : String}

theorem pathWithin_resolve :
    pathWithin paths path (paths.resolve root) = pathWithin paths path root := by
  rw [pathWithin, paths.resolve_resolve, pathWithin]

theorem union_eq_nil {values : List String} : union values = [] ↔ values = [] := by
  simp only [List.eq_nil_iff_forall_not_mem, mem_union]

theorem rootsAllow_union_resolve {roots : List String} :
    RootsAllow paths (union (roots.map paths.resolve)) path ↔ RootsAllow paths roots path := by
  unfold RootsAllow
  rw [union_eq_nil, List.map_eq_nil_iff]
  simp only [mem_union, List.mem_map]
  constructor
  · intro h
    rcases h with hnil | ⟨_, ⟨root, hroot, rfl⟩, hwithin⟩
    · exact .inl hnil
    · exact .inr ⟨root, hroot, by rwa [pathWithin_resolve] at hwithin⟩
  · intro h
    rcases h with hnil | ⟨root, hroot, hwithin⟩
    · exact .inl hnil
    · exact .inr ⟨_, ⟨root, hroot, rfl⟩, by rwa [pathWithin_resolve]⟩

theorem intersectRoot_sound {baseRoot policyRoot : String}
    (h : intersectRoot paths baseRoot policyRoot = some root)
    (hwithin : paths.isWithin path root = true) :
    paths.isWithin path baseRoot = true ∧ paths.isWithin path policyRoot = true := by
  unfold intersectRoot at h
  split at h
  · next hle =>
    cases h
    exact ⟨hwithin, paths.isWithin_trans hwithin hle⟩
  · split at h
    · next hle =>
      cases h
      exact ⟨paths.isWithin_trans hwithin hle, hwithin⟩
    · cases h

theorem intersectRoot_resolved {baseRoot policyRoot : String}
    (h : intersectRoot paths (paths.resolve baseRoot) (paths.resolve policyRoot)
      = some root) : paths.resolve root = root := by
  unfold intersectRoot at h
  split at h
  · cases h
    exact paths.resolve_resolve _
  · split at h
    · cases h
      exact paths.resolve_resolve _
    · cases h

theorem intersectRoots_resolved {base enterprise : List String}
    (h : root ∈ intersectRoots paths base enterprise) : paths.resolve root = root := by
  unfold intersectRoots at h
  dsimp only at h
  split at h
  · rw [mem_union] at h
    obtain ⟨text, -, rfl⟩ := List.mem_map.1 h
    exact paths.resolve_resolve _
  · split at h
    · rw [mem_union] at h
      obtain ⟨text, -, rfl⟩ := List.mem_map.1 h
      exact paths.resolve_resolve _
    · simp only [mem_union, List.mem_flatMap, List.mem_map, List.mem_filterMap] at h
      obtain ⟨_, ⟨baseRoot, -, rfl⟩, policyRoot, -, h⟩ := h
      exact intersectRoot_resolved h

theorem rootsAllow_intersect {base enterprise : List String} (hsome : ¬ (base ≠ [] ∧ enterprise ≠ []
      ∧ (intersectRoots paths base enterprise).isEmpty = true))
    (h : RootsAllow paths (intersectRoots paths base enterprise) path) :
    RootsAllow paths base path ∧ RootsAllow paths enterprise path := by
  unfold intersectRoots at h hsome
  dsimp only at h hsome
  split at h
  · next hnil =>
    exact ⟨rootsAllow_union_resolve.1 h, .inl (List.isEmpty_iff.1 hnil)⟩
  · next henterprise =>
    split at h
    · next hnil =>
      rw [List.isEmpty_iff, List.map_eq_nil_iff] at hnil
      exact ⟨.inl hnil, rootsAllow_union_resolve.1 h⟩
    · next hbase =>
      rw [if_neg henterprise, if_neg hbase, List.isEmpty_iff] at hsome
      rw [List.isEmpty_iff] at henterprise hbase
      rw [List.map_eq_nil_iff] at hbase
      rcases h with hnil | ⟨root, hroot, hwithin⟩
      · exact absurd ⟨hbase, henterprise, hnil⟩ hsome
      simp only [mem_union, List.mem_flatMap, List.mem_map, List.mem_filterMap] at hroot
      obtain ⟨_, ⟨baseRoot, hb, rfl⟩, policyRoot, hp, hroot⟩ := hroot
      rw [pathWithin, intersectRoot_resolved hroot] at hwithin
      obtain ⟨h₁, h₂⟩ := intersectRoot_sound hroot hwithin
      exact ⟨.inr ⟨baseRoot, hb, h₁⟩, .inr ⟨policyRoot, hp, h₂⟩⟩

end

-- ===== roles

/-- The roles a policy grants in a context. -/
def Granted (policy : EnterprisePolicy) (context : Context) (role : EnterpriseRole) : Prop :=
  role ∈ policy.roles ∧ roleAllows context role = true
    ∧ ∃ binding ∈ policy.bindings, bindingMatches context binding = true ∧ binding.roleId = role.id

/-- What a binding asks of a context: who it is, and each part it names. -/
theorem bindingMatches_iff {context : Context} {binding : EnterpriseBinding} :
    bindingMatches context binding = true ↔ binding.enabled = true
      ∧ binding.principalId = context.principalId ∧ (∀ id ∈ binding.teamId, id ∈ context.teamIds)
      ∧ (∀ scope ∈ binding.projectPrefix,
        ∃ key ∈ context.projectKey, withinProjectPrefix key scope = true)
      ∧ (∀ env ∈ binding.environment, context.environment = some env)
      ∧ (∀ group ∈ binding.deviceGroup, group ∈ context.deviceGroups)
      ∧ ∀ id ∈ binding.deviceId, context.deviceId = some id := by
  simp [bindingMatches, and_assoc, Option.all_eq_true, Option.any_eq_true]

/-- What a role asks of a context: nothing by a list that is empty. -/
theorem roleAllows_iff {context : Context} {role : EnterpriseRole} :
    roleAllows context role = true
      ↔ (role.environments = [] ∨ ∃ env ∈ context.environment, env ∈ role.environments)
        ∧ (role.projectPrefixes = [] ∨ ∃ key ∈ context.projectKey,
          ∃ scope ∈ role.projectPrefixes, withinProjectPrefix key scope = true)
        ∧ (role.deviceGroups = [] ∨ ∃ group ∈ role.deviceGroups, group ∈ context.deviceGroups)
        ∧ (role.deviceIds = [] ∨ ∃ id ∈ context.deviceId, id ∈ role.deviceIds) := by
  simp [roleAllows, and_assoc, Option.any_eq_true]

variable {role : EnterpriseRole}

theorem mem_of_mem_distinctRoles {roles : List EnterpriseRole} (h : role ∈ distinctRoles roles) :
    role ∈ roles := by
  induction roles with
  | nil => exact absurd h List.not_mem_nil
  | cons r roles ih =>
    rcases List.mem_cons.1 h with rfl | h
    · exact List.mem_cons_self ..
    · exact List.mem_cons_of_mem _ (ih (List.mem_filter.1 h).1)

theorem exists_mem_distinctRoles {roles : List EnterpriseRole} (h : role ∈ roles) :
    ∃ r ∈ distinctRoles roles, r.id = role.id := by
  induction roles with
  | nil => exact absurd h List.not_mem_nil
  | cons r roles ih =>
    by_cases hid : r.id = role.id
    · exact ⟨r, List.mem_cons_self .., hid⟩
    · rcases List.mem_cons.1 h with rfl | h
      · exact absurd rfl hid
      · obtain ⟨x, hx, hxid⟩ := ih h
        refine ⟨x, List.mem_cons_of_mem _ (List.mem_filter.2 ⟨hx, ?_⟩), hxid⟩
        rw [hxid]
        exact bne_iff_ne.2 (Ne.symm hid)

theorem mem_map_grantsOf {policy : EnterprisePolicy} {context : Context} :
    role ∈ (grantsOf policy context).map (·.2) ↔ Granted policy context role := by
  simp only [grantsOf, List.mem_map, List.mem_filter, List.mem_filterMap, Option.map_eq_some_iff]
  constructor
  · intro h
    obtain ⟨_, ⟨⟨binding, ⟨hb, hmatch⟩, r, hfind, rfl⟩, hallows⟩, rfl⟩ := h
    obtain ⟨hr, hid⟩ := (find?_key_eq_some policy.roleIds_nodup).1 hfind
    exact ⟨hr, hallows, binding, hb, hmatch, hid.symm⟩
  · intro h
    obtain ⟨hr, hallows, binding, hb, hmatch, hid⟩ := h
    have hfind := (find?_key_eq_some policy.roleIds_nodup).2 ⟨hr, hid.symm⟩
    exact ⟨(binding, role), ⟨⟨binding, ⟨hb, hmatch⟩, role, hfind, rfl⟩, hallows⟩, rfl⟩

def grantedRoles (policy : EnterprisePolicy) (context : Context) : List EnterpriseRole :=
  distinctRoles ((grantsOf policy context).map (·.2))

theorem mem_grantedRoles {policy : EnterprisePolicy} {context : Context} :
    role ∈ grantedRoles policy context ↔ Granted policy context role := by
  constructor
  · intro h
    exact mem_map_grantsOf.1 (mem_of_mem_distinctRoles h)
  · intro h
    obtain ⟨r, hr, hid⟩ := exists_mem_distinctRoles (mem_map_grantsOf.2 h)
    have hgranted := mem_map_grantsOf.1 (mem_of_mem_distinctRoles hr)
    rwa [← List.inj_on_of_nodup_map policy.roleIds_nodup hgranted.1 h.1 hid]

theorem riskOrder_highestRisk_singleton (role : EnterpriseRole) :
    riskOrder (highestRisk [role]) = riskOrder role.maxRisk := by
  obtain ⟨_, _, _, maxRisk, _, _, _, _⟩ := role
  cases maxRisk with
  | _ => rfl

-- ===== the profile

theorem accepts_iff {paths : Paths} {permissions : PermissionProfile}
    {capability path actionId : String} {risk : ActionRisk} :
    Accepts paths permissions capability path actionId risk
    ↔ capabilityAllowed capability permissions.allowedCapabilities = true
      ∧ RootsAllow paths permissions.allowedRoots (paths.resolve path)
      ∧ (∀ ceiling ∈ permissions.maxRisk, riskOrder risk ≤ riskOrder ceiling)
      ∧ (risk = .external → permissions.allowExternalWrites = false →
          actionId ∈ permissions.approvedActionIds)
      ∧ (risk = .system → permissions.allowSystemChanges = false →
          actionId ∈ permissions.approvedActionIds)
      ∧ (risk = .destructive → permissions.allowDestructive = false →
          actionId ∈ permissions.approvedActionIds) := by
  have hroots : RootsAllow paths permissions.allowedRoots (paths.resolve path)
      ↔ permissions.allowedRoots.isEmpty = true
        ∨ permissions.allowedRoots.any (pathWithin paths (paths.resolve path)) = true := by
    rw [RootsAllow, List.isEmpty_iff, List.any_eq_true]
  have hbase : authorizeBase paths capability [path] permissions = .ok ()
      ↔ capabilityAllowed capability permissions.allowedCapabilities = true
        ∧ RootsAllow paths permissions.allowedRoots (paths.resolve path) := by
    rw [hroots, authorizeBase]
    by_cases hnil : permissions.allowedRoots.isEmpty = true
    · simp [bind_eq_ok, hnil]
    · simp [bind_eq_ok, hnil]
  have hrisk : authorizeRisk risk actionId permissions = .ok ()
      ↔ (∀ ceiling ∈ permissions.maxRisk, riskOrder risk ≤ riskOrder ceiling)
        ∧ (risk = .external → permissions.allowExternalWrites = false →
            actionId ∈ permissions.approvedActionIds)
        ∧ (risk = .system → permissions.allowSystemChanges = false →
            actionId ∈ permissions.approvedActionIds)
        ∧ (risk = .destructive → permissions.allowDestructive = false →
            actionId ∈ permissions.approvedActionIds) := by
    rw [authorizeRisk]
    cases permissions.maxRisk with
    | none => simp [bind_eq_ok]
    | some ceiling => simp [bind_eq_ok]
  rw [Accepts, hbase, hrisk, and_assoc]

/-- Everything a successful `narrow` computed. -/
structure Narrowed (cfg : PolicyConfig) (policy : EnterprisePolicy) (context : Context)
    (base permissions : PermissionProfile) : Prop where
  granted : grantsOf policy context ≠ []
  capabilities : permissions.allowedCapabilities = intersectCapabilities base.allowedCapabilities
        (union ((grantedRoles policy context).flatMap fun role => role.capabilities.map (·.val)))
  roots : permissions.allowedRoots = intersectRoots cfg.paths base.allowedRoots
    ((union ((grantedRoles policy context).flatMap (·.rootPrefixes))).map cfg.paths.resolve)
  someRoot : ¬ (base.allowedRoots ≠ []
    ∧ (union ((grantedRoles policy context).flatMap (·.rootPrefixes))).map
        cfg.paths.resolve ≠ []
    ∧ permissions.allowedRoots.isEmpty = true)
  maxRisk : ∃ maxRisk, permissions.maxRisk = some maxRisk
    ∧ riskOrder maxRisk ≤ riskOrder (highestRisk (grantedRoles policy context))
    ∧ (∀ ceiling ∈ base.maxRisk, riskOrder maxRisk ≤ riskOrder ceiling)
    ∧ assertRoleProjectionSafe cfg.paths (grantedRoles policy context)
        permissions.allowedCapabilities permissions.allowedRoots maxRisk = .ok ()
  approved : permissions.approvedActionIds = base.approvedActionIds
  external : permissions.allowExternalWrites = true → base.allowExternalWrites = true
  system : permissions.allowSystemChanges = true → base.allowSystemChanges = true
  destructive : permissions.allowDestructive = true → base.allowDestructive = true

theorem narrowIn_ok {cfg : PolicyConfig} {state : EnterprisePolicyState}
    {base : PermissionProfile} {contextInput : EnterpriseAuthorizationContext}
    {decision : EnterprisePermissionDecision}
    (h : narrowIn cfg state base contextInput = .ok decision) :
    ∃ context, normalizeContext contextInput = .ok context
    ∧ Narrowed cfg state.toEnterprisePolicy context base decision.permissions := by
  rw [narrowIn] at h
  obtain ⟨context, hcontext, h⟩ := bind_eq_ok.1 h
  obtain ⟨_, _, h⟩ := bind_eq_ok.1 h
  obtain ⟨_, hgrants, h⟩ := bind_eq_ok.1 h
  obtain ⟨_, _, h⟩ := bind_eq_ok.1 h
  obtain ⟨_, hroots, h⟩ := bind_eq_ok.1 h
  obtain ⟨_, hprojection, h⟩ := bind_eq_ok.1 h
  rw [rejectIf_eq_ok] at hgrants hroots
  cases h
  refine ⟨context, hcontext, ?_, rfl, rfl, hroots, ⟨_, rfl, ?_, ?_, hprojection⟩, rfl, ?_, ?_, ?_⟩
  · intro hnil
    exact hgrants (List.isEmpty_iff.2 hnil)
  · split
    · exact le_rfl
    · next hlt => exact Nat.le_of_lt (Nat.not_le.1 hlt)
  · intro ceiling hceiling
    rw [Option.mem_def.1 hceiling, Option.getD_some]
    split
    · next hle => exact hle
    · exact le_rfl
  · intro hflag
    exact (Bool.and_eq_true _ _ ▸ hflag).1
  · intro hflag
    exact (Bool.and_eq_true _ _ ▸ hflag).1
  · intro hflag
    exact (Bool.and_eq_true _ _ ▸ hflag).1

section
variable {cfg : PolicyConfig} {policy : EnterprisePolicy} {context : Context}
  {base permissions : PermissionProfile} {capability path : String} {risk : ActionRisk}

theorem Narrowed.capabilityAllowed_iff (h : Narrowed cfg policy context base permissions) :
    capabilityAllowed capability permissions.allowedCapabilities = true
    ↔ capabilityAllowed capability base.allowedCapabilities = true
      ∧ ∃ role, Granted policy context role
          ∧ capabilityAllowed capability (role.capabilities.map (·.val)) = true := by
  rw [h.capabilities, capabilityAllowed_intersect ?_]
  · refine and_congr_right fun _ => ?_
    simp only [Policy.capabilityAllowed_iff, mem_union, List.mem_flatMap, ← mem_grantedRoles]
    constructor
    · intro hrule
      obtain ⟨rule, ⟨role, hrole, hin⟩, hcovers⟩ := hrule
      exact ⟨role, hrole, rule, hin, hcovers⟩
    · intro hrole
      obtain ⟨role, hrole, rule, hin, hcovers⟩ := hrole
      exact ⟨rule, ⟨role, hrole, hin⟩, hcovers⟩
  · intro text htext
    rw [mem_union, List.mem_flatMap] at htext
    obtain ⟨role, -, htext⟩ := htext
    obtain ⟨pattern, -, rfl⟩ := List.mem_map.1 htext
    exact ⟨pattern, rfl⟩

theorem Narrowed.rootsAllow (h : Narrowed cfg policy context base permissions)
    (hroots : RootsAllow cfg.paths permissions.allowedRoots path) :
    RootsAllow cfg.paths base.allowedRoots path
      ∧ RootsAllow cfg.paths ((grantedRoles policy context).flatMap (·.rootPrefixes))
          path := by
  have hsome := h.someRoot
  rw [h.roots] at hroots hsome
  obtain ⟨hbase, hroles⟩ := rootsAllow_intersect hsome hroots
  refine ⟨hbase, ?_⟩
  rcases hroles with hnil | ⟨root, hroot, hwithin⟩
  · exact .inl (union_eq_nil.1 (List.map_eq_nil_iff.1 hnil))
  · obtain ⟨text, htext, rfl⟩ := List.mem_map.1 hroot
    exact .inr ⟨text, mem_union.1 htext, by rwa [pathWithin_resolve] at hwithin⟩

theorem exists_covering_role {paths : Paths} {roles : List EnterpriseRole}
    {capabilities roots : List String} {maxRisk : ActionRisk} (hmany : ¬ roles.length < 2)
    (hsafe : assertRoleProjectionSafe paths roles capabilities roots maxRisk = .ok ())
    (hresolved : ∀ root ∈ roots, paths.resolve root = root)
    (hcapability : capabilityAllowed capability capabilities = true)
    (hroots : RootsAllow paths roots path) :
    ∃ role ∈ roles, capabilityAllowed capability (role.capabilities.map (·.val)) = true
    ∧ RootsAllow paths role.rootPrefixes path ∧ riskOrder maxRisk ≤ riskOrder role.maxRisk := by
  rw [assertRoleProjectionSafe, if_neg hmany] at hsafe
  obtain ⟨_, _, hsafe⟩ := bind_eq_ok.1 hsafe
  rw [rejectIf_eq_ok, not_not, List.all_eq_true] at hsafe
  obtain ⟨rule, hrule, hcovers⟩ := Policy.capabilityAllowed_iff.1 hcapability
  have hcell := List.all_eq_true.1 (hsafe rule hrule)
  have hpatterns : ∀ {role : EnterpriseRole},
      (∃ pattern ∈ role.capabilities, ruleCovers pattern.val rule = true) →
      capabilityAllowed capability (role.capabilities.map (·.val)) = true := by
    intro role hany
    obtain ⟨pattern, hpattern, hcovers'⟩ := hany
    exact Policy.capabilityAllowed_iff.2
      ⟨pattern.val, List.mem_map_of_mem hpattern, ruleCovers_trans hcovers' hcovers⟩
  rcases hroots with hnil | ⟨root, hroot, hwithin⟩
  · rw [hnil] at hcell
    obtain ⟨role, hrole, hcover⟩ := List.any_eq_true.1 (hcell none (by simp))
    simp only [roleCovers, Bool.and_eq_true, decide_eq_true_eq, Option.any_none,
      Bool.or_false, List.isEmpty_iff, List.any_eq_true] at hcover
    exact ⟨role, hrole, hpatterns hcover.1.2, .inl hcover.2, hcover.1.1⟩
  · have htarget : some root ∈ if roots.isEmpty then [none] else roots.map some := by
      rw [if_neg (by simpa using List.ne_nil_of_mem hroot)]
      exact List.mem_map_of_mem hroot
    obtain ⟨role, hrole, hcover⟩ := List.any_eq_true.1 (hcell (some root) htarget)
    simp only [roleCovers, Bool.and_eq_true, decide_eq_true_eq, Option.any_some,
      Bool.or_eq_true, List.isEmpty_iff, List.any_eq_true] at hcover
    obtain ⟨⟨hrisk, hcaps⟩, hprefix⟩ := hcover
    refine ⟨role, hrole, hpatterns hcaps, ?_, hrisk⟩
    rw [pathWithin, hresolved root hroot] at hwithin
    rcases hprefix with hnone | ⟨text, htext, hbelow⟩
    · exact .inl hnone
    · exact .inr ⟨text, htext, paths.isWithin_trans hwithin hbelow⟩

theorem Narrowed.exists_role (h : Narrowed cfg policy context base permissions)
    (hcapability : capabilityAllowed capability permissions.allowedCapabilities = true)
    (hroots : RootsAllow cfg.paths permissions.allowedRoots path)
    (hrisk : ∀ ceiling ∈ permissions.maxRisk, riskOrder risk ≤ riskOrder ceiling) :
    ∃ role, Granted policy context role
    ∧ capabilityAllowed capability (role.capabilities.map (·.val)) = true
    ∧ RootsAllow cfg.paths role.rootPrefixes path ∧ riskOrder risk ≤ riskOrder role.maxRisk := by
  obtain ⟨maxRisk, hmax, hhighest, -, hsafe⟩ := h.maxRisk
  have hle := hrisk maxRisk hmax
  by_cases hmany : (grantedRoles policy context).length < 2
  · -- a single role: everything comes from it
    obtain ⟨role, hgranted, hcaps⟩ := (h.capabilityAllowed_iff.1 hcapability).2
    have hrole := mem_grantedRoles.2 hgranted
    have hone : grantedRoles policy context = [role] := by
      match hlist : grantedRoles policy context with
      | [] => rw [hlist] at hrole; exact absurd hrole List.not_mem_nil
      | [r] => rw [hlist] at hrole; rw [List.mem_singleton.1 hrole]
      | _ :: _ :: _ =>
        rw [hlist, List.length_cons, List.length_cons] at hmany
        omega
    have hprefixes := (h.rootsAllow hroots).2
    rw [hone, List.flatMap_singleton] at hprefixes
    rw [hone, riskOrder_highestRisk_singleton] at hhighest
    exact ⟨role, hgranted, hcaps, hprefixes, hle.trans hhighest⟩
  · obtain ⟨role, hrole, hcaps, hprefixes, hrank⟩ := exists_covering_role hmany hsafe
      (fun root hroot => intersectRoots_resolved (h.roots ▸ hroot)) hcapability hroots
    exact ⟨role, mem_grantedRoles.1 hrole, hcaps, hprefixes, hle.trans hrank⟩

end

-- ===== the main result

/-- Whatever the stored policy, the base profile and the context: what a
narrowed profile accepts, the base profile accepts, and a single granted
role covers; and the narrowed patterns match what the base and the granted
roles both match. -/
theorem narrow_never_expands (cfg : PolicyConfig) (file : Option PolicyFile)
    (base : PermissionProfile) (contextInput : EnterpriseAuthorizationContext)
    (decision : EnterprisePermissionDecision)
    (h : narrow cfg file base contextInput = .ok decision) :
    ∃ state context, readPolicy cfg file = .ok state ∧ normalizeContext contextInput = .ok context
    ∧ (∀ capability path actionId risk,
        Accepts cfg.paths decision.permissions capability path actionId risk →
        Accepts cfg.paths base capability path actionId risk
          ∧ ∃ role, Granted state.toEnterprisePolicy context role
            ∧ capabilityAllowed capability (role.capabilities.map (·.val)) = true
            ∧ (role.rootPrefixes = [] ∨ ∃ root ∈ role.rootPrefixes,
                pathWithin cfg.paths (cfg.paths.resolve path) root = true)
            ∧ riskOrder risk ≤ riskOrder role.maxRisk)
    ∧ ∀ capability, capabilityAllowed capability decision.permissions.allowedCapabilities = true
          ↔ capabilityAllowed capability base.allowedCapabilities = true
            ∧ ∃ role, Granted state.toEnterprisePolicy context role
                ∧ capabilityAllowed capability (role.capabilities.map (·.val)) = true := by
  rw [narrow] at h
  obtain ⟨state, hread, h⟩ := bind_eq_ok.1 h
  obtain ⟨context, hcontext, hnarrowed⟩ := narrowIn_ok h
  refine ⟨state, context, hread, hcontext, ?_, fun _ => hnarrowed.capabilityAllowed_iff⟩
  intro capability path actionId risk haccepts
  obtain ⟨hcapability, hroots, hrisk, hexternal, hsystem, hdestructive⟩ :=
    accepts_iff.1 haccepts
  refine ⟨accepts_iff.2 ⟨(hnarrowed.capabilityAllowed_iff.1 hcapability).1,
    (hnarrowed.rootsAllow hroots).1, ?_, ?_, ?_, ?_⟩,
    hnarrowed.exists_role hcapability hroots hrisk⟩
  · intro ceiling hceiling
    obtain ⟨maxRisk, hmax, -, hbase, -⟩ := hnarrowed.maxRisk
    exact (hrisk maxRisk hmax).trans (hbase ceiling hceiling)
  · intro hr hflag
    rw [← hnarrowed.approved]
    refine hexternal hr (Bool.eq_false_iff.2 fun htrue => ?_)
    rw [hnarrowed.external htrue] at hflag
    cases hflag
  · intro hr hflag
    rw [← hnarrowed.approved]
    refine hsystem hr (Bool.eq_false_iff.2 fun htrue => ?_)
    rw [hnarrowed.system htrue] at hflag
    cases hflag
  · intro hr hflag
    rw [← hnarrowed.approved]
    refine hdestructive hr (Bool.eq_false_iff.2 fun htrue => ?_)
    rw [hnarrowed.destructive htrue] at hflag
    cases hflag

/-- A role for files, in one environment, one for builds, and one that grants
more, whose binding is disabled. -/
def dividedPolicy : PolicyFile :=
  .legacy
    [{ id := "reader", capabilities := ["files.*"], rootPrefixes := ["/srv"],
       maxRisk := "write", environments := ["dev"], projectPrefixes := [],
       deviceGroups := [], deviceIds := none },
     { id := "admin", capabilities := ["build.*"], rootPrefixes := ["/"],
       maxRisk := "system", environments := [], projectPrefixes := [],
       deviceGroups := [], deviceIds := none },
     { id := "builder", capabilities := ["build.run"], rootPrefixes := ["/srv/app"],
       maxRisk := "write", environments := [], projectPrefixes := [],
       deviceGroups := [], deviceIds := none }]
    [{ id := "b1", principalId := "p", roleId := "reader", teamId := none,
       projectPrefix := none, environment := none, deviceGroup := none,
       deviceId := none, enabled := true },
     { id := "b2", principalId := "p", roleId := "builder", teamId := none,
       projectPrefix := none, environment := none, deviceGroup := none,
       deviceId := none, enabled := true },
     { id := "b3", principalId := "p", roleId := "admin", teamId := none,
       projectPrefix := none, environment := none, deviceGroup := none,
       deviceId := none, enabled := false }]

def posixConfig : PolicyConfig where
  paths := posix "/"
  sha256 := sha256Utf8
  localeLe := Json.keyLe

/-- A profile that may do everything below `/srv/app`. -/
def appProfile : PermissionProfile where
  allowedCapabilities := ["files.read", "build.*"]
  allowedRoots := ["/srv/app"]
  maxRisk := none
  approvedActionIds := []
  allowExternalWrites := true
  allowSystemChanges := true
  allowDestructive := true
  enterprisePolicyDigest := none
  enterprisePolicyGeneration := none

def principalContext : EnterpriseAuthorizationContext where
  principalId := "p"
  teamIds := none
  projectKey := none
  environment := some "dev"
  deviceId := none
  deviceGroups := none

/-- Two roles divide the capabilities between them; the third is not granted. -/
theorem narrow_never_expands_divided :
    ∃ decision, narrow posixConfig (some dividedPolicy) appProfile principalContext = .ok decision
    ∧ decision.permissions.allowedCapabilities = ["build.run", "files.read"]
    ∧ Accepts posixConfig.paths decision.permissions "files.read" "/srv/app/x" "a" .write
    ∧ Accepts posixConfig.paths appProfile "files.read" "/srv/app/x" "a" .write := by
  have hok : (narrow posixConfig (some dividedPolicy) appProfile principalContext).map
      (fun d => (d.permissions.allowedCapabilities,
        authorizeBase posixConfig.paths "files.read" ["/srv/app/x"] d.permissions,
        authorizeRisk .write "a" d.permissions))
      = .ok (["build.run", "files.read"], .ok (), .ok ()) := by
    decide +kernel
  cases hnarrow : narrow posixConfig (some dividedPolicy) appProfile principalContext with
  | error e =>
    rw [hnarrow] at hok
    cases hok
  | ok decision =>
    rw [hnarrow] at hok
    obtain ⟨hcaps, haccept⟩ := Prod.mk.inj (Except.ok.inj hok)
    have haccepts : Accepts posixConfig.paths decision.permissions "files.read"
        "/srv/app/x" "a" .write := Prod.mk.inj haccept
    obtain ⟨_, _, -, -, hbase, -⟩ := narrow_never_expands posixConfig
      (some dividedPolicy) appProfile principalContext decision hnarrow
    exact ⟨decision, rfl, hcaps, haccepts, (hbase _ _ _ _ haccepts).1⟩

end OperatorRuntime.Policy
