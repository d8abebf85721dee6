/-
Permission profiles and the rules of `core/policy.ts` that accept a
capability, a path operand and a risk under one. Operands are native
absolute paths: `policyPath` resolves those and nothing else is said of
the others here. The provenance check that `authorizeBase` starts with
reads no permission and is left out.
-/
import OperatorRuntime.Action
import OperatorRuntime.Lib.Paths

namespace OperatorRuntime.Policy

open Lib

def riskOrder : ActionRisk → Nat
  | .read => 0
  | .write => 1
  | .external => 2
  | .system => 3
  | .destructive => 4

/-- `PermissionProfile` of `core/types.ts`. An absent flag reads as
`false` and an absent list of approvals as an empty one. -/
structure PermissionProfile where
  allowedCapabilities : List String
  allowedRoots : List String
  maxRisk : Option ActionRisk
  approvedActionIds : List String
  allowExternalWrites : Bool
  allowSystemChanges : Bool
  allowDestructive : Bool
  enterprisePolicyDigest : Option Hex64
  enterprisePolicyGeneration : Option Nat

-- ===== the patterns

/-- `pattern.endsWith('.*')`. -/
def isWildcard (pattern : String) : Bool :=
  ['.', '*'].isSuffixOf pattern.toList

/-- What a wildcard asks a capability to start with: `pattern.slice(0, -1)`. -/
def wildcardStem (pattern : String) : List Char :=
  pattern.toList.dropLast

/-- The test of one rule. -/
def ruleCovers (rule capability : String) : Bool :=
  rule == capability
    || (isWildcard rule && (wildcardStem rule).isPrefixOf capability.toList)

def capabilityAllowed (capability : String) (allowed : List String) : Bool :=
  allowed.any (ruleCovers · capability)

def pathWithin (paths : Paths) (child root : String) : Bool :=
  paths.isWithin child (paths.resolve root)

-- ===== PolicyEngine

/-- `authorizeBase`, on the capability and the operands of an action. -/
def authorizeBase (paths : Paths) (capability : String) (operands : List String)
    (permissions : PermissionProfile) : Result Unit := do
  rejectIf (capabilityAllowed capability permissions.allowedCapabilities = false)
    .capabilityDenied s!"Capability {capability} is not permitted."
  if permissions.allowedRoots.isEmpty then .ok ()
  else
    rejectIf (¬ operands.all fun targetPath =>
        permissions.allowedRoots.any (pathWithin paths (paths.resolve targetPath)))
      .pathOutsideScope "Requested path operand is outside the authorized roots."

def authorizeRisk (risk : ActionRisk) (actionId : String)
    (permissions : PermissionProfile) : Result Unit := do
  match permissions.maxRisk with
  | none => .ok ()
  | some ceiling =>
    let riskText := risk.text
    let ceilingText := ceiling.text
    rejectIf (riskOrder ceiling < riskOrder risk) .riskCeilingExceeded
      s!"Action risk {riskText} exceeds the permission ceiling {ceilingText}."
  let approved := actionId ∈ permissions.approvedActionIds
  rejectIf (risk = .external ∧ ¬ permissions.allowExternalWrites ∧ ¬ approved)
    .approvalRequired "External write requires explicit approval."
  rejectIf (risk = .system ∧ ¬ permissions.allowSystemChanges ∧ ¬ approved)
    .approvalRequired "System change requires explicit approval."
  rejectIf (risk = .destructive ∧ ¬ permissions.allowDestructive ∧ ¬ approved)
    .approvalRequired "Destructive action requires explicit approval."

/-- Both rules, on an action with one operand. -/
def Accepts (paths : Paths) (permissions : PermissionProfile)
    (capability path actionId : String) (risk : ActionRisk) : Prop :=
  authorizeBase paths capability [path] permissions = .ok ()
    ∧ authorizeRisk risk actionId permissions = .ok ()

/-
`core/enterprise-policy.ts`: roles, their bindings to principals, and
`narrow`, which cuts a permission profile down to what the roles granted
in a context allow.

The file is what `JSON.parse` returned, with the field types of the
interfaces; a value of another type or an unexpected key is refused by
`validateState` before anything is read of it. `localeCompare` on role
and binding ids decides the order the digest is taken in and nothing
else; it is a parameter, like the path library and SHA-256.
-/

-- ===== the records

/-- `[A-Za-z0-9._:-]`. -/
def isIdChar (c : Char) : Bool :=
  isAlnum c || c == '.' || c == '_' || c == ':' || c == '-'

/-- `/^[A-Za-z0-9][A-Za-z0-9._:-]*$/`. -/
def isIdText : List Char → Bool
  | [] => false
  | c :: cs => isAlnum c && cs.all isIdChar

/-- `/^[A-Za-z0-9][A-Za-z0-9._:-]*(?:\.\*)?$/`; a star is not of the class,
so the optional tail is there exactly when the text ends in it. -/
def isCapabilityPattern (text : String) : Bool :=
  isIdText (if isWildcard text then text.toList.dropLast.dropLast else text.toList)

/-- A pattern as `uniquePatterns` lets it through. -/
def CapabilityPattern := { text : String // isCapabilityPattern text = true }

structure EnterpriseRole where
  id : String
  capabilities : List CapabilityPattern
  rootPrefixes : List String
  maxRisk : ActionRisk
  environments : List String
  projectPrefixes : List String
  deviceGroups : List String
  deviceIds : List String

structure EnterpriseBinding where
  id : String
  principalId : String
  roleId : String
  teamId : Option String
  projectPrefix : Option String
  environment : Option String
  deviceGroup : Option String
  deviceId : Option String
  enabled : Bool

/-- Validated roles and bindings. -/
structure EnterprisePolicy where
  roles : List EnterpriseRole
  bindings : List EnterpriseBinding
  roleIds_nodup : (roles.map EnterpriseRole.id).Nodup

structure EnterprisePolicyState extends EnterprisePolicy where
  generation : Nat

/-- A role as it stands in the file. -/
structure RoleInput where
  id : String
  capabilities : List String
  rootPrefixes : List String
  maxRisk : String
  environments : List String
  projectPrefixes : List String
  deviceGroups : List String
  deviceIds : Option (List String)

/-- A binding as it stands in the file; an empty optional text counts as
absent. -/
structure BindingInput where
  id : String
  principalId : String
  roleId : String
  teamId : Option String
  projectPrefix : Option String
  environment : Option String
  deviceGroup : Option String
  deviceId : Option String
  enabled : Bool

/-- The policy file, in its two versions. -/
inductive PolicyFile
  | legacy (roles : List RoleInput) (bindings : List BindingInput)
  | current (generation : Number) (roles : List RoleInput)
      (bindings : List BindingInput) (recordDigest : String)

structure EnterpriseAuthorizationContext where
  principalId : String
  teamIds : Option (List String)
  projectKey : Option String
  environment : Option String
  deviceId : Option String
  deviceGroups : Option (List String)

structure EnterprisePermissionDecision where
  roleIds : List String
  bindingIds : List String
  permissions : PermissionProfile

/-- What the store is built over. -/
structure PolicyConfig where
  paths : Paths
  sha256 : String → Hex64
  localeLe : String → String → Bool

def maxRoles : Nat := 1000

def maxBindings : Nat := 20000

-- ===== validators

def union (values : List String) : List String :=
  Json.sortTexts values.dedup

def bounded (input : String) (max : Nat) (label : String) : Result String := do
  rejectIf (Json.unitLength input < 1 ∨ max < Json.unitLength input
      ∨ input.toList.any fun c => c.toNat = 0 ∨ c = '\r' ∨ c = '\n')
    .enterprisePolicyCorrupt s!"{label} is invalid."
  .ok input

def idValue (input label : String) : Result String := do
  let value ← bounded input 128 label
  rejectIf (isIdText value.toList = false) .enterprisePolicyCorrupt
    s!"{label} is invalid."
  .ok value

/-- The lists of the file: every item validated, none twice, sorted by
the text of the items. -/
def uniqueItems {α : Type} (text : α → String)
    (item : String → String → Result α) (input : List String)
    (maxItems : Nat) (label : String) : Result (List α) := do
  rejectIf (maxItems < input.length) .enterprisePolicyCorrupt s!"{label} is invalid."
  let values ← input.zipIdx.mapM fun (value, index) =>
    item value s!"{label}[{index}]"
  rejectIf (¬ (values.map text).Nodup) .enterprisePolicyCorrupt
    s!"{label} contains duplicates."
  .ok (values.insertionSort fun a b => Json.keyLe (text a) (text b) = true)

def uniqueIds (input : List String) (maxItems : Nat) (label : String) :
    Result (List String) :=
  uniqueItems id idValue input maxItems label

def uniquePatterns (input : List String) (maxItems : Nat) (label : String) :
    Result (List CapabilityPattern) :=
  uniqueItems Subtype.val (fun value label => do
    let text ← bounded value 256 label
    if h : isCapabilityPattern text = true then .ok ⟨text, h⟩
    else fail .enterprisePolicyCorrupt s!"{label} is invalid.") input maxItems label

def uniqueRoots (paths : Paths) (input : List String) (maxItems : Nat)
    (label : String) : Result (List String) :=
  uniqueItems id (fun value label => (bounded value 4096 label).map paths.resolve)
    input maxItems label

def uniqueText (input : List String) (maxItems maxLength : Nat) (label : String) :
    Result (List String) :=
  uniqueItems id (fun value label => bounded value maxLength label) input maxItems label

def risk (input : String) : Result ActionRisk :=
  match input with
  | "read" => .ok .read
  | "write" => .ok .write
  | "external" => .ok .external
  | "system" => .ok .system
  | "destructive" => .ok .destructive
  | _ => fail .enterprisePolicyCorrupt "Role maxRisk is invalid."

def validateRole (paths : Paths) (id : String) (role : RoleInput) (index : Nat) :
    Result { r : EnterpriseRole // r.id = id } := do
  let capabilities ← uniquePatterns role.capabilities 512
    s!"roles[{index}].capabilities"
  let rootPrefixes ← uniqueRoots paths role.rootPrefixes 512
    s!"roles[{index}].rootPrefixes"
  let maxRisk ← risk role.maxRisk
  let environments ← uniqueIds role.environments 128 s!"roles[{index}].environments"
  let projectPrefixes ← uniqueText role.projectPrefixes 512 512
    s!"roles[{index}].projectPrefixes"
  let deviceGroups ← uniqueIds role.deviceGroups 256 s!"roles[{index}].deviceGroups"
  let deviceIds ← uniqueText (role.deviceIds.getD []) 512 256
    s!"roles[{index}].deviceIds"
  .ok ⟨{ id, capabilities, rootPrefixes, maxRisk, environments, projectPrefixes,
         deviceGroups, deviceIds }, rfl⟩

/-- The roles of the file, with the ids seen so far. -/
def validateRoles (paths : Paths) : (index : Nat) → (seen : List String) →
    List RoleInput → Result
      { roles : List EnterpriseRole //
        (roles.map EnterpriseRole.id).Nodup ∧ ∀ r ∈ roles, r.id ∉ seen }
  | _, _, [] => .ok ⟨[], List.nodup_nil, fun _ h => absurd h List.not_mem_nil⟩
  | index, seen, input :: inputs => do
    let id ← idValue input.id s!"roles[{index}].id"
    if hseen : id ∈ seen then
      fail .enterprisePolicyCorrupt "Enterprise role IDs must be unique."
    else
      let ⟨role, hid⟩ ← validateRole paths id input index
      let ⟨roles, hnodup, hfresh⟩ ← validateRoles paths (index + 1) (id :: seen) inputs
      .ok ⟨role :: roles, by
        refine ⟨List.nodup_cons.2 ⟨?_, hnodup⟩, ?_⟩
        · intro hin
          obtain ⟨r, hr, hrid⟩ := List.mem_map.1 hin
          exact hfresh r hr (by rw [hrid, hid]; exact List.mem_cons_self ..)
        · intro r hr
          rcases List.mem_cons.1 hr with rfl | hr
          · rwa [hid]
          · exact fun h => hfresh r hr (List.mem_cons_of_mem _ h)⟩

/-- A field that is there only when its text is not empty. -/
def present (value : Option String) : Option String :=
  value.filter fun text => text != ""

def validateBindings (roleIds : List String) : (index : Nat) → (seen : List String) →
    List BindingInput → Result (List EnterpriseBinding)
  | _, _, [] => .ok []
  | index, seen, binding :: inputs => do
    let id ← idValue binding.id s!"bindings[{index}].id"
    rejectIf (id ∈ seen) .enterprisePolicyCorrupt
      "Enterprise binding IDs must be unique."
    let roleId ← idValue binding.roleId s!"bindings[{index}].roleId"
    rejectIf (roleId ∉ roleIds) .enterprisePolicyCorrupt
      s!"Binding {id} references an unknown role."
    let principalId ← bounded binding.principalId 512
      s!"bindings[{index}].principalId"
    let teamId ← (present binding.teamId).mapM
      (idValue · s!"bindings[{index}].teamId")
    let projectPrefix ← (present binding.projectPrefix).mapM
      (bounded · 512 s!"bindings[{index}].projectPrefix")
    let environment ← (present binding.environment).mapM
      (idValue · s!"bindings[{index}].environment")
    let deviceGroup ← (present binding.deviceGroup).mapM
      (idValue · s!"bindings[{index}].deviceGroup")
    let deviceId ← (present binding.deviceId).mapM
      (bounded · 256 s!"bindings[{index}].deviceId")
    let bindings ← validateBindings roleIds (index + 1) (id :: seen) inputs
    .ok ({ id, principalId, roleId, teamId, projectPrefix, environment, deviceGroup,
           deviceId, enabled := binding.enabled } :: bindings)

def validatePolicy (paths : Paths) (rolesInput : List RoleInput)
    (bindingsInput : List BindingInput) : Result EnterprisePolicy := do
  rejectIf (maxRoles < rolesInput.length ∨ maxBindings < bindingsInput.length)
    .enterprisePolicyCorrupt "Enterprise policy state shape is invalid."
  let ⟨roles, hroles, _⟩ ← validateRoles paths 0 [] rolesInput
  let bindings ← validateBindings (roles.map EnterpriseRole.id) 0 [] bindingsInput
  .ok { roles, bindings, roleIds_nodup := hroles }

-- ===== digests

def EnterpriseRole.toJson (role : EnterpriseRole) : Json :=
  .obj [("id", .str role.id), ("capabilities", .arr (role.capabilities.map fun p => .str p.val)),
    ("rootPrefixes", .arr (role.rootPrefixes.map .str)),
    ("maxRisk", .str role.maxRisk.text),
    ("environments", .arr (role.environments.map .str)),
    ("projectPrefixes", .arr (role.projectPrefixes.map .str)),
    ("deviceGroups", .arr (role.deviceGroups.map .str)),
    ("deviceIds", .arr (role.deviceIds.map .str))]

def EnterpriseBinding.toJson (binding : EnterpriseBinding) : Json :=
  let field (key : String) (value : Option String) : List (String × Json) :=
    (value.map fun text => (key, Json.str text)).toList
  .obj (([("id", .str binding.id), ("principalId", .str binding.principalId),
      ("roleId", .str binding.roleId)] : List (String × Json))
    ++ field "teamId" binding.teamId ++ field "projectPrefix" binding.projectPrefix
    ++ field "environment" binding.environment
    ++ field "deviceGroup" binding.deviceGroup ++ field "deviceId" binding.deviceId
    ++ [("enabled", Json.bool binding.enabled)])

def enterprisePolicyDigest (cfg : PolicyConfig) (policy : EnterprisePolicy) : Hex64 :=
  let roles := policy.roles.insertionSort fun a b => cfg.localeLe a.id b.id = true
  let bindings := policy.bindings.insertionSort fun a b => cfg.localeLe a.id b.id = true
  cfg.sha256 (Json.stringify (.obj [("version", .num "1"),
    ("roles", .arr (roles.map EnterpriseRole.toJson)),
    ("bindings", .arr (bindings.map EnterpriseBinding.toJson))]))

def enterprisePolicyRecordDigest (cfg : PolicyConfig) (state : EnterprisePolicyState) : Hex64 :=
  cfg.sha256 (Json.stringify (.obj [("version", .num "2"),
    ("generation", .num (toString state.generation)),
    ("policyDigest", .str (enterprisePolicyDigest cfg state.toEnterprisePolicy).val)]))

def validateState (cfg : PolicyConfig) (file : PolicyFile) :
    Result EnterprisePolicyState :=
  match file with
  | .legacy roles bindings => do
    let policy ← validatePolicy cfg.paths roles bindings
    .ok { policy with generation := 1 }
  | .current generation roles bindings recordDigest =>
    match generation.safeFrom? 0, hex64? recordDigest with
    | some generation, some recordDigest => do
      let policy ← validatePolicy cfg.paths roles bindings
      let state : EnterprisePolicyState := { policy with generation }
      rejectIf (recordDigest ≠ enterprisePolicyRecordDigest cfg state)
        .enterprisePolicyCorrupt
        "Enterprise policy generation or content integrity check failed."
      rejectIf (generation = 0 ∧ (state.roles ≠ [] ∨ state.bindings ≠ []))
        .enterprisePolicyCorrupt
        "Configured enterprise policy requires a positive generation."
      .ok state
    | _, _ => fail .enterprisePolicyCorrupt
        "Enterprise policy state shape is invalid."

/-- `#read()`: no file is the empty policy. -/
def readPolicy (cfg : PolicyConfig) (file : Option PolicyFile) :
    Result EnterprisePolicyState :=
  match file with
  | none => .ok { roles := [], bindings := [], roleIds_nodup := List.nodup_nil,
                  generation := 0 }
  | some file => validateState cfg file

-- ===== narrow

structure Context where
  principalId : String
  teamIds : List String
  projectKey : Option String
  environment : Option String
  deviceId : Option String
  deviceGroups : List String

def normalizeContext (input : EnterpriseAuthorizationContext) : Result Context := do
  let principalId ← bounded input.principalId 512 "principalId"
  let teamIds ← uniqueIds (input.teamIds.getD []) 256 "teamIds"
  let projectKey ← input.projectKey.mapM (bounded · 512 "projectKey")
  let environment ← input.environment.mapM (idValue · "environment")
  let deviceId ← input.deviceId.mapM (bounded · 256 "deviceId")
  let deviceGroups ← uniqueIds (input.deviceGroups.getD []) 256 "deviceGroups"
  .ok { principalId, teamIds, projectKey, environment, deviceId, deviceGroups }

def withinProjectPrefix (projectKey scope : String) : Bool :=
  projectKey == scope
    || if [':'].isSuffixOf scope.toList || ['/'].isSuffixOf scope.toList then
        scope.toList.isPrefixOf projectKey.toList
      else (scope.toList ++ [':']).isPrefixOf projectKey.toList
        || (scope.toList ++ ['/']).isPrefixOf projectKey.toList

/-- The filters a binding has to pass. -/
def bindingMatches (context : Context) (binding : EnterpriseBinding) : Bool :=
  binding.enabled && binding.principalId == context.principalId
    && binding.teamId.all (context.teamIds.contains ·)
    && binding.projectPrefix.all (fun scope =>
        context.projectKey.any (withinProjectPrefix · scope))
    && binding.environment.all (fun env => context.environment == some env)
    && binding.deviceGroup.all (context.deviceGroups.contains ·)
    && binding.deviceId.all (fun id => context.deviceId == some id)

/-- The filters the role of a binding has to pass. -/
def roleAllows (context : Context) (role : EnterpriseRole) : Bool :=
  (role.environments.isEmpty || context.environment.any (role.environments.contains ·))
    && (role.projectPrefixes.isEmpty || context.projectKey.any fun key =>
        role.projectPrefixes.any (withinProjectPrefix key ·))
    && (role.deviceGroups.isEmpty
        || role.deviceGroups.any (context.deviceGroups.contains ·))
    && (role.deviceIds.isEmpty || context.deviceId.any (role.deviceIds.contains ·))

/-- `[...new Map(roles by id).values()]`. -/
def distinctRoles : List EnterpriseRole → List EnterpriseRole
  | [] => []
  | role :: roles => role :: (distinctRoles roles).filter fun r => r.id != role.id

def intersectCapabilityPattern (left right : String) : Option String :=
  if left = right then some left
  else
    match isWildcard left, isWildcard right with
    | true, false =>
      if (wildcardStem left).isPrefixOf right.toList then some right else none
    | false, true =>
      if (wildcardStem right).isPrefixOf left.toList then some left else none
    | true, true =>
      if (wildcardStem right).isPrefixOf (wildcardStem left) then some left
      else if (wildcardStem left).isPrefixOf (wildcardStem right) then some right
      else none
    | false, false => none

/-- `intersectCapabilities(base, enterprise)`; an empty text is falsy and
not added. -/
def intersectCapabilities (base enterprise : List String) : List String :=
  union (base.flatMap fun left => enterprise.filterMap fun right =>
    (intersectCapabilityPattern left right).filter fun text => text != "")

/-- The two directions of a pair of roots. -/
def intersectRoot (paths : Paths) (baseRoot policyRoot : String) : Option String :=
  if paths.isWithin baseRoot policyRoot then some baseRoot
  else if paths.isWithin policyRoot baseRoot then some policyRoot
  else none

def intersectRoots (paths : Paths) (baseRoots enterpriseRoots : List String) : List String :=
  let base := baseRoots.map paths.resolve
  if enterpriseRoots.isEmpty then union base
  else if base.isEmpty then union (enterpriseRoots.map paths.resolve)
  else union (base.flatMap fun baseRoot => enterpriseRoots.filterMap fun root =>
    intersectRoot paths baseRoot (paths.resolve root))

/-- One cell of the projection check: a single role covers the target
whole. -/
def roleCovers (paths : Paths) (capability : String) (target : Option String)
    (risk : ActionRisk) (role : EnterpriseRole) : Bool :=
  riskOrder risk ≤ riskOrder role.maxRisk
    && role.capabilities.any (fun pattern => ruleCovers pattern.val capability)
    && (role.rootPrefixes.isEmpty
        || target.any fun target => role.rootPrefixes.any fun root =>
          paths.isWithin target (paths.resolve root))

def assertRoleProjectionSafe (paths : Paths) (roles : List EnterpriseRole)
    (capabilities roots : List String) (risk : ActionRisk) :
    Result Unit :=
  if roles.length < 2 then .ok ()
  else do
    rejectIf (16384 < capabilities.length * max 1 roots.length)
      .enterpriseAuthorityDenied
      "Combined role grant projection exceeds safe validation limits."
    let targets := if roots.isEmpty then [none] else roots.map some
    rejectIf (¬ capabilities.all fun capability => targets.all fun target =>
        roles.any (roleCovers paths capability target risk))
      .enterpriseAuthorityDenied
      "Combined enterprise roles cannot be flattened without expanding capability, root or risk authority."

def highestRisk (roles : List EnterpriseRole) : ActionRisk :=
  roles.foldl (fun current role =>
    if riskOrder current < riskOrder role.maxRisk then role.maxRisk else current) .read

def grantsOf (policy : EnterprisePolicy) (context : Context) :
    List (EnterpriseBinding × EnterpriseRole) :=
  ((policy.bindings.filter (bindingMatches context)).filterMap fun binding =>
    (policy.roles.find? (fun role => role.id == binding.roleId)).map (binding, ·)).filter
      fun grant => roleAllows context grant.2

def narrowIn (cfg : PolicyConfig) (state : EnterprisePolicyState)
    (base : PermissionProfile) (contextInput : EnterpriseAuthorizationContext) :
    Result EnterprisePermissionDecision := do
  let context ← normalizeContext contextInput
  rejectIf ((state.bindings.filter (bindingMatches context)).isEmpty)
    .enterpriseAuthorityDenied "No enterprise role binding authorizes this context."
  let grants := grantsOf state.toEnterprisePolicy context
  rejectIf grants.isEmpty .enterpriseAuthorityDenied
    "Enterprise role constraints do not authorize this context."
  let roles := distinctRoles (grants.map (·.2))
  let enterpriseCapabilities :=
    union (roles.flatMap fun role => role.capabilities.map (·.val))
  let allowedCapabilities :=
    intersectCapabilities base.allowedCapabilities enterpriseCapabilities
  rejectIf allowedCapabilities.isEmpty .enterpriseAuthorityDenied
    "Enterprise policy intersection grants no capabilities."
  let rootPrefixes := (union (roles.flatMap (·.rootPrefixes))).map cfg.paths.resolve
  let allowedRoots := intersectRoots cfg.paths base.allowedRoots rootPrefixes
  rejectIf (base.allowedRoots ≠ [] ∧ rootPrefixes ≠ [] ∧ allowedRoots.isEmpty)
    .enterpriseAuthorityDenied "Enterprise policy intersection grants no filesystem roots."
  let roleMaxRisk := highestRisk roles
  let baseMaxRisk := base.maxRisk.getD .destructive
  let maxRisk :=
    if riskOrder roleMaxRisk ≤ riskOrder baseMaxRisk then roleMaxRisk else baseMaxRisk
  assertRoleProjectionSafe cfg.paths roles allowedCapabilities allowedRoots maxRisk
  .ok {
    roleIds := Json.sortTexts (roles.map (·.id))
    bindingIds := Json.sortTexts (grants.map (·.1.id))
    permissions := { base with
      allowedCapabilities
      allowedRoots
      maxRisk := some maxRisk
      allowExternalWrites := base.allowExternalWrites && riskOrder .external ≤ riskOrder maxRisk
      allowSystemChanges := base.allowSystemChanges && riskOrder .system ≤ riskOrder maxRisk
      allowDestructive := base.allowDestructive && riskOrder .destructive ≤ riskOrder maxRisk
      enterprisePolicyDigest := some (enterprisePolicyDigest cfg state.toEnterprisePolicy)
      enterprisePolicyGeneration := some state.generation } }

/-- `narrow(base, context)` over the stored file. -/
def narrow (cfg : PolicyConfig) (file : Option PolicyFile) (base : PermissionProfile)
    (context : EnterpriseAuthorizationContext) :
    Result EnterprisePermissionDecision := do
  let state ← readPolicy cfg file
  narrowIn cfg state base context

end OperatorRuntime.Policy
