/-
`core/principal-delegation.ts`: principals, the delegations between them,
and the check that no delegation hands on more than its parent holds.

A grant lists capability patterns and resource prefixes; an empty list of
prefixes stands for every resource. `rootAuthority` is a record, read by
principal only, so it is a function. `effectiveGrant`, the flattened view
of the sources, has a module of its own.
-/
import OperatorRuntime.Policy.Enterprise
import OperatorRuntime.StateFile

namespace OperatorRuntime.Principals

open Policy (riskOrder ruleCovers isCapabilityPattern union)

-- ===== records

inductive PrincipalKind
  | human
  | service
  | agent
  | subagent
  | workflow
  | device
  | organization
  | project
  | environment
deriving DecidableEq

structure Principal where
  id : String
  kind : PrincipalKind
  enabled : Bool

/-- A caller's time text: the instant it is the canonical text of. -/
abbrev IsoText := Option Instant

structure AuthorityGrant where
  capabilities : List String
  resourcePrefixes : List String
  maxRisk : ActionRisk
  expiresAt : Option IsoText
deriving DecidableEq

structure Delegation where
  id : String
  parentPrincipalId : String
  childPrincipalId : String
  purpose : String
  grant : AuthorityGrant
  createdAt : IsoText

structure PrincipalDelegationGraph where
  principals : List Principal
  delegations : List Delegation

/-- `rootAuthority[principalId]`. -/
abbrev RootAuthority := String → Option AuthorityGrant

-- ===== validators

variable {α : Type}

def invalid (message : String) : Result α :=
  fail .delegationGraphInvalid message

/-- `[A-Za-z0-9._:@-]`. -/
def isIdChar (c : Char) : Bool :=
  isAlnum c || c == '.' || c == '_' || c == ':' || c == '@' || c == '-'

def id (v l : String) : Result String := do
  rejectIf (¬ (1 ≤ v.toList.length ∧ v.toList.length ≤ 256
      ∧ v.toList.all isIdChar = true)) .delegationGraphInvalid s!"{l} is invalid."
  .ok v

def trim (text : String) : String :=
  String.ofList ((text.toList.dropWhile isBlank).reverse.dropWhile isBlank).reverse

def text (v : String) (max : Nat) (l : String) : Result String := do
  rejectIf (v.toList.all isBlank = true ∨ max < v.utf8ByteSize ∨ includesChar v '\x00' = true)
    .delegationGraphInvalid s!"{l} is invalid."
  .ok v

def pattern (v : String) : Result String := do
  let s ← text v 256 "capability"
  rejectIf (isCapabilityPattern s = false) .delegationGraphInvalid
    "Capability pattern is invalid."
  .ok s

def iso (v : IsoText) (l : String) : Result IsoText :=
  match v with
  | some at' => .ok (some at')
  | none => invalid s!"{l} must be canonical ISO."

def validateAuthorityGrant (g : AuthorityGrant) : Result AuthorityGrant := do
  rejectIf (512 < g.capabilities.length ∨ 2048 < g.resourcePrefixes.length)
    .delegationGraphInvalid "Authority grant is invalid."
  let capabilities ← g.capabilities.mapM pattern
  let resourcePrefixes ← g.resourcePrefixes.mapM fun v => text v 4096 "resource prefix"
  let expiresAt ← g.expiresAt.mapM (iso · "expiresAt")
  .ok
    { capabilities := union capabilities, resourcePrefixes := union resourcePrefixes
      maxRisk := g.maxRisk, expiresAt }

def normalizePrincipal (p : Principal) : Result Principal := do
  let id ← id p.id "principal id"
  .ok { p with id }

def normalizeDelegation (d : Delegation) : Result Delegation := do
  let id' ← id d.id "delegation id"
  let parentPrincipalId ← id d.parentPrincipalId "parent principal"
  let childPrincipalId ← id d.childPrincipalId "child principal"
  let purpose ← text d.purpose 1024 "purpose"
  let grant ← validateAuthorityGrant d.grant
  let createdAt ← iso d.createdAt "createdAt"
  .ok { id := id', parentPrincipalId, childPrincipalId, purpose, grant, createdAt }

-- ===== attenuation

def matchesCapability (child parent : String) : Bool :=
  ruleCovers parent child

/-- `parent.endsWith(mark) ? parent : parent + mark`, as characters. -/
def markedStem (mark : Char) (parent : String) : List Char :=
  if [mark].isSuffixOf parent.toList then parent.toList else parent.toList ++ [mark]

def withinPrefix (child parent : String) : Bool :=
  child == parent || (markedStem '/' parent).isPrefixOf child.toList
    || (markedStem ':' parent).isPrefixOf child.toList

/-- `!child.expiresAt || Date.parse(child.expiresAt) > limit`. -/
def outlasts (child : AuthorityGrant) (limit : Instant) : Bool :=
  child.expiresAt.join.all fun e => limit.val < e.val

def assertAttenuates (parentInput childInput : AuthorityGrant) (label : String) :
    Result Unit := do
  let parent ← validateAuthorityGrant parentInput
  let child ← validateAuthorityGrant childInput
  rejectIf (riskOrder parent.maxRisk < riskOrder child.maxRisk) .delegationGraphInvalid
    s!"{label} expands risk authority."
  rejectIf (∃ cap ∈ child.capabilities, ¬ ∃ rule ∈ parent.capabilities,
      matchesCapability cap rule = true) .delegationGraphInvalid
    s!"{label} expands capability authority."
  rejectIf (∃ resource ∈ child.resourcePrefixes, 0 < parent.resourcePrefixes.length
      ∧ ¬ ∃ outer ∈ parent.resourcePrefixes, withinPrefix resource outer = true)
    .delegationGraphInvalid s!"{label} expands resource authority."
  rejectIf (∃ limit ∈ parent.expiresAt.join, outlasts child limit = true)
    .delegationGraphInvalid s!"{label} expands authority lifetime."

def assertAttenuatesAny (parents : List AuthorityGrant) (child : AuthorityGrant)
    (label : String) : Result Unit :=
  match parents with
  | [] => invalid s!"{label} expands authority beyond every complete parent grant."
  | parent :: rest =>
    match assertAttenuates parent child label with
    | .ok () => .ok ()
    | .error _ => assertAttenuatesAny rest child label

-- ===== sources

/-- The grant of a delegation, once a source of its parent covers it. -/
def delegatedGrant (parentSources : List AuthorityGrant) (d : Delegation) :
    Result AuthorityGrant := do
  assertAttenuatesAny parentSources d.grant d.id
  validateAuthorityGrant d.grant

/-- `effectiveGrantSources` with a budget of nested calls. A chain of more
calls than there are delegations meets a principal twice, so the budget of
`effectiveGrantSources` is never what stops it. -/
def grantSources (delegations : List Delegation) (rootAuthority : RootAuthority) :
    Nat → List String → String → Result (List AuthorityGrant)
  | 0, _, _ => invalid "Delegation graph contains a cycle."
  | budget + 1, visiting, principalId => do
    rejectIf (principalId ∈ visiting) .delegationGraphInvalid
      "Delegation graph contains a cycle."
    let root ← (rootAuthority principalId).toList.mapM validateAuthorityGrant
    let granted ← (delegations.filter (·.childPrincipalId = principalId)).mapM fun d => do
      let parentSources ← grantSources delegations rootAuthority budget
        (principalId :: visiting) d.parentPrincipalId
      delegatedGrant parentSources d
    rejectIf ((root ++ granted).length = 0) .delegationGraphInvalid
      s!"Principal {principalId} has no authority source."
    .ok (root ++ granted)

/-- `effectiveGrantSources(principalId, delegations, rootAuthority, new Set())`. -/
def effectiveGrantSources (principalId : String) (delegations : List Delegation)
    (rootAuthority : RootAuthority) : Result (List AuthorityGrant) :=
  grantSources delegations rootAuthority (delegations.length + 1) [] principalId

-- ===== graph

/-- `visit(idv)` of `assertAcyclic`; it answers the new `done`. As above,
the budget is never what stops it. -/
def visit (ds : List Delegation) :
    Nat → List String → List String → String → Result (List String)
  | 0, _, _, _ => invalid "Delegation graph contains a cycle."
  | budget + 1, visiting, done, idv => do
    if idv ∈ done then .ok done
    else
      rejectIf (idv ∈ visiting) .delegationGraphInvalid "Delegation graph contains a cycle."
      let done ← ((ds.filter (·.parentPrincipalId = idv)).map (·.childPrincipalId)).foldlM
        (visit ds budget (idv :: visiting)) done
      .ok (idv :: done)

/-- `assertAcyclic(ds)`; a parent that stands before is done. -/
def assertAcyclic (ds : List Delegation) : Result Unit := do
  let _ ← (ds.map (·.parentPrincipalId)).foldlM (visit ds (ds.length + 2) []) []
  .ok ()

/-- The loop of `validatePrincipalDelegationGraph` over one principal. -/
def checkPrincipal (delegations : List Delegation) (rootAuthority : RootAuthority)
    (principal : Principal) : Result Unit := do
  let roots := rootAuthority principal.id
  let _ ← roots.toList.mapM validateAuthorityGrant
  let parents := delegations.filter (·.childPrincipalId = principal.id)
  rejectIf (roots.isNone ∧ parents.length = 0) .delegationGraphInvalid
    s!"Principal {principal.id} has no authority source."
  parents.forM fun d => do
    let parentSources ← effectiveGrantSources d.parentPrincipalId delegations rootAuthority
    assertAttenuatesAny parentSources d.grant d.id

def validatePrincipalDelegationGraph (input : PrincipalDelegationGraph)
    (rootAuthority : RootAuthority) : Result PrincipalDelegationGraph := do
  rejectIf (100000 < input.principals.length ∨ 500000 < input.delegations.length)
    .delegationGraphInvalid "Delegation graph exceeds bounded size."
  let principals ← input.principals.mapM normalizePrincipal
  let ids := principals.map (·.id)
  rejectIf (¬ ids.Nodup) .delegationGraphInvalid "Principal IDs must be unique."
  let delegations ← input.delegations.mapM normalizeDelegation
  rejectIf (¬ (delegations.map (·.id)).Nodup) .delegationGraphInvalid
    "Delegation IDs must be unique."
  delegations.forM fun d => do
    rejectIf (d.parentPrincipalId ∉ ids ∨ d.childPrincipalId ∉ ids) .delegationGraphInvalid
      "Delegation references an unknown principal."
    rejectIf (d.parentPrincipalId = d.childPrincipalId) .delegationGraphInvalid
      "Self-delegation is not permitted."
  assertAcyclic delegations
  principals.forM (checkPrincipal delegations rootAuthority)
  .ok { principals, delegations }

/-
`effectiveGrant` of `core/principal-delegation.ts`: the sources of a principal
flattened into one grant. Expiries are compared as the texts they are.
-/

open Policy (riskOrder union)

/-- `expiries.sort().at(0)`. -/
def firstExpiry (expiries : List Instant) : Option Instant :=
  (expiries.insertionSort fun a b => Json.keyLe a.isoText b.isoText = true).head?

/-- The resource prefixes of the summary; none when a source has none. -/
def unionPrefixes (grants : List AuthorityGrant) : List String :=
  if grants.any (·.resourcePrefixes.isEmpty) then []
  else union (grants.flatMap (·.resourcePrefixes))

def leastRisk (grants : List AuthorityGrant) : ActionRisk :=
  grants.foldl (fun least g => if riskOrder g.maxRisk < riskOrder least then g.maxRisk else least)
    .destructive

/-- `resourcesForCheck`; `none` is `undefined`. -/
def resourcesForCheck (resourcePrefixes : List String) : List (Option String) :=
  if resourcePrefixes.isEmpty then [none] else resourcePrefixes.map some

/-- The test of one source for a capability and a resource of the summary. -/
def covers (maxRisk : ActionRisk) (capability : String) (resource : Option String)
    (source : AuthorityGrant) : Bool :=
  riskOrder maxRisk ≤ riskOrder source.maxRisk
    && source.capabilities.any (matchesCapability capability)
    && match resource with
      | none => source.resourcePrefixes.isEmpty
      | some resource =>
        source.resourcePrefixes.isEmpty || source.resourcePrefixes.any (withinPrefix resource)

def mergeUnion (grants : List AuthorityGrant) : Result AuthorityGrant := do
  let normalized ← grants.mapM validateAuthorityGrant
  let capabilities := union (normalized.flatMap (·.capabilities))
  let resourcePrefixes := unionPrefixes normalized
  let maxRisk := leastRisk normalized
  let expiries := normalized.filterMap (·.expiresAt.join)
  rejectIf (∃ capability ∈ capabilities, ∃ resource ∈ resourcesForCheck resourcePrefixes,
      ¬ normalized.any (covers maxRisk capability resource) = true) .delegationGraphInvalid
    "Effective authority sources cannot be flattened without creating cross-product authority."
  .ok { capabilities, resourcePrefixes, maxRisk, expiresAt := (firstExpiry expiries).map some }

def effectiveGrant (principalId : String) (delegations : List Delegation)
    (rootAuthority : RootAuthority) : Result AuthorityGrant := do
  let sources ← effectiveGrantSources principalId delegations rootAuthority
  mergeUnion sources

end OperatorRuntime.Principals
