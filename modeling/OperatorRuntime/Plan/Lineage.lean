/-
What a plan runtime signs off: the canonical text and digest of a record
(`lineage.ts`), the lineage of decisions, completion receipts
(`commit-protocol.ts`) and revision proofs (`plan-revision.ts`).

`canonical` writes the keys of every object in order and an `undefined`
value as the text `__undefined__`. None of the keys is an array index, so
on the JSON of a record, with that text in its place, it is
`Json.canonicalJson`.
-/
import OperatorRuntime.JsonText
import OperatorRuntime.Plan.Graph

namespace OperatorRuntime.Plan

/-- What the package takes from its platform: SHA-256, the text of a
number, and the collation of `localeCompare`. -/
structure PlanConfig where
  sha256 : String → Hex64
  numText : ℚ → String
  numText_isNumberText : ∀ q, Json.isNumberText (numText q) = true
  localeLe : String → String → Bool
  localeLe_total : ∀ a b, localeLe a b = true ∨ localeLe b a = true
  localeLe_trans : ∀ a b c, localeLe a b = true → localeLe b c = true → localeLe a c = true

-- ===== timestamps

def daysInMonth (year : Int) (month : Nat) : Nat :=
  if month = 2 then
    if year % 4 = 0 ∧ (year % 100 ≠ 0 ∨ year % 400 = 0) then 29 else 28
  else if month = 4 ∨ month = 6 ∨ month = 9 ∨ month = 11 then 30
  else 31

/-- The value of a run of digits. -/
def digits? (cs : List Char) : Option Nat :=
  if cs.all Char.isDigit then
    some (cs.foldl (fun n d => 10 * n + (d.toNat - 48)) 0)
  else none

/-- The rest of a timestamp after its year, at the two ends of the range of
`Date` too. -/
def isIsoRest (year : Int) (rest : List Char) : Bool :=
  match rest with
  | ['-', m, m', '-', d, d', 'T', h, h', ':', n, n', ':', s, s', '.', f, f', f'', 'Z'] =>
    match digits? [m, m'], digits? [d, d'], digits? [h, h'], digits? [n, n'],
        digits? [s, s'], digits? [f, f', f''] with
    | some month, some day, some hour, some minute, some second, some ms =>
      1 ≤ month && month ≤ 12 && 1 ≤ day && day ≤ daysInMonth year month
        && hour < 24 && minute < 60 && second < 60
        && (year < 275760 || (year == 275760 && (month < 9 || (month == 9
          && (day < 13 || (day == 13 && hour + minute + second + ms == 0))))))
        && (-271821 < year || (year == -271821 && (4 < month || (month == 4 && 20 ≤ day))))
    | _, _, _, _, _, _ => false
  | _ => false

/-- `new Date(Date.parse(text)).toISOString() === text`. -/
def isIso (text : String) : Bool :=
  match text.toList with
  | '+' :: a :: b :: c :: d :: e :: f :: rest =>
    (digits? [a, b, c, d, e, f]).any fun year => 10000 ≤ year && isIsoRest year rest
  | '-' :: a :: b :: c :: d :: e :: f :: rest =>
    (digits? [a, b, c, d, e, f]).any fun year => 1 ≤ year && isIsoRest (-year) rest
  | a :: b :: c :: d :: rest =>
    (digits? [a, b, c, d]).any fun year => isIsoRest year rest
  | _ => false

def validIso (value label : String) : Except String String := do
  throwIf (isIso value = false) (label ++ " must be ISO timestamp.")
  .ok value

-- ===== JSON of records

def optField {α : Type} (key : String) (value : Option α) (toJson : α → Json) :
    List (String × Json) :=
  (value.map fun a => (key, toJson a)).toList

def natJson (n : Nat) : Json :=
  .num (toString n)

/-- A slot, as `canonical` writes it. -/
def Slot.field (key : String) : Slot String → List (String × Json)
  | .absent => []
  | .undef => [(key, .str "__undefined__")]
  | .val text => [(key, .str text)]

def GoalConstraint.toJson (c : GoalConstraint) : Json :=
  .obj (([("id", .str c.id), ("strength", .str c.strength.text),
      ("factKey", .str c.factKey)] : List (String × Json))
    ++ optField "expectedValueDigest" c.expectedValueDigest .str
    ++ [("description", Json.str c.description)])

def CompiledGoal.toJson (goal : CompiledGoal) : Json :=
  .obj [("id", .str goal.id), ("kind", .str goal.kind), ("objective", .str goal.objective),
    ("successFactKeys", texts goal.successFactKeys),
    ("forbiddenFactKeys", texts goal.forbiddenFactKeys),
    ("constraints", .arr (goal.constraints.map GoalConstraint.toJson)),
    ("unresolvedAssumptions", texts goal.unresolvedAssumptions)]

def PlanPrecondition.toJson (cfg : PlanConfig) (p : PlanPrecondition) : Json :=
  .obj ([("factKey", Json.str p.factKey)] ++ optField "expectedValueDigest" p.expectedValueDigest .str
    ++ optField "minimumConfidence" p.minimumConfidence (fun q => .num (cfg.numText q))
    ++ optField "allowStale" p.allowStale .bool)

def PlanNode.toJson (cfg : PlanConfig) (node : PlanNode) : Json :=
  .obj (([("id", .str node.id), ("kind", .str node.kind.text),
      ("title", .str node.title)] : List (String × Json))
    ++ optField "parentId" node.parentId .str
    ++ [("dependsOn", texts node.dependsOn)]
    ++ optField "choiceGroup" node.choiceGroup .str
    ++ ([("preconditions", .arr (node.preconditions.map (·.toJson cfg))),
      ("expectedEffects", texts node.expectedEffects),
      ("verificationFactKeys", texts node.verificationFactKeys),
      ("allowedCapabilities", texts node.allowedCapabilities),
      ("expectedCost", .num (cfg.numText node.expectedCost)),
      ("risk", .num (cfg.numText node.risk)),
      ("reversible", .bool node.reversible),
      ("maxAttempts", natJson node.maxAttempts)] : List (String × Json)))

def PlanGraph.toJson (cfg : PlanConfig) (graph : PlanGraph) : Json :=
  .obj [("planId", .str graph.planId), ("goalId", .str graph.goalId),
    ("version", natJson graph.version), ("rootNodeIds", texts graph.rootNodeIds),
    ("nodes", .arr (graph.nodes.map (·.toJson cfg)))]

def PlanNodeState.toJson (s : PlanNodeState) : Json :=
  .obj (([("nodeId", .str s.nodeId), ("status", .str s.status.text),
      ("attempts", natJson s.attempts)] : List (String × Json))
    ++ s.lastReason.field "lastReason"
    ++ s.lastExecutionDigest.field "lastExecutionDigest"
    ++ s.verificationReceiptDigest.field "verificationReceiptDigest"
    ++ s.verifiedNodeDigest.field "verifiedNodeDigest"
    ++ [("lastUpdatedAt", Json.str s.lastUpdatedAt)])

def digestPlan (cfg : PlanConfig) (value : Json) : String :=
  (cfg.sha256 (Json.canonicalJson value)).val

-- ===== decisions

inductive DecisionKind
  | branch
  | execution
  | repair
  | commit
  | infeasible
deriving DecidableEq

def DecisionKind.text : DecisionKind → String
  | .branch => "BRANCH"
  | .execution => "EXECUTION"
  | .repair => "REPAIR"
  | .commit => "COMMIT"
  | .infeasible => "INFEASIBLE"

/-- `PlanDecisionLineage`. -/
structure PlanDecision where
  digest : String
  planId : String
  planVersion : Nat
  planDigest : String
  goalId : String
  nodeId : String
  beliefDigest : String
  decisionKind : DecisionKind
  decisionId : String
  createdAt : String
deriving DecidableEq

/-- What the digest of a decision is taken of. -/
def PlanDecision.body (d : PlanDecision) : Json :=
  .obj [("planId", .str d.planId), ("planVersion", natJson d.planVersion),
    ("planDigest", .str d.planDigest), ("goalId", .str d.goalId),
    ("nodeId", .str d.nodeId), ("beliefDigest", .str d.beliefDigest),
    ("decisionKind", .str d.decisionKind.text), ("decisionId", .str d.decisionId),
    ("createdAt", .str d.createdAt)]

/-- `normalizeBody(input)`, with the digest of the input. -/
def normalizeDecision (input : PlanDecision) : Except String PlanDecision := do
  throwIf (isIso input.createdAt = false) "createdAt must be ISO timestamp."
  let planId ← bounded input.planId 256 "planId"
  let planVersion ← integer input.planVersion 1 maxSafeInteger "planVersion"
  let planDigest ← digestText input.planDigest "planDigest"
  let goalId ← bounded input.goalId 256 "goalId"
  let nodeId ← bounded input.nodeId 256 "nodeId"
  let beliefDigest ← digestText input.beliefDigest "beliefDigest"
  let decisionId ← bounded input.decisionId 512 "decisionId"
  .ok { input with planId, planVersion, planDigest, goalId, nodeId, beliefDigest,
                   decisionId }

def validateDecisionLineage (cfg : PlanConfig) (input : PlanDecision) :
    Except String PlanDecision := do
  let normalized ← normalizeDecision input
  let actual ← digestText input.digest "decision.digest"
  throwIf (actual ≠ digestPlan cfg normalized.body)
    "decision lineage digest does not match content."
  .ok { normalized with digest := actual }

-- ===== receipts

/-- `VerificationReceiptRef`. -/
structure VerificationReceipt where
  digest : String
  goalId : String
  planId : String
  planVersion : Nat
  nodeId : String
  attempt : Nat
  executionDigest : String
  verifierId : String
  verifiedAt : String
  authoritySnapshotDigest : String
deriving DecidableEq

def VerificationReceipt.toJson (r : VerificationReceipt) : Json :=
  .obj [("digest", .str r.digest), ("goalId", .str r.goalId),
    ("planId", .str r.planId), ("planVersion", natJson r.planVersion),
    ("nodeId", .str r.nodeId), ("attempt", natJson r.attempt),
    ("executionDigest", .str r.executionDigest), ("verifierId", .str r.verifierId),
    ("verifiedAt", .str r.verifiedAt),
    ("authoritySnapshotDigest", .str r.authoritySnapshotDigest)]

/-- What a receipt has to be bound to. -/
structure CompletionLineage where
  goalId : String
  planId : String
  planVersion : Nat
  nodeId : String
  attempt : Nat
  executionDigest : String

def validateCompletionReceipt (receipt : VerificationReceipt)
    (expected : CompletionLineage) : Except String VerificationReceipt := do
  let digest ← digestText receipt.digest "receipt.digest"
  let goalId ← bounded receipt.goalId 256 "receipt.goalId"
  let planId ← bounded receipt.planId 256 "receipt.planId"
  let planVersion ← integer receipt.planVersion 1 maxSafeInteger "receipt.planVersion"
  let nodeId ← bounded receipt.nodeId 256 "receipt.nodeId"
  let attempt ← integer receipt.attempt 1 100 "receipt.attempt"
  let executionDigest ← digestText receipt.executionDigest "receipt.executionDigest"
  let verifierId ← bounded receipt.verifierId 512 "receipt.verifierId"
  let verifiedAt ← validIso receipt.verifiedAt "receipt.verifiedAt"
  let authoritySnapshotDigest ←
    digestText receipt.authoritySnapshotDigest "receipt.authoritySnapshotDigest"
  throwIf (goalId ≠ expected.goalId ∨ planId ≠ expected.planId
      ∨ planVersion ≠ expected.planVersion ∨ nodeId ≠ expected.nodeId
      ∨ attempt ≠ expected.attempt ∨ executionDigest ≠ expected.executionDigest)
    "verification receipt is bound to different plan/node/attempt/execution lineage."
  .ok { digest, goalId, planId, planVersion, nodeId, attempt, executionDigest,
        verifierId, verifiedAt, authoritySnapshotDigest }

-- ===== revision proofs

structure PreservedNodeDigest where
  nodeId : String
  nodeDigest : String
deriving DecidableEq

structure PlanRevisionProof where
  digest : String
  planId : String
  goalId : String
  fromVersion : Nat
  toVersion : Nat
  fromPlanDigest : String
  toPlanDigest : String
  preservedNodeDigests : List PreservedNodeDigest
  resetNodeIds : List String
  createdAt : String
deriving DecidableEq

/-- What the digest of a proof is taken of. -/
def PlanRevisionProof.body (p : PlanRevisionProof) : Json :=
  .obj [("planId", .str p.planId), ("goalId", .str p.goalId),
    ("fromVersion", natJson p.fromVersion), ("toVersion", natJson p.toVersion),
    ("fromPlanDigest", .str p.fromPlanDigest), ("toPlanDigest", .str p.toPlanDigest),
    ("preservedNodeDigests", .arr (p.preservedNodeDigests.map fun e =>
      .obj [("nodeId", .str e.nodeId), ("nodeDigest", .str e.nodeDigest)])),
    ("resetNodeIds", texts p.resetNodeIds), ("createdAt", .str p.createdAt)]

/-- `.sort((a, b) => a.nodeId.localeCompare(b.nodeId))`. -/
def sortPreserved (cfg : PlanConfig) (entries : List PreservedNodeDigest) :
    List PreservedNodeDigest :=
  entries.insertionSort fun a b => cfg.localeLe a.nodeId b.nodeId = true

/-- `normalizeProofBody(input)`, with the digest of the input. -/
def normalizeProof (cfg : PlanConfig) (input : PlanRevisionProof) :
    Except String PlanRevisionProof := do
  let fromVersion ← integer input.fromVersion 1 maxSafeInteger "revision.fromVersion"
  let toVersion ← integer input.toVersion 2 maxSafeInteger "revision.toVersion"
  throwIf (toVersion ≠ fromVersion + 1) "revision proof versions must be consecutive."
  let preserved ← input.preservedNodeDigests.mapM fun entry => do
    let nodeId ← bounded entry.nodeId 256 "revision.nodeId"
    let nodeDigest ← digestText entry.nodeDigest "revision.nodeDigest"
    .ok (PreservedNodeDigest.mk nodeId nodeDigest)
  let preserved := sortPreserved cfg preserved
  throwIf (¬ (preserved.map (·.nodeId)).Nodup)
    "revision preserved node ids must be unique."
  let planId ← bounded input.planId 256 "revision.planId"
  let goalId ← bounded input.goalId 256 "revision.goalId"
  let fromPlanDigest ← digestText input.fromPlanDigest "revision.fromPlanDigest"
  let toPlanDigest ← digestText input.toPlanDigest "revision.toPlanDigest"
  let resetNodeIds ← textList input.resetNodeIds 256 "revision.resetNodeId"
  let createdAt ← validIso input.createdAt "revision.createdAt"
  .ok { input with fromVersion, toVersion, preservedNodeDigests := preserved, planId,
                   goalId, fromPlanDigest, toPlanDigest, resetNodeIds, createdAt }

def validateRevisionProof (cfg : PlanConfig) (input : PlanRevisionProof) :
    Except String PlanRevisionProof := do
  let normalized ← normalizeProof cfg input
  let actual ← digestText input.digest "revision.digest"
  throwIf (actual ≠ digestPlan cfg normalized.body)
    "plan revision proof digest does not match content."
  .ok { normalized with digest := actual }

/-- `createRevisionProof(input)`: the digest of the input is not read. -/
def createRevisionProof (cfg : PlanConfig) (input : PlanRevisionProof) :
    Except String PlanRevisionProof := do
  let normalized ← normalizeProof cfg input
  .ok { normalized with digest := digestPlan cfg normalized.body }

end OperatorRuntime.Plan
