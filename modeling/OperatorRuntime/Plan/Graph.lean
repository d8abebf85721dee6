/-
Goals and plan graphs of `packages/verified-plan-runtime`: the records of
`contracts.ts`, `compileGoal` of `goal-compiler.ts`, and `plan-graph.ts`
whole. The package throws plain errors, so a computation here fails with
the message alone.

Costs, risks and confidences are finite numbers; a number that is not
finite is refused before anything else is done with it.
-/
import Mathlib.Data.Rat.Defs
import OperatorRuntime.Json
import OperatorRuntime.Lib.Runs
import OperatorRuntime.Text

namespace OperatorRuntime.Plan

open Lib

-- ===== errors

/-- `if (bad) throw new Error(message)`. -/
def throwIf (bad : Prop) [Decidable bad] (message : String) : Except String Unit :=
  if bad then .error message else .ok ()

@[simp] theorem throwIf_eq_ok {bad : Prop} [Decidable bad] {message : String} {u : Unit} :
    throwIf bad message = .ok u ↔ ¬ bad := by
  by_cases h : bad
  · simp [throwIf, h]
  · simp [throwIf, h]

@[simp] theorem throwIf_of_not {bad : Prop} [Decidable bad] {message : String}
    (h : ¬ bad) : throwIf bad message = .ok () := if_neg h

-- ===== records

inductive EpistemicStatus
  | known
  | supported
  | conflicted
  | stale
  | unknown
  | unobservable
  | disproven
deriving DecidableEq

inductive ConstraintStrength
  | must
  | should
  | may
  | mustNot
deriving DecidableEq

def ConstraintStrength.text : ConstraintStrength → String
  | .must => "MUST"
  | .should => "SHOULD"
  | .may => "MAY"
  | .mustNot => "MUST_NOT"

structure GoalConstraint where
  id : String
  strength : ConstraintStrength
  factKey : String
  expectedValueDigest : Option String
  description : String

structure GoalDraft where
  id : String
  kind : String
  objective : String
  successFactKeys : List String
  forbiddenFactKeys : List String
  constraints : List GoalConstraint
  unresolvedAssumptions : List String

structure CompiledGoal where
  id : String
  kind : String
  objective : String
  successFactKeys : List String
  forbiddenFactKeys : List String
  constraints : List GoalConstraint
  unresolvedAssumptions : List String

structure BeliefView where
  factKey : String
  status : EpistemicStatus
  confidence : ℚ
  selectedValueDigest : Option String
  evidenceDigests : List String

inductive PlanNodeKind
  | goal
  | subgoal
  | observe
  | action
  | verify
  | decision
deriving DecidableEq

def PlanNodeKind.text : PlanNodeKind → String
  | .goal => "GOAL"
  | .subgoal => "SUBGOAL"
  | .observe => "OBSERVE"
  | .action => "ACTION"
  | .verify => "VERIFY"
  | .decision => "DECISION"

inductive PlanNodeStatus
  | pending
  | ready
  | running
  | blocked
  | invalidated
  | succeeded
  | failed
  | skipped
deriving DecidableEq

def PlanNodeStatus.text : PlanNodeStatus → String
  | .pending => "PENDING"
  | .ready => "READY"
  | .running => "RUNNING"
  | .blocked => "BLOCKED"
  | .invalidated => "INVALIDATED"
  | .succeeded => "SUCCEEDED"
  | .failed => "FAILED"
  | .skipped => "SKIPPED"

structure PlanPrecondition where
  factKey : String
  expectedValueDigest : Option String
  minimumConfidence : Option ℚ
  allowStale : Option Bool
deriving DecidableEq

structure PlanNode where
  id : String
  kind : PlanNodeKind
  title : String
  parentId : Option String
  dependsOn : List String
  choiceGroup : Option String
  preconditions : List PlanPrecondition
  expectedEffects : List String
  verificationFactKeys : List String
  allowedCapabilities : List String
  expectedCost : ℚ
  risk : ℚ
  reversible : Bool
  maxAttempts : Nat
deriving DecidableEq

structure PlanGraph where
  planId : String
  goalId : String
  version : Nat
  rootNodeIds : List String
  nodes : List PlanNode
deriving DecidableEq

/-- An optional field of a stored object: not there, there with the value
`undefined`, or there with a value. -/
inductive Slot (α : Type)
  | absent
  | undef
  | val (a : α)
deriving DecidableEq

/-- What reading the field gives. -/
def Slot.get? {α : Type} : Slot α → Option α
  | .val a => some a
  | _ => none

/-- The field as a condition: a text that is not empty. -/
def Slot.truthy (slot : Slot String) : Option String :=
  slot.get?.filter fun text => text != ""

structure PlanNodeState where
  nodeId : String
  status : PlanNodeStatus
  attempts : Nat
  lastReason : Slot String
  lastExecutionDigest : Slot String
  verificationReceiptDigest : Slot String
  verifiedNodeDigest : Slot String
  lastUpdatedAt : String
deriving DecidableEq

-- ===== validators

def unique (values : List String) : List String :=
  Json.sortTexts values.dedup

def bounded (value : String) (max : Nat) (label : String) : Except String String := do
  throwIf (value = "" ∨ max < Json.unitLength value) (label ++ " is invalid.")
  .ok value

/-- `sha256(value, label)`. -/
def digestText (value label : String) : Except String String :=
  match hex64? value with
  | some digest => .ok digest.val
  | none => .error (label ++ " must be SHA-256.")

def finite (value low high : ℚ) (label : String) : Except String ℚ := do
  throwIf (value < low ∨ high < value) (label ++ " is invalid.")
  .ok value

def unit (value : ℚ) (label : String) : Except String ℚ :=
  finite value 0 1 label

def integer (value low high : Nat) (label : String) : Except String Nat := do
  throwIf (value < low ∨ high < value) (label ++ " is invalid.")
  .ok value

/-- `value ? { key: normalize(value) } : {}`. -/
def ifPresent (value : Option String) (normalize : String → Except String String) :
    Except String (Option String) :=
  (value.filter fun text => text != "").mapM normalize

-- ===== compileGoal

def normalizeConstraint (input : GoalConstraint) : Except String GoalConstraint := do
  let id ← bounded input.id 256 "constraint.id"
  let factKey ← bounded input.factKey 512 "constraint.factKey"
  let expectedValueDigest ← ifPresent input.expectedValueDigest
    (digestText · "constraint.expectedValueDigest")
  let description ← bounded input.description 2048 "constraint.description"
  .ok { input with id, factKey, expectedValueDigest, description }

/-- The expected values of the constraints of one strength on a fact. -/
def constraintValues (constraints : List GoalConstraint) (strength : ConstraintStrength)
    (factKey : String) : List (Option String) :=
  (constraints.filter fun c => c.strength = strength ∧ c.factKey = factKey).map
    (·.expectedValueDigest)

def constraintFacts (constraints : List GoalConstraint) (strength : ConstraintStrength) :
    List String :=
  ((constraints.filter fun c => c.strength = strength).map (·.factKey)).eraseDups

def compileGoal (input : GoalDraft) : Except String CompiledGoal := do
  let success ← input.successFactKeys.mapM (bounded · 512 "successFactKey")
  let success := unique success
  throwIf (success.length = 0 ∨ 1000 < success.length)
    "goal requires 1-1000 success facts."
  let forbidden ← input.forbiddenFactKeys.mapM (bounded · 512 "forbiddenFactKey")
  let forbidden := unique forbidden
  let overlap := success.filter (· ∈ forbidden)
  throwIf (overlap ≠ []) ("goal facts cannot be both required and forbidden: "
    ++ String.intercalate ", " overlap)
  let constraints ← input.constraints.mapM normalizeConstraint
  throwIf (¬ (constraints.map (·.id)).Nodup) "constraint ids must be unique."
  (constraintFacts constraints .must).forM fun factKey =>
    throwIf (1 < ((constraintValues constraints .must factKey).filterMap id).dedup.length)
      ("conflicting MUST values for fact: " ++ factKey)
  (constraintFacts constraints .must).forM fun factKey =>
    let must := constraintValues constraints .must factKey
    let denied := constraintValues constraints .mustNot factKey
    throwIf (denied ≠ [] ∧ (none ∈ must ∨ none ∈ denied ∨ ∃ v ∈ must, v ∈ denied))
      ("contradictory hard constraints for fact: " ++ factKey)
  constraints.forM fun constraint => do
    throwIf (constraint.strength = .mustNot ∧ constraint.factKey ∈ success
        ∧ constraint.expectedValueDigest = none)
      ("hard MUST_NOT constraint contradicts required success fact: " ++ constraint.factKey)
    throwIf (constraint.strength = .must ∧ constraint.factKey ∈ forbidden
        ∧ constraint.expectedValueDigest = none)
      ("hard MUST constraint contradicts forbidden goal fact: " ++ constraint.factKey)
  let goalId ← bounded input.id 256 "goal.id"
  let kind ← bounded input.kind 256 "goal.kind"
  let objective ← bounded input.objective 16384 "goal.objective"
  let assumptions ← input.unresolvedAssumptions.mapM (bounded · 2048 "assumption")
  .ok { id := goalId, kind, objective, successFactKeys := success,
        forbiddenFactKeys := forbidden, constraints,
        unresolvedAssumptions := unique assumptions }

-- ===== validatePlanGraph

def normalizePrecondition (p : PlanPrecondition) : Except String PlanPrecondition := do
  let factKey ← bounded p.factKey 512 "precondition.factKey"
  let expectedValueDigest ← ifPresent p.expectedValueDigest
    (digestText · "precondition.expectedValueDigest")
  let minimumConfidence ← p.minimumConfidence.mapM
    (unit · "precondition.minimumConfidence")
  .ok { factKey, expectedValueDigest, minimumConfidence, allowStale := p.allowStale }

/-- No fact is expected to have two values. -/
def checkPreconditions (preconditions : List PlanPrecondition) : Except String Unit :=
  (preconditions.map (·.factKey)).eraseDups.forM fun factKey =>
    throwIf (1 < ((preconditions.filter fun p => p.factKey = factKey).filterMap
        (·.expectedValueDigest)).dedup.length)
      ("conflicting preconditions for fact: " ++ factKey)

def normalizePreconditions (input : List PlanPrecondition) :
    Except String (List PlanPrecondition) := do
  let normalized ← input.mapM normalizePrecondition
  checkPreconditions normalized
  .ok normalized

/-- A list field of a node. -/
def textList (input : List String) (max : Nat) (label : String) : Except String (List String) := do
  let values ← input.mapM (bounded · max label)
  .ok (unique values)

def normalizeNode (input : PlanNode) : Except String PlanNode := do
  let id ← bounded input.id 256 "node.id"
  let title ← bounded input.title 2048 "node.title"
  let parentId ← ifPresent input.parentId (bounded · 256 "node.parentId")
  let dependsOn ← textList input.dependsOn 256 "node.dependsOn"
  let choiceGroup ← ifPresent input.choiceGroup (bounded · 256 "node.choiceGroup")
  let preconditions ← normalizePreconditions input.preconditions
  let expectedEffects ← textList input.expectedEffects 512 "node.expectedEffect"
  let verificationFactKeys ←
    textList input.verificationFactKeys 512 "node.verificationFactKey"
  let allowedCapabilities ←
    textList input.allowedCapabilities 512 "node.allowedCapability"
  let expectedCost ← finite input.expectedCost 0 1000000000000 "node.expectedCost"
  let risk ← unit input.risk "node.risk"
  let maxAttempts ← integer input.maxAttempts 1 100 "node.maxAttempts"
  .ok { id, kind := input.kind, title, parentId, dependsOn, choiceGroup, preconditions,
        expectedEffects, verificationFactKeys, allowedCapabilities, expectedCost, risk,
        reversible := input.reversible, maxAttempts }

def nodeOf? (nodes : List PlanNode) (id : String) : Option PlanNode :=
  nodes.find? fun n => n.id == id

def checkRoots (nodes : List PlanNode) (roots : List String) : Except String Unit := do
  throwIf (roots = []) "plan requires at least one root node."
  roots.forM fun root =>
    match nodeOf? nodes root with
    | none => .error ("root node does not exist: " ++ root)
    | some node => throwIf (node.parentId.isSome = true)
        ("root node cannot have a parent: " ++ root)

/-- The checks on parents and dependencies. -/
def checkLinks (nodes : List PlanNode) : Except String Unit :=
  nodes.forM fun node => do
    node.parentId.toList.forM fun parent =>
      throwIf (nodeOf? nodes parent = none) ("unknown parent: " ++ parent)
    throwIf (node.parentId = some node.id) "node cannot parent itself."
    node.dependsOn.forM fun dep => do
      throwIf (nodeOf? nodes dep = none) ("unknown dependency: " ++ dep)
      throwIf (dep = node.id) "node cannot depend on itself."

def checkChoiceGroups (nodes : List PlanNode) : Except String Unit :=
  (nodes.filterMap (·.choiceGroup)).eraseDups.forM fun group => do
    let alternatives := nodes.filter fun n => n.choiceGroup = some group
    throwIf (alternatives.length < 2)
      ("choice group must contain at least two alternatives: " ++ group)
    throwIf ((alternatives.map fun n => n.parentId.getD "__root__").dedup.length ≠ 1)
      ("choice alternatives must share the same hierarchical parent: " ++ group)
    throwIf (∃ n ∈ alternatives, ∃ dep ∈ n.dependsOn, dep ∈ alternatives.map (·.id))
      ("choice alternatives cannot depend on one another: " ++ group)

/-- `visit(id)` of `assertAcyclic`: answers the visited set. A path of more
steps than there are nodes repeats a node, so the budget is never what
stops it. -/
def visit (nodes : List PlanNode) : Nat → List String → List String → String →
    Except String (List String)
  | 0, _, _, id => .error ("plan graph contains a cycle at " ++ id)
  | fuel + 1, visiting, visited, id => do
    throwIf (id ∈ visiting) ("plan graph contains a cycle at " ++ id)
    if id ∈ visited then .ok visited
    else
      match nodeOf? nodes id with
      | none => .ok visited
      | some node => do
        let visited ← (node.dependsOn ++ node.parentId.toList).foldlM
          (visit nodes fuel (id :: visiting)) visited
        .ok (id :: visited)

def assertAcyclic (nodes : List PlanNode) : Except String Unit := do
  let _ ← (nodes.map (·.id)).foldlM (visit nodes (nodes.length + 1) []) []
  .ok ()

def checkNodes (nodes : List PlanNode) (roots : List String) : Except String Unit := do
  checkRoots nodes roots
  checkLinks nodes
  checkChoiceGroups nodes
  assertAcyclic nodes

def validatePlanGraph (goal : CompiledGoal) (graph : PlanGraph) : Except String PlanGraph := do
  throwIf (graph.goalId ≠ goal.id) "plan is bound to a different goal."
  throwIf (graph.version < 1 ∨ maxSafeInteger < graph.version)
    "plan.version must be a positive integer."
  throwIf (graph.nodes.length < 1 ∨ 10000 < graph.nodes.length)
    "plan must contain 1-10000 nodes."
  let nodes ← graph.nodes.mapM normalizeNode
  throwIf (¬ (nodes.map (·.id)).Nodup) "plan node ids must be unique."
  let roots ← graph.rootNodeIds.mapM (bounded · 256 "rootNodeId")
  let roots := unique roots
  checkNodes nodes roots
  let planId ← bounded graph.planId 256 "plan.planId"
  .ok { planId, goalId := graph.goalId, version := graph.version, rootNodeIds := roots,
        nodes }

-- === states and their closure

def initializeNodeStates (graph : PlanGraph) (now : String) : List PlanNodeState :=
  graph.nodes.map fun node =>
    { nodeId := node.id
      status :=
        if node.dependsOn = [] ∧ node.preconditions = [] then .ready else .pending
      attempts := 0
      lastReason := .absent
      lastExecutionDigest := .absent
      verificationReceiptDigest := .absent
      verifiedNodeDigest := .absent
      lastUpdatedAt := now }

def stateOf? (states : List PlanNodeState) (id : String) : Option PlanNodeState :=
  states.find? fun s => s.nodeId == id

/-- The number `0.55`. -/
def defaultConfidence : ℚ := 4953959590107546 / 9007199254740992

def preconditionMet (beliefs : List BeliefView) (p : PlanPrecondition) : Bool :=
  match beliefs.find? fun b => b.factKey == p.factKey with
  | none => false
  | some belief =>
    if belief.status = .known ∨ belief.status = .supported then
      p.minimumConfidence.getD defaultConfidence ≤ belief.confidence
        && (p.expectedValueDigest.all fun d => belief.selectedValueDigest == some d)
    else
      p.allowStale.getD false && belief.status == .stale
        && p.minimumConfidence.getD defaultConfidence ≤ belief.confidence

/-- A node may be started. -/
def isReady (states : List PlanNodeState) (beliefs : List BeliefView) (node : PlanNode) : Bool :=
  match stateOf? states node.id with
  | none => false
  | some state =>
    (state.status == .pending || state.status == .ready || state.status == .blocked)
      && !(state.status == .blocked && state.lastExecutionDigest.truthy.isSome
        && !node.verificationFactKeys.isEmpty)
      && (node.dependsOn.all fun id =>
        (stateOf? states id).any fun s => s.status == .succeeded)
      && node.preconditions.all (preconditionMet beliefs)

/-- The keys of a map under construction: the first one that is already
there is named. -/
def checkDistinct (message : String) (seen : List String) : List String → Except String Unit
  | [] => .ok ()
  | key :: keys => do
    throwIf (key ∈ seen) (message ++ key)
    checkDistinct message (key :: seen) keys

def readyNodeIds (graph : PlanGraph) (states : List PlanNodeState)
    (beliefs : List BeliefView) : Except String (List String) := do
  checkDistinct "plan node states must be unique: " [] (states.map (·.nodeId))
  checkDistinct "belief facts must be unique: " [] (beliefs.map (·.factKey))
  .ok (Json.sortTexts ((graph.nodes.filter (isReady states beliefs)).map (·.id)))

/-- A node hangs on a set through its parent or a dependency. -/
def attaches (node : PlanNode) (closure : List String) : Bool :=
  node.parentId.any (· ∈ closure) || node.dependsOn.any (· ∈ closure)

def closurePass : List PlanNode → List String → List String
  | [], closure => closure
  | node :: nodes, closure =>
    if node.id ∉ closure ∧ attaches node closure = true then
      closurePass nodes (closure ++ [node.id])
    else closurePass nodes closure

/-- The loop goes on while a pass adds something. -/
def growClosure? (nodes : List PlanNode) (closure : List String) : Option (List String) :=
  let next := closurePass nodes closure
  if next.length = closure.length then none else some next

def dependentClosure (graph : PlanGraph) (startingNodeIds : List String) : List String :=
  Json.sortTexts
    (whileSome (growClosure? graph.nodes) graph.nodes.length startingNodeIds.eraseDups)

end OperatorRuntime.Plan
