/-
`searchCounterfactualPlans` of `lookahead.ts`: from the facts that hold now,
operators are tried depth by depth, with a Pareto front for each abstract
state (`Lib.Pruned`) and a beam between the depths.

Numbers are exact fractions, where the source computes with doubles. A set of
facts is the list of its members in order of insertion. No two nodes of a
search have the same operators, so a node is known by its value, where the
source asks for the object itself.
-/
import Mathlib.Algebra.Order.Ring.Unbundled.Rat
import OperatorRuntime.Lib.Pruned
import OperatorRuntime.Plan.Graph

namespace OperatorRuntime.Plan

open Lib

-- ===== records

structure PlanBranchCandidate where
  id : String
  nodeIds : List String
  expectedSuccess : ℚ
  expectedInformationGain : ℚ
  expectedCost : ℚ
  risk : ℚ
  uncertainty : ℚ
  verificationStrength : ℚ
  reversibleFraction : ℚ

structure AbstractPlanningState where
  facts : List String

structure PlanningOperator where
  id : String
  requires : List String
  adds : List String
  removes : List String
  expectedSuccess : ℚ
  expectedInformationGain : ℚ
  expectedCost : ℚ
  risk : ℚ
  verificationStrength : ℚ
  reversible : Bool
deriving DecidableEq

structure LookaheadOptions where
  maxDepth : Option Nat := none
  beamWidth : Option Nat := none
  maximumExpandedStates : Option Nat := none
  remainingCostBudget : Option ℚ := none
  maximumRisk : Option ℚ := none

structure LookaheadPlan where
  candidate : PlanBranchCandidate
  resultingFacts : List String
  goalSatisfied : Bool

structure Frontier where
  facts : List String
  operatorIds : List String
  success : ℚ
  infoComplement : ℚ
  cost : ℚ
  riskComplement : ℚ
  verificationTotal : ℚ
  reversibleCount : Nat
deriving DecidableEq

-- ===== operators

def normalizeOperator (input : PlanningOperator) : Except String PlanningOperator := do
  let requires ← textList input.requires 512 "operator.requires"
  let adds ← textList input.adds 512 "operator.adds"
  let removes ← textList input.removes 512 "operator.removes"
  let overlap := adds.filter (· ∈ removes)
  throwIf (overlap ≠ []) ("planning operator cannot add and remove the same fact: "
    ++ String.intercalate ", " overlap)
  let id ← bounded input.id 256 "operator.id"
  let expectedSuccess ← unit input.expectedSuccess "operator.expectedSuccess"
  let expectedInformationGain ←
    unit input.expectedInformationGain "operator.expectedInformationGain"
  let expectedCost ← finite input.expectedCost 0 1000000000000 "operator.expectedCost"
  let risk ← unit input.risk "operator.risk"
  let verificationStrength ← unit input.verificationStrength "operator.verificationStrength"
  .ok { id, requires, adds, removes, expectedSuccess, expectedInformationGain, expectedCost,
        risk, verificationStrength, reversible := input.reversible }

def changesAbstractState (facts : List String) (op : PlanningOperator) : Bool :=
  op.adds.any (fun f => f ∉ facts) || op.removes.any (fun f => f ∈ facts)

/-- `facts.delete(f)` for what the operator removes. -/
def deleteFacts (facts removes : List String) : List String :=
  removes.foldl (fun facts f => facts.filter (· != f)) facts

/-- `facts.add(f)` for what it adds. -/
def addFacts (facts adds : List String) : List String :=
  adds.foldl (fun facts f => if f ∈ facts then facts else facts ++ [f]) facts

def stateSignature (facts : List String) : String :=
  String.intercalate "\x1f" (Json.sortTexts facts)

-- ===== scores

def verificationAverage (item : Frontier) : ℚ :=
  if item.operatorIds = [] then 0 else item.verificationTotal / item.operatorIds.length

def reversibleFraction (item : Frontier) : ℚ :=
  if item.operatorIds = [] then 1 else item.reversibleCount / item.operatorIds.length

def dominates (a b : Frontier) : Bool :=
  let aRisk := 1 - a.riskComplement
  let bRisk := 1 - b.riskComplement
  let aInfo := 1 - a.infoComplement
  let bInfo := 1 - b.infoComplement
  let aVerification := verificationAverage a
  let bVerification := verificationAverage b
  let aReversible := reversibleFraction a
  let bReversible := reversibleFraction b
  let noWorse := a.cost ≤ b.cost ∧ aRisk ≤ bRisk ∧ b.success ≤ a.success ∧ bInfo ≤ aInfo
    ∧ bVerification ≤ aVerification ∧ bReversible ≤ aReversible
  noWorse ∧ (a.cost < b.cost ∨ aRisk < bRisk ∨ b.success < a.success ∨ bInfo < aInfo
    ∨ bVerification < aVerification ∨ bReversible < aReversible)

def scoreFrontier (item : Frontier) (goal : List String) : ℚ :=
  let coverage : ℚ := (goal.filter (· ∈ item.facts)).length / goal.length
  coverage * (1 / 2) + item.success * (1 / 5) + (1 - item.infoComplement) * (2 / 25)
    + verificationAverage item * (1 / 10) - (1 - item.riskComplement) * (1 / 10)
    - min 1 (item.cost / 100) * (1 / 50)

def branchUtility (c : PlanBranchCandidate) : ℚ :=
  c.expectedSuccess * (9 / 20) + c.verificationStrength * (4 / 25)
    + c.expectedInformationGain * (1 / 10) + c.reversibleFraction * (7 / 100)
    - c.risk * (4 / 25) - c.uncertainty * (2 / 25) - min 1 (c.expectedCost / 100) * (1 / 25)

def round (v : ℚ) : ℚ :=
  (v * 1000000 + 1 / 2).floor / 1000000

def toPlan (item : Frontier) (goal : List String) (index : Nat) : LookaheadPlan where
  candidate :=
    let steps : ℚ := max 1 item.operatorIds.length
    { id := "lookahead-" ++ toString index ++ "-" ++ String.intercalate ">" item.operatorIds
      nodeIds := item.operatorIds
      expectedSuccess := round item.success
      expectedInformationGain := round (1 - item.infoComplement)
      expectedCost := round item.cost
      risk := round (1 - item.riskComplement)
      uncertainty := round (1 - item.success)
      verificationStrength := round (item.verificationTotal / steps)
      reversibleFraction := round (item.reversibleCount / steps) }
  resultingFacts := Json.sortTexts item.facts
  goalSatisfied := goal.all (· ∈ item.facts)

-- ===== search

/-- What `searchCounterfactualPlans` has after its checks. -/
structure PlanningProblem where
  facts : List String
  operators : List PlanningOperator
  goal : List String
  forbidden : List String
  maxDepth : Nat
  beamWidth : Nat
  maxExpanded : Nat
  budget : Option ℚ
  maxRisk : ℚ
deriving DecidableEq

/-- The checks of `searchCounterfactualPlans`. -/
def planningProblem (initial : AbstractPlanningState) (operatorsInput : List PlanningOperator)
    (successFactKeys forbiddenFactKeys : List String) (options : LookaheadOptions) :
    Except String PlanningProblem := do
  throwIf (operatorsInput.length < 1 ∨ 1000 < operatorsInput.length)
    "planning operators must contain 1-1000 entries."
  let operators ← operatorsInput.mapM normalizeOperator
  throwIf (¬ (operators.map (·.id)).Nodup) "planning operator ids must be unique."
  let maxDepth ← integer (options.maxDepth.getD 6) 1 20 "maxDepth"
  let beamWidth ← integer (options.beamWidth.getD 20) 1 200 "beamWidth"
  let maxExpanded ← integer (options.maximumExpandedStates.getD 5000) 1 100000
    "maximumExpandedStates"
  let maxRisk ← unit (options.maximumRisk.getD 1) "maximumRisk"
  throwIf (∃ budget ∈ options.remainingCostBudget, budget < 0)
    "remainingCostBudget is invalid."
  let goal ← textList successFactKeys 512 "successFactKey"
  throwIf (goal = []) "lookahead requires at least one success fact."
  let forbidden ← textList forbiddenFactKeys 512 "forbiddenFactKey"
  let facts ← textList initial.facts 512 "initial.fact"
  .ok { facts, operators, goal, forbidden, maxDepth, beamWidth, maxExpanded,
        budget := options.remainingCostBudget, maxRisk }

section
variable (q : PlanningProblem)

/-- The successor by an operator, unless the operator is passed over. -/
def PlanningProblem.successor? (current : Frontier) (op : PlanningOperator) : Option Frontier :=
  if ¬ (∀ f ∈ op.requires, f ∈ current.facts) then none
  else if changesAbstractState current.facts op = false then none
  else
    let cost := current.cost + op.expectedCost
    if ∃ budget ∈ q.budget, budget < cost then none
    else
      let risk := 1 - current.riskComplement * (1 - op.risk)
      if q.maxRisk < risk then none
      else
        let facts := addFacts (deleteFacts current.facts op.removes) op.adds
        if ∃ f ∈ q.forbidden, f ∈ facts then none
        else
          some {
            facts
            operatorIds := current.operatorIds ++ [op.id]
            success := current.success * op.expectedSuccess
            infoComplement := current.infoComplement * (1 - op.expectedInformationGain)
            cost
            riskComplement := current.riskComplement * (1 - op.risk)
            verificationTotal := current.verificationTotal + op.verificationStrength
            reversibleCount := current.reversibleCount + if op.reversible = true then 1 else 0 }

def PlanningProblem.initialFrontier : Frontier where
  facts := q.facts
  operatorIds := []
  success := 1
  infoComplement := 1
  cost := 0
  riskComplement := 1
  verificationTotal := 0
  reversibleCount := 0

variable (localeCompare : String → String → Int)

/-- The order of the nodes that wait. -/
def PlanningProblem.before (a b : Frontier) : Prop :=
  let score := scoreFrontier b q.goal - scoreFrontier a q.goal
  if score ≠ 0 then score < 0
  else if a.cost - b.cost ≠ 0 then a.cost - b.cost < 0
  else localeCompare (String.intercalate "|" a.operatorIds)
    (String.intercalate "|" b.operatorIds) ≤ 0

instance (a b : Frontier) : Decidable (q.before localeCompare a b) := by
  unfold PlanningProblem.before
  infer_instance

/-- The beam between two depths. -/
def PlanningProblem.beam (next : List Frontier) : List Frontier :=
  (next.insertionSort (q.before localeCompare)).take q.beamWidth

theorem beam_subset (next : List Frontier) : ∀ x ∈ q.beam localeCompare next, x ∈ next := by
  intro x hx
  exact (List.perm_insertionSort _ next).mem_iff.1 (List.mem_of_mem_take hx)

def PlanningProblem.pruned : Pruned.Problem Frontier PlanningOperator String where
  operators := q.operators
  step := q.successor?
  key item := stateSignature item.facts
  dominates := dominates
  done item := q.goal.all (· ∈ item.facts)
  select := q.beam localeCompare
  select_subset := beam_subset q localeCompare
  maxExpanded := q.maxExpanded

def PlanningProblem.searched (depth : Nat) : Pruned.Space Frontier String :=
  (q.pruned localeCompare).search q.initialFrontier depth

def planBefore (a b : LookaheadPlan) : Prop :=
  if a.goalSatisfied ≠ b.goalSatisfied then a.goalSatisfied = true
  else
    let utility := branchUtility b.candidate - branchUtility a.candidate
    if utility ≠ 0 then utility < 0
    else if a.candidate.expectedCost - b.candidate.expectedCost ≠ 0 then
      a.candidate.expectedCost - b.candidate.expectedCost < 0
    else localeCompare a.candidate.id b.candidate.id ≤ 0

instance (a b : LookaheadPlan) : Decidable (planBefore localeCompare a b) := by
  unfold planBefore
  infer_instance

def PlanningProblem.source : List Frontier :=
  let space := q.searched localeCompare q.maxDepth
  let completedPareto := space.completed.filter fun item =>
    item ∈ space.pareto (stateSignature item.facts)
  if completedPareto ≠ [] then completedPareto else space.frontier

def PlanningProblem.plans : List LookaheadPlan :=
  (((q.source localeCompare).mapIdx fun index item => toPlan item q.goal index).insertionSort
    (planBefore localeCompare)).take q.beamWidth

end

def searchCounterfactualPlans (localeCompare : String → String → Int)
    (initial : AbstractPlanningState) (operators : List PlanningOperator)
    (successFactKeys forbiddenFactKeys : List String) (options : LookaheadOptions) :
    Except String (List LookaheadPlan) := do
  let q ← planningProblem initial operators successFactKeys forbiddenFactKeys options
  .ok (q.plans localeCompare)

end OperatorRuntime.Plan
