/-
What the plans of `searchCounterfactualPlans` mean: states are sets of facts,
an operator takes one to another, and a plan is a sequence of operators that
can be applied from the initial facts within the limits.

A node that dominates another of its signature has the same facts, costs no
more and risks no more, so whatever the other leads to it leads to as well
(`pruned_improves`); the other criteria of dominance play no part, and their
averages need not be monotone.
-/
import Mathlib.Algebra.Order.BigOperators.Group.List
import Mathlib.Algebra.Order.Field.Rat
import Mathlib.Tactic.Linarith
import OperatorRuntime.Plan.Lookahead
import OperatorRuntime.Plan.Proofs.Normal

namespace OperatorRuntime.Plan

open Lib

-- === operators on sets of facts

def PlanningOperator.after (op : PlanningOperator) (facts : Set String) : Set String :=
  {f | f ∈ op.adds ∨ f ∈ facts ∧ f ∉ op.removes}

/-- The operators can be applied in order, each changes the facts, and a forbidden
fact holds after none. -/
inductive Executes (forbidden : List String) :
    Set String → List PlanningOperator → Set String → Prop
  | nil (facts : Set String) : Executes forbidden facts [] facts
  | cons {facts final : Set String} {op : PlanningOperator} {ops : List PlanningOperator}
      (requires : ∀ f ∈ op.requires, f ∈ facts) (changes : op.after facts ≠ facts)
      (allowed : ∀ f ∈ forbidden, f ∉ op.after facts)
      (rest : Executes forbidden (op.after facts) ops final) :
      Executes forbidden facts (op :: ops) final

def totalCost (ops : List PlanningOperator) : ℚ :=
  (ops.map (·.expectedCost)).sum

/-- The chance that all goes well. -/
def safety (ops : List PlanningOperator) : ℚ :=
  (ops.map fun op => 1 - op.risk).prod

def combinedRisk (ops : List PlanningOperator) : ℚ :=
  1 - safety ops

/-- A sequence of the operators that the limits allow. -/
structure Feasible (operators : List PlanningOperator) (forbidden : List String)
    (budget : Option ℚ) (maxRisk : ℚ) (facts : Set String) (ops : List PlanningOperator)
    (final : Set String) : Prop where
  listed : ∀ op ∈ ops, op ∈ operators
  executes : Executes forbidden facts ops final
  cost : ∀ limit ∈ budget, totalCost ops ≤ limit
  risk : combinedRisk ops ≤ maxRisk

-- ===== sets as lists

section
variable {facts values : List String} {f : String} {op : PlanningOperator}

theorem mem_deleteFacts : f ∈ deleteFacts facts values ↔ f ∈ facts ∧ f ∉ values := by
  unfold deleteFacts
  induction values generalizing facts with
  | nil => simp
  | cons value values ih =>
    rw [List.foldl_cons, ih, List.mem_filter, List.mem_cons, not_or, bne_iff_ne, and_assoc]

theorem mem_addFacts : f ∈ addFacts facts values ↔ f ∈ values ∨ f ∈ facts := by
  unfold addFacts
  induction values generalizing facts with
  | nil => simp
  | cons value values ih =>
    rw [List.foldl_cons, ih, List.mem_cons]
    by_cases hin : value ∈ facts
    · rw [if_pos hin]
      constructor
      · intro h
        rcases h with h | h
        · exact .inl (.inr h)
        · exact .inr h
      · intro h
        rcases h with (rfl | h) | h
        · exact .inr hin
        · exact .inl h
        · exact .inr h
    · rw [if_neg hin, List.mem_append, List.mem_singleton]
      tauto

theorem nodup_deleteFacts (h : facts.Nodup) : (deleteFacts facts values).Nodup := by
  unfold deleteFacts
  induction values generalizing facts with
  | nil => exact h
  | cons value values ih => exact ih (h.filter _)

theorem nodup_addFacts (h : facts.Nodup) : (addFacts facts values).Nodup := by
  unfold addFacts
  induction values generalizing facts with
  | nil => exact h
  | cons value values ih =>
    apply ih
    show (if value ∈ facts then facts else facts ++ [value]).Nodup
    by_cases hin : value ∈ facts
    · rw [if_pos hin]
      exact h
    · rw [if_neg hin]
      rw [← List.concat_eq_append]
      exact h.concat hin

def factSet (facts : List String) : Set String := {f | f ∈ facts}

theorem factSet_applied : factSet (addFacts (deleteFacts facts op.removes) op.adds)
    = op.after (factSet facts) := by
  ext f
  show f ∈ addFacts _ _ ↔ f ∈ op.adds ∨ f ∈ facts ∧ f ∉ op.removes
  rw [mem_addFacts, mem_deleteFacts]

/-- No fact is both added and removed. -/
def PlanningOperator.Consistent (op : PlanningOperator) : Prop :=
  ∀ f ∈ op.adds, f ∉ op.removes

theorem changesAbstractState_iff (h : op.Consistent) :
    changesAbstractState facts op = true ↔ op.after (factSet facts) ≠ factSet facts := by
  rw [changesAbstractState, Bool.or_eq_true, List.any_eq_true, List.any_eq_true]
  constructor
  · intro hor heq
    rcases hor with ⟨f, hf, hout⟩ | ⟨f, hf, hin⟩
    · have hmem : f ∈ op.after (factSet facts) := .inl hf
      rw [heq] at hmem
      exact of_decide_eq_true hout hmem
    · have hmem : f ∈ factSet facts := (of_decide_eq_true hin : f ∈ facts)
      rw [← heq] at hmem
      rcases hmem with hadd | ⟨_, hkept⟩
      · exact h f hadd hf
      · exact hkept hf
  · intro hne
    by_contra hnone
    rw [not_or] at hnone
    apply hne
    ext f
    constructor
    · intro hf
      rcases hf with hadd | ⟨hin, _⟩
      · by_contra hout
        exact hnone.1 ⟨f, hadd, decide_eq_true hout⟩
      · exact hin
    · intro hf
      exact .inr ⟨hf, fun hremove => hnone.2 ⟨f, hremove, decide_eq_true (show f ∈ facts from hf)⟩⟩

end

-- ===== signatures

/-- The separator of a signature does not occur in the fact. -/
def Plain (f : String) : Prop := '\x1f' ∉ f.toList

section
variable {a b : List String}

theorem stateSignature_inj (ha : ∀ f ∈ a, f ≠ "" ∧ Plain f) (hb : ∀ f ∈ b, f ≠ "" ∧ Plain f)
    (h : stateSignature a = stateSignature b) : factSet a = factSet b := by
  have hsplit : ∀ {facts : List String}, (∀ f ∈ facts, f ≠ "" ∧ Plain f) →
      ((stateSignature facts).split '\x1f').toList.map (·.copy)
        = if Json.sortTexts facts = [] then [""] else Json.sortTexts facts := by
    intro facts hfacts
    exact String.toList_split_intercalate fun f hf => (hfacts f (mem_sortTexts.1 hf)).2
  have heq := hsplit ha
  rw [h, hsplit hb] at heq
  have hempty : ∀ {facts : List String}, (∀ f ∈ facts, f ≠ "" ∧ Plain f) →
      [""] ≠ Json.sortTexts facts := by
    intro facts hfacts hone
    exact (hfacts "" (mem_sortTexts.1 (hone ▸ List.mem_singleton_self ""))).1 rfl
  have hsorted : Json.sortTexts a = Json.sortTexts b := by
    by_cases hanil : Json.sortTexts a = []
    · by_cases hbnil : Json.sortTexts b = []
      · rw [hanil, hbnil]
      · rw [if_pos hanil, if_neg hbnil] at heq
        exact absurd heq.symm (hempty hb)
    · by_cases hbnil : Json.sortTexts b = []
      · rw [if_neg hanil, if_pos hbnil] at heq
        exact absurd heq (hempty ha)
      · rw [if_neg hanil, if_neg hbnil] at heq
        exact heq.symm
  ext f
  show f ∈ a ↔ f ∈ b
  rw [← mem_sortTexts, hsorted, mem_sortTexts]

end

-- ===== one operator

/-- The node after an operator. -/
def Frontier.advanced (x : Frontier) (op : PlanningOperator) : Frontier where
  facts := addFacts (deleteFacts x.facts op.removes) op.adds
  operatorIds := x.operatorIds ++ [op.id]
  success := x.success * op.expectedSuccess
  infoComplement := x.infoComplement * (1 - op.expectedInformationGain)
  cost := x.cost + op.expectedCost
  riskComplement := x.riskComplement * (1 - op.risk)
  verificationTotal := x.verificationTotal + op.verificationStrength
  reversibleCount := x.reversibleCount + if op.reversible = true then 1 else 0

section
variable {q : PlanningProblem} {x y : Frontier} {op : PlanningOperator}
  {ops : List PlanningOperator} {final : Set String}

theorem successor?_eq_some : q.successor? x op = some y ↔
    (∀ f ∈ op.requires, f ∈ x.facts) ∧ changesAbstractState x.facts op = true
    ∧ (∀ limit ∈ q.budget, (x.advanced op).cost ≤ limit)
    ∧ 1 - (x.advanced op).riskComplement ≤ q.maxRisk
    ∧ (∀ f ∈ q.forbidden, f ∉ (x.advanced op).facts) ∧ y = x.advanced op := by
  unfold PlanningProblem.successor?
  by_cases hrequires : ∀ f ∈ op.requires, f ∈ x.facts
  · rw [if_neg (not_not.2 hrequires)]
    by_cases hchanges : changesAbstractState x.facts op = true
    · rw [if_neg (by rw [hchanges]; decide)]
      by_cases hcost : ∃ limit ∈ q.budget, limit < x.cost + op.expectedCost
      · rw [if_pos hcost]
        obtain ⟨limit, hlimit, hlt⟩ := hcost
        constructor
        · intro h
          cases h
        · intro h
          exact absurd (h.2.2.1 limit hlimit) (not_le.2 hlt)
      · rw [if_neg hcost]
        have hcost' : ∀ limit ∈ q.budget, (x.advanced op).cost ≤ limit :=
          fun limit hlimit => not_lt.1 fun hlt => hcost ⟨limit, hlimit, hlt⟩
        by_cases hrisk : q.maxRisk < 1 - x.riskComplement * (1 - op.risk)
        · rw [if_pos hrisk]
          constructor
          · intro h
            cases h
          · intro h
            exact absurd h.2.2.2.1 (not_le.2 hrisk)
        · rw [if_neg hrisk]
          by_cases hforbidden : ∃ f ∈ q.forbidden,
              f ∈ addFacts (deleteFacts x.facts op.removes) op.adds
          · rw [if_pos hforbidden]
            obtain ⟨f, hf, hin⟩ := hforbidden
            constructor
            · intro h
              cases h
            · intro h
              exact absurd hin (h.2.2.2.2.1 f hf)
          · rw [if_neg hforbidden]
            constructor
            · intro h
              exact ⟨hrequires, hchanges, hcost', not_lt.1 hrisk,
                fun f hf hin => hforbidden ⟨f, hf, hin⟩, (Option.some.inj h).symm⟩
            · intro h
              rw [h.2.2.2.2.2]
              rfl
    · rw [if_pos (Bool.eq_false_iff.2 hchanges)]
      constructor
      · intro h
        cases h
      · intro h
        exact absurd h.2.1 hchanges
  · rw [if_pos hrequires]
    constructor
    · intro h
      cases h
    · intro h
      exact absurd h.1 hrequires

/-- The numbers of an operator are in their ranges, and its effects agree. -/
structure PlanningOperator.Valid (op : PlanningOperator) : Prop where
  consistent : op.Consistent
  cost : 0 ≤ op.expectedCost
  risk : 0 ≤ op.risk
  risk_le : op.risk ≤ 1

theorem totalCost_nonneg (h : ∀ op ∈ ops, op.Valid) : 0 ≤ totalCost ops := by
  apply List.sum_nonneg
  intro c hc
  obtain ⟨op, hop, rfl⟩ := List.mem_map.1 hc
  exact (h op hop).cost

theorem safety_cons (op : PlanningOperator) (ops : List PlanningOperator) :
    safety (op :: ops) = (1 - op.risk) * safety ops := by
  rw [safety, List.map_cons, List.prod_cons, safety]

theorem totalCost_cons (op : PlanningOperator) (ops : List PlanningOperator) :
    totalCost (op :: ops) = op.expectedCost + totalCost ops := by
  rw [totalCost, List.map_cons, List.sum_cons, totalCost]

theorem safety_nonneg (h : ∀ op ∈ ops, op.Valid) : 0 ≤ safety ops := by
  induction ops with
  | nil => exact zero_le_one
  | cons op ops ih =>
    rw [safety_cons]
    exact mul_nonneg (by linarith [(h op List.mem_cons_self).risk_le])
      (ih fun t ht => h t (List.mem_cons_of_mem _ ht))

theorem safety_le_one (h : ∀ op ∈ ops, op.Valid) : safety ops ≤ 1 := by
  induction ops with
  | nil => exact le_refl _
  | cons op ops ih =>
    have hop := h op List.mem_cons_self
    have hrest : ∀ op ∈ ops, op.Valid := fun t ht => h t (List.mem_cons_of_mem _ ht)
    have hle : (1 - op.risk) * safety ops ≤ 1 * 1 :=
      mul_le_mul (by linarith [hop.risk]) (ih hrest) (safety_nonneg hrest) (by norm_num)
    rw [safety_cons]
    linarith

theorem executes_of_run (hvalid : ∀ op ∈ ops, op.Valid) (h : ops.foldlM q.successor? x = some y) :
    Executes q.forbidden (factSet x.facts) ops (factSet y.facts)
    ∧ y.cost = x.cost + totalCost ops ∧ y.riskComplement = x.riskComplement * safety ops
    ∧ y.operatorIds = x.operatorIds ++ ops.map (·.id)
    ∧ ((∀ limit ∈ q.budget, x.cost ≤ limit) → ∀ limit ∈ q.budget, y.cost ≤ limit)
    ∧ (1 - x.riskComplement ≤ q.maxRisk → 1 - y.riskComplement ≤ q.maxRisk) := by
  induction ops generalizing x with
  | nil =>
    obtain rfl : x = y := Option.some.inj h
    refine ⟨Executes.nil _, ?_, ?_, ?_, fun h => h, fun h => h⟩
    · show x.cost = x.cost + 0
      rw [add_zero]
    · show x.riskComplement = x.riskComplement * 1
      rw [mul_one]
    · rw [List.map_nil, List.append_nil]
  | cons op ops ih =>
    obtain ⟨x', hx', hrest⟩ := Option.bind_eq_some_iff.1
      (show (q.successor? x op).bind (fun x' => ops.foldlM q.successor? x') = some y from h)
    obtain ⟨hrequires, hchanges, hcost, hrisk, hforbidden, rfl⟩ := successor?_eq_some.1 hx'
    obtain ⟨hexec, hcost', hrisk', hids, hlimit, hmax⟩ :=
      ih (fun t ht => hvalid t (List.mem_cons_of_mem _ ht)) hrest
    have hset : factSet (x.advanced op).facts = op.after (factSet x.facts) := factSet_applied
    refine ⟨?_, ?_, ?_, ?_, fun _ => hlimit hcost, fun _ => hmax hrisk⟩
    · refine Executes.cons hrequires
        ((changesAbstractState_iff (hvalid op List.mem_cons_self).consistent).1 hchanges) ?_ ?_
      · intro f hf hin
        rw [← hset] at hin
        exact hforbidden f hf hin
      · rw [← hset]
        exact hexec
    · rw [hcost', totalCost_cons, ← add_assoc]
      rfl
    · rw [hrisk', safety_cons, ← mul_assoc]
      rfl
    · rw [hids, List.map_cons]
      show (x.operatorIds ++ [op.id]) ++ _ = _
      rw [List.append_assoc]
      rfl

theorem run_of_executes (hvalid : ∀ op ∈ ops, op.Valid)
    (h : Executes q.forbidden (factSet x.facts) ops final) (hx : 0 ≤ x.riskComplement)
    (hcost : ∀ limit ∈ q.budget, x.cost + totalCost ops ≤ limit)
    (hrisk : 1 - x.riskComplement * safety ops ≤ q.maxRisk) :
    ∃ y, ops.foldlM q.successor? x = some y ∧ factSet y.facts = final := by
  induction ops generalizing x with
  | nil =>
    cases h
    exact ⟨x, rfl, rfl⟩
  | cons op ops ih =>
    cases h with
    | cons hrequires hchanges hallowed hrest =>
      have hop := hvalid op List.mem_cons_self
      have hvalids : ∀ op ∈ ops, op.Valid := fun t ht => hvalid t (List.mem_cons_of_mem _ ht)
      have hset : factSet (x.advanced op).facts = op.after (factSet x.facts) := factSet_applied
      rw [totalCost_cons] at hcost
      rw [safety_cons, ← mul_assoc] at hrisk
      have hcomplement : 0 ≤ x.riskComplement * (1 - op.risk) :=
        mul_nonneg hx (by linarith [hop.risk_le])
      have hstep : q.successor? x op = some (x.advanced op) := by
        refine successor?_eq_some.2 ⟨hrequires,
          (changesAbstractState_iff hop.consistent).2 hchanges, ?_, ?_, ?_, rfl⟩
        · intro limit hlimit
          show x.cost + op.expectedCost ≤ limit
          linarith [hcost limit hlimit, totalCost_nonneg hvalids]
        · show 1 - x.riskComplement * (1 - op.risk) ≤ q.maxRisk
          have hle := mul_le_of_le_one_right hcomplement (safety_le_one hvalids)
          linarith
        · intro f hf hin
          refine hallowed f hf ?_
          rw [← hset]
          exact hin
      rw [← hset] at hrest
      obtain ⟨y, hy, hfinal⟩ := ih hvalids hrest hcomplement
        (fun limit hlimit => by
          show x.cost + op.expectedCost + totalCost ops ≤ limit
          linarith [hcost limit hlimit]) hrisk
      refine ⟨y, ?_, hfinal⟩
      show (q.successor? x op).bind (fun x' => ops.foldlM q.successor? x') = some y
      rw [hstep]
      exact hy

end

-- === what the checks give

/-- Two operators that do the same. -/
structure SameOperator (op op' : PlanningOperator) : Prop where
  id : op.id = op'.id
  requires : ∀ f, f ∈ op.requires ↔ f ∈ op'.requires
  after : op.after = op'.after
  cost : op.expectedCost = op'.expectedCost
  risk : op.risk = op'.risk

theorem SameOperator.symm {op op' : PlanningOperator} (h : SameOperator op op') :
    SameOperator op' op :=
  ⟨h.id.symm, fun f => (h.requires f).symm, h.after.symm, h.cost.symm, h.risk.symm⟩

theorem finite_eq_ok {value result low high : ℚ} {label : String}
    (h : finite value low high label = .ok result) :
    result = value ∧ low ≤ value ∧ value ≤ high := by
  rw [finite] at h
  obtain ⟨_, hrange, hresult⟩ := bind_eq_ok.1 h
  rw [throwIf_eq_ok, not_or, not_lt, not_lt] at hrange
  exact ⟨(Except.ok.inj hresult).symm, hrange⟩

theorem normalizeOperator_ok {input op : PlanningOperator} (h : normalizeOperator input = .ok op) :
    SameOperator input op ∧ op.Valid
    ∧ (∀ f, f ∈ op.adds ↔ f ∈ input.adds) ∧ ∀ f ∈ op.adds, f ≠ "" := by
  rw [normalizeOperator] at h
  obtain ⟨requires, hrequires, h⟩ := bind_eq_ok.1 h
  obtain ⟨adds, hadds, h⟩ := bind_eq_ok.1 h
  obtain ⟨removes, hremoves, h⟩ := bind_eq_ok.1 h
  obtain ⟨_, hoverlap, h⟩ := bind_eq_ok.1 h
  obtain ⟨id, hid, h⟩ := bind_eq_ok.1 h
  obtain ⟨success, _, h⟩ := bind_eq_ok.1 h
  obtain ⟨info, _, h⟩ := bind_eq_ok.1 h
  obtain ⟨cost, hcost, h⟩ := bind_eq_ok.1 h
  obtain ⟨risk, hrisk, h⟩ := bind_eq_ok.1 h
  obtain ⟨strength, _, h⟩ := bind_eq_ok.1 h
  cases h
  obtain ⟨rfl, _⟩ := textList_eq_ok hrequires
  obtain ⟨rfl, haddsBound⟩ := textList_eq_ok hadds
  obtain ⟨rfl, _⟩ := textList_eq_ok hremoves
  obtain ⟨rfl, _⟩ := bounded_eq_ok.1 hid
  obtain ⟨rfl, hcostRange⟩ := finite_eq_ok hcost
  obtain ⟨rfl, hriskRange⟩ := finite_eq_ok hrisk
  rw [throwIf_eq_ok, not_not] at hoverlap
  refine ⟨⟨rfl, fun f => mem_unique.symm, ?_, rfl, rfl⟩, ?_, fun f => mem_unique, ?_⟩
  · funext facts
    ext f
    show f ∈ input.adds ∨ f ∈ facts ∧ f ∉ input.removes
      ↔ f ∈ unique input.adds ∨ f ∈ facts ∧ f ∉ unique input.removes
    rw [mem_unique, mem_unique]
  · refine ⟨?_, hcostRange.1, hriskRange.1, hriskRange.2⟩
    intro f hf hremove
    exact List.filter_eq_nil_iff.1 hoverlap f hf (decide_eq_true hremove)
  · intro f hf
    exact (haddsBound f (mem_unique.1 hf)).1

/-- What `planningProblem` has found out. -/
structure Posed (initial : AbstractPlanningState) (operators : List PlanningOperator)
    (successFactKeys forbiddenFactKeys : List String) (options : LookaheadOptions)
    (q : PlanningProblem) : Prop where
  operators : operators.mapM normalizeOperator = .ok q.operators
  facts : q.facts = unique initial.facts
  facts_ne : ∀ f ∈ initial.facts, f ≠ ""
  goal : q.goal = unique successFactKeys
  forbidden : q.forbidden = unique forbiddenFactKeys
  maxDepth : q.maxDepth = options.maxDepth.getD 6
  beamWidth : 1 ≤ q.beamWidth
  budget : q.budget = options.remainingCostBudget
  budget_nonneg : ∀ limit ∈ q.budget, 0 ≤ limit
  maxRisk : q.maxRisk = options.maximumRisk.getD 1
  maxRisk_nonneg : 0 ≤ q.maxRisk

theorem planningProblem_ok {initial : AbstractPlanningState} {operators : List PlanningOperator}
    {successFactKeys forbiddenFactKeys : List String} {options : LookaheadOptions}
    {q : PlanningProblem}
    (h : planningProblem initial operators successFactKeys forbiddenFactKeys options = .ok q) :
    Posed initial operators successFactKeys forbiddenFactKeys options q := by
  rw [planningProblem] at h
  obtain ⟨_, _, h⟩ := bind_eq_ok.1 h
  obtain ⟨normalized, hnormalized, h⟩ := bind_eq_ok.1 h
  obtain ⟨_, _, h⟩ := bind_eq_ok.1 h
  obtain ⟨maxDepth, hdepth, h⟩ := bind_eq_ok.1 h
  obtain ⟨beamWidth, hbeam, h⟩ := bind_eq_ok.1 h
  obtain ⟨maxExpanded, _, h⟩ := bind_eq_ok.1 h
  obtain ⟨maxRisk, hrisk, h⟩ := bind_eq_ok.1 h
  obtain ⟨_, hbudget, h⟩ := bind_eq_ok.1 h
  obtain ⟨goal, hgoal, h⟩ := bind_eq_ok.1 h
  obtain ⟨_, _, h⟩ := bind_eq_ok.1 h
  obtain ⟨forbidden, hforbidden, h⟩ := bind_eq_ok.1 h
  obtain ⟨facts, hfacts, h⟩ := bind_eq_ok.1 h
  cases h
  obtain ⟨rfl, hrange⟩ := integer_eq_ok.1 hbeam
  obtain ⟨rfl, hriskRange⟩ := finite_eq_ok hrisk
  rw [throwIf_eq_ok] at hbudget
  exact {
    operators := hnormalized
    facts := (textList_eq_ok hfacts).1
    facts_ne := fun f hf => ((textList_eq_ok hfacts).2 f hf).1
    goal := (textList_eq_ok hgoal).1
    forbidden := (textList_eq_ok hforbidden).1
    maxDepth := (integer_eq_ok.1 hdepth).1
    beamWidth := hrange.1
    budget := rfl
    budget_nonneg := fun limit hlimit => not_lt.1 fun hlt => hbudget ⟨limit, hlimit, hlt⟩
    maxRisk := rfl
    maxRisk_nonneg := hriskRange.1 }

-- ===== sequences alike

section
variable {ops ops' : List PlanningOperator} {forbidden forbidden' : List String}
  {facts final : Set String}

theorem same_symm (h : List.Forall₂ SameOperator ops ops') : List.Forall₂ SameOperator ops' ops :=
  h.flip.imp fun _ _ hsame => hsame.symm

theorem Executes.same (hsame : List.Forall₂ SameOperator ops ops')
    (hforbidden : ∀ f ∈ forbidden', f ∈ forbidden) (h : Executes forbidden facts ops final) :
    Executes forbidden' facts ops' final := by
  induction h generalizing ops' with
  | nil facts =>
    cases hsame
    exact Executes.nil facts
  | cons hrequires hchanges hallowed _ ih =>
    cases hsame with
    | cons hop hops =>
      rw [hop.after] at hchanges hallowed ih
      exact Executes.cons (fun f hf => hrequires f ((hop.requires f).2 hf)) hchanges
        (fun f hf => hallowed f (hforbidden f hf)) (ih hops)

theorem totalCost_same (h : List.Forall₂ SameOperator ops ops') :
    totalCost ops = totalCost ops' := by
  induction h with
  | nil => rfl
  | cons hop _ ih => rw [totalCost_cons, totalCost_cons, hop.cost, ih]

theorem safety_same (h : List.Forall₂ SameOperator ops ops') : safety ops = safety ops' := by
  induction h with
  | nil => rfl
  | cons hop _ ih => rw [safety_cons, safety_cons, hop.risk, ih]

theorem ids_same (h : List.Forall₂ SameOperator ops ops') : ops.map (·.id) = ops'.map (·.id) := by
  induction h with
  | nil => rfl
  | cons hop _ ih => rw [List.map_cons, List.map_cons, hop.id, ih]

theorem exists_inputs {operators normalized : List PlanningOperator}
    (h : operators.mapM normalizeOperator = .ok normalized) (hops : ∀ op ∈ ops, op ∈ normalized) :
    ∃ ops', (∀ op ∈ ops', op ∈ operators) ∧ List.Forall₂ SameOperator ops' ops := by
  induction ops with
  | nil => exact ⟨[], fun op hop => (nomatch hop), List.Forall₂.nil⟩
  | cons op ops ih =>
    obtain ⟨ops', hin, hsame⟩ := ih fun t ht => hops t (List.mem_cons_of_mem _ ht)
    obtain ⟨input, hinput, hok⟩ := exists_of_mapM_eq_ok h (hops op List.mem_cons_self)
    exact ⟨input :: ops', List.forall_mem_cons.2 ⟨hinput, hin⟩,
      List.Forall₂.cons (normalizeOperator_ok hok).1 hsame⟩

theorem exists_normalized {operators normalized : List PlanningOperator}
    (h : operators.mapM normalizeOperator = .ok normalized) (hops : ∀ op ∈ ops, op ∈ operators) :
    ∃ ops', (∀ op ∈ ops', op ∈ normalized) ∧ List.Forall₂ SameOperator ops ops' := by
  induction ops with
  | nil => exact ⟨[], fun op hop => (nomatch hop), List.Forall₂.nil⟩
  | cons input ops ih =>
    obtain ⟨ops', hin, hsame⟩ := ih fun t ht => hops t (List.mem_cons_of_mem _ ht)
    obtain ⟨op, hop, hok⟩ := exists_answer_of_mapM h (hops input List.mem_cons_self)
    exact ⟨op :: ops', List.forall_mem_cons.2 ⟨hop, hin⟩,
      List.Forall₂.cons (normalizeOperator_ok hok).1 hsame⟩

end

-- ===== the search

section
variable {q : PlanningProblem} (localeCompare : String → String → Int)

/-- The facts of a node have a signature of their own. -/
structure Frontier.Signed (x : Frontier) : Prop where
  nodup : x.facts.Nodup
  facts : ∀ f ∈ x.facts, f ≠ "" ∧ Plain f

/-- The same facts, for no more cost and no more risk. -/
structure Frontier.NoWorse (x y : Frontier) : Prop where
  facts : factSet x.facts = factSet y.facts
  cost : x.cost ≤ y.cost
  risk : y.riskComplement ≤ x.riskComplement

variable {localeCompare}

theorem done_eq_of_factSet {x y : Frontier} (h : factSet x.facts = factSet y.facts) :
    (q.pruned localeCompare).done x = (q.pruned localeCompare).done y := by
  have hmem : ∀ f, f ∈ x.facts ↔ f ∈ y.facts := fun f => Set.ext_iff.1 h f
  show q.goal.all _ = q.goal.all _
  exact List.all_congr rfl fun f => decide_eq_decide.2 (hmem f)

variable (localeCompare) in
theorem pruned_improves (hvalid : ∀ op ∈ q.operators, op.Valid) :
    (q.pruned localeCompare).Improves Frontier.Signed Frontier.NoWorse := by
  constructor
  case refl => exact fun x => ⟨rfl, le_refl _, le_refl _⟩
  case trans =>
    intro x y z hxy hyz
    exact ⟨hxy.facts.trans hyz.facts, hxy.cost.trans hyz.cost, hyz.risk.trans hxy.risk⟩
  case dominates =>
    intro x y hx hy hkey hdom
    obtain ⟨⟨hcost, hrisk, _⟩, _⟩ := of_decide_eq_true (show decide _ = true from hdom)
    exact ⟨stateSignature_inj hx.facts hy.facts hkey, hcost, by linarith⟩
  case done => exact fun h => done_eq_of_factSet h.facts
  case key_done =>
    exact fun hx hy hkey => done_eq_of_factSet (stateSignature_inj hx.facts hy.facts hkey)
  case step =>
    intro x y op y' hle hop hstep
    obtain ⟨hrequires, hchanges, hcost, hrisk, hforbidden, rfl⟩ := successor?_eq_some.1 hstep
    have hop' := hvalid op hop
    have hafter : factSet (x.advanced op).facts = factSet (y.advanced op).facts := by
      show factSet (addFacts _ _) = factSet (addFacts _ _)
      rw [factSet_applied, factSet_applied, hle.facts]
    have hcost' : (x.advanced op).cost ≤ (y.advanced op).cost := by
      show x.cost + op.expectedCost ≤ y.cost + op.expectedCost
      linarith [hle.cost]
    have hrisk' : (y.advanced op).riskComplement ≤ (x.advanced op).riskComplement :=
      mul_le_mul_of_nonneg_right hle.risk (by linarith [hop'.risk_le])
    refine ⟨x.advanced op, successor?_eq_some.2 ⟨?_, ?_, ?_, ?_, ?_, rfl⟩, hafter, hcost', hrisk'⟩
    · intro f hf
      exact (Set.ext_iff.1 hle.facts f).2 (hrequires f hf)
    · rw [changesAbstractState_iff hop'.consistent] at hchanges ⊢
      rw [hle.facts]
      exact hchanges
    · exact fun limit hlimit => hcost'.trans (hcost limit hlimit)
    · linarith
    · intro f hf hin
      exact hforbidden f hf ((Set.ext_iff.1 hafter f).1 hin)

/-- The successor's facts are distinct and plain, as the added ones are. -/
theorem signed_step (hadds : ∀ op ∈ q.operators, ∀ f ∈ op.adds, f ≠ "" ∧ Plain f)
    (x : Frontier) (op : PlanningOperator) (y : Frontier) (hx : x.Signed) (hop : op ∈ q.operators)
    (hstep : q.successor? x op = some y) : y.Signed := by
  obtain ⟨_, _, _, _, _, rfl⟩ := successor?_eq_some.1 hstep
  constructor
  · exact nodup_addFacts (nodup_deleteFacts hx.nodup)
  · intro f hf
    rcases mem_addFacts.1 hf with hadd | hkept
    · exact hadds op hop f hadd
    · exact hx.facts f (mem_deleteFacts.1 hkept).1

/-- Neither the beam nor the bound on the expanded states has been reached. -/
structure PlanningProblem.Within (q : PlanningProblem) (localeCompare : String → String → Int) :
    Prop where
  beam : ∀ depth ≤ q.maxDepth, (q.searched localeCompare depth).next.length ≤ q.beamWidth
  expanded : (q.searched localeCompare q.maxDepth).expanded < q.maxExpanded

theorem PlanningProblem.Within.uncut (h : q.Within localeCompare) :
    (q.pruned localeCompare).Uncut q.initialFrontier q.maxDepth := by
  constructor
  · intro depth hdepth x hx
    have hlength := h.beam depth hdepth
    show x ∈ (List.insertionSort _ _).take q.beamWidth
    rw [List.take_of_length_le (by rw [List.length_insertionSort]; exact hlength)]
    exact (List.mem_insertionSort _).2 hx
  · exact h.expanded

theorem mem_plans {plan : LookaheadPlan} (h : plan ∈ q.plans localeCompare) :
    ∃ x ∈ q.source localeCompare, ∃ index, plan = toPlan x q.goal index := by
  obtain ⟨index, hindex, hplan⟩ := List.mem_mapIdx.1
    ((List.mem_insertionSort _).1 (List.mem_of_mem_take h))
  exact ⟨_, List.getElem_mem hindex, index, hplan.symm⟩

theorem exists_plan (hbeam : 1 ≤ q.beamWidth) (h : q.source localeCompare ≠ []) :
    q.plans localeCompare ≠ [] := by
  intro hnil
  have hlength := congrArg List.length hnil
  have hpos := List.length_pos_of_ne_nil h
  rw [PlanningProblem.plans, List.length_take, List.length_insertionSort, List.length_mapIdx]
    at hlength
  change min q.beamWidth (q.source localeCompare).length = 0 at hlength
  omega

theorem mem_source {x : Frontier} (h : x ∈ q.source localeCompare) :
    x ∈ (q.searched localeCompare q.maxDepth).completed
    ∨ x ∈ (q.searched localeCompare q.maxDepth).frontier := by
  rw [PlanningProblem.source] at h
  split at h
  · exact .inl (List.mem_filter.1 h).1
  · exact .inr h

theorem source_completed {Good : Frontier → Prop}
    (hgood : (q.searched localeCompare q.maxDepth).Holds (q.pruned localeCompare) Good)
    (h : (q.searched localeCompare q.maxDepth).KeepsCompleted (q.pruned localeCompare))
    (hne : (q.searched localeCompare q.maxDepth).completed ≠ []) : q.source localeCompare ≠ []
    ∧ ∀ x ∈ q.source localeCompare, x ∈ (q.searched localeCompare q.maxDepth).completed := by
  obtain ⟨x, hx⟩ := List.exists_mem_of_ne_nil _ hne
  have hpareto : (q.searched localeCompare q.maxDepth).completed.filter (fun item =>
      item ∈ (q.searched localeCompare q.maxDepth).pareto (stateSignature item.facts)) ≠ [] := by
    obtain ⟨y, hy, hkept⟩ := h x hx
    have hkey : stateSignature y.facts = stateSignature x.facts := (hgood.pareto _ y hkept).2
    refine List.ne_nil_of_mem (List.mem_filter.2 ⟨hy, decide_eq_true ?_⟩)
    rw [hkey]
    exact hkept
  rw [PlanningProblem.source, if_pos hpareto]
  exact ⟨hpareto, fun x hx => (List.mem_filter.1 hx).1⟩


end

section
variable {initial : AbstractPlanningState} {operators : List PlanningOperator}
  {successFactKeys forbiddenFactKeys : List String} {options : LookaheadOptions}
  {q : PlanningProblem}

theorem Posed.valid (h : Posed initial operators successFactKeys forbiddenFactKeys options q) :
    ∀ op ∈ q.operators, op.Valid := by
  intro op hop
  obtain ⟨input, _, hok⟩ := exists_of_mapM_eq_ok h.operators hop
  exact (normalizeOperator_ok hok).2.1

theorem Posed.factSet_initial
    (h : Posed initial operators successFactKeys forbiddenFactKeys options q) :
    factSet q.initialFrontier.facts = factSet initial.facts := by
  ext f
  show f ∈ q.facts ↔ f ∈ initial.facts
  rw [h.facts, mem_unique]

theorem Posed.signed_initial
    (h : Posed initial operators successFactKeys forbiddenFactKeys options q)
    (hfacts : ∀ f ∈ initial.facts, Plain f) : q.initialFrontier.Signed := by
  constructor
  · show q.facts.Nodup
    rw [h.facts]
    exact unique_nodup _
  · intro f hf
    have hin : f ∈ initial.facts := by
      rw [← mem_unique, ← h.facts]
      exact hf
    exact ⟨h.facts_ne f hin, hfacts f hin⟩

theorem Posed.adds (h : Posed initial operators successFactKeys forbiddenFactKeys options q)
    (hadds : ∀ op ∈ operators, ∀ f ∈ op.adds, Plain f) :
    ∀ op ∈ q.operators, ∀ f ∈ op.adds, f ≠ "" ∧ Plain f := by
  intro op hop f hf
  obtain ⟨input, hinput, hok⟩ := exists_of_mapM_eq_ok h.operators hop
  obtain ⟨_, _, hsame, hne⟩ := normalizeOperator_ok hok
  exact ⟨hne f hf, hadds input hinput f ((hsame f).1 hf)⟩

variable (localeCompare : String → String → Int)

theorem Posed.signed (h : Posed initial operators successFactKeys forbiddenFactKeys options q)
    (hfacts : ∀ f ∈ initial.facts, Plain f) (hadds : ∀ op ∈ operators, ∀ f ∈ op.adds, Plain f)
    (depth : ℕ) : (q.searched localeCompare depth).Holds (q.pruned localeCompare) Frontier.Signed :=
  Pruned.search_holds (P := fun _ => Frontier.Signed) (h.signed_initial hfacts)
    (fun _ _ hx => hx) (fun _ => signed_step (h.adds hadds)) depth

variable {localeCompare} in
theorem Posed.feasible (h : Posed initial operators successFactKeys forbiddenFactKeys options q)
    {x : Frontier} {depth : ℕ} (hx : (q.pruned localeCompare).Reaches q.initialFrontier depth x) :
    ∃ ops, Feasible operators forbiddenFactKeys options.remainingCostBudget
        (options.maximumRisk.getD 1) (factSet initial.facts) ops (factSet x.facts)
      ∧ ops.length ≤ depth ∧ x.operatorIds = ops.map (·.id) := by
  obtain ⟨run, hin, hlength, hrun⟩ := hx
  obtain ⟨ops, hops, hsame⟩ := exists_inputs h.operators hin
  obtain ⟨hexec, hcost, hrisk, hids, hlimit, hmax⟩ :=
    executes_of_run (fun op hop => h.valid op (hin op hop)) hrun
  have hcost' : x.cost = totalCost ops := by
    rw [hcost, totalCost_same hsame]
    exact zero_add _
  have hrisk' : 1 - x.riskComplement = combinedRisk ops := by
    rw [hrisk, ← safety_same hsame, combinedRisk]
    show 1 - 1 * safety ops = _
    rw [one_mul]
  refine ⟨ops, ⟨hops, ?_, ?_, ?_⟩, ?_, ?_⟩
  · rw [← h.factSet_initial]
    refine hexec.same (same_symm hsame) ?_
    intro f hf
    rw [h.forbidden]
    exact mem_unique.2 hf
  · rw [← hcost', ← h.budget]
    exact hlimit h.budget_nonneg
  · rw [← hrisk', ← h.maxRisk]
    apply hmax
    show 1 - 1 ≤ q.maxRisk
    linarith [h.maxRisk_nonneg]
  · rw [hsame.length_eq]
    exact hlength
  · rw [hids, ids_same hsame]
    rfl

/-- Operators that can be executed within the limits can be followed by the
search. -/
theorem Posed.run (h : Posed initial operators successFactKeys forbiddenFactKeys options q)
    {ops : List PlanningOperator} {final : Set String}
    (hops : Feasible operators forbiddenFactKeys options.remainingCostBudget
      (options.maximumRisk.getD 1) (factSet initial.facts) ops final) :
    ∃ (run : List PlanningOperator) (x : Frontier), (∀ op ∈ run, op ∈ q.operators)
    ∧ run.length = ops.length
    ∧ run.foldlM q.successor? q.initialFrontier = some x ∧ factSet x.facts = final := by
  obtain ⟨run, hin, hsame⟩ := exists_normalized h.operators hops.listed
  have hexec : Executes q.forbidden (factSet q.initialFrontier.facts) run final := by
    rw [h.factSet_initial]
    refine hops.executes.same hsame ?_
    intro f hf
    rw [h.forbidden] at hf
    exact mem_unique.1 hf
  have hcost : ∀ limit ∈ q.budget, q.initialFrontier.cost + totalCost run ≤ limit := by
    intro limit hlimit
    show 0 + totalCost run ≤ limit
    rw [zero_add, ← totalCost_same hsame]
    rw [h.budget] at hlimit
    exact hops.cost limit hlimit
  have hrisk : 1 - q.initialFrontier.riskComplement * safety run ≤ q.maxRisk := by
    show 1 - 1 * safety run ≤ q.maxRisk
    rw [one_mul, ← safety_same hsame, h.maxRisk]
    exact hops.risk
  obtain ⟨x, hrun, hfinal⟩ := run_of_executes (fun op hop => h.valid op (hin op hop)) hexec
    (show (0 : ℚ) ≤ 1 from zero_le_one) hcost hrisk
  exact ⟨run, x, hin, hsame.length_eq.symm, hrun, hfinal⟩

/-- What a plan says of its sequence. -/
structure LookaheadPlan.Describes (plan : LookaheadPlan) (successFactKeys : List String)
    (ops : List PlanningOperator) (final : Set String) : Prop where
  nodeIds : plan.candidate.nodeIds = ops.map (·.id)
  sorted : unique plan.resultingFacts = plan.resultingFacts
  facts : factSet plan.resultingFacts = final
  goal : plan.goalSatisfied = true ↔ ∀ f ∈ successFactKeys, f ∈ final

theorem Posed.goal_iff (h : Posed initial operators successFactKeys forbiddenFactKeys options q)
    (x : Frontier) :
    (q.pruned localeCompare).done x = true ↔ ∀ f ∈ successFactKeys, f ∈ factSet x.facts := by
  show q.goal.all _ = true ↔ _
  rw [List.all_eq_true, h.goal]
  constructor
  · intro hall f hf
    exact (of_decide_eq_true (hall f (mem_unique.2 hf)) : f ∈ x.facts)
  · intro hall f hf
    exact decide_eq_true (show f ∈ x.facts from hall f (mem_unique.1 hf))

theorem Posed.plan (h : Posed initial operators successFactKeys forbiddenFactKeys options q)
    (hfacts : ∀ f ∈ initial.facts, Plain f) (hadds : ∀ op ∈ operators, ∀ f ∈ op.adds, Plain f)
    {plan : LookaheadPlan} (hplan : plan ∈ q.plans localeCompare) :
    ∃ ops final, Feasible operators forbiddenFactKeys options.remainingCostBudget
        (options.maximumRisk.getD 1) (factSet initial.facts) ops final
      ∧ ops.length ≤ options.maxDepth.getD 6 ∧ plan.Describes successFactKeys ops final := by
  obtain ⟨x, hx, index, rfl⟩ := mem_plans hplan
  have hreaches := Pruned.search_reaches (q.pruned localeCompare) q.initialFrontier q.maxDepth
  have hsigned := h.signed localeCompare hfacts hadds q.maxDepth
  have hboth : (q.pruned localeCompare).Reaches q.initialFrontier q.maxDepth x ∧ x.Signed := by
    rcases mem_source hx with hx | hx
    · exact ⟨(hreaches.completed x hx).1, (hsigned.completed x hx).1⟩
    · exact ⟨hreaches.frontier x hx, hsigned.frontier x hx⟩
  obtain ⟨ops, hfeasible, hlength, hids⟩ := h.feasible hboth.1
  rw [h.maxDepth] at hlength
  refine ⟨ops, _, hfeasible, hlength, ⟨hids, ?_, ?_, h.goal_iff localeCompare x⟩⟩
  · exact unique_of_sorted hboth.2.nodup
  · ext f
    exact mem_sortTexts

end

-- === the plans that are made

/-- Every plan is a feasible sequence with its outcome, and when neither bound is
reached a plan for the goal is found exactly when there is a feasible sequence
to it that is short enough. -/
theorem searchCounterfactualPlans_iff (localeCompare : String → String → Int)
    (initial : AbstractPlanningState) (operators : List PlanningOperator)
    (successFactKeys forbiddenFactKeys : List String) (options : LookaheadOptions)
    (plans : List LookaheadPlan) (hfacts : ∀ f ∈ initial.facts, Plain f)
    (hadds : ∀ op ∈ operators, ∀ f ∈ op.adds, Plain f)
    (h : searchCounterfactualPlans localeCompare initial operators successFactKeys
      forbiddenFactKeys options = .ok plans) :
    (∀ plan ∈ plans, ∃ ops final, Feasible operators forbiddenFactKeys options.remainingCostBudget
        (options.maximumRisk.getD 1) (factSet initial.facts) ops final
      ∧ plan.Describes successFactKeys ops final)
    ∧ ∃ q, planningProblem initial operators successFactKeys forbiddenFactKeys options = .ok q
    ∧ (q.Within localeCompare → (¬ ∀ f ∈ successFactKeys, f ∈ initial.facts) →
      ((∃ plan ∈ plans, plan.goalSatisfied = true) ↔ ∃ ops final,
        Feasible operators forbiddenFactKeys options.remainingCostBudget
          (options.maximumRisk.getD 1) (factSet initial.facts) ops final
        ∧ ops.length ≤ options.maxDepth.getD 6 ∧ ∀ f ∈ successFactKeys, f ∈ final)) := by
  rw [searchCounterfactualPlans] at h
  obtain ⟨q, hq, hplans⟩ := bind_eq_ok.1 h
  cases hplans
  have hposed := planningProblem_ok hq
  have hplan : ∀ plan ∈ q.plans localeCompare, _ :=
    fun plan hin => hposed.plan localeCompare hfacts hadds hin
  refine ⟨?_, q, hq, ?_⟩
  · intro plan hin
    obtain ⟨ops, final, hfeasible, _, hdescribes⟩ := hplan plan hin
    exact ⟨ops, final, hfeasible, hdescribes⟩
  · intro hwithin hunmet
    constructor
    · intro hfound
      obtain ⟨plan, hin, hgoal⟩ := hfound
      obtain ⟨ops, final, hfeasible, hlength, hdescribes⟩ := hplan plan hin
      exact ⟨ops, final, hfeasible, hlength, hdescribes.goal.1 hgoal⟩
    · intro hsequence
      obtain ⟨ops, final, hfeasible, hlength, hgoal⟩ := hsequence
      obtain ⟨run, x, hin, hsame, hrun, rfl⟩ := hposed.run hfeasible
      have hsigned := hposed.signed localeCompare hfacts hadds
      have hstep := signed_step (hposed.adds hadds)
      have himproves := pruned_improves localeCompare hposed.valid
      have hinitial : (q.pruned localeCompare).done q.initialFrontier = false := by
        rw [Bool.eq_false_iff]
        intro hdone
        have hmet := (hposed.goal_iff localeCompare q.initialFrontier).1 hdone
        rw [hposed.factSet_initial] at hmet
        exact hunmet hmet
      have hcompleted : (q.searched localeCompare q.maxDepth).completed ≠ [] :=
        Pruned.completed_ne_nil himproves (hposed.signed_initial hfacts) hstep hinitial
          hwithin.uncut hin (by rw [hsame, hposed.maxDepth]; exact hlength) hrun
          ((hposed.goal_iff localeCompare x).2 hgoal)
      have hkeeps := Pruned.search_keepsCompleted himproves (hposed.signed_initial hfacts) hstep
        q.maxDepth
      obtain ⟨hsource, hdone⟩ := source_completed (hsigned q.maxDepth) hkeeps hcompleted
      obtain ⟨plan, hplanIn⟩ :=
        List.exists_mem_of_ne_nil _ (exists_plan hposed.beamWidth hsource)
      refine ⟨plan, hplanIn, ?_⟩
      obtain ⟨y, hy, index, rfl⟩ := mem_plans hplanIn
      exact ((hsigned q.maxDepth).completed y (hdone y hy)).2

def sampleOperator (id fact next : String) : PlanningOperator where
  id
  requires := [fact]
  adds := [next]
  removes := []
  expectedSuccess := 9 / 10
  expectedInformationGain := 1 / 10
  expectedCost := 1
  risk := 1 / 10
  verificationStrength := 1 / 2
  reversible := true

def sampleOperators : List PlanningOperator :=
  [sampleOperator "a" "s" "r", sampleOperator "b" "r" "d"]

def sampleProblem : PlanningProblem where
  facts := ["s"]
  operators := sampleOperators
  goal := ["d"]
  forbidden := ["x"]
  maxDepth := 2
  beamWidth := 20
  maxExpanded := 5000
  budget := some 2
  maxRisk := 1 / 5

def sampleOptions : LookaheadOptions where
  maxDepth := some 2
  remainingCostBudget := some 2
  maximumRisk := some (1 / 5)

theorem planningProblem_sample :
    planningProblem ⟨["s"]⟩ sampleOperators ["d"] ["x"] sampleOptions = .ok sampleProblem := by
  decide +kernel

theorem sampleProblem_within : sampleProblem.Within (fun _ _ => 0) := by
  constructor
  · decide +kernel
  · decide +kernel

/-- Two operators, the second of which needs the first. -/
theorem sample_plan_found :
    ∃ plan ∈ sampleProblem.plans (fun _ _ => 0), plan.goalSatisfied = true := by
  have hsearch : searchCounterfactualPlans (fun _ _ => 0) ⟨["s"]⟩ sampleOperators ["d"] ["x"]
      sampleOptions = .ok (sampleProblem.plans fun _ _ => 0) := by
    rw [searchCounterfactualPlans, planningProblem_sample]
    rfl
  obtain ⟨_, q, hq, hiff⟩ := searchCounterfactualPlans_iff (fun _ _ => 0) ⟨["s"]⟩ sampleOperators
    ["d"] ["x"] sampleOptions _ (by unfold Plain; decide) (by unfold Plain; decide) hsearch
  obtain rfl : sampleProblem = q := Except.ok.inj (planningProblem_sample.symm.trans hq)
  have hchanges : ∀ {id fact next : String} {facts : Set String}, next ∉ facts →
      (sampleOperator id fact next).after facts ≠ facts := by
    intro id fact next facts hnew hsame
    have hin : next ∈ (sampleOperator id fact next).after facts := .inl List.mem_cons_self
    rw [hsame] at hin
    exact hnew hin
  have hexec : Executes ["x"] (factSet ["s"]) sampleOperators
      ((sampleOperator "b" "r" "d").after ((sampleOperator "a" "s" "r").after (factSet ["s"]))) := by
    refine Executes.cons ?_ (hchanges ?_) ?_ (Executes.cons ?_ (hchanges ?_) ?_ (Executes.nil _))
    · simp [sampleOperator, factSet]
    · simp [factSet]
    · simp [sampleOperator, factSet, PlanningOperator.after]
    · simp [sampleOperator, factSet, PlanningOperator.after]
    · simp [sampleOperator, factSet, PlanningOperator.after]
    · simp [sampleOperator, factSet, PlanningOperator.after]
  refine (hiff sampleProblem_within (by decide)).2 ⟨sampleOperators, _, ⟨?_, hexec, ?_, ?_⟩, ?_, ?_⟩
  · exact fun op hop => hop
  · decide +kernel
  · decide +kernel
  · decide
  · intro f hf
    rw [List.mem_singleton.1 hf]
    exact .inl List.mem_cons_self

end OperatorRuntime.Plan
