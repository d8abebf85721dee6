/-
The goals that `compileGoal` accepts, and what facts would meet them.

The checks compare the hard requirements of a goal in pairs. One pair is
compared only in part: a fact the goal forbids and a MUST constraint on
it, which is refused when it names no value and let through when it names
one. Every other clash is found, so a compiled goal can be met exactly
when no MUST constraint is on a forbidden fact.
-/
import Mathlib.Data.Fintype.BigOperators
import OperatorRuntime.Plan.Proofs.Normal

namespace OperatorRuntime.Plan

open Lib

-- ===== free digests

theorem hexChar_injective : Function.Injective hexChar := by
  intro a b h
  revert a b
  decide

def digestOf (digits : Fin 64 → Fin 16) : Hex64 :=
  ⟨String.ofList ((List.ofFn digits).map hexChar), by
    have h := matchesClasses_hex (List.ofFn digits)
    rw [List.length_ofFn] at h
    rw [String.toList_ofList]
    exact h⟩

theorem digestOf_injective : Function.Injective digestOf := by
  intro a b h
  have htext : (List.ofFn a).map hexChar = (List.ofFn b).map hexChar :=
    String.ofList_injective (congrArg Subtype.val h)
  exact List.ofFn_injective (List.map_injective_iff.2 hexChar_injective htext)

theorem exists_free_digest {l : List Hex64} (h : l.length < 2 ^ 32) : ∃ d, d ∉ l := by
  have hcard : l.toFinset.card < (Finset.univ.image digestOf).card := by
    rw [Finset.card_image_of_injective _ digestOf_injective, Finset.card_univ, Fintype.card_fun,
      Fintype.card_fin, Fintype.card_fin]
    calc l.toFinset.card
      _ ≤ l.length := List.toFinset_card_le l
      _ < 2 ^ 32 := h
      _ ≤ 16 ^ 64 := by norm_num
  obtain ⟨d, _, hd⟩ := Finset.exists_mem_notMem_of_card_lt_card hcard
  exact ⟨d, fun hin => hd (List.mem_toFinset.2 hin)⟩

-- ==== goals that are met

/-- A fact is absent, or it has one value, known by its digest. -/
abbrev Facts := String → Option Hex64

/-- A constraint that is hard, met by the facts. -/
def GoalConstraint.Met (facts : Facts) (c : GoalConstraint) : Prop :=
  match c.strength with
  | .must => ∃ v, facts c.factKey = some v ∧ ∀ d ∈ c.expectedValueDigest, v.val = d
  | .mustNot => ∀ v, facts c.factKey = some v → ∃ d ∈ c.expectedValueDigest, v.val ≠ d
  | .should => True
  | .may => True

structure CompiledGoal.Met (facts : Facts) (goal : CompiledGoal) : Prop where
  success : ∀ key ∈ goal.successFactKeys, facts key ≠ none
  forbidden : ∀ key ∈ goal.forbiddenFactKeys, facts key = none
  constraints : ∀ c ∈ goal.constraints, c.Met facts

def CompiledGoal.Satisfiable (goal : CompiledGoal) : Prop :=
  ∃ facts, goal.Met facts

-- ===== what was checked

/-- What `compileGoal` has found out about the goal that it answers. -/
structure Compiled (goal : CompiledGoal) : Prop where
  apart : ∀ key ∈ goal.successFactKeys, key ∉ goal.forbiddenFactKeys
  digests : ∀ c ∈ goal.constraints, ∀ d ∈ c.expectedValueDigest, IsDigest d
  one : ∀ c ∈ goal.constraints, ∀ c' ∈ goal.constraints, c.strength = .must →
    c'.strength = .must → c.factKey = c'.factKey →
    ∀ d ∈ c.expectedValueDigest, ∀ d' ∈ c'.expectedValueDigest, d = d'
  other : ∀ c ∈ goal.constraints, ∀ c' ∈ goal.constraints, c.strength = .must →
    c'.strength = .mustNot → c.factKey = c'.factKey →
    ∃ d ∈ c.expectedValueDigest, ∃ d' ∈ c'.expectedValueDigest, d ≠ d'
  denied : ∀ c ∈ goal.constraints, c.strength = .mustNot → c.factKey ∈ goal.successFactKeys →
    c.expectedValueDigest ≠ none

section
variable {constraints : List GoalConstraint} {c : GoalConstraint} {strength : ConstraintStrength}

theorem mem_constraintFacts (hc : c ∈ constraints) (hstrength : c.strength = strength) :
    c.factKey ∈ constraintFacts constraints strength := by
  rw [constraintFacts, List.mem_eraseDups]
  exact List.mem_map_of_mem (List.mem_filter.2 ⟨hc, decide_eq_true hstrength⟩)

theorem mem_constraintValues (hc : c ∈ constraints) (hstrength : c.strength = strength) :
    c.expectedValueDigest ∈ constraintValues constraints strength c.factKey :=
  List.mem_map_of_mem (List.mem_filter.2 ⟨hc, decide_eq_true ⟨hstrength, rfl⟩⟩)

end

theorem normalizeConstraint_ok {input c : GoalConstraint} (h : normalizeConstraint input = .ok c) :
    c.strength = input.strength ∧ c.factKey = input.factKey
    ∧ ∀ d ∈ c.expectedValueDigest, IsDigest d := by
  rw [normalizeConstraint] at h
  obtain ⟨id, _, h⟩ := bind_eq_ok.1 h
  obtain ⟨factKey, hkey, h⟩ := bind_eq_ok.1 h
  obtain ⟨digest, hdigest, h⟩ := bind_eq_ok.1 h
  obtain ⟨description, _, h⟩ := bind_eq_ok.1 h
  cases h
  refine ⟨rfl, (bounded_eq_ok.1 hkey).1, ?_⟩
  intro d hd
  rw [Option.mem_def] at hd
  subst hd
  rw [ifPresent] at hdigest
  cases hgiven : input.expectedValueDigest.filter fun text => text != "" with
  | none =>
    rw [hgiven] at hdigest
    cases hdigest
  | some text =>
    rw [hgiven] at hdigest
    obtain ⟨text', hnormal, hsome⟩ := bind_eq_ok.1
      (show digestText text "constraint.expectedValueDigest" >>= (fun b => .ok (some b))
        = .ok (some d) from hdigest)
    obtain rfl := Option.some.inj (Except.ok.inj hsome)
    exact isDigest_of_digestText hnormal

theorem compiled_of_ok {draft : GoalDraft} {goal : CompiledGoal}
    (h : compileGoal draft = .ok goal) :
    Compiled goal ∧ draft.constraints.mapM normalizeConstraint = .ok goal.constraints
    ∧ ∀ key, key ∈ goal.forbiddenFactKeys ↔ key ∈ draft.forbiddenFactKeys := by
  rw [compileGoal] at h
  obtain ⟨success, _, h⟩ := bind_eq_ok.1 h
  obtain ⟨_, _, h⟩ := bind_eq_ok.1 h
  obtain ⟨forbidden, hforbidden, h⟩ := bind_eq_ok.1 h
  obtain ⟨_, hoverlap, h⟩ := bind_eq_ok.1 h
  obtain ⟨constraints, hconstraints, h⟩ := bind_eq_ok.1 h
  obtain ⟨_, _, h⟩ := bind_eq_ok.1 h
  obtain ⟨_, hone, h⟩ := bind_eq_ok.1 h
  obtain ⟨_, hother, h⟩ := bind_eq_ok.1 h
  obtain ⟨_, heach, h⟩ := bind_eq_ok.1 h
  iterate 4 obtain ⟨_, _, h⟩ := bind_eq_ok.1 h
  cases h
  obtain ⟨rfl, _⟩ := (mapM_eq_ok bounded_eq_ok).1 hforbidden
  rw [throwIf_eq_ok, not_not] at hoverlap
  refine ⟨?_, hconstraints, fun key => mem_unique⟩
  constructor
  case apart =>
    intro key hkey hin
    exact List.filter_eq_nil_iff.1 hoverlap key hkey (decide_eq_true hin)
  case digests =>
    intro c hc
    obtain ⟨input, _, hinput⟩ := exists_of_mapM_eq_ok hconstraints hc
    exact (normalizeConstraint_ok hinput).2.2
  case one =>
    intro c hc c' hc' hmust hmust' hkey d hd d' hd'
    have hcheck := forM_eq_ok.1 hone _ (mem_constraintFacts hc hmust)
    rw [throwIf_eq_ok, Nat.not_lt] at hcheck
    have hvalue := List.mem_filterMap.2 ⟨_, mem_constraintValues hc hmust, (show id _ = some d from hd)⟩
    have hvalue' := List.mem_filterMap.2 ⟨_, mem_constraintValues hc' hmust', (show id _ = some d' from hd')⟩
    rw [← hkey] at hvalue'
    by_contra hne
    have hsub : [d, d'] ⊆ ((constraintValues constraints .must c.factKey).filterMap id).dedup := by
      intro x hx
      rcases List.mem_pair.1 hx with rfl | rfl
      · exact List.mem_dedup.2 hvalue
      · exact List.mem_dedup.2 hvalue'
    have htwo := (List.subperm_of_subset (List.pairwise_pair.2 hne) hsub).length_le.trans hcheck
    exact absurd htwo (Nat.not_succ_le_self 1)
  case other =>
    intro c hc c' hc' hmust hnot hkey
    have hcheck := forM_eq_ok.1 hother _ (mem_constraintFacts hc hmust)
    have hvalue := mem_constraintValues hc hmust
    have hvalue' := mem_constraintValues hc' hnot
    rw [← hkey] at hvalue'
    rw [throwIf_eq_ok, not_and, not_or, not_or] at hcheck
    obtain ⟨hsome, hsome', hapart⟩ := hcheck (List.ne_nil_of_mem hvalue')
    cases hd : c.expectedValueDigest with
    | none => exact absurd (hd ▸ hvalue) hsome
    | some d =>
      cases hd' : c'.expectedValueDigest with
      | none => exact absurd (hd' ▸ hvalue') hsome'
      | some d' =>
        refine ⟨d, rfl, d', rfl, ?_⟩
        intro heq
        rw [hd] at hvalue
        rw [hd', ← heq] at hvalue'
        exact hapart ⟨some d, hvalue, hvalue'⟩
  case denied =>
    intro c hc hnot hkey hnone
    obtain ⟨_, hfirst, _⟩ := bind_eq_ok.1 (forM_eq_ok.1 heach c hc)
    exact throwIf_eq_ok.1 hfirst ⟨hnot, hkey, hnone⟩

-- ===== facts for a goal

section
variable {goal : CompiledGoal} {key : String}

/-- The value that the MUST constraints on a fact ask for. -/
def mustValue (goal : CompiledGoal) (key : String) : Option Hex64 :=
  (constraintValues goal.constraints .must key).findSome? fun value => value.bind hex64?

/-- The values that MUST_NOT constraints name. -/
def deniedValues (goal : CompiledGoal) : List Hex64 :=
  goal.constraints.filterMap fun c => c.expectedValueDigest.bind hex64?

/-- The value that is asked for, and a free one where only presence is. -/
def factsFor (goal : CompiledGoal) (free : Hex64) : Facts := fun key =>
  (mustValue goal key).or
    (if key ∈ goal.successFactKeys ∨ key ∈ constraintFacts goal.constraints .must then some free
      else none)

theorem mustValue_eq_some (hgoal : Compiled goal) {v : Hex64} (h : mustValue goal key = some v) :
    ∃ c ∈ goal.constraints, c.strength = .must ∧ c.factKey = key
    ∧ c.expectedValueDigest = some v.val := by
  obtain ⟨value, hvalue, hhex⟩ := List.exists_of_findSome?_eq_some h
  obtain ⟨c, hc, rfl⟩ := List.mem_map.1 hvalue
  obtain ⟨hin, hmatch⟩ := List.mem_filter.1 hc
  obtain ⟨hmust, hkey⟩ := of_decide_eq_true hmatch
  obtain ⟨d, hd, hdv⟩ := Option.bind_eq_some_iff.1 hhex
  obtain ⟨digest, rfl⟩ := hgoal.digests c hin d hd
  rw [hex64_val] at hdv
  obtain rfl := Option.some.inj hdv
  exact ⟨c, hin, hmust, hkey, hd⟩

theorem mustValue_of_mem (hgoal : Compiled goal) {c : GoalConstraint} (hc : c ∈ goal.constraints)
    (hmust : c.strength = .must) {d : String} (hd : c.expectedValueDigest = some d) :
    ∃ v, mustValue goal c.factKey = some v ∧ v.val = d := by
  obtain ⟨digest, rfl⟩ := hgoal.digests c hc d hd
  cases hvalue : mustValue goal c.factKey with
  | none =>
    have hnone := List.findSome?_eq_none_iff.1 hvalue _ (mem_constraintValues hc hmust)
    rw [hd, Option.bind_some, hex64_val] at hnone
    cases hnone
  | some v =>
    obtain ⟨c', hc', hmust', hkey, hd'⟩ := mustValue_eq_some hgoal hvalue
    exact ⟨v, rfl, hgoal.one c' hc' c hc hmust' hmust hkey _ hd' _ hd⟩

theorem factsFor_met (hgoal : Compiled goal) {free : Hex64} (hfree : free ∉ deniedValues goal)
    (hmust : ∀ c ∈ goal.constraints, c.strength = .must → c.factKey ∉ goal.forbiddenFactKeys) :
    goal.Met (factsFor goal free) := by
  constructor
  case success =>
    intro key hkey hnone
    obtain ⟨_, hpresent⟩ := Option.or_eq_none_iff.1 hnone
    rw [if_pos (.inl hkey)] at hpresent
    cases hpresent
  case forbidden =>
    intro key hkey
    refine Option.or_eq_none_iff.2 ⟨?_, if_neg ?_⟩
    · cases hvalue : mustValue goal key with
      | none => rfl
      | some v =>
        obtain ⟨c, hc, hstrength, rfl, _⟩ := mustValue_eq_some hgoal hvalue
        exact absurd hkey (hmust c hc hstrength)
    · intro hor
      rcases hor with hsuccess | hfact
      · exact hgoal.apart key hsuccess hkey
      · rw [constraintFacts, List.mem_eraseDups] at hfact
        obtain ⟨c, hc, rfl⟩ := List.mem_map.1 hfact
        obtain ⟨hin, hstrength⟩ := List.mem_filter.1 hc
        exact hmust c hin (of_decide_eq_true hstrength) hkey
  case constraints =>
    intro c hc
    rw [GoalConstraint.Met]
    cases hstrength : c.strength with
    | should => trivial
    | may => trivial
    | must =>
      cases hd : c.expectedValueDigest with
      | some d =>
        obtain ⟨v, hvalue, rfl⟩ := mustValue_of_mem hgoal hc hstrength hd
        refine ⟨v, ?_, fun d hd => Option.some.inj hd⟩
        rw [factsFor, hvalue, Option.some_or]
      | none =>
        cases hvalue : mustValue goal c.factKey with
        | some v => exact ⟨v, by rw [factsFor, hvalue, Option.some_or], fun d hd => nomatch hd⟩
        | none =>
          refine ⟨free, ?_, fun d hd => nomatch hd⟩
          rw [factsFor, hvalue, Option.none_or,
            if_pos (.inr (mem_constraintFacts hc hstrength))]
    | mustNot =>
      intro v hv
      rcases Option.or_eq_some_iff.1 hv with hvalue | ⟨_, hpresent⟩
      · obtain ⟨c', hc', hmust', hkey, hd'⟩ := mustValue_eq_some hgoal hvalue
        obtain ⟨d', hd'', d, hd, hne⟩ := hgoal.other c' hc' c hc hmust' hstrength hkey
        rw [Option.mem_def, hd'] at hd''
        exact ⟨d, hd, by rw [Option.some.inj hd'']; exact hne⟩
      · split at hpresent
        · next hor =>
          obtain rfl := Option.some.inj hpresent
          have hsome : ∃ d, d ∈ c.expectedValueDigest := by
            rcases hor with hsuccess | hfact
            · exact Option.ne_none_iff_exists'.1 (hgoal.denied c hc hstrength hsuccess)
            · rw [constraintFacts, List.mem_eraseDups] at hfact
              obtain ⟨c', hc', hkey⟩ := List.mem_map.1 hfact
              obtain ⟨hin, hmust'⟩ := List.mem_filter.1 hc'
              obtain ⟨_, _, d, hd, _⟩ :=
                hgoal.other c' hin c hc (of_decide_eq_true hmust') hstrength hkey
              exact ⟨d, hd⟩
          obtain ⟨d, hd⟩ := hsome
          refine ⟨d, hd, ?_⟩
          intro heq
          refine hfree (List.mem_filterMap.2 ⟨c, hc, ?_⟩)
          rw [hd, Option.bind_some, ← heq, hex64_val]
        · cases hpresent

end

-- === the goals it accepts

/-- A goal that was compiled can be met exactly when no MUST constraint is on a
fact that is forbidden. An array holds fewer than 2^32 constraints, so some
digest is named by none of them. -/
theorem compileGoal_satisfiable_iff (draft : GoalDraft) (goal : CompiledGoal)
    (h : compileGoal draft = .ok goal) (harray : draft.constraints.length < 2 ^ 32) :
    goal.Satisfiable ↔ ∀ c ∈ draft.constraints, c.strength = .must →
      c.factKey ∉ draft.forbiddenFactKeys := by
  obtain ⟨hgoal, hconstraints, hforbidden⟩ := compiled_of_ok h
  have hmust : (∀ c ∈ draft.constraints, c.strength = .must → c.factKey ∉ draft.forbiddenFactKeys) ↔
      ∀ c ∈ goal.constraints, c.strength = .must → c.factKey ∉ goal.forbiddenFactKeys := by
    constructor
    · intro hdraft c hc hstrength
      obtain ⟨input, hinput, hok⟩ := exists_of_mapM_eq_ok hconstraints hc
      obtain ⟨hsame, hkey, _⟩ := normalizeConstraint_ok hok
      rw [hkey, hforbidden]
      exact hdraft input hinput (hsame ▸ hstrength)
    · intro hnormal input hinput hstrength
      obtain ⟨c, hc, hok⟩ := exists_answer_of_mapM hconstraints hinput
      obtain ⟨hsame, hkey, _⟩ := normalizeConstraint_ok hok
      rw [← hkey, ← hforbidden]
      exact hnormal c hc (hsame.trans hstrength)
  rw [hmust]
  constructor
  · intro hsat c hc hstrength hkey
    obtain ⟨facts, hmet⟩ := hsat
    have hpresent := hmet.constraints c hc
    rw [GoalConstraint.Met, hstrength] at hpresent
    obtain ⟨v, hv, _⟩ := hpresent
    rw [hmet.forbidden _ hkey] at hv
    cases hv
  · intro hapart
    have hlength : (deniedValues goal).length < 2 ^ 32 :=
      calc (deniedValues goal).length
        _ ≤ goal.constraints.length := List.length_filterMap_le _ _
        _ = draft.constraints.length := length_mapM hconstraints
        _ < 2 ^ 32 := harray
    obtain ⟨free, hfree⟩ := exists_free_digest hlength
    exact ⟨factsFor goal free, factsFor_met hgoal hfree hapart⟩

theorem sixteen_pos : 0 < 16 := by decide

def zeros : Hex64 := digestOf fun _ => ⟨0, sixteen_pos⟩

/-- The fact `f` must have a value, and other facts are forbidden. -/
def valuedDraft (forbiddenFactKeys : List String) : GoalDraft where
  id := "g"
  kind := "k"
  objective := "o"
  successFactKeys := ["s"]
  forbiddenFactKeys
  constraints := [⟨"c", .must, "f", some zeros.val, "d"⟩]
  unresolvedAssumptions := []

def valuedGoal (forbiddenFactKeys : List String) : CompiledGoal where
  id := "g"
  kind := "k"
  objective := "o"
  successFactKeys := ["s"]
  forbiddenFactKeys
  constraints := [⟨"c", .must, "f", some zeros.val, "d"⟩]
  unresolvedAssumptions := []

theorem compileGoal_valuedDraft {key : String} (hkey : key ∈ ["f", "g"]) :
    compileGoal (valuedDraft [key]) = .ok (valuedGoal [key]) := by
  have hconstraints : (valuedDraft [key]).constraints.mapM normalizeConstraint
      = .ok (valuedGoal [key]).constraints := by
    apply mapM_eq_self
    intro c hc
    have hdigest : ifPresent (some zeros.val) (digestText · "constraint.expectedValueDigest")
        = .ok (some zeros.val) := by
      have hdigest := @digestText_eq_self "constraint.expectedValueDigest" _ ⟨zeros, rfl⟩
      rw [ifPresent, Option.filter_some_pos]
      · show digestText _ _ >>= (fun b => Except.ok (some b)) = _
        rw [hdigest]
        rfl
      · simpa using digestText_ne_empty hdigest
    rw [List.mem_singleton.1 hc, normalizeConstraint, hdigest]
    rfl
  rw [compileGoal, hconstraints]
  rcases List.mem_pair.1 hkey with rfl | rfl
  · rfl
  · rfl

/-- A goal with a value to reach, and another fact forbidden. -/
theorem valuedGoal_satisfiable : (valuedGoal ["g"]).Satisfiable := by
  apply (compileGoal_satisfiable_iff (valuedDraft ["g"]) (valuedGoal ["g"])
    (compileGoal_valuedDraft (by decide)) (by decide)).2
  intro c hc _
  rw [List.mem_singleton.1 hc]
  decide

/-- The value that the fact must have is named, and the fact is forbidden. -/
theorem forbidden_value_compiles :
    ∃ goal, compileGoal (valuedDraft ["f"]) = .ok goal ∧ ¬ goal.Satisfiable := by
  refine ⟨valuedGoal ["f"], compileGoal_valuedDraft (by decide), ?_⟩
  intro hsat
  obtain ⟨facts, hmet⟩ := hsat
  obtain ⟨v, hv, _⟩ := hmet.constraints _ List.mem_cons_self
  rw [hmet.forbidden "f" List.mem_cons_self] at hv
  cases hv

end OperatorRuntime.Plan
