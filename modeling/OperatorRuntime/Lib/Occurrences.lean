/-
The places where a list occurs in another, and those among them that are taken
from left to right without overlap: each is the first after the end of the one
before it.
-/
import Mathlib.Data.List.Range
import Mathlib.Data.Nat.Basic

namespace OperatorRuntime.Lib

universe u

variable {α : Type u} {needle text : List α} {start p : ℕ} {ps : List ℕ}

def OccursAt (needle text : List α) (p : ℕ) : Prop :=
  p ≤ text.length ∧ needle <+: text.drop p

/-- The places from `start` on, taken from left to right. -/
inductive LeftToRight (needle text : List α) : ℕ → List ℕ → Prop
  | done {start : ℕ} : (∀ p, start ≤ p → ¬ OccursAt needle text p) →
      LeftToRight needle text start []
  | next {start p : ℕ} {ps : List ℕ} : start ≤ p → OccursAt needle text p →
      (∀ q, start ≤ q → q < p → ¬ OccursAt needle text q) →
      LeftToRight needle text (p + max needle.length 1) ps →
      LeftToRight needle text start (p :: ps)

theorem LeftToRight.unique (h : LeftToRight needle text start ps) {qs : List ℕ}
    (h' : LeftToRight needle text start qs) : ps = qs := by
  induction h generalizing qs with
  | done hnone =>
    cases h' with
    | done _ => rfl
    | next hle hocc _ _ => exact absurd hocc (hnone _ hle)
  | @next start p ps hle hocc hleast _ ih =>
    cases h' with
    | done hnone => exact absurd hocc (hnone _ hle)
    | @next _ q qs hle' hocc' hleast' hrest =>
      have heq : p = q := by
        rcases Nat.lt_trichotomy p q with hlt | heq | hlt
        · exact absurd hocc (hleast' p hle hlt)
        · exact heq
        · exact absurd hocc' (hleast q hle' hlt)
      subst heq
      rw [ih hrest]

section
variable [DecidableEq α]

/-- `text.indexOf(needle, start)`. -/
def indexFrom (needle text : List α) (start : ℕ) : Option ℕ :=
  (List.range' start (text.length + 1 - start)).find? fun p => needle.isPrefixOf (text.drop p)

theorem occursAt_iff :
    OccursAt needle text p ↔ p ≤ text.length ∧ needle.isPrefixOf (text.drop p) = true := by
  rw [OccursAt, List.isPrefixOf_iff_prefix]

theorem indexFrom_eq_none :
    indexFrom needle text start = none ↔ ∀ p, start ≤ p → ¬ OccursAt needle text p := by
  unfold indexFrom
  rw [List.find?_eq_none]
  constructor
  · intro h p hp hocc
    have hbound := (occursAt_iff.1 hocc).1
    exact h p (List.mem_range'_1.2 ⟨hp, by omega⟩) (occursAt_iff.1 hocc).2
  · intro h p hp hprefix
    obtain ⟨hle, hlt⟩ := List.mem_range'_1.1 hp
    exact h p hle (occursAt_iff.2 ⟨by omega, hprefix⟩)

theorem find?_range' {test : ℕ → Bool} {n : ℕ} (h : (List.range' start n).find? test = some p) :
    start ≤ p ∧ p < start + n ∧ test p = true ∧ ∀ q, start ≤ q → q < p → test q = false := by
  induction n generalizing start with
  | zero => cases h
  | succ n ih =>
    rw [List.range'_succ] at h
    cases hstart : test start with
    | true =>
      rw [List.find?_cons_of_pos hstart] at h
      obtain rfl := Option.some.inj h
      exact ⟨Nat.le_refl _, by omega, hstart, fun q hq hlt => by omega⟩
    | false =>
      rw [List.find?_cons_of_neg (by rw [hstart]; exact Bool.false_ne_true)] at h
      obtain ⟨hle, hlt, htest, hleast⟩ := ih h
      refine ⟨by omega, by omega, htest, ?_⟩
      intro q hq hqp
      rcases Nat.eq_or_lt_of_le hq with rfl | hq
      · exact hstart
      · exact hleast q hq hqp

theorem indexFrom_eq_some (h : indexFrom needle text start = some p) :
    start ≤ p ∧ OccursAt needle text p ∧ ∀ q, start ≤ q → q < p → ¬ OccursAt needle text q := by
  obtain ⟨hle, hlt, htest, hleast⟩ := find?_range' h
  refine ⟨hle, occursAt_iff.2 ⟨by omega, htest⟩, ?_⟩
  intro q hq hqp hocc
  have htest := (occursAt_iff.1 hocc).2
  rw [hleast q hq hqp] at htest
  cases htest

/-- The loop that takes them, with a budget of rounds. -/
def occurrencesFrom (needle text : List α) : ℕ → ℕ → List ℕ
  | 0, _ => []
  | fuel + 1, start =>
    match indexFrom needle text start with
    | none => []
    | some p => p :: occurrencesFrom needle text fuel (p + max needle.length 1)

def occurrences (needle text : List α) : List ℕ :=
  occurrencesFrom needle text (text.length + 1) 0

theorem leftToRight_occurrencesFrom {fuel : ℕ} (hfuel : text.length + 1 ≤ fuel + start) :
    LeftToRight needle text start (occurrencesFrom needle text fuel start) := by
  induction fuel generalizing start with
  | zero =>
    refine .done fun p hp hocc => ?_
    have hbound := hocc.1
    omega
  | succ fuel ih =>
    rw [occurrencesFrom]
    cases hindex : indexFrom needle text start with
    | none => exact .done (indexFrom_eq_none.1 hindex)
    | some p =>
      obtain ⟨hle, hocc, hleast⟩ := indexFrom_eq_some hindex
      have hmax : 1 ≤ max needle.length 1 := Nat.le_max_right ..
      exact .next hle hocc hleast (ih (by omega))

theorem leftToRight_occurrences (needle text : List α) :
    LeftToRight needle text 0 (occurrences needle text) :=
  leftToRight_occurrencesFrom (Nat.le_refl _)

end

end OperatorRuntime.Lib
