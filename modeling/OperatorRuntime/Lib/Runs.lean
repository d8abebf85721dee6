/-
Finite runs of a labelled step relation, and the two induction rules
every safety result of the development goes through: an invariant over
the state alone, and an invariant over the labels taken so far paired
with the state they reached. A run whose steps are all required to meet
a side condition is a run of the restricted relation (`Where`), so a
conditional safety result needs no induction principle of its own.

Machines are written as partial step functions; `exec` folds one over a
label list and `run_of_exec` turns a computed trace into a run.
-/
import Mathlib.Data.List.Basic
import Mathlib.Data.Nat.Notation

namespace OperatorRuntime.Lib

universe u v

variable {σ : Type u} {α : Type v}

-- ===== runs

/-- Finite runs of a labelled step relation, labels in order. -/
inductive Run (Step : σ → α → σ → Prop) (s : σ) : List α → σ → Prop
  | nil : Run Step s [] s
  | snoc {as : List α} {t u : σ} {a : α} :
      Run Step s as t → Step t a u → Run Step s (as ++ [a]) u

/-- The steps of `Step` whose label meets `Cond` in the state it is
taken from. -/
def Where (Step : σ → α → σ → Prop) (Cond : σ → α → Prop) : σ → α → σ → Prop :=
  fun s a t => Step s a t ∧ Cond s a

/-- The step relation of a partial step function. -/
def stepsOf (step : σ → α → Option σ) : σ → α → σ → Prop :=
  fun s a t => step s a = some t

variable {Step : σ → α → σ → Prop}

variable {s t : σ} {as : List α}

/-- A state property that every step keeps holds at the end of every
run that starts with it. -/
theorem Run.invariant {I : σ → Prop} (hrun : Run Step s as t) (hs : I s)
    (hstep : ∀ {s t : σ} {a : α}, I s → Step s a t → I t) : I t := by
  induction hrun with
  | nil => exact hs
  | snoc _ hlast ih => exact hstep ih hlast

/-- A property of the labels so far and the state reached, kept by every
step, holds of every run. -/
theorem Run.history {P : List α → σ → Prop} (hrun : Run Step s as t) (hs : P [] s)
    (hstep : ∀ {as : List α} {s t : σ} {a : α},
      P as s → Step s a t → P (as ++ [a]) t) : P as t := by
  induction hrun with
  | nil => exact hs
  | snoc _ hlast ih => exact hstep ih hlast

theorem Run.mono {Step' : σ → α → σ → Prop} (hrun : Run Step s as t)
    (hsub : ∀ {s t : σ} {a : α}, Step s a t → Step' s a t) : Run Step' s as t := by
  induction hrun with
  | nil => exact Run.nil
  | snoc _ hlast ih => exact Run.snoc ih (hsub hlast)

theorem Run.trans {u : σ} {bs : List α} (hst : Run Step s as t) (htu : Run Step t bs u) :
    Run Step s (as ++ bs) u := by
  induction htu with
  | nil => simpa using hst
  | snoc _ hlast ih =>
    rw [← List.append_assoc]
    exact Run.snoc ih hlast

-- ===== computed traces

/-- A partial step function folded over a label list. -/
def exec (step : σ → α → Option σ) : σ → List α → Option σ
  | s, [] => some s
  | s, a :: as => (step s a).bind fun t => exec step t as

theorem run_of_exec {step : σ → α → Option σ} (h : exec step s as = some t) :
    Run (stepsOf step) s as t := by
  induction as generalizing s with
  | nil =>
    simp only [exec, Option.some.injEq] at h
    subst h
    exact Run.nil
  | cons a as ih =>
    simp only [exec, Option.bind_eq_some_iff] at h
    obtain ⟨u, hu, hrest⟩ := h
    have hone : Run (stepsOf step) s ([] ++ [a]) u :=
      Run.snoc Run.nil hu
    simpa using hone.trans (ih hrest)

/-- A computed trace whose labels all meet a condition, wherever they are
taken, is a run of the restricted relation. -/
theorem run_where_of_exec {step : σ → α → Option σ} {Cond : σ → α → Prop}
    (h : exec step s as = some t) (hcond : ∀ s, ∀ a ∈ as, Cond s a) :
    Run (Where (stepsOf step) Cond) s as t := by
  induction as generalizing s with
  | nil =>
    simp only [exec, Option.some.injEq] at h
    subst h
    exact Run.nil
  | cons a as ih =>
    simp only [exec, Option.bind_eq_some_iff] at h
    obtain ⟨u, hu, hrest⟩ := h
    have hone : Run (Where (stepsOf step) Cond) s ([] ++ [a]) u :=
      Run.snoc Run.nil ⟨hu, hcond s a (List.mem_cons_self ..)⟩
    simpa using hone.trans
      (ih hrest fun s b hb => hcond s b (List.mem_cons_of_mem _ hb))

/-- A step function that stops where a label does not meet the condition. -/
def guarded (step : σ → α → Option σ) (Cond : σ → α → Prop)
    [∀ s a, Decidable (Cond s a)] : σ → α → Option σ :=
  fun s a => if Cond s a then step s a else none

/-- A computed trace that checks the condition at every label is a run of
the restricted relation. -/
theorem run_where_of_guarded {step : σ → α → Option σ} {Cond : σ → α → Prop}
    [∀ s a, Decidable (Cond s a)] (h : exec (guarded step Cond) s as = some t) :
    Run (Where (stepsOf step) Cond) s as t := by
  refine (run_of_exec h).mono ?_
  intro s t a hstep
  rw [stepsOf, guarded] at hstep
  split at hstep
  · next hcond => exact ⟨hstep, hcond⟩
  · cases hstep

/-
Loops of the form "while there is a next state, take it". The loop runs
under a step budget so that it computes by structural recursion; a
measure that every iteration decreases, bounded by the budget, shows
that the budget was never what stopped it (`whileSome_stops`).
-/

/-- Iterate `next` until it answers `none`, at most `fuel` times. -/
def whileSome (next : σ → Option σ) : ℕ → σ → σ
  | 0, s => s
  | fuel + 1, s =>
    match next s with
    | some s' => whileSome next fuel s'
    | none => s

variable {next : σ → Option σ}

theorem whileSome_invariant {I : σ → Prop} (hnext : ∀ {s s' : σ}, I s → next s = some s' → I s')
    (fuel : ℕ) (hs : I s) : I (whileSome next fuel s) := by
  induction fuel generalizing s with
  | zero => exact hs
  | succ fuel ih =>
    rw [whileSome]
    cases h : next s with
    | none => exact hs
    | some s' => exact ih (hnext hs h)

/-- A budget no smaller than a measure that every iteration decreases, as
long as it keeps an invariant, is enough: the loop ends because there is no
next state. -/
theorem whileSome_stops_of {I : σ → Prop} (measure : σ → ℕ)
    (hdec : ∀ {s s' : σ}, I s → next s = some s' → I s' ∧ measure s' < measure s) {fuel : ℕ}
    (hs : I s) (hfuel : measure s ≤ fuel) : next (whileSome next fuel s) = none := by
  induction fuel generalizing s with
  | zero =>
    rw [whileSome]
    cases h : next s with
    | none => rfl
    | some s' =>
      have hlt := (hdec hs h).2
      omega
  | succ fuel ih =>
    rw [whileSome]
    cases h : next s with
    | none => exact h
    | some s' =>
      obtain ⟨hs', hlt⟩ := hdec hs h
      exact ih hs' (by omega)

theorem whileSome_stops (measure : σ → ℕ)
    (hdec : ∀ {s s' : σ}, next s = some s' → measure s' < measure s) {fuel : ℕ}
    (hfuel : measure s ≤ fuel) : next (whileSome next fuel s) = none :=
  whileSome_stops_of (I := fun _ => True) measure (fun _ h => ⟨trivial, hdec h⟩) trivial hfuel

end OperatorRuntime.Lib
