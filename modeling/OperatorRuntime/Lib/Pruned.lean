/-
A search by depth that prunes. A successor is dropped when a node that was
accepted for the same key dominates it, and it drives out those that it
dominates; a node that is driven out of its key's list has been queued all the
same, and its successors are still tried.

What is dropped is replaced by something that is no worse, so nothing that can
be reached is lost (`completed_ne_nil`): a node that is no worse can do each
later step of the one that it replaces, and it stands no deeper.
-/
import Mathlib.Data.List.Basic
import Mathlib.Data.Nat.Notation
import Mathlib.Logic.Function.Iterate
import Mathlib.Tactic.Common

namespace OperatorRuntime.Lib.Pruned

universe u v w

-- ===== search

/-- What is searched, and how far. -/
structure Problem (N : Type u) (O : Type v) (K : Type w) where
  operators : List O
  step : N → O → Option N
  key : N → K
  dominates : N → N → Bool
  done : N → Bool
  select : List N → List N
  select_subset : ∀ l, ∀ x ∈ select l, x ∈ l
  maxExpanded : ℕ

/-- The search between two steps. -/
structure Space (N : Type u) (K : Type w) where
  frontier : List N
  next : List N
  completed : List N
  pareto : K → List N
  expanded : ℕ

variable {N : Type u} {O : Type v} {K : Type w}

section
variable [DecidableEq K] (p : Problem N O K)

/-- A node that no accepted one dominates takes its place among those of its key. -/
def Problem.accept (s : Space N K) (successor : N) : Space N K :=
  let survivors := (s.pareto (p.key successor)).filter fun candidate =>
    !p.dominates successor candidate
  let s := { s with
    pareto := Function.update s.pareto (p.key successor) (survivors ++ [successor]) }
  if p.done successor = true then { s with completed := s.completed ++ [successor] }
  else { s with next := s.next ++ [successor] }

/-- A successor is counted, and accepted if nothing dominates it. -/
def Problem.offer (s : Space N K) (successor : N) : Space N K :=
  let s := { s with expanded := s.expanded + 1 }
  if (s.pareto (p.key successor)).any (fun candidate => p.dominates candidate successor) then s
  else p.accept s successor

/-- One operator on one node, as long as the count allows. -/
def Problem.attempt (s : Space N K) (task : N × O) : Space N K :=
  if p.maxExpanded ≤ s.expanded then s
  else
    match p.step task.1 task.2 with
    | none => s
    | some successor => p.offer s successor

/-- What a depth tries, in order. -/
def Problem.tasks (frontier : List N) : List (N × O) :=
  frontier.flatMap fun current => p.operators.map fun op => (current, op)

def Problem.deepen (s : Space N K) : Space N K :=
  if s.frontier = [] then s
  else
    let s := (p.tasks s.frontier).foldl p.attempt { s with next := [] }
    { s with frontier := p.select s.next }

def Problem.start (initial : N) : Space N K where
  frontier := [initial]
  next := []
  completed := []
  pareto := Function.update (fun _ => []) (p.key initial) [initial]
  expanded := 0

def Problem.search (initial : N) (depth : ℕ) : Space N K :=
  p.deepen^[depth] (p.start initial)

end

-- ===== one round

theorem mem_tasks {p : Problem N O K} {frontier : List N} {task : N × O} :
    task ∈ p.tasks frontier ↔ task.1 ∈ frontier ∧ task.2 ∈ p.operators := by
  rw [Problem.tasks, List.mem_flatMap]
  constructor
  · intro h
    obtain ⟨x, hx, hin⟩ := h
    obtain ⟨o, ho, rfl⟩ := List.mem_map.1 hin
    exact ⟨hx, ho⟩
  · intro h
    exact ⟨task.1, h.1, List.mem_map.2 ⟨task.2, h.2, rfl⟩⟩

section
variable [DecidableEq K] {p : Problem N O K} {s : Space N K} {x y : N}

@[simp] theorem accept_frontier : (p.accept s x).frontier = s.frontier := by
  rw [Problem.accept]
  split
  · rfl
  · rfl

@[simp] theorem accept_expanded : (p.accept s x).expanded = s.expanded := by
  rw [Problem.accept]
  split
  · rfl
  · rfl

@[simp] theorem accept_pareto : (p.accept s x).pareto
    = Function.update s.pareto (p.key x) ((s.pareto (p.key x)).filter
        (fun candidate => !p.dominates x candidate) ++ [x]) := by
  rw [Problem.accept]
  split
  · rfl
  · rfl

theorem accept_completed : (p.accept s x).completed
    = s.completed ++ if p.done x = true then [x] else [] := by
  rw [Problem.accept]
  split
  · rfl
  · rw [List.append_nil]

theorem accept_next : (p.accept s x).next = s.next ++ if p.done x = true then [] else [x] := by
  rw [Problem.accept]
  split
  · rw [List.append_nil]
  · rfl

/-- What an attempt can do: nothing, count a successor that is dominated, or
accept one. -/
theorem attempt_cases (p : Problem N O K) (s : Space N K) (task : N × O) :
    (p.attempt s task = s ∧ (p.step task.1 task.2 = none ∨ p.maxExpanded ≤ s.expanded))
    ∨ (∃ x, p.step task.1 task.2 = some x ∧ (∃ y ∈ s.pareto (p.key x), p.dominates y x = true)
        ∧ p.attempt s task = { s with expanded := s.expanded + 1 })
    ∨ (∃ x, p.step task.1 task.2 = some x
        ∧ p.attempt s task = p.accept { s with expanded := s.expanded + 1 } x) := by
  rw [Problem.attempt]
  by_cases hcut : p.maxExpanded ≤ s.expanded
  · rw [if_pos hcut]
    exact .inl ⟨rfl, .inr hcut⟩
  · rw [if_neg hcut]
    cases hstep : p.step task.1 task.2 with
    | none => exact .inl ⟨rfl, .inl rfl⟩
    | some x =>
      refine .inr ?_
      show (∃ x', some x = some x' ∧ _ ∧ p.offer s x = _) ∨ ∃ x', some x = some x' ∧ p.offer s x = _
      rw [Problem.offer]
      by_cases hany : (s.pareto (p.key x)).any (fun y => p.dominates y x) = true
      · left
        obtain ⟨y, hy, hdom⟩ := List.any_eq_true.1 hany
        exact ⟨x, rfl, ⟨y, hy, hdom⟩, if_pos hany⟩
      · right
        exact ⟨x, rfl, if_neg hany⟩

end

-- === what a search may hold

section
variable [DecidableEq K] {p : Problem N O K} {P : N → Prop}

/-- Nodes of one kind are queued, completed, and kept under their own keys. -/
structure Space.Holds (p : Problem N O K) (P : N → Prop) (s : Space N K) : Prop where
  frontier : ∀ x ∈ s.frontier, P x
  next : ∀ x ∈ s.next, P x ∧ p.done x = false
  completed : ∀ x ∈ s.completed, P x ∧ p.done x = true
  pareto : ∀ k, ∀ x ∈ s.pareto k, P x ∧ p.key x = k

theorem Space.Holds.attempt {s : Space N K} (h : s.Holds p P) {task : N × O}
    (hstep : ∀ x, p.step task.1 task.2 = some x → P x) : (p.attempt s task).Holds p P := by
  rcases attempt_cases p s task with ⟨heq, _⟩ | ⟨x, _, _, heq⟩ | ⟨x, hx, heq⟩
  · rw [heq]
    exact h
  · rw [heq]
    exact ⟨h.frontier, h.next, h.completed, h.pareto⟩
  · rw [heq]
    have hP := hstep x hx
    constructor
    case frontier =>
      rw [accept_frontier]
      exact h.frontier
    case next =>
      intro y hy
      rw [accept_next] at hy
      rcases List.mem_append.1 hy with hy | hy
      · exact h.next y hy
      · split at hy
        · cases hy
        · next hdone =>
          rw [List.mem_singleton.1 hy]
          exact ⟨hP, Bool.eq_false_iff.2 hdone⟩
    case completed =>
      intro y hy
      rw [accept_completed] at hy
      rcases List.mem_append.1 hy with hy | hy
      · exact h.completed y hy
      · split at hy
        · next hdone =>
          rw [List.mem_singleton.1 hy]
          exact ⟨hP, hdone⟩
        · cases hy
    case pareto =>
      intro k y hy
      rw [accept_pareto] at hy
      by_cases hk : k = p.key x
      · rw [hk, Function.update_self] at hy
        rw [hk]
        rcases List.mem_append.1 hy with hy | hy
        · exact h.pareto _ y (List.mem_filter.1 hy).1
        · rw [List.mem_singleton.1 hy]
          exact ⟨hP, rfl⟩
      · rw [Function.update_of_ne hk] at hy
        exact h.pareto k y hy

theorem Space.Holds.attempts {s : Space N K} (h : s.Holds p P) {tasks : List (N × O)}
    (hstep : ∀ task ∈ tasks, ∀ x, p.step task.1 task.2 = some x → P x) :
    (tasks.foldl p.attempt s).Holds p P := by
  induction tasks generalizing s with
  | nil => exact h
  | cons task tasks ih =>
    rw [List.foldl_cons]
    exact ih (h.attempt (hstep task List.mem_cons_self))
      fun t ht => hstep t (List.mem_cons_of_mem _ ht)

theorem mem_start_pareto {initial x : N} {k : K} (h : x ∈ (p.start initial).pareto k) :
    x = initial ∧ k = p.key initial := by
  replace h : x ∈ Function.update (fun _ => []) (p.key initial) [initial] k := h
  by_cases hk : k = p.key initial
  · rw [hk, Function.update_self] at h
    exact ⟨List.mem_singleton.1 h, hk⟩
  · rw [Function.update_of_ne hk] at h
    cases h

/-- What holds of the nodes that a depth starts from, and of their successors
one deeper, holds of all nodes of the search. -/
theorem search_holds {P : ℕ → N → Prop} {initial : N} (h0 : P 0 initial)
    (hmono : ∀ k x, P k x → P (k + 1) x)
    (hstep : ∀ k x o y, P k x → o ∈ p.operators → p.step x o = some y → P (k + 1) y) (k : ℕ) :
    (p.search initial k).Holds p (P k) := by
  induction k with
  | zero =>
    constructor
    case frontier => exact fun x hx => List.mem_singleton.1 hx ▸ h0
    case next => exact fun x hx => nomatch hx
    case completed => exact fun x hx => nomatch hx
    case pareto =>
      intro k x hx
      obtain ⟨rfl, rfl⟩ := mem_start_pareto hx
      exact ⟨h0, rfl⟩
  | succ k ih =>
    have hlater : (p.search initial k).Holds p (P (k + 1)) :=
      ⟨fun x hx => hmono k x (ih.frontier x hx),
        fun x hx => ⟨hmono k x (ih.next x hx).1, (ih.next x hx).2⟩,
        fun x hx => ⟨hmono k x (ih.completed x hx).1, (ih.completed x hx).2⟩,
        fun key x hx => ⟨hmono k x (ih.pareto key x hx).1, (ih.pareto key x hx).2⟩⟩
    rw [Problem.search, Function.iterate_succ_apply', ← Problem.search, Problem.deepen]
    by_cases hempty : (p.search initial k).frontier = []
    · rw [if_pos hempty]
      exact hlater
    · rw [if_neg hempty]
      have hfresh : Space.Holds p (P (k + 1)) { p.search initial k with next := [] } :=
        ⟨hlater.frontier, fun x hx => (nomatch hx), hlater.completed, hlater.pareto⟩
      have htried := hfresh.attempts (fun task htask x hx =>
        hstep k task.1 task.2 x (ih.frontier _ (mem_tasks.1 htask).1) (mem_tasks.1 htask).2 hx)
      exact ⟨fun x hx => (htried.next x (p.select_subset _ x hx)).1, htried.next,
        htried.completed, htried.pareto⟩

end

-- ===== growth

section
variable {s t : Space N K}

/-- Nothing is taken back within a depth. -/
structure Space.Grows (s t : Space N K) : Prop where
  next : ∀ x ∈ s.next, x ∈ t.next
  completed : ∀ x ∈ s.completed, x ∈ t.completed
  expanded : s.expanded ≤ t.expanded

theorem Space.Grows.refl (s : Space N K) : s.Grows s :=
  ⟨fun _ hx => hx, fun _ hx => hx, Nat.le_refl _⟩

theorem Space.Grows.trans {r : Space N K} (h : r.Grows s) (h' : s.Grows t) : r.Grows t :=
  ⟨fun x hx => h'.next x (h.next x hx), fun x hx => h'.completed x (h.completed x hx),
    Nat.le_trans h.expanded h'.expanded⟩

end

section
variable [DecidableEq K] {p : Problem N O K}

theorem attempt_grows (p : Problem N O K) (s : Space N K) (task : N × O) :
    s.Grows (p.attempt s task) := by
  rcases attempt_cases p s task with ⟨heq, _⟩ | ⟨x, _, _, heq⟩ | ⟨x, _, heq⟩
  · rw [heq]
    exact Space.Grows.refl s
  · rw [heq]
    exact ⟨fun _ hx => hx, fun _ hx => hx, Nat.le_succ _⟩
  · rw [heq]
    constructor
    case next =>
      intro y hy
      rw [accept_next]
      exact List.mem_append_left _ hy
    case completed =>
      intro y hy
      rw [accept_completed]
      exact List.mem_append_left _ hy
    case expanded =>
      rw [accept_expanded]
      exact Nat.le_succ _

theorem attempts_grow (p : Problem N O K) (s : Space N K) (tasks : List (N × O)) :
    s.Grows (tasks.foldl p.attempt s) := by
  induction tasks generalizing s with
  | nil => exact Space.Grows.refl s
  | cons task tasks ih => exact (attempt_grows p s task).trans (ih _)

theorem deepen_completed (p : Problem N O K) (s : Space N K) :
    (∀ x ∈ s.completed, x ∈ (p.deepen s).completed) ∧ s.expanded ≤ (p.deepen s).expanded := by
  rw [Problem.deepen]
  by_cases hempty : s.frontier = []
  · rw [if_pos hempty]
    exact ⟨fun _ hx => hx, Nat.le_refl _⟩
  · rw [if_neg hempty]
    have h := attempts_grow p { s with next := [] } (p.tasks s.frontier)
    exact ⟨h.completed, h.expanded⟩

theorem search_completed {initial : N} {j k : ℕ} (h : j ≤ k) :
    (∀ x ∈ (p.search initial j).completed, x ∈ (p.search initial k).completed)
    ∧ (p.search initial j).expanded ≤ (p.search initial k).expanded := by
  induction k with
  | zero =>
    obtain rfl := Nat.le_zero.1 h
    exact ⟨fun _ hx => hx, Nat.le_refl _⟩
  | succ k ih =>
    by_cases heq : j = k + 1
    · rw [heq]
      exact ⟨fun _ hx => hx, Nat.le_refl _⟩
    · have hle : j ≤ k := by omega
      obtain ⟨hcompleted, hexpanded⟩ := ih hle
      have hone := deepen_completed p (p.search initial k)
      rw [Problem.search, Problem.search, Function.iterate_succ_apply']
      exact ⟨fun x hx => hone.1 x (hcompleted x hx), Nat.le_trans hexpanded hone.2⟩

end

-- ===== nothing is lost

/-- `le x y` says that `x` is no worse than `y`: it is in the same state, and can
do each step that `y` can. A node that dominates another of its key is no worse. -/
structure Problem.Improves (p : Problem N O K) (Good : N → Prop) (le : N → N → Prop) : Prop where
  refl : ∀ x, le x x
  trans : ∀ {x y z}, le x y → le y z → le x z
  dominates : ∀ {x y}, Good x → Good y → p.key x = p.key y → p.dominates x y = true → le x y
  done : ∀ {x y}, le x y → p.done x = p.done y
  key_done : ∀ {x y}, Good x → Good y → p.key x = p.key y → p.done x = p.done y
  step : ∀ {x y o y'}, le x y → o ∈ p.operators → p.step y o = some y' →
    ∃ x', p.step x o = some x' ∧ le x' y'

/-- A node is known: from an earlier depth, or queued or completed. -/
def Space.Knows (Seen : N → Prop) (s : Space N K) (x : N) : Prop :=
  Seen x ∨ x ∈ s.next ∨ x ∈ s.completed

theorem Space.Grows.knows {Seen : N → Prop} {s t : Space N K} (h : s.Grows t) {x : N} (hx : s.Knows Seen x) :
    t.Knows Seen x := by
  rcases hx with hseen | hnext | hcompleted
  · exact .inl hseen
  · exact .inr (.inl (h.next x hnext))
  · exact .inr (.inr (h.completed x hcompleted))

section
variable [DecidableEq K] {p : Problem N O K} {Good : N → Prop} {le : N → N → Prop}
  {s : Space N K} {Seen : N → Prop} {initial : N}

theorem knows_accept (x : N) : (p.accept s x).Knows Seen x := by
  by_cases hdone : p.done x = true
  · refine .inr (.inr ?_)
    rw [accept_completed, if_pos hdone]
    exact List.mem_append_right _ (List.mem_singleton_self x)
  · refine .inr (.inl ?_)
    rw [accept_next, if_neg hdone]
    exact List.mem_append_right _ (List.mem_singleton_self x)

/-- What is kept for the keys is known. -/
def Space.KeepsKnown (Seen : N → Prop) (s : Space N K) : Prop :=
  ∀ k, ∀ x ∈ s.pareto k, s.Knows Seen x

theorem Space.KeepsKnown.attempt (h : s.KeepsKnown Seen) (task : N × O) :
    (p.attempt s task).KeepsKnown Seen := by
  intro k x hx
  have hgrows := attempt_grows p s task
  rcases attempt_cases p s task with ⟨heq, _⟩ | ⟨y, _, _, heq⟩ | ⟨y, _, heq⟩
  · rw [heq] at hx ⊢
    exact h k x hx
  · rw [heq] at hx
    exact hgrows.knows (h k x hx)
  · rw [heq, accept_pareto] at hx
    by_cases hk : k = p.key y
    · rw [hk, Function.update_self] at hx
      rcases List.mem_append.1 hx with hx | hx
      · exact hgrows.knows (h _ x (List.mem_filter.1 hx).1)
      · rw [heq, List.mem_singleton.1 hx]
        exact knows_accept y
    · rw [Function.update_of_ne hk] at hx
      exact hgrows.knows (h k x hx)

/-- An attempt that is not cut off leaves something that is no worse than the
successor. -/
theorem attempt_covers (himp : p.Improves Good le) (hkept : s.KeepsKnown Seen)
    (hgood : s.Holds p Good) {task : N × O} {x : N} (hstep : p.step task.1 task.2 = some x)
    (hx : Good x) (hcut : s.expanded < p.maxExpanded) :
    ∃ y, le y x ∧ (p.attempt s task).Knows Seen y := by
  have hgrows := attempt_grows p s task
  rcases attempt_cases p s task with ⟨_, hnone | hmax⟩ | ⟨x', hx', ⟨y, hy, hdom⟩, _⟩ | ⟨x', hx', heq⟩
  · rw [hstep] at hnone
    cases hnone
  · exact absurd hcut (Nat.not_lt.2 hmax)
  · obtain rfl := Option.some.inj (hstep.symm.trans hx')
    obtain ⟨hyGood, hkey⟩ := hgood.pareto _ y hy
    exact ⟨y, himp.dominates hyGood hx hkey hdom, hgrows.knows (hkept _ y hy)⟩
  · obtain rfl := Option.some.inj (hstep.symm.trans hx')
    refine ⟨x, himp.refl x, ?_⟩
    rw [heq]
    exact knows_accept x

theorem attempts_cover (himp : p.Improves Good le) {tasks : List (N × O)}
    (hgoods : ∀ task ∈ tasks, ∀ x, p.step task.1 task.2 = some x → Good x)
    (hkept : s.KeepsKnown Seen) (hgood : s.Holds p Good)
    (hcut : (tasks.foldl p.attempt s).expanded < p.maxExpanded) :
    (tasks.foldl p.attempt s).KeepsKnown Seen ∧ ∀ task ∈ tasks, ∀ x,
      p.step task.1 task.2 = some x → ∃ y, le y x ∧ (tasks.foldl p.attempt s).Knows Seen y := by
  induction tasks generalizing s with
  | nil => exact ⟨hkept, fun task ht => nomatch ht⟩
  | cons first tasks ih =>
    have hfirst := hgoods first List.mem_cons_self
    rw [List.foldl_cons] at hcut ⊢
    obtain ⟨hkept', hrest⟩ := ih (fun t ht => hgoods t (List.mem_cons_of_mem _ ht))
      (hkept.attempt first) (hgood.attempt hfirst) hcut
    refine ⟨hkept', ?_⟩
    intro task htask x hstep
    rcases List.mem_cons.1 htask with rfl | htask
    · have hgrows := attempts_grow p (p.attempt s task) tasks
      have hearly : s.expanded < p.maxExpanded :=
        Nat.lt_of_le_of_lt ((attempt_grows p s task).trans hgrows).expanded hcut
      obtain ⟨y, hle, hknown⟩ :=
        attempt_covers himp hkept hgood hstep (hfirst x hstep) hearly
      exact ⟨y, hle, hgrows.knows hknown⟩
    · exact hrest task htask x hstep

/-- A node that was queued at some depth. -/
def Problem.Queued (p : Problem N O K) (initial : N) (k : ℕ) (x : N) : Prop :=
  ∃ j ≤ k, x ∈ (p.search initial j).frontier

/-- What a search that nothing cuts off keeps: each node of a key's list was
queued or is completed. -/
def Problem.Thorough (p : Problem N O K) (initial : N) (k : ℕ) : Prop :=
  ∀ key, ∀ x ∈ (p.search initial k).pareto key,
    p.Queued initial k x ∨ x ∈ (p.search initial k).completed

/-- The search was cut off nowhere down to a depth. -/
structure Problem.Uncut (p : Problem N O K) (initial : N) (k : ℕ) : Prop where
  select : ∀ j ≤ k, ∀ x ∈ (p.search initial j).next, x ∈ p.select (p.search initial j).next
  expanded : (p.search initial k).expanded < p.maxExpanded

theorem Problem.Uncut.mono {j k : ℕ} (h : p.Uncut initial k) (hjk : j ≤ k) : p.Uncut initial j :=
  ⟨fun i hi => h.select i (Nat.le_trans hi hjk),
    Nat.lt_of_le_of_lt (search_completed hjk).2 h.expanded⟩

theorem Problem.Queued.mono {j k : ℕ} {x : N} (h : p.Queued initial j x) (hjk : j ≤ k) :
    p.Queued initial k x := by
  obtain ⟨i, hi, hx⟩ := h
  exact ⟨i, Nat.le_trans hi hjk, hx⟩

theorem search_succ (k : ℕ) : p.search initial (k + 1) = p.deepen (p.search initial k) :=
  Function.iterate_succ_apply' p.deepen k (p.start initial)

/-- A node that is no worse than this one is queued or completed. -/
def Problem.Covered (p : Problem N O K) (le : N → N → Prop) (initial : N) (k : ℕ) (x : N) : Prop :=
  ∃ y, le y x ∧ (p.Queued initial k y ∨ y ∈ (p.search initial k).completed)

theorem search_covers (himp : p.Improves Good le) (hgood : ∀ j, (p.search initial j).Holds p Good)
    (hgoods : ∀ x o y, Good x → o ∈ p.operators → p.step x o = some y → Good y) {k : ℕ}
    (hcut : p.Uncut initial (k + 1)) (hthorough : p.Thorough initial k) :
    p.Thorough initial (k + 1) ∧ ∀ x ∈ (p.search initial k).frontier, ∀ o ∈ p.operators,
      ∀ y, p.step x o = some y → p.Covered le initial (k + 1) y := by
  by_cases hempty : (p.search initial k).frontier = []
  · have hsame : p.search initial (k + 1) = p.search initial k := by
      rw [search_succ, Problem.deepen, if_pos hempty]
    constructor
    · intro key x hx
      rw [hsame] at hx ⊢
      rcases hthorough key x hx with hqueued | hcompleted
      · exact .inl (hqueued.mono (Nat.le_succ k))
      · exact .inr hcompleted
    · intro x hx
      rw [hempty] at hx
      cases hx
  · have htried : p.search initial (k + 1)
        = { (p.tasks (p.search initial k).frontier).foldl p.attempt
              { p.search initial k with next := [] } with
            frontier := p.select ((p.tasks (p.search initial k).frontier).foldl p.attempt
              { p.search initial k with next := [] }).next } := by
      rw [search_succ, Problem.deepen, if_neg hempty]
    have hselect := hcut.select (k + 1) (Nat.le_refl _)
    have hexpanded := hcut.expanded
    rw [htried] at hselect hexpanded
    have hstart : Space.KeepsKnown (p.Queued initial k) { p.search initial k with next := [] } := by
      intro key x hx
      rcases hthorough key x hx with hqueued | hcompleted
      · exact .inl hqueued
      · exact .inr (.inr hcompleted)
    have hfresh : Space.Holds p Good { p.search initial k with next := [] } :=
      ⟨(hgood k).frontier, fun x hx => (nomatch hx), (hgood k).completed, (hgood k).pareto⟩
    obtain ⟨hkept, hcover⟩ := attempts_cover himp (fun task htask x hx => hgoods task.1 task.2 x
      ((hgood k).frontier _ (mem_tasks.1 htask).1) (mem_tasks.1 htask).2 hx) hstart hfresh hexpanded
    have hplace : ∀ x, Space.Knows (p.Queued initial k)
        ((p.tasks (p.search initial k).frontier).foldl p.attempt
          { p.search initial k with next := [] }) x →
        p.Queued initial (k + 1) x ∨ x ∈ (p.search initial (k + 1)).completed := by
      intro x hx
      rcases hx with hqueued | hnext | hcompleted
      · exact .inl (hqueued.mono (Nat.le_succ k))
      · refine .inl ⟨k + 1, Nat.le_refl _, ?_⟩
        rw [htried]
        exact hselect x hnext
      · right
        rw [htried]
        exact hcompleted
    constructor
    · intro key x hx
      rw [htried] at hx
      exact hplace x (hkept key x hx)
    · intro x hx o ho y hy
      obtain ⟨z, hle, hknown⟩ := hcover (x, o) (mem_tasks.2 ⟨hx, ho⟩) y hy
      exact ⟨z, hle, hplace z hknown⟩

theorem start_thorough : p.Thorough initial 0 := by
  intro key x hx
  obtain ⟨rfl, _⟩ := mem_start_pareto hx
  exact .inl ⟨0, Nat.le_refl _, List.mem_singleton_self _⟩

theorem search_thorough (himp : p.Improves Good le) (hgood : ∀ j, (p.search initial j).Holds p Good)
    (hgoods : ∀ x o y, Good x → o ∈ p.operators → p.step x o = some y → Good y) {k : ℕ}
    (hcut : p.Uncut initial k) : p.Thorough initial k := by
  induction k with
  | zero => exact start_thorough
  | succ k ih =>
    exact (search_covers himp hgood hgoods hcut (ih (hcut.mono (Nat.le_succ k)))).1

theorem Problem.Queued.not_done (hgood : ∀ j, (p.search initial j).Holds p Good)
    (hinitial : p.done initial = false) {k : ℕ} {x : N} (h : p.Queued initial k x) :
    p.done x = false := by
  obtain ⟨j, _, hx⟩ := h
  induction j with
  | zero => exact List.mem_singleton.1 hx ▸ hinitial
  | succ j ih =>
    rw [search_succ] at hx
    by_cases hempty : (p.search initial j).frontier = []
    · rw [Problem.deepen, if_pos hempty] at hx
      rw [hempty] at hx
      cases hx
    · have hnext := hgood (j + 1)
      rw [search_succ] at hnext
      rw [Problem.deepen, if_neg hempty] at hx hnext
      exact (hnext.next x (p.select_subset _ x hx)).2

theorem completed_of_queued (himp : p.Improves Good le)
    (hgood : ∀ j, (p.search initial j).Holds p Good)
    (hgoods : ∀ x o y, Good x → o ∈ p.operators → p.step x o = some y → Good y)
    (hinitial : p.done initial = false) {depth : ℕ} (hcut : p.Uncut initial depth)
    {ops : List O} (hops : ∀ o ∈ ops, o ∈ p.operators) {k : ℕ} {x b g : N}
    (hqueued : p.Queued initial k x) (hle : le x b) (hlength : k + ops.length ≤ depth)
    (hrun : ops.foldlM p.step b = some g) (hdone : p.done g = true) :
    (p.search initial depth).completed ≠ [] := by
  induction ops generalizing k x b with
  | nil =>
    obtain rfl : b = g := Option.some.inj hrun
    rw [← himp.done hle, hqueued.not_done hgood hinitial] at hdone
    cases hdone
  | cons o ops ih =>
    obtain ⟨b', hb', hrest⟩ := Option.bind_eq_some_iff.1
      (show (p.step b o).bind (fun b' => ops.foldlM p.step b') = some g from hrun)
    have ho := hops o List.mem_cons_self
    obtain ⟨x', hx', hle'⟩ := himp.step hle ho hb'
    obtain ⟨j, hj, hx⟩ := hqueued
    rw [List.length_cons] at hlength
    have hcut' := hcut.mono (show j + 1 ≤ depth by omega)
    obtain ⟨y, hley, hy⟩ := (search_covers himp hgood hgoods hcut'
      (search_thorough himp hgood hgoods (hcut'.mono (Nat.le_succ j)))).2 x hx o ho x' hx'
    rcases hy with hy | hy
    · exact ih (fun t ht => hops t (List.mem_cons_of_mem _ ht)) hy (himp.trans hley hle')
        (by omega) hrest
    · exact List.ne_nil_of_mem ((search_completed (by omega)).1 y hy)

theorem completed_ne_nil (himp : p.Improves Good le) (hfirst : Good initial)
    (hgoods : ∀ x o y, Good x → o ∈ p.operators → p.step x o = some y → Good y)
    (hinitial : p.done initial = false) {depth : ℕ} (hcut : p.Uncut initial depth)
    {ops : List O} (hops : ∀ o ∈ ops, o ∈ p.operators) {g : N} (hlength : ops.length ≤ depth)
    (hrun : ops.foldlM p.step initial = some g) (hdone : p.done g = true) :
    (p.search initial depth).completed ≠ [] := by
  have hgood : ∀ j, (p.search initial j).Holds p Good :=
    search_holds hfirst (fun _ _ h => h) (fun _ => hgoods)
  exact completed_of_queued himp hgood hgoods hinitial hcut hops
    ⟨0, Nat.le_refl _, List.mem_singleton_self _⟩ (himp.refl initial) (by omega) hrun hdone

-- ===== what is kept

/-- The key of each completed node keeps a completed node. -/
def Space.KeepsCompleted (p : Problem N O K) (s : Space N K) : Prop :=
  ∀ x ∈ s.completed, ∃ y ∈ s.completed, y ∈ s.pareto (p.key x)

theorem Space.KeepsCompleted.attempt (himp : p.Improves Good le) (h : s.KeepsCompleted p)
    (hgood : s.Holds p Good) {task : N × O} (hstep : ∀ x, p.step task.1 task.2 = some x → Good x) :
    (p.attempt s task).KeepsCompleted p := by
  intro x hx
  rcases attempt_cases p s task with ⟨heq, _⟩ | ⟨y, _, _, heq⟩ | ⟨y, hy, heq⟩
  · rw [heq] at hx ⊢
    exact h x hx
  · rw [heq] at hx ⊢
    exact h x hx
  · rw [heq, accept_completed] at hx
    have hnew : p.done y = true → p.key x = p.key y →
        ∃ z ∈ (p.attempt s task).completed, z ∈ (p.attempt s task).pareto (p.key x) := by
      intro hdone hkey
      refine ⟨y, ?_, ?_⟩
      · rw [heq, accept_completed, if_pos hdone]
        exact List.mem_append_right _ (List.mem_singleton_self y)
      · rw [heq, accept_pareto, hkey, Function.update_self]
        exact List.mem_append_right _ (List.mem_singleton_self y)
    rcases List.mem_append.1 hx with hx | hx
    · by_cases hkey : p.key x = p.key y
      · have hdone := himp.key_done (hgood.completed x hx).1 (hstep y hy) hkey
        exact hnew (hdone.symm.trans (hgood.completed x hx).2) hkey
      · obtain ⟨z, hz, hkept⟩ := h x hx
        refine ⟨z, (attempt_grows p s task).completed z hz, ?_⟩
        rw [heq, accept_pareto, Function.update_of_ne hkey]
        exact hkept
    · split at hx
      · next hdone =>
        rw [List.mem_singleton.1 hx] at hnew ⊢
        exact hnew hdone rfl
      · cases hx

theorem attempts_keepCompleted (himp : p.Improves Good le) {tasks : List (N × O)}
    (hgoods : ∀ task ∈ tasks, ∀ x, p.step task.1 task.2 = some x → Good x)
    (h : s.KeepsCompleted p) (hgood : s.Holds p Good) :
    (tasks.foldl p.attempt s).KeepsCompleted p := by
  induction tasks generalizing s with
  | nil => exact h
  | cons task tasks ih =>
    have htask := hgoods task List.mem_cons_self
    exact ih (fun t ht => hgoods t (List.mem_cons_of_mem _ ht)) (h.attempt himp hgood htask)
      (hgood.attempt htask)

theorem search_keepsCompleted (himp : p.Improves Good le) (hfirst : Good initial)
    (hgoods : ∀ x o y, Good x → o ∈ p.operators → p.step x o = some y → Good y) (k : ℕ) :
    (p.search initial k).KeepsCompleted p := by
  induction k with
  | zero => exact fun x hx => nomatch hx
  | succ k ih =>
    have hgood := search_holds (P := fun _ => Good) hfirst (fun _ _ h => h) (fun _ => hgoods) k
    rw [search_succ, Problem.deepen]
    by_cases hempty : (p.search initial k).frontier = []
    · rw [if_pos hempty]
      exact ih
    · rw [if_neg hempty]
      have hfresh : Space.Holds p Good { p.search initial k with next := [] } :=
        ⟨hgood.frontier, fun x hx => (nomatch hx), hgood.completed, hgood.pareto⟩
      exact attempts_keepCompleted himp (fun task htask x hx => hgoods task.1 task.2 x
        (hgood.frontier _ (mem_tasks.1 htask).1) (mem_tasks.1 htask).2 hx) ih hfresh

-- ===== what is found

/-- A node at the end of a run of at most so many steps. -/
def Problem.Reaches (p : Problem N O K) (initial : N) (k : ℕ) (x : N) : Prop :=
  ∃ ops : List O, (∀ o ∈ ops, o ∈ p.operators) ∧ ops.length ≤ k ∧ ops.foldlM p.step initial = some x

theorem search_reaches (p : Problem N O K) (initial : N) (k : ℕ) :
    (p.search initial k).Holds p (p.Reaches initial k) := by
  apply search_holds
  · exact ⟨[], fun o ho => (nomatch ho), Nat.le_refl _, rfl⟩
  · intro k x h
    obtain ⟨ops, hops, hlength, hrun⟩ := h
    exact ⟨ops, hops, Nat.le_succ_of_le hlength, hrun⟩
  · intro k x o y h ho hstep
    obtain ⟨ops, hops, hlength, hrun⟩ := h
    refine ⟨ops ++ [o], ?_, ?_, ?_⟩
    · intro o' ho'
      rcases List.mem_append.1 ho' with ho' | ho'
      · exact hops o' ho'
      · rw [List.mem_singleton.1 ho']
        exact ho
    · rw [List.length_append, List.length_singleton]
      omega
    · rw [List.foldlM_append, hrun]
      show (p.step x o).bind some = some y
      rw [hstep]
      rfl

end

end OperatorRuntime.Lib.Pruned
