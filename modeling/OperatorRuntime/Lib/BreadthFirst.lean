/-
Breadth-first search with a bound on the depth, on the edges of a finite graph.
Keys are marked as seen when they are queued, once for all paths. That loses no
target within the bound because the queue is ordered by depth (`Explored`): what
was seen before was seen no deeper.
-/
import Mathlib.Data.List.Nodup
import Mathlib.Data.List.Perm.Subperm

namespace OperatorRuntime.Lib.BreadthFirst

universe u v

variable {K : Type u} {E : Type v}

-- ===== search

/-- A queued key with the path to it. -/
structure Node (K : Type u) (E : Type v) where
  key : K
  keys : List K
  edges : List E

/-- The node at the other end of an edge. -/
def Node.next (target : E → K) (current : Node K E) (e : E) : Node K E where
  key := target e
  keys := current.keys ++ [target e]
  edges := current.edges ++ [e]

section
variable [DecidableEq K] (source target : E → K)

/-- The nodes that the edges lead to, keys that are seen left out, and the keys
seen then. -/
@[grind =] def expand (current : Node K E) : List E → List K → List (Node K E) × List K
  | [], seen => ([], seen)
  | e :: es, seen =>
    if target e ∈ seen then expand current es seen
    else
      let rest := expand current es (target e :: seen)
      (current.next target e :: rest.1, rest.2)

/-- The loop over the queue, with a budget of rounds. -/
def search (goal : K → Bool) (maxDepth : ℕ) (edges : List E) :
    ℕ → List (Node K E) → List K → Option (Node K E)
  | 0, _, _ => none
  | _ + 1, [], _ => none
  | fuel + 1, current :: queue, seen =>
    if goal current.key = true then some current
    else if maxDepth ≤ current.keys.length - 1 then search goal maxDepth edges fuel queue seen
    else
      let next := expand target current (edges.filter fun e => source e = current.key) seen
      search goal maxDepth edges fuel (queue ++ next.1) next.2

end

-- ===== walks

/-- The edges lead from the one key to the other. -/
def Walk (source target : E → K) (edges : List E) : K → List E → K → Prop
  | x, [], y => x = y
  | x, e :: es, y => e ∈ edges ∧ source e = x ∧ Walk source target edges (target e) es y

variable {source target : E → K} {edges es : List E} {x y z : K} {e : E}

theorem Walk.snoc (h : Walk source target edges x es y) (he : e ∈ edges) (hsource : source e = y) :
    Walk source target edges x (es ++ [e]) (target e) := by
  induction es generalizing x with
  | nil => exact ⟨he, hsource.trans h.symm, rfl⟩
  | cons a es ih => exact ⟨h.1, h.2.1, ih h.2.2⟩

-- ===== expansion

section
variable [DecidableEq K] {current : Node K E} {seen : List K}

theorem expand_nodes {n : Node K E} (h : n ∈ (expand target current es seen).1) :
    ∃ e ∈ es, n = current.next target e ∧ target e ∉ seen := by
  induction es generalizing seen with
  | nil => cases h
  | cons e es ih =>
    rw [expand] at h
    split at h
    · obtain ⟨a, ha, hn, hnew⟩ := ih h
      exact ⟨a, List.mem_cons_of_mem _ ha, hn, hnew⟩
    · next hseen =>
      rcases List.mem_cons.1 h with rfl | h
      · exact ⟨e, List.mem_cons_self .., rfl, hseen⟩
      · obtain ⟨a, ha, hn, hnew⟩ := ih h
        exact ⟨a, List.mem_cons_of_mem _ ha, hn, fun hin => hnew (List.mem_cons_of_mem _ hin)⟩

theorem expand_seen {k : K} : k ∈ (expand target current es seen).2
    ↔ k ∈ seen ∨ ∃ n ∈ (expand target current es seen).1, n.key = k := by
  induction es generalizing seen with
  | nil => simp [expand]
  | cons e es ih =>
    rw [expand]
    split
    · exact ih
    · rw [ih, List.mem_cons]
      constructor
      · intro h
        rcases h with (rfl | h) | ⟨n, hn, hk⟩
        · exact .inr ⟨_, List.mem_cons_self .., rfl⟩
        · exact .inl h
        · exact .inr ⟨n, List.mem_cons_of_mem _ hn, hk⟩
      · intro h
        rcases h with h | ⟨n, hn, hk⟩
        · exact .inl (.inr h)
        · rcases List.mem_cons.1 hn with rfl | hn
          · exact .inl (.inl hk.symm)
          · exact .inr ⟨n, hn, hk⟩

theorem expand_target (he : e ∈ es) : target e ∈ (expand target current es seen).2 := by
  induction es generalizing seen with
  | nil => cases he
  | cons a es ih =>
    rw [expand]
    split
    · next hseen =>
      rcases List.mem_cons.1 he with rfl | he
      · exact expand_seen.2 (.inl hseen)
      · exact ih he
    · rcases List.mem_cons.1 he with rfl | he
      · exact expand_seen.2 (.inl (List.mem_cons_self ..))
      · exact ih he

theorem expand_distinct (target : E → K) (current : Node K E) (es : List E) (seen : List K) :
    ((expand target current es seen).1.map Node.key).Nodup := by
  induction es generalizing seen with
  | nil => exact List.nodup_nil
  | cons e es ih =>
    rw [expand]
    split
    · exact ih seen
    · rw [List.map_cons, List.nodup_cons]
      refine ⟨?_, ih _⟩
      intro hin
      obtain ⟨n, hn, hk⟩ := List.mem_map.1 hin
      obtain ⟨a, -, rfl, hnew⟩ := expand_nodes hn
      refine hnew ?_
      rw [show target a = target e from hk]
      exact List.mem_cons_self ..

end

-- ===== exploration

/-- A node with a simple path to it within the bound. -/
structure Node.Reached (source target : E → K) (edges : List E) (maxDepth : ℕ) (start : K)
    (n : Node K E) : Prop where
  walk : Walk source target edges start n.edges n.key
  keys : n.keys = start :: n.edges.map target
  simple : n.keys.Nodup
  bound : n.edges.length ≤ maxDepth

def Node.depth (n : Node K E) : ℕ :=
  n.edges.length

/-- The nodes taken from the queue and those in it. -/
structure Explored (source target : E → K) (goal : K → Bool) (maxDepth : ℕ) (edges : List E)
    (start : K) (done queue : List (Node K E)) (seen : List K) : Prop where
  seen_iff : ∀ k, k ∈ seen ↔ ∃ n ∈ done ++ queue, n.key = k
  reached : ∀ n ∈ done ++ queue, n.Reached source target edges maxDepth start
  within : ∀ n ∈ done ++ queue, ∀ k ∈ n.keys, k ∈ seen
  distinct : ((done ++ queue).map Node.key).Nodup
  keys : ∀ k ∈ seen, k = start ∨ k ∈ edges.map target
  start_node : ⟨start, [start], []⟩ ∈ done ++ queue
  goals : ∀ n ∈ done, goal n.key = false
  before : ∀ a ∈ done, ∀ b ∈ queue, a.depth ≤ b.depth
  sorted : queue.Pairwise fun a b => a.depth ≤ b.depth
  near : ∀ a ∈ queue, ∀ b ∈ queue, b.depth ≤ a.depth + 1
  closed : ∀ a ∈ done, a.depth < maxDepth → ∀ e ∈ edges, source e = a.key →
    ∃ b ∈ done ++ queue, b.key = target e ∧ b.depth ≤ a.depth + 1

variable {goal : K → Bool} {maxDepth : ℕ} {start : K} {done queue : List (Node K E)} {seen : List K}
  {current : Node K E}

namespace Explored

/-- A walk to a goal from a node that was seen goes on from a queued node that is
no further from it. -/
theorem exists_queued (h : Explored source target goal maxDepth edges start done queue seen)
    {n : Node K E} (hn : n ∈ done ++ queue) (hwalk : Walk source target edges n.key es y)
    (hgoal : goal y = true) (hbound : n.depth + es.length ≤ maxDepth) :
    ∃ q ∈ queue, ∃ rest, Walk source target edges q.key rest y
    ∧ q.depth + rest.length ≤ n.depth + es.length := by
  induction es generalizing n with
  | nil =>
    rcases List.mem_append.1 hn with hdone | hqueue
    · have hnot := h.goals n hdone
      rw [show n.key = y from hwalk, hgoal] at hnot
      cases hnot
    · exact ⟨n, hqueue, [], hwalk, Nat.le_refl _⟩
  | cons e es ih =>
    rcases List.mem_append.1 hn with hdone | hqueue
    · obtain ⟨he, hsource, hrest⟩ := hwalk
      rw [List.length_cons] at hbound
      obtain ⟨b, hb, hkey, hdepth⟩ := h.closed n hdone (by omega) e he hsource
      rw [← hkey] at hrest
      obtain ⟨q, hq, rest, hwalk, hle⟩ := ih hb hrest (by omega)
      refine ⟨q, hq, rest, hwalk, ?_⟩
      rw [List.length_cons]
      omega
    · exact ⟨n, hqueue, e :: es, hwalk, Nat.le_refl _⟩

theorem depth_eq (h : current.Reached source target edges maxDepth start) :
    current.keys.length - 1 = current.depth := by
  rw [h.keys, List.length_cons, List.length_map, Nat.add_sub_cancel]
  rfl

theorem pop (h : Explored source target goal maxDepth edges start done (current :: queue) seen)
    (hgoal : goal current.key = false) (hbound : maxDepth ≤ current.depth) :
    Explored source target goal maxDepth edges start (done ++ [current]) queue seen := by
  have hall : done ++ [current] ++ queue = done ++ current :: queue := by simp
  constructor
  · rw [hall]
    exact h.seen_iff
  · rw [hall]
    exact h.reached
  · rw [hall]
    exact h.within
  · rw [hall]
    exact h.distinct
  · exact h.keys
  · rw [hall]
    exact h.start_node
  · intro n hn
    rcases List.mem_append.1 hn with hn | hn
    · exact h.goals n hn
    · rw [List.mem_singleton.1 hn]
      exact hgoal
  · intro a ha b hb
    rcases List.mem_append.1 ha with ha | ha
    · exact h.before a ha b (List.mem_cons_of_mem _ hb)
    · rw [List.mem_singleton.1 ha]
      exact (List.pairwise_cons.1 h.sorted).1 b hb
  · exact (List.pairwise_cons.1 h.sorted).2
  · intro a ha b hb
    exact h.near a (List.mem_cons_of_mem _ ha) b (List.mem_cons_of_mem _ hb)
  · intro a ha hdepth e he hsource
    rw [hall]
    rcases List.mem_append.1 ha with ha | ha
    · exact h.closed a ha hdepth e he hsource
    · rw [List.mem_singleton.1 ha] at hdepth
      omega

theorem next_reached (h : current.Reached source target edges maxDepth start)
    (hwithin : ∀ k ∈ current.keys, k ∈ seen) (he : e ∈ edges) (hsource : source e = current.key)
    (hnew : target e ∉ seen) (hbound : current.depth < maxDepth) :
    (current.next target e).Reached source target edges maxDepth start := by
  constructor
  · exact h.walk.snoc he hsource
  · rw [Node.next]
    simp [h.keys]
  · rw [Node.next]
    refine List.nodup_append.2 ⟨h.simple, List.nodup_singleton _, ?_⟩
    intro k hk k' hk' heq
    rw [List.mem_singleton.1 hk'] at heq
    exact hnew (hwithin _ (heq ▸ hk))
  · show (current.edges ++ [e]).length ≤ maxDepth
    rw [List.length_append, List.length_singleton]
    exact hbound

theorem next_depth : (current.next target e).depth = current.depth + 1 := by
  show (current.edges ++ [e]).length = _
  rw [List.length_append, List.length_singleton]
  rfl

theorem expand [DecidableEq K]
    (h : Explored source target goal maxDepth edges start done (current :: queue) seen)
    (hgoal : goal current.key = false) (hbound : current.depth < maxDepth) :
    Explored source target goal maxDepth edges start (done ++ [current])
      (queue ++ (expand target current (edges.filter fun e => source e = current.key) seen).1)
      (expand target current (edges.filter fun e => source e = current.key) seen).2 := by
  have hnodes : ∀ n ∈ (BreadthFirst.expand target current
        (edges.filter fun e => source e = current.key) seen).1,
      ∃ e ∈ edges, source e = current.key ∧ n = current.next target e ∧ target e ∉ seen := by
    intro n hn
    obtain ⟨e, he, hn, hnew⟩ := expand_nodes hn
    obtain ⟨he, hsource⟩ := List.mem_filter.1 he
    exact ⟨e, he, of_decide_eq_true hsource, hn, hnew⟩
  have hseen : ∀ k, k ∈ (BreadthFirst.expand target current
        (edges.filter fun e => source e = current.key) seen).2
      ↔ k ∈ seen ∨ ∃ n ∈ (BreadthFirst.expand target current
          (edges.filter fun e => source e = current.key) seen).1, n.key = k :=
    fun k => expand_seen
  have hdistinct := expand_distinct target current (edges.filter fun e => source e = current.key) seen
  have htarget : ∀ e ∈ edges, source e = current.key → target e ∈ (BreadthFirst.expand target current
        (edges.filter fun e => source e = current.key) seen).2 :=
    fun e he hsource => expand_target (List.mem_filter.2 ⟨he, decide_eq_true hsource⟩)
  generalize BreadthFirst.expand target current (edges.filter fun e => source e = current.key) seen
    = next at hnodes hseen hdistinct htarget ⊢
  obtain ⟨new, seen'⟩ := next
  dsimp only at hnodes hseen hdistinct htarget ⊢
  have hcurrent : current ∈ done ++ current :: queue :=
    List.mem_append_right _ (List.mem_cons_self ..)
  have hmem : ∀ n, n ∈ done ++ [current] ++ (queue ++ new)
      ↔ n ∈ done ++ current :: queue ∨ n ∈ new := by
    intro n
    simp only [List.mem_append, List.mem_cons, List.not_mem_nil]
    tauto
  have hdepth : ∀ n ∈ new, n.depth = current.depth + 1 := by
    intro n hn
    obtain ⟨e, -, -, rfl, -⟩ := hnodes n hn
    exact next_depth
  have hfirst : ∀ b ∈ queue, current.depth ≤ b.depth := (List.pairwise_cons.1 h.sorted).1
  have hclose : ∀ b ∈ queue, b.depth ≤ current.depth + 1 := fun b hb =>
    h.near current (List.mem_cons_self ..) b (List.mem_cons_of_mem _ hb)
  constructor
  · intro k
    rw [hseen, h.seen_iff]
    simp only [hmem]
    constructor
    · intro hk
      rcases hk with ⟨n, hn, hk⟩ | ⟨n, hn, hk⟩
      · exact ⟨n, .inl hn, hk⟩
      · exact ⟨n, .inr hn, hk⟩
    · intro hk
      obtain ⟨n, hn | hn, hk⟩ := hk
      · exact .inl ⟨n, hn, hk⟩
      · exact .inr ⟨n, hn, hk⟩
  · intro n hn
    rcases (hmem n).1 hn with hn | hn
    · exact h.reached n hn
    · obtain ⟨e, he, hsource, rfl, hnew⟩ := hnodes n hn
      exact next_reached (h.reached _ hcurrent) (h.within _ hcurrent) he hsource hnew hbound
  · intro n hn k hk
    rw [hseen]
    rcases (hmem n).1 hn with hn | hn
    · exact .inl (h.within n hn k hk)
    · obtain ⟨e, he, hsource, rfl, hnew⟩ := hnodes n hn
      rcases List.mem_append.1 hk with hk | hk
      · exact .inl (h.within _ hcurrent k hk)
      · exact .inr ⟨_, hn, (List.mem_singleton.1 hk).symm⟩
  · have hall : done ++ [current] ++ (queue ++ new) = done ++ current :: queue ++ new := by simp
    rw [hall, List.map_append, List.nodup_append]
    refine ⟨h.distinct, hdistinct, ?_⟩
    intro k hk k' hk' heq
    obtain ⟨n, hn, rfl⟩ := List.mem_map.1 hk
    obtain ⟨n', hn', rfl⟩ := List.mem_map.1 hk'
    obtain ⟨e, -, -, rfl, hnew⟩ := hnodes n' hn'
    exact hnew ((h.seen_iff _).2 ⟨n, hn, heq⟩)
  · intro k hk
    rcases (hseen k).1 hk with hk | ⟨n, hn, rfl⟩
    · exact h.keys k hk
    · obtain ⟨e, he, -, rfl, -⟩ := hnodes n hn
      exact .inr (List.mem_map_of_mem he)
  · exact (hmem _).2 (.inl h.start_node)
  · intro n hn
    rcases List.mem_append.1 hn with hn | hn
    · exact h.goals n hn
    · rw [List.mem_singleton.1 hn]
      exact hgoal
  · intro a ha b hb
    have hle : a.depth ≤ current.depth := by
      rcases List.mem_append.1 ha with ha | ha
      · exact h.before a ha current (List.mem_cons_self ..)
      · have heq := List.mem_singleton.1 ha
        simp only [heq, Nat.le_refl]
    rcases List.mem_append.1 hb with hb | hb
    · exact Nat.le_trans hle (hfirst b hb)
    · have hb := hdepth b hb
      omega
  · rw [List.pairwise_append]
    refine ⟨(List.pairwise_cons.1 h.sorted).2, ?_, ?_⟩
    · refine List.pairwise_of_forall_mem_list ?_
      intro a ha b hb
      simp only [hdepth a ha, hdepth b hb, Nat.le_refl]
    · intro a ha b hb
      rw [hdepth b hb]
      exact hclose a ha
  · intro a ha b hb
    have hlower : current.depth ≤ a.depth := by
      rcases List.mem_append.1 ha with ha | ha
      · exact hfirst a ha
      · rw [hdepth a ha]
        omega
    rcases List.mem_append.1 hb with hb | hb
    · have hupper := hclose b hb
      omega
    · rw [hdepth b hb]
      omega
  · intro a ha hlt e he hsource
    rcases List.mem_append.1 ha with ha | ha
    · obtain ⟨b, hb, hkey, hle⟩ := h.closed a ha hlt e he hsource
      exact ⟨b, (hmem b).2 (.inl hb), hkey, hle⟩
    · obtain rfl := List.mem_singleton.1 ha
      rcases (hseen _).1 (htarget e he hsource) with hin | ⟨b, hb, hkey⟩
      · obtain ⟨b, hb, hkey⟩ := (h.seen_iff _).1 hin
        refine ⟨b, (hmem b).2 (.inl hb), hkey, ?_⟩
        rcases List.mem_append.1 hb with hb | hb
        · have hle := h.before b hb a (List.mem_cons_self ..)
          omega
        · rcases List.mem_cons.1 hb with rfl | hb
          · omega
          · exact hclose b hb
      · refine ⟨b, (hmem b).2 (.inr hb), hkey, ?_⟩
        have hb := hdepth b hb
        omega

theorem length_le (h : Explored source target goal maxDepth edges start done queue seen) :
    (done ++ queue).length ≤ edges.length + 1 := by
  have hsub : (done ++ queue).map Node.key ⊆ start :: edges.map target := by
    intro k hk
    obtain ⟨n, hn, rfl⟩ := List.mem_map.1 hk
    rcases h.keys n.key ((h.seen_iff _).2 ⟨n, hn, rfl⟩) with hstart | hin
    · exact hstart ▸ List.mem_cons_self ..
    · exact List.mem_cons_of_mem _ hin
  have hle := (h.distinct.subperm hsub).length_le
  rwa [List.length_map, List.length_cons, List.length_map] at hle

end Explored

-- ===== result

/-- What a search answers: a goal at the end of a shortest simple path, or nothing
when no goal is within the bound. -/
def Answers (source target : E → K) (goal : K → Bool) (maxDepth : ℕ) (edges : List E) (start : K) :
    Option (Node K E) → Prop
  | some n => n.Reached source target edges maxDepth start ∧ goal n.key = true
      ∧ ∀ y es, goal y = true → Walk source target edges start es y → n.depth ≤ es.length
  | none => ∀ y es, goal y = true → Walk source target edges start es y → maxDepth < es.length

theorem explored_start (source target : E → K) (goal : K → Bool) (maxDepth : ℕ) (edges : List E)
    (start : K) :
    Explored source target goal maxDepth edges start [] [⟨start, [start], []⟩] [start] := by
  have hone : ∀ n : Node K E, n ∈ [] ++ [(⟨start, [start], []⟩ : Node K E)] →
      n = ⟨start, [start], []⟩ := fun n hn => List.mem_singleton.1 hn
  constructor
  · intro k
    simp [eq_comm]
  · intro n hn
    rw [hone n hn]
    exact ⟨rfl, rfl, List.nodup_singleton _, Nat.zero_le _⟩
  · intro n hn k hk
    rw [hone n hn] at hk
    exact hk
  · exact List.nodup_singleton _
  · intro k hk
    exact .inl (List.mem_singleton.1 hk)
  · exact List.mem_singleton.2 rfl
  · intro n hn
    cases hn
  · intro a ha
    cases ha
  · exact List.pairwise_singleton _ _
  · intro a ha b hb
    rw [hone a ha, hone b hb]
    exact Nat.zero_le _
  · intro a ha
    cases ha

theorem search_answers [DecidableEq K] {fuel : ℕ}
    (h : Explored source target goal maxDepth edges start done queue seen)
    (hfuel : edges.length + 1 ≤ fuel + done.length) :
    Answers source target goal maxDepth edges start
      (search source target goal maxDepth edges fuel queue seen) := by
  induction fuel generalizing done queue seen with
  | zero =>
    have hle := h.length_le
    rw [List.length_append] at hle
    have hnil : queue = [] := List.length_eq_zero_iff.1 (by omega)
    intro y es hy hwalk
    by_contra hshort
    obtain ⟨q, hq, -⟩ := h.exists_queued h.start_node hwalk hy (by
      show 0 + es.length ≤ maxDepth
      omega)
    rw [hnil] at hq
    cases hq
  | succ fuel ih =>
    cases queue with
    | nil =>
      intro y es hy hwalk
      by_contra hshort
      obtain ⟨q, hq, -⟩ := h.exists_queued h.start_node hwalk hy (by
        show 0 + es.length ≤ maxDepth
        omega)
      cases hq
    | cons current queue =>
      have hcurrent : current ∈ done ++ current :: queue :=
        List.mem_append_right _ (List.mem_cons_self ..)
      have hreached := h.reached current hcurrent
      rw [search]
      by_cases hgoal : goal current.key = true
      · rw [if_pos hgoal]
        refine ⟨hreached, hgoal, ?_⟩
        intro y es hy hwalk
        by_cases hlong : es.length ≤ maxDepth
        · obtain ⟨q, hq, rest, -, hle⟩ := h.exists_queued h.start_node hwalk hy (by
            show 0 + es.length ≤ maxDepth
            omega)
          have hfirst : current.depth ≤ q.depth := by
            rcases List.mem_cons.1 hq with rfl | hq
            · exact Nat.le_refl _
            · exact (List.pairwise_cons.1 h.sorted).1 q hq
          have hzero : ((⟨start, [start], []⟩ : Node K E).depth) = 0 := rfl
          omega
        · have hbound : current.depth ≤ maxDepth := hreached.bound
          omega
      · rw [if_neg hgoal, Explored.depth_eq hreached]
        have hnot : goal current.key = false := by simpa using hgoal
        have hlength : (done ++ [current]).length = done.length + 1 := by simp
        by_cases hbound : maxDepth ≤ current.depth
        · rw [if_pos hbound]
          exact ih (h.pop hnot hbound) (by omega)
        · rw [if_neg hbound]
          exact ih (h.expand hnot (by omega)) (by omega)

theorem search_start [DecidableEq K] (source target : E → K) (goal : K → Bool) (maxDepth : ℕ) (edges : List E)
    (start : K) : Answers source target goal maxDepth edges start
      (search source target goal maxDepth edges (edges.length + 1) [⟨start, [start], []⟩] [start]) :=
  search_answers (explored_start source target goal maxDepth edges start) (Nat.le_refl _)

end OperatorRuntime.Lib.BreadthFirst
