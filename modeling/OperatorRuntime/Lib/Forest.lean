/-
Records that name a parent by its key, and the records below one, found
by working a queue.

`spread` marks a key once and queues the keys of its children. Each
round either drops a key that was marked before or marks a new one, and
then as many keys are queued as there are records that wait no longer;
so the rounds that are left number the queue and the records whose
parent is not marked (`pending`), and one round more than there are
records empties the queue (`mem_spread_iff`).
-/
import Mathlib.Logic.Relation

namespace OperatorRuntime.Lib

universe u v

variable {α : Type u} {κ : Type v} [DecidableEq κ] (key : α → κ) (parent : α → Option κ)

/-- The one key is that of a record whose parent has the other. -/
def ChildOf (items : List α) (p c : κ) : Prop :=
  ∃ a ∈ items, parent a = some p ∧ key a = c

/-- The keys below a key. -/
def Below (items : List α) : κ → κ → Prop :=
  Relation.TransGen (ChildOf key parent items)

def childKeys (items : List α) (k : κ) : List κ :=
  (items.filter fun a => parent a = some k).map key

/-- The keys marked once a queue is worked off, in as many rounds. -/
def spread (items : List α) : Nat → List κ → List κ → List κ
  | 0, _, marked => marked
  | _ + 1, [], marked => marked
  | rounds + 1, k :: queue, marked =>
    if k ∈ marked then spread items rounds queue marked
    else spread items rounds (queue ++ childKeys key parent items k) (k :: marked)

variable {key parent} {items : List α} {rounds : Nat} {queue marked : List κ}

theorem mem_childKeys {p c : κ} : c ∈ childKeys key parent items p ↔ ChildOf key parent items p c := by
  simp only [childKeys, ChildOf, List.mem_map, List.mem_filter, decide_eq_true_eq, and_assoc]

omit [DecidableEq κ] in
theorem childOf_map {f : α → α} (hkey : ∀ a, key (f a) = key a)
    (hparent : ∀ a, parent (f a) = parent a) :
    ChildOf key parent (items.map f) = ChildOf key parent items := by
  funext p c
  rw [ChildOf, ChildOf, eq_iff_iff]
  constructor
  · intro ⟨b, hb, hp, hc⟩
    obtain ⟨a, ha, rfl⟩ := List.mem_map.1 hb
    exact ⟨a, ha, (hparent a).symm.trans hp, (hkey a).symm.trans hc⟩
  · intro ⟨a, ha, hp, hc⟩
    exact ⟨f a, List.mem_map_of_mem ha, (hparent a).trans hp, (hkey a).trans hc⟩

theorem spread_map {f : α → α} (hkey : ∀ a, key (f a) = key a)
    (hparent : ∀ a, parent (f a) = parent a) : spread key parent (items.map f) rounds queue marked
    = spread key parent items rounds queue marked := by
  have hchildren : ∀ k, childKeys key parent (items.map f) k = childKeys key parent items k := by
    intro k
    rw [childKeys, childKeys, List.filter_map, List.map_map]
    have hfun : key ∘ f = key := funext hkey
    rw [hfun]
    congr 2
    funext a
    simp only [Function.comp_apply, hparent]
  induction rounds generalizing queue marked with
  | zero => rfl
  | succ rounds ih =>
    cases queue with
    | nil => rfl
    | cons k queue => rw [spread, spread, hchildren, ih, ih]

/-- The records whose parent is not marked. -/
def pending (parent : α → Option κ) (items : List α) (marked : List κ) : Nat :=
  (items.filter fun a => ∃ p ∈ parent a, p ∉ marked).length

variable (key parent items) in
theorem pending_cons {k : κ} (hk : k ∉ marked) :
    pending parent items (k :: marked) + (childKeys key parent items k).length
    = pending parent items marked := by
  rw [pending, pending, childKeys, List.length_map]
  induction items with
  | nil => rfl
  | cons a items ih =>
    by_cases ha : parent a = some k
    · have hold : ∃ p ∈ parent a, p ∉ marked := ⟨k, ha, hk⟩
      have hnew : ¬ ∃ p ∈ parent a, p ∉ k :: marked := by
        intro ⟨p, hp, hnot⟩
        rw [ha] at hp
        obtain rfl := Option.some.inj hp
        exact hnot (List.mem_cons_self ..)
      rw [List.filter_cons_of_neg (by simpa using hnew), List.filter_cons_of_pos (by simpa using ha),
        List.filter_cons_of_pos (by simpa using hold), List.length_cons, List.length_cons]
      omega
    · have hsame : (∃ p ∈ parent a, p ∉ k :: marked) ↔ ∃ p ∈ parent a, p ∉ marked := by
        constructor
        · intro ⟨p, hp, hnot⟩
          exact ⟨p, hp, fun h => hnot (List.mem_cons_of_mem _ h)⟩
        · intro ⟨p, hp, hnot⟩
          refine ⟨p, hp, fun h => ?_⟩
          rcases List.mem_cons.1 h with rfl | h
          · exact ha hp
          · exact hnot h
      rw [List.filter_cons_of_neg (p := fun a => decide (parent a = some k)) (by simpa using ha)]
      by_cases hold : ∃ p ∈ parent a, p ∉ marked
      · rw [List.filter_cons_of_pos (by simpa using hsame.2 hold),
          List.filter_cons_of_pos (by simpa using hold), List.length_cons, List.length_cons]
        omega
      · rw [List.filter_cons_of_neg (by simpa using fun h => hold (hsame.1 h)),
          List.filter_cons_of_neg (by simpa using hold)]
        exact ih

theorem marked_subset_spread : marked ⊆ spread key parent items rounds queue marked := by
  induction rounds generalizing queue marked with
  | zero => exact fun _ h => h
  | succ rounds ih =>
    cases queue with
    | nil => exact fun _ h => h
    | cons k queue =>
      rw [spread]
      split
      · exact ih
      · exact fun _ h => ih (List.mem_cons_of_mem _ h)

theorem spread_closed (hrounds : queue.length + pending parent items marked ≤ rounds)
    (hclosed : ∀ p ∈ marked, ∀ c, ChildOf key parent items p c → c ∈ marked ∨ c ∈ queue) :
    queue ⊆ spread key parent items rounds queue marked
    ∧ ∀ p ∈ spread key parent items rounds queue marked, ∀ c, ChildOf key parent items p c →
      c ∈ spread key parent items rounds queue marked := by
  induction rounds generalizing queue marked with
  | zero =>
    have hnil : queue = [] := List.length_eq_zero_iff.1 (by omega)
    subst hnil
    exact ⟨List.nil_subset _, fun p hp c hc => (hclosed p hp c hc).resolve_right List.not_mem_nil⟩
  | succ rounds ih =>
    cases queue with
    | nil =>
      exact ⟨List.nil_subset _,
        fun p hp c hc => (hclosed p hp c hc).resolve_right List.not_mem_nil⟩
    | cons k queue =>
      rw [spread]
      rw [List.length_cons] at hrounds
      by_cases hk : k ∈ marked
      · rw [if_pos hk]
        obtain ⟨hqueue, hmarked⟩ := @ih queue marked (by omega) (by
          intro p hp c hc
          rcases hclosed p hp c hc with h | h
          · exact .inl h
          · rcases List.mem_cons.1 h with rfl | h
            · exact .inl hk
            · exact .inr h)
        exact ⟨List.cons_subset.2 ⟨marked_subset_spread hk, hqueue⟩, hmarked⟩
      · rw [if_neg hk]
        have hcount := pending_cons key parent items hk
        obtain ⟨hqueue, hmarked⟩ := @ih (queue ++ childKeys key parent items k) (k :: marked) (by rw [List.length_append]; omega) (by
            intro p hp c hc
            rcases List.mem_cons.1 hp with rfl | hp
            · exact .inr (List.mem_append_right _ (mem_childKeys.2 hc))
            · rcases hclosed p hp c hc with h | h
              · exact .inl (List.mem_cons_of_mem _ h)
              · rcases List.mem_cons.1 h with rfl | h
                · exact .inl (List.mem_cons_self ..)
                · exact .inr (List.mem_append_left _ h))
        exact ⟨List.cons_subset.2 ⟨marked_subset_spread (List.mem_cons_self ..),
          (List.append_subset.1 hqueue).1⟩, hmarked⟩

theorem spread_sound {c : κ} (hc : c ∈ spread key parent items rounds queue marked) :
    c ∈ marked ∨ ∃ k ∈ queue, Relation.ReflTransGen (ChildOf key parent items) k c := by
  induction rounds generalizing queue marked with
  | zero => exact .inl hc
  | succ rounds ih =>
    cases queue with
    | nil => exact .inl hc
    | cons k queue =>
      rw [spread] at hc
      split at hc
      · rcases ih hc with h | ⟨q, hq, hreach⟩
        · exact .inl h
        · exact .inr ⟨q, List.mem_cons_of_mem _ hq, hreach⟩
      · rcases ih hc with h | ⟨q, hq, hreach⟩
        · rcases List.mem_cons.1 h with rfl | h
          · exact .inr ⟨c, List.mem_cons_self .., Relation.ReflTransGen.refl⟩
          · exact .inl h
        · rcases List.mem_append.1 hq with hq | hq
          · exact .inr ⟨q, List.mem_cons_of_mem _ hq, hreach⟩
          · exact .inr ⟨k, List.mem_cons_self .., hreach.head (mem_childKeys.1 hq)⟩

theorem mem_spread_iff {root c : κ} : c ∈ spread key parent items (items.length + 1) [root] []
    ↔ Relation.ReflTransGen (ChildOf key parent items) root c := by
  constructor
  · intro hc
    rcases spread_sound hc with h | ⟨k, hk, hreach⟩
    · cases h
    · rw [List.mem_singleton] at hk
      exact hk ▸ hreach
  · intro hreach
    have hpending : pending parent items [] ≤ items.length := List.length_filter_le ..
    obtain ⟨hqueue, hclosed⟩ := @spread_closed _ _ _ key parent items (items.length + 1) [root] []
      (by rw [List.length_singleton]; omega) (fun _ h => (nomatch h))
    induction hreach with
    | refl => exact hqueue (List.mem_singleton_self _)
    | tail _ hchild ih => exact hclosed _ ih _ hchild

end OperatorRuntime.Lib
