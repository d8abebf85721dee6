/-
Lists read and written through a key, as mutable arrays of records are:
`find?` returns the first match and the caller mutates that one record
(`updateFirst`), or writes at a position it holds. When the keys are pairwise distinct the write touches
exactly the record with that key (`mem_updateFirst_key`); when they are
the consecutive numbers from a base (`Consecutive`), the record with a
given number exists exactly when the number is in the window.
-/
import Mathlib.Data.List.Range
import Mathlib.Data.List.Nodup

namespace OperatorRuntime.Lib

universe u v

variable {α : Type u} {κ : Type v}

-- ===== write by position

variable {a x : α}

theorem getElem?_set_cases {l : List α} {i j : Nat} (hx : (l.set i a)[j]? = some x) :
    (j = i ∧ x = a) ∨ (j ≠ i ∧ l[j]? = some x) := by
  rw [List.getElem?_set] at hx
  split at hx
  · next heq =>
    split at hx
    · exact .inl ⟨heq.symm, by simpa using hx.symm⟩
    · cases hx
  · next hne => exact .inr ⟨fun h => hne h.symm, hx⟩

-- ===== first-match write

/-- Replace the first element satisfying `p` by its image under `f`. -/
@[grind =] def updateFirst (p : α → Bool) (f : α → α) : List α → List α
  | [] => []
  | a :: l => if p a then f a :: l else a :: updateFirst p f l

variable {p : α → Bool} {f : α → α}

theorem map_updateFirst {g : α → κ} (hfg : ∀ a, p a → g (f a) = g a) (l : List α) :
    (updateFirst p f l).map g = l.map g := by
  induction l with
  | nil => rfl
  | cons a l ih =>
    rw [updateFirst]
    split
    · next hp => simp [hfg a hp]
    · simp [ih]

theorem length_updateFirst (l : List α) : (updateFirst p f l).length = l.length := by
  simpa using congrArg List.length
    (map_updateFirst (p := p) (f := f) (g := fun _ => ()) (fun _ _ => rfl) l)

theorem updateFirst_eq_self {l : List α} (h : ∀ a ∈ l, p a → f a = a) : updateFirst p f l = l := by
  induction l with
  | nil => rfl
  | cons a l ih =>
    rw [updateFirst]
    split
    · next hp => rw [h a (List.mem_cons_self ..) hp]
    · rw [ih fun b hb => h b (List.mem_cons_of_mem _ hb)]

theorem mem_updateFirst_of_not {l : List α} (ha : a ∈ l) (hp : p a = false) :
    a ∈ updateFirst p f l := by
  induction l with
  | nil => cases ha
  | cons b l ih =>
    rw [updateFirst]
    rcases List.mem_cons.1 ha with rfl | hin
    · simp [hp]
    · split
      · exact List.mem_cons_of_mem _ hin
      · exact List.mem_cons_of_mem _ (ih hin)

theorem mem_updateFirst_of_find? {l : List α} (h : l.find? p = some a) :
    f a ∈ updateFirst p f l := by
  induction l with
  | nil => cases h
  | cons b l ih =>
    rw [List.find?_cons] at h
    rw [updateFirst]
    cases hp : p b with
    | true =>
      rw [hp] at h
      obtain rfl : b = a := by simpa using h
      simp
    | false =>
      rw [hp] at h
      simpa using .inr (ih h)

theorem mem_updateFirst_or {l : List α} (ha : a ∈ l) :
    a ∈ updateFirst p f l ∨ f a ∈ updateFirst p f l := by
  induction l with
  | nil => cases ha
  | cons b l ih =>
    unfold updateFirst
    rcases List.mem_cons.1 ha with rfl | hin
    · split
      · exact .inr (List.mem_cons_self ..)
      · exact .inl (List.mem_cons_self ..)
    · split
      · exact .inl (List.mem_cons_of_mem _ hin)
      · rcases ih hin with hkept | hwritten
        · exact .inl (List.mem_cons_of_mem _ hkept)
        · exact .inr (List.mem_cons_of_mem _ hwritten)

theorem mem_updateFirst {l : List α} (hx : x ∈ updateFirst p f l) :
    x ∈ l ∨ ∃ a ∈ l, p a ∧ x = f a := by
  induction l with
  | nil => cases hx
  | cons a l ih =>
    rw [updateFirst] at hx
    split at hx
    · next hp =>
      rcases List.mem_cons.1 hx with rfl | hin
      · exact .inr ⟨a, List.mem_cons_self .., hp, rfl⟩
      · exact .inl (List.mem_cons_of_mem _ hin)
    · rcases List.mem_cons.1 hx with rfl | hin
      · exact .inl (List.mem_cons_self ..)
      · rcases ih hin with hold | ⟨b, hb, hpb, rfl⟩
        · exact .inl (List.mem_cons_of_mem _ hold)
        · exact .inr ⟨b, List.mem_cons_of_mem _ hb, hpb, rfl⟩

variable {k : κ}

/-- With distinct keys, a write at key `k` leaves every other record
alone and replaces the record that carries `k`. -/
theorem mem_updateFirst_key [DecidableEq κ] {key : α → κ} {l : List α} (hnd : (l.map key).Nodup)
    (hx : x ∈ updateFirst (fun a => key a == k) f l) :
    (x ∈ l ∧ key x ≠ k) ∨ ∃ a ∈ l, key a = k ∧ x = f a := by
  induction l with
  | nil => cases hx
  | cons a l ih =>
    rw [List.map_cons, List.nodup_cons] at hnd
    by_cases hk : key a = k
    · have hcons : x ∈ f a :: l := by simpa [updateFirst, hk] using hx
      rcases List.mem_cons.1 hcons with rfl | hin
      · exact .inr ⟨a, List.mem_cons_self .., hk, rfl⟩
      · refine .inl ⟨List.mem_cons_of_mem _ hin, ?_⟩
        intro hxk
        apply hnd.1
        rw [hk, ← hxk]
        exact List.mem_map_of_mem hin
    · have hcons : x ∈ a :: updateFirst (fun a => key a == k) f l := by
        simpa [updateFirst, hk] using hx
      rcases List.mem_cons.1 hcons with rfl | hin
      · exact .inl ⟨List.mem_cons_self .., hk⟩
      · rcases ih hnd.2 hin with ⟨hold, hne⟩ | ⟨b, hb, hbk, rfl⟩
        · exact .inl ⟨List.mem_cons_of_mem _ hold, hne⟩
        · exact .inr ⟨b, List.mem_cons_of_mem _ hb, hbk, rfl⟩

theorem find?_key_eq_some [DecidableEq κ] {key : α → κ} {l : List α} (hnd : (l.map key).Nodup) :
    l.find? (fun a => key a == k) = some a ↔ a ∈ l ∧ key a = k := by
  constructor
  · intro h
    exact ⟨List.mem_of_find?_eq_some h, by simpa using List.find?_some h⟩
  · intro h
    cases hfind : l.find? fun a => key a == k with
    | none =>
      have := List.find?_eq_none.1 hfind a h.1
      simp [h.2] at this
    | some b =>
      have hb : key b = k := by simpa using List.find?_some hfind
      rw [List.inj_on_of_nodup_map hnd (List.mem_of_find?_eq_some hfind) h.1 (hb.trans h.2.symm)]

theorem find?_updateFirst_key [DecidableEq κ] {key : α → κ} {j : κ} {l : List α} {b : α}
    (hb : l.find? (fun x => key x == k) = some b) (ha : key a = k) :
    (updateFirst (fun x => key x == k) (fun _ => a) l).find? (fun x => key x == j)
    = if j = k then some a else l.find? fun x => key x == j := by
  induction l with
  | nil => cases hb
  | cons x l ih =>
    unfold updateFirst
    by_cases hx : key x = k
    · by_cases hj : j = k
      · simp [hx, hj, ha]
      · have hk : ¬ k = j := fun h => hj h.symm
        simp [hx, hj, ha, hk]
    · have hrest : l.find? (fun x => key x == k) = some b := by
        simpa [hx] using hb
      by_cases hxj : key x = j
      · have hj : ¬ j = k := fun h => hx (hxj.trans h)
        simp [hxj, hj]
      · simpa [hx, hxj] using ih hrest

-- === consecutive numbers

/-- The keys of `l` are the consecutive numbers from `base`. -/
def Consecutive (key : α → ℕ) (base : ℕ) (l : List α) : Prop :=
  l.map key = List.range' base l.length

namespace Consecutive

variable {key : α → ℕ} {base : ℕ} {l : List α}

theorem nodup (h : Consecutive key base l) : (l.map key).Nodup := by
  rw [Consecutive] at h
  rw [h]
  exact List.nodup_range'

theorem key_mem_iff (h : Consecutive key base l) {n : ℕ} :
    (∃ a ∈ l, key a = n) ↔ base ≤ n ∧ n < base + l.length := by
  rw [← List.mem_map, h, List.mem_range'_1]

theorem bounds (h : Consecutive key base l) (ha : a ∈ l) : base ≤ key a ∧ key a < base + l.length :=
  h.key_mem_iff.1 ⟨a, ha, rfl⟩

theorem eq_of_key_eq (h : Consecutive key base l) {b : α} (ha : a ∈ l) (hb : b ∈ l)
    (hab : key a = key b) : a = b :=
  List.inj_on_of_nodup_map h.nodup ha hb hab

/-- A window cut to an interval inside it. -/
private theorem filter_range'_between {base len lo hi : ℕ} (hlo : base ≤ lo)
    (hmid : lo ≤ hi) (hhi : hi ≤ base + len) :
    (List.range' base len).filter (fun n => lo ≤ n && n < hi) = List.range' lo (hi - lo) := by
  obtain ⟨a, rfl⟩ := Nat.exists_eq_add_of_le hlo
  obtain ⟨b, rfl⟩ := Nat.exists_eq_add_of_le hmid
  obtain ⟨c, hc⟩ := Nat.exists_eq_add_of_le hhi
  obtain rfl : len = a + (b + c) := by omega
  have hsplit : List.range' base (a + (b + c)) = List.range' base a ++ (List.range' (base + a) b
        ++ List.range' (base + a + b) c) := by
    rw [← List.range'_append_1, ← List.range'_append_1]
  rw [hsplit, List.filter_append, List.filter_append,
    List.filter_eq_nil_iff.2, List.filter_eq_self.2, List.filter_eq_nil_iff.2]
  · simp
  · intro n hn
    rw [List.mem_range'_1] at hn
    simp only [Bool.and_eq_true, decide_eq_true_eq, not_and]
    omega
  · intro n hn
    rw [List.mem_range'_1] at hn
    simp only [Bool.and_eq_true, decide_eq_true_eq]
    omega
  · intro n hn
    rw [List.mem_range'_1] at hn
    simp only [Bool.and_eq_true, decide_eq_true_eq, not_and]
    omega

theorem length_filter_between (h : Consecutive key base l) {lo hi : ℕ}
    (hlo : base ≤ lo) (hmid : lo ≤ hi) (hhi : hi ≤ base + l.length) :
    (l.filter fun a => lo ≤ key a && key a < hi).length = hi - lo := by
  have hmap : (l.filter fun a => lo ≤ key a && key a < hi).map key
      = (l.map key).filter fun n => lo ≤ n && n < hi := by
    rw [List.filter_map]
    rfl
  have hlen := congrArg List.length hmap
  rw [List.length_map, h, filter_range'_between hlo hmid hhi, List.length_range'] at hlen
  exact hlen

theorem append (h : Consecutive key base l) (ha : key a = base + l.length) :
    Consecutive key base (l ++ [a]) := by
  rw [Consecutive] at h ⊢
  rw [List.map_append, h, List.length_append, List.length_singleton, List.range'_concat]
  simp [ha]

theorem tail (h : Consecutive key base (a :: l)) : Consecutive key (base + 1) l ∧ key a = base := by
  rw [Consecutive, List.map_cons, List.length_cons, List.range'_succ] at h
  injection h with hhead htail
  exact ⟨htail, hhead⟩

theorem updateFirst (h : Consecutive key base l) {p : α → Bool} {f : α → α}
    (hf : ∀ a, key (f a) = key a) : Consecutive key base (updateFirst p f l) := by
  rw [Consecutive, map_updateFirst fun a _ => hf a, length_updateFirst]
  exact h

theorem map (h : Consecutive key base l) {f : α → α}
    (hf : ∀ a, key (f a) = key a) : Consecutive key base (l.map f) := by
  rw [Consecutive, List.map_map, List.length_map, ← h]
  exact List.map_congr_left fun a _ => hf a

end Consecutive

end OperatorRuntime.Lib
