/-
Looking a key up in a list of records with pairwise distinct keys. What
`find?` answers is then a matter of membership alone, so it does not
depend on the order of the list, and a change of the list is described
by the one key it concerns (`find?_key_append`, `find?_key_erase`,
`find?_key_set`, `find?_key_filter_ne`).
-/
import Mathlib.Data.List.Sort
import OperatorRuntime.Lib.Keyed

namespace OperatorRuntime.Lib

universe u v

variable {α : Type u} {κ : Type v} [DecidableEq κ] {key : α → κ} {k : κ} {l l' : List α} {a : α}

theorem find?_key_eq_none : l.find? (fun a => key a == k) = none ↔ ∀ a ∈ l, key a ≠ k := by
  simp

theorem find?_key_congr (hnd : (l.map key).Nodup) (hnd' : (l'.map key).Nodup)
    (h : ∀ a, key a = k → (a ∈ l' ↔ a ∈ l)) :
    l'.find? (fun a => key a == k) = l.find? fun a => key a == k := by
  cases hf : l.find? fun a => key a == k with
  | none =>
    rw [find?_key_eq_none] at hf ⊢
    intro a ha hk
    exact hf a ((h a hk).1 ha) hk
  | some a =>
    rw [find?_key_eq_some hnd] at hf
    rw [find?_key_eq_some hnd']
    exact ⟨(h a hf.2).2 hf.1, hf.2⟩

theorem find?_key_perm (hnd : (l.map key).Nodup) (h : l'.Perm l) :
    l'.find? (fun a => key a == k) = l.find? fun a => key a == k :=
  find?_key_congr hnd ((h.map key).nodup_iff.2 hnd) fun _ _ => h.mem_iff

variable {i : ℕ}

theorem find?_key_of_getElem? (hnd : (l.map key).Nodup) (h : l[i]? = some a) :
    l.find? (fun b => key b == key a) = some a :=
  (find?_key_eq_some hnd).2 ⟨List.mem_of_getElem? h, rfl⟩

variable {b : α}

omit [DecidableEq κ] in
theorem getElem?_key_inj (hnd : (l.map key).Nodup) {j : ℕ} (ha : l[i]? = some a)
    (hb : l[j]? = some b) (hab : key a = key b) : i = j := by
  have hi : (l.map key)[i]? = some (key a) := by rw [List.getElem?_map, ha]; rfl
  have hj : (l.map key)[j]? = some (key a) := by
    rw [List.getElem?_map, hb, hab]; rfl
  have hlt : i < (l.map key).length := by
    by_contra hge
    rw [List.getElem?_eq_none (by omega)] at hi
    cases hi
  exact (List.getElem?_inj hlt hnd).1 (hi.trans hj.symm)

-- ===== append

omit [DecidableEq κ] in
theorem nodup_key_append (hnd : (l.map key).Nodup)
    (h : ∀ b ∈ l, key b ≠ key a) : ((l ++ [a]).map key).Nodup := by
  rw [List.map_append, List.nodup_append]
  refine ⟨hnd, List.nodup_singleton _, ?_⟩
  intro x hx y hy
  obtain ⟨b, hb, rfl⟩ := List.mem_map.1 hx
  rw [List.map_singleton, List.mem_singleton] at hy
  rw [hy]
  exact h b hb

theorem find?_key_append (h : ∀ b ∈ l, key b ≠ key a) : (l ++ [a]).find? (fun b => key b == k)
    = if k = key a then some a else l.find? fun b => key b == k := by
  rw [List.find?_append]
  split
  · next hk =>
    subst hk
    rw [find?_key_eq_none.2 h]
    simp
  · next hk =>
    have hne : ¬ key a = k := fun h => hk h.symm
    simp [hne]

-- ===== erase

omit [DecidableEq κ] in
theorem nodup_key_eraseIdx (hnd : (l.map key).Nodup) (i : ℕ) : ((l.eraseIdx i).map key).Nodup :=
  hnd.sublist ((List.eraseIdx_sublist l i).map key)

theorem find?_key_erase (hnd : (l.map key).Nodup) (h : l[i]? = some a) :
    (l.eraseIdx i).find? (fun b => key b == k)
    = if k = key a then none else l.find? fun b => key b == k := by
  split
  · next hk =>
    subst hk
    rw [find?_key_eq_none]
    intro b hb hkey
    obtain ⟨j, hj, hbj⟩ := List.mem_eraseIdx_iff_getElem?.1 hb
    exact hj (getElem?_key_inj hnd hbj h hkey)
  · next hk =>
    refine find?_key_congr hnd (nodup_key_eraseIdx hnd i) ?_
    intro b hb
    constructor
    · exact fun hin => List.mem_of_mem_eraseIdx hin
    · intro hin
      obtain ⟨j, hj⟩ := List.mem_iff_getElem?.1 hin
      refine List.mem_eraseIdx_iff_getElem?.2 ⟨j, ?_, hj⟩
      intro hji
      subst hji
      rw [hj, Option.some.injEq] at h
      exact hk (by rw [← h, hb])

-- ===== set

omit [DecidableEq κ] in
theorem map_key_set (h : l[i]? = some a) (hab : key b = key a) :
    (l.set i b).map key = l.map key := by
  rw [List.map_set, hab]
  apply List.ext_getElem?
  intro j
  rw [List.getElem?_set]
  split
  · next hij =>
    subst hij
    rw [List.getElem?_map, h]
    have hlt : i < l.length := by
      by_contra hge
      rw [List.getElem?_eq_none (by omega)] at h
      cases h
    simp [hlt]
  · rfl

theorem find?_key_set (hnd : (l.map key).Nodup) (h : l[i]? = some a) (hab : key b = key a) :
    (l.set i b).find? (fun c => key c == k)
    = if k = key b then some b else l.find? fun c => key c == k := by
  have hnd' : ((l.set i b).map key).Nodup := by rwa [map_key_set h hab]
  split
  · next hk =>
    subst hk
    refine (find?_key_eq_some hnd').2 ⟨?_, rfl⟩
    have hlt : i < l.length := by
      by_contra hge
      rw [List.getElem?_eq_none (by omega)] at h
      cases h
    exact List.mem_of_getElem? (List.getElem?_set_self hlt)
  · next hk =>
    refine find?_key_congr hnd hnd' ?_
    intro c hc
    constructor
    · intro hin
      obtain ⟨j, hj⟩ := List.mem_iff_getElem?.1 hin
      rcases getElem?_set_cases hj with ⟨-, rfl⟩ | ⟨-, hold⟩
      · exact absurd hc.symm hk
      · exact List.mem_of_getElem? hold
    · intro hin
      obtain ⟨j, hj⟩ := List.mem_iff_getElem?.1 hin
      refine List.mem_of_getElem? (i := j) ?_
      rw [List.getElem?_set_ne, hj]
      intro hij
      subst hij
      rw [hj, Option.some.injEq] at h
      exact hk (by rw [← hc, h, hab])

-- ===== filter

theorem find?_key_filter_ne {j : κ} : (l.filter fun b => key b != j).find? (fun b => key b == k)
    = if k = j then none else l.find? fun b => key b == k := by
  rw [List.find?_filter]
  split
  · next hk =>
    subst hk
    simp
  · next hk =>
    congr 1
    funext b
    by_cases hb : key b = k
    · simp [hb, hk]
    · simp [hb]

end OperatorRuntime.Lib
