/-
Lists that agree item by item up to a relation, and what a write to the
first match leaves: searches answer related items, and every item but the
match is still there.
-/
import Mathlib.Data.List.Forall2
import OperatorRuntime.Lib.Keyed

namespace OperatorRuntime.Lib

universe u

variable {α : Type u} {R : α → α → Prop} {l l' : List α} {p : α → Bool}

-- ===== pointwise

variable {a : α}

theorem find?_forall₂ (hp : ∀ a b, R a b → p a = p b) (h : List.Forall₂ R l l')
    (ha : l.find? p = some a) : ∃ b, l'.find? p = some b ∧ R a b := by
  induction h with
  | nil => cases ha
  | @cons x y l l' hxy _ ih =>
    rw [List.find?_cons] at ha ⊢
    rw [← hp x y hxy]
    cases hx : p x with
    | true =>
      rw [hx] at ha
      obtain rfl : x = a := by simpa using ha
      exact ⟨y, rfl, hxy⟩
    | false =>
      rw [hx] at ha
      exact ih ha

theorem exists_right_of_forall₂ (h : List.Forall₂ R l l') (ha : a ∈ l) : ∃ b ∈ l', R a b := by
  induction h with
  | nil => cases ha
  | cons hab _ ih =>
    rcases List.mem_cons.1 ha with rfl | ha
    · exact ⟨_, List.mem_cons_self .., hab⟩
    · obtain ⟨b, hb, h⟩ := ih ha
      exact ⟨b, List.mem_cons_of_mem _ hb, h⟩

theorem exists_left_of_forall₂ (h : List.Forall₂ R l l') {b : α} (hb : b ∈ l') : ∃ a ∈ l, R a b :=
  exists_right_of_forall₂ (List.Forall₂.flip (R := flip R) h) hb

theorem forall₂_comp {S T : α → α → Prop} {l'' : List α}
    (hcomp : ∀ a b c, R a b → S b c → T a c) (h : List.Forall₂ R l l')
    (h' : List.Forall₂ S l' l'') : List.Forall₂ T l l'' := by
  induction h generalizing l'' with
  | nil =>
    cases h'
    exact .nil
  | cons hab _ ih =>
    cases h' with
    | cons hbc hrest => exact .cons (hcomp _ _ _ hab hbc) (ih hrest)

variable {f : α → α}

theorem forall₂_map_self (h : ∀ a ∈ l, R a (f a)) : List.Forall₂ R l (l.map f) := by
  rw [List.forall₂_map_right_iff, List.forall₂_same]
  exact h

-- ===== first match

theorem forall₂_updateFirst (hrefl : ∀ b ∈ l, R b b) (ha : l.find? p = some a) (h : R a (f a)) :
    List.Forall₂ R l (updateFirst p f l) := by
  induction l with
  | nil => cases ha
  | cons b l ih =>
    rw [List.find?_cons] at ha
    rw [updateFirst]
    have hrest : ∀ c ∈ l, R c c := fun c hc => hrefl c (List.mem_cons_of_mem _ hc)
    cases hb : p b with
    | true =>
      rw [hb] at ha
      obtain rfl : b = a := by simpa using ha
      exact List.Forall₂.cons h (List.forall₂_same.2 hrest)
    | false =>
      rw [hb] at ha
      exact List.Forall₂.cons (hrefl b (List.mem_cons_self ..)) (ih hrest ha)

theorem mem_updateFirst_find {x : α} (ha : l.find? p = some a) (hx : x ∈ updateFirst p f l) :
    x ∈ l ∨ x = f a := by
  induction l with
  | nil => cases ha
  | cons b l ih =>
    rw [List.find?_cons] at ha
    rw [updateFirst] at hx
    cases hb : p b with
    | true =>
      rw [hb] at ha hx
      obtain rfl : b = a := by simpa using ha
      rcases List.mem_cons.1 hx with rfl | hx
      · exact .inr rfl
      · exact .inl (List.mem_cons_of_mem _ hx)
    | false =>
      rw [hb] at ha hx
      rcases List.mem_cons.1 hx with rfl | hx
      · exact .inl (List.mem_cons_self ..)
      · rcases ih ha hx with hin | heq
        · exact .inl (List.mem_cons_of_mem _ hin)
        · exact .inr heq

theorem mem_updateFirst_of_ne {x : α} (ha : l.find? p = some a) (hx : x ∈ l) (hne : x ≠ a) :
    x ∈ updateFirst p f l := by
  induction l with
  | nil => cases hx
  | cons b l ih =>
    rw [List.find?_cons] at ha
    rw [updateFirst]
    cases hb : p b with
    | true =>
      rw [hb] at ha
      obtain rfl : b = a := by simpa using ha
      rcases List.mem_cons.1 hx with rfl | hx
      · exact absurd rfl hne
      · exact List.mem_cons_of_mem _ hx
    | false =>
      rw [hb] at ha
      rcases List.mem_cons.1 hx with rfl | hx
      · exact List.mem_cons_self ..
      · exact List.mem_cons_of_mem _ (ih ha hx)

theorem updateFirst_split {b : α} (ha : l.find? p = some a) :
    ∃ before after, l = before ++ a :: after
    ∧ updateFirst p (fun _ => b) l = before ++ b :: after := by
  induction l with
  | nil => cases ha
  | cons c l ih =>
    rw [List.find?_cons] at ha
    rw [updateFirst]
    cases hc : p c with
    | true =>
      rw [hc] at ha
      obtain rfl : c = a := by simpa using ha
      exact ⟨[], l, rfl, rfl⟩
    | false =>
      rw [hc] at ha
      obtain ⟨before, after, hl, hwritten⟩ := ih ha
      refine ⟨c :: before, after, by rw [hl, List.cons_append], ?_⟩
      rw [if_neg (by simp), hwritten, List.cons_append]

theorem updateFirst_eq_map {κ : Type u} [DecidableEq κ] {key : α → κ} {k : κ}
    (hnd : (l.map key).Nodup) :
    updateFirst (fun a => key a == k) f l = l.map fun a => if key a = k then f a else a := by
  induction l with
  | nil => rfl
  | cons a l ih =>
    rw [List.map_cons, List.nodup_cons] at hnd
    rw [updateFirst, List.map_cons]
    by_cases ha : key a = k
    · have hrest : l.map (fun a => if key a = k then f a else a) = l := by
        conv_rhs => rw [← List.map_id l]
        refine List.map_congr_left ?_
        intro b hb
        refine if_neg fun hbk => hnd.1 ?_
        rw [ha, ← hbk]
        exact List.mem_map_of_mem hb
      simp [ha, hrest]
    · simp [ha, ih hnd.2]

end OperatorRuntime.Lib
