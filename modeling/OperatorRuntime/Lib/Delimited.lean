/-
Texts that can be read back: an encoding whose end can be found. A run
of characters from a class ends at the first character outside it
(`append_class_inj`), and a list of encodings between separators ends at
the closing mark (`intercalate_inj`), whatever follows.
-/
import Mathlib.Data.List.Basic

namespace OperatorRuntime.Lib

universe u v

variable {α : Type u} {β : Type v}

/-- The text is empty or starts with one of the marks. -/
def StartsIn (marks : β → Prop) (r : List β) : Prop :=
  ∀ c ∈ r.head?, marks c

theorem append_class_inj {inside : β → Prop} {a b r s : List β}
    (ha : ∀ c ∈ a, inside c) (hb : ∀ c ∈ b, inside c) (hr : StartsIn (fun c => ¬ inside c) r)
    (hs : StartsIn (fun c => ¬ inside c) s) (h : a ++ r = b ++ s) : a = b ∧ r = s := by
  induction a generalizing b with
  | nil =>
    cases b with
    | nil => exact ⟨rfl, h⟩
    | cons y b =>
      rw [List.nil_append] at h
      exact absurd (hb y (List.mem_cons_self ..)) (hr y (by rw [h]; rfl))
  | cons x a ih =>
    cases b with
    | nil =>
      rw [List.nil_append] at h
      exact absurd (ha x (List.mem_cons_self ..)) (hs x (by rw [← h]; rfl))
    | cons y b =>
      obtain ⟨rfl, htail⟩ := List.cons.inj h
      obtain ⟨rfl, rfl⟩ := ih (fun c hc => ha c (List.mem_cons_of_mem _ hc))
        (fun c hc => hb c (List.mem_cons_of_mem _ hc)) htail
      exact ⟨rfl, rfl⟩

/-- Lists of encodings between separators, up to a closing mark. An
element can be read back before a separator and before the mark, and
none starts with the mark. -/
theorem intercalate_inj {enc : α → List β} {sep close : β} (hne : sep ≠ close)
    {G : α → Prop} {as bs : List α}
    (hread : ∀ a ∈ as, ∀ b, G b → ∀ r s, StartsIn (fun c => c = sep ∨ c = close) r →
      StartsIn (fun c => c = sep ∨ c = close) s → enc a ++ r = enc b ++ s → a = b ∧ r = s)
    (hstart : ∀ a, G a → ∀ r s, enc a ++ r ≠ close :: s)
    (has : ∀ a ∈ as, G a) (hbs : ∀ b ∈ bs, G b) {r s : List β}
    (h : [sep].intercalate (as.map enc) ++ close :: r
      = [sep].intercalate (bs.map enc) ++ close :: s) : as = bs ∧ r = s := by
  have hmark : ∀ (c : β) (t : List β), c = sep ∨ c = close →
      StartsIn (fun c => c = sep ∨ c = close) (c :: t) := by
    intro c t hc x hx
    rw [List.head?_cons, Option.mem_some_iff] at hx
    rwa [← hx]
  induction as generalizing bs with
  | nil =>
    cases bs with
    | nil => exact ⟨rfl, (List.cons.inj h).2⟩
    | cons b bs =>
      exfalso
      have hb := hbs b (List.mem_cons_self ..)
      cases bs with
      | nil =>
        simp only [List.map_cons, List.map_nil, List.intercalate_singleton]
          at h
        exact hstart b hb _ _ h.symm
      | cons b' bs =>
        simp only [List.map_cons, List.intercalate_cons_cons, List.append_assoc] at h
        exact hstart b hb _ _ h.symm
  | cons a as ih =>
    have ha := has a (List.mem_cons_self ..)
    have hread' : ∀ x ∈ as, ∀ b, G b → ∀ r s, StartsIn (fun c => c = sep ∨ c = close) r →
        StartsIn (fun c => c = sep ∨ c = close) s →
        enc x ++ r = enc b ++ s → x = b ∧ r = s :=
      fun x hx => hread x (List.mem_cons_of_mem _ hx)
    have has' : ∀ x ∈ as, G x := fun x hx => has x (List.mem_cons_of_mem _ hx)
    cases bs with
    | nil =>
      exfalso
      cases as with
      | nil =>
        simp only [List.map_cons, List.map_nil, List.intercalate_singleton]
          at h
        exact hstart a ha _ _ h
      | cons a' as =>
        simp only [List.map_cons, List.intercalate_cons_cons, List.append_assoc] at h
        exact hstart a ha _ _ h
    | cons b bs =>
      have hb := hbs b (List.mem_cons_self ..)
      have hbs' : ∀ x ∈ bs, G x :=
        fun x hx => hbs x (List.mem_cons_of_mem _ hx)
      have hone := hread a (List.mem_cons_self ..) b hb
      cases as with
      | nil =>
        cases bs with
        | nil =>
          simp only [List.map_cons, List.map_nil, List.intercalate_singleton] at h
          obtain ⟨rfl, hrest⟩ := hone _ _ (hmark _ _ (.inr rfl))
            (hmark _ _ (.inr rfl)) h
          exact ⟨rfl, (List.cons.inj hrest).2⟩
        | cons b' bs =>
          simp only [List.map_cons, List.map_nil,
            List.intercalate_singleton, List.intercalate_cons_cons,
            List.append_assoc, List.singleton_append] at h
          obtain ⟨-, hrest⟩ := hone _ _ (hmark _ _ (.inr rfl))
            (hmark _ _ (.inl rfl)) h
          exact absurd (List.cons.inj hrest).1.symm hne
      | cons a' as =>
        cases bs with
        | nil =>
          simp only [List.map_cons, List.map_nil,
            List.intercalate_singleton, List.intercalate_cons_cons,
            List.append_assoc, List.singleton_append] at h
          obtain ⟨-, hrest⟩ := hone _ _ (hmark _ _ (.inl rfl))
            (hmark _ _ (.inr rfl)) h
          exact absurd (List.cons.inj hrest).1 hne
        | cons b' bs =>
          simp only [List.map_cons, List.intercalate_cons_cons,
            List.append_assoc, List.singleton_append] at h
          obtain ⟨rfl, hrest⟩ := hone _ _ (hmark _ _ (.inl rfl))
            (hmark _ _ (.inl rfl)) h
          obtain ⟨hlist, hend⟩ := ih hread' has' hbs'
            (List.cons.inj hrest).2
          exact ⟨by rw [hlist], hend⟩

end OperatorRuntime.Lib
