/-
Events counted in windows of one width. Windows follow each other without
overlapping, so an interval of one width meets at most two of them, and holds at
most twice what one window may hold (`length_between_le`).
-/
import Mathlib.Algebra.Order.Monoid.Unbundled.Basic
import Mathlib.Algebra.Order.Group.Defs
import Mathlib.Tactic.Linarith

namespace OperatorRuntime.Lib

universe u v

variable {α : Type u} {K : Type v} [Field K] [LinearOrder K] [IsStrictOrderedRing K]
  {time start : α → K} {width : K} {l : List α} {limit : ℕ}

/-- Each event lies in its window, and of two windows the later one starts after
the end of the earlier. -/
structure InWindows (time start : α → K) (width : K) (l : List α) : Prop where
  starts : ∀ a ∈ l, start a ≤ time a
  ends : ∀ a ∈ l, time a < start a + width
  apart : l.Pairwise fun a b => start a = start b ∨ start a + width ≤ start b

omit [IsStrictOrderedRing K] in
theorem InWindows.filter (h : InWindows time start width l) (p : α → Bool) :
    InWindows time start width (l.filter p) where
  starts a ha := h.starts a ((List.mem_filter.1 ha).1)
  ends a ha := h.ends a ((List.mem_filter.1 ha).1)
  apart := h.apart.filter p

theorem length_filter_add_not (p : α → Bool) (l : List α) :
    (l.filter p).length + (l.filter fun a => !p a).length = l.length := by
  induction l with
  | nil => rfl
  | cons a l ih =>
    cases hp : p a with
    | true =>
      simp only [List.filter_cons, hp, if_true, Bool.not_true, Bool.false_eq_true, if_false,
        List.length_cons]
      omega
    | false =>
      simp only [List.filter_cons, hp, if_true, Bool.not_false, Bool.false_eq_true, if_false,
        List.length_cons]
      omega

omit [Field K] [IsStrictOrderedRing K] in
theorem length_le_of_start_eq (start : α → K) (s : K) (hlimit : (l.filter fun a => start a = s).length ≤ limit)
    (h : ∀ a ∈ l, start a = s) : l.length ≤ limit := by
  rwa [List.filter_eq_self.2 fun a ha => decide_eq_true (h a ha)] at hlimit

/-- Events that all happen within a width of an instant of the first window's
second half lie in that window or the next. -/
theorem length_le_of_within (h : InWindows time start width l)
    (hlimit : ∀ s, (l.filter fun a => start a = s).length ≤ limit) {t : K}
    (hfrom : ∀ a ∈ l, t ≤ time a) (hto : ∀ a ∈ l, time a ≤ t + width) : l.length ≤ 2 * limit := by
  cases l with
  | nil => exact Nat.zero_le _
  | cons a l =>
    -- what is not of the first window
    have hrest : ∀ b ∈ (a :: l).filter (fun b => !decide (start b = start a)),
        start a + width ≤ start b := by
      intro b hb
      obtain ⟨hmem, hne⟩ := List.mem_filter.1 hb
      have hne : start b ≠ start a := by simpa using hne
      rcases List.mem_cons.1 hmem with rfl | hmem
      · exact absurd rfl hne
      · rcases (List.pairwise_cons.1 h.apart).1 b hmem with heq | hle
        · exact absurd heq.symm hne
        · exact hle
    have hfirst := hlimit (start a)
    have hsplit := length_filter_add_not (fun b => decide (start b = start a)) (a :: l)
    have hsecond : ((a :: l).filter fun b => !decide (start b = start a)).length ≤ limit := by
      have hwin := h.filter fun b => !decide (start b = start a)
      cases hcase : (a :: l).filter fun b => !decide (start b = start a) with
      | nil => exact Nat.zero_le _
      | cons b later =>
        rw [hcase] at hwin hrest
        have hb : b ∈ a :: l := by
          have hmem : b ∈ (a :: l).filter fun b => !decide (start b = start a) := by
            rw [hcase]
            exact List.mem_cons_self ..
          exact (List.mem_filter.1 hmem).1
        have hnext := hrest b (List.mem_cons_self ..)
        have hend := h.ends a (List.mem_cons_self ..)
        have ht := hfrom a (List.mem_cons_self ..)
        refine length_le_of_start_eq start (start b) ?_ ?_
        · refine le_trans (List.Sublist.length_le ?_) (hlimit (start b))
          rw [← hcase]
          exact List.Sublist.filter _ List.filter_sublist
        · intro c hc
          rcases List.mem_cons.1 hc with rfl | hmem
          · rfl
          · rcases (List.pairwise_cons.1 hwin.apart).1 c hmem with heq | hle
            · exact heq.symm
            · have hc' : c ∈ a :: l := by
                have hin : c ∈ (a :: l).filter fun b => !decide (start b = start a) := by
                  rw [hcase]
                  exact hc
                exact (List.mem_filter.1 hin).1
              have hstart := h.starts c hc'
              have hlast := hto c hc'
              linarith
    omega

theorem length_between_le (h : InWindows time start width l)
    (hlimit : ∀ s, (l.filter fun a => start a = s).length ≤ limit) (t : K) :
    (l.filter fun a => t ≤ time a ∧ time a ≤ t + width).length ≤ 2 * limit := by
  refine length_le_of_within (t := t) (h.filter _) ?_ ?_ ?_
  · intro s
    exact le_trans (List.Sublist.length_le (List.Sublist.filter _ List.filter_sublist)) (hlimit s)
  · intro a ha
    exact (of_decide_eq_true (List.mem_filter.1 ha).2).1
  · intro a ha
    exact (of_decide_eq_true (List.mem_filter.1 ha).2).2

end OperatorRuntime.Lib
