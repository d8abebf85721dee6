/-
Collections whose members are pairwise unrelated by a symmetric conflict:
held locks, reserved ranges, fences. Such a collection stays conflict
free when members leave it, and when members enter that conflict with
nothing inside.
-/
import Mathlib.Data.List.Basic

namespace OperatorRuntime.Lib

universe u

variable {α : Type u} {R : α → α → Prop}

/-- No two members conflict. -/
def Apart (R : α → α → Prop) (l : List α) : Prop :=
  ∀ a ∈ l, ∀ b ∈ l, ¬ R a b

theorem Apart.nil : Apart R [] :=
  fun _ ha => nomatch ha

theorem Apart.of_subset {l l' : List α} (h : Apart R l) (hsub : l' ⊆ l) : Apart R l' :=
  fun a ha b hb => h a (hsub ha) b (hsub hb)

/-- New members, described by `N`, that conflict neither with each other
nor with the old ones. -/
theorem Apart.extend {l l' : List α} (h : Apart R l)
    (hsymm : ∀ {a b : α}, R a b → R b a) {N : α → Prop} (hmem : ∀ a ∈ l', a ∈ l ∨ N a)
    (hnew : ∀ a b, N a → N b → ¬ R a b) (hold : ∀ a ∈ l, ∀ b, N b → ¬ R a b) : Apart R l' := by
  intro a ha b hb hab
  rcases hmem a ha with ha | ha
  · rcases hmem b hb with hb | hb
    · exact h a ha b hb hab
    · exact hold a ha b hb hab
  · rcases hmem b hb with hb | hb
    · exact hold b hb a ha (hsymm hab)
    · exact hnew a b ha hb hab

end OperatorRuntime.Lib
