/-
Cells with a generation: what one key of a compare-and-swap store stands
for over its whole life. A key starts out free, holds a body under a
generation, and after a deletion keeps the last generation as a fence.
A body may be gone without having been deleted (it expired); such a cell
answers a compare as if it were empty but still counts for the next
generation.

The two results a store rests on: a write that stores a body takes a
generation above every earlier one (`generation_put_some`), and turning
a gone body into its fence cannot be observed by any later write
(`Faded`).
-/
import Mathlib.Data.List.Nodup
import Mathlib.Logic.Function.Basic

namespace OperatorRuntime.Lib

universe u v

variable {β : Type u}

/-- The life of a key. -/
inductive Cell (β : Type u)
  | free
  | fence (generation : ℕ)
  | live (generation : ℕ) (body : β)

namespace Cell

/-- The highest generation the key has had. -/
def generation : Cell β → ℕ
  | .free => 0
  | .fence g => g
  | .live g _ => g

/-- The generation a compare sees. -/
def shows (gone : β → Bool) : Cell β → Option ℕ
  | .live g b => if gone b then none else some g
  | _ => none

/-- What a write turns the cell into. -/
def put (c : Cell β) : Option β → Cell β
  | some b => .live (c.generation + 1) b
  | none =>
    match c with
    | .live g _ => .fence g
    | c => c

@[simp] theorem generation_put_some (c : Cell β) (b : β) :
    (c.put (some b)).generation = c.generation + 1 := rfl

@[simp] theorem generation_put_none (c : Cell β) : (c.put none).generation = c.generation := by
  cases c with
  | free => rfl
  | fence g => rfl
  | live g b => rfl

theorem generation_le_put (c : Cell β) (body : Option β) :
    c.generation ≤ (c.put body).generation := by
  cases body with
  | none => simp
  | some b => simp

end Cell

-- ===== fading

/-- The second cell is the first, or its fence where the body is gone. -/
inductive Faded (gone : β → Bool) : Cell β → Cell β → Prop
  | same (c : Cell β) : Faded gone c c
  | fade (g : ℕ) (b : β) : gone b = true → Faded gone (.live g b) (.fence g)

namespace Faded

variable {gone gone' : β → Bool} {c d : Cell β}

theorem generation_eq (h : Faded gone c d) : c.generation = d.generation := by
  cases h with
  | same => rfl
  | fade g b _ => rfl

theorem shows_eq (h : Faded gone c d) (hlater : ∀ b, gone b = true → gone' b = true) :
    c.shows gone' = d.shows gone' := by
  cases h with
  | same => rfl
  | fade g b hb => simp [Cell.shows, hlater b hb]

theorem put (h : Faded gone c d) (body : Option β) : Faded gone (c.put body) (d.put body) := by
  cases body with
  | some b =>
    rw [Cell.put, Cell.put, h.generation_eq]
    exact Faded.same _
  | none =>
    cases h with
    | same => exact Faded.same _
    | fade g b hb => exact Faded.same _

end Faded

end OperatorRuntime.Lib
