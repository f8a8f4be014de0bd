import Mathlib.Logic.Function.Basic

set_option autoImplicit false

namespace Foundation.Cells

variable {α : Type}

/-- Overlapping copy of `count` cells from `src` on to `dst` on: every cell is read before
any is written. -/
def memmove (cells : Nat → α) (dst src count : Nat) : Nat → α := fun index =>
  if dst ≤ index ∧ index < dst + count then cells (src + (index - dst)) else cells index

theorem memmove_inside (cells : Nat → α) (dst src count index : Nat)
    (lower : dst ≤ index) (upper : index < dst + count) :
    memmove cells dst src count index = cells (src + (index - dst)) := by
  simp only [memmove, lower, upper, and_self, ↓reduceIte]

theorem memmove_outside (cells : Nat → α) (dst src count index : Nat)
    (outside : index < dst ∨ dst + count ≤ index) :
    memmove cells dst src count index = cells index := by
  have absent : ¬ (dst ≤ index ∧ index < dst + count) := by omega
  simp only [memmove, absent, ↓reduceIte]

/-- Closing the gap at `hole` pulls every later cell of the first `count` forward. -/
theorem memmove_pull (cells : Nat → α) (hole count index : Nat) (inside : hole < count)
    (active : index < count - 1) :
    memmove cells hole (hole + 1) (count - hole - 1) index =
      if index < hole then cells index else cells (index + 1) := by
  by_cases before : index < hole
  · rw [memmove_outside _ _ _ _ _ (Or.inl before), if_pos before]
  · rw [memmove_inside _ _ _ _ _ (by omega) (by omega), if_neg before]
    congr 1
    omega

/-- Opening a gap at `hole` pushes every later cell of the first `count` backwards. -/
theorem memmove_push (cells : Nat → α) (hole count index : Nat) (inside : hole ≤ count)
    (other : index ≠ hole) (active : index < count + 1) :
    memmove cells (hole + 1) hole (count - hole) index =
      if index < hole then cells index else cells (index - 1) := by
  by_cases before : index < hole
  · rw [memmove_outside _ _ _ _ _ (Or.inl (by omega)), if_pos before]
  · rw [memmove_inside _ _ _ _ _ (by omega) (by omega), if_neg before]
    congr 1
    omega

end Foundation.Cells
