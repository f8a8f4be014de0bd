import Mathlib.Data.List.Basic

set_option autoImplicit false

namespace Foundation.ByteDisk

variable {α : Type}

/-- The `count` cells from `offset` on. -/
def readAt (disk : Int → α) (offset : Int) (count : Nat) : List α :=
  (List.range count).map fun index : Nat => disk (offset + index)

/-- The cells from `offset` on are replaced. -/
def writeAt (disk : Int → α) (offset : Int) (cells : List α) : Int → α := fun place =>
  if offset ≤ place then (cells[(place - offset).toNat]?).getD (disk place) else disk place

@[simp] theorem readAt_length (disk : Int → α) (offset : Int) (count : Nat) :
    (readAt disk offset count).length = count := by
  simp [readAt]

theorem writeAt_outside (disk : Int → α) {offset place : Int} {cells : List α}
    (outside : place < offset ∨ offset + cells.length ≤ place) :
    writeAt disk offset cells place = disk place := by
  unfold writeAt
  split
  · rw [List.getElem?_eq_none (by omega), Option.getD_none]
  · rfl

theorem readAt_writeAt (disk : Int → α) (offset : Int) (cells : List α) :
    readAt (writeAt disk offset cells) offset cells.length = cells := by
  apply List.ext_getElem
  · simp
  · intro index inside bound
    have position : (offset + (index : Int) - offset).toNat = index := by omega
    simp only [readAt, writeAt, List.getElem_map, List.getElem_range]
    rw [if_pos (by omega), position, List.getElem?_eq_getElem bound, Option.getD_some]

end Foundation.ByteDisk
