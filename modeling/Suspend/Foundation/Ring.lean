import Mathlib.Data.List.Basic
import Mathlib.Logic.Function.Basic

set_option autoImplicit false

namespace Suspend.Foundation.Ring

variable {α : Type}

/-- The entries of `history` from number `taken` on are still in their cells. -/
def Holds (size : Nat) (cells : Nat → α) (history : List α) (taken : Nat) : Prop :=
  ∀ number entry, taken ≤ number → history[number]? = some entry → cells (number % size) = entry

/-- Numbers that are less than one round apart have different cells. -/
theorem mod_eq_iff {size low high : Nat} (ordered : low ≤ high) (near : high < low + size) :
    high % size = low % size ↔ high = low := by
  constructor
  · intro same
    have apart : (high - low) % size = 0 := Nat.sub_mod_eq_zero_of_mod_eq same
    rw [Nat.mod_eq_of_lt (by omega)] at apart
    omega
  · intro same
    rw [same]

variable {size taken : Nat} {cells : Nat → α} {history : List α}

theorem Holds.nil (size : Nat) (cells : Nat → α) : Holds size cells [] 0 := by
  intro number entry _ found
  rw [List.getElem?_nil] at found
  cases found

/-- There is room for another entry while the buffer has not been round. -/
theorem Holds.put (holds : Holds size cells history taken) (entry : α)
    (room : history.length < taken + size) :
    Holds size (Function.update cells (history.length % size) entry) (history ++ [entry])
      taken := by
  intro number found later present
  by_cases last : number < history.length
  · rw [List.getElem?_append_left last] at present
    have apart : number % size ≠ history.length % size := by
      intro same
      have equal := (mod_eq_iff (Nat.le_of_lt last) (by omega)).mp same.symm
      omega
    rw [Function.update_of_ne apart]
    exact holds number found later present
  · have newest : number = history.length := by
      by_contra beyond
      rw [List.getElem?_eq_none (by rw [List.length_append, List.length_singleton]; omega)]
        at present
      cases present
    rw [newest, List.getElem?_append_right (Nat.le_refl _), Nat.sub_self] at present
    cases present
    rw [newest, Function.update_self]

theorem Holds.take (holds : Holds size cells history taken) :
    Holds size cells history (taken + 1) :=
  fun number found later => holds number found (by omega)

theorem Holds.get (holds : Holds size cells history taken) (some : taken < history.length) :
    history[taken]? = Option.some (cells (taken % size)) := by
  rw [holds taken history[taken] (Nat.le_refl _) (List.getElem?_eq_getElem some)]
  exact List.getElem?_eq_getElem some

end Suspend.Foundation.Ring
