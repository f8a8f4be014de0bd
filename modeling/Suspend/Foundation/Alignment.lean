import Mathlib.Data.Nat.Log
import Mathlib.Tactic.Linarith

set_option autoImplicit false

namespace Foundation.Alignment

/-- Masking with the complement of `2 ^ shift - 1` in `width` bits rounds down. -/
theorem and_mask {width shift : Nat} (number : Nat) (narrow : shift ≤ width) :
    number &&& (2 ^ width - 2 ^ shift) = number % 2 ^ width / 2 ^ shift * 2 ^ shift := by
  have inside : 2 ^ shift - 1 < 2 ^ width :=
    lt_of_lt_of_le (Nat.sub_lt (Nat.two_pow_pos _) one_pos) (Nat.pow_le_pow_right two_pos narrow)
  have complement : 2 ^ width - 2 ^ shift = 2 ^ width - (2 ^ shift - 1 + 1) := by
    rw [Nat.sub_add_cancel (Nat.two_pow_pos _)]
  apply Nat.eq_of_testBit_eq
  intro index
  rw [Nat.testBit_and, complement, Nat.testBit_two_pow_sub_succ inside,
    Nat.testBit_two_pow_sub_one, Nat.testBit_mul_two_pow, Nat.testBit_div_two_pow,
    Nat.testBit_mod_two_pow]
  by_cases low : index < shift
  · have above : ¬ shift ≤ index := by omega
    simp [low, above]
  · have above : shift ≤ index := by omega
    rw [Nat.sub_add_cancel above]
    by_cases wide : index < width <;> simp [low, above, wide]

/-- A number rounded up to a multiple of `step`. -/
def alignUp (step number : Nat) : Nat := (number + step - 1) / step * step

variable {step number : Nat}

theorem dvd_alignUp : step ∣ alignUp step number := Nat.dvd_mul_left _ _

theorem le_alignUp (positive : 0 < step) : number ≤ alignUp step number := by
  have split := Nat.div_add_mod (number + step - 1) step
  have below := Nat.mod_lt (number + step - 1) positive
  rw [mul_comm] at split
  unfold alignUp
  omega

theorem alignUp_le {limit : Nat} (positive : 0 < step) (whole : step ∣ limit)
    (below : number ≤ limit) : alignUp step number ≤ limit := by
  obtain ⟨count, rfl⟩ := whole
  rw [alignUp, mul_comm step count]
  apply Nat.mul_le_mul_right
  apply Nat.lt_succ_iff.mp
  rw [Nat.div_lt_iff_lt_mul positive, Nat.succ_mul, mul_comm count]
  omega

theorem add_step_le {limit : Nat} (whole : step ∣ number) (whole' : step ∣ limit)
    (below : number < limit) : number + step ≤ limit := by
  obtain ⟨count, rfl⟩ := whole
  obtain ⟨more, rfl⟩ := whole'
  have next : count + 1 ≤ more := Nat.lt_of_mul_lt_mul_left below
  calc step * count + step = step * (count + 1) := (Nat.mul_succ step count).symm
    _ ≤ step * more := Nat.mul_le_mul_left step next

/-- The least power of two that is not below a number. -/
def naturalSize (number : Nat) : Nat := 2 ^ Nat.clog 2 number

/-- A power of two is the least one for what lies above its half. -/
theorem naturalSize_eq {shift : Nat} (fits : number ≤ 2 ^ (shift + 1))
    (above : 2 ^ shift < number) : naturalSize number = 2 ^ (shift + 1) := by
  have upper : Nat.clog 2 number ≤ shift + 1 := Nat.clog_le_of_le_pow fits
  have lower : shift < Nat.clog 2 number := (Nat.lt_clog_iff_pow_lt (by decide)).mpr above
  rw [naturalSize, show Nat.clog 2 number = shift + 1 by omega]

end Foundation.Alignment
