import Mathlib.Algebra.Order.Ring.Nat
import Mathlib.Data.List.Flatten

set_option autoImplicit false

namespace Suspend.Foundation.Memory

variable {α : Type}

/-- The first `count` slices of `width` cells. -/
def slices (width : Nat) : Nat → List α → List (List α)
  | 0, _ => []
  | count + 1, memory => memory.take width :: slices width count (memory.drop width)

@[simp] theorem slices_zero (width : Nat) (memory : List α) : slices width 0 memory = [] := rfl

@[simp] theorem slices_succ (width count : Nat) (memory : List α) :
    slices width (count + 1) memory =
      memory.take width :: slices width count (memory.drop width) := rfl

@[simp] theorem slices_length (width count : Nat) (memory : List α) :
    (slices width count memory).length = count := by
  induction count generalizing memory with
  | zero => rfl
  | succ count ih => rw [slices_succ, List.length_cons, ih]

theorem slices_getElem? {width count index : Nat} {memory : List α} (inside : index < count) :
    (slices width count memory)[index]? = some ((memory.drop (width * index)).take width) := by
  induction count generalizing index memory with
  | zero => omega
  | succ count ih =>
      rw [slices_succ]
      cases index with
      | zero => rw [Nat.mul_zero, List.drop_zero, List.getElem?_cons_zero]
      | succ index =>
          rw [List.getElem?_cons_succ, ih (by omega), List.drop_drop, Nat.mul_succ, Nat.add_comm]

theorem slices_flatten (width count : Nat) (memory : List α) :
    (slices width count memory).flatten = memory.take (width * count) := by
  induction count generalizing memory with
  | zero => simp
  | succ count ih =>
      rw [slices_succ, List.flatten_cons, ih, Nat.mul_succ, Nat.add_comm (width * count),
        List.take_add]

theorem mem_slices_length {width count : Nat} {memory slice : List α}
    (enough : width * count ≤ memory.length) (member : slice ∈ slices width count memory) :
    slice.length = width := by
  induction count generalizing memory with
  | zero => simp at member
  | succ count ih =>
      rw [Nat.mul_succ] at enough
      rcases List.mem_cons.mp member with rfl | later
      · rw [List.length_take]
        omega
      · exact ih (by rw [List.length_drop]; omega) later

theorem slices_append {width count : Nat} {memory : List α} (rest : List α)
    (enough : width * count ≤ memory.length) :
    slices width count (memory ++ rest) = slices width count memory := by
  induction count generalizing memory with
  | zero => rfl
  | succ count ih =>
      rw [Nat.mul_succ] at enough
      rw [slices_succ, slices_succ, List.take_append_of_le_length (by omega),
        List.drop_append_of_le_length (by omega), ih (by rw [List.length_drop]; omega)]

/-- Slicing puts back together what was joined. -/
theorem slices_of_flatten {width : Nat} {parts : List (List α)}
    (full : ∀ part ∈ parts, part.length = width) :
    slices width parts.length parts.flatten = parts := by
  induction parts with
  | nil => rfl
  | cons part rest ih =>
      have width_eq := full part (by simp)
      rw [List.length_cons, slices_succ, List.flatten_cons]
      subst width_eq
      rw [List.take_left, List.drop_left, ih fun other member => full other (by simp [member])]

theorem flatten_length {width : Nat} {parts : List (List α)}
    (full : ∀ part ∈ parts, part.length = width) : parts.flatten.length = width * parts.length := by
  induction parts with
  | nil => rfl
  | cons part rest ih =>
      rw [List.flatten_cons, List.length_append, full part (by simp),
        ih fun other member => full other (by simp [member]), List.length_cons, Nat.mul_succ]
      omega

/-- The number of slices of `width` cells that cover `size` cells. -/
def covering (width size : Nat) : Nat := (size + width - 1) / width

theorem covering_zero {width : Nat} (positive : 0 < width) : covering width 0 = 0 := by
  unfold covering
  exact Nat.div_eq_of_lt (by omega)

/-- The loop that counts `size` down. -/
theorem covering_step {width size : Nat} (positive : 0 < width) (more : 0 < size) :
    covering width size = covering width (size - width) + 1 := by
  unfold covering
  by_cases single : size ≤ width
  · rw [Nat.sub_eq_zero_of_le single, Nat.div_eq_of_lt (show 0 + width - 1 < width by omega),
      Nat.zero_add]
    exact Nat.div_eq_of_lt_le (by omega) (by omega)
  · rw [show size + width - 1 = size - width + width - 1 + width by omega,
      Nat.add_div_right _ positive]

theorem covering_covers {width : Nat} (size : Nat) (positive : 0 < width) :
    size ≤ width * covering width size := by
  have split := Nat.div_add_mod (size + width - 1) width
  have small := Nat.mod_lt (size + width - 1) positive
  unfold covering
  omega

theorem covering_tight {width : Nat} (size : Nat) (positive : 0 < width) :
    width * covering width size < size + width := by
  have split := Nat.div_add_mod (size + width - 1) width
  unfold covering
  omega

/-- The loop that counts up to `size` stops at the same number. -/
theorem lt_covering {width size count : Nat} (positive : 0 < width) :
    count < covering width size ↔ width * count < size := by
  have covers := covering_covers size positive
  have tight := covering_tight size positive
  constructor
  · intro below
    have step : width * (count + 1) ≤ width * covering width size :=
      Nat.mul_le_mul_left width below
    rw [Nat.mul_succ] at step
    omega
  · intro short
    by_contra above
    have step : width * covering width size ≤ width * count :=
      Nat.mul_le_mul_left width (by omega)
    omega

theorem covering_mul {width count : Nat} (positive : 0 < width) :
    covering width (width * count) = count := by
  have covers := covering_covers (width * count) positive
  have tight := covering_tight (width * count) positive
  have lower := Nat.le_of_mul_le_mul_left covers positive
  have upper : covering width (width * count) < count + 1 := by
    apply Nat.lt_of_mul_lt_mul_left (a := width)
    rw [Nat.mul_succ]
    exact tight
  omega

theorem covering_le {width size count : Nat} (positive : 0 < width)
    (fits : size ≤ width * count) : covering width size ≤ count := by
  by_contra above
  have short := (lt_covering positive).mp (show count < covering width size by omega)
  omega

theorem covering_sub {width : Nat} (size count : Nat) (positive : 0 < width) :
    covering width (size - width * count) = covering width size - count := by
  apply eq_of_forall_lt_iff
  intro index
  rw [lt_covering positive, show index < covering width size - count ↔
    index + count < covering width size by omega, lt_covering positive, Nat.mul_add]
  omega

/-- The memory after `cells` have been stored at its start. -/
def overwrite (cells memory : List α) : List α := cells ++ memory.drop cells.length

theorem overwrite_length {cells memory : List α} (fits : cells.length ≤ memory.length) :
    (overwrite cells memory).length = memory.length := by
  rw [overwrite, List.length_append, List.length_drop]
  omega

theorem overwrite_take (cells memory : List α) :
    (overwrite cells memory).take cells.length = cells := List.take_left

/-- Consecutive batches of `count` elements, the last one possibly shorter. -/
def batches (count : Nat) (elements : List α) : List (List α) :=
  if elements ≠ [] ∧ 0 < count then
    elements.take count :: batches count (elements.drop count)
  else []
termination_by elements.length
decreasing_by
  have nonempty := List.length_pos_iff.mpr ‹elements ≠ [] ∧ 0 < count›.1
  rw [List.length_drop]
  omega

theorem batches_nil (count : Nat) : batches count ([] : List α) = [] := by
  rw [batches, if_neg (by simp)]

theorem batches_cons {count : Nat} {elements : List α} (nonempty : elements ≠ [])
    (positive : 0 < count) : batches count elements =
      elements.take count :: batches count (elements.drop count) := by
  rw [batches, if_pos ⟨nonempty, positive⟩]

theorem batches_single {count : Nat} {elements : List α} (nonempty : elements ≠ [])
    (few : elements.length ≤ count) : batches count elements = [elements] := by
  have positive := List.length_pos_iff.mpr nonempty
  rw [batches_cons nonempty (by omega), List.take_of_length_le few,
    List.drop_eq_nil_of_le few, batches_nil]

/-- A full batch can be split off in front. -/
theorem batches_append {count : Nat} {front : List α} (rest : List α) (positive : 0 < count)
    (full : front.length = count) :
    batches count (front ++ rest) = front :: batches count rest := by
  subst full
  rw [batches_cons (by
    intro empty
    rw [(List.append_eq_nil_iff.mp empty).1] at positive
    exact Nat.lt_irrefl 0 positive) positive, List.take_left, List.drop_left]

/-- A number as `width` bytes, the least significant one first. -/
def wordBytes : Nat → Nat → List UInt8
  | 0, _ => []
  | width + 1, value => UInt8.ofNat (value % 256) :: wordBytes width (value / 256)

def wordValue : List UInt8 → Nat
  | [] => 0
  | byte :: rest => byte.toNat + 256 * wordValue rest

@[simp] theorem wordBytes_length (width value : Nat) : (wordBytes width value).length = width := by
  induction width generalizing value with
  | zero => rfl
  | succ width ih => rw [wordBytes, List.length_cons, ih]

theorem wordValue_wordBytes (width value : Nat) (small : value < 256 ^ width) :
    wordValue (wordBytes width value) = value := by
  induction width generalizing value with
  | zero =>
      have zero : value = 0 := by simpa using small
      rw [zero]
      rfl
  | succ width ih =>
      have byte : (UInt8.ofNat (value % 256)).toNat = value % 256 := by
        rw [UInt8.toNat_ofNat']
        exact Nat.mod_eq_of_lt (Nat.mod_lt _ (by decide))
      have smaller : value / 256 < 256 ^ width := by
        rw [Nat.div_lt_iff_lt_mul (by decide)]
        rwa [Nat.pow_succ] at small
      rw [wordBytes, wordValue, ih _ smaller, byte, Nat.mod_add_div]

/-- The value of the low bits of a number as a signed integer of that width. -/
def toSigned (width : Nat) (value : Int) : Int :=
  (value + 2 ^ (width - 1)) % 2 ^ width - 2 ^ (width - 1)

end Suspend.Foundation.Memory
