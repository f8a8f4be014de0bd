import Mathlib.Algebra.Order.Group.Nat
import Mathlib.Data.List.Basic

set_option autoImplicit false

namespace Foundation.BlockHash

variable {α S : Type} (size : Nat) (compress : S → List α → S)

/-- The first `count` blocks of the data are taken in. -/
def blocks : Nat → S → List α → S
  | 0, state, _ => state
  | count + 1, state, data =>
      blocks count (compress state (data.take size)) (data.drop size)

/-- All whole blocks of the data are taken in. -/
def absorb (state : S) (data : List α) : S := blocks size compress (data.length / size) state data

variable {size compress}

theorem blocks_append {count : Nat} {state : S} {first : List α} (second : List α)
    (whole : count * size ≤ first.length) :
    blocks size compress count state (first ++ second) =
      blocks size compress count state first := by
  induction count generalizing state first with
  | zero => rfl
  | succ count ih =>
      rw [Nat.succ_mul] at whole
      have one : size ≤ first.length := (Nat.le_add_left _ _).trans whole
      rw [blocks, blocks, List.take_append_of_le_length one, List.drop_append_of_le_length one]
      apply ih
      rw [List.length_drop]
      omega

theorem blocks_add (count more : Nat) (state : S) (data : List α) :
    blocks size compress (count + more) state data =
      blocks size compress more (blocks size compress count state data)
        (data.drop (count * size)) := by
  induction count generalizing state data with
  | zero => rw [Nat.zero_add, Nat.zero_mul, List.drop_zero, blocks]
  | succ count ih =>
      rw [Nat.succ_add, blocks, ih, List.drop_drop, blocks, Nat.succ_mul, Nat.add_comm size]

@[simp] theorem absorb_nil (state : S) : absorb size compress state [] = state := by
  rw [absorb, List.length_nil, Nat.zero_div, blocks]

/-- Only what is made of blocks matters. -/
theorem absorb_congr {other : S → List α → S}
    (same : ∀ state block, block.length = size → compress state block = other state block)
    (state : S) (data : List α) :
    absorb size compress state data = absorb size other state data := by
  have steps (count : Nat) : ∀ (state : S) (data : List α), count * size ≤ data.length →
      blocks size compress count state data = blocks size other count state data := by
    induction count with
    | zero => exact fun _ _ _ => rfl
    | succ count ih =>
        intro state data whole
        rw [Nat.succ_mul] at whole
        have one : (data.take size).length = size := by
          rw [List.length_take]
          omega
        rw [blocks, blocks, same state _ one, ih]
        rw [List.length_drop]
        omega
  exact steps _ state data (Nat.div_mul_le_self data.length size)

/-- What comes behind whole blocks is taken in behind them. -/
theorem absorb_append {first : List α} (positive : 0 < size) (whole : size ∣ first.length)
    (second : List α) (state : S) :
    absorb size compress state (first ++ second) =
      absorb size compress (absorb size compress state first) second := by
  obtain ⟨count, length⟩ := whole
  have counted : first.length / size = count := by
    rw [length, Nat.mul_div_cancel_left count positive]
  have total : (first ++ second).length / size = count + second.length / size := by
    rw [List.length_append, length, Nat.mul_add_div positive]
  have covered : count * size = first.length := by rw [length, Nat.mul_comm]
  rw [absorb, total, blocks_add, covered, List.drop_left, blocks_append second covered.le, absorb,
    absorb, counted]

/-- The state and the pending data stand for all that has been put into the stream. -/
def Holds (start state : S) (pending data : List α) : Prop :=
  ∃ whole, data = whole ++ pending ∧ size ∣ whole.length ∧
    state = absorb size compress start whole

namespace Holds

variable {start state : S} {pending data : List α}

theorem nil (start : S) : @Holds α S size compress start start [] [] :=
  ⟨[], rfl, Nat.dvd_zero _, (absorb_nil start).symm⟩

theorem put (holds : @Holds α S size compress start state pending data) (more : List α) :
    @Holds α S size compress start state (pending ++ more) (data ++ more) := by
  obtain ⟨whole, split, aligned, reached⟩ := holds
  exact ⟨whole, by rw [split, List.append_assoc], aligned, reached⟩

theorem take {front : List α} (positive : 0 < size)
    (holds : @Holds α S size compress start state (front ++ pending) data)
    (aligned : size ∣ front.length) :
    @Holds α S size compress start (absorb size compress state front) pending data := by
  obtain ⟨whole, split, before, reached⟩ := holds
  refine ⟨whole ++ front, by rw [split, List.append_assoc], ?_, ?_⟩
  · rw [List.length_append]
    exact Nat.dvd_add before aligned
  · rw [absorb_append positive before, reached]

/-- Once everything has been taken in, it does not matter how. -/
theorem finished (holds : @Holds α S size compress start state [] data) :
    state = absorb size compress start data := by
  obtain ⟨whole, split, _, reached⟩ := holds
  rw [split, List.append_nil, reached]

theorem pending_mod (holds : @Holds α S size compress start state pending data) :
    pending.length % size = data.length % size := by
  obtain ⟨whole, split, aligned, _⟩ := holds
  obtain ⟨count, length⟩ := aligned
  rw [split, List.length_append, length, Nat.mul_add_mod]

end Holds

end Foundation.BlockHash
