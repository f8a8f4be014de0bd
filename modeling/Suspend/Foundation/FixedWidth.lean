import Mathlib.Data.Nat.Digits.Defs

set_option autoImplicit false

namespace Foundation.FixedWidth

inductive ByteOrder where
  | little
  | big
deriving DecidableEq

/-- Between the order of the machine and the lowest byte first. -/
def ByteOrder.arrange : ByteOrder → List UInt8 → List UInt8
  | .little, bytes => bytes
  | .big, bytes => bytes.reverse

@[simp] theorem ByteOrder.arrange_arrange (order : ByteOrder) (bytes : List UInt8) :
    order.arrange (order.arrange bytes) = bytes := by
  cases order with
  | little => rfl
  | big => exact bytes.reverse_reverse

@[simp] theorem ByteOrder.arrange_length (order : ByteOrder) (bytes : List UInt8) :
    (order.arrange bytes).length = bytes.length := by
  cases order with
  | little => rfl
  | big => exact bytes.length_reverse

/-- The `count` lowest bytes of a number, the lowest first. -/
def toBytes : Nat → Nat → List UInt8
  | 0, _ => []
  | count + 1, value => UInt8.ofNat value :: toBytes count (value / 256)

def fromBytes (bytes : List UInt8) : Nat := Nat.ofDigits 256 (bytes.map UInt8.toNat)

@[simp] theorem toBytes_length (count value : Nat) : (toBytes count value).length = count := by
  induction count generalizing value with
  | zero => rfl
  | succ count ih => rw [toBytes, List.length_cons, ih]

theorem fromBytes_toBytes (count value : Nat) :
    fromBytes (toBytes count value) = value % 256 ^ count := by
  induction count generalizing value with
  | zero => rw [Nat.pow_zero, Nat.mod_one]; rfl
  | succ count ih =>
    have higher := ih (value / 256)
    unfold fromBytes at higher ⊢
    have power : 256 ^ (count + 1) = 256 * 256 ^ count := Nat.pow_succ'
    rw [toBytes, List.map_cons, Nat.ofDigits_cons, higher, UInt8.toNat_ofNat', power,
      Nat.mod_mul]

theorem toBytes_fromBytes (bytes : List UInt8) :
    toBytes bytes.length (fromBytes bytes) = bytes := by
  induction bytes with
  | nil => rfl
  | cons byte rest ih =>
      have value : fromBytes (byte :: rest) = byte.toNat + 256 * fromBytes rest :=
        Nat.ofDigits_cons
      have small : byte.toNat < 256 := byte.toNat_lt
      have low : UInt8.ofNat (byte.toNat + 256 * fromBytes rest) = byte := by
        apply UInt8.toNat_inj.mp
        rw [UInt8.toNat_ofNat']
        omega
      have high : (byte.toNat + 256 * fromBytes rest) / 256 = fromBytes rest := by omega
      rw [List.length_cons, toBytes, value, low, high, ih]

theorem fromBytes_lt (bytes : List UInt8) : fromBytes bytes < 256 ^ bytes.length := by
  have value := fromBytes_toBytes bytes.length (fromBytes bytes)
  rw [toBytes_fromBytes] at value
  rw [value]
  exact Nat.mod_lt _ (Nat.pow_pos (by decide))

theorem toBytes_mod (count value : Nat) :
    toBytes count (value % 256 ^ count) = toBytes count value := by
  have back := toBytes_fromBytes (toBytes count value)
  rwa [toBytes_length, fromBytes_toBytes] at back

theorem toBytes_add (count more value : Nat) :
    toBytes (count + more) value = toBytes count value ++ toBytes more (value / 256 ^ count) := by
  induction count generalizing value with
  | zero => rw [Nat.zero_add, Nat.pow_zero, Nat.div_one]; rfl
  | succ count ih =>
      rw [Nat.succ_add, toBytes, ih, toBytes, Nat.div_div_eq_div_mul, Nat.pow_succ',
        List.cons_append]

end Foundation.FixedWidth
