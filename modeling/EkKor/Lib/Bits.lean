import Mathlib.Data.Nat.Bitwise

/-!
# The bits of a byte

* `and_bit_ne_zero_iff`   a bit is read with a mask;
* `testBit_or_bit`, `testBit_and_not_bit`   a bit is set or cleared, and the others stay.
-/

namespace Byte

def bit (i : Nat) : UInt8 := UInt8.ofNat (1 <<< i)

variable {i : Nat} (b : UInt8)

theorem toNat_bit (hi : i < 8) : (bit i).toNat = 2 ^ i := by
  unfold bit
  rw [Nat.one_shiftLeft]
  exact Nat.mod_eq_of_lt (Nat.pow_lt_pow_right (by decide) hi)

theorem and_bit_ne_zero_iff (hi : i < 8) : b &&& bit i ≠ 0 ↔ b.toNat.testBit i = true := by
  rw [Ne, ← UInt8.toNat_inj, UInt8.toNat_and, toNat_bit hi, Nat.and_two_pow]
  cases b.toNat.testBit i <;> simp

theorem testBit_or_bit (hi : i < 8) (j : Nat) :
    (b ||| bit i).toNat.testBit j = if j = i then true else b.toNat.testBit j := by
  rw [UInt8.toNat_or, Nat.testBit_or, toNat_bit hi, Nat.testBit_two_pow]
  split_ifs with h
  · simp [h]
  · simp [Ne.symm h]

theorem testBit_and_not_bit (hi : i < 8) {j : Nat} (hj : j < 8) :
    (b &&& ~~~bit i).toNat.testBit j = if j = i then false else b.toNat.testBit j := by
  have hsize : UInt8.size - 1 - 2 ^ i = 2 ^ 8 - (2 ^ i + 1) := by
    rw [Nat.sub_sub, Nat.add_comm 1]
    rfl
  rw [UInt8.toNat_and, Nat.testBit_and, UInt8.toNat_not, toNat_bit hi, hsize,
    Nat.testBit_two_pow_sub_succ (Nat.pow_lt_pow_right (by decide) hi), Nat.testBit_two_pow]
  split_ifs with h
  · simp [h]
  · simp [hj, Ne.symm h]

end Byte
