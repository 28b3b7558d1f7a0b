import Mathlib.Algebra.Order.Ring.Abs
import Mathlib.Algebra.Order.Ring.Int
import Mathlib.Tactic.Common

/-!
# Signed words

The value of an operation on signed words, where the result has room.

* `Fits`              a value of 32 bits;
* `toInt_add`, `toInt_sub`, `toInt_mul`, `toInt_div`   the operations on 32 bits;
* `toInt_half`, `toInt_shiftRight`, `toInt_shiftLeft`, `toInt_ofUnsigned`   shifts, and an unsigned
                      number;
* `toInt_mul64`, `toInt_shiftRight64`, `toInt_shiftLeft64`   64 bits;
* `toInt_sum`, `toInt_sum64`   sums of numbers that are not negative.
-/

namespace Signed
open List

def Fits (v : Int) : Prop := -2 ^ 31 ≤ v ∧ v < 2 ^ 31

instance (v : Int) : Decidable (Fits v) := inferInstanceAs (Decidable (_ ∧ _))

theorem bmod_of_fits {v : Int} (h : Fits v) : v.bmod (2 ^ 32) = v :=
  Int.bmod_eq_of_le h.1 h.2

theorem fits_natCast {v : Nat} : Fits v ↔ v < 2 ^ 31 := by
  unfold Fits
  omega

variable {a b : Int32}

theorem toInt_add (h : Fits (a.toInt + b.toInt)) : (a + b).toInt = a.toInt + b.toInt := by
  rw [Int32.toInt_add, bmod_of_fits h]

theorem toInt_sub (h : Fits (a.toInt - b.toInt)) : (a - b).toInt = a.toInt - b.toInt := by
  rw [Int32.toInt_sub, bmod_of_fits h]

theorem toInt_mul (h : Fits (a.toInt * b.toInt)) : (a * b).toInt = a.toInt * b.toInt := by
  rw [Int32.toInt_mul, bmod_of_fits h]

theorem toInt_div {m d : Nat} (ha : a.toInt = m) (hb : b.toInt = d) :
    (a / b).toInt = ↑(m / d) := by
  have hm : m < 2 ^ 31 := by
    have hlt := a.toInt_lt
    omega
  have hquotient : (m : Int).tdiv d = ↑(m / d) := by
    rw [Int.tdiv_eq_ediv_of_nonneg (Int.natCast_nonneg m), Int.natCast_ediv]
  rw [Int32.toInt_div, ha, hb, hquotient,
    bmod_of_fits (fits_natCast.mpr (Nat.lt_of_le_of_lt (Nat.div_le_self m d) hm))]

theorem toInt_half (a : Int32) : (a >>> 1).toInt = a.toInt / 2 := by
  rw [← Int32.toInt_toBitVec, Int32.toBitVec_shiftRight, BitVec.toInt_sshiftRight',
    Int32.toInt_toBitVec]
  exact Int.shiftRight_eq_div_pow a.toInt 1

theorem toInt_shiftRight (a : Int32) : (a >>> 16).toInt = a.toInt / 65536 := by
  rw [← Int32.toInt_toBitVec, Int32.toBitVec_shiftRight, BitVec.toInt_sshiftRight',
    Int32.toInt_toBitVec]
  exact Int.shiftRight_eq_div_pow a.toInt 16

theorem toInt_ofUnsigned {n : UInt32} (h : n.toNat < 2 ^ 31) : n.toInt32.toInt = n.toNat := by
  rw [← Int32.toInt_toBitVec, BitVec.toInt_eq_toNat_bmod]
  exact bmod_of_fits (fits_natCast.mpr h)

theorem toInt_ofNat {n : Nat} (h : n < 2 ^ 31) : (Int32.ofNat n).toInt = n := by
  rw [Int32.toInt_ofNat']
  exact bmod_of_fits (fits_natCast.mpr h)

theorem toInt_shiftLeft (h : Fits (a.toInt * 65536)) : (a <<< 16).toInt = a.toInt * 65536 := by
  have hshift : a <<< 16 = a * 65536 := by
    refine Int32.toBitVec_inj.mp ?_
    exact BitVec.shiftLeft_eq_mul_twoPow _ 16
  rw [hshift]
  exact toInt_mul h

/-! ## 64 bits -/

theorem bmod64_of_le {v : Int} (hlow : -2 ^ 62 ≤ v) (hhigh : v ≤ 2 ^ 62) :
    v.bmod (2 ^ 64) = v :=
  Int.bmod_eq_of_le (by omega) (by omega)

theorem abs_mul_le (a b : Int32) : |a.toInt * b.toInt| ≤ 2 ^ 62 := by
  have habs (c : Int32) : |c.toInt| ≤ 2 ^ 31 :=
    abs_le.mpr ⟨c.le_toInt, Int.le_of_lt c.toInt_lt⟩
  rw [abs_mul]
  exact mul_le_mul (habs a) (habs b) (abs_nonneg _) (by decide)

theorem toInt_mul64 (a b : Int32) : (a.toInt64 * b.toInt64).toInt = a.toInt * b.toInt := by
  have habs := abs_le.mp (abs_mul_le a b)
  rw [Int64.toInt_mul, Int32.toInt_toInt64, Int32.toInt_toInt64, bmod64_of_le habs.1 habs.2]

theorem toInt_shiftRight64 (a : Int64) : (a >>> 16).toInt = a.toInt / 65536 := by
  rw [← Int64.toInt_toBitVec, Int64.toBitVec_shiftRight, BitVec.toInt_sshiftRight',
    Int64.toInt_toBitVec]
  exact Int.shiftRight_eq_div_pow a.toInt 16

theorem toInt_shiftLeft64 (a : Int32) : (a.toInt64 <<< 16).toInt = a.toInt * 65536 := by
  have hlow := a.le_toInt
  have hhigh := a.toInt_lt
  have hshift : a.toInt64 <<< 16 = a.toInt64 * 65536 := by
    refine Int64.toBitVec_inj.mp ?_
    exact BitVec.shiftLeft_eq_mul_twoPow _ 16
  rw [hshift, Int64.toInt_mul, Int32.toInt_toInt64]
  exact bmod64_of_le (by show _ ≤ a.toInt * 65536; omega) (by show a.toInt * 65536 ≤ _; omega)

/-! ## sums -/

variable {l : List Int32}

theorem sum_tail_lt (hpos : 0 ≤ a.toInt) (hroom : ((a :: l).map Int32.toInt).sum < 2 ^ 31) :
    (l.map Int32.toInt).sum < 2 ^ 31 := by
  rw [map_cons, sum_cons] at hroom
  omega

theorem sum_toInt_nonneg (hpos : ∀ a ∈ l, 0 ≤ a.toInt) : 0 ≤ (l.map Int32.toInt).sum := by
  induction l with
  | nil => exact Int.le_refl 0
  | cons a l ih =>
    exact Int.add_nonneg (hpos a mem_cons_self) (ih fun b hb => hpos b (mem_cons_of_mem a hb))

theorem toInt_sum (hpos : ∀ a ∈ l, 0 ≤ a.toInt) (hroom : (l.map Int32.toInt).sum < 2 ^ 31) :
    l.sum.toInt = (l.map Int32.toInt).sum := by
  induction l with
  | nil => rfl
  | cons a l ih =>
    have hrest (b : Int32) (hb : b ∈ l) := hpos b (mem_cons_of_mem a hb)
    have ha := hpos a mem_cons_self
    have hsum := ih hrest (sum_tail_lt ha hroom)
    have hnonneg := sum_toInt_nonneg hrest
    rw [map_cons, sum_cons] at hroom ⊢
    rw [sum_cons, toInt_add, hsum]
    unfold Fits
    omega

theorem toInt_sum64 (hpos : ∀ a ∈ l, 0 ≤ a.toInt) (hroom : (l.map Int32.toInt).sum < 2 ^ 31) :
    (l.map Int32.toInt64).sum.toInt = (l.map Int32.toInt).sum := by
  induction l with
  | nil => rfl
  | cons a l ih =>
    have hrest (b : Int32) (hb : b ∈ l) := hpos b (mem_cons_of_mem a hb)
    have ha := hpos a mem_cons_self
    have hsum := ih hrest (sum_tail_lt ha hroom)
    have hnonneg := sum_toInt_nonneg hrest
    rw [map_cons, sum_cons] at hroom ⊢
    rw [map_cons, sum_cons, Int64.toInt_add, hsum, Int32.toInt_toInt64]
    exact bmod64_of_le (by omega) (by omega)

end Signed
