import Mathlib.Data.Nat.Bitwise
import Mathlib.Logic.Function.Iterate
import Mathlib.Tactic.Common

/-!
# Reflected cyclic redundancy checks of 32 bits

The register of the check is divided by a polynomial, one bit or one byte at a time.

* `bitwise`        the register after some bytes, bit by bit;
* `tabled`         the same with one look-up in a table for each byte;
* `tabled_eq`      they differ by the `residue` of the wrong entries that were looked up;
* `residue_nil`, `residue_once`   no wrong entry leaves no residue, and one leaves some.
-/

namespace Crc

/-! ## bits -/

def shift (poly c : UInt32) : UInt32 := if c &&& 1 = 1 then poly ^^^ (c >>> 1) else c >>> 1

def shift8 (poly c : UInt32) : UInt32 := (shift poly)^[8] c

def feed (poly c : UInt32) (byte : UInt8) : UInt32 := shift8 poly (c ^^^ byte.toUInt32)

def bitwise (poly c : UInt32) (data : List UInt8) : UInt32 := data.foldl (feed poly) c

variable {poly : UInt32}

variable (c : UInt32) {idxs : List UInt32}

theorem odd_iff : c &&& 1 = 1 ↔ c.toNat % 2 = 1 := by
  rw [← UInt32.toNat_inj, UInt32.toNat_and]
  show c.toNat &&& 1 = 1 ↔ _
  rw [Nat.and_one_is_mod]

theorem toNat_half : (c >>> 1).toNat = c.toNat / 2 := by
  exact Nat.shiftRight_eq_div_pow c.toNat 1

theorem shift_even {c : UInt32} (h : c.toNat % 2 = 0) : shift poly c = c >>> 1 := by
  apply if_neg
  rw [odd_iff]
  omega

theorem shift_odd {c : UInt32} (h : c.toNat % 2 = 1) : shift poly c = poly ^^^ (c >>> 1) :=
  if_pos ((odd_iff c).mpr h)

theorem shift_xor (a b : UInt32) : shift poly (a ^^^ b) = shift poly a ^^^ shift poly b := by
  have hparity : (a ^^^ b).toNat % 2 = (a.toNat + b.toNat) % 2 := by
    rw [UInt32.toNat_xor, Nat.xor_mod_two_eq]
  have hhalf : (a ^^^ b) >>> 1 = (a >>> 1) ^^^ (b >>> 1) := UInt32.shiftRight_xor
  rcases Nat.mod_two_eq_zero_or_one a.toNat with ha | ha <;>
    rcases Nat.mod_two_eq_zero_or_one b.toNat with hb | hb
  · rw [shift_even ha, shift_even hb, shift_even (by omega), hhalf]
  · rw [shift_even ha, shift_odd hb, shift_odd (by omega), hhalf, ← UInt32.xor_assoc,
      ← UInt32.xor_assoc, UInt32.xor_comm poly]
  · rw [shift_odd ha, shift_even hb, shift_odd (by omega), hhalf, UInt32.xor_assoc]
  · rw [shift_odd ha, shift_odd hb, shift_even (by omega), hhalf, UInt32.xor_comm poly (b >>> 1),
      UInt32.xor_assoc, ← UInt32.xor_assoc (a >>> 1), UInt32.xor_comm poly, UInt32.xor_assoc,
      UInt32.xor_self, UInt32.xor_zero]

theorem iterate_xor (n : Nat) (a b : UInt32) :
    (shift poly)^[n] (a ^^^ b) = (shift poly)^[n] a ^^^ (shift poly)^[n] b := by
  induction n generalizing a b with
  | zero => rfl
  | succ n ih => rw [Function.iterate_succ_apply, shift_xor, ih]; rfl

theorem shift8_xor (a b : UInt32) : shift8 poly (a ^^^ b) = shift8 poly a ^^^ shift8 poly b :=
  iterate_xor 8 a b

theorem toNat_iterate (n : Nat) (h : c.toNat % 2 ^ n = 0) :
    ((shift poly)^[n] c).toNat = c.toNat / 2 ^ n := by
  induction n with
  | zero => rw [Nat.pow_zero, Nat.div_one]; rfl
  | succ n ih =>
    have hdvd : 2 ^ n ∣ c.toNat := Nat.dvd_trans (Nat.pow_dvd_pow 2 n.le_succ) (Nat.dvd_of_mod_eq_zero h)
    have hn := ih (Nat.mod_eq_zero_of_dvd hdvd)
    have heven : c.toNat / 2 ^ n % 2 = 0 := by
      rw [Nat.pow_succ] at h
      rw [Nat.mod_mul] at h
      rcases Nat.mod_two_eq_zero_or_one (c.toNat / 2 ^ n) with h0 | h1
      · exact h0
      · rw [h1] at h
        omega
    rw [Function.iterate_succ_apply', shift_even (by rw [hn]; exact heven), toNat_half, hn,
      Nat.div_div_eq_div_mul, ← Nat.pow_succ]

theorem split_low : c = (c &&& (0xFF : UInt32)) ^^^ (c >>> 8 <<< 8) := by
  rw [← UInt32.toNat_inj, UInt32.toNat_xor, UInt32.toNat_and, UInt32.toNat_shiftLeft,
    UInt32.toNat_shiftRight]
  show c.toNat = (c.toNat &&& 255) ^^^ (c.toNat >>> 8 <<< 8) % 2 ^ 32
  have hc := c.toNat_lt
  have hlow : c.toNat &&& 255 = c.toNat % 2 ^ 8 := Nat.and_two_pow_sub_one_eq_mod c.toNat 8
  have hhigh : (c.toNat >>> 8 <<< 8) % 2 ^ 32 = c.toNat / 2 ^ 8 * 2 ^ 8 := by
    rw [Nat.shiftRight_eq_div_pow, Nat.shiftLeft_eq]
    exact Nat.mod_eq_of_lt (by omega)
  rw [hlow, hhigh]
  apply Nat.eq_of_testBit_eq
  intro i
  rw [Nat.testBit_xor, Nat.testBit_mod_two_pow, Nat.testBit_mul_two_pow, Nat.testBit_div_two_pow]
  by_cases hi : i < 8
  · simp [hi, Nat.not_le_of_lt hi]
  · simp [hi, Nat.le_of_not_lt hi]

theorem shift8_eq : shift8 poly c = shift8 poly (c &&& 0xFF) ^^^ (c >>> 8) := by
  have hrest : shift8 poly (c >>> 8 <<< 8) = c >>> 8 := by
    have hc := c.toNat_lt
    have hmul : (c >>> 8 <<< 8).toNat = c.toNat / 256 * 256 := by
      show (c.toNat >>> 8 <<< 8) % 2 ^ 32 = _
      rw [Nat.shiftRight_eq_div_pow, Nat.shiftLeft_eq]
      exact Nat.mod_eq_of_lt (by omega)
    rw [← UInt32.toNat_inj, shift8, toNat_iterate _ 8 (by rw [hmul]; exact Nat.mul_mod_left ..),
      hmul, UInt32.toNat_shiftRight]
    show c.toNat / 256 * 256 / 256 = c.toNat >>> 8
    rw [Nat.mul_div_cancel _ (by decide), Nat.shiftRight_eq_div_pow]
  conv_lhs => rw [split_low c]
  rw [shift8_xor, hrest]

/-! ## the register is never lost -/

theorem shift_eq_zero (hp : 2 ^ 31 ≤ poly.toNat) {c : UInt32} (h : shift poly c = 0) : c = 0 := by
  have hc := c.toNat_lt
  have hhalf := toNat_half c
  rcases Nat.mod_two_eq_zero_or_one c.toNat with heven | hodd
  · rw [shift_even heven] at h
    rw [h] at hhalf
    have hzero : 0 = c.toNat / 2 := hhalf
    apply UInt32.toNat_inj.mp
    omega
  · rw [shift_odd hodd, UInt32.xor_eq_zero_iff] at h
    rw [← h] at hhalf
    omega

theorem iterate_zero (n : Nat) : (shift poly)^[n] 0 = 0 :=
  Function.iterate_fixed (shift_even rfl) n

theorem iterate_eq_zero (hp : 2 ^ 31 ≤ poly.toNat) (n : Nat) {c : UInt32}
    (h : (shift poly)^[n] c = 0) : c = 0 := by
  induction n with
  | zero => exact h
  | succ n ih =>
    rw [Function.iterate_succ_apply'] at h
    exact ih (shift_eq_zero hp h)

/-! ## tables -/

def index (c : UInt32) (byte : UInt8) : UInt32 := (c ^^^ byte.toUInt32) &&& 0xFF

def tableStep (table : UInt32 → UInt32) (c : UInt32) (byte : UInt8) : UInt32 :=
  table (index c byte) ^^^ (c >>> 8)

def tabled (table : UInt32 → UInt32) (c : UInt32) (data : List UInt8) : UInt32 :=
  data.foldl (tableStep table) c

def lookups (table : UInt32 → UInt32) : UInt32 → List UInt8 → List UInt32
  | _, [] => []
  | c, byte :: data => index c byte :: lookups table (tableStep table c byte) data

def residue (poly : UInt32) (error : UInt32 → UInt32) (e : UInt32) (idxs : List UInt32) : UInt32 :=
  idxs.foldl (fun e i => shift8 poly e ^^^ error i) e

variable {table error : UInt32 → UInt32}

theorem index_lt (byte : UInt8) : index c byte < 256 := by
  exact Nat.lt_of_le_of_lt Nat.and_le_right (by decide)

theorem shiftRight_byte (byte : UInt8) : (c ^^^ byte.toUInt32) >>> 8 = c >>> 8 := by
  have hbyte : byte.toUInt32 >>> 8 = 0 := by
    rw [← UInt32.toNat_inj, UInt32.toNat_shiftRight, UInt8.toNat_toUInt32]
    rw [Nat.shiftRight_eq_div_pow]
    exact Nat.div_eq_of_lt byte.toNat_lt
  rw [UInt32.shiftRight_xor, hbyte, UInt32.xor_zero]

theorem tableStep_eq (h : ∀ i < 256, table i = shift8 poly i ^^^ error i) (b e : UInt32)
    (byte : UInt8) :
    tableStep table (b ^^^ e) byte =
      feed poly b byte ^^^ (shift8 poly e ^^^ error (index (b ^^^ e) byte)) := by
  have hfeed : shift8 poly (index (b ^^^ e) byte) ^^^ ((b ^^^ e) >>> 8) =
      feed poly b byte ^^^ shift8 poly e := by
    have hall := @shift8_eq poly (b ^^^ e ^^^ byte.toUInt32)
    rw [shiftRight_byte] at hall
    rw [index, ← hall, feed, ← shift8_xor, UInt32.xor_assoc, UInt32.xor_comm e, UInt32.xor_assoc]
  rw [tableStep, h _ (index_lt _ _), UInt32.xor_assoc, UInt32.xor_comm (error _),
    ← UInt32.xor_assoc, hfeed, UInt32.xor_assoc]

/-- **Main.** A table that is wrong by `error` makes an error of the `residue` of its look-ups. -/
theorem tabled_eq (h : ∀ i < 256, table i = shift8 poly i ^^^ error i) (b e : UInt32)
    (data : List UInt8) :
    tabled table (b ^^^ e) data =
      bitwise poly b data ^^^ residue poly error e (lookups table (b ^^^ e) data) := by
  induction data generalizing b e with
  | nil => rfl
  | cons byte data ih =>
    show tabled table (tableStep table (b ^^^ e) byte) data =
      bitwise poly (feed poly b byte) data ^^^
        residue poly error (shift8 poly e ^^^ error (index (b ^^^ e) byte))
          (lookups table (tableStep table (b ^^^ e) byte) data)
    rw [tableStep_eq h]
    exact ih _ _

theorem residue_append (e : UInt32) (idxs idxs' : List UInt32) :
    residue poly error e (idxs ++ idxs') =
      residue poly error (residue poly error e idxs) idxs' := List.foldl_append

theorem residue_right (h : ∀ i ∈ idxs, error i = 0) (e : UInt32) :
    residue poly error e idxs = (shift poly)^[8 * idxs.length] e := by
  induction idxs generalizing e with
  | nil => rfl
  | cons i idxs ih =>
    show residue poly error (shift8 poly e ^^^ error i) idxs = _
    rw [h i List.mem_cons_self, UInt32.xor_zero, ih fun j hj => h j (List.mem_cons_of_mem i hj),
      shift8, ← Function.iterate_add_apply, List.length_cons, Nat.mul_succ]

theorem residue_nil (h : ∀ i ∈ idxs, error i = 0) : residue poly error 0 idxs = 0 := by
  rw [residue_right h, iterate_zero]

theorem residue_once (hp : 2 ^ 31 ≤ poly.toNat) {idxs' : List UInt32} {i : UInt32}
    (h : ∀ j ∈ idxs, error j = 0) (hi : error i ≠ 0) (h' : ∀ j ∈ idxs', error j = 0) :
    residue poly error 0 (idxs ++ i :: idxs') ≠ 0 := by
  intro hzero
  rw [residue_append, residue_nil h] at hzero
  change residue poly error (shift8 poly 0 ^^^ error i) idxs' = 0 at hzero
  rw [residue_right h', shift8_eq] at hzero
  have he := iterate_eq_zero hp _ hzero
  rw [← shift8_eq] at he
  have hshift : shift8 poly 0 = 0 := by
    rw [shift8, iterate_zero]
  rw [hshift, UInt32.zero_xor] at he
  exact hi he

end Crc
