import Mathlib.Algebra.Group.Nat.Defs
import Mathlib.Data.Nat.Basic
import Mathlib.Tactic.Common
import Mathlib.Tactic.IntervalCases

/-!
# Decimal numbers (`simple_atoi`, `simple_itoa` in `fs_server.c`)

Strings are lists of bytes without their terminating zero, an `int` has 32 bits and wraps.

* `simpleAtoi`, `simpleItoa`   the two functions;
* `atoiDigits_itoaLoop`        the digits of a number are read back;
* `atoi_itoa_iff`              each number but the least one is read back.
-/

namespace EkKor
namespace Fs
open List

/-! ## the functions -/

def isBlank (c : UInt8) : Bool := c == 0x20 || c == 0x09

def atoiDigits : List UInt8 → Int32 → Int32
  | [], result => result
  | c :: str, result =>
    if c ≥ 0x30 ∧ c ≤ 0x39 then atoiDigits str (result * 10 + (Int32.ofNat c.toNat - 0x30))
    else result

/-- `simple_atoi` -/
def simpleAtoi (str : List UInt8) : Int32 :=
  match str.dropWhile isBlank with
  | [] => 0
  | c :: str =>
    if c = 0x2D then atoiDigits str 0 * (-1)
    else if c = 0x2B then atoiDigits str 0
    else atoiDigits (c :: str) 0

/-- `'0' + (value % 10)` -/
def digitOf (value : Int32) : UInt8 := (0x30 + value % 10).toUInt32.toUInt8

/-- the digits, the last one first, at most `fuel + 1` of them -/
def itoaLoop : Nat → Int32 → List UInt8
  | 0, value => [digitOf value]
  | fuel + 1, value =>
    digitOf value :: if value / 10 ≠ 0 then itoaLoop fuel (value / 10) else []

/-- `simple_itoa` -/
def simpleItoa (value : Int32) (bufsize : Nat) : List UInt8 :=
  let tmp := itoaLoop 14 (if value < 0 then -value else value)
  let tmp := if value < 0 then tmp ++ [0x2D] else tmp
  tmp.reverse.take (bufsize - 1)

/-! ## digits -/

variable {n fuel : Nat} (value : Int32)

theorem ofNat_toInt (h : n < 2 ^ 31) : (Int32.ofNat n).toInt = n :=
  Int32.toInt_ofNat_of_lt h

theorem ofNat_div (h : n < 2 ^ 31) : Int32.ofNat n / 10 = Int32.ofNat (n / 10) := by
  refine Int32.toInt.inj ?_
  have hdiv : n / 10 < 2 ^ 31 := Nat.lt_of_le_of_lt (Nat.div_le_self n 10) h
  rw [Int32.toInt_div_of_ne_right _ _ (by decide), ofNat_toInt h, ofNat_toInt hdiv]
  exact Int.ofNat_tdiv n 10 |>.symm

theorem ofNat_mod (h : n < 2 ^ 31) : Int32.ofNat n % 10 = Int32.ofNat (n % 10) := by
  refine Int32.toInt.inj ?_
  have hmod : n % 10 < 2 ^ 31 := Nat.lt_of_le_of_lt (Nat.mod_le n 10) h
  rw [Int32.toInt_mod, ofNat_toInt h, ofNat_toInt hmod]
  exact (Int.ofNat_tmod n 10).symm

theorem digitOf_spec (h : n < 2 ^ 31) :
    digitOf (Int32.ofNat n) ≥ 0x30 ∧ digitOf (Int32.ofNat n) ≤ 0x39 ∧
      Int32.ofNat (digitOf (Int32.ofNat n)).toNat - 0x30 = Int32.ofNat (n % 10) := by
  unfold digitOf
  rw [ofNat_mod h]
  have hlt : n % 10 < 10 := Nat.mod_lt n (by decide)
  generalize n % 10 = d at hlt
  revert d
  decide

theorem ofNat_digits (n : Nat) : Int32.ofNat (n / 10) * 10 + Int32.ofNat (n % 10) = Int32.ofNat n := by
  have hten : (10 : Int32) = Int32.ofNat 10 := rfl
  rw [hten, ← Int32.ofNat_mul, ← Int32.ofNat_add, Nat.mul_comm, Nat.div_add_mod]

/-- **Digits.** They are read back. -/
theorem atoiDigits_itoaLoop (h : n < 2 ^ 31) (hfuel : n < 10 ^ (fuel + 1)) (str : List UInt8) :
    atoiDigits ((itoaLoop fuel (Int32.ofNat n)).reverse ++ str) 0 =
      atoiDigits str (Int32.ofNat n) := by
  induction fuel generalizing n str with
  | zero =>
    obtain ⟨hge, hle, hvalue⟩ := digitOf_spec h
    have hone : n < 10 := by rwa [Nat.zero_add, Nat.pow_one] at hfuel
    rw [itoaLoop, reverse_singleton, singleton_append, atoiDigits, if_pos ⟨hge, hle⟩,
      hvalue, Nat.mod_eq_of_lt hone, Int32.zero_mul, Int32.zero_add]
  | succ fuel ih =>
    obtain ⟨hge, hle, hvalue⟩ := digitOf_spec h
    have hdiv : n / 10 < 2 ^ 31 := Nat.lt_of_le_of_lt (Nat.div_le_self n 10) h
    rw [itoaLoop, ofNat_div h, reverse_cons, append_assoc, singleton_append]
    have hlast (result : Int32) : atoiDigits (digitOf (Int32.ofNat n) :: str) result =
        atoiDigits str (result * 10 + Int32.ofNat (n % 10)) := by
      rw [atoiDigits, if_pos ⟨hge, hle⟩, hvalue]
    split_ifs with hmore
    · rw [ih hdiv (by rw [Nat.div_lt_iff_lt_mul (by decide), ← Nat.pow_succ]; exact hfuel), hlast,
        ofNat_digits]
    · rw [reverse_nil, nil_append, hlast, ← not_not.mp hmore, ofNat_digits]

theorem length_itoaLoop {k : Nat} (h : n < 2 ^ 31) (hk : n < 10 ^ (k + 1)) :
    (itoaLoop fuel (Int32.ofNat n)).length ≤ k + 1 := by
  induction fuel generalizing n k with
  | zero => exact Nat.succ_le_succ (Nat.zero_le k)
  | succ fuel ih =>
    have hdiv : n / 10 < 2 ^ 31 := Nat.lt_of_le_of_lt (Nat.div_le_self n 10) h
    rw [itoaLoop, ofNat_div h, length_cons]
    refine Nat.succ_le_succ ?_
    split_ifs with hmore
    · cases k with
      | zero =>
        rw [Nat.zero_add, Nat.pow_one] at hk
        rw [Nat.div_eq_of_lt hk] at hmore
        exact absurd rfl hmore
      | succ k =>
        refine ih hdiv ?_
        rw [Nat.div_lt_iff_lt_mul (by decide), ← Nat.pow_succ]
        exact hk
    · exact Nat.zero_le k

theorem itoaLoop_head (h : n < 2 ^ 31) : ∃ c str,
    (itoaLoop fuel (Int32.ofNat n)).reverse = c :: str ∧ c ≥ 0x30 ∧ c ≤ 0x39 := by
  induction fuel generalizing n with
  | zero =>
    obtain ⟨hge, hle, _⟩ := digitOf_spec h
    exact ⟨_, [], rfl, hge, hle⟩
  | succ fuel ih =>
    obtain ⟨hge, hle, _⟩ := digitOf_spec h
    have hdiv : n / 10 < 2 ^ 31 := Nat.lt_of_le_of_lt (Nat.div_le_self n 10) h
    rw [itoaLoop, ofNat_div h, reverse_cons]
    split_ifs
    · obtain ⟨c, str, heq, hc⟩ := ih hdiv
      exact ⟨c, str ++ [digitOf (Int32.ofNat n)], by rw [heq, cons_append], hc⟩
    · exact ⟨_, [], rfl, hge, hle⟩

theorem digit_not {c : UInt8} (hge : c ≥ 0x30) :
    isBlank c = false ∧ c ≠ 0x2D ∧ c ≠ 0x2B := by
  have hne {d : UInt8} (hd : ¬ d ≥ 0x30) : c ≠ d := by
    rintro rfl
    exact hd hge
  refine ⟨?_, hne (by decide), hne (by decide)⟩
  unfold isBlank
  rw [beq_false_of_ne (hne (by decide)), beq_false_of_ne (hne (by decide))]
  rfl

/-! ## numbers -/

theorem itoa_ofNat (h : n < 2 ^ 31) :
    simpleItoa (Int32.ofNat n) 16 = (itoaLoop 14 (Int32.ofNat n)).reverse := by
  have hneg : ¬ Int32.ofNat n < 0 := by
    rw [Int32.lt_iff_toInt_lt, ofNat_toInt h]
    show ¬ (n : Int) < 0
    omega
  have hlength : (itoaLoop 14 (Int32.ofNat n)).length ≤ 10 :=
    length_itoaLoop h (Nat.lt_trans h (by decide))
  unfold simpleItoa
  dsimp only
  rw [if_neg hneg, if_neg hneg, take_of_length_le]
  rw [length_reverse]
  omega

theorem itoa_neg_ofNat (hpos : 0 < n) (h : n < 2 ^ 31) :
    simpleItoa (-Int32.ofNat n) 16 = 0x2D :: (itoaLoop 14 (Int32.ofNat n)).reverse := by
  have hvalue : (-Int32.ofNat n).toInt = -n := by
    rw [Int32.neg_ofNat, Int32.toInt_ofInt_of_le] <;> omega
  have hneg : -Int32.ofNat n < 0 := by
    rw [Int32.lt_iff_toInt_lt, hvalue]
    exact Int.neg_neg_of_pos (Int.natCast_pos.mpr hpos)
  have hlength : (itoaLoop 14 (Int32.ofNat n)).length ≤ 10 :=
    length_itoaLoop h (Nat.lt_trans h (by decide))
  unfold simpleItoa
  dsimp only
  rw [if_pos hneg, if_pos hneg, Int32.neg_neg, reverse_append, reverse_singleton,
    singleton_append, take_of_length_le]
  rw [length_cons, length_reverse]
  omega

theorem atoi_itoa_ofNat (h : n < 2 ^ 31) :
    simpleAtoi (simpleItoa (Int32.ofNat n) 16) = Int32.ofNat n := by
  have hread := atoiDigits_itoaLoop h (Nat.lt_trans h (show 2 ^ 31 < 10 ^ (14 + 1) by decide)) []
  obtain ⟨c, str, heq, hge, _⟩ := itoaLoop_head h
  obtain ⟨hblank, hminus, hplus⟩ := digit_not hge
  rw [append_nil] at hread
  rw [itoa_ofNat h]
  rw [heq] at hread ⊢
  unfold simpleAtoi
  rw [dropWhile_cons_of_neg (by rw [hblank]; exact Bool.false_ne_true)]
  dsimp only
  rw [if_neg hminus, if_neg hplus, hread]
  rfl

theorem atoi_itoa_neg_ofNat (hpos : 0 < n) (h : n < 2 ^ 31) :
    simpleAtoi (simpleItoa (-Int32.ofNat n) 16) = -Int32.ofNat n := by
  have hread := atoiDigits_itoaLoop h (Nat.lt_trans h (show 2 ^ 31 < 10 ^ (14 + 1) by decide)) []
  rw [append_nil] at hread
  rw [itoa_neg_ofNat hpos h]
  unfold simpleAtoi
  rw [dropWhile_cons_of_neg (by decide)]
  dsimp only
  rw [if_pos rfl, hread]
  rw [Int32.mul_neg, Int32.mul_one]
  rfl

/-- **Numbers.** A number is read back exactly when it is not the least one: that one is its own
negative, and its digits are no digits. -/
theorem atoi_itoa_iff : simpleAtoi (simpleItoa value 16) = value ↔ value ≠ Int32.minValue := by
  constructor
  · rintro h rfl
    exact absurd h (by decide)
  · intro hne
    have hlt := value.toInt_lt
    have hle := value.le_toInt
    rcases Int.lt_or_le value.toInt 0 with hneg | hnonneg
    · obtain ⟨n, hn⟩ := Int.eq_ofNat_of_zero_le (Int.neg_nonneg_of_nonpos (Int.le_of_lt hneg))
      have hvalue : value = -Int32.ofNat n := by
        rw [Int32.neg_ofNat, ← hn, Int.neg_neg, Int32.ofInt_toInt]
      have hmin : value.toInt ≠ Int32.minValue.toInt := fun h => hne (Int32.toInt.inj h)
      have hmin' : Int32.minValue.toInt = -2 ^ 31 := rfl
      rw [hvalue]
      exact atoi_itoa_neg_ofNat (by omega) (by omega)
    · obtain ⟨n, hn⟩ := Int.eq_ofNat_of_zero_le hnonneg
      have hvalue : value = Int32.ofNat n := by
        rw [← Int32.ofInt_eq_ofNat, ← hn, Int32.ofInt_toInt]
      rw [hvalue]
      exact atoi_itoa_ofNat (by omega)

theorem digitOf_ne_zero : digitOf value ≠ 0 := by
  have hlt : (value % 10).toInt < 10 := by
    rw [Int32.toInt_mod]
    exact Int.tmod_lt_of_pos _ (by decide)
  have hgt : -10 < (value % 10).toInt := by
    rw [Int32.toInt_mod]
    exact Int.lt_tmod_of_pos _ (by decide)
  unfold digitOf
  rw [← Int32.ofInt_toInt (value % 10)]
  generalize (value % 10).toInt = k at hlt hgt
  interval_cases k <;> decide

theorem itoaLoop_noZero (fuel : Nat) (value : Int32) : 0 ∉ itoaLoop fuel value := by
  induction fuel generalizing value with
  | zero =>
    rw [itoaLoop, mem_singleton]
    exact (digitOf_ne_zero value).symm
  | succ fuel ih =>
    rw [itoaLoop, mem_cons, not_or]
    refine ⟨(digitOf_ne_zero value).symm, ?_⟩
    split_ifs
    · exact ih _
    · exact not_mem_nil

theorem itoa_noZero (bufsize : Nat) : 0 ∉ simpleItoa value bufsize := by
  intro hmem
  have hmem' := mem_reverse.mp (mem_of_mem_take hmem)
  split_ifs at hmem'
  · rcases mem_append.mp hmem' with h | h
    · exact itoaLoop_noZero 14 _ h
    · exact absurd (mem_singleton.mp h) (by decide)
  · exact itoaLoop_noZero 14 _ hmem'

end Fs
end EkKor
