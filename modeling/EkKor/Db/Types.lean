import EkKor.Fs.Volume

/-!
# Constants of the database server (`ekkdb.h`, `ekk_db.h`)

* `Platform`      the two sets of limits;
* `Fate`          how a write ends;
* `DbErr`         the negative return values;
* `cString`, `fieldOf`       zero-terminated strings in fields of a fixed size;
* `strncmpEq_iff` comparing one with a string;
* `find_free`     the first free handle of a table.

Strings are lists of bytes without their terminating zero.
-/

namespace EkKor
namespace Db
open List hiding Vector

/-! ## limits -/

inductive Platform where
  | stm32g474
  | other
  deriving DecidableEq, Repr

namespace Platform

/-- `EKKDB_KV_MAX_ENTRIES` -/
def kvMaxEntries : Platform → UInt32
  | stm32g474 => 64
  | other => 256

/-- `EKKDB_TS_MAX_RECORDS` -/
def tsMaxRecords : Platform → UInt32
  | stm32g474 => 256
  | other => 1024

/-- `EKKDB_LOG_MAX_EVENTS` -/
def logMaxEvents : Platform → UInt32
  | stm32g474 => 128
  | other => 512

/-- `EKKDB_MAX_KV_HANDLES` -/
def maxKvHandles : Platform → Nat
  | stm32g474 => 2
  | other => 4

/-- `EKKDB_MAX_TS_HANDLES` -/
def maxTsHandles : Platform → Nat
  | stm32g474 => 4
  | other => 8

end Platform

/-- how a write to a file ends; `late` is an error after the bytes have been stored -/
inductive Fate where
  | done
  | refused
  | late
  deriving DecidableEq

/-- the negative return values; `EKKDB_OK` is `Except.ok` -/
inductive DbErr where
  | io
  | notFound
  | exists
  | full
  | invalid
  | notOpen
  | keyTooLong
  | valueTooBig
  | timeout
  | notReady
  | corrupt
  | permission
  deriving DecidableEq, Repr

/-! ## strings -/

def cString (field : List UInt8) : List UInt8 := field.takeWhile (· ≠ 0)

/-- at most `limit` bytes in a field of zeros: `strncpy` of a string, `memcpy` of bytes -/
def fieldOf (n limit : Nat) (s : List UInt8) : Vector UInt8 n :=
  Vector.ofFn fun k => if k.val < limit then s.getD k.val 0 else 0

theorem cString_of_noZero {s : List UInt8} (h : 0 ∉ s) : cString s = s := by
  induction s with
  | nil => rfl
  | cons b s ih =>
    rw [mem_cons, not_or] at h
    have hb : decide (b ≠ 0) = true := decide_eq_true (Ne.symm h.1)
    unfold cString at ih ⊢
    rw [takeWhile_cons, if_pos hb, ih h.2]

theorem cString_eq (s : List UInt8) :
    cString s = if s.headD 0 = 0 then [] else s.headD 0 :: cString s.tail := by
  cases s with
  | nil => rfl
  | cons b s =>
    show (b :: s).takeWhile _ = if b = 0 then [] else b :: s.takeWhile _
    split_ifs with h
    · exact takeWhile_cons_of_neg (by simp [h])
    · exact takeWhile_cons_of_pos (decide_eq_true h)

open Fs.Volume in
/-- `strncmp` compares the strings up to `n` bytes -/
theorem strncmpEq_iff (n : Nat) (a b : List UInt8) :
    strncmpEq n a b = true ↔ (cString a).take n = (cString b).take n := by
  induction n generalizing a b with
  | zero => exact ⟨fun _ => rfl, fun _ => rfl⟩
  | succ n ih =>
    rw [strncmpEq, cString_eq a, cString_eq b]
    by_cases hhead : a.headD 0 = b.headD 0
    · rw [if_neg (not_not.mpr hhead), hhead]
      split_ifs with hzero
      · exact ⟨fun _ => rfl, fun _ => rfl⟩
      · rw [take_succ_cons, take_succ_cons, ih, cons_inj_right]
    · rw [if_pos hhead]
      refine ⟨nofun, fun h => absurd ?_ hhead⟩
      split_ifs at h with ha hb hb
      · rw [ha, hb]
      · cases h
      · cases h
      · exact (List.cons.inj h).1

theorem cString_fieldOf {n limit : Nat} {s : List UInt8} (hzero : 0 ∉ s)
    (hlen : s.length ≤ limit) (hn : limit ≤ n) : cString (fieldOf n limit s).toList = s := by
  have hfield : (fieldOf n limit s).toList = s ++ List.replicate (n - s.length) 0 := by
    refine ext_getElem ?_ fun i hi hi' => ?_
    · rw [Vector.length_toList, length_append, length_replicate]
      omega
    · have hget : (fieldOf n limit s).toList[i] = if i < limit then s.getD i 0 else 0 := by
        rw [Vector.getElem_toList]
        exact Vector.getElem_ofFn ..
      rw [hget, getElem_append]
      split_ifs with hlimit hlt hlt
      · exact getD_eq_getElem s 0 hlt
      · rw [getD_eq_default _ _ (Nat.not_lt.mp hlt), getElem_replicate]
      · omega
      · rw [getElem_replicate]
  rw [hfield]
  have hpos (b : UInt8) (hb : b ∈ s) : decide (b ≠ 0) = true := by
    apply decide_eq_true
    rintro rfl
    exact hzero hb
  unfold cString
  rw [takeWhile_append_of_pos hpos]
  cases n - s.length with
  | zero => exact append_nil s
  | succ m => rw [replicate_succ, takeWhile_cons_of_neg (by simp), append_nil]

/-! ## tables of handles -/

theorem find_free {n free : Nat} (inUse : Nat → Bool) (hlimit : free < n)
    (hfree : inUse free = false) : ∃ i < n, inUse i = false ∧
      ((List.range n).find? fun i => !inUse i) = some i := by
  cases hfind : (List.range n).find? fun i => !inUse i with
  | none =>
    have hused := find?_eq_none.mp hfind free (mem_range.mpr hlimit)
    rw [hfree] at hused
    exact absurd rfl hused
  | some i =>
    have hi := find?_some hfind
    rw [Bool.not_eq_true'] at hi
    exact ⟨i, mem_range.mp (mem_of_find?_eq_some hfind), hi, rfl⟩

end Db
end EkKor
