import Mathlib.Data.List.GetD
import Mathlib.Data.Vector.Defs
import Mathlib.Tactic.Common
import Mathlib.Tactic.Ring

/-!
# Bytes in memory

* `LittleEndian`   words of four bytes;
* `Packed`         records without gaps.
-/

/-!
# Words of four bytes

* `word`        the lowest byte comes first;
* `bytes`       the bytes of a word;
* `bytes_word`  they are the bytes that it was made of;
* `toNat_word`  the number of a word.
-/

namespace LittleEndian
open List hiding Vector

def word (b₀ b₁ b₂ b₃ : UInt8) : UInt32 :=
  b₀.toUInt32 ||| b₁.toUInt32 <<< 8 ||| b₂.toUInt32 <<< 16 ||| b₃.toUInt32 <<< 24

def bytes (w : UInt32) : List UInt8 :=
  [w.toUInt8, (w >>> 8).toUInt8, (w >>> 16).toUInt8, (w >>> 24).toUInt8]

variable (b₀ b₁ b₂ b₃ : UInt8)

theorem byte0 : (word b₀ b₁ b₂ b₃).toUInt8 = b₀ := by
  apply UInt8.eq_of_toBitVec_eq
  unfold word
  simp

theorem byte1 : (word b₀ b₁ b₂ b₃ >>> 8).toUInt8 = b₁ := by
  apply UInt8.eq_of_toBitVec_eq
  unfold word
  ext i hi
  have h16 : 8 + i < 16 := by omega
  have h24 : 8 + i < 24 := by omega
  have h32 : 8 + i < 32 := by omega
  have hi32 : i < 32 := by omega
  simp [h16, h24, h32, hi32, BitVec.getLsbD_eq_getElem, hi]

theorem byte2 : (word b₀ b₁ b₂ b₃ >>> 16).toUInt8 = b₂ := by
  apply UInt8.eq_of_toBitVec_eq
  unfold word
  ext i hi
  simp (disch := omega) [BitVec.getLsbD_of_ge, BitVec.getLsbD_eq_getElem]
  grind

theorem byte3 : (word b₀ b₁ b₂ b₃ >>> 24).toUInt8 = b₃ := by
  apply UInt8.eq_of_toBitVec_eq
  unfold word
  ext i hi
  simp (disch := omega) [BitVec.getLsbD_of_ge, BitVec.getLsbD_eq_getElem]

/-- **Main.** -/
theorem bytes_word : bytes (word b₀ b₁ b₂ b₃) = [b₀, b₁, b₂, b₃] := by
  unfold bytes
  rw [byte0, byte1, byte2, byte3]

theorem toNat_bytes (w : UInt32) : (bytes w).map UInt8.toNat =
    [w.toNat % 256, w.toNat / 256 % 256, w.toNat / 65536 % 256, w.toNat / 16777216] := by
  have hlt : w.toNat / 16777216 < 256 := Nat.div_lt_of_lt_mul w.toNat_lt
  show [w.toNat % 256, (w.toNat >>> 8) % 256, (w.toNat >>> 16) % 256, (w.toNat >>> 24) % 256] = _
  rw [Nat.shiftRight_eq_div_pow, Nat.shiftRight_eq_div_pow, Nat.shiftRight_eq_div_pow]
  rw [Nat.mod_eq_of_lt hlt]

theorem bytes_injective : Function.Injective bytes := by
  intro w w' h
  have hmap := congrArg (List.map UInt8.toNat) h
  rw [toNat_bytes, toNat_bytes] at hmap
  injection hmap with h0 hmap
  injection hmap with h1 hmap
  injection hmap with h2 hmap
  injection hmap with h3
  apply UInt32.toNat_inj.mp
  omega

theorem toNat_word : (word b₀ b₁ b₂ b₃).toNat =
    b₀.toNat + 256 * (b₁.toNat + 256 * (b₂.toNat + 256 * b₃.toNat)) := by
  have h := toNat_bytes (word b₀ b₁ b₂ b₃)
  rw [bytes_word] at h
  injection h with h0 h
  injection h with h1 h
  injection h with h2 h
  injection h with h3
  omega

end LittleEndian

/-!
# Packed records

A packed record lies in memory field after field without gaps, its integers in little-endian order.

* `Packed α`          the size of the values of `α`, their bytes, and the value that bytes stand for;
* `Packed.u16`, `Packed.u32`, `Packed.u64`, `Packed.bytes`   the fields;
* `Packed.array`, `Packed.pair`, `Packed.map`  records from fields;
* `slice`, `splice`   reading and writing at an offset of a buffer: what was written is read back,
                      and what lies beside it stays.
-/

/-- how the values of a type lie in memory -/
structure Packed (α : Type*) where
  size : Nat
  encode : α → List UInt8
  decode : List UInt8 → α
  length_encode : ∀ a, (encode a).length = size
  decode_encode : ∀ a, decode (encode a) = a

namespace Packed
open List hiding Vector

variable {α β : Type*}

/-! ## little-endian numbers -/

/-- the `n` low bytes of a number, lowest first -/
def leBytes : Nat → Nat → List UInt8
  | 0, _ => []
  | n + 1, v => UInt8.ofNat v :: leBytes n (v / 256)

def leValue : List UInt8 → Nat
  | [] => 0
  | b :: bs => b.toNat + 256 * leValue bs

theorem length_leBytes (n v : Nat) : (leBytes n v).length = n := by
  induction n generalizing v with
  | zero => rfl
  | succ n ih => rw [leBytes, length_cons, ih]

theorem leValue_leBytes (n v : Nat) (h : v < 256 ^ n) : leValue (leBytes n v) = v := by
  induction n generalizing v with
  | zero =>
    exact (Nat.lt_one_iff.mp h).symm
  | succ n ih =>
    have hdiv : v / 256 < 256 ^ n := Nat.div_lt_of_lt_mul (by rw [Nat.pow_succ] at h; omega)
    rw [leBytes, leValue, ih _ hdiv]
    show v % 256 + 256 * (v / 256) = v
    omega

theorem leBytes_word (w : UInt32) (n v : Nat) :
    leBytes (n + 4) (w.toNat + 2 ^ 32 * v) = LittleEndian.bytes w ++ leBytes n v := by
  have hlt := w.toNat_lt
  have hbyte : ∀ {a : Nat} {b : UInt8}, b.toNat = a % 256 → UInt8.ofNat a = b := fun h =>
    UInt8.toNat_inj.mp h.symm
  have hbytes := LittleEndian.toNat_bytes w
  injection hbytes with h0 hbytes
  injection hbytes with h1 hbytes
  injection hbytes with h2 hbytes
  injection hbytes with h3
  have hrest : (w.toNat + 2 ^ 32 * v) / 256 / 256 / 256 / 256 = v := by omega
  rw [leBytes, leBytes, leBytes, leBytes, hrest, hbyte (h0.trans (by omega)),
    hbyte (h1.trans (by omega)), hbyte (h2.trans (by omega)), hbyte (h3.trans (by omega))]
  rfl

theorem leValue_drop (l : List UInt8) :
    leValue l = (l.getD 0 0).toNat + 256 * leValue (l.drop 1) := by
  cases l with
  | nil => rfl
  | cons b l => rfl

/-! ## fields -/

def u8 : Packed UInt8 where
  size := 1
  encode b := [b]
  decode bs := bs.headD 0
  length_encode _ := rfl
  decode_encode _ := rfl

def u16 : Packed UInt16 where
  size := 2
  encode v := leBytes 2 v.toNat
  decode bs := UInt16.ofNat (leValue bs)
  length_encode _ := length_leBytes 2 _
  decode_encode v := by
    rw [leValue_leBytes 2 _ v.toNat_lt]
    exact UInt16.ofNat_toNat

def u32 : Packed UInt32 where
  size := 4
  encode v := leBytes 4 v.toNat
  decode bs := UInt32.ofNat (leValue bs)
  length_encode _ := length_leBytes 4 _
  decode_encode v := by
    rw [leValue_leBytes 4 _ v.toNat_lt]
    exact UInt32.ofNat_toNat

def u64 : Packed UInt64 where
  size := 8
  encode v := leBytes 8 v.toNat
  decode bs := UInt64.ofNat (leValue bs)
  length_encode _ := length_leBytes 8 _
  decode_encode v := by
    rw [leValue_leBytes 8 _ v.toNat_lt]
    exact UInt64.ofNat_toNat

def bytes (n : Nat) : Packed (Vector UInt8 n) where
  size := n
  encode v := v.toList
  decode bs := Vector.ofFn fun i => bs.getD i.val 0
  length_encode v := v.length_toList
  decode_encode v := by
    ext i hi
    rw [Vector.getElem_ofFn, getD_eq_getElem _ _ (by rw [v.length_toList]; exact hi),
      Vector.getElem_toList]

/-! ## records -/

def pair (p : Packed α) (q : Packed β) : Packed (α × β) where
  size := p.size + q.size
  encode x := p.encode x.1 ++ q.encode x.2
  decode bs := (p.decode (bs.take p.size), q.decode (bs.drop p.size))
  length_encode x := by rw [length_append, p.length_encode, q.length_encode]
  decode_encode x := by
    rw [← p.length_encode x.1, take_left, drop_left, p.decode_encode, q.decode_encode]

variable (p : Packed α)

theorem take_pair (q : Packed β) (x : α × β) :
    ((p.pair q).encode x).take p.size = p.encode x.1 :=
  take_left' (p.length_encode x.1)

/-- the values of `β`, each kept as a value of `α` -/
def map (p : Packed α) (f : α → β) (g : β → α) (h : ∀ b, f (g b) = b) : Packed β where
  size := p.size
  encode b := p.encode (g b)
  decode bs := f (p.decode bs)
  length_encode b := p.length_encode (g b)
  decode_encode b := by rw [p.decode_encode, h]

theorem length_flatMap_encode (l : List α) : (l.flatMap p.encode).length = l.length * p.size := by
  induction l with
  | nil => exact (Nat.zero_mul _).symm
  | cons a l ih =>
    rw [flatMap_cons, length_append, ih, p.length_encode, length_cons]
    ring

/-- element `i` of a packed list -/
theorem take_drop_flatMap (l : List α) (i : Nat) (hi : i < l.length) :
    ((l.flatMap p.encode).drop (i * p.size)).take p.size = p.encode l[i] := by
  induction l generalizing i with
  | nil => exact absurd hi (Nat.not_lt_zero i)
  | cons a l ih =>
    rw [flatMap_cons]
    cases i with
    | zero =>
      rw [Nat.zero_mul, drop_zero, ← p.length_encode a, take_left]
      rfl
    | succ i =>
      rw [show (i + 1) * p.size = (p.encode a).length + i * p.size by rw [p.length_encode]; ring,
        drop_length_add_append]
      exact ih i (Nat.lt_of_succ_lt_succ hi)

/-- `n` values of the same type -/
def array (p : Packed α) (n : Nat) : Packed (Vector α n) where
  size := n * p.size
  encode v := v.toList.flatMap p.encode
  decode bs := Vector.ofFn fun i => p.decode ((bs.drop (i.val * p.size)).take p.size)
  length_encode v := by rw [length_flatMap_encode, v.length_toList]
  decode_encode v := by
    ext i hi
    rw [Vector.getElem_ofFn,
      take_drop_flatMap p v.toList i (by rw [v.length_toList]; exact hi), p.decode_encode,
      Vector.getElem_toList]

end Packed

/-! ## buffers -/

section
open List hiding Vector
variable {n : Nat}

/-- the bytes `offset, …, offset + len - 1` of a buffer -/
def slice (buf : Fin n → UInt8) (offset len : Nat) : List UInt8 :=
  ((List.ofFn buf).drop offset).take len

/-- the buffer with `bytes` written at `offset` -/
def splice (buf : Fin n → UInt8) (offset : Nat) (bytes : List UInt8) : Fin n → UInt8 := fun k =>
  if offset ≤ k.val then bytes.getD (k.val - offset) (buf k) else buf k

variable (buf : Fin n → UInt8) {offset : Nat} {bytes : List UInt8}

theorem getElem_slice (offset len i : Nat) (h : i < (slice buf offset len).length)
    (hn : offset + i < n) : (slice buf offset len)[i] = buf ⟨offset + i, hn⟩ := by
  simp only [slice, getElem_take, getElem_drop, List.getElem_ofFn]

theorem length_slice {len : Nat} (h : offset + len ≤ n) : (slice buf offset len).length = len := by
  unfold slice
  rw [length_take, length_drop, length_ofFn]
  omega

theorem slice_splice (h : offset + bytes.length ≤ n) :
    slice (splice buf offset bytes) offset bytes.length = bytes := by
  refine ext_getElem (length_slice _ h) fun i hi hi' => ?_
  rw [getElem_slice _ _ _ _ hi (by omega)]
  unfold splice
  rw [if_pos (Nat.le_add_right offset i), Nat.add_sub_cancel_left, getD_eq_getElem _ _ hi']

theorem slice_splice_of_disjoint {offset' len : Nat} (h : offset' + len ≤ n)
    (hd : offset' + len ≤ offset ∨ offset + bytes.length ≤ offset') :
    slice (splice buf offset bytes) offset' len = slice buf offset' len := by
  refine ext_getElem ((length_slice _ h).trans (length_slice _ h).symm) fun i hi hi' => ?_
  rw [length_slice _ h] at hi
  rw [getElem_slice _ _ _ _ _ (by omega), getElem_slice _ _ _ _ _ (by omega)]
  unfold splice
  split_ifs with hle
  · change offset ≤ offset' + i at hle
    exact getD_eq_default _ _ (by show bytes.length ≤ offset' + i - offset; omega)
  · rfl

end
