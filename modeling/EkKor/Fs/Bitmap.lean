import EkKor.Fs.Volume
import EkKor.Lib.Bits
import EkKor.Lib.Ownership

/-!
# The block bitmap

On a volume with a proper `Geometry` the bitmap is a set of data blocks.

* `bit_assignBufBit`    writing one bit;
* `Marked`              a data block whose bit is set;
* `bitmapAlloc_spec`    `bitmap_alloc` takes a clear data block, and fails when there is none;
* `bitmapFree_spec`     `bitmap_free` clears the bit of a data block;
* `Counted`             `free_blocks` is the number of clear data blocks.
-/

namespace EkKor
namespace Fs
open Ownership

/-! ## bits -/

variable {i k : Nat} {b : UInt32}

theorem testBit_assignBit (byte : UInt8) {j : Nat} (hi : i < 8) (hj : j < 8) (used : Bool) :
    (Volume.assignBit byte i used).toNat.testBit j =
      if j = i then used else byte.toNat.testBit j := by
  cases used with
  | true => exact Byte.testBit_or_bit byte hi j
  | false => exact Byte.testBit_and_not_bit byte hi hj

theorem bit_assignBufBit (buf : Nat → UInt8) (k : Nat) (used : Bool) (j : Nat) :
    Volume.bit (Volume.assignBufBit buf k used) j = if j = k then used else Volume.bit buf j := by
  unfold Volume.bit Volume.assignBufBit
  by_cases hbyte : j / 8 = k / 8
  · rw [hbyte, Function.update_self,
      testBit_assignBit _ (Nat.mod_lt k (by decide)) (Nat.mod_lt j (by decide))]
    have hiff : j % 8 = k % 8 ↔ j = k := by omega
    simp only [hiff]
  · rw [Function.update_of_ne hbyte, if_neg (fun h : j = k => hbyte (h ▸ rfl))]

/-! ## data blocks -/

def dataBlocks (sb : Superblock) : Nat := sb.totalBlocks.toNat - sb.dataStart.toNat

/-- the data blocks lie within the partition, the bitmap has a bit for each, and block numbers are
positive as an int -/
structure Geometry (sb : Superblock) : Prop where
  pos : 0 < sb.dataStart
  fits : sb.dataStart ≤ sb.totalBlocks
  few : dataBlocks sb ≤ 32768
  int : sb.totalBlocks.toNat < 2 ^ 31

/-- data block `k` -/
def dataBlock (sb : Superblock) (k : Nat) : UInt32 := sb.dataStart + UInt32.ofNat k

def InData (sb : Superblock) (b : UInt32) : Prop := sb.dataStart ≤ b ∧ b < sb.totalBlocks

def Volume.Marked (v : Volume) (b : UInt32) : Prop :=
  InData v.superblock b ∧
    Volume.bit v.bitmapBuf (b.toNat - v.superblock.dataStart.toNat) = true

variable {sb : Superblock} {v : Volume}

theorem dataBlock_toNat (hg : Geometry sb) (hk : k < 2 ^ 17) :
    (dataBlock sb k).toNat = sb.dataStart.toNat + k := by
  have hfits : sb.dataStart.toNat ≤ sb.totalBlocks.toNat := UInt32.le_iff_toNat_le.mp hg.fits
  have hint := hg.int
  have hofNat : (UInt32.ofNat k).toNat = k := Nat.mod_eq_of_lt (by omega)
  unfold dataBlock
  rw [UInt32.toNat_add, hofNat]
  exact Nat.mod_eq_of_lt (by omega)

theorem inData_dataBlock (hg : Geometry sb) (hk : k < dataBlocks sb) :
    InData sb (dataBlock sb k) := by
  have hfew := hg.few
  have hnat := dataBlock_toNat hg (show k < 2 ^ 17 by omega)
  unfold dataBlocks at hk
  constructor
  · rw [UInt32.le_iff_toNat_le, hnat]
    omega
  · rw [UInt32.lt_iff_toNat_lt, hnat]
    omega

theorem InData.index_lt (h : InData sb b) : b.toNat - sb.dataStart.toNat < dataBlocks sb := by
  have h1 := UInt32.le_iff_toNat_le.mp h.1
  have h2 := UInt32.lt_iff_toNat_lt.mp h.2
  unfold dataBlocks
  omega

theorem InData.eq_dataBlock (hg : Geometry sb) (h : InData sb b) :
    b = dataBlock sb (b.toNat - sb.dataStart.toNat) := by
  have hlt := h.index_lt
  have hfew := hg.few
  have h1 := UInt32.le_iff_toNat_le.mp h.1
  refine UInt32.toNat_inj.mp ?_
  rw [dataBlock_toNat hg (by omega)]
  omega

theorem InData.ne_zero (hg : Geometry sb) (h : InData sb b) : b ≠ 0 := by
  rintro rfl
  exact absurd (UInt32.lt_of_lt_of_le hg.pos h.1) (UInt32.lt_irrefl 0)

theorem marked_dataBlock (hg : Geometry v.superblock) (hk : k < dataBlocks v.superblock) :
    v.Marked (dataBlock v.superblock k) ↔ Volume.bit v.bitmapBuf k = true := by
  have hfew := hg.few
  unfold Volume.Marked
  rw [dataBlock_toNat hg (by omega), Nat.add_sub_cancel_left]
  exact ⟨fun h => h.2, fun h => ⟨inData_dataBlock hg hk, h⟩⟩

/-! ## taking and giving back a block -/

/-- the volume with data block `k` taken -/
def Volume.taken (v : Volume) (k : Nat) : Volume :=
  { v with
    bitmapBuf := Volume.assignBufBit v.bitmapBuf k true
    superblock := { v.superblock with freeBlocks := v.superblock.freeBlocks - 1 } }

/-- the volume with data block `k` given back -/
def Volume.freed (v : Volume) (k : Nat) : Volume :=
  { v with
    bitmapBuf := Volume.assignBufBit v.bitmapBuf k false
    superblock := { v.superblock with freeBlocks := v.superblock.freeBlocks + 1 } }

theorem blockOfBit_eq (sb : Superblock) {bit : Nat} :
    Volume.blockOfBit sb i bit = dataBlock sb (8 * i + bit) := by
  unfold Volume.blockOfBit dataBlock
  rw [UInt32.ofNat_add, Nat.mul_comm 8 i, UInt32.ofNat_mul, UInt32.add_assoc]
  rfl

theorem blockOfBit_lt_iff (hg : Geometry sb) {bit : Nat} (hi : i < bitmapBufSize) (hbit : bit < 8) :
    Volume.blockOfBit sb i bit < sb.totalBlocks ↔ 8 * i + bit < dataBlocks sb := by
  have hi' : i < 4096 := hi
  rw [blockOfBit_eq, UInt32.lt_iff_toNat_lt, dataBlock_toNat hg (by omega)]
  unfold dataBlocks
  omega

theorem freeBit_spec (hg : Geometry sb) (byte : UInt8) (hi : i < bitmapBufSize) :
    (∃ bit < 8, Volume.freeBit sb byte i = some bit ∧ byte.toNat.testBit bit = false ∧
        8 * i + bit < dataBlocks sb) ∨
      Volume.freeBit sb byte i = none ∧
        ∀ bit < 8, 8 * i + bit < dataBlocks sb → byte.toNat.testBit bit = true := by
  unfold Volume.freeBit
  split_ifs with hff
  · cases hfind : (List.range 8).find? fun bit =>
        !byte.toNat.testBit bit && decide (Volume.blockOfBit sb i bit < sb.totalBlocks) with
    | some bit =>
      have hbit := List.mem_range.mp (List.mem_of_find?_eq_some hfind)
      have hp := List.find?_some hfind
      rw [Bool.and_eq_true, Bool.not_eq_true', decide_eq_true_eq, blockOfBit_lt_iff hg hi hbit]
        at hp
      exact .inl ⟨bit, hbit, rfl, hp⟩
    | none =>
      refine .inr ⟨rfl, fun bit hbit hlt => ?_⟩
      have hno := List.find?_eq_none.mp hfind bit (List.mem_range.mpr hbit)
      rw [Bool.and_eq_true, Bool.not_eq_true', decide_eq_true_eq, blockOfBit_lt_iff hg hi hbit]
        at hno
      by_contra hclear
      exact hno ⟨Bool.eq_false_of_not_eq_true hclear, hlt⟩
  · refine .inr ⟨rfl, fun bit hbit _ => ?_⟩
    rw [not_not.mp hff, show (0xFF : UInt8).toNat = 2 ^ 8 - 1 from rfl, Nat.testBit_two_pow_sub_one]
    exact decide_eq_true hbit

theorem allocFrom_spec (hg : Geometry v.superblock) {n : Nat} (h : i + n ≤ bitmapBufSize) :
    (∃ k < dataBlocks v.superblock, Volume.bit v.bitmapBuf k = false ∧
        v.allocFrom n i = some (some (dataBlock v.superblock k), v.taken k)) ∨
      (∀ k < dataBlocks v.superblock, 8 * i ≤ k → k < 8 * (i + n) →
          Volume.bit v.bitmapBuf k = true) ∧
        v.allocFrom n i = some (none, v) := by
  induction n generalizing i with
  | zero => exact .inr ⟨fun k _ h1 h2 => by omega, rfl⟩
  | succ n ih =>
    have hi : i < bitmapBufSize := by omega
    have hbyte (bit : Nat) (hbit : bit < 8) :
        (8 * i + bit) / 8 = i ∧ (8 * i + bit) % 8 = bit := by omega
    rw [Volume.allocFrom, if_pos hi]
    rcases freeBit_spec hg (v.bitmapBuf i) hi with ⟨bit, hbit, heq, hclear, hlt⟩ | ⟨heq, hset⟩
    · obtain ⟨hdiv, hmod⟩ := hbyte bit hbit
      refine .inl ⟨8 * i + bit, hlt, ?_, ?_⟩
      · unfold Volume.bit
        rw [hdiv, hmod]
        exact hclear
      · have hint := hg.int
        have hsmall : Volume.blockOfBit v.superblock i bit < 0x80000000 := by
          have htotal := (blockOfBit_lt_iff hg hi hbit).mpr hlt
          exact Nat.lt_trans htotal hint
        rw [heq]
        dsimp only
        rw [if_pos hsmall, blockOfBit_eq]
        unfold Volume.taken Volume.assignBufBit
        rw [hdiv, hmod]
    · rw [heq]
      rcases ih (i := i + 1) (by omega) with hfound | ⟨hall, hnone⟩
      · exact .inl hfound
      · refine .inr ⟨fun k hk h1 h2 => ?_, hnone⟩
        by_cases hnext : 8 * (i + 1) ≤ k
        · exact hall k hk hnext (by omega)
        · have hk8 := hset (k - 8 * i) (by omega)
          rw [show 8 * i + (k - 8 * i) = k by omega] at hk8
          unfold Volume.bit
          rw [show k / 8 = i by omega, show k % 8 = k - 8 * i by omega]
          exact hk8 hk

/-- `bitmap_alloc` takes a clear data block; it fails, and changes nothing, when there is none -/
theorem bitmapAlloc_spec (hg : Geometry v.superblock) :
    (∃ k < dataBlocks v.superblock, Volume.bit v.bitmapBuf k = false ∧
        v.bitmapAlloc = some (some (dataBlock v.superblock k), v.taken k)) ∨
      (∀ k < dataBlocks v.superblock, Volume.bit v.bitmapBuf k = true) ∧
        v.bitmapAlloc = some (none, v) := by
  have hfew := hg.few
  have hsub : (v.superblock.totalBlocks - v.superblock.dataStart).toNat =
      dataBlocks v.superblock := UInt32.toNat_sub_of_le _ _ hg.fits
  have hbytes : ((v.superblock.totalBlocks - v.superblock.dataStart + 7) / 8).toNat =
      (dataBlocks v.superblock + 7) / 8 := by
    have hadd : (v.superblock.totalBlocks - v.superblock.dataStart + 7).toNat =
        dataBlocks v.superblock + 7 := by
      rw [UInt32.toNat_add, hsub]
      exact Nat.mod_eq_of_lt (by show _ + 7 < 2 ^ 32; omega)
    rw [UInt32.toNat_div, hadd]
    rfl
  unfold Volume.bitmapAlloc
  dsimp only
  rw [hbytes]
  rcases allocFrom_spec hg (n := (dataBlocks v.superblock + 7) / 8) (i := 0)
    (by show _ ≤ 4096; omega) with
    hfound | ⟨hall, hnone⟩
  · exact .inl hfound
  · exact .inr ⟨fun k hk => hall k hk (Nat.zero_le _) (by omega), hnone⟩

theorem bitmapFree_spec (hg : Geometry v.superblock) (hb : InData v.superblock b) :
    v.bitmapFree b = some (v.freed (b.toNat - v.superblock.dataStart.toNat)) := by
  have hsub : (b - v.superblock.dataStart).toNat = b.toNat - v.superblock.dataStart.toNat :=
    UInt32.toNat_sub_of_le _ _ hb.1
  have hlt := hb.index_lt
  have hfew := hg.few
  have hbyte : (b.toNat - v.superblock.dataStart.toNat) / 8 < bitmapBufSize := by
    show _ < 4096
    omega
  unfold Volume.bitmapFree Volume.bitmapSet
  rw [if_pos hb.1, if_neg (UInt32.not_lt.mpr hb.1), hsub, if_pos hbyte]
  rfl

/-! ## the counter -/

/-- `free_blocks` is the number of data blocks whose bit is clear -/
def Volume.Counted (v : Volume) : Prop :=
  v.superblock.freeBlocks.toNat = clearCount (Volume.bit v.bitmapBuf) (dataBlocks v.superblock)

theorem counted_taken (h : v.Counted) (hk : k < dataBlocks v.superblock)
    (hclear : Volume.bit v.bitmapBuf k = false) : (v.taken k).Counted := by
  have hset : clearCount (Volume.bit v.bitmapBuf) (dataBlocks v.superblock) =
      clearCount (Volume.bit (Volume.assignBufBit v.bitmapBuf k true)) (dataBlocks v.superblock) +
        1 :=
    clearCount_set hk hclear (by rw [bit_assignBufBit, if_pos rfl])
      fun j hj => by rw [bit_assignBufBit, if_neg hj]
  show (v.superblock.freeBlocks - 1).toNat =
    clearCount (Volume.bit (Volume.assignBufBit v.bitmapBuf k true)) (dataBlocks v.superblock)
  have hone : (1 : UInt32) ≤ v.superblock.freeBlocks := by
    rw [UInt32.le_iff_toNat_le, h, hset]
    exact Nat.le_add_left 1 _
  rw [UInt32.toNat_sub_of_le _ _ hone, h, hset]
  rfl

theorem counted_freed (hg : Geometry v.superblock) (h : v.Counted)
    (hk : k < dataBlocks v.superblock) (hset : Volume.bit v.bitmapBuf k = true) :
    (v.freed k).Counted := by
  have hclear : clearCount (Volume.bit (Volume.assignBufBit v.bitmapBuf k false))
      (dataBlocks v.superblock) =
        clearCount (Volume.bit v.bitmapBuf) (dataBlocks v.superblock) + 1 :=
    clearCount_set hk (by rw [bit_assignBufBit, if_pos rfl]) hset
      fun j hj => by rw [bit_assignBufBit, if_neg hj]
  have hfew := hg.few
  have hle : clearCount (Volume.bit v.bitmapBuf) (dataBlocks v.superblock) ≤
      dataBlocks v.superblock := List.countP_le_length.trans_eq List.length_range
  show (v.superblock.freeBlocks + 1).toNat =
    clearCount (Volume.bit (Volume.assignBufBit v.bitmapBuf k false)) (dataBlocks v.superblock)
  rw [hclear, UInt32.toNat_add, h]
  exact Nat.mod_eq_of_lt (by show _ + 1 < 2 ^ 32; omega)

end Fs
end EkKor
