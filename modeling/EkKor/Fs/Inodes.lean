import EkKor.Fs.Layout

/-!
# The inode table

`inode_read` and `inode_write` on the blocks of a partition whose reads and writes do not fail.
Both go through a buffer of one block, and eight inodes of 92 bytes do not fit into one.

* `inodeRead`, `inodeWrite`   `none` when they leave the buffer;
* `InodeLaws`                 what is written is read back, and nothing else is touched;
* `inode_laws_iff`            the laws hold for two inodes exactly when both are among the first five
                              of their blocks;
* `sixth_inode`               inode 5 does not fit.
-/

namespace EkKor
namespace Fs
open Function

/-! ## reading and writing -/

/-- `memcpy` from the block buffer -/
def copyOut (buf : Block) (offset len : Nat) : Option (List UInt8) :=
  if offset + len ≤ blockSize then some (slice buf offset len) else none

/-- `memcpy` into the block buffer -/
def copyIn (buf : Block) (offset : Nat) (bytes : List UInt8) : Option Block :=
  if offset + bytes.length ≤ blockSize then some (splice buf offset bytes) else none

def inodeBlock (sb : Superblock) (inodeNum : UInt32) : UInt32 :=
  sb.inodeStart + inodeNum / inodesPerBlock

def inodeOffset (inodeNum : UInt32) : Nat := (inodeNum % inodesPerBlock).toNat * Inode.layout.size

/-- `inode_read` -/
def inodeRead (sb : Superblock) (disk : UInt32 → Block) (inodeNum : UInt32) :
    Option (Except FsErr Inode) :=
  if inodeNum ≥ sb.inodeCount then some (.error .invalid)
  else
    (copyOut (disk (inodeBlock sb inodeNum)) (inodeOffset inodeNum) Inode.layout.size).map
      fun bytes => .ok (Inode.layout.decode bytes)

/-- `inode_write` -/
def inodeWrite (sb : Superblock) (disk : UInt32 → Block) (inodeNum : UInt32) (inode : Inode) :
    Option (Except FsErr Unit × (UInt32 → Block)) :=
  if inodeNum ≥ sb.inodeCount then some (.error .invalid, disk)
  else
    (copyIn (disk (inodeBlock sb inodeNum)) (inodeOffset inodeNum) (Inode.layout.encode inode)).map
      fun buf => (.ok (), update disk (inodeBlock sb inodeNum) buf)

/-! ## the laws -/

/-- `inode_write` of inode `n` and `inode_read` of inodes `n` and `m` stay in the buffer, what is
written is read back, the other inode and the other blocks stay, and no other block matters -/
structure InodeLaws (sb : Superblock) (disk : UInt32 → Block) (m n : UInt32) (x : Inode) :
    Prop where
  laws : ∃ disk', inodeWrite sb disk n x = some (.ok (), disk') ∧
    inodeRead sb disk' n = some (.ok x) ∧
    (m ≠ n → ∃ y, inodeRead sb disk m = some (.ok y) ∧ inodeRead sb disk' m = some (.ok y)) ∧
    ∀ b, b ≠ inodeBlock sb n → disk' b = disk b
  /-- what is written and read depends on the block of the inode only -/
  confined : ∀ other, other (inodeBlock sb n) = disk (inodeBlock sb n) →
    inodeRead sb other n = inodeRead sb disk n ∧
      ∃ disk' other', inodeWrite sb disk n x = some (.ok (), disk') ∧
        inodeWrite sb other n x = some (.ok (), other') ∧
        other' (inodeBlock sb n) = disk' (inodeBlock sb n)

variable {sb : Superblock} {disk : UInt32 → Block} {m n : UInt32}

theorem offset_le_iff (n : UInt32) : inodeOffset n + 92 ≤ blockSize ↔ n % inodesPerBlock < 5 := by
  show (n % inodesPerBlock).toNat * 92 + 92 ≤ 512 ↔ (n % inodesPerBlock).toNat < 5
  omega

theorem inodeRead_eq (hn : n < sb.inodeCount) (h : n % inodesPerBlock < 5) :
    inodeRead sb disk n =
      some (.ok (Inode.layout.decode (slice (disk (inodeBlock sb n)) (inodeOffset n) 92))) := by
  unfold inodeRead copyOut
  rw [if_neg (UInt32.not_le.mpr hn), inode_size, if_pos ((offset_le_iff n).mpr h)]
  rfl

theorem inodeWrite_eq (hn : n < sb.inodeCount) (h : n % inodesPerBlock < 5) (x : Inode) :
    inodeWrite sb disk n x =
      some (.ok (), update disk (inodeBlock sb n)
        (splice (disk (inodeBlock sb n)) (inodeOffset n) (Inode.layout.encode x))) := by
  unfold inodeWrite copyIn
  rw [if_neg (UInt32.not_le.mpr hn), Inode.layout.length_encode, inode_size,
    if_pos ((offset_le_iff n).mpr h)]
  rfl

theorem inodeRead_outside (hn : n < sb.inodeCount) (h : ¬ n % inodesPerBlock < 5) :
    inodeRead sb disk n = none := by
  unfold inodeRead copyOut
  rw [if_neg (UInt32.not_le.mpr hn), inode_size, if_neg (mt (offset_le_iff n).mp h)]
  rfl

theorem inodeWrite_outside (hn : n < sb.inodeCount) (h : ¬ n % inodesPerBlock < 5) (x : Inode) :
    inodeWrite sb disk n x = none := by
  unfold inodeWrite copyIn
  rw [if_neg (UInt32.not_le.mpr hn), Inode.layout.length_encode, inode_size,
    if_neg (mt (offset_le_iff n).mp h)]
  rfl

theorem offsets_apart (hne : m ≠ n) (hblock : inodeBlock sb m = inodeBlock sb n) :
    inodeOffset m + 92 ≤ inodeOffset n ∨ inodeOffset n + 92 ≤ inodeOffset m := by
  have hdiv : m / inodesPerBlock = n / inodesPerBlock := UInt32.add_right_inj sb.inodeStart |>.mp hblock
  have hdiv' : m.toNat / 8 = n.toNat / 8 := congrArg UInt32.toNat hdiv
  have hne' : m.toNat ≠ n.toNat := fun h => hne (UInt32.toNat_inj.mp h)
  show m.toNat % 8 * 92 + 92 ≤ n.toNat % 8 * 92 ∨ n.toNat % 8 * 92 + 92 ≤ m.toNat % 8 * 92
  omega

theorem inodeLaws_of_fit (hm : m < sb.inodeCount) (hn : n < sb.inodeCount)
    (hm5 : m % inodesPerBlock < 5) (hn5 : n % inodesPerBlock < 5) (x : Inode) :
    InodeLaws sb disk m n x := by
  have hlen : (Inode.layout.encode x).length = 92 := Inode.layout.length_encode x
  have hfit : inodeOffset n + (Inode.layout.encode x).length ≤ blockSize := by
    rw [hlen]
    exact (offset_le_iff n).mpr hn5
  refine ⟨⟨_, inodeWrite_eq hn hn5 x, ?_, fun hne => ?_, fun b hb => update_of_ne hb ..⟩,
    fun other hother => ⟨?_, _, _, inodeWrite_eq hn hn5 x, inodeWrite_eq hn hn5 x, ?_⟩⟩
  · rw [inodeRead_eq hn hn5, update_self, ← hlen, slice_splice _ hfit,
      Inode.layout.decode_encode]
  · refine ⟨_, inodeRead_eq hm hm5, ?_⟩
    rw [inodeRead_eq hm hm5]
    by_cases hblock : inodeBlock sb m = inodeBlock sb n
    · rw [hblock, update_self, slice_splice_of_disjoint _ ((offset_le_iff m).mpr hm5)
        (by rw [hlen]; exact offsets_apart hne hblock)]
    · rw [update_of_ne hblock]
  · rw [inodeRead_eq hn hn5, inodeRead_eq hn hn5, hother]
  · rw [update_self, update_self, hother]

/-- **Main.** For every inode number `m` and `n` and every value of inode `n`, the inodes are
independent cells of an array exactly when both lie among the first five of their blocks. -/
theorem inode_laws_iff (hm : m < sb.inodeCount) (hn : n < sb.inodeCount) (x : Inode) :
    InodeLaws sb disk m n x ↔ m % inodesPerBlock < 5 ∧ n % inodesPerBlock < 5 := by
  constructor
  · rintro ⟨⟨disk', hwrite, _, hother, _⟩, _⟩
    have hn5 : n % inodesPerBlock < 5 := by
      by_contra hn5
      rw [inodeWrite_outside hn hn5] at hwrite
      cases hwrite
    refine ⟨?_, hn5⟩
    by_contra hm5
    have hne : m ≠ n := by
      rintro rfl
      exact hm5 hn5
    obtain ⟨y, hread, _⟩ := hother hne
    rw [inodeRead_outside hm hm5] at hread
    cases hread
  · exact fun h => inodeLaws_of_fit hm hn h.1 h.2 x

def sixteenInodes : Superblock :=
  { magic := magic
    version := version
    blockSize := 512
    totalBlocks := 64
    inodeCount := 16
    inodeStart := 1
    bitmapStart := 3
    journalStart := 4
    dataStart := 8
    freeBlocks := 56
    mountTime := 0
    mountCount := 1
    crc32 := 0
    reserved := Vector.replicate 456 0 }

theorem inode_laws_iff_three :
    InodeLaws sixteenInodes (fun _ => zeroBlock) 4 11 Inode.zero :=
  (inode_laws_iff (by decide) (by decide) _).mpr ⟨by decide, by decide⟩

/-- inode 5 would end at byte 552 of a buffer of 512 bytes -/
theorem sixth_inode :
    inodeWrite sixteenInodes (fun _ => zeroBlock) 5 Inode.zero = none ∧
      ¬ InodeLaws sixteenInodes (fun _ => zeroBlock) 0 5 Inode.zero := by
  have hwrite : inodeWrite sixteenInodes (fun _ => zeroBlock) 5 Inode.zero = none :=
    inodeWrite_outside (by decide) (by decide) _
  refine ⟨hwrite, fun h => ?_⟩
  obtain ⟨_, h, _⟩ := h.laws
  cases h

end Fs
end EkKor
