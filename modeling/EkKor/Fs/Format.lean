import EkKor.Fs.Volume

/-!
# The layout of a new volume (`ekkfs_format`, `ekkfs_mount`)

* `formatSuperblock`   the superblock that `ekkfs_format` writes;
* `mountSuperblock`    what `ekkfs_mount` makes of it;
* `JustMounted`        a volume that has been formatted and mounted;
* `Sized`              the partition holds its metadata, and the size of the bitmap does not
                       overflow.
-/

namespace EkKor
namespace Fs

/-! ## superblocks -/

def Superblock.sealed (sb : Superblock) : Superblock :=
  { sb with crc32 := Fs.crc32 ((Superblock.layout.encode sb).take 52) }

abbrev bitmapBlockBits : UInt32 := 4096

/-- `inode_blocks` in `ekkfs_format`; the default stands for no inodes -/
def formatInodeBlocks (inodeCount : UInt32) : UInt32 :=
  let inodeCount := if inodeCount = 0 then defaultInodes else inodeCount
  (inodeCount + inodesPerBlock - 1) / inodesPerBlock

/-- `bitmap_blocks` in `ekkfs_format`, reckoned with one bitmap block -/
def formatBitmapBlocks (totalBlocks inodeBlocks : UInt32) : UInt32 :=
  let dataBlocks := totalBlocks - 1 - inodeBlocks - 1 - journalBlocks
  (dataBlocks + bitmapBlockBits - 1) / bitmapBlockBits

/-- the superblock of `ekkfs_format` -/
def formatSuperblock (totalBlocks inodeCount : UInt32) (now : UInt64) : Superblock :=
  let inodeBlocks := formatInodeBlocks inodeCount
  let bitmapBlocks := formatBitmapBlocks totalBlocks inodeBlocks
  let bitmapStart := 1 + inodeBlocks
  let journalStart := bitmapStart + bitmapBlocks
  Superblock.sealed
    { magic := magic
      version := version
      blockSize := 512
      totalBlocks := totalBlocks
      inodeCount := if inodeCount = 0 then defaultInodes else inodeCount
      inodeStart := 1
      bitmapStart := bitmapStart
      journalStart := journalStart
      dataStart := journalStart + journalBlocks
      freeBlocks := totalBlocks - 1 - inodeBlocks - bitmapBlocks - journalBlocks
      mountTime := now
      mountCount := 0
      crc32 := 0
      reserved := Vector.replicate 456 0 }

/-- `g_fs.bitmap_blocks` in `ekkfs_mount` -/
def mountBitmapBlocks (sb : Superblock) : UInt32 :=
  (sb.totalBlocks - sb.dataStart + bitmapBlockBits - 1) / bitmapBlockBits

/-- the superblock that `ekkfs_mount` writes back -/
def mountSuperblock (sb : Superblock) (now : UInt64) : Superblock :=
  Superblock.sealed { sb with mountCount := sb.mountCount + 1, mountTime := now }

/-- the volume has been formatted with `totalBlocks` blocks and `inodeCount` inodes, and mounted;
the data blocks have any content -/
structure JustMounted (totalBlocks inodeCount : UInt32) (v : Volume) : Prop where
  superblock : ∃ formatted mounted, v.superblock =
    mountSuperblock (formatSuperblock totalBlocks inodeCount formatted) mounted
  bitmapBlocks : v.bitmapBlocks = mountBitmapBlocks v.superblock
  /-- the check of `ekkfs_mount` -/
  few : v.bitmapBlocks ≤ maxBitmapBlocks
  bitmap : ∀ k < v.superblock.totalBlocks.toNat - v.superblock.dataStart.toNat,
    Volume.bit v.bitmapBuf k = false
  inodes : ∀ n, v.inodes n = Inode.zero

/-- the partition holds its metadata, and the number of bitmap blocks does not overflow -/
def Sized (sb : Superblock) : Prop :=
  sb.dataStart ≤ sb.totalBlocks ∧ sb.totalBlocks.toNat - sb.dataStart.toNat + 4095 < 2 ^ 32

/-! ## the layout in numbers -/

/-- the superblock of `ekkfs_format` in numbers, with `ib` blocks of inodes and `bb` blocks of the
bitmap -/
structure FormatLayout (totalBlocks : UInt32) (sb : Superblock) (ib bb : Nat) : Prop where
  few : ib < 2 ^ 29
  bitmapBlocks : bb =
    (((totalBlocks.toNat + 4 * 2 ^ 32 - 6 - ib) % 2 ^ 32 + 4096) % 2 ^ 32 + (2 ^ 32 - 1)) %
      2 ^ 32 / 4096
  total : sb.totalBlocks = totalBlocks
  inodeStart : sb.inodeStart = 1
  bitmapStart : sb.bitmapStart.toNat = 1 + ib
  journalStart : sb.journalStart.toNat = 1 + ib + bb
  dataStart : sb.dataStart.toNat = 1 + ib + bb + 4
  free : sb.freeBlocks.toNat = (totalBlocks.toNat + 4 * 2 ^ 32 - 5 - ib - bb) % 2 ^ 32

theorem format_layout (totalBlocks inodeCount : UInt32) (now : UInt64) :
    FormatLayout totalBlocks (formatSuperblock totalBlocks inodeCount now)
      (formatInodeBlocks inodeCount).toNat
      (formatBitmapBlocks totalBlocks (formatInodeBlocks inodeCount)).toNat := by
  have hib' : (formatInodeBlocks inodeCount).toNat < 2 ^ 29 := by
    have hlt := ((if inodeCount = 0 then defaultInodes else inodeCount) +
      inodesPerBlock - 1).toNat_lt
    show _ / 8 < _
    omega
  have hstart : (formatSuperblock totalBlocks inodeCount now).bitmapStart =
      1 + formatInodeBlocks inodeCount := rfl
  have hjournal : (formatSuperblock totalBlocks inodeCount now).journalStart =
      1 + formatInodeBlocks inodeCount +
        formatBitmapBlocks totalBlocks (formatInodeBlocks inodeCount) := rfl
  have hdata : (formatSuperblock totalBlocks inodeCount now).dataStart =
      1 + formatInodeBlocks inodeCount +
        formatBitmapBlocks totalBlocks (formatInodeBlocks inodeCount) + journalBlocks := rfl
  have hfree : (formatSuperblock totalBlocks inodeCount now).freeBlocks =
      totalBlocks - 1 - formatInodeBlocks inodeCount -
        formatBitmapBlocks totalBlocks (formatInodeBlocks inodeCount) - journalBlocks := rfl
  generalize formatInodeBlocks inodeCount = ib at *
  generalize hbb : formatBitmapBlocks totalBlocks ib = bb at *
  have hest : (totalBlocks - 1 - ib - 1 - journalBlocks).toNat =
      (totalBlocks.toNat + 4 * 2 ^ 32 - 6 - ib.toNat) % 2 ^ 32 := by
    show (2 ^ 32 - 4 + (2 ^ 32 - 1 + (2 ^ 32 - ib.toNat + (2 ^ 32 - 1 + totalBlocks.toNat) % 2 ^ 32)
      % 2 ^ 32) % 2 ^ 32) % 2 ^ 32 = _
    omega
  have hbb' : bb.toNat =
      (((totalBlocks.toNat + 4 * 2 ^ 32 - 6 - ib.toNat) % 2 ^ 32 + 4096) % 2 ^ 32 +
        (2 ^ 32 - 1)) % 2 ^ 32 / 4096 := by
    unfold formatBitmapBlocks at hbb
    rw [← hbb, UInt32.toNat_div, UInt32.toNat_sub, UInt32.toNat_add, hest]
    show (2 ^ 32 - 1 + (_ + 4096) % 2 ^ 32) % 2 ^ 32 / 4096 = _
    omega
  refine ⟨hib', hbb', rfl, rfl, ?_, ?_, ?_, ?_⟩
  · rw [hstart, UInt32.toNat_add]
    show (1 + ib.toNat) % 2 ^ 32 = _
    omega
  · rw [hjournal, UInt32.toNat_add, UInt32.toNat_add]
    show ((1 + ib.toNat) % 2 ^ 32 + bb.toNat) % 2 ^ 32 = _
    omega
  · rw [hdata, UInt32.toNat_add, UInt32.toNat_add, UInt32.toNat_add]
    show (((1 + ib.toNat) % 2 ^ 32 + bb.toNat) % 2 ^ 32 + 4) % 2 ^ 32 = _
    omega
  · rw [hfree, UInt32.toNat_sub, UInt32.toNat_sub, UInt32.toNat_sub, UInt32.toNat_sub]
    show (2 ^ 32 - 4 + (2 ^ 32 - bb.toNat + (2 ^ 32 - ib.toNat + (2 ^ 32 - 1 + totalBlocks.toNat)
      % 2 ^ 32) % 2 ^ 32) % 2 ^ 32) % 2 ^ 32 = _
    omega

variable {sb : Superblock} {totalBlocks : UInt32}

/-- the blocks of the bitmap that `ekkfs_mount` reckons with -/
theorem mountBitmapBlocks_toNat (hfits : sb.dataStart ≤ sb.totalBlocks)
    (hsize : sb.totalBlocks.toNat - sb.dataStart.toNat + 4095 < 2 ^ 32) :
    (mountBitmapBlocks sb).toNat = (sb.totalBlocks.toNat - sb.dataStart.toNat + 4095) / 4096 := by
  unfold mountBitmapBlocks
  rw [UInt32.toNat_div, UInt32.toNat_sub, UInt32.toNat_add, UInt32.toNat_sub_of_le _ _ hfits]
  show (2 ^ 32 - 1 + (_ + 4096) % 2 ^ 32) % 2 ^ 32 / 4096 = _
  omega

/-- where the parts of a new volume lie -/
structure Laid (sb : Superblock) : Prop where
  pos : 0 < sb.dataStart.toNat
  small : sb.dataStart.toNat < 2 ^ 30
  bitmap : sb.bitmapStart.toNat + (mountBitmapBlocks sb).toNat ≤ sb.dataStart.toNat
  few : sb.totalBlocks.toNat - sb.dataStart.toNat ≤ 32768
  free : sb.freeBlocks.toNat = sb.totalBlocks.toNat - sb.dataStart.toNat

theorem FormatLayout.mount {ib bb : Nat} (h : FormatLayout totalBlocks sb ib bb) (now : UInt64) :
    FormatLayout totalBlocks (mountSuperblock sb now) ib bb :=
  ⟨h.few, h.bitmapBlocks, h.total, h.inodeStart, h.bitmapStart, h.journalStart, h.dataStart, h.free⟩

theorem mount_layout {inodeCount : UInt32} {formatted mounted : UInt64}
    (h : sb = mountSuperblock (formatSuperblock totalBlocks inodeCount formatted) mounted)
    (hfew : mountBitmapBlocks sb ≤ maxBitmapBlocks) (hsize : Sized sb) : Laid sb := by
  obtain ⟨hfits, hsize⟩ := hsize
  have hfits' := UInt32.le_iff_toNat_le.mp hfits
  have hfew' : (mountBitmapBlocks sb).toNat ≤ 8 := UInt32.le_iff_toNat_le.mp hfew
  have hblocks := mountBitmapBlocks_toNat hfits hsize
  have hlayout := (format_layout totalBlocks inodeCount formatted).mount mounted
  rw [← h] at hlayout
  obtain ⟨hib, hbb, htotal, _, hstart, _, hdata, hfree⟩ := hlayout
  generalize (formatInodeBlocks inodeCount).toNat = ib at *
  generalize (formatBitmapBlocks _ _).toNat = bb at *
  rw [htotal] at hfits' hblocks hsize
  refine ⟨by omega, by omega, ?_, by rw [htotal]; omega, ?_⟩
  · -- `ekkfs_format` reckons with one bitmap block, `ekkfs_mount` with all of them
    obtain ⟨d, hd⟩ := Nat.exists_eq_add_of_le hfits'
    have hest : (totalBlocks.toNat + 4 * 2 ^ 32 - 6 - ib) % 2 ^ 32 =
        if d + bb = 0 then 2 ^ 32 - 1 else d + bb - 1 := by
      split_ifs with hzero
      · omega
      · omega
    rw [hest] at hbb
    split_ifs at hbb with hzero
    · omega
    · have hbb' : bb = (d + bb + 4094) / 4096 := by omega
      omega
  · rw [hfree, htotal]
    omega

end Fs
end EkKor
