import EkKor.Fs.Inodes
import EkKor.Fs.Transparency

/-!
# A new volume on the card

What `ekkfs_format` leaves on the card, and what the next `ekkfs_mount` makes of it.

* `Regions`              the regions of a volume follow one another inside of the partition;
* `Formattable`          the partition holds the tables and a data block, and eight blocks of bitmap
                         are enough;
* `format_disk`          the blocks of a new volume;
* `Mountable`            the volume has its regions, and a mount finds it empty;
* `mountable_iff`        this is so exactly for the sizes of `Formattable`;
* `format_large`         a partition of 32 MB is formatted, and cannot be mounted.
-/

namespace EkKor
namespace Fs
open Mirror

/-! ## regions -/

/-- the regions follow one another, none is empty, all lie in the partition, each inode has its place
and each data block its bit -/
structure Regions (sb : Superblock) : Prop where
  start : 1 ≤ sb.inodeStart.toNat
  inodes : sb.inodeStart < sb.bitmapStart
  held : ∀ n < sb.inodeCount, sb.inodeStart.toNat + n.toNat / 8 < sb.bitmapStart.toNat
  bitmap : sb.bitmapStart < sb.journalStart
  bits : sb.totalBlocks.toNat - sb.dataStart.toNat ≤
    4096 * (sb.journalStart.toNat - sb.bitmapStart.toNat)
  journal : sb.journalStart.toNat + 4 ≤ sb.dataStart.toNat
  data : sb.dataStart < sb.totalBlocks

def formatInodes (inodeCount : UInt32) : Nat :=
  (if inodeCount = 0 then defaultInodes else inodeCount).toNat

/-- the partition holds its tables and a data block, and at most as many data blocks as eight blocks
of the bitmap have bits; the number of inodes does not overflow -/
structure Formattable (totalBlocks inodeCount : UInt32) : Prop where
  inodes : formatInodes inodeCount + 8 ≤ 2 ^ 32
  room : (formatInodes inodeCount + 7) / 8 + 7 ≤ totalBlocks.toNat
  few : totalBlocks.toNat ≤ (formatInodes inodeCount + 7) / 8 + 32782

variable {totalBlocks inodeCount : UInt32} {now : UInt64}

theorem formatInodeBlocks_toNat (inodeCount : UInt32) : (formatInodeBlocks inodeCount).toNat =
    if formatInodes inodeCount + 8 ≤ 2 ^ 32 then (formatInodes inodeCount + 7) / 8 else 0 := by
  unfold formatInodeBlocks formatInodes
  generalize (if inodeCount = 0 then defaultInodes else inodeCount) = n
  have hn := n.toNat_lt
  show (2 ^ 32 - 1 + (n.toNat + 8) % 2 ^ 32) % 2 ^ 32 / 8 = _
  split_ifs with h
  · omega
  · omega

theorem formatInodes_pos (inodeCount : UInt32) : 0 < formatInodes inodeCount := by
  unfold formatInodes
  split_ifs with h
  · decide
  · exact Nat.pos_of_ne_zero fun hzero => h (UInt32.toNat_inj.mp hzero)

variable {sb : Superblock} {ib bb : Nat} {mountTime : UInt64}

theorem FormatLayout.rounds (h : FormatLayout totalBlocks sb ib bb)
    (hroom : ib + 6 ≤ totalBlocks.toNat) :
    totalBlocks.toNat - (ib + 6) + 4096 < 2 ^ 32 ∧ bb = (totalBlocks.toNat - (ib + 6) + 4095) / 4096 ∨
      2 ^ 32 ≤ totalBlocks.toNat - (ib + 6) + 4096 ∧ (bb = 0 ∨ bb = 2 ^ 20 - 1) := by
  have hbb := h.bitmapBlocks
  have hlt := totalBlocks.toNat_lt
  obtain ⟨d, hd⟩ := Nat.exists_eq_add_of_le hroom
  have hd' : totalBlocks.toNat - (ib + 6) = d := by omega
  rw [hd']
  by_cases hwrap : d + 4096 < 2 ^ 32
  · exact .inl ⟨hwrap, by omega⟩
  · exact .inr ⟨by omega, by omega⟩

theorem Formattable.regions (h : Formattable totalBlocks inodeCount) (now : UInt64) :
    Regions (formatSuperblock totalBlocks inodeCount now) ∧
      mountBitmapBlocks (formatSuperblock totalBlocks inodeCount now) ≤ maxBitmapBlocks := by
  have hlayout := format_layout totalBlocks inodeCount now
  have hpos := formatInodes_pos inodeCount
  have hblocks := formatInodeBlocks_toNat inodeCount
  rw [if_pos h.inodes] at hblocks
  have hroom := h.room
  have hfew := h.few
  have hheld (n : UInt32) (hn : n < (formatSuperblock totalBlocks inodeCount now).inodeCount) :
      n.toNat / 8 < (formatInodes inodeCount + 7) / 8 := by
    have hlt : n.toNat < formatInodes inodeCount := UInt32.lt_iff_toNat_lt.mp hn
    omega
  generalize formatSuperblock totalBlocks inodeCount now = sb at *
  generalize (formatInodeBlocks inodeCount).toNat = ib at *
  obtain ⟨_, _, htotal, hinode, hbitmap, hjournal, hdata, _⟩ := hlayout
  have hfits : sb.dataStart < sb.totalBlocks := by
    rw [UInt32.lt_iff_toNat_lt, htotal]
    omega
  refine ⟨⟨by rw [hinode]; decide, ?_, fun n hn => ?_, ?_, ?_, by omega, hfits⟩, ?_⟩
  · rw [UInt32.lt_iff_toNat_lt, hinode, hbitmap]
    show 1 < 1 + ib
    omega
  · rw [hinode, hbitmap]
    have hlt := hheld n hn
    show 1 + n.toNat / 8 < 1 + ib
    omega
  · rw [UInt32.lt_iff_toNat_lt]
    omega
  · rw [htotal]
    omega
  · rw [UInt32.le_iff_toNat_le, mountBitmapBlocks_toNat (UInt32.le_of_lt hfits)
      (by rw [htotal]; omega), htotal]
    show _ ≤ 8
    omega

/-- the bitmap that `ekkfs_mount` loads has a bit for each data block, and lies in its region -/
theorem Regions.loads (h : Regions sb) (hlayout : FormatLayout totalBlocks sb ib bb) :
    sb.totalBlocks.toNat - sb.dataStart.toNat ≤ 4096 * (mountBitmapBlocks sb).toNat ∧
      (mountBitmapBlocks sb).toNat ≤ bb := by
  have hrounds := hlayout.rounds
  obtain ⟨_, _, htotal, _, hbitmap, hjournal, hdata, _⟩ := hlayout
  have hbits := h.bits
  have hfits := UInt32.lt_iff_toNat_lt.mp h.data
  rw [htotal] at hbits hfits
  have hsize : totalBlocks.toNat - sb.dataStart.toNat + 4095 < 2 ^ 32 := by
    rcases hrounds (by omega) with ⟨hsmall, _⟩ | ⟨_, rfl | rfl⟩
    · omega
    · omega
    · omega
  have hblocks := mountBitmapBlocks_toNat (UInt32.le_of_lt h.data) (by rw [htotal]; exact hsize)
  rw [hblocks, htotal]
  exact ⟨by omega, by omega⟩

theorem formattable_of_regions
    (h : Regions (formatSuperblock totalBlocks inodeCount now))
    (hfew : mountBitmapBlocks (formatSuperblock totalBlocks inodeCount now) ≤ maxBitmapBlocks) :
    Formattable totalBlocks inodeCount := by
  have hlayout := format_layout totalBlocks inodeCount now
  have hblocks := formatInodeBlocks_toNat inodeCount
  obtain ⟨_, hinodes, _, hbits, hbitCount, _, hfits⟩ := h
  generalize formatSuperblock totalBlocks inodeCount now = sb at *
  generalize (formatInodeBlocks inodeCount).toNat = ib at *
  generalize (formatBitmapBlocks _ _).toNat = bb at *
  have hrounds := hlayout.rounds
  obtain ⟨_, _, htotal, hinode, hbitmap, hjournal, hdata, _⟩ := hlayout
  rw [UInt32.lt_iff_toNat_lt, hinode] at hinodes
  change 1 < _ at hinodes
  rw [UInt32.lt_iff_toNat_lt] at hbits
  have hfits' := UInt32.lt_iff_toNat_lt.mp hfits
  rw [htotal] at hbitCount hfits'
  have hone : formatInodes inodeCount + 8 ≤ 2 ^ 32 := by
    by_contra hmany
    rw [if_neg hmany] at hblocks
    omega
  rw [if_pos hone] at hblocks
  have hblocks' : totalBlocks.toNat - sb.dataStart.toNat + 4095 < 2 ^ 32 →
      (totalBlocks.toNat - sb.dataStart.toNat + 4095) / 4096 ≤ 8 := by
    intro hsize
    rw [UInt32.le_iff_toNat_le, mountBitmapBlocks_toNat (UInt32.le_of_lt hfits)
      (by rw [htotal]; exact hsize), htotal] at hfew
    exact hfew
  have hroom : ib + 6 ≤ totalBlocks.toNat := by omega
  rcases hrounds hroom with ⟨hsmall, hbb⟩ | ⟨_, rfl | rfl⟩
  · exact ⟨hone, by omega, by omega⟩
  · omega
  · omega

/-! ## structures in blocks -/

theorem getElem_bytesOf (block : Block) {i : Nat} (hi : i < blockSize)
    (h : i < (bytesOf block).length) : (bytesOf block)[i] = block ⟨i, hi⟩ := by
  simp only [bytesOf, List.getElem_ofFn]

theorem bytesOf_blockOf {bytes : List UInt8} (h : bytes.length = blockSize) :
    bytesOf (blockOf bytes) = bytes := by
  refine List.ext_getElem (List.length_ofFn.trans h.symm) fun i hi hi' => ?_
  have hlt : i < blockSize := Nat.lt_of_lt_of_eq hi' h
  rw [getElem_bytesOf _ hlt]
  exact List.getD_eq_getElem _ _ hi'

theorem decode_superblock (sb : Superblock) :
    Superblock.layout.decode (bytesOf (blockOf (Superblock.layout.encode sb))) = sb := by
  rw [bytesOf_blockOf (Superblock.layout.length_encode sb), Superblock.layout.decode_encode]

theorem take_sealed (sb : Superblock) :
    (Superblock.layout.encode sb.sealed).take 52 = (Superblock.layout.encode sb).take 52 := by
  have hsplit (sb : Superblock) : ∃ tail, Superblock.layout.encode sb =
      ((Packed.u32.array 10).encode (#v[sb.magic, sb.version, sb.blockSize, sb.totalBlocks,
        sb.inodeCount, sb.inodeStart, sb.bitmapStart, sb.journalStart, sb.dataStart,
        sb.freeBlocks]) ++ (Packed.u64.encode sb.mountTime ++ Packed.u32.encode sb.mountCount)) ++
        tail :=
    ⟨_, by
      show _ ++ (_ ++ (_ ++ _)) = _
      rw [List.append_assoc, List.append_assoc]⟩
  have hlen (sb : Superblock) : ((Packed.u32.array 10).encode (#v[sb.magic, sb.version,
      sb.blockSize, sb.totalBlocks, sb.inodeCount, sb.inodeStart, sb.bitmapStart, sb.journalStart,
      sb.dataStart, sb.freeBlocks]) ++
        (Packed.u64.encode sb.mountTime ++ Packed.u32.encode sb.mountCount)).length = 52 := by
    rfl
  obtain ⟨tail, htail⟩ := hsplit sb.sealed
  obtain ⟨tail', htail'⟩ := hsplit sb
  rw [htail, htail', List.take_left' (hlen sb.sealed), List.take_left' (hlen sb)]
  rfl

/-- `ekkfs_mount` accepts what `ekkfs_format` writes -/
theorem validSuperblock_sealed (hmagic : sb.magic = magic) (hversion : sb.version = version) :
    System.validSuperblock (blockOf (Superblock.layout.encode sb.sealed)) = true := by
  unfold System.validSuperblock
  rw [decode_superblock, bytesOf_blockOf (Superblock.layout.length_encode _), take_sealed]
  exact decide_eq_true ⟨hmagic, hversion, rfl⟩

theorem headerOf_empty :
    (headerOf (blockOf (JournalHeader.layout.encode JournalHeader.empty))).magic = journalMagic ∧
      crc32 ((bytesOf (blockOf (JournalHeader.layout.encode JournalHeader.empty))).take 32) =
        (headerOf (blockOf (JournalHeader.layout.encode JournalHeader.empty))).crc32 ∧
      (headerOf (blockOf (JournalHeader.layout.encode JournalHeader.empty))).txActive = 0 := by
  decide +kernel

/-! ## what the format writes -/

/-- the blocks of the partition that starts at `p` -/
def partition (disk : UInt32 → Block) (p : UInt32) : UInt32 → Block := fun b => disk (p + b)

theorem foldl_sdWrite (p : UInt32) (writes : List (UInt32 × Block)) (s : System) (b : UInt32)
    (block : Block) (h : ∀ w ∈ writes, w.1 = b → w.2 = block)
    (hb : (∃ w ∈ writes, w.1 = b) ∨ partition s.card.disk p b = block) :
    partition (writes.foldl (fun s w => s.sdWrite (p + w.1) w.2) s).card.disk p b = block := by
  induction writes generalizing s with
  | nil =>
    rcases hb with ⟨w, hw, _⟩ | hb
    · cases hw
    · exact hb
  | cons w writes ih =>
    refine ih _ (fun w' hw' => h w' (List.mem_cons_of_mem w hw')) ?_
    by_cases hw : w.1 = b
    · right
      show Function.update s.card.disk (p + w.1) w.2 (p + b) = block
      rw [hw, Function.update_self]
      exact h w List.mem_cons_self hw
    · rcases hb with ⟨w', hw', hb⟩ | hb
      · rcases List.mem_cons.mp hw' with rfl | hw'
        · exact absurd hb hw
        · exact .inl ⟨w', hw', hb⟩
      · right
        show Function.update s.card.disk (p + w.1) w.2 (p + b) = block
        rw [Function.update_of_ne fun heq => hw ((UInt32.add_right_inj p).mp heq).symm]
        exact hb

theorem FormatLayout.toNat_add {start : UInt32} {i : Nat} (h : FormatLayout totalBlocks sb ib bb)
    (hstart : start.toNat ≤ 1 + ib + bb) (hi : i ≤ ib + bb + 4) :
    (start + UInt32.ofNat i).toNat = start.toNat + i := by
  have hbb := h.bitmapBlocks
  have hib := h.few
  have hofNat : (UInt32.ofNat i).toNat = i := Nat.mod_eq_of_lt (by omega)
  rw [UInt32.toNat_add, hofNat]
  exact Nat.mod_eq_of_lt (by omega)

theorem mem_formatWrites {w : UInt32 × Block}
    (hw : w ∈ System.formatWrites totalBlocks inodeCount now) :
    w = (0, blockOf (Superblock.layout.encode (formatSuperblock totalBlocks inodeCount now))) ∨
      w = ((formatSuperblock totalBlocks inodeCount now).journalStart,
        blockOf (JournalHeader.layout.encode JournalHeader.empty)) ∨
      w.2 = zeroBlock ∧ w.1 ≠ 0 ∧
        w.1 ≠ (formatSuperblock totalBlocks inodeCount now).journalStart := by
  have h := format_layout totalBlocks inodeCount now
  have hstart := h.inodeStart
  have hbitmap := h.bitmapStart
  have hjournal := h.journalStart
  unfold System.formatWrites at hw
  dsimp only at hw
  generalize formatSuperblock totalBlocks inodeCount now = sb at *
  generalize formatInodeBlocks inodeCount = ib at *
  generalize formatBitmapBlocks totalBlocks ib = bb at *
  have hzero {start : UInt32} {i : Nat} (hlow : start.toNat ≤ 1 + ib.toNat + bb.toNat)
      (hi : i ≤ ib.toNat + bb.toNat + 4) (hpos : 0 < start.toNat + i)
      (hne : start.toNat + i ≠ 1 + ib.toNat + bb.toNat) :
      start + UInt32.ofNat i ≠ 0 ∧ start + UInt32.ofNat i ≠ sb.journalStart := by
    have hadd := h.toNat_add hlow hi
    rw [Ne, Ne, ← UInt32.toNat_inj, ← UInt32.toNat_inj, hadd, hjournal]
    exact ⟨Nat.ne_of_gt hpos, hne⟩
  rw [List.mem_append, List.mem_append, List.mem_append, List.mem_append] at hw
  rcases hw with (((hw | hw) | hw) | hw) | hw
  · exact .inl (List.mem_singleton.mp hw)
  · obtain ⟨i, hi, rfl⟩ := List.mem_map.mp hw
    have hi' := List.mem_range.mp hi
    refine .inr (.inr ⟨rfl, ?_⟩)
    rw [hstart]
    have hone : (1 : UInt32).toNat = 1 := rfl
    exact hzero (by omega) (by omega) (by omega) (by omega)
  · obtain ⟨i, hi, rfl⟩ := List.mem_map.mp hw
    have hi' := List.mem_range.mp hi
    exact .inr (.inr ⟨rfl, hzero (by omega) (by omega) (by omega) (by omega)⟩)
  · exact .inr (.inl (List.mem_singleton.mp hw))
  · obtain ⟨i, hi, rfl⟩ := List.mem_map.mp hw
    have hi' := List.mem_range.mp hi
    exact .inr (.inr ⟨rfl, hzero (by omega) (by omega) (by omega) (by omega)⟩)

theorem formatWrites_table {b : UInt32} (hpos : 0 < b.toNat)
    (hb : b < (formatSuperblock totalBlocks inodeCount now).journalStart) :
    ∃ w ∈ System.formatWrites totalBlocks inodeCount now, w.1 = b := by
  have h := format_layout totalBlocks inodeCount now
  have hstart := h.inodeStart
  have hbitmap := h.bitmapStart
  have hlt := UInt32.lt_iff_toNat_lt.mp hb
  rw [h.journalStart] at hlt
  unfold System.formatWrites
  generalize formatSuperblock totalBlocks inodeCount now = sb at *
  generalize formatInodeBlocks inodeCount = ib at *
  have hone : (1 : UInt32).toNat = 1 := rfl
  by_cases hinode : b.toNat < 1 + ib.toNat
  · refine ⟨(sb.inodeStart + UInt32.ofNat (b.toNat - 1), zeroBlock), ?_, ?_⟩
    · refine List.mem_append_left _ (List.mem_append_left _ (List.mem_append_left _
        (List.mem_append_right _ (List.mem_map.mpr ⟨b.toNat - 1, ?_, rfl⟩))))
      exact List.mem_range.mpr (by omega)
    · rw [hstart, ← UInt32.toNat_inj, h.toNat_add (by omega) (by omega)]
      omega
  · refine ⟨(sb.bitmapStart + UInt32.ofNat (b.toNat - (1 + ib.toNat)), zeroBlock), ?_, ?_⟩
    · refine List.mem_append_left _ (List.mem_append_left _ (List.mem_append_right _
        (List.mem_map.mpr ⟨b.toNat - (1 + ib.toNat), ?_, rfl⟩)))
      exact List.mem_range.mpr (by omega)
    · rw [← UInt32.toNat_inj, h.toNat_add (by omega) (by omega)]
      omega

variable {disk : UInt32 → Block} {s s' : System} {partitionLba : UInt32}

/-- **Format.** The superblock, zeros in the inodes and the bitmap, and an empty journal. -/
theorem format_disk (s : System) (partitionLba totalBlocks inodeCount : UInt32) (now : UInt64) :
    let part := partition (s.format partitionLba totalBlocks inodeCount now).card.disk partitionLba
    let sb := formatSuperblock totalBlocks inodeCount now
    part 0 = blockOf (Superblock.layout.encode sb) ∧
      part sb.journalStart = blockOf (JournalHeader.layout.encode JournalHeader.empty) ∧
      ∀ b, 0 < b.toNat → b < sb.journalStart → part b = zeroBlock := by
  have hjournal := (format_layout totalBlocks inodeCount now).journalStart
  have hne : (0 : UInt32) ≠ (formatSuperblock totalBlocks inodeCount now).journalStart := by
    rw [Ne, ← UInt32.toNat_inj, hjournal]
    show 0 ≠ _
    omega
  refine ⟨foldl_sdWrite _ _ _ _ _ (fun w hw h => ?_) (.inl ?_),
    foldl_sdWrite _ _ _ _ _ (fun w hw h => ?_) (.inl ?_),
    fun b hpos hb => foldl_sdWrite _ _ _ _ _ (fun w hw h => ?_)
      (.inl (formatWrites_table hpos hb))⟩
  · rcases mem_formatWrites hw with rfl | rfl | ⟨_, hzero, _⟩
    · rfl
    · exact absurd h.symm hne
    · exact absurd h hzero
  · exact ⟨_, List.mem_append_left _ (List.mem_append_left _ (List.mem_append_left _
      (List.mem_append_left _ (List.mem_singleton.mpr rfl)))), rfl⟩
  · rcases mem_formatWrites hw with rfl | rfl | ⟨_, _, hheader⟩
    · exact absurd h hne
    · rfl
    · exact absurd h hheader
  · exact ⟨_, List.mem_append_left _ (List.mem_append_right _ (List.mem_singleton.mpr rfl)), rfl⟩
  · rcases mem_formatWrites hw with rfl | rfl | ⟨hzero, _⟩
    · rw [← h] at hpos
      exact absurd hpos (Nat.lt_irrefl 0)
    · exact absurd (h ▸ hb) (UInt32.lt_irrefl _)
    · exact hzero

/-! ## mounting -/

def Loaded (s : System) (blocks : Nat) (buf : Nat → UInt8) : Prop :=
  ∀ i < blocks, ∀ k : Fin blockSize, buf (i * blockSize + k.val) =
    partition s.card.disk s.card.partitionLba (s.superblock.bitmapStart + UInt32.ofNat i) k

/-- `bitmap_load` fills the buffer, and changes nothing but the cache -/
theorem bitmapLoad_spec (h : Ready disk s) : ∃ card buf,
    s.bitmapLoad = { s with card := card, bitmapBuf := buf } ∧
      Ready disk { s with card := card, bitmapBuf := buf } ∧
      card.disk = s.card.disk ∧ card.partitionLba = s.card.partitionLba ∧
      card.cache.enabled = s.card.cache.enabled ∧ Loaded s s.bitmapBlocks.toNat buf := by
  suffices hloop : ∀ n ≤ s.bitmapBlocks.toNat, ∃ card buf,
      (List.range n).foldl (fun s i =>
        let read := s.readBlock (s.superblock.bitmapStart + UInt32.ofNat i)
        { read.2 with
          bitmapBuf := fun k =>
            if h : i * blockSize ≤ k ∧ k < i * blockSize + blockSize then
              read.1 ⟨k - i * blockSize, by omega⟩
            else read.2.bitmapBuf k }) s = { s with card := card, bitmapBuf := buf } ∧
        Ready disk { s with card := card, bitmapBuf := buf } ∧
        card.disk = s.card.disk ∧ card.partitionLba = s.card.partitionLba ∧
        card.cache.enabled = s.card.cache.enabled ∧ Loaded s n buf from
    hloop _ (Nat.le_refl _)
  intro n
  induction n with
  | zero => exact fun _ => ⟨s.card, s.bitmapBuf, rfl, h, rfl, rfl, rfl, fun i hi => by omega⟩
  | succ n ih =>
    intro hn
    obtain ⟨card, buf, heq, hready, hdisk, hlba, hon, hload⟩ := ih (Nat.le_of_succ_le hn)
    rw [List.range_succ, List.foldl_append, heq, List.foldl_cons, List.foldl_nil]
    obtain ⟨hc, hblock, hlba', hdisk', hon'⟩ :=
      coherent_readBlock (b := s.superblock.bitmapStart + UInt32.ofNat n) hready.coherent
        (hready.bitmap hn)
    dsimp only [System.readBlock] at hc hblock hlba' hdisk' hon' ⊢
    refine ⟨_, _, rfl, ⟨hc, fun henabled => hready.reachable (hon' ▸ henabled)⟩,
      hdisk'.trans hdisk, hlba'.trans hlba, hon'.trans hon, fun i hi k => ?_⟩
    dsimp only
    rcases Nat.lt_or_eq_of_le (Nat.le_of_lt_succ hi) with hlt | rfl
    · have hk := k.isLt
      have hbefore : i * blockSize + k.val < n * blockSize := by
        show i * 512 + k.val < n * 512
        change k.val < 512 at hk
        omega
      rw [dif_neg fun h => Nat.not_lt.mpr h.1 hbefore]
      exact hload i hlt k
    · rw [dif_pos ⟨Nat.le_add_right _ _, Nat.add_lt_add_left k.isLt _⟩, hblock, hdisk]
      unfold Card.lba partition
      rw [hlba]
      congr 1
      exact Fin.ext (Nat.add_sub_cancel_left ..)

theorem journalRecover_spec (h : Ready disk s) (fuel : Nat)
    (hheader : partition s.card.disk s.card.partitionLba s.superblock.journalStart =
      blockOf (JournalHeader.layout.encode JournalHeader.empty)) : ∃ card journal,
    s.journalRecover fuel = some { s with card := card, journal := journal } ∧
      card.disk = s.card.disk ∧ card.partitionLba = s.card.partitionLba := by
  have hstart : s.card.cache.enabled = true → s.superblock.journalStart ≠ cacheInvalidBlock := by
    intro henabled
    have hne := h.journal (i := 0) (by decide) henabled
    rwa [UInt32.add_zero] at hne
  obtain ⟨_, hblock, hlba, hdisk, _⟩ := coherent_readBlock h.coherent hstart
  obtain ⟨hmagic, hcrc, hactive⟩ := headerOf_empty
  change s.card.disk (s.card.lba s.superblock.journalStart) = _ at hheader
  rw [hheader] at hblock
  unfold System.journalRecover System.readBlock
  dsimp only
  rw [hblock, if_neg (not_not.mpr hmagic), if_neg (not_not.mpr hcrc), if_neg (not_not.mpr hactive)]
  exact ⟨_, _, rfl, hdisk, hlba⟩

theorem inodeRead_zero {part : UInt32 → Block} {n : UInt32} {x : Inode}
    (hzero : part (inodeBlock sb n) = zeroBlock) (hx : inodeRead sb part n = some (.ok x)) :
    x = Inode.zero := by
  unfold inodeRead copyOut at hx
  rw [hzero] at hx
  split_ifs at hx with hn hfits
  · cases hx
  · have hslice : slice zeroBlock (inodeOffset n) Inode.layout.size = List.replicate 92 0 := by
      refine List.ext_getElem ((length_slice _ hfits).trans List.length_replicate.symm)
        fun i hi hi' => ?_
      have hlt : i < Inode.layout.size := (length_slice zeroBlock hfits) ▸ hi
      rw [getElem_slice _ _ _ _ hi (by omega), List.getElem_replicate]
      rfl
    rw [hslice] at hx
    obtain rfl := Except.ok.inj (Option.some.inj hx)
    decide +kernel
  · cases hx

/-- a mounted volume without files: all data blocks are free, their bits are clear, and the inode
table holds zeros -/
structure Empty (s : System) : Prop where
  mounted : s.mounted = true
  free : s.superblock.freeBlocks.toNat =
    s.superblock.totalBlocks.toNat - s.superblock.dataStart.toNat
  clear : ∀ k < s.superblock.totalBlocks.toNat - s.superblock.dataStart.toNat,
    Volume.bit s.bitmapBuf k = false
  table : ∀ b, s.superblock.inodeStart ≤ b → b < s.superblock.bitmapStart →
    partition s.card.disk s.card.partitionLba b = zeroBlock
  inodes : ∀ n x, inodeRead s.superblock (partition s.card.disk s.card.partitionLba) n =
    some (.ok x) → x = Inode.zero

/-- the format lays out its regions, and every mount that follows succeeds and finds an empty
volume -/
def Mountable (s : System) (partitionLba totalBlocks inodeCount : UInt32) (now : UInt64) : Prop :=
  Regions (formatSuperblock totalBlocks inodeCount now) ∧
    ∀ mountTime fuel, ∃ s',
      (s.format partitionLba totalBlocks inodeCount now).mount partitionLba mountTime fuel =
          some (.ok (), s') ∧
        s'.superblock = mountSuperblock (formatSuperblock totalBlocks inodeCount now) mountTime ∧
        Empty s'

/-- the checks of `ekkfs_mount` on a new volume -/
theorem mount_format (s : System) (partitionLba totalBlocks inodeCount : UInt32) (now : UInt64) :
    let block := (s.format partitionLba totalBlocks inodeCount now).card.disk partitionLba
    System.validSuperblock block = true ∧
      Superblock.layout.decode (bytesOf block) = formatSuperblock totalBlocks inodeCount now := by
  have hblock : (s.format partitionLba totalBlocks inodeCount now).card.disk partitionLba =
      blockOf (Superblock.layout.encode (formatSuperblock totalBlocks inodeCount now)) := by
    have hdisk := (format_disk s partitionLba totalBlocks inodeCount now).1
    unfold partition at hdisk
    rwa [UInt32.add_zero] at hdisk
  rw [hblock]
  exact ⟨validSuperblock_sealed rfl rfl, decode_superblock _⟩

theorem mount_large (h : maxBitmapBlocks <
      mountBitmapBlocks (formatSuperblock totalBlocks inodeCount now)) (s : System)
    (partitionLba : UInt32) (mountTime : UInt64) (fuel : Nat) : ∃ s',
    (s.format partitionLba totalBlocks inodeCount now).mount partitionLba mountTime fuel =
      some (.error .invalid, s') := by
  obtain ⟨hvalid, hdecode⟩ := mount_format s partitionLba totalBlocks inodeCount now
  unfold System.mount
  rw [if_neg (by rw [hvalid]; exact Bool.false_ne_true), hdecode, if_pos h]
  exact ⟨_, rfl⟩

theorem loaded_clear {buf : Nat → UInt8} {n k : Nat} (h : Loaded s n buf) (hk : k < 4096 * n)
    (hzero : ∀ i < n, partition s.card.disk s.card.partitionLba
      (s.superblock.bitmapStart + UInt32.ofNat i) = zeroBlock) : Volume.bit buf k = false := by
  have hbyte := h (k / 4096) (by omega) ⟨k / 8 % 512, Nat.mod_lt _ (by decide)⟩
  rw [hzero _ (by omega)] at hbyte
  rw [show k / 4096 * 512 + k / 8 % 512 = k / 8 by omega] at hbyte
  unfold Volume.bit
  rw [hbyte]
  exact Nat.zero_testBit _

/-- a partition as `ekkfs_format` leaves it -/
structure Fresh (s : System) (partitionLba : UInt32) (sb : Superblock) : Prop where
  valid : System.validSuperblock (s.card.disk partitionLba) = true
  superblock : Superblock.layout.decode (bytesOf (s.card.disk partitionLba)) = sb
  journal : partition s.card.disk partitionLba sb.journalStart =
    blockOf (JournalHeader.layout.encode JournalHeader.empty)
  tables : ∀ b, 0 < b.toNat → b < sb.journalStart →
    partition s.card.disk partitionLba b = zeroBlock

theorem fresh_format (s : System) (partitionLba totalBlocks inodeCount : UInt32) (now : UInt64) :
    Fresh (s.format partitionLba totalBlocks inodeCount now) partitionLba
      (formatSuperblock totalBlocks inodeCount now) :=
  ⟨(mount_format s partitionLba totalBlocks inodeCount now).1,
    (mount_format s partitionLba totalBlocks inodeCount now).2,
    (format_disk s partitionLba totalBlocks inodeCount now).2.1,
    (format_disk s partitionLba totalBlocks inodeCount now).2.2⟩

theorem mount_fresh {fuel : Nat} (h : Fresh s partitionLba sb) (hs : Coherent disk s.card)
    (hclean : s.Clean (.mount partitionLba mountTime fuel))
    (hfew : mountBitmapBlocks sb ≤ maxBitmapBlocks) (hbitmap : ∀ i < (mountBitmapBlocks sb).toNat, 0
    < (sb.bitmapStart + UInt32.ofNat i).toNat ∧ sb.bitmapStart + UInt32.ofNat i < sb.journalStart) :
    ∃ s',
    s.mount partitionLba mountTime fuel = some (.ok (), s') ∧
      s'.mounted = true ∧ s'.superblock = mountSuperblock sb mountTime ∧
      (∀ k < 4096 * (mountBitmapBlocks sb).toNat, Volume.bit s'.bitmapBuf k = false) ∧
      ∀ b, b ≠ 0 → partition s'.card.disk s'.card.partitionLba b =
        partition s.card.disk partitionLba b := by
  unfold System.Clean at hclean
  dsimp only at hclean
  rw [h.superblock] at hclean
  have hmoves := hclean h.valid
  unfold System.mount
  rw [if_neg (by rw [h.valid]; exact Bool.false_ne_true), h.superblock,
    if_neg (UInt32.not_lt.mpr hfew)]
  have hready : Ready disk { s with
      card := { s.card with partitionLba := partitionLba }
      superblock := sb
      bitmapBlocks := mountBitmapBlocks sb } :=
    ⟨coherent_partition hs fun henabled => (hmoves henabled).1,
      fun henabled => (hmoves henabled).2 hfew⟩
  obtain ⟨card, buf, hload, hloaded, hdisk, hlba, _, hbuf⟩ := bitmapLoad_spec hready
  obtain ⟨card', journal, hrecover, hdisk', hlba'⟩ := journalRecover_spec hloaded fuel (by
    rw [hdisk, hlba]
    exact h.journal)
  rw [hload, hrecover]
  refine ⟨_, rfl, rfl, rfl, fun k hk => loaded_clear hbuf hk fun i hi => ?_, fun b hb => ?_⟩
  · exact h.tables _ (hbitmap i hi).1 (hbitmap i hi).2
  · show Function.update card'.disk partitionLba _ (card'.partitionLba + b) =
      s.card.disk (partitionLba + b)
    rw [hlba', hlba, Function.update_of_ne fun heq => hb (UInt32.add_eq_left.mp heq), hdisk', hdisk]

theorem mount_small (h : Formattable totalBlocks inodeCount) (hs : Coherent disk s.card)
    (hformat : s.Clean (.format partitionLba totalBlocks inodeCount now)) {fuel : Nat} (hmount :
    (s.format partitionLba totalBlocks inodeCount now).Clean (.mount partitionLba mountTime fuel)) :
    ∃ s',
    (s.format partitionLba totalBlocks inodeCount now).mount partitionLba mountTime fuel =
        some (.ok (), s') ∧
      s'.superblock = mountSuperblock (formatSuperblock totalBlocks inodeCount now) mountTime ∧
      Empty s' := by
  obtain ⟨hregions, hfew⟩ := h.regions now
  have hfresh := fresh_format s partitionLba totalBlocks inodeCount now
  have hlayout := format_layout totalBlocks inodeCount now
  have hcoherent := coherent_format hs hformat
  generalize s.format partitionLba totalBlocks inodeCount now = s₁ at *
  generalize formatSuperblock totalBlocks inodeCount now = sb at *
  obtain ⟨hloads, hblocks⟩ := hregions.loads hlayout
  obtain ⟨s', hs', hmounted, hsb, hclear, hpart⟩ := mount_fresh hfresh hcoherent hmount hfew
    fun i hi => by
      have hstart := hlayout.bitmapStart
      rw [UInt32.lt_iff_toNat_lt, hlayout.toNat_add (by omega) (by omega), hlayout.journalStart]
      omega
  have hzero (b : UInt32) (hlow : sb.inodeStart.toNat ≤ b.toNat) (hb : b < sb.bitmapStart) :
      partition s'.card.disk s'.card.partitionLba b = zeroBlock := by
    have hpos : 0 < b.toNat := Nat.lt_of_lt_of_le hregions.start hlow
    rw [hpart b fun hb => by rw [hb] at hpos; exact absurd hpos (Nat.lt_irrefl 0)]
    exact hfresh.tables b hpos (UInt32.lt_trans hb hregions.bitmap)
  refine ⟨s', hs', hsb, hmounted, ?_, fun k hk => ?_, fun b hlow hb => ?_, fun n x hx => ?_⟩
  · rw [hsb]
    show sb.freeBlocks.toNat = sb.totalBlocks.toNat - sb.dataStart.toNat
    have hfits := UInt32.lt_iff_toNat_lt.mp hregions.data
    have hlt := totalBlocks.toNat_lt
    rw [hlayout.total, hlayout.dataStart] at hfits
    rw [hlayout.free, hlayout.total, hlayout.dataStart]
    omega
  · rw [hsb] at hk
    exact hclear k (Nat.lt_of_lt_of_le hk hloads)
  · rw [hsb] at hlow hb
    exact hzero b (UInt32.le_iff_toNat_le.mp hlow) hb
  · have hn : n < sb.inodeCount := by
      unfold inodeRead at hx
      rw [hsb] at hx
      by_contra hge
      have hge' : n ≥ (mountSuperblock sb mountTime).inodeCount := UInt32.not_lt.mp hge
      rw [if_pos hge'] at hx
      cases hx
    have hheld := hregions.held n hn
    have hblock : (inodeBlock sb n).toNat = sb.inodeStart.toNat + n.toNat / 8 := by
      have hsmall := hlayout.few
      have hstart := hlayout.bitmapStart
      unfold inodeBlock
      rw [UInt32.toNat_add, UInt32.toNat_div]
      show (_ + n.toNat / 8) % 2 ^ 32 = _
      omega
    refine inodeRead_zero ?_ hx
    rw [hsb]
    show partition s'.card.disk s'.card.partitionLba (inodeBlock sb n) = zeroBlock
    exact hzero _ (by omega) (UInt32.lt_iff_toNat_lt.mpr (by omega))

/-- **Main.** For every state whose cache is current and holds no other content of the blocks that the
format writes, the new volume is mountable exactly when it is formattable. -/
theorem mountable_iff (hs : Coherent disk s.card)
    (hformat : s.Clean (.format partitionLba totalBlocks inodeCount now))
    (hmount : ∀ mountTime fuel, (s.format partitionLba totalBlocks inodeCount now).Clean
      (.mount partitionLba mountTime fuel)) :
    Mountable s partitionLba totalBlocks inodeCount now ↔ Formattable totalBlocks inodeCount := by
  constructor
  · rintro ⟨hregions, hmounts⟩
    refine formattable_of_regions hregions (UInt32.not_lt.mp fun hlarge => ?_)
    obtain ⟨s', hok, _⟩ := hmounts 0 0
    obtain ⟨s'', herror⟩ := mount_large hlarge s partitionLba 0 0
    rw [herror] at hok
    cases hok
  · exact fun h => ⟨(h.regions now).1, fun mountTime fuel =>
      mount_small h hs hformat (hmount mountTime fuel)⟩

/-- before the first mount nothing is cached -/
theorem mountable_iff_boot :
    Mountable (System.boot fun _ => zeroBlock) 2048 64 16 0 ↔ Formattable 64 16 :=
  mountable_iff (coherent_boot fun _ => zeroBlock) (fun _ _ _ _ hi => nomatch hi)
    fun _ _ _ henabled => nomatch henabled

/-- a partition of 32 MB is formatted, and cannot be mounted -/
theorem format_large :
    (∃ s', (System.format (System.boot fun _ => zeroBlock) 2048 65536 256 0).mount 2048 0 0 =
        some (.error .invalid, s')) ∧
      ¬ Mountable (System.boot fun _ => zeroBlock) 2048 65536 256 0 := by
  have hlarge : maxBitmapBlocks < mountBitmapBlocks (formatSuperblock 65536 256 0) := by decide
  refine ⟨mount_large hlarge _ _ _ _, fun h => ?_⟩
  obtain ⟨s', hok, _⟩ := h.2 0 0
  obtain ⟨s'', herror⟩ := mount_large hlarge (System.boot fun _ => zeroBlock) 2048 0 0
  rw [herror] at hok
  cases hok

end Fs
end EkKor
