import EkKor.Fs.Cache
import EkKor.Fs.Format

/-!
# The file system on the card (`ekkfs.c`)

* `System`                      `g_fs`, the bitmap buffer, and the card with its cache;
* `format`, `mount`, `unmount`  the calls, with `journalRecover`;
* `SystemCall`, `System.step`   the calls on the card, one after the other.

A result is `none` when a call leaves the bitmap buffer, or does not end.
-/

namespace EkKor
namespace Fs
open Mirror

/-! ## the journal -/

abbrev journalNop : UInt32 := 0
abbrev journalAllocBlock : UInt32 := 5
abbrev journalFreeBlock : UInt32 := 6
abbrev journalCommit : UInt32 := 7

def JournalHeader.sealed (h : JournalHeader) : JournalHeader :=
  { h with crc32 := Fs.crc32 ((JournalHeader.layout.encode h).take 32) }

def JournalHeader.empty : JournalHeader :=
  JournalHeader.sealed
    { magic := journalMagic
      head := 0
      tail := 0
      sequence := 1
      txActive := 0
      txStartSeq := 0
      reserved := Vector.replicate 2 0
      crc32 := 0
      padding := Vector.replicate 24 0 }

def bytesOf (block : Block) : List UInt8 := List.ofFn block

def headerOf (block : Block) : JournalHeader := JournalHeader.layout.decode (bytesOf block)

/-- `journal_total_entries` -/
def journalTotalEntries : UInt32 := 14 + (journalBlocks - 1) * 16

/-- `journal_entry_location`: the block of an entry in the journal, and its offset there -/
def journalEntryLocation (entryIdx : UInt32) : UInt32 × Nat :=
  if entryIdx < 14 then
    (0, JournalHeader.layout.size + entryIdx.toNat * JournalEntry.layout.size)
  else
    let remaining := entryIdx - 14
    (1 + remaining / 16, (remaining % 16).toNat * JournalEntry.layout.size)

/-- `ekkfs_journal_state_t` -/
structure JournalState where
  header : JournalHeader
  currentTxSeq : UInt32
  txActive : Bool
  dirty : Bool

/-! ## the state -/

structure System where
  /-- `g_fs`, its `partition_lba` is in `card` -/
  mounted : Bool
  superblock : Superblock
  bitmapBlocks : UInt32
  journal : JournalState
  /-- `g_bitmap_buf` -/
  bitmapBuf : Nat → UInt8
  card : Card

namespace System

def boot (disk : UInt32 → Block) : System where
  mounted := false
  superblock := ⟨0, 0, 0, 0, 0, 0, 0, 0, 0, 0, 0, 0, 0, Vector.replicate 456 0⟩
  bitmapBlocks := 0
  journal := ⟨⟨0, 0, 0, 0, 0, 0, Vector.replicate 2 0, 0, Vector.replicate 24 0⟩, 0, false, false⟩
  bitmapBuf := fun _ => 0
  card := ⟨0, Cache.off, disk, []⟩

def readBlock (s : System) (blockNum : UInt32) : Block × System :=
  ((s.card.readBlock blockNum).1, { s with card := (s.card.readBlock blockNum).2 })

def writeBlock (s : System) (blockNum : UInt32) (block : Block) : System :=
  { s with card := s.card.writeBlock blockNum block }

def sdWrite (s : System) (lba : UInt32) (block : Block) : System :=
  { s with card := s.card.sdWrite lba block }

/-! ## the bitmap -/

/-- `bitmap_set` -/
def bitmapSet (s : System) (blockNum : UInt32) (used : Bool) : Option System :=
  if blockNum < s.superblock.dataStart then some s
  else
    let dataBlock := (blockNum - s.superblock.dataStart).toNat
    if dataBlock / 8 < bitmapBufSize then
      some { s with bitmapBuf := Volume.assignBufBit s.bitmapBuf dataBlock used }
    else none

/-- block `i` of `g_bitmap_buf` -/
def bitmapBlock (s : System) (i : Nat) : Block := fun k => s.bitmapBuf (i * blockSize + k)

/-- `bitmap_load`, for blocks that fit into the buffer -/
def bitmapLoad (s : System) : System :=
  (List.range s.bitmapBlocks.toNat).foldl (fun s i =>
    let (block, s) := s.readBlock (s.superblock.bitmapStart + UInt32.ofNat i)
    { s with
      bitmapBuf := fun k =>
        if h : i * blockSize ≤ k ∧ k < i * blockSize + blockSize then
          block ⟨k - i * blockSize, by omega⟩
        else s.bitmapBuf k }) s

/-- `bitmap_save` -/
def bitmapSave (s : System) : Option System :=
  if s.bitmapBlocks.toNat * blockSize ≤ bitmapBufSize then
    some ((List.range s.bitmapBlocks.toNat).foldl (fun s i =>
      s.writeBlock (s.superblock.bitmapStart + UInt32.ofNat i) (s.bitmapBlock i)) s)
  else none

/-! ## recovery -/

/-- `ekkfs_journal_init` -/
def journalInit (s : System) : System :=
  let header := JournalHeader.empty
  let s := s.writeBlock s.superblock.journalStart (blockOf (JournalHeader.layout.encode header))
  let s := (List.range 3).foldl (fun s i =>
    s.writeBlock (s.superblock.journalStart + UInt32.ofNat (i + 1)) zeroBlock) s
  { s with journal := ⟨header, 0, false, false⟩ }

def rollbackEntry (s : System) (entry : JournalEntry) (count : UInt32) :
    Option (System × UInt32) :=
  if entry.type = journalAllocBlock then
    (s.bitmapSet entry.newValue false).map fun s =>
      ({ s with superblock := { s.superblock with freeBlocks := s.superblock.freeBlocks + 1 } },
        count + 1)
  else if entry.type = journalFreeBlock then
    (s.bitmapSet entry.oldValue true).map fun s =>
      ({ s with superblock := { s.superblock with freeBlocks := s.superblock.freeBlocks - 1 } },
        count + 1)
  else some (s, count)

/-- the loop of `ekkfs_journal_recover`, with at most `fuel` rounds; the header is read from the
buffer `buf` into which each round reads a block -/
def rollback : Nat → System → Block → UInt32 → UInt32 → Option (System × UInt32)
  | 0, _, _, _, _ => none
  | fuel + 1, s, buf, pos, count =>
    if pos ≠ (headerOf buf).head then
      let (blockIdx, entryOffset) := journalEntryLocation pos
      if blockIdx ≥ journalBlocks then some (s, count)
      else
        let (buf, s) := s.readBlock (s.superblock.journalStart + blockIdx)
        let entry := JournalEntry.layout.decode (slice buf entryOffset JournalEntry.layout.size)
        let next :=
          if entry.sequence ≥ (headerOf buf).txStartSeq ∧ entry.type ≠ journalCommit ∧
              entry.type ≠ journalNop then
            s.rollbackEntry entry count
          else some (s, count)
        next.bind fun (s, count) =>
          rollback fuel s buf ((pos + 1) % journalTotalEntries) count
    else some (s, count)

/-- `ekkfs_journal_recover`, when its loop ends within `fuel` rounds -/
def journalRecover (s : System) (fuel : Nat) : Option System :=
  let (buf, s) := s.readBlock s.superblock.journalStart
  if (headerOf buf).magic ≠ journalMagic then some s.journalInit
  else if crc32 ((bytesOf buf).take 32) ≠ (headerOf buf).crc32 then some s.journalInit
  else
    let s := { s with journal := { s.journal with
      header := headerOf buf
      txActive := false
      dirty := false } }
    if (headerOf buf).txActive ≠ 0 then
      (rollback fuel s buf (headerOf buf).tail 0).bind fun (s, count) =>
        (if count > 0 then s.bitmapSave else some s).map fun s =>
          let header := JournalHeader.sealed { s.journal.header with txActive := 0 }
          let s := { s with journal := { s.journal with header := header } }
          s.writeBlock s.superblock.journalStart (blockOf (JournalHeader.layout.encode header))
    else some s

/-! ## calls -/

/-- the blocks of the partition that `ekkfs_format` writes, in turn -/
def formatWrites (totalBlocks inodeCount : UInt32) (now : UInt64) : List (UInt32 × Block) :=
  let sb := formatSuperblock totalBlocks inodeCount now
  let inodeBlocks := formatInodeBlocks inodeCount
  let bitmapBlocks := formatBitmapBlocks totalBlocks inodeBlocks
  [(0, blockOf (Superblock.layout.encode sb))] ++
    (List.range inodeBlocks.toNat).map (fun i => (sb.inodeStart + UInt32.ofNat i, zeroBlock)) ++
    (List.range bitmapBlocks.toNat).map (fun i => (sb.bitmapStart + UInt32.ofNat i, zeroBlock)) ++
    [(sb.journalStart, blockOf (JournalHeader.layout.encode JournalHeader.empty))] ++
    (List.range 3).map fun i => (sb.journalStart + UInt32.ofNat (i + 1), zeroBlock)

/-- `ekkfs_format` -/
def format (s : System) (partitionLba totalBlocks inodeCount : UInt32) (now : UInt64) : System :=
  (formatWrites totalBlocks inodeCount now).foldl
    (fun s w => s.sdWrite (partitionLba + w.1) w.2) s

/-- the checks of the superblock in `ekkfs_mount` -/
def validSuperblock (block : Block) : Bool :=
  let sb := Superblock.layout.decode (bytesOf block)
  decide (sb.magic = magic ∧ sb.version = version ∧ crc32 ((bytesOf block).take 52) = sb.crc32)

/-- `ekkfs_mount`, when the recovery of the journal ends within `fuel` rounds -/
def mount (s : System) (partitionLba : UInt32) (now : UInt64) (fuel : Nat) :
    Option (Except FsErr Unit × System) :=
  let block := s.card.disk partitionLba
  if !validSuperblock block then some (.error .corrupt, s)
  else
    let sb := Superblock.layout.decode (bytesOf block)
    let s := { s with
      card := { s.card with partitionLba := partitionLba }
      superblock := sb
      bitmapBlocks := mountBitmapBlocks sb }
    if s.bitmapBlocks > maxBitmapBlocks then some (.error .invalid, s)
    else
      (s.bitmapLoad.journalRecover fuel).map fun s =>
        let s := { s with superblock := mountSuperblock s.superblock now }
        let s := s.sdWrite partitionLba (blockOf (Superblock.layout.encode s.superblock))
        (.ok (), { s with
          mounted := true
          card := { s.card with cache := s.card.cache.init } })

/-- `ekkfs_sync` -/
def sync (s : System) : Option (Except FsErr Unit × System) :=
  if !s.mounted then some (.error .notMounted, s)
  else
    bitmapSave { s with card := s.card.cacheFlush } |>.map fun s =>
      let s := { s with superblock := s.superblock.sealed }
      (.ok (), s.sdWrite s.card.partitionLba (blockOf (Superblock.layout.encode s.superblock)))

/-- `ekkfs_unmount` -/
def unmount (s : System) : Option (Except FsErr Unit × System) :=
  if !s.mounted then some (.error .notMounted, s)
  else
    (sync { s with card := s.card.cacheInvalidate }).map fun (_, s) =>
      (.ok (), { s with mounted := false })

end System

/-! ## the calls on the card -/

inductive SystemCall where
  | readBlock (blockNum : UInt32)
  | writeBlock (blockNum : UInt32) (block : Block)
  | cacheFlush
  | unmount
  | format (partitionLba totalBlocks inodeCount : UInt32) (now : UInt64)
  | mount (partitionLba : UInt32) (now : UInt64) (fuel : Nat)

def System.call (s : System) : SystemCall → Option System
  | .readBlock blockNum => some (s.readBlock blockNum).2
  | .writeBlock blockNum block => some (s.writeBlock blockNum block)
  | .cacheFlush => some { s with card := s.card.cacheFlush }
  | .unmount => s.unmount.map Prod.snd
  | .format partitionLba totalBlocks inodeCount now =>
    some (s.format partitionLba totalBlocks inodeCount now)
  | .mount partitionLba now fuel => (s.mount partitionLba now fuel).map Prod.snd

end Fs
end EkKor
