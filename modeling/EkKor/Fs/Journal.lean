import EkKor.Fs.System

/-!
# The journal of a mounted volume (`ekkfs.c`)

The four blocks of the journal lie on the card, its header also in memory.  Reads and writes of
blocks do not fail.

* `Journaled`                        a mounted volume with the journal in memory;
* `journalLog`                       one entry;
* `bitmapAlloc`, `bitmapFree`        with their entries in a transaction;
* `txBegin`, `txCommit`, `txAbort`   the calls;
* `TxCall`                           the calls, and the steps that `ekkfs_write` and `ekkfs_delete`
                                     are made of.

A result is `none` when the code leaves the bitmap buffer, or does not end.
-/

namespace EkKor
namespace Fs

def JournalEntry.sealed (e : JournalEntry) : JournalEntry :=
  { e with crc32 := Fs.crc32 ((JournalEntry.layout.encode e).take 28) }

structure Journaled where
  vol : Volume
  /-- `g_fs.journal` -/
  journal : JournalState

namespace Journaled

def withVol (s : Journaled) (vol : Volume) : Journaled := { s with vol := vol }

def withHeader (s : Journaled) (header : JournalHeader) : Journaled :=
  { s with journal := { s.journal with header := header } }

/-- the block of the card that is block `idx` of the journal -/
def journalBlock (v : Volume) (idx : UInt32) : UInt32 := v.superblock.journalStart + idx

def entryAt (v : Volume) (pos : UInt32) : JournalEntry :=
  let (blockIdx, entryOffset) := journalEntryLocation pos
  JournalEntry.layout.decode
    (slice (v.disk (journalBlock v blockIdx)) entryOffset JournalEntry.layout.size)

def writeHeader (s : Journaled) : Journaled :=
  let header := s.journal.header.sealed
  let block := journalBlock s.vol 0
  (s.withVol (s.vol.put block
    (splice (s.vol.disk block) 0 (JournalHeader.layout.encode header)))).withHeader header

/-- `ekkfs_journal_log`; `now` from `ekkfs_get_time_us` -/
def journalLog (s : Journaled) (type inode block oldValue newValue : UInt32) (now : UInt64) :
    Except FsErr Unit × Journaled :=
  let sequence :=
    if s.journal.txActive then s.journal.currentTxSeq else s.journal.header.sequence
  let head := s.journal.header.head
  let nextHead := (head + 1) % journalTotalEntries
  -- a full journal gives up its oldest entry
  let s :=
    if nextHead = s.journal.header.tail then
      s.withHeader { s.journal.header with
        tail := (s.journal.header.tail + 1) % journalTotalEntries }
    else s
  let entry := JournalEntry.sealed
    { sequence := sequence
      type := type
      inode := inode
      block := block
      oldValue := oldValue
      newValue := newValue
      timestamp := (now / 1000000).toUInt32
      crc32 := 0 }
  let (blockIdx, entryOffset) := journalEntryLocation head
  if blockIdx ≥ journalBlocks then (.error .io, s)
  else
    let place := journalBlock s.vol blockIdx
    let s := s.withVol (s.vol.put place
      (splice (s.vol.disk place) entryOffset (JournalEntry.layout.encode entry)))
    let s := { s with journal := { s.journal with
      header := { s.journal.header with head := nextHead }
      dirty := true } }
    (.ok (), if s.journal.txActive then s else s.writeHeader)

/-! ## blocks -/

def logInTx (s : Journaled) (type block oldValue newValue : UInt32) (now : UInt64) : Journaled :=
  if s.journal.txActive then (s.journalLog type 0 block oldValue newValue now).2 else s

/-- the loop over the bytes in `bitmap_alloc`, for `n` bytes from byte `i` on -/
def allocFrom (s : Journaled) (now : UInt64) : Nat → Nat → Option (Option UInt32 × Journaled)
  | 0, _ => some (none, s)
  | n + 1, i =>
    if i < bitmapBufSize then
      match Volume.freeBit s.vol.superblock (s.vol.bitmapBuf i) i with
      | some bit =>
        let block := Volume.blockOfBit s.vol.superblock i bit
        let vol := { s.vol with
          bitmapBuf :=
            Function.update s.vol.bitmapBuf i (Volume.assignBit (s.vol.bitmapBuf i) bit true)
          superblock :=
            { s.vol.superblock with freeBlocks := s.vol.superblock.freeBlocks - 1 } }
        let s := (s.withVol vol).logInTx journalAllocBlock block 0 block now
        -- the callers take a block number from 2^31 on for a failure: the result is an int
        some (if block < 0x80000000 then some block else none, s)
      | none => allocFrom s now n (i + 1)
    else none

/-- `bitmap_alloc`: the new block, if there is one -/
def bitmapAlloc (s : Journaled) (now : UInt64) : Option (Option UInt32 × Journaled) :=
  let totalDataBlocks := s.vol.superblock.totalBlocks - s.vol.superblock.dataStart
  let bitmapBytes := (totalDataBlocks + 7) / 8
  s.allocFrom now bitmapBytes.toNat 0

/-- `bitmap_free` -/
def bitmapFree (s : Journaled) (blockNum : UInt32) (now : UInt64) : Option Journaled :=
  if blockNum ≥ s.vol.superblock.dataStart then
    let s := s.logInTx journalFreeBlock blockNum blockNum 0 now
    (s.vol.bitmapSet blockNum false).map fun vol =>
      s.withVol { vol with
        superblock := { vol.superblock with freeBlocks := vol.superblock.freeBlocks + 1 } }
  else some s

/-! ## transactions -/

/-- `ekkfs_tx_begin` -/
def txBegin (s : Journaled) : Except FsErr UInt32 × Journaled :=
  if s.journal.txActive then (.error .invalid, s)
  else
    let sequence := s.journal.header.sequence
    let s := { s with journal :=
      { header := { s.journal.header with txActive := 1, txStartSeq := sequence }
        currentTxSeq := sequence
        txActive := true
        dirty := true } }
    (.ok sequence, s.writeHeader)

def endTx (s : Journaled) : Journaled :=
  { s with journal := { s.journal with txActive := false, dirty := false } }

/-- `ekkfs_tx_commit`; the result of `ekkfs_sync` is not looked at -/
def txCommit (s : Journaled) (now : UInt64) : Option (Except FsErr Unit × Journaled) :=
  if !s.journal.txActive then some (.error .invalid, s)
  else
    match s.journalLog journalCommit 0 0 0 0 now with
    | (.error e, s) => some (.error e, s)
    | (.ok (), s) =>
      let header := s.journal.header
      let s := (s.withHeader
        { header with txActive := 0, sequence := header.sequence + 1 }).writeHeader
      s.vol.sync.map fun vol => (.ok (), (s.withVol vol).endTx)

/-- what `ekkfs_tx_abort` does to one entry of the transaction, and how many it has undone -/
def rollbackEntry (v : Volume) (entry : JournalEntry) (count : UInt32) :
    Option (Volume × UInt32) :=
  if entry.type = journalAllocBlock then
    (v.bitmapSet entry.newValue false).map fun v =>
      ({ v with superblock := { v.superblock with freeBlocks := v.superblock.freeBlocks + 1 } },
        count + 1)
  else if entry.type = journalFreeBlock then
    (v.bitmapSet entry.oldValue true).map fun v =>
      ({ v with superblock := { v.superblock with freeBlocks := v.superblock.freeBlocks - 1 } },
        count + 1)
  else some (v, count)

/-- the loop of `ekkfs_tx_abort` over the entries up to the head, with at most `fuel` rounds -/
def rollback (header : JournalHeader) :
    Nat → Volume → UInt32 → UInt32 → Option (Volume × UInt32)
  | 0, _, _, _ => none
  | fuel + 1, v, pos, count =>
    if pos ≠ header.head then
      if (journalEntryLocation pos).1 ≥ journalBlocks then some (v, count)
      else
        let entry := entryAt v pos
        let next :=
          if entry.sequence ≥ header.txStartSeq ∧ entry.type ≠ journalNop then
            rollbackEntry v entry count
          else some (v, count)
        next.bind fun (v, count) =>
          rollback header fuel v ((pos + 1) % journalTotalEntries) count
    else some (v, count)

/-- `ekkfs_tx_abort`; after a round for each place its loop would go on for ever -/
def txAbort (s : Journaled) : Option (Except FsErr Unit × Journaled) :=
  if !s.journal.txActive then some (.error .invalid, s)
  else
    let header := s.journal.header
    (rollback header (journalTotalEntries.toNat + 1) s.vol header.tail 0).bind
      fun (vol, count) =>
        let s := ((s.withVol vol).withHeader { header with txActive := 0 }).writeHeader
        (if count > 0 then s.vol.bitmapSave else some s.vol).map fun vol =>
          (.ok (), (s.withVol vol).endTx)

end Journaled

/-! ## calls -/

/-- the calls on transactions, and what `ekkfs_write` and `ekkfs_delete` do to the volume -/
inductive TxCall where
  | begin
  | commit (now : UInt64)
  | abort
  /-- `bitmap_alloc` -/
  | alloc (now : UInt64)
  /-- `bitmap_free` -/
  | free (blockNum : UInt32) (now : UInt64)
  /-- `write_block` -/
  | store (blockNum : UInt32) (block : Block)
  /-- `inode_write` -/
  | inode (inodeNum : UInt32) (inode : Inode)

/-- what a call returns -/
inductive TxReply where
  | ok
  | error (e : FsErr)
  | started (sequence : UInt32)
  | block (b : Option UInt32)
  deriving DecidableEq

def Journaled.step (s : Journaled) : TxCall → Option (TxReply × Journaled)
  | .begin =>
    match s.txBegin with
    | (.ok sequence, s) => some (.started sequence, s)
    | (.error e, s) => some (.error e, s)
  | .commit now =>
    s.txCommit now |>.map fun
      | (.ok (), s) => (.ok, s)
      | (.error e, s) => (.error e, s)
  | .abort =>
    s.txAbort.map fun
      | (.ok (), s) => (.ok, s)
      | (.error e, s) => (.error e, s)
  | .alloc now => (s.bitmapAlloc now).map fun (b, s) => (.block b, s)
  | .free blockNum now => (s.bitmapFree blockNum now).map fun s => (.ok, s)
  | .store blockNum block => some (.ok, s.withVol (s.vol.put blockNum block))
  | .inode inodeNum inode =>
    match s.vol.inodeWrite inodeNum inode with
    | (.ok (), vol) => some (.ok, s.withVol vol)
    | (.error e, vol) => some (.error e, s.withVol vol)

end Fs
end EkKor
