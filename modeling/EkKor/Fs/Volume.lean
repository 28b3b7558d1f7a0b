import Mathlib.Logic.Function.Basic
import EkKor.Fs.Layout

/-!
# A mounted volume and the calls on its files (`ekkfs.c`)

Block reads and writes do not fail, the inode table is an array of independent inodes, and no
transaction is open.

* `Volume`                              the superblock, the bitmap, the inodes and the blocks;
* `bitmapAlloc`, `bitmapFree`           taking and giving back blocks;
* `create`, `delete`, `openFile`, `read`, `write`, `seek`, `sync`   the calls;
* `Session`, `Call`                     a volume with the file handles of its users.

A result is `none` when the code reads or writes outside of one of its arrays: the bitmap buffer,
or the pointers of an indirect block.
-/

namespace EkKor
namespace Fs
open Function

/-! ## indirect blocks -/

def indirectLayout : Packed (Vector UInt32 indirectBlocks) := Packed.u32.array indirectBlocks

def words (block : Block) : Vector UInt32 indirectBlocks :=
  indirectLayout.decode (List.ofFn block)

def ofWords (ptrs : Vector UInt32 indirectBlocks) : Block :=
  blockOf (indirectLayout.encode ptrs)

/-! ## the volume -/

/-- bytes of `g_bitmap_buf` -/
abbrev bitmapBufSize : Nat := 4096

structure Volume where
  superblock : Superblock
  bitmapBlocks : UInt32
  /-- `g_bitmap_buf` -/
  bitmapBuf : Nat → UInt8
  inodes : UInt32 → Inode
  disk : UInt32 → Block

/-- `ekkfs_file_t` -/
structure File where
  inodeNum : UInt32
  position : UInt32
  flags : UInt32
  deriving DecidableEq

namespace Volume

/-! ## the bitmap -/

/-- bit `k` of the bitmap -/
def bit (buf : Nat → UInt8) (k : Nat) : Bool := (buf (k / 8)).toNat.testBit (k % 8)

/-- `|= (1 << bit)` and `&= ~(1 << bit)` -/
def assignBit (byte : UInt8) (bit : Nat) (used : Bool) : UInt8 :=
  if used then byte ||| UInt8.ofNat (1 <<< bit) else byte &&& ~~~ UInt8.ofNat (1 <<< bit)

def assignBufBit (buf : Nat → UInt8) (k : Nat) (used : Bool) : Nat → UInt8 :=
  update buf (k / 8) (assignBit (buf (k / 8)) (k % 8) used)

/-- `bitmap_set` -/
def bitmapSet (v : Volume) (blockNum : UInt32) (used : Bool) : Option Volume :=
  if blockNum < v.superblock.dataStart then some v
  else
    let dataBlock := (blockNum - v.superblock.dataStart).toNat
    if dataBlock / 8 < bitmapBufSize then
      some { v with bitmapBuf := assignBufBit v.bitmapBuf dataBlock used }
    else none

/-- the block that bit `bit` of byte `i` stands for -/
def blockOfBit (sb : Superblock) (i bit : Nat) : UInt32 :=
  sb.dataStart + UInt32.ofNat i * 8 + UInt32.ofNat bit

/-- the loop over the bits of byte `i` in `bitmap_alloc` -/
def freeBit (sb : Superblock) (byte : UInt8) (i : Nat) : Option Nat :=
  if byte ≠ 0xFF then
    (List.range 8).find? fun bit =>
      !byte.toNat.testBit bit && decide (blockOfBit sb i bit < sb.totalBlocks)
  else none

/-- the loop over the bytes in `bitmap_alloc`, for `n` bytes from byte `i` on -/
def allocFrom (v : Volume) : Nat → Nat → Option (Option UInt32 × Volume)
  | 0, _ => some (none, v)
  | n + 1, i =>
    if i < bitmapBufSize then
      match freeBit v.superblock (v.bitmapBuf i) i with
      | some bit =>
        let block := blockOfBit v.superblock i bit
        -- the callers take a block number from 2^31 on for a failure: the result is an int
        some (if block < 0x80000000 then some block else none,
          { v with
            bitmapBuf := update v.bitmapBuf i (assignBit (v.bitmapBuf i) bit true)
            superblock := { v.superblock with freeBlocks := v.superblock.freeBlocks - 1 } })
      | none => allocFrom v n (i + 1)
    else none

/-- `bitmap_alloc`: the new block, if there is one -/
def bitmapAlloc (v : Volume) : Option (Option UInt32 × Volume) :=
  let totalDataBlocks := v.superblock.totalBlocks - v.superblock.dataStart
  let bitmapBytes := (totalDataBlocks + 7) / 8
  v.allocFrom bitmapBytes.toNat 0

/-- `bitmap_free` -/
def bitmapFree (v : Volume) (blockNum : UInt32) : Option Volume :=
  if blockNum ≥ v.superblock.dataStart then
    (v.bitmapSet blockNum false).map fun v =>
      { v with superblock := { v.superblock with freeBlocks := v.superblock.freeBlocks + 1 } }
  else some v

/-- `bitmap_save` -/
def bitmapSave (v : Volume) : Option Volume :=
  if v.bitmapBlocks.toNat * blockSize ≤ bitmapBufSize then
    some { v with
      disk := (List.range v.bitmapBlocks.toNat).foldl (fun disk i =>
        update disk (v.superblock.bitmapStart + UInt32.ofNat i) fun k =>
          v.bitmapBuf (i * blockSize + k)) v.disk }
  else none

/-! ## inodes -/

/-- `inode_read` on the array of inodes -/
def inodeRead (v : Volume) (inodeNum : UInt32) : Except FsErr Inode :=
  if inodeNum ≥ v.superblock.inodeCount then .error .invalid else .ok (v.inodes inodeNum)

/-- `inode_write` on the array of inodes -/
def inodeWrite (v : Volume) (inodeNum : UInt32) (inode : Inode) : Except FsErr Unit × Volume :=
  if inodeNum ≥ v.superblock.inodeCount then (.error .invalid, v)
  else (.ok (), { v with inodes := update v.inodes inodeNum inode })

def findInode (v : Volume) (p : Inode → Bool) : Option UInt32 :=
  ((List.range v.superblock.inodeCount.toNat).find? fun i => p (v.inodes (UInt32.ofNat i))).bind
    fun i => if i < 2 ^ 31 then some (UInt32.ofNat i) else none

/-- `strncmp(a, b, n) == 0` -/
def strncmpEq : Nat → List UInt8 → List UInt8 → Bool
  | 0, _, _ => true
  | n + 1, a, b =>
    if a.headD 0 ≠ b.headD 0 then false
    else if a.headD 0 = 0 then true
    else strncmpEq n a.tail b.tail

/-- `inode_alloc` -/
def inodeAlloc (v : Volume) : Option UInt32 :=
  v.findInode fun inode => decide (inode.flags &&& flagUsed = 0)

/-- `inode_find_by_name` -/
def inodeFindByName (v : Volume) (name : List UInt8) : Option UInt32 :=
  v.findInode fun inode =>
    decide (inode.flags &&& flagUsed ≠ 0) && strncmpEq maxFilename inode.name.toList name

/-! ## calls -/

/-- the name field: `strncpy` and the terminating zero -/
def nameField (name : List UInt8) : Vector UInt8 16 :=
  Vector.ofFn fun k => if k.val < maxFilename then name.getD k.val 0 else 0

/-- `ekkfs_create`; `name` without its terminating zero, `now` from `ekkfs_get_time_us` -/
def create (v : Volume) (name : List UInt8) (ownerId flags : UInt32) (now : UInt64) :
    Except FsErr UInt32 × Volume :=
  if name.length > maxFilename then (.error .nameTooLong, v)
  else
    match v.inodeFindByName name with
    | some _ => (.error .exists, v)
    | none =>
      match v.inodeAlloc with
      | none => (.error .noInodes, v)
      | some inodeNum =>
        match v.inodeWrite inodeNum
          { Inode.zero with
            flags := flagUsed ||| flags
            ownerId := ownerId
            size := 0
            created := now
            modified := now
            name := nameField name } with
        | (.error _, v) => (.error .io, v)
        | (.ok (), v) => (.ok inodeNum, v)

def freeAll (v : Volume) : List UInt32 → Option Volume
  | [] => some v
  | block :: rest =>
    if block ≠ 0 then (v.bitmapFree block).bind fun v => v.freeAll rest else v.freeAll rest

/-- the part of `ekkfs_delete` that gives the blocks back -/
def freeBlocks (v : Volume) (inode : Inode) : Option Volume :=
  (v.freeAll inode.blocks.toList).bind fun v =>
    if inode.indirect ≠ 0 then
      (v.freeAll (words (v.disk inode.indirect)).toList).bind fun v => v.bitmapFree inode.indirect
    else some v

/-- `ekkfs_delete` -/
def delete (v : Volume) (name : List UInt8) (ownerId : UInt32) :
    Option (Except FsErr Unit × Volume) :=
  match v.inodeFindByName name with
  | none => some (.error .notFound, v)
  | some inodeNum =>
    match v.inodeRead inodeNum with
    | .error _ => some (.error .io, v)
    | .ok inode =>
      if ownerId ≠ 0 ∧ inode.ownerId ≠ ownerId then some (.error .permission, v)
      else if inode.flags &&& flagSystem ≠ 0 ∧ ownerId ≠ 0 then some (.error .permission, v)
      else
        (v.freeBlocks inode).map fun v =>
          match v.inodeWrite inodeNum Inode.zero with
          | (.error _, v) => (.error .io, v)
          | (.ok (), v) => (.ok (), v)

/-- `ekkfs_open` -/
def openFile (v : Volume) (name : List UInt8) : Except FsErr File :=
  match v.inodeFindByName name with
  | none => .error .notFound
  | some inodeNum => .ok ⟨inodeNum, 0, 0⟩

/-! ## reading -/

/-- the block that `ekkfs_read` finds for block index `idx`, 0 for a hole -/
def blockNum (v : Volume) (inode : Inode) (idx : Nat) : Option UInt32 :=
  if h : idx < directBlocks then some inode.blocks[idx]
  else if inode.indirect ≠ 0 then
    if h : idx - directBlocks < indirectBlocks then
      some (words (v.disk inode.indirect))[idx - directBlocks]
    else none
  else some 0

/-- the loop of `ekkfs_read`, with at most `fuel` rounds -/
def readLoop (v : Volume) (inode : Inode) (size : Nat) :
    Nat → UInt32 → List UInt8 → Option (List UInt8 × UInt32)
  | 0, position, out => if out.length < size then none else some (out, position)
  | fuel + 1, position, out =>
    if out.length < size then
      let offset := position.toNat % blockSize
      let toRead := min (blockSize - offset) (size - out.length)
      match v.blockNum inode (position.toNat / blockSize) with
      | none => none
      | some block =>
        let bytes :=
          if block ≠ 0 then slice (v.disk block) offset toRead else List.replicate toRead 0
        v.readLoop inode size fuel (position + UInt32.ofNat toRead) (out ++ bytes)
    else some (out, position)

/-- `ekkfs_read`: the bytes it puts into the buffer -/
def read (v : Volume) (file : File) (size : UInt32) :
    Option (Except FsErr (List UInt8) × File) :=
  match v.inodeRead file.inodeNum with
  | .error _ => some (.error .io, file)
  | .ok inode =>
    if inode.flags &&& flagUsed = 0 then some (.error .notFound, file)
    else
      let remaining := if file.position < inode.size then inode.size - file.position else 0
      let size := if size > remaining then remaining else size
      if size = 0 then some (.ok [], file)
      else
        (v.readLoop inode size.toNat size.toNat file.position []).map fun (bytes, position) =>
          (.ok bytes, { file with position := position })

/-! ## writing -/

/-- `write_block` -/
def put (v : Volume) (blockNum : UInt32) (block : Block) : Volume :=
  { v with disk := update v.disk blockNum block }

/-- the block behind a pointer and its content: a new block of zeros if the pointer is 0; no block
if none is free -/
def target (v : Volume) (ptr : UInt32) : Option (Option (UInt32 × Block) × Volume) :=
  if ptr = 0 then
    v.bitmapAlloc.map fun (block, v) => (block.map fun b => (b, zeroBlock), v)
  else some (some (ptr, v.disk ptr), v)

/-- the indirect block and its pointers: a new one without pointers if there is none yet -/
def indirectTarget (v : Volume) (inode : Inode) :
    Option (Option (UInt32 × Vector UInt32 indirectBlocks) × Volume) :=
  if inode.indirect = 0 then
    v.bitmapAlloc.map fun (block, v) => (block.map fun b => (b, Vector.replicate _ 0), v)
  else some (some (inode.indirect, words (v.disk inode.indirect)), v)

/-- one round of `ekkfs_write`: `bytes` go to `offset` in block `idx` of the file.  An error when no
block is free; a new indirect block is then already in the inode, but not on the card. -/
def chunk (v : Volume) (inode : Inode) (idx offset : Nat) (bytes : List UInt8) :
    Option (Except (Volume × Inode) (Volume × Inode)) :=
  if h : idx < directBlocks then
    (v.target inode.blocks[idx]).map fun
      | (none, v) => .error (v, inode)
      | (some (block, data), v) =>
        .ok (v.put block (splice data offset bytes),
          { inode with blocks := inode.blocks.set idx block })
  else
    (v.indirectTarget inode).bind fun
      | (none, v) => some (.error (v, inode))
      | (some (indirect, ptrs), v) =>
        let inode := { inode with indirect := indirect }
        if h : idx - directBlocks < indirectBlocks then
          (v.target ptrs[idx - directBlocks]).map fun
            | (none, v) => .error (v, inode)
            | (some (block, data), v) =>
              .ok ((v.put block (splice data offset bytes)).put indirect
                (ofWords (ptrs.set (idx - directBlocks) block)), inode)
        else none

/-- what the loop of `ekkfs_write` leaves: whether it ran out of blocks, the volume, the inode, the
position and the number of bytes written -/
structure Written where
  full : Bool
  vol : Volume
  inode : Inode
  position : UInt32
  count : Nat

/-- the loop of `ekkfs_write`, with at most `fuel` rounds -/
def writeLoop (buffer : Nat → UInt8) (size : Nat) :
    Nat → Volume → Inode → UInt32 → Nat → Option Written
  | 0, v, inode, position, count =>
    if count < size then none else some ⟨false, v, inode, position, count⟩
  | fuel + 1, v, inode, position, count =>
    if count < size then
      let offset := position.toNat % blockSize
      let toWrite := min (blockSize - offset) (size - count)
      match v.chunk inode (position.toNat / blockSize) offset
        ((List.range toWrite).map fun t => buffer (count + t)) with
      | none => none
      | some (.error (v, inode)) => some ⟨true, v, inode, position, count⟩
      | some (.ok (v, inode)) =>
        writeLoop buffer size fuel v inode (position + UInt32.ofNat toWrite) (count + toWrite)
    else some ⟨false, v, inode, position, count⟩

/-- the end of `ekkfs_write`: the new size of the file, and the result -/
def finishWrite (file : File) (now : UInt64) (w : Written) :
    Except FsErr Nat × Volume × File :=
  let inode := { w.inode with
    modified := now
    size := if w.position > w.inode.size then w.position else w.inode.size }
  let inode := if w.full then inode else { inode with crc32 := 0 }
  (if w.full ∧ w.count = 0 then .error .full else .ok w.count,
    (w.vol.inodeWrite file.inodeNum inode).2, { file with position := w.position })

/-- `ekkfs_write` of `size` bytes of `buffer` -/
def write (v : Volume) (file : File) (buffer : Nat → UInt8) (size : UInt32) (ownerId : UInt32)
    (now : UInt64) : Option (Except FsErr Nat × Volume × File) :=
  match v.inodeRead file.inodeNum with
  | .error _ => some (.error .io, v, file)
  | .ok inode =>
    if inode.flags &&& flagUsed = 0 then some (.error .notFound, v, file)
    else if ownerId ≠ 0 ∧ inode.ownerId ≠ ownerId then some (.error .permission, v, file)
    else
      (writeLoop buffer size.toNat size.toNat v inode file.position 0).map (finishWrite file now)

/-! ## sync -/

/-- `ekkfs_sync` -/
def sync (v : Volume) : Option Volume :=
  v.bitmapSave.map fun v =>
    let sb := { v.superblock with
      crc32 := crc32 ((Superblock.layout.encode v.superblock).take 52) }
    { v with
      superblock := sb
      disk := update v.disk 0 (blockOf (Superblock.layout.encode sb)) }

end Volume

/-! ## sessions -/

/-- a volume and the file handles of its users -/
structure Session where
  vol : Volume
  files : Nat → File

inductive Call where
  | create (name : List UInt8) (ownerId flags : UInt32) (now : UInt64)
  | delete (name : List UInt8) (ownerId : UInt32)
  /-- `ekkfs_open` with handle `h` -/
  | openFile (h : Nat) (name : List UInt8)
  | close (h : Nat)
  | seek (h : Nat) (position : UInt32)
  | read (h : Nat) (size : UInt32)
  | write (h : Nat) (buffer : Nat → UInt8) (size : UInt32) (ownerId : UInt32) (now : UInt64)
  | sync

/-- what a call returns -/
inductive Reply where
  | ok
  | error (e : FsErr)
  | inode (inodeNum : UInt32)
  | bytes (data : List UInt8)
  | count (n : Nat)
  /-- the call left one of the arrays -/
  | outside
  deriving DecidableEq

namespace Session

def withFile (s : Session) (h : Nat) (file : File) : Session :=
  { s with files := update s.files h file }

def step (s : Session) : Call → Session × List Reply
  | .create name ownerId flags now =>
    match s.vol.create name ownerId flags now with
    | (.error e, vol) => ({ s with vol := vol }, [.error e])
    | (.ok inodeNum, vol) => ({ s with vol := vol }, [.inode inodeNum])
  | .delete name ownerId =>
    match s.vol.delete name ownerId with
    | none => (s, [.outside])
    | some (.error e, vol) => ({ s with vol := vol }, [.error e])
    | some (.ok (), vol) => ({ s with vol := vol }, [.ok])
  | .openFile h name =>
    match s.vol.openFile name with
    | .error e => (s, [.error e])
    | .ok file => (s.withFile h file, [.ok])
  | .close h => (s.withFile h ⟨0, 0, 0⟩, [.ok])
  | .seek h position => (s.withFile h { s.files h with position := position }, [.ok])
  | .read h size =>
    match s.vol.read (s.files h) size with
    | none => (s, [.outside])
    | some (.error e, file) => (s.withFile h file, [.error e])
    | some (.ok bytes, file) => (s.withFile h file, [.bytes bytes])
  | .write h buffer size ownerId now =>
    match s.vol.write (s.files h) buffer size ownerId now with
    | none => (s, [.outside])
    | some (.error e, vol, file) => ({ s with vol := vol }.withFile h file, [.error e])
    | some (.ok n, vol, file) => ({ s with vol := vol }.withFile h file, [.count n])
  | .sync =>
    match s.vol.sync with
    | none => (s, [.outside])
    | some vol => ({ s with vol := vol }, [.ok])

end Session
end Fs
end EkKor
