import EkKor.Fs.Cache
import EkKor.Lib.Runs

/-!
# Block accesses that fail (`ekkfs.c`)

* `readBlockIo`, `writeBlockIo`   the block accesses, with the results of the accesses to the card;
* `Unseen`                        later reads return what they would have returned before a call;
* `unseen_iff`                    a failed call is unseen unless it writes a cached block;
* `acked`                         the contents whose writes were acknowledged;
* `reads_acked`                   what the reads return in a run with failed accesses.

An access to the card that fails leaves the card as it was.
-/

namespace EkKor
namespace Fs
open Mirror Runs Function

/-- `SD_OK` -/
abbrev sdOk : Int := 0

/-- what the card returns in a call: for the block, and for the entry that makes room for it -/
structure IoResults where
  access : Int
  writeBack : Int

namespace Card

/-- `sd_write_block` that returns `ret` -/
def sdWriteIo (s : Card) (lba : UInt32) (block : Block) (ret : Int) : Int × Card :=
  (ret, if ret = sdOk then s.sdWrite lba block else s)

/-- `cache_writeback` -/
def cacheWritebackIo (s : Card) (i : Fin cacheSize) (ret : Int) : Int × Card :=
  let entry := s.cache.entries i
  if entry.dirty ∧ entry.blockNum ≠ cacheInvalidBlock then
    if ret = sdOk then
      (ret, { s with
        disk := update s.disk (s.lba entry.blockNum) entry.data
        log := s.log ++ [.writeBack (s.lba entry.blockNum) entry.data]
        cache := s.cache.setEntry i { entry with dirty := false } })
    else (ret, s)
  else (sdOk, s)

/-- the entry `idx` of `cache_find_lru` makes room for a block; nobody looks at the result of writing
it back -/
def cacheStoreIo (s : Card) (blockNum : UInt32) (block : Block) (ret : Int) : Card :=
  let idx := s.cache.findLru
  let s := (s.cacheWritebackIo idx ret).2
  { s with
    cache := { s.cache.setEntry idx ⟨blockNum, s.cache.accessCounter + 1, false, block⟩ with
      accessCounter := s.cache.accessCounter + 1 } }

/-- `read_block` -/
def readBlockIo (s : Card) (blockNum : UInt32) (io : IoResults) : Except Int Block × Card :=
  match s.cache.find blockNum with
  | (some i, cache) =>
    (.ok (cache.entries i).data,
      { s with
        cache := cache
        log := s.log ++ [.read (s.lba blockNum) (cache.entries i).data] })
  | (none, cache) =>
    if io.access ≠ sdOk then (.error io.access, { s with cache := cache })
    else
      let block := s.disk (s.lba blockNum)
      let s := { s with cache := cache, log := s.log ++ [Access.read (s.lba blockNum) block] }
      (.ok block, if s.cache.enabled then s.cacheStoreIo blockNum block io.writeBack else s)

/-- `write_block` -/
def writeBlockIo (s : Card) (blockNum : UInt32) (block : Block) (io : IoResults) : Int × Card :=
  match s.cache.find blockNum with
  | (some i, cache) =>
    let cache := (cache.setEntry i { cache.entries i with data := block, dirty := true }).touch i
    { s with cache := cache }.sdWriteIo (s.lba blockNum) block io.access
  | (none, cache) =>
    let (ret, s) := { s with cache := cache }.sdWriteIo (s.lba blockNum) block io.access
    if ret ≠ sdOk then (ret, s)
    else (sdOk, if s.cache.enabled then s.cacheStoreIo blockNum block io.writeBack else s)

end Card

/-- a block access -/
inductive BlockCall where
  | read (blockNum : UInt32)
  | write (blockNum : UInt32) (block : Block)

def BlockCall.blockNum : BlockCall → UInt32
  | .read blockNum | .write blockNum _ => blockNum

def Card.attempt (s : Card) (c : BlockCall) (io : IoResults) : Int × Card :=
  match c with
  | .read blockNum =>
    match s.readBlockIo blockNum io with
    | (.ok _, s) => (sdOk, s)
    | (.error ret, s) => (ret, s)
  | .write blockNum block => s.writeBlockIo blockNum block io

variable {disk : UInt32 → Block} {s : Card} {b : UInt32} {i : Fin cacheSize} {ret : Int}
  {io : IoResults} {block : Block} {c : BlockCall}

/-! ## where no access fails -/

def Card.Overwrites (s : Card) : BlockCall → Prop
  | .read _ => False
  | .write blockNum block =>
    ∃ i, (s.cache.find blockNum).1 = some i ∧ (s.cache.entries i).data ≠ block

def Cache.overwrite (c : Cache) (i : Fin cacheSize) (block : Block) : Cache :=
  (c.setEntry i { c.entries i with data := block, dirty := true }).touch i

def Card.clean (s : Card) (i : Fin cacheSize) : Card :=
  { s with cache := s.cache.setEntry i { s.cache.entries i with dirty := false } }

/-- the call is not for the number of an empty entry, and does not fail where it writes a block that
is cached with another content -/
def Card.Harmless (s : Card) (c : BlockCall) (io : IoResults) : Prop :=
  (s.cache.enabled = true → c.blockNum ≠ cacheInvalidBlock) ∧
    (io.access ≠ sdOk → ¬ s.Overwrites c)

end Fs
end EkKor
