import EkKor.Fs.Layout
import EkKor.Lib.Mirror

/-!
# The block cache (`ekkfs.c`)

* `Card`                the card, the cache in front of it, and the partition that is in use;
* `readBlock`, `writeBlock`, `cacheFlush`, `cacheInvalidate`, `sdWrite`   the accesses;
* `Coherent`            the cache holds current blocks, each once, and every read so far was right;
* `coherent_readBlock`, …   which accesses keep it so.

Block reads and writes on the card do not fail.
-/

namespace EkKor
namespace Fs
open Mirror Function

/-! ## the cache -/

abbrev cacheSize : Nat := 16
abbrev cacheInvalidBlock : UInt32 := 0xFFFFFFFF

/-- `cache_entry_t` -/
structure CacheEntry where
  blockNum : UInt32
  accessCount : UInt32
  dirty : Bool
  data : Block

/-- `block_cache_t` -/
structure Cache where
  entries : Fin cacheSize → CacheEntry
  accessCounter : UInt32
  hits : UInt32
  misses : UInt32
  enabled : Bool

namespace Cache

/-- `g_cache` before the first `cache_init` -/
def off : Cache := ⟨fun _ => ⟨0, 0, false, zeroBlock⟩, 0, 0, 0, false⟩

/-- `cache_init` -/
def init (c : Cache) : Cache :=
  { entries := fun i =>
      { c.entries i with blockNum := cacheInvalidBlock, accessCount := 0, dirty := false }
    accessCounter := 0
    hits := 0
    misses := 0
    enabled := true }

def setEntry (c : Cache) (i : Fin cacheSize) (entry : CacheEntry) : Cache :=
  { c with entries := update c.entries i entry }

/-- `access_count = ++access_counter` for entry `i` -/
def touch (c : Cache) (i : Fin cacheSize) : Cache :=
  { c with
    accessCounter := c.accessCounter + 1
    entries := update c.entries i
      { c.entries i with accessCount := c.accessCounter + 1 } }

/-- `cache_find` -/
def find (c : Cache) (blockNum : UInt32) : Option (Fin cacheSize) × Cache :=
  if c.enabled then
    match (List.finRange cacheSize).find? fun i => decide ((c.entries i).blockNum = blockNum) with
    | some i => (some i, { c.touch i with hits := c.hits + 1 })
    | none => (none, { c with misses := c.misses + 1 })
  else (none, c)

/-- the loop of `cache_find_lru`; `min_access` is the count of entry `lru` -/
def lruFrom (c : Cache) : List (Fin cacheSize) → Fin cacheSize → Fin cacheSize
  | [], lru => lru
  | i :: rest, lru =>
    if (c.entries i).blockNum = cacheInvalidBlock then i
    else if (c.entries i).accessCount < (c.entries lru).accessCount then c.lruFrom rest i
    else c.lruFrom rest lru

/-- there is an entry for the loop to begin with -/
local instance instNeZeroCacheSize : NeZero cacheSize := ⟨by decide⟩

/-- `cache_find_lru` -/
def findLru (c : Cache) : Fin cacheSize := c.lruFrom (List.finRange cacheSize).tail 0

end Cache

/-! ## the card -/

/-- the card, and what stands before it -/
structure Card where
  /-- `g_fs.partition_lba` -/
  partitionLba : UInt32
  /-- `g_cache` -/
  cache : Cache
  disk : UInt32 → Block
  /-- what has been read and written so far -/
  log : List (Access UInt32 Block)

namespace Card

def lba (s : Card) (blockNum : UInt32) : UInt32 := s.partitionLba + blockNum

/-- `sd_write_block` -/
def sdWrite (s : Card) (lba : UInt32) (block : Block) : Card :=
  { s with disk := update s.disk lba block, log := s.log ++ [.write lba block] }

/-- `cache_writeback` -/
def cacheWriteback (s : Card) (i : Fin cacheSize) : Card :=
  let entry := s.cache.entries i
  if entry.dirty ∧ entry.blockNum ≠ cacheInvalidBlock then
    { s with
      disk := update s.disk (s.lba entry.blockNum) entry.data
      log := s.log ++ [.writeBack (s.lba entry.blockNum) entry.data]
      cache := s.cache.setEntry i { entry with dirty := false } }
  else s

/-- the entry `idx` of `cache_find_lru` makes room for a block -/
def cacheStore (s : Card) (blockNum : UInt32) (block : Block) : Card :=
  let idx := s.cache.findLru
  let s := s.cacheWriteback idx
  { s with
    cache := { s.cache.setEntry idx ⟨blockNum, s.cache.accessCounter + 1, false, block⟩ with
      accessCounter := s.cache.accessCounter + 1 } }

/-- `read_block` -/
def readBlock (s : Card) (blockNum : UInt32) : Block × Card :=
  match s.cache.find blockNum with
  | (some i, cache) =>
    ((cache.entries i).data,
      { s with
        cache := cache
        log := s.log ++ [.read (s.lba blockNum) (cache.entries i).data] })
  | (none, cache) =>
    let block := s.disk (s.lba blockNum)
    let s := { s with cache := cache, log := s.log ++ [Access.read (s.lba blockNum) block] }
    (block, if s.cache.enabled then s.cacheStore blockNum block else s)

/-- `write_block` -/
def writeBlock (s : Card) (blockNum : UInt32) (block : Block) : Card :=
  match s.cache.find blockNum with
  | (some i, cache) =>
    let cache := (cache.setEntry i { cache.entries i with data := block, dirty := true }).touch i
    { s with cache := cache }.sdWrite (s.lba blockNum) block
  | (none, cache) =>
    let s := { s with cache := cache }.sdWrite (s.lba blockNum) block
    if s.cache.enabled then s.cacheStore blockNum block else s

/-- `cache_flush` -/
def cacheFlush (s : Card) : Card :=
  (List.finRange cacheSize).foldl
    (fun s i => if (s.cache.entries i).dirty then s.cacheWriteback i else s) s

/-- `cache_invalidate` -/
def cacheInvalidate (s : Card) : Card :=
  let s := s.cacheFlush
  { s with
    cache := { s.cache with
      entries := fun i =>
        { s.cache.entries i with blockNum := cacheInvalidBlock, dirty := false } } }

/-- the card block and the content that an entry holds; a cache that is off holds nothing -/
def slots (s : Card) (i : Fin cacheSize) : Option (UInt32 × Block) :=
  let entry := s.cache.entries i
  if s.cache.enabled ∧ entry.blockNum ≠ cacheInvalidBlock then
    some (s.lba entry.blockNum, entry.data)
  else none

def Cached (s : Card) (lba : UInt32) : Prop := ∃ i block, s.slots i = some (lba, block)

end Card

/-- the cache holds current blocks, each once; the card holds what was last written to it, starting
from `disk`; and what was read or written back so far was current -/
structure Coherent (disk : UInt32 → Block) (s : Card) : Prop where
  mirrors : Mirrors s.slots s.disk
  off : s.cache.enabled = false → ∀ i, (s.cache.entries i).dirty = false
  written : s.disk = contents disk s.log
  current : Current disk s.log

variable {disk : UInt32 → Block} {s : Card} {b : UInt32} {i : Fin cacheSize}

/-! ## entries -/

/-- the entries hold the same blocks; none is dirty that was not -/
structure SameBlocks (c c' : Cache) : Prop where
  enabled : c'.enabled = c.enabled
  blockNum : ∀ i, (c'.entries i).blockNum = (c.entries i).blockNum
  data : ∀ i, (c'.entries i).data = (c.entries i).data
  dirty : ∀ i, (c'.entries i).dirty = true → (c.entries i).dirty = true

theorem sameBlocks_refl (c : Cache) : SameBlocks c c :=
  ⟨rfl, fun _ => rfl, fun _ => rfl, fun _ h => h⟩

variable {c c' : Cache} {s' : Card} {l : UInt32}

theorem SameBlocks.trans {c'' : Cache} (h : SameBlocks c c') (h' : SameBlocks c' c'') :
    SameBlocks c c'' :=
  ⟨h'.enabled.trans h.enabled, fun i => (h'.blockNum i).trans (h.blockNum i),
    fun i => (h'.data i).trans (h.data i), fun i hi => h.dirty i (h'.dirty i hi)⟩

theorem sameBlocks_update (c : Cache) (i : Fin cacheSize) (entry : CacheEntry)
    (hnum : entry.blockNum = (c.entries i).blockNum) (hdata : entry.data = (c.entries i).data)
    (hdirty : entry.dirty = true → (c.entries i).dirty = true) (counter hits misses : UInt32) :
    SameBlocks c ⟨update c.entries i entry, counter, hits, misses, c.enabled⟩ := by
  have hentry (j : Fin cacheSize) :
      (update c.entries i entry j).blockNum = (c.entries j).blockNum ∧
        (update c.entries i entry j).data = (c.entries j).data ∧
          ((update c.entries i entry j).dirty = true → (c.entries j).dirty = true) := by
    by_cases hj : j = i
    · rw [hj, update_self]
      exact ⟨hnum, hdata, hdirty⟩
    · rw [update_of_ne hj]
      exact ⟨rfl, rfl, id⟩
  exact ⟨rfl, fun j => (hentry j).1, fun j => (hentry j).2.1, fun j => (hentry j).2.2⟩

theorem find_some (h : c.find b = (some i, c')) :
    c.enabled = true ∧ (c.entries i).blockNum = b ∧ SameBlocks c c' := by
  unfold Cache.find at h
  split_ifs at h with henabled
  · cases hfind : (List.finRange cacheSize).find?
        fun i => decide ((c.entries i).blockNum = b) with
    | none =>
      rw [hfind] at h
      cases h
    | some j =>
      rw [hfind] at h
      obtain ⟨hj, rfl⟩ := Prod.mk.inj h
      obtain rfl := Option.some.inj hj
      have hnum := List.find?_some (p := fun i => decide ((c.entries i).blockNum = b)) hfind
      exact ⟨henabled, of_decide_eq_true hnum,
        sameBlocks_update c j { c.entries j with accessCount := c.accessCounter + 1 } rfl rfl id ..⟩
  · cases h

theorem find_none (h : c.find b = (none, c')) :
    (c.enabled = true → ∀ i, (c.entries i).blockNum ≠ b) ∧ SameBlocks c c' := by
  unfold Cache.find at h
  split_ifs at h with henabled
  · cases hfind : (List.finRange cacheSize).find?
        fun i => decide ((c.entries i).blockNum = b) with
    | none =>
      rw [hfind] at h
      obtain rfl := (Prod.mk.inj h).2
      refine ⟨fun _ i hi => ?_, ⟨rfl, fun _ => rfl, fun _ => rfl, fun _ => id⟩⟩
      exact List.find?_eq_none.mp hfind i (List.mem_finRange i) (decide_eq_true hi)
    | some j =>
      rw [hfind] at h
      cases h
  · obtain rfl := (Prod.mk.inj h).2
    exact ⟨fun h => absurd h henabled, sameBlocks_refl _⟩

/-! ## slots -/

theorem slots_congr (hlba : s'.partitionLba = s.partitionLba) (h : SameBlocks s.cache s'.cache) :
    s'.slots = s.slots := by
  funext i
  unfold Card.slots Card.lba
  dsimp only
  rw [h.enabled, h.blockNum i, h.data i, hlba]

theorem slots_eq_some {block : Block} : s.slots i = some (l, block) ↔
    (s.cache.enabled = true ∧ (s.cache.entries i).blockNum ≠ cacheInvalidBlock) ∧
      s.lba (s.cache.entries i).blockNum = l ∧ (s.cache.entries i).data = block := by
  unfold Card.slots
  dsimp only
  split_ifs with h
  · rw [Option.some_inj, Prod.mk_inj]
    exact (and_iff_right h).symm
  · exact ⟨nofun, fun h' => absurd h'.1 h⟩

theorem lba_inj {b b' : UInt32} (h : s.lba b = s.lba b') : b = b' :=
  (UInt32.add_right_inj s.partitionLba).mp h

theorem not_slot (h : s.cache.enabled = true → ∀ i, (s.cache.entries i).blockNum ≠ b)
    (i : Fin cacheSize) (block : Block) : s.slots i ≠ some (s.lba b, block) := by
  intro hi
  obtain ⟨⟨henabled, _⟩, hnum, _⟩ := slots_eq_some.mp hi
  exact h henabled i (lba_inj hnum)

/-! ## steps that change no block -/

theorem Coherent.same (h : Coherent disk s) (hlba : s'.partitionLba = s.partitionLba)
    (hsame : SameBlocks s.cache s'.cache) (hdisk : s'.disk = s.disk) (hlog : s'.log = s.log) :
    Coherent disk s' := by
  refine ⟨?_, fun hoff i => ?_, ?_, hlog ▸ h.current⟩
  · rw [slots_congr hlba hsame, hdisk]
    exact h.mirrors
  · rw [hsame.enabled] at hoff
    by_contra hdirty
    have hold := hsame.dirty i (Bool.eq_true_of_not_eq_false hdirty)
    rw [h.off hoff i] at hold
    cases hold
  · rw [hdisk, hlog]
    exact h.written

theorem Coherent.access (h : Coherent disk s) (a : Access UInt32 Block)
    (ha : Current s.disk [a] ∧ contents s.disk [a] = s.disk)
    (hlba : s'.partitionLba = s.partitionLba) (hcache : s'.cache = s.cache)
    (hdisk : s'.disk = s.disk) (hlog : s'.log = s.log ++ [a]) : Coherent disk s' := by
  have hslots := slots_congr hlba (hcache ▸ sameBlocks_refl s.cache)
  refine ⟨hslots ▸ hdisk ▸ h.mirrors, hcache ▸ h.off, ?_, ?_⟩
  · rw [hlog, contents_append, ← h.written, ha.2, hdisk]
  · rw [hlog, current_append, ← h.written]
    exact ⟨h.current, ha.1⟩

/-! ## writing back -/

theorem coherent_cacheWriteback (h : Coherent disk s) (i : Fin cacheSize) :
    Coherent disk (s.cacheWriteback i) ∧ SameBlocks s.cache (s.cacheWriteback i).cache ∧
      (s.cacheWriteback i).partitionLba = s.partitionLba ∧
      (s.cacheWriteback i).disk = s.disk := by
  unfold Card.cacheWriteback
  dsimp only
  split_ifs with hdirty
  · have henabled : s.cache.enabled = true := by
      by_contra hoff
      rw [h.off (Bool.eq_false_of_not_eq_true hoff) i] at hdirty
      exact Bool.false_ne_true hdirty.1
    have hslot : s.slots i = some (s.lba (s.cache.entries i).blockNum, (s.cache.entries i).data) :=
      slots_eq_some.mpr ⟨⟨henabled, hdirty.2⟩, rfl, rfl⟩
    have hsame : SameBlocks s.cache (s.cache.setEntry i { s.cache.entries i with dirty := false }) :=
      sameBlocks_update s.cache i { s.cache.entries i with dirty := false } rfl rfl nofun ..
    have hupdate := h.mirrors.update_eq hslot
    refine ⟨?_, hsame, rfl, hupdate⟩
    have haccess : Coherent disk { s with
        log := s.log ++ [.writeBack (s.lba (s.cache.entries i).blockNum)
          (s.cache.entries i).data] } :=
      h.access (.writeBack _ _) ⟨⟨h.mirrors.current _ _ _ hslot, trivial⟩, rfl⟩ rfl rfl rfl rfl
    exact haccess.same rfl hsame hupdate rfl
  · exact ⟨h, sameBlocks_refl _, rfl, rfl⟩

theorem coherent_cacheFlush (h : Coherent disk s) :
    Coherent disk s.cacheFlush ∧ SameBlocks s.cache s.cacheFlush.cache ∧
      s.cacheFlush.partitionLba = s.partitionLba ∧ s.cacheFlush.disk = s.disk := by
  unfold Card.cacheFlush
  generalize List.finRange cacheSize = l
  induction l generalizing s with
  | nil => exact ⟨h, sameBlocks_refl _, rfl, rfl⟩
  | cons i l ih =>
    rw [List.foldl_cons]
    split_ifs with hdirty
    · obtain ⟨hc, hsame, hlba, hdisk⟩ := coherent_cacheWriteback h i
      obtain ⟨hc', hsame', hlba', hdisk'⟩ := ih hc
      exact ⟨hc', hsame.trans hsame', hlba'.trans hlba, hdisk'.trans hdisk⟩
    · exact ih h

theorem coherent_empty (h : Coherent disk s) (hempty : ∀ i, s'.slots i = none)
    (hclean : ∀ i, (s'.cache.entries i).dirty = false) (hdisk : s'.disk = s.disk)
    (hlog : s'.log = s.log) : Coherent disk s' :=
  ⟨mirrors_empty hempty _, fun _ => hclean, by rw [hdisk, hlog]; exact h.written,
    hlog ▸ h.current⟩

theorem coherent_cacheInvalidate (h : Coherent disk s) :
    Coherent disk s.cacheInvalidate ∧ (∀ i, s.cacheInvalidate.slots i = none) ∧
      s.cacheInvalidate.partitionLba = s.partitionLba ∧ s.cacheInvalidate.disk = s.disk := by
  obtain ⟨hc, _, hlba, hdisk⟩ := coherent_cacheFlush h
  have hempty (i : Fin cacheSize) : s.cacheInvalidate.slots i = none := if_neg fun hi => hi.2 rfl
  exact ⟨coherent_empty hc hempty (fun _ => rfl) rfl rfl, hempty, hlba, hdisk⟩

theorem slots_init (s : Card) (i : Fin cacheSize) :
    Card.slots { s with cache := s.cache.init } i = none := by
  unfold Card.slots
  exact if_neg fun hi => hi.2 rfl

/-! ## reading and writing -/

theorem slots_cacheStore (h : Coherent disk s) (henabled : s.cache.enabled = true)
    (hb : b ≠ cacheInvalidBlock) (block : Block) :
    (s.cacheStore b block).slots =
      update s.slots s.cache.findLru (some (s.lba b, block)) := by
  obtain ⟨_, hsame, hlba, _⟩ := coherent_cacheWriteback h s.cache.findLru
  rw [← slots_congr hlba hsame]
  have hlba' : s.lba b = (s.cacheWriteback s.cache.findLru).lba b := by
    unfold Card.lba
    rw [hlba]
  rw [hlba']
  have henabled' := hsame.enabled.trans henabled
  unfold Card.cacheStore
  dsimp only
  generalize s.cache.findLru = idx at *
  generalize s.cacheWriteback idx = s₁ at *
  funext j
  by_cases hj : j = idx
  · rw [hj, update_self]
    refine slots_eq_some.mpr ⟨⟨henabled', ?_⟩, ?_, ?_⟩
    · show (update s₁.cache.entries idx _ idx).blockNum ≠ _
      rw [update_self]
      exact hb
    · show s₁.lba (update s₁.cache.entries idx _ idx).blockNum = _
      rw [update_self]
    · show (update s₁.cache.entries idx _ idx).data = _
      rw [update_self]
  · rw [update_of_ne hj]
    show (if s₁.cache.enabled ∧ (update s₁.cache.entries idx _ j).blockNum ≠ _ then
      some (s₁.lba (update s₁.cache.entries idx _ j).blockNum,
        (update s₁.cache.entries idx _ j).data) else none) = _
    rw [update_of_ne hj]
    rfl

theorem cacheStore_frame (h : Coherent disk s) (block : Block) :
    (s.cacheStore b block).partitionLba = s.partitionLba ∧ (s.cacheStore b block).disk = s.disk ∧
      (s.cacheStore b block).cache.enabled = s.cache.enabled := by
  obtain ⟨_, hsame, hlba, hdisk⟩ := coherent_cacheWriteback h s.cache.findLru
  exact ⟨hlba, hdisk, hsame.enabled⟩

theorem cacheStore_log (s : Card) (b : UInt32) (block : Block) :
    ∃ rest, (s.cacheStore b block).log = s.log ++ rest := by
  unfold Card.cacheStore Card.cacheWriteback
  dsimp only
  split_ifs
  · exact ⟨_, rfl⟩
  · exact ⟨[], (List.append_nil _).symm⟩

theorem coherent_cacheStore (h : Coherent disk s) (henabled : s.cache.enabled = true)
    (hb : b ≠ cacheInvalidBlock) (hnew : ∀ i, (s.cache.entries i).blockNum ≠ b) :
    Coherent disk (s.cacheStore b (s.disk (s.lba b))) := by
  obtain ⟨hc, _, _, hdisk⟩ := coherent_cacheWriteback h s.cache.findLru
  obtain ⟨_, hdisk', hon⟩ := cacheStore_frame h (s.disk (s.lba b)) (b := b)
  refine ⟨?_, fun hoff => ?_, hc.written, hc.current⟩
  · rw [slots_cacheStore h henabled hb, hdisk']
    exact h.mirrors.fill (fun j block _ => not_slot (fun _ => hnew) j block) rfl
  · rw [hon, henabled] at hoff
    cases hoff

/-- `read_block` returns the current block -/
theorem coherent_readBlock (h : Coherent disk s)
    (hb : s.cache.enabled = true → b ≠ cacheInvalidBlock) :
    Coherent disk (s.readBlock b).2 ∧ (s.readBlock b).1 = s.disk (s.lba b) ∧
      (s.readBlock b).2.partitionLba = s.partitionLba ∧ (s.readBlock b).2.disk = s.disk ∧
      (s.readBlock b).2.cache.enabled = s.cache.enabled := by
  have haccess {cache : Cache} (hsame : SameBlocks s.cache cache) {block : Block}
      (hblock : s.disk (s.lba b) = block) :
      Coherent disk { s with cache := cache, log := s.log ++ [.read (s.lba b) block] } := by
    have hread : Coherent disk { s with log := s.log ++ [.read (s.lba b) block] } :=
      h.access (.read _ _) ⟨⟨hblock, trivial⟩, rfl⟩ rfl rfl rfl rfl
    exact hread.same rfl hsame rfl rfl
  unfold Card.readBlock
  cases hfind : s.cache.find b with
  | mk found cache =>
    cases found with
    | some i =>
      obtain ⟨henabled, hnum, hsame⟩ := find_some hfind
      have hslot : s.slots i = some (s.lba b, (cache.entries i).data) :=
        slots_eq_some.mpr ⟨⟨henabled, hnum ▸ hb henabled⟩, by rw [hnum], (hsame.data i).symm⟩
      have hblock := h.mirrors.current _ _ _ hslot
      exact ⟨haccess hsame hblock, hblock.symm, rfl, rfl, hsame.enabled⟩
    | none =>
      obtain ⟨hnew, hsame⟩ := find_none hfind
      have hread := haccess hsame rfl
      dsimp only
      split_ifs with henabled
      · have henabled' : s.cache.enabled = true := hsame.enabled.symm.trans henabled
        have hstore := coherent_cacheStore hread henabled (hb henabled') fun i =>
          (hsame.blockNum i).symm ▸ hnew henabled' i
        obtain ⟨hlba, hdisk, hon⟩ := cacheStore_frame hread (s.disk (s.lba b)) (b := b)
        exact ⟨hstore, rfl, hlba, hdisk, hon.trans hsame.enabled⟩
      · exact ⟨hread, rfl, rfl, rfl, hsame.enabled⟩

/-- what `read_block` returns is in the log -/
theorem readBlock_log (s : Card) (b : UInt32) : ∃ rest,
    (s.readBlock b).2.log = s.log ++ .read (s.lba b) (s.readBlock b).1 :: rest := by
  unfold Card.readBlock
  cases s.cache.find b with
  | mk found cache =>
    cases found with
    | some i => exact ⟨[], rfl⟩
    | none =>
      dsimp only
      split_ifs with henabled
      · obtain ⟨rest, hrest⟩ := cacheStore_log
          { s with cache := cache, log := s.log ++ [.read (s.lba b) (s.disk (s.lba b))] } b
          (s.disk (s.lba b))
        exact ⟨rest, hrest.trans (List.append_cons ..).symm⟩
      · exact ⟨[], rfl⟩

/-- if the reads so far were right, `read_block` returned what was last written -/
theorem current_readBlock (h : Current disk (s.readBlock b).2.log) :
    contents disk s.log (s.lba b) = (s.readBlock b).1 := by
  obtain ⟨rest, hrest⟩ := readBlock_log s b
  rw [hrest] at h
  exact ((current_append ..).mp h).2.1

theorem coherent_sdWrite (h : Coherent disk s) {block : Block}
    (hl : ∀ i block', s.slots i = some (l, block') → block' = block) :
    Coherent disk (s.sdWrite l block) := by
  refine ⟨h.mirrors.write_beside hl, h.off, ?_, ?_⟩
  · unfold Card.sdWrite
    rw [contents_append, ← h.written]
    rfl
  · unfold Card.sdWrite
    rw [current_append]
    exact ⟨h.current, trivial⟩

theorem coherent_writeMiss (h : Coherent disk s) {cache : Cache}
    (hfind : s.cache.find b = (none, cache)) (block : Block) :
    Coherent disk (Card.sdWrite { s with cache := cache } (s.lba b) block) ∧
      Card.slots (Card.sdWrite { s with cache := cache } (s.lba b) block) = s.slots := by
  obtain ⟨hnew, hsame⟩ := find_none hfind
  have hslots : Card.slots { s with cache := cache } = s.slots := slots_congr rfl hsame
  have hnot (i : Fin cacheSize) (block' : Block)
      (hi : Card.slots { s with cache := cache } i = some (s.lba b, block')) : block' = block := by
    rw [hslots] at hi
    exact absurd hi (not_slot hnew i block')
  have hfound : Coherent disk { s with cache := cache } := h.same rfl hsame rfl rfl
  exact ⟨coherent_sdWrite hfound hnot, hslots⟩

theorem slots_writeHit {cache : Cache} (hsame : SameBlocks s.cache cache)
    (henabled : s.cache.enabled = true) (hnum : (s.cache.entries i).blockNum = b)
    (hb : b ≠ cacheInvalidBlock) (block : Block) :
    Card.slots (Card.sdWrite { s with
      cache := (cache.setEntry i { cache.entries i with data := block, dirty := true }).touch i }
        (s.lba b) block) = update s.slots i (some (s.lba b, block)) := by
  generalize hc : (cache.setEntry i { cache.entries i with data := block, dirty := true }).touch
    i = c
  have hon : c.enabled = true := by
    rw [← hc]
    exact hsame.enabled.trans henabled
  have hself : (c.entries i).blockNum = b ∧ (c.entries i).data = block := by
    rw [← hc]
    unfold Cache.touch Cache.setEntry
    dsimp only
    rw [update_self, update_self]
    exact ⟨(hsame.blockNum i).trans hnum, rfl⟩
  have hother (j : Fin cacheSize) (hj : j ≠ i) : c.entries j = cache.entries j := by
    rw [← hc]
    unfold Cache.touch Cache.setEntry
    dsimp only
    rw [update_of_ne hj, update_of_ne hj]
  funext j
  by_cases hj : j = i
  · rw [hj, update_self]
    exact slots_eq_some.mpr ⟨⟨hon, hself.1.symm ▸ hb⟩, congrArg s.lba hself.1, hself.2⟩
  · rw [update_of_ne hj]
    unfold Card.slots
    show (if c.enabled ∧ (c.entries j).blockNum ≠ _ then
      some (s.lba (c.entries j).blockNum, (c.entries j).data) else none) = _
    rw [hother j hj, hsame.blockNum j, hsame.data j, hon, henabled]

/-- `write_block` keeps the cache current -/
theorem coherent_writeBlock (h : Coherent disk s)
    (hb : s.cache.enabled = true → b ≠ cacheInvalidBlock) (block : Block) :
    Coherent disk (s.writeBlock b block) ∧
      (s.writeBlock b block).disk = update s.disk (s.lba b) block ∧
      (s.writeBlock b block).partitionLba = s.partitionLba ∧
      (s.writeBlock b block).cache.enabled = s.cache.enabled := by
  unfold Card.writeBlock
  cases hfind : s.cache.find b with
  | mk found cache =>
    cases found with
    | some i =>
      obtain ⟨henabled, hnum, hsame⟩ := find_some hfind
      have hslots := slots_writeHit hsame henabled hnum (hb henabled) block
      have hon := hsame.enabled.trans henabled
      have hslot : s.slots i = some (s.lba b, (s.cache.entries i).data) :=
        slots_eq_some.mpr ⟨⟨henabled, hnum ▸ hb henabled⟩, by rw [hnum], rfl⟩
      refine ⟨⟨?_, fun hoff => absurd (hon.symm.trans hoff) nofun, ?_, ?_⟩, rfl, rfl,
        hsame.enabled⟩
      · rw [hslots]
        refine h.mirrors.write (fun j block' hj hi => hj ?_) block
        exact h.mirrors.once j i _ _ _ hi hslot
      · unfold Card.sdWrite
        rw [contents_append, ← h.written]
        rfl
      · unfold Card.sdWrite
        rw [current_append]
        exact ⟨h.current, trivial⟩
    | none =>
      obtain ⟨hnew, hsame⟩ := find_none hfind
      dsimp only
      have hwrite := (coherent_writeMiss h hfind block).1
      split_ifs with henabled
      · have henabled' : s.cache.enabled = true := hsame.enabled.symm.trans henabled
        have hstore := coherent_cacheStore hwrite henabled (hb henabled') fun i =>
          (hsame.blockNum i).symm ▸ hnew henabled' i
        obtain ⟨hlba, hdisk, hon⟩ := cacheStore_frame hwrite block (b := b)
        have hread : ((Card.sdWrite { s with cache := cache } (s.lba b) block).disk
            ((Card.sdWrite { s with cache := cache } (s.lba b) block).lba b)) = block :=
          update_self ..
        rw [hread] at hstore
        exact ⟨hstore, hdisk, hlba, hon.trans hsame.enabled⟩
      · exact ⟨hwrite, rfl, rfl, hsame.enabled⟩

theorem coherent_sdWrite_init (h : Coherent disk s) (l : UInt32) (block : Block) :
    Coherent disk { s.sdWrite l block with cache := (s.sdWrite l block).cache.init } := by
  have hempty : Coherent disk { s with cache := s.cache.init } :=
    coherent_empty h (slots_init s) (fun _ => rfl) rfl rfl
  exact coherent_sdWrite hempty fun i _ hi => absurd ((slots_init s i).symm.trans hi) nofun

theorem coherent_partition (h : Coherent disk s) {p : UInt32}
    (hp : s.cache.enabled = true → ∀ i, (s.cache.entries i).blockNum ≠ cacheInvalidBlock →
      s.disk (p + (s.cache.entries i).blockNum) = (s.cache.entries i).data) :
    Coherent disk { s with partitionLba := p } := by
  refine ⟨⟨fun i l block hi => ?_, fun i j l block block' hi hj => ?_⟩, h.off, h.written,
    h.current⟩
  · obtain ⟨⟨henabled, hnum⟩, rfl, rfl⟩ := slots_eq_some.mp hi
    exact hp henabled i hnum
  · obtain ⟨hon, rfl, _⟩ := slots_eq_some.mp hi
    obtain ⟨hon', hl, _⟩ := slots_eq_some.mp hj
    have hnum : (s.cache.entries j).blockNum = (s.cache.entries i).blockNum :=
      (UInt32.add_right_inj p).mp hl
    refine h.mirrors.once i j _ _ _ (slots_eq_some.mpr ⟨hon, rfl, rfl⟩)
      (slots_eq_some.mpr ⟨hon', ?_, rfl⟩)
    rw [hnum]

theorem cached_writeBlock (h : Coherent disk s)
    (hb : s.cache.enabled = true → b ≠ cacheInvalidBlock) (block : Block)
    (hl : (s.writeBlock b block).Cached l) : s.Cached l ∨ l = s.lba b := by
  have hupdate {i : Fin cacheSize} {s' : Card}
      (hslots : s'.slots = update s.slots i (some (s.lba b, block)))
      (hl : s'.Cached l) : s.Cached l ∨ l = s.lba b := by
    obtain ⟨j, block', hj⟩ := hl
    rw [hslots] at hj
    by_cases hji : j = i
    · rw [hji, update_self] at hj
      exact .inr (Prod.mk.inj (Option.some.inj hj)).1.symm
    · rw [update_of_ne hji] at hj
      exact .inl ⟨j, block', hj⟩
  unfold Card.writeBlock at hl
  cases hfind : s.cache.find b with
  | mk found cache =>
    rw [hfind] at hl
    cases found with
    | some i =>
      obtain ⟨henabled, hnum, hsame⟩ := find_some hfind
      exact hupdate (slots_writeHit hsame henabled hnum (hb henabled) block) hl
    | none =>
      obtain ⟨hwrite, hslots⟩ := coherent_writeMiss h hfind block
      dsimp only at hl
      split_ifs at hl with henabled
      · have henabled' : s.cache.enabled = true :=
          (find_none hfind).2.enabled.symm.trans henabled
        have hstore := slots_cacheStore hwrite henabled (hb henabled') block
        rw [hslots] at hstore
        exact hupdate hstore hl
      · obtain ⟨j, block', hj⟩ := hl
        rw [hslots] at hj
        exact .inl ⟨j, block', hj⟩

end Fs
end EkKor
