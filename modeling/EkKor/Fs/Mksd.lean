import EkKor.Lib.Crc
import EkKor.Fs.Formatted

/-!
# Cards made on a host (`mksd.py`)

* `createEkkfsSuperblock`, `formatSdCard`   the superblock and the blocks that `mksd.py` writes;
* `Apart`                the regions of a superblock are disjoint and lie in the partition;
* `apart_of_formattable` so they do on a volume of `ekkfs_format`;
* `mksd_overlap`         they do on no card of `mksd.py` that a mount accepts: three blocks of the
                         journal lie behind its region;
* `mksd_small_card`      a card of 8 MB.
-/

namespace EkKor
namespace Fs
open List hiding Vector

namespace Mksd

/-! ## the tool -/

/-- `crc32`, the table is built by eight shifts -/
def crc32 (data : List UInt8) : UInt32 :=
  Crc.tabled (Crc.shift8 0xEDB88320) 0xFFFFFFFF data ^^^ 0xFFFFFFFF

/-- `struct.pack_into('<I', …)`; it fails outside of 32 bits -/
def packU32 (v : Int) : Option UInt32 :=
  if 0 ≤ v ∧ v < 2 ^ 32 then some (UInt32.ofNat v.toNat) else none

/-- the layout in `create_ekkfs_superblock` -/
structure Layout where
  inodeBlocks : Int
  bitmapBlocks : Int
  bitmapStart : Int
  journalStart : Int
  dataStart : Int
  freeBlocks : Int

def layout (totalBlocks inodeCount : Int) : Layout :=
  let inodeBlocks := (inodeCount + 8 - 1) / 8
  let dataBlocksEstimate := totalBlocks - 1 - inodeBlocks - 2
  let bitmapBlocks := (dataBlocksEstimate + 8 * 512 - 1) / (8 * 512)
  let bitmapBlocks := if bitmapBlocks < 1 then 1 else bitmapBlocks
  let bitmapStart := 1 + inodeBlocks
  let journalStart := bitmapStart + bitmapBlocks
  let dataStart := journalStart + 1
  ⟨inodeBlocks, bitmapBlocks, bitmapStart, journalStart, dataStart, totalBlocks - dataStart⟩

/-- `create_ekkfs_superblock` at a time in microseconds -/
def createEkkfsSuperblock (totalBlocks inodeCount : Int) (time : UInt64) : Option Superblock := do
  let l := layout totalBlocks inodeCount
  let totalBlocks ← packU32 totalBlocks
  let inodeCount ← packU32 inodeCount
  let bitmapStart ← packU32 l.bitmapStart
  let journalStart ← packU32 l.journalStart
  let dataStart ← packU32 l.dataStart
  let freeBlocks ← packU32 l.freeBlocks
  let sb : Superblock :=
    { magic := magic
      version := version
      blockSize := 512
      totalBlocks := totalBlocks
      inodeCount := inodeCount
      inodeStart := 1
      bitmapStart := bitmapStart
      journalStart := journalStart
      dataStart := dataStart
      freeBlocks := freeBlocks
      mountTime := time
      mountCount := 0
      crc32 := 0
      reserved := Vector.replicate 456 0 }
  some { sb with crc32 := crc32 ((Superblock.layout.encode sb).take 52) }

/-- the blocks of the partition that `format_sd_card` writes, in turn -/
def formatSdCard (totalBlocks inodeCount : Int) (time : UInt64) :
    Option (List (UInt32 × Block)) :=
  (createEkkfsSuperblock totalBlocks inodeCount time).map fun sb =>
    let l := layout totalBlocks inodeCount
    [(0, blockOf (Superblock.layout.encode sb))] ++
      (List.range l.inodeBlocks.toNat).map (fun i => (UInt32.ofNat (1 + i), zeroBlock)) ++
      (List.range l.bitmapBlocks.toNat).map
        (fun i => (UInt32.ofNat (l.bitmapStart.toNat + i), zeroBlock)) ++
      [(UInt32.ofNat l.journalStart.toNat, zeroBlock)]

end Mksd

def System.imaged (s : System) (partitionLba : UInt32) (writes : List (UInt32 × Block)) : System :=
  writes.foldl (fun s w => s.sdWrite (partitionLba + w.1) w.2) s

/-! ## regions -/

/-- the blocks from `start` up to `stop` -/
structure Region where
  start : Nat
  stop : Nat

def Region.Has (r : Region) (b : Nat) : Prop := r.start ≤ b ∧ b < r.stop

def Region.Disjoint (r r' : Region) : Prop := ∀ b, ¬ (r.Has b ∧ r'.Has b)

def regions (sb : Superblock) : List Region :=
  [⟨sb.inodeStart.toNat, sb.inodeStart.toNat + (sb.inodeCount.toNat + 7) / 8⟩,
    ⟨sb.bitmapStart.toNat, sb.bitmapStart.toNat + (mountBitmapBlocks sb).toNat⟩,
    ⟨sb.journalStart.toNat, sb.journalStart.toNat + journalBlocks.toNat⟩,
    ⟨sb.dataStart.toNat, sb.totalBlocks.toNat⟩]

/-- the regions are pairwise disjoint and lie in the partition -/
structure Apart (sb : Superblock) : Prop where
  disjoint : (regions sb).Pairwise Region.Disjoint
  inside : ∀ r ∈ regions sb, ∀ b, r.Has b → b < sb.totalBlocks.toNat

theorem not_apart {sb : Superblock} (h : sb.dataStart.toNat = sb.journalStart.toNat + 1) :
    ¬ Apart sb := by
  intro hapart
  have hjournal : Region.Has ⟨sb.journalStart.toNat, sb.journalStart.toNat + journalBlocks.toNat⟩
      sb.dataStart.toNat := by
    constructor
    · show sb.journalStart.toNat ≤ sb.dataStart.toNat
      omega
    · show sb.dataStart.toNat < sb.journalStart.toNat + 4
      omega
  have hinside := hapart.inside _ (by simp [regions]) _ hjournal
  have hdisjoint := hapart.disjoint
  unfold regions at hdisjoint
  rw [pairwise_cons, pairwise_cons, pairwise_cons] at hdisjoint
  exact hdisjoint.2.2.1 _ (mem_singleton.mpr rfl) _ ⟨hjournal, Nat.le_refl _, hinside⟩

theorem Region.disjoint_of_le {r r' : Region} (h : r.stop ≤ r'.start) : r.Disjoint r' := by
  rintro b ⟨⟨_, hstop⟩, hstart, _⟩
  exact absurd (Nat.lt_of_lt_of_le hstop h) (Nat.not_lt.mpr hstart)

/-- the regions of a volume made by `ekkfs_format` -/
theorem apart_of_formattable {totalBlocks inodeCount : UInt32}
    (h : Formattable totalBlocks inodeCount) (now : UInt64) :
    Apart (formatSuperblock totalBlocks inodeCount now) := by
  obtain ⟨hregions, _⟩ := h.regions now
  have hlayout := format_layout totalBlocks inodeCount now
  obtain ⟨_, hblocks⟩ := hregions.loads hlayout
  have hcount : ((formatSuperblock totalBlocks inodeCount now).inodeCount.toNat + 7) / 8 =
      (formatInodeBlocks inodeCount).toNat := by
    rw [formatInodeBlocks_toNat, if_pos h.inodes]
    rfl
  obtain ⟨_, _, _, hinode, hbitmap, hjournal, hdata, _⟩ := hlayout
  have hfits := UInt32.lt_iff_toNat_lt.mp hregions.data
  generalize formatSuperblock totalBlocks inodeCount now = sb at *
  have hone : sb.inodeStart.toNat = 1 := by
    rw [hinode]
    rfl
  have hfour : journalBlocks.toNat = 4 := rfl
  constructor
  · unfold regions
    simp only [pairwise_cons, mem_cons, not_mem_nil, or_false, forall_eq_or_imp,
      forall_eq, List.Pairwise.nil, and_true, IsEmpty.forall_iff, implies_true]
    refine ⟨⟨?_, ?_, ?_⟩, ⟨?_, ?_⟩, ?_⟩ <;>
      refine Region.disjoint_of_le ?_ <;>
      dsimp only <;> omega
  · unfold regions
    simp only [mem_cons, not_mem_nil, or_false, forall_eq_or_imp, forall_eq]
    refine ⟨?_, ?_, ?_, ?_⟩ <;> rintro b ⟨hlow, hstop⟩ <;> dsimp only at hstop <;> omega

theorem apart_small : Apart (formatSuperblock 20 8 0) :=
  apart_of_formattable ⟨by decide, by decide, by decide⟩ 0

variable {s s' s'' : System}

/-! ## what a mount keeps of the superblock -/

/-- the journal and the data start at the same blocks -/
structure SameStarts (s s' : System) : Prop where
  journal : s'.superblock.journalStart = s.superblock.journalStart
  data : s'.superblock.dataStart = s.superblock.dataStart

theorem sameStarts_of_eq (h : s'.superblock = s.superblock) : SameStarts s s' :=
  ⟨congrArg Superblock.journalStart h, congrArg Superblock.dataStart h⟩

theorem SameStarts.trans (h : SameStarts s s') (h' : SameStarts s' s'') : SameStarts s s'' :=
  ⟨h'.journal.trans h.journal, h'.data.trans h.data⟩

theorem foldl_superblock {f : System → Nat → System} (l : List Nat)
    (hf : ∀ s i, (f s i).superblock = s.superblock) (s : System) :
    (l.foldl f s).superblock = s.superblock := by
  induction l generalizing s with
  | nil => rfl
  | cons i l ih => exact (ih (f s i)).trans (hf s i)

theorem bitmapLoad_superblock (s : System) : s.bitmapLoad.superblock = s.superblock := by
  apply foldl_superblock
  intro s i
  rfl

theorem journalInit_superblock (s : System) : s.journalInit.superblock = s.superblock :=
  foldl_superblock (List.range 3)
    (f := fun s i => s.writeBlock (s.superblock.journalStart + UInt32.ofNat (i + 1)) zeroBlock)
    (fun _ _ => rfl) _

theorem bitmapSave_superblock (h : s.bitmapSave = some s') : s'.superblock = s.superblock := by
  unfold System.bitmapSave at h
  split_ifs at h
  obtain rfl := Option.some.inj h
  apply foldl_superblock
  intro s i
  rfl

theorem rollbackEntry_sameStarts {entry : JournalEntry} {count count' : UInt32}
    (h : s.rollbackEntry entry count = some (s', count')) : SameStarts s s' := by
  have hset {s₁ : System} {b : UInt32} {used : Bool} (hs : s.bitmapSet b used = some s₁) :
      s₁.superblock = s.superblock := by
    unfold System.bitmapSet at hs
    dsimp only at hs
    split_ifs at hs <;> obtain rfl := Option.some.inj hs <;> rfl
  unfold System.rollbackEntry at h
  split_ifs at h
  · obtain ⟨s₁, hs, heq⟩ := Option.map_eq_some_iff.mp h
    obtain ⟨rfl, _⟩ := Prod.mk.inj heq
    have hsame := sameStarts_of_eq (hset hs)
    exact ⟨hsame.journal, hsame.data⟩
  · obtain ⟨s₁, hs, heq⟩ := Option.map_eq_some_iff.mp h
    obtain ⟨rfl, _⟩ := Prod.mk.inj heq
    have hsame := sameStarts_of_eq (hset hs)
    exact ⟨hsame.journal, hsame.data⟩
  · obtain ⟨rfl, _⟩ := Prod.mk.inj (Option.some.inj h)
    exact ⟨rfl, rfl⟩

theorem rollback_sameStarts {fuel : Nat} {count' : UInt32} {s' : System} :
    ∀ {s : System} {buf : Block} {pos count : UInt32},
      System.rollback fuel s buf pos count = some (s', count') → SameStarts s s' := by
  induction fuel with
  | zero => exact fun h => nomatch h
  | succ fuel ih =>
    intro s buf pos count h
    rw [System.rollback] at h
    split_ifs at h
    · dsimp only at h
      have hread {b : UInt32} : SameStarts s (s.readBlock b).2 := ⟨rfl, rfl⟩
      split_ifs at h
      · obtain ⟨rfl, _⟩ := Prod.mk.inj (Option.some.inj h)
        exact ⟨rfl, rfl⟩
      · obtain ⟨⟨s₁, count₁⟩, hentry, hrest⟩ := Option.bind_eq_some_iff.mp h
        exact (hread.trans (rollbackEntry_sameStarts hentry)).trans (ih hrest)
      · exact hread.trans (ih h)
    · obtain ⟨rfl, _⟩ := Prod.mk.inj (Option.some.inj h)
      exact ⟨rfl, rfl⟩

theorem journalRecover_sameStarts {fuel : Nat} (h : s.journalRecover fuel = some s') :
    SameStarts s s' := by
  unfold System.journalRecover at h
  dsimp only at h
  split_ifs at h
  · obtain rfl := Option.some.inj h
    exact sameStarts_of_eq (journalInit_superblock _)
  · obtain rfl := Option.some.inj h
    exact sameStarts_of_eq (journalInit_superblock _)
  · obtain ⟨⟨s₁, count⟩, hloop, hrest⟩ := Option.bind_eq_some_iff.mp h
    obtain ⟨s₂, hsave, rfl⟩ := Option.map_eq_some_iff.mp hrest
    have hroll := rollback_sameStarts hloop
    have hsaved : s₂.superblock = s₁.superblock := by
      split_ifs at hsave
      · exact bitmapSave_superblock hsave
      · obtain rfl := Option.some.inj hsave
        rfl
    have hend : SameStarts s₁ s₂ := sameStarts_of_eq hsaved
    exact ⟨hend.journal.trans hroll.journal, hend.data.trans hroll.data⟩
  · obtain rfl := Option.some.inj h
    apply sameStarts_of_eq
    rfl

theorem mount_regions {partitionLba : UInt32} {mountTime : UInt64} {fuel : Nat}
    (h : s.mount partitionLba mountTime fuel = some (.ok (), s')) :
    let sb := Superblock.layout.decode (bytesOf (s.card.disk partitionLba))
    s'.superblock.journalStart = sb.journalStart ∧ s'.superblock.dataStart = sb.dataStart := by
  unfold System.mount at h
  dsimp only at h ⊢
  split_ifs at h
  · cases h
  · cases h
  · obtain ⟨s₁, hrecover, heq⟩ := Option.map_eq_some_iff.mp h
    obtain ⟨_, rfl⟩ := Prod.mk.inj heq
    obtain ⟨hjournal, hdata⟩ := journalRecover_sameStarts hrecover
    rw [bitmapLoad_superblock] at hjournal hdata
    exact ⟨hjournal, hdata⟩

/-! ## cards of the tool -/

variable {totalBlocks inodeCount : Int} {time : UInt64} {writes : List (UInt32 × Block)}

theorem packU32_toNat {v : Int} {w : UInt32} (h : Mksd.packU32 v = some w) : (w.toNat : Int) = v := by
  unfold Mksd.packU32 at h
  split_ifs at h with hv
  obtain rfl := Option.some.inj h
  have hlt : v.toNat < 2 ^ 32 := by omega
  have hofNat : (UInt32.ofNat v.toNat).toNat = v.toNat := Nat.mod_eq_of_lt hlt
  omega

theorem createEkkfsSuperblock_spec {sb : Superblock}
    (h : Mksd.createEkkfsSuperblock totalBlocks inodeCount time = some sb) :
    sb.dataStart.toNat = sb.journalStart.toNat + 1 ∧
      (sb.journalStart.toNat : Int) = (Mksd.layout totalBlocks inodeCount).journalStart ∧
      (sb.bitmapStart.toNat : Int) = (Mksd.layout totalBlocks inodeCount).bitmapStart ∧
      0 ≤ (Mksd.layout totalBlocks inodeCount).inodeBlocks := by
  obtain ⟨total, _, h⟩ := Option.bind_eq_some_iff.mp h
  obtain ⟨inodes, hinodes, h⟩ := Option.bind_eq_some_iff.mp h
  obtain ⟨bitmapStart, hbitmap, h⟩ := Option.bind_eq_some_iff.mp h
  obtain ⟨journalStart, hjournal, h⟩ := Option.bind_eq_some_iff.mp h
  obtain ⟨dataStart, hdata, h⟩ := Option.bind_eq_some_iff.mp h
  obtain ⟨free, _, h⟩ := Option.bind_eq_some_iff.mp h
  obtain rfl := Option.some.inj h
  have hjournal' := packU32_toNat hjournal
  have hdata' := packU32_toNat hdata
  change (dataStart.toNat : Int) = (Mksd.layout totalBlocks inodeCount).journalStart + 1 at hdata'
  refine ⟨?_, hjournal', packU32_toNat hbitmap, ?_⟩
  · show dataStart.toNat = journalStart.toNat + 1
    omega
  · have hcount := packU32_toNat hinodes
    show 0 ≤ (inodeCount + 8 - 1) / 8
    omega

theorem imaged_superblock (partitionLba : UInt32)
    (h : Mksd.formatSdCard totalBlocks inodeCount time = some writes) : ∃ sb,
    Mksd.createEkkfsSuperblock totalBlocks inodeCount time = some sb ∧
      (s.imaged partitionLba writes).card.disk partitionLba =
        blockOf (Superblock.layout.encode sb) := by
  obtain ⟨sb, hsb, rfl⟩ := Option.map_eq_some_iff.mp h
  refine ⟨sb, hsb, ?_⟩
  obtain ⟨_, hjournal, hbitmap, hinodes⟩ := createEkkfsSuperblock_spec hsb
  have hjournalLt := sb.journalStart.toNat_lt
  have hlayout : (Mksd.layout totalBlocks inodeCount).journalStart =
      1 + (Mksd.layout totalBlocks inodeCount).inodeBlocks +
        (Mksd.layout totalBlocks inodeCount).bitmapBlocks ∧
      (Mksd.layout totalBlocks inodeCount).bitmapStart =
        1 + (Mksd.layout totalBlocks inodeCount).inodeBlocks ∧
      1 ≤ (Mksd.layout totalBlocks inodeCount).bitmapBlocks := by
    unfold Mksd.layout
    dsimp only
    split_ifs <;> omega
  generalize Mksd.layout totalBlocks inodeCount = l at *
  have hne {k : Nat} (hpos : 0 < k) (hk : k < 2 ^ 32) : UInt32.ofNat k ≠ 0 := by
    intro hzero
    have hmod : k % 2 ^ 32 = 0 := congrArg UInt32.toNat hzero
    omega
  have hblock := foldl_sdWrite partitionLba ([(0, blockOf (Superblock.layout.encode sb))] ++
      (List.range l.inodeBlocks.toNat).map (fun i => (UInt32.ofNat (1 + i), zeroBlock)) ++
      (List.range l.bitmapBlocks.toNat).map
        (fun i => (UInt32.ofNat (l.bitmapStart.toNat + i), zeroBlock)) ++
      [(UInt32.ofNat l.journalStart.toNat, zeroBlock)]) s 0
    (blockOf (Superblock.layout.encode sb)) (fun w hw hzero => ?_) (.inl ?_)
  · unfold partition at hblock
    rwa [UInt32.add_zero] at hblock
  · rw [mem_append, mem_append, mem_append] at hw
    rcases hw with ((hw | hw) | hw) | hw
    · rw [mem_singleton.mp hw]
    · obtain ⟨i, hi, rfl⟩ := mem_map.mp hw
      have hi' := mem_range.mp hi
      exact absurd hzero (hne (by omega) (by omega))
    · obtain ⟨i, hi, rfl⟩ := mem_map.mp hw
      have hi' := mem_range.mp hi
      exact absurd hzero (hne (by omega) (by omega))
    · rw [mem_singleton.mp hw] at hzero
      exact absurd hzero (hne (by omega) (by omega))
  · exact ⟨_, mem_append_left _ (mem_append_left _ (mem_append_left _
      (mem_singleton.mpr rfl))), rfl⟩

/-- **Main.** On no card of `mksd.py` that a mount accepts are the regions apart. -/
theorem mksd_overlap {partitionLba : UInt32} {mountTime : UInt64} {fuel : Nat}
    (h : Mksd.formatSdCard totalBlocks inodeCount time = some writes)
    (hmount : (s.imaged partitionLba writes).mount partitionLba mountTime fuel =
      some (.ok (), s')) : ¬ Apart s'.superblock := by
  obtain ⟨sb, hsb, hblock⟩ := imaged_superblock (s := s) partitionLba h
  obtain ⟨hjournal, hdata⟩ := mount_regions hmount
  rw [hblock, decode_superblock] at hjournal hdata
  refine not_apart ?_
  rw [hjournal, hdata]
  exact (createEkkfsSuperblock_spec hsb).1

def smallCard : Option (Except FsErr Unit × System) :=
  (Mksd.formatSdCard 6044 256 1767225600000000).bind fun writes =>
    (System.imaged (System.boot fun _ => zeroBlock) 10240 writes).mount 10240 0 0

theorem smallCard_eq : ∃ writes s',
    Mksd.formatSdCard 6044 256 1767225600000000 = some writes ∧
      (System.imaged (System.boot fun _ => zeroBlock) 10240 writes).mount 10240 0 0 =
        some (.ok (), s') ∧
      s'.superblock.journalStart = 35 ∧ s'.superblock.dataStart = 36 ∧
      s'.superblock.totalBlocks = 6044 ∧ Volume.bit s'.bitmapBuf 0 = false := by
  have hrun : smallCard.map (fun r => (r.1.isOk, r.2.superblock.journalStart,
      r.2.superblock.dataStart, r.2.superblock.totalBlocks, Volume.bit r.2.bitmapBuf 0)) =
        some (true, 35, 36, 6044, false) := by decide +kernel
  obtain ⟨⟨result, s'⟩, hcard, heq⟩ := Option.map_eq_some_iff.mp hrun
  obtain ⟨writes, hwrites, hmount⟩ := Option.bind_eq_some_iff.mp hcard
  obtain ⟨hok, heq⟩ := Prod.mk.inj heq
  obtain ⟨hjournal, heq⟩ := Prod.mk.inj heq
  obtain ⟨hdata, heq⟩ := Prod.mk.inj heq
  obtain ⟨htotal, hbit⟩ := Prod.mk.inj heq
  cases result with
  | error e => cases hok
  | ok _ => exact ⟨writes, s', hwrites, hmount, hjournal, hdata, htotal, hbit⟩

theorem mksd_overlap_smallCard : ∃ writes s',
    Mksd.formatSdCard 6044 256 1767225600000000 = some writes ∧
      (System.imaged (System.boot fun _ => zeroBlock) 10240 writes).mount 10240 0 0 =
        some (.ok (), s') ∧ ¬ Apart s'.superblock := by
  obtain ⟨writes, s', hwrites, hmount, _⟩ := smallCard_eq
  exact ⟨writes, s', hwrites, hmount, mksd_overlap hwrites hmount⟩

/-- the card is mounted, and the first free data block is the second block of the journal -/
theorem mksd_small_card : ∃ writes s',
    Mksd.formatSdCard 6044 256 1767225600000000 = some writes ∧
      (System.imaged (System.boot fun _ => zeroBlock) 10240 writes).mount 10240 0 0 =
        some (.ok (), s') ∧
      s'.superblock.dataStart = s'.superblock.journalStart + 1 ∧
      s'.superblock.dataStart < s'.superblock.totalBlocks ∧
      Volume.bit s'.bitmapBuf 0 = false ∧ ¬ Apart s'.superblock := by
  obtain ⟨writes, s', hwrites, hmount, hjournal, hdata, htotal, hbit⟩ := smallCard_eq
  refine ⟨writes, s', hwrites, hmount, by rw [hjournal, hdata]; rfl, ?_, hbit, not_apart ?_⟩
  · rw [hdata, htotal]
    decide
  · rw [hjournal, hdata]
    rfl

end Fs
end EkKor
