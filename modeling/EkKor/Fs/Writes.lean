import EkKor.Fs.Slots

/-!
# The rounds of `ekkfs_write`

The inode that is written is on the stack until the end of the call: the volume that matters is the
one with this inode in the place of the old one.

* `Chunked`            a round that succeeds writes its bytes into its block of the file, and takes
                       as many free blocks as it misses;
* `chunk_spec`         a round succeeds, or no block is free and nothing has changed;
* `OneShort`, `Overrun`   the writes that go wrong;
* `Wrote`, `writeLoop_spec`   any other write leaves some of its bytes in the file.
-/

namespace EkKor
namespace Fs
open Ownership Function
open List hiding Vector

abbrev fileBlocks : Nat := directBlocks + indirectBlocks

/-- the parts of a volume that a round does not touch -/
structure Frame (v v' : Volume) : Prop where
  inodes : v'.inodes = v.inodes
  bitmapBlocks : v'.bitmapBlocks = v.bitmapBlocks
  superblock : v'.superblock = { v.superblock with freeBlocks := v'.superblock.freeBlocks }

/-- a round that succeeds: `bytes` lie at `offset` in block `idx` of file `n`, the rest of the
content is as before, and a free block is gone for each that the file missed -/
structure Chunked (v : Volume) (inode : Inode) (n : UInt32) (idx offset : Nat)
    (bytes : List UInt8) (v' : Volume) (inode' : Inode) : Prop where
  changes : Changes (v.withInode n inode) (v'.withInode n inode') n idx
    (splice ((v.withInode n inode).blockAt n idx) offset bytes)
  frame : Frame v v'
  pointers : inode' = { inode with blocks := inode'.blocks, indirect := inode'.indirect }
  indirect : inode'.indirect = 0 ↔ inode.indirect = 0 ∧ idx < directBlocks
  free : v.superblock.freeBlocks.toNat = v'.superblock.freeBlocks.toNat +
    (if (v.withInode n inode).holding n idx = none then 1 else 0) +
      if inode.indirect = 0 ∧ ¬ idx < directBlocks then 1 else 0

variable {v : Volume} {inode : Inode} {n : UInt32} {idx offset : Nat} {bytes : List UInt8}

/-! ## allocating -/

/-- `bitmap_alloc` takes a free block, or none is free -/
theorem alloc_counted (hg : Geometry v.superblock) (h : v.Counted) :
    (∃ k < dataBlocks v.superblock, Volume.bit v.bitmapBuf k = false ∧
        v.bitmapAlloc = some (some (dataBlock v.superblock k), v.taken k) ∧
        v.superblock.freeBlocks.toNat = (v.taken k).superblock.freeBlocks.toNat + 1) ∨
      v.superblock.freeBlocks = 0 ∧ v.bitmapAlloc = some (none, v) := by
  rcases bitmapAlloc_spec hg with ⟨k, hk, hclear, halloc⟩ | ⟨hall, halloc⟩
  · refine .inl ⟨k, hk, hclear, halloc, ?_⟩
    have hpos : 0 < v.superblock.freeBlocks.toNat := h ▸ clearCount_pos hk hclear
    have hone : (1 : UInt32) ≤ v.superblock.freeBlocks := UInt32.le_iff_toNat_le.mpr hpos
    show _ = (v.superblock.freeBlocks - 1).toNat + 1
    rw [UInt32.toNat_sub_of_le _ _ hone]
    exact (Nat.sub_add_cancel hpos).symm
  · exact .inr ⟨UInt32.toNat_inj.mp (h.trans (clearCount_eq_zero hall)), halloc⟩

theorem frame_taken (k : Nat) (b : UInt32) (block : Block) : Frame v ((v.taken k).put b block) :=
  ⟨rfl, rfl, rfl⟩

theorem frame_put (b : UInt32) (block : Block) : Frame v (v.put b block) := ⟨rfl, rfl, rfl⟩

variable {v' : Volume} {lo hi size : Nat} {inode' : Inode} (buffer : Nat → UInt8)

theorem Frame.trans {v'' : Volume} (h : Frame v v') (h' : Frame v' v'') : Frame v v'' := by
  refine ⟨h'.inodes.trans h.inodes, h'.bitmapBlocks.trans h.bitmapBlocks, ?_⟩
  rw [h'.superblock, h.superblock]

theorem Frame.geometry (h : Frame v v') (hg : Geometry v.superblock) : Geometry v'.superblock := by
  rw [h.superblock]
  exact ⟨hg.pos, hg.fits, hg.few, hg.int⟩

theorem geometry_taken (k : Nat) (hg : Geometry v.superblock) :
    Geometry (v.taken k).superblock := (frame_taken k 0 zeroBlock).geometry hg

theorem withInode_withInode (v : Volume) (n : UInt32) (x y : Inode) :
    (v.withInode n x).withInode n y = v.withInode n y := by
  unfold Volume.withInode
  rw [update_idem]

theorem withInode_self (v : Volume) (n : UInt32) : v.withInode n (v.inodes n) = v := by
  unfold Volume.withInode
  rw [update_eq_self]

theorem inodes_withInode (v : Volume) (n : UInt32) (x : Inode) :
    (v.withInode n x).inodes n = x := update_self ..

theorem withInode_taken (v : Volume) (n : UInt32) (x : Inode) (k : Nat) :
    (v.withInode n x).taken k = (v.taken k).withInode n x := rfl

theorem withInode_put (v : Volume) (n : UInt32) (x : Inode) (b : UInt32) (block : Block) :
    (v.withInode n x).put b block = (v.put b block).withInode n x := rfl

/-! ## direct blocks -/

theorem slotAt_direct (hidx : idx < directBlocks) : slotAt idx = some (.direct ⟨idx, hidx⟩) :=
  dif_pos hidx

theorem holding_direct (hn : (v.withInode n inode).Used n) (hidx : idx < directBlocks) :
    (v.withInode n inode).holding n idx = none ↔ inode.blocks[idx] = 0 := by
  rw [holding_eq (slotAt_direct hidx), ref_eq_none hn, inodes_withInode]
  rfl

theorem chunk_direct (hg : Geometry v.superblock) (h : Owned (v.withInode n inode))
    (hn : (v.withInode n inode).Used n) (hidx : idx < directBlocks) :
    (∃ v' inode', v.chunk inode idx offset bytes = some (.ok (v', inode')) ∧
        Chunked v inode n idx offset bytes v' inode') ∨
      v.superblock.freeBlocks = 0 ∧ v.chunk inode idx offset bytes = some (.error (v, inode)) := by
  have hself := inodes_withInode v n inode
  have hhole := holding_direct hn hidx
  have hindirect : inode.indirect = 0 ↔ inode.indirect = 0 ∧ idx < directBlocks :=
    ⟨fun h0 => ⟨h0, hidx⟩, fun h0 => h0.1⟩
  have hdirect : ¬ (inode.indirect = 0 ∧ ¬ idx < directBlocks) := fun hc => hc.2 hidx
  unfold Volume.chunk Volume.target
  rw [dif_pos hidx]
  by_cases hptr : inode.blocks[idx] = 0
  · rw [if_pos hptr]
    rcases alloc_counted hg h.counted with ⟨k, hk, hclear, halloc, hfree⟩ | ⟨hfree, halloc⟩
    · have hchange := assignDirect (v := v.withInode n inode) hg h hn hk hclear hidx
        (by rw [hself]; exact hptr) (splice zeroBlock offset bytes) rfl
      rw [hself, withInode_taken, withInode_withInode, withInode_put] at hchange
      refine .inl ⟨(v.taken k).put (dataBlock v.superblock k) (splice zeroBlock offset bytes),
        { inode with blocks := inode.blocks.set idx (dataBlock v.superblock k) },
        by rw [halloc]; rfl, ?_, frame_taken .., rfl, hindirect, ?_⟩
      · rw [blockAt_hole (hhole.mpr hptr)]
        exact hchange
      · rw [if_pos (hhole.mpr hptr), if_neg hdirect]
        exact hfree
    · exact .inr ⟨hfree, by rw [halloc]; rfl⟩
  · have href : (v.withInode n inode).ref (n, .direct ⟨idx, hidx⟩) = some inode.blocks[idx] :=
      ref_eq_some.mpr ⟨hn, hptr, by rw [hself]; rfl⟩
    have hchange := overwrite h (slotAt_direct hidx) href
      (splice (v.disk inode.blocks[idx]) offset bytes)
    rw [if_neg hptr]
    refine .inl ⟨v.put inode.blocks[idx] (splice (v.disk inode.blocks[idx]) offset bytes), inode,
      ?_, ?_, frame_put .., rfl, hindirect, ?_⟩
    · rw [Option.map_some]
      dsimp only
      rw [Vector.set_getElem_self]
    · rw [blockAt_eq ((holding_eq (slotAt_direct hidx)).trans href)]
      exact hchange
    · rw [if_neg (mt hhole.mp hptr), if_neg hdirect]
      rfl

/-! ## indirect blocks -/

theorem slotAt_entry (hdirect : ¬ idx < directBlocks) (hidx : idx - directBlocks < indirectBlocks) :
    slotAt idx = some (.entry ⟨idx - directBlocks, hidx⟩) := by
  unfold slotAt
  rw [dif_neg hdirect, dif_pos hidx]

theorem put_put_put (v : Volume) (b i : UInt32) (x y z : Block) :
    ((v.put i x).put b y).put i z = (v.put b y).put i z := by
  have hdisk : update (update (update v.disk i x) b y) i z =
      update (update v.disk b y) i z := by
    funext b'
    by_cases hi : b' = i
    · rw [hi, update_self, update_self]
    · rw [update_of_ne hi, update_of_ne hi]
      by_cases hb : b' = b
      · rw [hb, update_self, update_self]
      · rw [update_of_ne hb, update_of_ne hb, update_of_ne hi]
  unfold Volume.put
  rw [hdisk]

theorem chunk_entry (hg : Geometry v.superblock) (h : Owned (v.withInode n inode))
    (hn : (v.withInode n inode).Used n) (hdirect : ¬ idx < directBlocks)
    (hidx : idx - directBlocks < indirectBlocks) (hind : inode.indirect ≠ 0) :
    (∃ v' inode', v.chunk inode idx offset bytes = some (.ok (v', inode')) ∧
        Chunked v inode n idx offset bytes v' inode') ∨
      v.superblock.freeBlocks = 0 ∧ v.chunk inode idx offset bytes = some (.error (v, inode)) := by
  have hself := inodes_withInode v n inode
  have hindirect : inode.indirect = 0 ↔ inode.indirect = 0 ∧ idx < directBlocks :=
    ⟨fun h0 => absurd h0 hind, fun h0 => h0.1⟩
  have hnone : ¬ (inode.indirect = 0 ∧ ¬ idx < directBlocks) := fun hc => hind hc.1
  have hptrEq : (v.withInode n inode).ptr inode (.entry ⟨idx - directBlocks, hidx⟩) =
      (words (v.disk inode.indirect))[idx - directBlocks] := ptr_entry hind _
  have hhole : (v.withInode n inode).holding n idx = none ↔
      (words (v.disk inode.indirect))[idx - directBlocks] = 0 := by
    rw [holding_eq (slotAt_entry hdirect hidx), ref_eq_none hn, hself, hptrEq]
  unfold Volume.chunk Volume.indirectTarget
  rw [dif_neg hdirect, if_neg hind, Option.bind_some]
  dsimp only
  rw [dif_pos hidx]
  unfold Volume.target
  by_cases hptr : (words (v.disk inode.indirect))[idx - directBlocks] = 0
  · rw [if_pos hptr]
    rcases alloc_counted hg h.counted with ⟨k, hk, hclear, halloc, hfree⟩ | ⟨hfree, halloc⟩
    · have hchange := assignEntry (v := v.withInode n inode) hg h hn hk hclear
        (by rw [hself]; exact hind) hdirect hidx (by rw [hself]; exact hptr)
        (splice zeroBlock offset bytes)
      rw [hself, withInode_taken, withInode_put, withInode_put] at hchange
      refine .inl ⟨((v.taken k).put (dataBlock v.superblock k)
        (splice zeroBlock offset bytes)).put inode.indirect
          (ofWords ((words (v.disk inode.indirect)).set (idx - directBlocks)
            (dataBlock v.superblock k))), inode, by rw [halloc]; rfl, ?_,
        (frame_taken ..).trans (frame_put ..), rfl, hindirect, ?_⟩
      · rw [blockAt_hole (hhole.mpr hptr)]
        exact hchange
      · rw [if_pos (hhole.mpr hptr), if_neg hnone]
        exact hfree
    · exact .inr ⟨hfree, by rw [halloc]; rfl⟩
  · have href : (v.withInode n inode).ref (n, .entry ⟨idx - directBlocks, hidx⟩) =
        some (words (v.disk inode.indirect))[idx - directBlocks] :=
      ref_eq_some.mpr ⟨hn, hptr, by rw [hself, hptrEq]⟩
    have hrefInd : (v.withInode n inode).ref (n, .indirect) = some inode.indirect :=
      ref_eq_some.mpr ⟨hn, hind, by rw [hself]; rfl⟩
    rw [if_neg hptr]
    generalize hb : (words (v.disk inode.indirect))[idx - directBlocks] = b at *
    have hchange := overwrite h (slotAt_entry hdirect hidx) href (splice (v.disk b) offset bytes)
    have hput := ref_put (splice (v.disk b) offset bytes) (v := v.withInode n inode) (b := b)
      fun m hm => by cases h.exact.once _ _ b href hm
    have hbi : inode.indirect ≠ b := by
      rintro heq
      cases h.exact.once _ _ b href (heq ▸ hrefInd)
    have hset : (words (v.disk inode.indirect)).set (idx - directBlocks) b =
        words (v.disk inode.indirect) := by
      rw [← hb]
      exact Vector.set_getElem_self hidx
    have hwords : words (ofWords (words (v.disk inode.indirect))) =
        words (((v.withInode n inode).put b (splice (v.disk b) offset bytes)).disk
          inode.indirect) :=
      (words_ofWords _).trans (congrArg words (update_of_ne hbi ..).symm)
    have hkeep := rewriteIndirect hchange.owned ((hput _).trans hrefInd) hwords
    refine .inl ⟨(v.put b (splice (v.disk b) offset bytes)).put inode.indirect
      (ofWords (words (v.disk inode.indirect))), inode, ?_, ?_,
      (frame_put ..).trans (frame_put ..), rfl, hindirect, ?_⟩
    · rw [Option.map_some]
      dsimp only
      rw [hset]
    · rw [blockAt_eq ((holding_eq (slotAt_entry hdirect hidx)).trans href)]
      exact hchange.keeps hkeep
    · rw [if_neg (mt hhole.mp hptr), if_neg hnone]
      rfl

theorem chunk_new_indirect (hdirect : ¬ idx < directBlocks)
    (hidx : idx - directBlocks < indirectBlocks) (hind : inode.indirect = 0) {i : UInt32}
    {v₁ : Volume} (halloc : v.bitmapAlloc = some (some i, v₁)) :
    v.chunk inode idx offset bytes = v₁.bitmapAlloc.map fun
      | (none, v₂) => .error (v₂, { inode with indirect := i })
      | (some b, v₂) =>
        .ok ((v₂.put b (splice zeroBlock offset bytes)).put i
          (ofWords ((Vector.replicate indirectBlocks 0).set (idx - directBlocks) b)),
          { inode with indirect := i }) := by
  have hzero : (Vector.replicate indirectBlocks (0 : UInt32))[idx - directBlocks] = 0 :=
    Vector.getElem_replicate _
  unfold Volume.chunk Volume.indirectTarget Volume.target
  rw [dif_neg hdirect, if_pos hind, halloc]
  show (if h : idx - directBlocks < indirectBlocks then _ else none) = _
  rw [dif_pos hidx, if_pos hzero]
  cases v₁.bitmapAlloc with
  | none => rfl
  | some r =>
    obtain ⟨_ | b, v₂⟩ := r
    · rfl
    · rfl

theorem chunk_first_entry (hg : Geometry v.superblock) (h : Owned (v.withInode n inode))
    (hn : (v.withInode n inode).Used n) (hdirect : ¬ idx < directBlocks)
    (hidx : idx - directBlocks < indirectBlocks) (hind : inode.indirect = 0)
    {i : Nat} (hi : i < dataBlocks v.superblock) (hiclear : Volume.bit v.bitmapBuf i = false)
    (hifree : v.superblock.freeBlocks.toNat = (v.taken i).superblock.freeBlocks.toNat + 1)
    {k : Nat} (hk : k < dataBlocks v.superblock)
    (hclear : Volume.bit (v.taken i).bitmapBuf k = false)
    (hfree : (v.taken i).superblock.freeBlocks.toNat =
      ((v.taken i).taken k).superblock.freeBlocks.toNat + 1) :
    Chunked v inode n idx offset bytes
      ((((v.taken i).taken k).put (dataBlock v.superblock k) (splice zeroBlock offset bytes)).put
        (dataBlock v.superblock i) (ofWords ((Vector.replicate indirectBlocks 0).set
          (idx - directBlocks) (dataBlock v.superblock k))))
      { inode with indirect := dataBlock v.superblock i } := by
  have hself := inodes_withInode v n inode
  have hi0 := (inData_dataBlock hg hi).ne_zero hg
  have hhole : (v.withInode n inode).holding n idx = none := by
    rw [holding_eq (slotAt_entry hdirect hidx), ref_eq_none hn, hself]
    exact if_pos hind
  have hkeep := assignIndirect (v := v.withInode n inode) hg h hn hi hiclear
    (by rw [hself]; exact hind) rfl
  have hn' : ((v.withInode n inode).withInode n
      { inode with indirect := dataBlock v.superblock i }).Used n :=
    (used_withInode (by rw [hself]) n).mpr hn
  rw [hself, withInode_taken, withInode_withInode, withInode_put] at hkeep
  rw [withInode_withInode] at hn'
  have hgi : Geometry (v.taken i).superblock := geometry_taken i hg
  have hwords : words ((((v.taken i).put (dataBlock v.superblock i)
      (ofWords (Vector.replicate indirectBlocks 0))).withInode n
        { inode with indirect := dataBlock v.superblock i }).disk (dataBlock v.superblock i)) =
          Vector.replicate indirectBlocks 0 :=
    (congrArg words (update_self ..)).trans (words_ofWords _)
  have hchange := assignEntry (v := ((v.taken i).put (dataBlock v.superblock i)
      (ofWords (Vector.replicate indirectBlocks 0))).withInode n
        { inode with indirect := dataBlock v.superblock i })
    hgi hkeep.owned hn' hk hclear (by rw [inodes_withInode]; exact hi0) hdirect hidx
    (by
      rw [inodes_withInode, hwords]
      exact Vector.getElem_replicate _) (splice zeroBlock offset bytes)
  rw [inodes_withInode, hwords] at hchange
  have hvol : ((((((v.taken i).put (dataBlock v.superblock i)
      (ofWords (Vector.replicate indirectBlocks 0))).withInode n
        { inode with indirect := dataBlock v.superblock i }).taken k).put
          (dataBlock v.superblock k) (splice zeroBlock offset bytes)).put (dataBlock v.superblock i)
            (ofWords ((Vector.replicate indirectBlocks 0).set (idx - directBlocks)
              (dataBlock v.superblock k)))) =
      ((((v.taken i).taken k).put (dataBlock v.superblock k) (splice zeroBlock offset bytes)).put
        (dataBlock v.superblock i) (ofWords ((Vector.replicate indirectBlocks 0).set
          (idx - directBlocks) (dataBlock v.superblock k)))).withInode n
            { inode with indirect := dataBlock v.superblock i } :=
    congrArg (fun w => Volume.withInode w n _)
      (put_put_put ((v.taken i).taken k) _ (dataBlock v.superblock i) _ _ _)
  refine ⟨?_, ⟨rfl, rfl, rfl⟩, rfl, ⟨fun h0 => absurd h0 hi0, fun h0 => absurd h0.2 hdirect⟩, ?_⟩
  · rw [blockAt_hole hhole, ← hvol]
    exact hkeep.changes hchange
  · rw [if_pos hhole, if_pos ⟨hind, hdirect⟩, hifree, hfree]
    rfl

theorem chunk_spec (hg : Geometry v.superblock) (h : Owned (v.withInode n inode))
    (hn : (v.withInode n inode).Used n)
    (hshort : ¬ (inode.indirect = 0 ∧ ¬ idx < directBlocks ∧ v.superblock.freeBlocks.toNat = 1))
    (hroom : idx < fileBlocks ∨ inode.indirect = 0 ∧ v.superblock.freeBlocks = 0) :
    (∃ v' inode', v.chunk inode idx offset bytes = some (.ok (v', inode')) ∧
        Chunked v inode n idx offset bytes v' inode' ∧ idx < fileBlocks) ∨
      v.superblock.freeBlocks = 0 ∧ v.chunk inode idx offset bytes = some (.error (v, inode)) := by
  by_cases hdirect : idx < directBlocks
  · rcases chunk_direct hg h hn hdirect with ⟨v', inode', heq, hchunk⟩ | hfull
    · exact .inl ⟨v', inode', heq, hchunk, Nat.lt_of_lt_of_le hdirect (by decide)⟩
    · exact .inr hfull
  · have hentry (hidx : idx < fileBlocks) : idx - directBlocks < indirectBlocks := by
      change idx < 138 at hidx
      show idx - 10 < 128
      omega
    by_cases hind : inode.indirect = 0
    · rcases alloc_counted hg h.counted with ⟨i, hi, hiclear, hialloc, hifree⟩ | ⟨hfree, halloc⟩
      · have hidx : idx < fileBlocks := hroom.resolve_right fun hr => by
          rw [hr.2] at hifree
          exact absurd hifree (Nat.succ_ne_zero _).symm
        have hcounted : (v.taken i).Counted := counted_taken h.counted hi hiclear
        rcases alloc_counted (geometry_taken i hg) hcounted with
          ⟨k, hk, hclear, halloc, hfree⟩ | ⟨hfree, _⟩
        · refine .inl ⟨_, _, ?_, chunk_first_entry hg h hn hdirect (hentry hidx) hind hi hiclear
            hifree hk hclear hfree, hidx⟩
          rw [chunk_new_indirect hdirect (hentry hidx) hind hialloc, halloc]
          rfl
        · rw [hfree] at hifree
          exact absurd ⟨hind, hdirect, hifree⟩ hshort
      · refine .inr ⟨hfree, ?_⟩
        unfold Volume.chunk Volume.indirectTarget
        rw [dif_neg hdirect, if_pos hind, halloc]
        rfl
    · have hidx : idx < fileBlocks := hroom.resolve_right fun hr => hind hr.1
      rcases chunk_entry hg h hn hdirect (hentry hidx) hind with ⟨v', inode', heq, hchunk⟩ | hfull
      · exact .inl ⟨v', inode', heq, hchunk, hidx⟩
      · exact .inr hfull

/-! ## writes that go wrong -/

/-- the number of missing blocks of file `n` between two block indexes -/
def Volume.holes (v : Volume) (n : UInt32) (lo hi : Nat) : Nat :=
  (range' lo (hi - lo)).countP fun idx => decide (v.holding n idx = none)

/-- the write of `size` bytes from `position` on gets the last free block for the indirect block of
file `n`, and none for the data -/
def OneShort (v : Volume) (n : UInt32) (position size : Nat) : Prop :=
  (v.inodes n).indirect = 0 ∧ 0 < size ∧ directBlocks * blockSize < position + size ∧
    v.superblock.freeBlocks.toNat = v.holes n (position / blockSize) directBlocks + 1

/-- there are free blocks for all that an inode can hold, and the write goes on after it -/
def Overrun (v : Volume) (n : UInt32) (position size : Nat) : Prop :=
  0 < size ∧ fileBlocks * blockSize < position + size ∧
    v.holes n (position / blockSize) fileBlocks + (if (v.inodes n).indirect = 0 then 1 else 0) ≤
      v.superblock.freeBlocks.toNat

theorem holes_empty (h : hi ≤ lo) : v.holes n lo hi = 0 := by
  unfold Volume.holes
  rw [Nat.sub_eq_zero_of_le h]
  rfl

theorem holes_succ (h : lo < hi) :
    v.holes n lo hi = v.holes n (lo + 1) hi + if v.holding n lo = none then 1 else 0 := by
  obtain ⟨d, hd⟩ := Nat.exists_eq_add_of_lt h
  unfold Volume.holes
  rw [show hi - lo = d + 1 by omega, show hi - (lo + 1) = d by omega, range'_succ,
    countP_cons]
  simp only [decide_eq_true_eq]

theorem holes_congr (h : ∀ idx, lo ≤ idx → v'.holding n idx = v.holding n idx) :
    v'.holes n lo hi = v.holes n lo hi :=
  countP_congr fun idx hidx => by rw [h idx (mem_range'_1.mp hidx).1]

/-! ## the bytes of a file -/

/-- byte `o` of file `n` -/
def Volume.byteAt (v : Volume) (n : UInt32) (o : Nat) : UInt8 :=
  v.blockAt n (o / blockSize) ⟨o % blockSize, Nat.mod_lt _ (by decide)⟩

/-- a block of a file changes from byte `p` of the file on -/
theorem byteAt_changes {p : Nat} (h : Changes v v' n (p / blockSize) (splice (v.blockAt n (p /
    blockSize)) (p % blockSize) bytes)) (hlen : p % blockSize + bytes.length ≤ blockSize)
    (m : UInt32) (o : Nat) :
    v'.byteAt m o =
      if m = n ∧ p ≤ o ∧ o < p + bytes.length then bytes.getD (o - p) 0 else v.byteAt m o := by
  change p % 512 + bytes.length ≤ 512 at hlen
  unfold Volume.byteAt
  by_cases hblock : (m, o / blockSize) = (n, p / blockSize)
  · obtain ⟨rfl, hidx⟩ := Prod.mk.inj hblock
    change o / 512 = p / 512 at hidx
    rw [show o / blockSize = p / blockSize from hidx, h.here]
    show (if p % 512 ≤ o % 512 then bytes.getD (o % 512 - p % 512) _ else _) = _
    by_cases hin : p ≤ o ∧ o < p + bytes.length
    · have hlt : o - p < bytes.length := by omega
      rw [if_pos (by omega), if_pos ⟨rfl, hin⟩, show o % 512 - p % 512 = o - p by omega,
        getD_eq_getElem _ _ hlt, getD_eq_getElem _ _ hlt]
    · rw [if_neg (show ¬ (m = m ∧ p ≤ o ∧ o < p + bytes.length) from fun hc => hin hc.2)]
      split_ifs with hle
      · exact getD_eq_default _ _ (by omega)
      · rfl
  · rw [(h.elsewhere m _ hblock).2, if_neg]
    rintro ⟨rfl, hle, hlt⟩
    exact hblock (congrArg (Prod.mk m) (show o / 512 = p / 512 by omega))

/-! ## the loop -/

/-- what the loop of `ekkfs_write` leaves of a write that goes right -/
structure Wrote (buffer : Nat → UInt8) (size : Nat) (v : Volume) (inode : Inode) (n : UInt32)
    (position : UInt32) (count : Nat) (r : Volume.Written) : Prop where
  owned : Owned (r.vol.withInode n r.inode)
  frame : Frame v r.vol
  pointers : r.inode = { inode with blocks := r.inode.blocks, indirect := r.inode.indirect }
  count_ge : count ≤ r.count
  count_le : r.count ≤ size
  all : r.full = false → r.count = size
  moved : r.position.toNat = position.toNat + (r.count - count)
  bytes : ∀ m o, (r.vol.withInode n r.inode).byteAt m o =
    if m = n ∧ position.toNat ≤ o ∧ o < r.position.toNat then
      buffer (count + (o - position.toNat))
    else (v.withInode n inode).byteAt m o

theorem Chunked.used (h : Chunked v inode n idx offset bytes v' inode')
    (hn : (v.withInode n inode).Used n) : (v'.withInode n inode').Used n := by
  have hflags : inode'.flags = inode.flags := by rw [h.pointers]
  have hcount : v'.superblock.inodeCount = v.superblock.inodeCount := by rw [h.frame.superblock]
  unfold Volume.Used at hn ⊢
  rw [inodes_withInode] at hn ⊢
  rw [hflags]
  show n < v'.superblock.inodeCount ∧ _
  rw [hcount]
  exact hn

theorem Chunked.holes (h : Chunked v inode n idx offset bytes v' inode') (hidx : idx < hi) :
    (v.withInode n inode).holes n idx hi = (v'.withInode n inode').holes n (idx + 1) hi +
      if (v.withInode n inode).holding n idx = none then 1 else 0 := by
  rw [holes_succ hidx, holes_congr fun idx' hle => (h.changes.elsewhere n idx' ?_).1]
  rintro heq
  obtain rfl := (Prod.mk.inj heq).2
  exact absurd hle (Nat.not_succ_le_self _)

theorem Chunked.not_oneShort {p p' size' : Nat}
    (h : Chunked v inode n (p / blockSize) offset bytes v' inode')
    (hshort : ¬ OneShort (v.withInode n inode) n p size) (hsize : p' + size' = p + size)
    (hpos : 0 < size' → 0 < size ∧ p' / blockSize = p / blockSize + 1) :
    ¬ OneShort (v'.withInode n inode') n p' size' := by
  rintro ⟨hind, hs, hbig, hfree⟩
  obtain ⟨hs', hnext⟩ := hpos hs
  rw [inodes_withInode] at hind
  obtain ⟨hind', hdirect⟩ := h.indirect.mp hind
  refine hshort ⟨by rw [inodes_withInode]; exact hind', hs', hsize ▸ hbig, ?_⟩
  have hcost := h.free
  rw [if_neg (show ¬ (inode.indirect = 0 ∧ ¬ p / blockSize < directBlocks) from
    fun hc => hc.2 hdirect)] at hcost
  rw [hnext] at hfree
  rw [h.holes hdirect]
  show v.superblock.freeBlocks.toNat = _
  change v'.superblock.freeBlocks.toNat = _ at hfree
  omega

theorem Chunked.not_overrun {p p' size' : Nat}
    (h : Chunked v inode n (p / blockSize) offset bytes v' inode')
    (hidx : p / blockSize < fileBlocks) (hover : ¬ Overrun (v.withInode n inode) n p size)
    (hsize : p' + size' = p + size)
    (hpos : 0 < size' → 0 < size ∧ p' / blockSize = p / blockSize + 1) :
    ¬ Overrun (v'.withInode n inode') n p' size' := by
  rintro ⟨hs, hbig, hfree⟩
  obtain ⟨hs', hnext⟩ := hpos hs
  refine hover ⟨hs', hsize ▸ hbig, ?_⟩
  have hcost := h.free
  rw [hnext] at hfree
  rw [h.holes hidx]
  rw [inodes_withInode] at hfree ⊢
  show _ ≤ v.superblock.freeBlocks.toNat
  change _ ≤ v'.superblock.freeBlocks.toNat at hfree
  by_cases hind : inode.indirect = 0
  · by_cases hdirect : p / blockSize < directBlocks
    · rw [if_pos (h.indirect.mpr ⟨hind, hdirect⟩)] at hfree
      rw [if_pos hind]
      omega
    · rw [if_pos (show inode.indirect = 0 ∧ ¬ p / blockSize < directBlocks from
        ⟨hind, hdirect⟩)] at hcost
      rw [if_pos hind]
      omega
  · rw [if_neg hind]
    omega

theorem wrote_end {count : Nat} (h : Owned (v.withInode n inode)) (position : UInt32)
    (hcount : count ≤ size) (full : Bool) (hall : full = false → count = size) :
    Wrote buffer size v inode n position count ⟨full, v, inode, position, count⟩ := by
  refine ⟨h, ⟨rfl, rfl, rfl⟩, rfl, Nat.le_refl _, hcount, hall, ?_, fun m o => ?_⟩
  · rw [Nat.sub_self, Nat.add_zero]
  · rw [if_neg]
    rintro ⟨_, hle, hlt⟩
    exact absurd hlt (Nat.not_lt.mpr hle)

theorem Chunked.wrote {buffer : Nat → UInt8} {count d : Nat} {position : UInt32}
    {r : Volume.Written} (h : Chunked v inode n (position.toNat / blockSize) (position.toNat %
    blockSize) ((List.range d).map fun t => buffer (count + t)) v' inode')
    (hd : position.toNat % blockSize + d ≤ blockSize)
    (hposition : (position + UInt32.ofNat d).toNat = position.toNat + d)
    (hr : Wrote buffer size v' inode' n (position + UInt32.ofNat d) (count + d) r) :
    Wrote buffer size v inode n position count r := by
  have hlen : ((List.range d).map fun t => buffer (count + t)).length = d := by
    rw [length_map, length_range]
  have hge := hr.count_ge
  have hmoved := hr.moved
  refine ⟨hr.owned, h.frame.trans hr.frame, ?_, by omega, hr.count_le, hr.all, by omega,
    fun m o => ?_⟩
  · rw [hr.pointers, h.pointers]
  · rw [hr.bytes m o, hposition, byteAt_changes h.changes (by rw [hlen]; exact hd) m o, hlen]
    by_cases hm : m = n
    · by_cases h1 : position.toNat + d ≤ o ∧ o < r.position.toNat
      · rw [if_pos ⟨hm, h1⟩, if_pos ⟨hm, by omega⟩]
        congr 1
        omega
      · rw [if_neg (fun hc => h1 hc.2)]
        by_cases h2 : position.toNat ≤ o ∧ o < position.toNat + d
        · have hlt : o - position.toNat < d := by omega
          rw [if_pos ⟨hm, h2⟩, if_pos ⟨hm, by omega⟩,
            getD_eq_getElem _ _ (by rw [hlen]; exact hlt), getElem_map,
            getElem_range]
        · rw [if_neg (fun hc => h2 hc.2), if_neg (fun hc => ?_)]
          omega
    · rw [if_neg (fun hc => hm hc.1), if_neg (fun hc => hm hc.1), if_neg (fun hc => hm hc.1)]

theorem writeLoop_spec (size fuel : Nat) : ∀ (v : Volume) (inode : Inode)
    (position : UInt32) (count : Nat), Geometry v.superblock → Owned (v.withInode n inode) →
    (v.withInode n inode).Used n → count ≤ size → size - count ≤ fuel →
    ¬ OneShort (v.withInode n inode) n position.toNat (size - count) →
    ¬ Overrun (v.withInode n inode) n position.toNat (size - count) →
    ∃ r, Volume.writeLoop buffer size fuel v inode position count = some r ∧
      Wrote buffer size v inode n position count r := by
  induction fuel with
  | zero =>
    intro v inode position count _ h _ hcount hfuel _ _
    refine ⟨⟨false, v, inode, position, count⟩, ?_, wrote_end buffer h position hcount false
      fun _ => by omega⟩
    exact if_neg (by omega)
  | succ fuel ih =>
    intro v inode position count hg h hn hcount hfuel hshort hover
    by_cases hmore : count < size
    · have hleft : 0 < size - count := Nat.sub_pos_of_lt hmore
      have hfree : (v.withInode n inode).superblock.freeBlocks = v.superblock.freeBlocks := rfl
      have hself := inodes_withInode v n inode
      have hroom : position.toNat / blockSize < fileBlocks ∨
          inode.indirect = 0 ∧ v.superblock.freeBlocks = 0 := by
        by_contra hno
        obtain ⟨hidx, hno⟩ := not_or.mp hno
        refine hover ⟨hleft, ?_, ?_⟩
        · change ¬ position.toNat / 512 < 138 at hidx
          show 138 * 512 < _
          omega
        · rw [holes_empty (Nat.not_lt.mp hidx), hself, hfree, Nat.zero_add]
          split_ifs with hind
          · exact Nat.pos_of_ne_zero fun h0 => hno ⟨hind, UInt32.toNat_inj.mp h0⟩
          · exact Nat.zero_le _
      have hone : ¬ (inode.indirect = 0 ∧ ¬ position.toNat / blockSize < directBlocks ∧
          v.superblock.freeBlocks.toNat = 1) := by
        rintro ⟨hind, hdirect, hone⟩
        refine hshort ⟨by rw [hself]; exact hind, hleft, ?_, ?_⟩
        · change ¬ position.toNat / 512 < 10 at hdirect
          show 10 * 512 < _
          omega
        · rw [holes_empty (Nat.not_lt.mp hdirect), hfree]
          exact hone
      rw [Volume.writeLoop, if_pos hmore]
      dsimp only
      generalize hd : min (blockSize - position.toNat % blockSize) (size - count) = d
      change min (512 - position.toNat % 512) (size - count) = d at hd
      rcases chunk_spec hg h hn hone hroom with ⟨v', inode', heq, hchunk, hidx⟩ | ⟨_, heq⟩
      · rw [heq]
        change position.toNat / 512 < 138 at hidx
        have hposition : (position + UInt32.ofNat d).toNat = position.toNat + d := by
          rw [UInt32.toNat_add, UInt32.toNat_ofNat']
          omega
        have hsize : (position + UInt32.ofNat d).toNat + (size - (count + d)) =
            position.toNat + (size - count) := by omega
        have hnext (hpos : 0 < size - (count + d)) : 0 < size - count ∧
            (position + UInt32.ofNat d).toNat / blockSize = position.toNat / blockSize + 1 := by
          refine ⟨hleft, ?_⟩
          rw [hposition]
          show (_ + d) / 512 = _ / 512 + 1
          omega
        obtain ⟨r, hr, hwrote⟩ := ih v' inode' (position + UInt32.ofNat d) (count + d)
          (hchunk.frame.geometry hg) hchunk.changes.owned (hchunk.used hn) (by omega) (by omega)
          (hchunk.not_oneShort hshort hsize hnext) (hchunk.not_overrun hidx hover hsize hnext)
        exact ⟨r, hr, hchunk.wrote (by show _ % 512 + d ≤ 512; omega) hposition hwrote⟩
      · rw [heq]
        exact ⟨_, rfl, wrote_end buffer h position hcount true nofun⟩
    · refine ⟨⟨false, v, inode, position, count⟩, if_neg hmore, wrote_end buffer h position hcount
        false fun _ => by omega⟩

end Fs
end EkKor
