import EkKor.Fs.Bitmap

/-!
# Which slot holds which block

The pointers of the used inodes are the slots of a volume.

* `Slot`, `Volume.ref`     the slots of an inode, and the block that a slot holds;
* `Owned`                  every marked data block is held by one slot, no other block is held, and
                           `free_blocks` counts the rest;
* `Volume.blockAt`         the content of a file, block by block;
* `overwrite`, `assignDirect`, `assignIndirect`, `assignEntry`   what `ekkfs_write` does to them;
* `Changes`                such a step changes one block of one file.
-/

namespace EkKor
namespace Fs
open Ownership Function

/-! ## indirect blocks -/

theorem ofFn_blockOf {bytes : List UInt8} (h : bytes.length = blockSize) :
    List.ofFn (blockOf bytes) = bytes := by
  have hslice : slice (blockOf bytes) 0 bytes.length = bytes :=
    slice_splice zeroBlock (by rw [h, Nat.zero_add])
  unfold slice at hslice
  rw [List.drop_zero, h, List.take_of_length_le (by rw [List.length_ofFn])] at hslice
  exact hslice

theorem words_ofWords (ptrs : Vector UInt32 indirectBlocks) : words (ofWords ptrs) = ptrs := by
  unfold words ofWords
  rw [ofFn_blockOf (indirectLayout.length_encode ptrs), indirectLayout.decode_encode]

/-! ## slots -/

/-- the places in an inode and its indirect block that can hold a block -/
inductive Slot where
  | direct (k : Fin directBlocks)
  | indirect
  | entry (k : Fin indirectBlocks)
  deriving DecidableEq

/-- the slot of block `idx` of a file -/
def slotAt (idx : Nat) : Option Slot :=
  if h : idx < directBlocks then some (.direct ⟨idx, h⟩)
  else if h : idx - directBlocks < indirectBlocks then some (.entry ⟨idx - directBlocks, h⟩)
  else none

namespace Volume

def ptr (v : Volume) (inode : Inode) : Slot → UInt32
  | .direct k => inode.blocks[k]
  | .indirect => inode.indirect
  | .entry k => if inode.indirect = 0 then 0 else (words (v.disk inode.indirect))[k]

def Used (v : Volume) (n : UInt32) : Prop :=
  n < v.superblock.inodeCount ∧ (v.inodes n).flags &&& flagUsed ≠ 0

instance (v : Volume) (n : UInt32) : Decidable (v.Used n) := inferInstanceAs (Decidable (_ ∧ _))

def ref (v : Volume) (s : UInt32 × Slot) : Option UInt32 :=
  if v.Used s.1 ∧ v.ptr (v.inodes s.1) s.2 ≠ 0 then some (v.ptr (v.inodes s.1) s.2) else none

/-- the block that holds block `idx` of file `n`, none for a hole -/
def holding (v : Volume) (n : UInt32) (idx : Nat) : Option UInt32 :=
  (slotAt idx).bind fun s => v.ref (n, s)

/-- the content of block `idx` of file `n`; a hole is a block of zeros -/
def blockAt (v : Volume) (n : UInt32) (idx : Nat) : Block :=
  match v.holding n idx with
  | some b => v.disk b
  | none => zeroBlock

def withInode (v : Volume) (n : UInt32) (inode : Inode) : Volume :=
  { v with inodes := update v.inodes n inode }

end Volume

/-- the data blocks that are marked are each held by one slot, no other block is held, and
`free_blocks` is the number of the data blocks that are not marked -/
structure Owned (v : Volume) : Prop where
  exact : Exact v.ref v.Marked
  counted : v.Counted

variable {v : Volume} {n b : UInt32} {s : Slot} {idx : Nat}

theorem ref_eq_some : v.ref (n, s) = some b ↔ v.Used n ∧ b ≠ 0 ∧ v.ptr (v.inodes n) s = b := by
  unfold Volume.ref
  split_ifs with h
  · rw [Option.some_inj]
    exact ⟨fun heq => ⟨h.1, heq ▸ h.2, heq⟩, fun h' => h'.2.2⟩
  · refine ⟨nofun, fun h' => absurd ⟨h'.1, ?_⟩ h⟩
    rw [h'.2.2]
    exact h'.2.1

theorem ref_eq_none (hn : v.Used n) : v.ref (n, s) = none ↔ v.ptr (v.inodes n) s = 0 := by
  unfold Volume.ref
  split_ifs with h
  · exact ⟨nofun, fun h' => absurd h' h.2⟩
  · refine ⟨fun _ => ?_, fun _ => rfl⟩
    by_contra hne
    exact h ⟨hn, hne⟩

variable {inode : Inode} {v' : Volume} {block : Block} {k : Nat}

theorem ptr_congr (v v' : Volume)
    (h : inode.indirect ≠ 0 → words (v'.disk inode.indirect) = words (v.disk inode.indirect))
    (s : Slot) : v'.ptr inode s = v.ptr inode s := by
  cases s with
  | direct k => rfl
  | indirect => rfl
  | entry k =>
    unfold Volume.ptr
    split_ifs with hzero
    · rfl
    · rw [h hzero]

theorem ref_of_ptr (hused : v'.Used n ↔ v.Used n)
    (hptr : v.Used n → v'.ptr (v'.inodes n) s = v.ptr (v.inodes n) s) :
    v'.ref (n, s) = v.ref (n, s) := by
  unfold Volume.ref
  by_cases hn : v.Used n
  · rw [hptr hn]
    simp only [hused]
  · rw [if_neg (fun h => hn (hused.mp h.1)), if_neg (fun h => hn h.1)]

theorem ptr_entry (h : inode.indirect ≠ 0) (k : Fin indirectBlocks) :
    v.ptr inode (.entry k) = (words (v.disk inode.indirect))[k] := if_neg h

theorem ref_congr (hinodes : v'.inodes = v.inodes)
    (hcount : v'.superblock.inodeCount = v.superblock.inodeCount)
    (hdisk : ∀ m b, v.ref (m, .indirect) = some b → words (v'.disk b) = words (v.disk b)) :
    ∀ s, v'.ref s = v.ref s := by
  rintro ⟨m, s⟩
  refine ref_of_ptr ?_ fun hm => ?_
  · unfold Volume.Used
    rw [hinodes, hcount]
  · rw [hinodes]
    exact ptr_congr v v' (fun hzero => hdisk m _ (ref_eq_some.mpr ⟨hm, hzero, rfl⟩)) s

theorem ref_update (hn : v.Used n) (hused : ∀ m, v'.Used m ↔ v.Used m) (hzero : b ≠ 0)
    (hself : v'.ptr (v'.inodes n) s = b)
    (hother : ∀ m s', v.Used m → (m, s') ≠ (n, s) → v'.ptr (v'.inodes m) s' = v.ptr (v.inodes m) s') :
    ∀ s', v'.ref s' = update v.ref (n, s) (some b) s' := by
  rintro ⟨m, s'⟩
  by_cases hms : (m, s') = (n, s)
  · rw [hms, update_self]
    exact ref_eq_some.mpr ⟨(hused n).mpr hn, hzero, hself⟩
  · rw [update_of_ne hms]
    exact ref_of_ptr (hused m) fun hm => hother m s' hm hms

theorem ref_put (block : Block) (h : ∀ m, v.ref (m, .indirect) ≠ some b) :
    ∀ s, (v.put b block).ref s = v.ref s := by
  refine ref_congr rfl rfl fun m b' hb' => ?_
  have hne : b' ≠ b := fun heq => h m (heq ▸ hb')
  show words (update v.disk b block b') = _
  rw [update_of_ne hne]

theorem ref_unmarked (h : Owned v) (hb : ¬ v.Marked b) (s : UInt32 × Slot) : v.ref s ≠ some b :=
  fun href => hb (h.exact.marked_of s b href)

/-! ## one step of a write -/

theorem slotAt_ne_indirect : slotAt idx ≠ some .indirect := by
  unfold slotAt
  split_ifs <;> nofun

theorem slotAt_inj {idx' : Nat} (h : slotAt idx = some s) (h' : slotAt idx' = some s) :
    idx = idx' := by
  unfold slotAt at h h'
  split_ifs at h h' with h1 h2 h3 h4 h5 <;>
    obtain rfl := Option.some.inj h <;> have heq := Option.some.inj h'
  · exact congrArg Fin.val (Slot.direct.inj heq.symm)
  · cases heq
  · cases heq
  · have := congrArg Fin.val (Slot.entry.inj heq)
    dsimp only at this
    omega

/-- the step changes block `idx` of file `n` to `block`, and no other block of a file -/
structure Changes (v v' : Volume) (n : UInt32) (idx : Nat) (block : Block) : Prop where
  owned : Owned v'
  here : v'.blockAt n idx = block
  held : v'.holding n idx ≠ none
  elsewhere : ∀ m idx', (m, idx') ≠ (n, idx) →
    v'.holding m idx' = v.holding m idx' ∧ v'.blockAt m idx' = v.blockAt m idx'

theorem same_block {m : UInt32} {idx : Nat}
    (href : ∀ s, slotAt idx = some s → v'.ref (m, s) = v.ref (m, s))
    (hdisk : ∀ s b, slotAt idx = some s → v.ref (m, s) = some b → v'.disk b = v.disk b) :
    v'.holding m idx = v.holding m idx ∧ v'.blockAt m idx = v.blockAt m idx := by
  have hsame : v'.holding m idx = v.holding m idx := by
    unfold Volume.holding
    cases hs : slotAt idx with
    | none => rfl
    | some s => exact href s hs
  refine ⟨hsame, ?_⟩
  unfold Volume.blockAt
  rw [hsame]
  cases hb : v.holding m idx with
  | none => rfl
  | some b =>
    obtain ⟨s, hs, hslot⟩ := Option.bind_eq_some_iff.mp hb
    exact hdisk s b hs hslot

theorem holding_eq (hs : slotAt idx = some s) : v.holding n idx = v.ref (n, s) := by
  unfold Volume.holding
  rw [hs, Option.bind_some]

theorem blockAt_eq (href : v.holding n idx = some b) : v.blockAt n idx = v.disk b := by
  unfold Volume.blockAt
  rw [href]

theorem blockAt_hole (href : v.holding n idx = none) : v.blockAt n idx = zeroBlock := by
  unfold Volume.blockAt
  rw [href]

theorem overwrite (h : Owned v) (hs : slotAt idx = some s) (href : v.ref (n, s) = some b)
    (block : Block) : Changes v (v.put b block) n idx block := by
  have hne : s ≠ .indirect := fun heq => slotAt_ne_indirect (hs.trans (congrArg some heq))
  have hput := ref_put block (v := v) (b := b) fun m hm =>
    hne (congrArg Prod.snd (h.exact.once _ _ b href hm))
  have hhere : (v.put b block).holding n idx = some b :=
    (holding_eq hs).trans ((hput _).trans href)
  refine ⟨⟨h.exact.congr hput fun _ => Iff.rfl, h.counted⟩, ?_, ?_, fun m idx' hother => ?_⟩
  · rw [blockAt_eq hhere]
    exact update_self ..
  · rw [hhere]
    exact Option.some_ne_none b
  · refine same_block (fun s' _ => hput _) fun s' b' hs' href' => ?_
    refine update_of_ne ?_ ..
    rintro rfl
    have hslot := h.exact.once _ _ b' href' href
    obtain ⟨rfl, rfl⟩ := Prod.mk.inj hslot
    exact hother (congrArg (Prod.mk m) (slotAt_inj hs' hs))

/-! ## assigning a new block -/

theorem marked_taken (hg : Geometry v.superblock) (hk : k < dataBlocks v.superblock) (b : UInt32) :
    (v.taken k).Marked b ↔ v.Marked b ∨ b = dataBlock v.superblock k := by
  show InData v.superblock b ∧ Volume.bit (Volume.assignBufBit v.bitmapBuf k true)
    (b.toNat - v.superblock.dataStart.toNat) = true ↔ _
  rw [bit_assignBufBit]
  constructor
  · rintro ⟨hin, hbit⟩
    split_ifs at hbit with hidx
    · exact .inr (hidx ▸ hin.eq_dataBlock hg)
    · exact .inl ⟨hin, hbit⟩
  · rintro (⟨hin, hbit⟩ | rfl)
    · refine ⟨hin, ?_⟩
      split_ifs
      · rfl
      · exact hbit
    · have hfew := hg.few
      rw [dataBlock_toNat hg (by omega), Nat.add_sub_cancel_left, if_pos rfl]
      exact ⟨inData_dataBlock hg hk, rfl⟩

theorem not_marked (hg : Geometry v.superblock) (hk : k < dataBlocks v.superblock)
    (hclear : Volume.bit v.bitmapBuf k = false) : ¬ v.Marked (dataBlock v.superblock k) := by
  rw [marked_dataBlock hg hk, hclear]
  exact Bool.false_ne_true

theorem owned_assign (hg : Geometry v.superblock) (h : Owned v) (hk : k < dataBlocks v.superblock)
    (hclear : Volume.bit v.bitmapBuf k = false) {s : UInt32 × Slot} (hs : v.ref s = none)
    (href : ∀ s', v'.ref s' = update v.ref s (some (dataBlock v.superblock k)) s')
    (hbuf : v'.bitmapBuf = (v.taken k).bitmapBuf) (hsb : v'.superblock = (v.taken k).superblock) :
    Owned v' := by
  have hcounted := counted_taken h.counted hk hclear
  constructor
  · refine (h.exact.assign hs (not_marked hg hk hclear)).congr href fun b => ?_
    rw [← marked_taken hg hk]
    unfold Volume.Marked
    rw [hbuf, hsb]
  · unfold Volume.Counted
    rw [hbuf, hsb]
    exact hcounted

theorem changes_assign (hg : Geometry v.superblock) (h : Owned v) (hk : k < dataBlocks v.superblock)
    (hclear : Volume.bit v.bitmapBuf k = false) (hs : slotAt idx = some s)
    (hhole : v.ref (n, s) = none)
    (href : ∀ s', v'.ref s' = update v.ref (n, s) (some (dataBlock v.superblock k)) s')
    (hbuf : v'.bitmapBuf = (v.taken k).bitmapBuf) (hsb : v'.superblock = (v.taken k).superblock)
    (hdisk : ∀ s' b, v.ref s' = some b → s'.2 ≠ .indirect → v'.disk b = v.disk b) :
    Changes v v' n idx (v'.disk (dataBlock v.superblock k)) := by
  have hhere : v'.holding n idx = some (dataBlock v.superblock k) :=
    (holding_eq hs).trans ((href _).trans (update_self ..))
  refine ⟨owned_assign hg h hk hclear hhole href hbuf hsb, blockAt_eq hhere, ?_,
    fun m idx' hother => ?_⟩
  · rw [hhere]
    exact Option.some_ne_none _
  refine same_block (fun s' hs' => ?_) fun s' b' hs' href' => ?_
  · refine (href _).trans (update_of_ne ?_ ..)
    rintro heq
    obtain ⟨rfl, rfl⟩ := Prod.mk.inj heq
    exact hother (congrArg (Prod.mk m) (slotAt_inj hs' hs))
  · refine hdisk _ b' href' ?_
    rintro rfl
    exact slotAt_ne_indirect hs'

theorem used_withInode (hflags : inode.flags = (v.inodes n).flags) (m : UInt32) :
    (v.withInode n inode).Used m ↔ v.Used m := by
  have hsame : ((v.withInode n inode).inodes m).flags = (v.inodes m).flags := by
    show (update v.inodes n inode m).flags = _
    by_cases hm : m = n
    · rw [hm, update_self, hflags]
    · rw [update_of_ne hm]
  unfold Volume.Used
  rw [hsame]
  rfl

theorem ptr_update (v v' : Volume) {m : UInt32} (hm : v.Used m)
    (hdisk : ∀ b', b' ≠ b → v'.disk b' = v.disk b') (hb : v.ref (m, .indirect) ≠ some b)
    (s : Slot) : v'.ptr (v.inodes m) s = v.ptr (v.inodes m) s := by
  refine ptr_congr v v' (fun hzero => ?_) s
  rw [hdisk]
  rintro heq
  exact hb (ref_eq_some.mpr ⟨hm, heq ▸ hzero, heq⟩)

theorem assignDirect (hg : Geometry v.superblock) (h : Owned v) (hn : v.Used n)
    (hk : k < dataBlocks v.superblock) (hclear : Volume.bit v.bitmapBuf k = false)
    (hidx : idx < directBlocks) (hhole : (v.inodes n).blocks[idx] = 0) (block : Block) (hinode :
    inode = { v.inodes n with blocks := (v.inodes n).blocks.set idx (dataBlock v.superblock k) }) :
    Changes v (((v.taken k).withInode n inode).put (dataBlock v.superblock k) block)
      n idx block := by
  have hfree := ref_unmarked h (not_marked hg hk hclear)
  have hs : slotAt idx = some (.direct ⟨idx, hidx⟩) := dif_pos hidx
  have hself : (update v.inodes n inode) n = inode := update_self ..
  have href : ∀ s', (((v.taken k).withInode n inode).put (dataBlock v.superblock k) block).ref s' =
      update v.ref (n, .direct ⟨idx, hidx⟩) (some (dataBlock v.superblock k)) s' := by
    refine ref_update hn (fun m => used_withInode (v := v.taken k) (by rw [hinode]; rfl) m)
      ((inData_dataBlock hg hk).ne_zero hg) ?_ fun m s' hm hne => ?_
    · show (update v.inodes n inode n).blocks[idx] = _
      rw [hself, hinode]
      exact Vector.getElem_set_self hidx
    · show Volume.ptr _ (update v.inodes n inode m) s' = _
      have hkeep := ptr_update v (((v.taken k).withInode n inode).put _ block) hm
        (fun b' hb' => update_of_ne hb' ..) (hfree (m, .indirect)) s'
      by_cases hmn : m = n
      · subst hmn
        rw [hself]
        subst hinode
        cases s' with
        | direct j =>
          have hj : idx ≠ j.val := by
            rintro rfl
            exact hne rfl
          exact Vector.getElem_set_ne hidx j.isLt hj
        | indirect => rfl
        | entry j => exact hkeep
      · rw [update_of_ne hmn]
        exact hkeep
  have hchange := changes_assign hg h hk hclear hs ((ref_eq_none hn).mpr hhole) href rfl rfl
    fun s' b' href' _ => update_of_ne (by rintro rfl; exact hfree s' href') ..
  have hput : (((v.taken k).withInode n inode).put (dataBlock v.superblock k) block).disk
      (dataBlock v.superblock k) = block := update_self ..
  rw [hput] at hchange
  exact hchange

/-! ## indirect blocks -/

/-- the step changes no content of a file -/
structure Keeps (v v' : Volume) : Prop where
  owned : Owned v'
  same : ∀ m idx, v'.holding m idx = v.holding m idx ∧ v'.blockAt m idx = v.blockAt m idx

theorem Keeps.changes {v'' : Volume} (h : Keeps v v') (h' : Changes v' v'' n idx block) :
    Changes v v'' n idx block :=
  ⟨h'.owned, h'.here, h'.held, fun m idx' hne =>
    ⟨(h'.elsewhere m idx' hne).1.trans (h.same m idx').1,
      (h'.elsewhere m idx' hne).2.trans (h.same m idx').2⟩⟩

theorem Changes.keeps {v'' : Volume} (h : Changes v v' n idx block) (h' : Keeps v' v'') :
    Changes v v'' n idx block :=
  ⟨h'.owned, (h'.same n idx).2.trans h.here, (h'.same n idx).1 ▸ h.held, fun m idx' hne =>
    ⟨(h'.same m idx').1.trans (h.elsewhere m idx' hne).1,
      (h'.same m idx').2.trans (h.elsewhere m idx' hne).2⟩⟩

theorem rewriteIndirect (h : Owned v) (href : v.ref (n, .indirect) = some b)
    (hwords : words block = words (v.disk b)) : Keeps v (v.put b block) := by
  have hput : ∀ s, (v.put b block).ref s = v.ref s := by
    refine ref_congr rfl rfl fun m b' _ => ?_
    show words (update v.disk b block b') = _
    by_cases hb : b' = b
    · rw [hb, update_self, hwords]
    · rw [update_of_ne hb]
  refine ⟨⟨h.exact.congr hput fun _ => Iff.rfl, h.counted⟩, fun m idx => ?_⟩
  refine same_block (fun s _ => hput _) fun s b' hs href' => ?_
  refine update_of_ne ?_ ..
  rintro rfl
  obtain rfl := congrArg Prod.snd (h.exact.once _ _ b' href' href)
  exact slotAt_ne_indirect hs

theorem assignIndirect (hg : Geometry v.superblock) (h : Owned v) (hn : v.Used n)
    (hk : k < dataBlocks v.superblock) (hclear : Volume.bit v.bitmapBuf k = false)
    (hnone : (v.inodes n).indirect = 0)
    (hinode : inode = { v.inodes n with indirect := dataBlock v.superblock k }) :
    Keeps v (((v.taken k).withInode n inode).put (dataBlock v.superblock k)
      (ofWords (Vector.replicate _ 0))) := by
  have hfree := ref_unmarked h (not_marked hg hk hclear)
  have hzero := (inData_dataBlock hg hk).ne_zero hg
  have hself : (update v.inodes n inode) n = inode := update_self ..
  have href : ∀ s', (((v.taken k).withInode n inode).put (dataBlock v.superblock k)
      (ofWords (Vector.replicate _ 0))).ref s' =
        update v.ref (n, .indirect) (some (dataBlock v.superblock k)) s' := by
    refine ref_update hn (fun m => used_withInode (v := v.taken k) (by rw [hinode]; rfl) m)
      hzero ?_ fun m s' hm hne => ?_
    · show (update v.inodes n inode n).indirect = _
      rw [hself, hinode]
    · show Volume.ptr _ (update v.inodes n inode m) s' = _
      by_cases hmn : m = n
      · subst hmn
        rw [hself]
        subst hinode
        cases s' with
        | direct j => rfl
        | indirect => exact absurd rfl hne
        | entry j =>
          show (if dataBlock v.superblock k = 0 then 0 else (words (update v.disk
            (dataBlock v.superblock k) _ (dataBlock v.superblock k)))[j]) =
              if (v.inodes m).indirect = 0 then 0 else _
          rw [if_neg hzero, if_pos hnone, update_self, words_ofWords]
          exact Vector.getElem_replicate _
      · rw [update_of_ne hmn]
        exact ptr_update v _ hm (fun b' hb' => update_of_ne hb' ..)
          (hfree (m, .indirect)) s'
  refine ⟨owned_assign hg h hk hclear
    ((ref_eq_none (s := .indirect) hn).mpr hnone) href rfl rfl, fun m idx => ?_⟩
  refine same_block (fun s hs => (href _).trans (update_of_ne ?_ ..))
    fun s b' _ href' => update_of_ne ?_ ..
  · rintro heq
    exact slotAt_ne_indirect (hs.trans (congrArg some (Prod.mk.inj heq).2))
  · rintro rfl
    exact hfree _ href'

theorem assignEntry (hg : Geometry v.superblock) (h : Owned v) (hn : v.Used n)
    (hk : k < dataBlocks v.superblock) (hclear : Volume.bit v.bitmapBuf k = false)
    (hind : (v.inodes n).indirect ≠ 0) (hdirect : ¬ idx < directBlocks)
    (hidx : idx - directBlocks < indirectBlocks)
    (hhole : (words (v.disk (v.inodes n).indirect))[idx - directBlocks] = 0) (block : Block) :
    Changes v (((v.taken k).put (dataBlock v.superblock k) block).put (v.inodes n).indirect
      (ofWords ((words (v.disk (v.inodes n).indirect)).set (idx - directBlocks)
        (dataBlock v.superblock k)))) n idx block := by
  have hfree := ref_unmarked h (not_marked hg hk hclear)
  have hzero := (inData_dataBlock hg hk).ne_zero hg
  have hrefInd : v.ref (n, .indirect) = some (v.inodes n).indirect :=
    ref_eq_some.mpr ⟨hn, hind, rfl⟩
  have hs : slotAt idx = some (.entry ⟨idx - directBlocks, hidx⟩) := by
    unfold slotAt
    rw [dif_neg hdirect, dif_pos hidx]
  have hne : dataBlock v.superblock k ≠ (v.inodes n).indirect := by
    intro heq
    exact hfree _ (heq ▸ hrefInd)
  have hdisk (b' : UInt32) (h1 : b' ≠ dataBlock v.superblock k) (h2 : b' ≠ (v.inodes n).indirect) :
      (((v.taken k).put (dataBlock v.superblock k) block).put (v.inodes n).indirect
        (ofWords ((words (v.disk (v.inodes n).indirect)).set (idx - directBlocks)
          (dataBlock v.superblock k)))).disk b' = v.disk b' :=
    (update_of_ne h2 ..).trans (update_of_ne h1 ..)
  have hwords : words ((((v.taken k).put (dataBlock v.superblock k) block).put
      (v.inodes n).indirect (ofWords ((words (v.disk (v.inodes n).indirect)).set
        (idx - directBlocks) (dataBlock v.superblock k)))).disk (v.inodes n).indirect) =
      (words (v.disk (v.inodes n).indirect)).set (idx - directBlocks)
        (dataBlock v.superblock k) :=
    (congrArg words (update_self ..)).trans (words_ofWords _)
  have hblock : (((v.taken k).put (dataBlock v.superblock k) block).put
      (v.inodes n).indirect (ofWords ((words (v.disk (v.inodes n).indirect)).set
        (idx - directBlocks) (dataBlock v.superblock k)))).disk (dataBlock v.superblock k) =
      block := (update_of_ne hne ..).trans (update_self ..)
  generalize hv' : ((v.taken k).put (dataBlock v.superblock k) block).put (v.inodes n).indirect
    (ofWords ((words (v.disk (v.inodes n).indirect)).set (idx - directBlocks)
      (dataBlock v.superblock k))) = v' at *
  have hinodes : v'.inodes = v.inodes := by rw [← hv']; rfl
  have hbuf : v'.bitmapBuf = (v.taken k).bitmapBuf := by rw [← hv']; rfl
  have hsb : v'.superblock = (v.taken k).superblock := by rw [← hv']; rfl
  have href : ∀ s', v'.ref s' = update v.ref (n, .entry ⟨idx - directBlocks, hidx⟩)
      (some (dataBlock v.superblock k)) s' := by
    refine ref_update hn (fun m => ?_) hzero ?_ fun m s' hm hother => ?_
    · unfold Volume.Used
      rw [hinodes, hsb]
      rfl
    · rw [hinodes, ptr_entry hind, Fin.getElem_fin, hwords]
      exact Vector.getElem_set_self hidx
    · rw [hinodes]
      by_cases hmn : m = n
      · subst hmn
        cases s' with
        | direct j => rfl
        | indirect => rfl
        | entry j =>
          have hj : idx - directBlocks ≠ j.val := by
            rintro hj
            exact hother (by rw [show j = ⟨idx - directBlocks, hidx⟩ from Fin.ext hj.symm])
          rw [ptr_entry hind, ptr_entry hind, Fin.getElem_fin, Fin.getElem_fin, hwords]
          exact Vector.getElem_set_ne hidx j.isLt hj
      · refine ptr_congr v v' (fun hmzero => congrArg words (hdisk _ ?_ ?_)) s'
        · rintro heq
          exact hfree (m, .indirect) (heq ▸ ref_eq_some.mpr ⟨hm, hmzero, rfl⟩)
        · rintro heq
          have hmi : v.ref (m, .indirect) = some (v.inodes n).indirect :=
            heq ▸ ref_eq_some.mpr ⟨hm, hmzero, rfl⟩
          exact hmn (congrArg Prod.fst (h.exact.once _ _ _ hmi hrefInd))
  have hempty : v.ref (n, .entry ⟨idx - directBlocks, hidx⟩) = none :=
    (ref_eq_none hn).mpr ((ptr_entry hind _).trans hhole)
  have hchange := changes_assign hg h hk hclear hs hempty href hbuf hsb
    fun s' b' href' hdata => hdisk b' (by rintro rfl; exact hfree s' href') (by
      rintro rfl
      exact hdata (congrArg Prod.snd (h.exact.once _ _ _ href' hrefInd)))
  rw [hblock] at hchange
  exact hchange

end Fs
end EkKor
