import EkKor.Fs.Writes
import EkKor.Fs.Format

/-!
# What the calls do to a mounted volume

* `Mounted`            the layout is proper, and each marked block belongs to one slot;
* `create_spec`, `delete_spec`, `sync_spec`   the calls that change the tables;
* `WroteFile`, `write_spec`   a write that goes right.
-/

namespace EkKor
namespace Fs
open Ownership Function
open List hiding Vector

/-- the layout is proper, and the blocks belong to the files -/
structure Mounted (v : Volume) : Prop where
  geometry : Geometry v.superblock
  few : v.bitmapBlocks.toNat ≤ 8
  tables : v.superblock.bitmapStart.toNat + v.bitmapBlocks.toNat ≤ v.superblock.dataStart.toNat
  owned : Owned v

variable {v : Volume} {n : UInt32}

/-- the parts of the superblock that no call changes -/
structure SameLayout (v v' : Volume) : Prop where
  totalBlocks : v'.superblock.totalBlocks = v.superblock.totalBlocks
  inodeCount : v'.superblock.inodeCount = v.superblock.inodeCount
  bitmapStart : v'.superblock.bitmapStart = v.superblock.bitmapStart
  dataStart : v'.superblock.dataStart = v.superblock.dataStart
  bitmapBlocks : v'.bitmapBlocks = v.bitmapBlocks

theorem sameLayout_withInode (v : Volume) (n : UInt32) (x : Inode) :
    SameLayout v (v.withInode n x) := ⟨rfl, rfl, rfl, rfl, rfl⟩

variable {v' : Volume}

theorem Frame.sameLayout (h : Frame v v') : SameLayout v v' := by
  have hsb := h.superblock
  exact ⟨congrArg (·.totalBlocks) hsb, congrArg (·.inodeCount) hsb, congrArg (·.bitmapStart) hsb,
    congrArg (·.dataStart) hsb, h.bitmapBlocks⟩

theorem SameLayout.geometry (h : SameLayout v v') (hg : Geometry v.superblock) :
    Geometry v'.superblock := by
  have hblocks : dataBlocks v'.superblock = dataBlocks v.superblock := by
    unfold dataBlocks
    rw [h.totalBlocks, h.dataStart]
  exact ⟨h.dataStart ▸ hg.pos, h.dataStart ▸ h.totalBlocks ▸ hg.fits, hblocks ▸ hg.few,
    h.totalBlocks ▸ hg.int⟩

theorem Mounted.next (h : Mounted v) (hsame : SameLayout v v') (ho : Owned v') : Mounted v' := by
  refine ⟨hsame.geometry h.geometry, hsame.bitmapBlocks ▸ h.few, ?_, ho⟩
  rw [hsame.bitmapStart, hsame.dataStart, hsame.bitmapBlocks]
  exact h.tables

/-! ## inodes -/

theorem keeps_of_ref (h : Owned v) (href : ∀ s, v'.ref s = v.ref s)
    (hbuf : v'.bitmapBuf = v.bitmapBuf) (hsame : SameLayout v v')
    (hfree : v'.superblock.freeBlocks = v.superblock.freeBlocks)
    (hdisk : ∀ s b, v.ref s = some b → v'.disk b = v.disk b) : Keeps v v' := by
  refine ⟨⟨h.exact.congr href fun b => ?_, ?_⟩, fun m idx => ?_⟩
  · unfold Volume.Marked InData
    rw [hbuf, hsame.dataStart, hsame.totalBlocks]
  · unfold Volume.Counted dataBlocks
    rw [hbuf, hsame.dataStart, hsame.totalBlocks, hfree]
    exact h.counted
  · exact same_block (fun s _ => href _) fun s b _ hb => hdisk _ b hb

theorem keeps_withInode {x y : Inode} (h : Owned (v.withInode n x)) (hflags : y.flags = x.flags)
    (hblocks : y.blocks = x.blocks) (hindirect : y.indirect = x.indirect) :
    Keeps (v.withInode n x) (v.withInode n y) := by
  refine keeps_of_ref h (fun ⟨m, s⟩ => ?_) rfl ⟨rfl, rfl, rfl, rfl, rfl⟩ rfl fun _ _ _ => rfl
  refine ref_of_ptr ?_ fun _ => ?_
  · rw [← withInode_withInode v n x y]
    exact used_withInode (by rw [inodes_withInode]; exact hflags) m
  · show Volume.ptr _ (update v.inodes n y m) s =
      Volume.ptr _ (update v.inodes n x m) s
    by_cases hm : m = n
    · rw [hm, update_self, update_self]
      cases s with
      | direct k =>
        show y.blocks[k] = x.blocks[k]
        rw [hblocks]
      | indirect => exact hindirect
      | entry k =>
        unfold Volume.ptr
        rw [hindirect]
        rfl
    · rw [update_of_ne hm, update_of_ne hm]
      cases s with
      | direct k => rfl
      | indirect => rfl
      | entry k => rfl

theorem keeps_newInode {x : Inode} (h : Owned v) (hn : ¬ v.Used n)
    (hblocks : x.blocks = Vector.replicate directBlocks 0) (hindirect : x.indirect = 0) :
    Keeps v (v.withInode n x) := by
  refine keeps_of_ref h (fun ⟨m, s⟩ => ?_) rfl (sameLayout_withInode ..) rfl fun _ _ _ => rfl
  by_cases hm : m = n
  · subst hm
    have hold : v.ref (m, s) = none := if_neg fun hc => hn hc.1
    have hptr : (v.withInode m x).ptr ((v.withInode m x).inodes m) s = 0 := by
      rw [inodes_withInode]
      cases s with
      | direct k =>
        show x.blocks[k] = 0
        rw [hblocks]
        exact Vector.getElem_replicate _
      | indirect => exact hindirect
      | entry k => exact if_pos hindirect
    rw [hold]
    exact if_neg fun hc => hc.2 hptr
  · have hinode : (v.withInode n x).inodes m = v.inodes m := update_of_ne hm ..
    refine ref_of_ptr ?_ fun _ => ?_
    · unfold Volume.Used
      rw [hinode]
      rfl
    · rw [hinode]
      exact ptr_congr v _ (fun _ => rfl) s

/-! ## `ekkfs_create` -/

theorem findInode_spec {p : Inode → Bool} {i : UInt32} (h : v.findInode p = some i) :
    i < v.superblock.inodeCount ∧ p (v.inodes i) = true := by
  obtain ⟨k, hfind, hk⟩ := Option.bind_eq_some_iff.mp h
  split_ifs at hk
  obtain rfl := Option.some.inj hk
  have hrange := mem_range.mp (mem_of_find?_eq_some hfind)
  refine ⟨?_, find?_some (p := fun i => p (v.inodes (UInt32.ofNat i))) hfind⟩
  exact Nat.lt_of_le_of_lt (Nat.mod_le k _) hrange

/-- `ekkfs_create` fails and changes nothing, or an unused inode becomes an empty file -/
theorem create_spec (v : Volume) (name : List UInt8) (ownerId flags : UInt32) (now : UInt64) :
    (∃ e, v.create name ownerId flags now = (.error e, v)) ∨
      ∃ i x, v.create name ownerId flags now = (.ok i, v.withInode i x) ∧ ¬ v.Used i ∧
        x.size = 0 ∧ x.blocks = Vector.replicate directBlocks 0 ∧ x.indirect = 0 := by
  unfold Volume.create
  split_ifs with hlen
  · exact .inl ⟨_, rfl⟩
  · cases v.inodeFindByName name with
    | some i => exact .inl ⟨_, rfl⟩
    | none =>
      cases halloc : v.inodeAlloc with
      | none => exact .inl ⟨_, rfl⟩
      | some i =>
        obtain ⟨hi, hunused⟩ := findInode_spec halloc
        unfold Volume.inodeWrite
        dsimp only
        rw [if_neg (UInt32.not_le.mpr hi)]
        exact .inr ⟨i, _, rfl, fun hc => hc.2 (of_decide_eq_true hunused), rfl, rfl, rfl⟩

theorem create_mounted (h : Mounted v) (name : List UInt8) (ownerId flags : UInt32)
    (now : UInt64) : Mounted (v.create name ownerId flags now).2 := by
  rcases create_spec v name ownerId flags now with ⟨e, heq⟩ |
    ⟨i, x, heq, hunused, _, hblocks, hindirect⟩
  · rw [heq]
    exact h
  · rw [heq]
    exact h.next (sameLayout_withInode ..) (keeps_newInode h.owned hunused hblocks hindirect).owned

/-! ## `ekkfs_delete` -/

/-- the slots of an inode, in the order in which `ekkfs_delete` goes through them -/
def allSlots : List Slot :=
  (List.finRange directBlocks).map .direct ++ (List.finRange indirectBlocks).map .entry ++
    [.indirect]

theorem mem_allSlots (s : Slot) : s ∈ allSlots := by
  unfold allSlots
  cases s with
  | direct k => simp
  | indirect => simp
  | entry k => simp

theorem nodup_allSlots : allSlots.Nodup := by
  unfold allSlots
  rw [nodup_append, nodup_append]
  refine ⟨⟨(nodup_finRange _).map fun _ _ h => Slot.direct.inj h,
    (nodup_finRange _).map fun _ _ h => Slot.entry.inj h, ?_⟩, nodup_singleton _, ?_⟩
  · intro a ha b hb heq
    obtain ⟨j, _, rfl⟩ := mem_map.mp ha
    obtain ⟨k, _, rfl⟩ := mem_map.mp hb
    cases heq
  · intro a ha b hb heq
    obtain rfl := mem_singleton.mp hb
    rcases mem_append.mp ha with ha | ha
    · obtain ⟨k, _, rfl⟩ := mem_map.mp ha
      cases heq
    · obtain ⟨k, _, rfl⟩ := mem_map.mp ha
      cases heq

theorem freeAll_append (v : Volume) (l l' : List UInt32) :
    v.freeAll (l ++ l') = (v.freeAll l).bind fun v => v.freeAll l' := by
  induction l generalizing v with
  | nil => rfl
  | cons b l ih =>
    rw [cons_append, Volume.freeAll, Volume.freeAll]
    split_ifs with hb
    · cases v.bitmapFree b with
      | none => rfl
      | some v' => exact ih v'
    · exact ih v

theorem marked_freed (hg : Geometry v.superblock) {k : Nat} (hk : k < dataBlocks v.superblock)
    (b : UInt32) : (v.freed k).Marked b ↔ v.Marked b ∧ b ≠ dataBlock v.superblock k := by
  show InData v.superblock b ∧ Volume.bit (Volume.assignBufBit v.bitmapBuf k false)
    (b.toNat - v.superblock.dataStart.toNat) = true ↔ _
  rw [bit_assignBufBit]
  have hfew := hg.few
  constructor
  · rintro ⟨hin, hbit⟩
    split_ifs at hbit with hidx
    refine ⟨⟨hin, hbit⟩, ?_⟩
    rintro rfl
    rw [dataBlock_toNat hg (by omega), Nat.add_sub_cancel_left] at hidx
    exact hidx rfl
  · rintro ⟨⟨hin, hbit⟩, hne⟩
    refine ⟨hin, ?_⟩
    rw [if_neg]
    · exact hbit
    · intro hidx
      exact hne (hidx ▸ hin.eq_dataBlock hg)

theorem frame_freed (k : Nat) : Frame v (v.freed k) := ⟨rfl, rfl, rfl⟩

theorem freeAll_spec (l : List UInt32) : ∀ v : Volume, Geometry v.superblock → v.Counted →
    (∀ b ∈ l, b ≠ 0 → v.Marked b) → l.Pairwise (fun a b => a ≠ 0 → a ≠ b) →
    ∃ v', v.freeAll l = some v' ∧ Frame v v' ∧ v'.disk = v.disk ∧ v'.Counted ∧
      ∀ b, v'.Marked b ↔ v.Marked b ∧ b ∉ l := by
  induction l with
  | nil =>
    intro v _ hc _ _
    exact ⟨v, rfl, ⟨rfl, rfl, rfl⟩, rfl, hc, fun b => ⟨fun h => ⟨h, not_mem_nil⟩, And.left⟩⟩
  | cons b l ih =>
    intro v hg hc hmarked hdistinct
    obtain ⟨hb, hdistinct⟩ := pairwise_cons.mp hdistinct
    have hrest := fun b' (hb' : b' ∈ l) => hmarked b' (mem_cons_of_mem b hb')
    rw [Volume.freeAll]
    by_cases hzero : b = 0
    · rw [if_neg (fun hne => hne hzero)]
      obtain ⟨v', heq, hframe, hdisk, hc', hmarked'⟩ := ih v hg hc hrest hdistinct
      refine ⟨v', heq, hframe, hdisk, hc', fun b' => (hmarked' b').trans (and_congr_right ?_)⟩
      intro hm
      rw [mem_cons, not_or]
      exact (and_iff_right (hzero ▸ hm.1.ne_zero hg)).symm
    · have hm := hmarked b mem_cons_self hzero
      have hk := hm.1.index_lt
      have hbk := hm.1.eq_dataBlock hg
      have hbit := hm.2
      rw [if_pos hzero, bitmapFree_spec hg hm.1, Option.bind_some]
      generalize b.toNat - v.superblock.dataStart.toNat = k at *
      have hmf := marked_freed hg hk
      rw [← hbk] at hmf
      obtain ⟨v', heq, hframe, hdisk, hc', hmarked'⟩ := ih (v.freed k)
        ⟨hg.pos, hg.fits, hg.few, hg.int⟩ (counted_freed hg hc hk hbit)
        (fun b' hb' hne => (hmf b').mpr ⟨hrest b' hb' hne, (hb b' hb' hzero).symm⟩) hdistinct
      refine ⟨v', heq, ?_, hdisk, hc', fun b' => ?_⟩
      · exact (frame_freed k).trans hframe
      · rw [hmarked', hmf, mem_cons, not_or, and_assoc]

theorem freeAll_disk {l : List UInt32} (h : v.freeAll l = some v') : v'.disk = v.disk := by
  induction l generalizing v with
  | nil => exact congrArg Volume.disk (Option.some.inj h).symm
  | cons b l ih =>
    rw [Volume.freeAll] at h
    split_ifs at h with hb
    · obtain ⟨v₁, hfree, h⟩ := Option.bind_eq_some_iff.mp h
      refine (ih h).trans ?_
      unfold Volume.bitmapFree Volume.bitmapSet at hfree
      dsimp only at hfree
      split_ifs at hfree
      · obtain rfl := Option.some.inj hfree
        rfl
      · obtain rfl := Option.some.inj hfree
        rfl
      · cases hfree
      · obtain rfl := Option.some.inj hfree
        rfl
    · exact ih h

theorem freeAll_zero {l : List UInt32} (h : ∀ b ∈ l, b = 0) : v.freeAll l = some v := by
  induction l with
  | nil => rfl
  | cons b l ih =>
    rw [Volume.freeAll, if_neg (fun hb => hb (h b mem_cons_self))]
    exact ih fun b' hb' => h b' (mem_cons_of_mem b hb')

/-- `ekkfs_delete` gives the blocks of all slots back -/
theorem freeBlocks_eq (v : Volume) (inode : Inode) :
    v.freeBlocks inode = v.freeAll (allSlots.map (v.ptr inode)) := by
  have hdirect : ((List.finRange directBlocks).map Slot.direct).map (v.ptr inode) =
      inode.blocks.toList := by
    rw [map_map]
    refine ext_getElem (by simp) fun k _ hk => ?_
    rw [getElem_map, getElem_finRange, Vector.getElem_toList]
    rfl
  unfold Volume.freeBlocks allSlots
  rw [map_append, map_append, freeAll_append, freeAll_append, hdirect, Option.bind_assoc]
  cases hfree : v.freeAll inode.blocks.toList with
  | none => rfl
  | some v₁ =>
    have hdisk := freeAll_disk hfree
    rw [Option.bind_some, Option.bind_some]
    by_cases hind : inode.indirect = 0
    · have hzero : ∀ b ∈ ((List.finRange indirectBlocks).map Slot.entry).map (v.ptr inode),
          b = 0 := by
        intro b hb
        rw [map_map] at hb
        obtain ⟨k, _, rfl⟩ := mem_map.mp hb
        exact if_pos hind
      have hlast : ∀ b ∈ [Slot.indirect].map (v.ptr inode), b = 0 := by
        intro b hb
        exact (mem_singleton.mp hb).trans hind
      rw [if_neg (fun h => h hind), freeAll_zero hzero, Option.bind_some, freeAll_zero hlast]
    · have hentry : ((List.finRange indirectBlocks).map Slot.entry).map (v.ptr inode) =
          (words (v.disk inode.indirect)).toList := by
        rw [map_map]
        refine ext_getElem (by simp) fun k _ hk => ?_
        rw [getElem_map, getElem_finRange, Vector.getElem_toList]
        exact ptr_entry hind _
      rw [if_pos hind, hentry, hdisk]
      congr 1
      funext v₂
      show _ = Volume.freeAll v₂ [inode.indirect]
      rw [Volume.freeAll, if_pos hind]
      cases v₂.bitmapFree inode.indirect with
      | none => rfl
      | some _ => rfl

theorem release_spec (h : Mounted v) (hn : v.Used n) :
    ∃ v', v.freeBlocks (v.inodes n) = some v' ∧ Frame v v' ∧ Mounted (v'.withInode n Inode.zero) ∧
      ∀ m ≠ n, ∀ idx, (v'.withInode n Inode.zero).blockAt m idx = v.blockAt m idx := by
  have hg := h.geometry
  have hexact := h.owned.exact
  have hmem (b : UInt32) : b ∈ allSlots.map (v.ptr (v.inodes n)) ↔
      ∃ s, v.ptr (v.inodes n) s = b := by
    rw [mem_map]
    exact ⟨fun ⟨s, _, hs⟩ => ⟨s, hs⟩, fun ⟨s, hs⟩ => ⟨s, mem_allSlots s, hs⟩⟩
  have hmarked : ∀ b ∈ allSlots.map (v.ptr (v.inodes n)), b ≠ 0 → v.Marked b := by
    intro b hb hzero
    obtain ⟨s, hs⟩ := (hmem b).mp hb
    exact hexact.marked_of (n, s) b (ref_eq_some.mpr ⟨hn, hzero, hs⟩)
  have hdistinct : (allSlots.map (v.ptr (v.inodes n))).Pairwise fun a b => a ≠ 0 → a ≠ b := by
    refine pairwise_map.mpr (nodup_allSlots.imp fun hne hzero heq => hne ?_)
    exact congrArg Prod.snd (hexact.once _ _ _ (ref_eq_some.mpr ⟨hn, hzero, rfl⟩)
      (ref_eq_some.mpr ⟨hn, hzero, heq.symm⟩))
  obtain ⟨v', heq, hframe, hdisk, hcounted, hm⟩ :=
    freeAll_spec _ v hg h.owned.counted hmarked hdistinct
  have hlayout := hframe.sameLayout
  have hother : ∀ m ≠ n, ∀ s, (v'.withInode n Inode.zero).ref (m, s) = v.ref (m, s) := by
    intro m hm s
    have hinode : (v'.withInode n Inode.zero).inodes m = v.inodes m :=
      (update_of_ne hm ..).trans (congrFun hframe.inodes m)
    refine ref_of_ptr ?_ fun _ => ?_
    · unfold Volume.Used
      rw [hinode]
      show m < v'.superblock.inodeCount ∧ _ ↔ _
      rw [hlayout.inodeCount]
    · rw [hinode]
      exact ptr_congr v _ (fun _ => congrArg words (congrFun hdisk _)) s
  have howned : Owned (v'.withInode n Inode.zero) := by
    refine ⟨hexact.release (fun s => s.1 = n) ?_ (fun s hs => hother s.1 hs s.2) fun b => ?_,
      hcounted⟩
    · rintro ⟨m, s⟩ rfl
      refine if_neg fun hc => hc.1.2 ?_
      rw [inodes_withInode]
      decide
    · refine (hm b).trans (and_congr_right fun hb => ?_)
      rw [hmem]
      constructor
      · rintro hno ⟨m, s⟩ rfl href
        exact hno ⟨s, (ref_eq_some.mp href).2.2⟩
      · rintro hno ⟨s, hs⟩
        exact hno (n, s) rfl (ref_eq_some.mpr ⟨hn, hb.1.ne_zero hg, hs⟩)
  refine ⟨v', (freeBlocks_eq v _).trans heq, hframe, h.next ?_ howned, fun m hm idx => ?_⟩
  · exact ⟨hlayout.totalBlocks, hlayout.inodeCount, hlayout.bitmapStart, hlayout.dataStart,
      hlayout.bitmapBlocks⟩
  · exact (same_block (fun s _ => hother m hm s) fun _ b _ _ => congrFun hdisk b).2

/-- `ekkfs_delete` fails and changes nothing, or a file and its content are gone -/
theorem delete_spec (h : Mounted v) (name : List UInt8) (ownerId : UInt32) :
    (∃ e, v.delete name ownerId = some (.error e, v)) ∨
      ∃ n v', v.delete name ownerId = some (.ok (), v') ∧ Mounted v' ∧ SameLayout v v' ∧
        v'.inodes = update v.inodes n Inode.zero ∧
        ∀ m ≠ n, ∀ idx, v'.blockAt m idx = v.blockAt m idx := by
  unfold Volume.delete
  cases hfind : v.inodeFindByName name with
  | none => exact .inl ⟨_, rfl⟩
  | some n =>
    obtain ⟨hn, hp⟩ := findInode_spec hfind
    have hused : v.Used n := ⟨hn, of_decide_eq_true (Bool.and_eq_true_iff.mp hp).1⟩
    unfold Volume.inodeRead
    dsimp only
    rw [if_neg (UInt32.not_le.mpr hn)]
    dsimp only
    split_ifs with howner hsystem
    · exact .inl ⟨_, rfl⟩
    · exact .inl ⟨_, rfl⟩
    · obtain ⟨v', hfree, hframe, hmounted, hsame⟩ := release_spec h hused
      have hlayout := hframe.sameLayout
      refine .inr ⟨n, v'.withInode n Inode.zero, ?_, hmounted, ?_, ?_, hsame⟩
      · rw [hfree, Option.map_some]
        unfold Volume.inodeWrite
        rw [if_neg (UInt32.not_le.mpr (hlayout.inodeCount ▸ hn))]
        rfl
      · exact ⟨hlayout.totalBlocks, hlayout.inodeCount, hlayout.bitmapStart, hlayout.dataStart,
          hlayout.bitmapBlocks⟩
      · exact congrArg (fun inodes => update inodes n Inode.zero) hframe.inodes

/-! ## `ekkfs_sync` -/

theorem foldl_update_of_ne {l : List Nat} {f : Nat → UInt32} {g : Nat → Block} {b : UInt32}
    (h : ∀ i ∈ l, b ≠ f i) (disk : UInt32 → Block) :
    l.foldl (fun disk i => update disk (f i) (g i)) disk b = disk b := by
  induction l generalizing disk with
  | nil => rfl
  | cons i l ih =>
    rw [foldl_cons, ih fun j hj => h j (mem_cons_of_mem i hj)]
    exact update_of_ne (h i mem_cons_self) ..

/-- `ekkfs_sync` writes into the tables only -/
theorem sync_spec (h : Mounted v) :
    ∃ v', v.sync = some v' ∧ SameLayout v v' ∧ v'.inodes = v.inodes ∧ Keeps v v' := by
  have hsave : v.bitmapBlocks.toNat * blockSize ≤ bitmapBufSize := by
    have hfew := h.few
    show v.bitmapBlocks.toNat * 512 ≤ 4096
    omega
  unfold Volume.sync Volume.bitmapSave
  rw [if_pos hsave, Option.map_some]
  refine ⟨_, rfl, ⟨rfl, rfl, rfl, rfl, rfl⟩, rfl, ?_⟩
  have hdata : ∀ (top : Block) s b, v.ref s = some b →
      update ((List.range v.bitmapBlocks.toNat).foldl (fun disk i =>
        update disk (v.superblock.bitmapStart + UInt32.ofNat i)
          fun k : Fin blockSize => v.bitmapBuf (i * blockSize + k)) v.disk) 0 top b = v.disk b := by
    intro top s b hb
    have hin := (h.owned.exact.marked_of s b hb).1
    refine (update_of_ne (hin.ne_zero h.geometry) ..).trans
      (foldl_update_of_ne (fun i hi => ?_) _)
    rintro rfl
    have hi' := mem_range.mp hi
    have hle := UInt32.le_iff_toNat_le.mp hin.1
    have htables := h.tables
    rw [UInt32.toNat_add, UInt32.toNat_ofNat'] at hle
    omega
  refine keeps_of_ref h.owned (ref_congr rfl rfl fun m b hb => ?_) rfl ⟨rfl, rfl, rfl, rfl, rfl⟩
    rfl (hdata _)
  exact congrArg words (hdata _ _ b hb)

/-! ## `ekkfs_write` -/

def Writable (v : Volume) (file : File) (ownerId : UInt32) : Prop :=
  v.Used file.inodeNum ∧ ¬ (ownerId ≠ 0 ∧ (v.inodes file.inodeNum).ownerId ≠ ownerId)

def GoodWrite (v : Volume) (file : File) (size ownerId : UInt32) : Prop :=
  Writable v file ownerId → ¬ OneShort v file.inodeNum file.position.toNat size.toNat ∧
    ¬ Overrun v file.inodeNum file.position.toNat size.toNat

/-- `count` bytes of `buffer` are in the file, and nothing else has changed -/
structure WroteFile (v : Volume) (file : File) (buffer : Nat → UInt8) (count : Nat) (v' : Volume)
    (file' : File) : Prop where
  mounted : Mounted v'
  layout : SameLayout v v'
  others : ∀ m ≠ file.inodeNum, v'.inodes m = v.inodes m
  flags : (v'.inodes file.inodeNum).flags = (v.inodes file.inodeNum).flags
  size : (v'.inodes file.inodeNum).size =
    if file'.position > (v.inodes file.inodeNum).size then file'.position
    else (v.inodes file.inodeNum).size
  sameFile : file'.inodeNum = file.inodeNum
  moved : file'.position.toNat = file.position.toNat + count
  bytes : ∀ m o, v'.byteAt m o =
    if m = file.inodeNum ∧ file.position.toNat ≤ o ∧ o < file.position.toNat + count then
      buffer (o - file.position.toNat)
    else v.byteAt m o

theorem Keeps.byteAt (h : Keeps v v') (m : UInt32) (o : Nat) : v'.byteAt m o = v.byteAt m o := by
  unfold Volume.byteAt
  rw [(h.same m _).2]

theorem finishWrite_spec (h : Mounted v) {file : File} {buffer : Nat → UInt8} {size : Nat}
    (hn : v.Used file.inodeNum) (now : UInt64) {w : Volume.Written}
    (hw : Wrote buffer size v (v.inodes file.inodeNum) file.inodeNum file.position 0 w) :
    ∃ r v' file', Volume.finishWrite file now w = (r, v', file') ∧
      (r = .ok w.count ∨ r = .error .full ∧ w.count = 0) ∧
      WroteFile v file buffer w.count v' file' := by
  have hlayout := hw.frame.sameLayout
  have hmoved := hw.moved
  have hsize : w.inode.size = (v.inodes file.inodeNum).size := by rw [hw.pointers]
  have hflags : w.inode.flags = (v.inodes file.inodeNum).flags := by rw [hw.pointers]
  rw [Nat.sub_zero] at hmoved
  unfold Volume.finishWrite Volume.inodeWrite
  dsimp only
  rw [if_neg (UInt32.not_le.mpr (hlayout.inodeCount ▸ hn.1))]
  generalize hy : (if w.full = true then _ else _ : Inode) = y
  have hyflags : y.flags = w.inode.flags := by
    rw [← hy]
    split_ifs <;> rfl
  have hysize : y.size = if w.position > w.inode.size then w.position else w.inode.size := by
    rw [← hy]
    split_ifs <;> rfl
  have hyblocks : y.blocks = w.inode.blocks := by
    rw [← hy]
    split_ifs <;> rfl
  have hyindirect : y.indirect = w.inode.indirect := by
    rw [← hy]
    split_ifs <;> rfl
  have hkeep := keeps_withInode hw.owned hyflags hyblocks hyindirect
  have hsame : SameLayout v (w.vol.withInode file.inodeNum y) := ⟨hlayout.totalBlocks,
    hlayout.inodeCount, hlayout.bitmapStart, hlayout.dataStart, hlayout.bitmapBlocks⟩
  refine ⟨_, w.vol.withInode file.inodeNum y, _, rfl, ?_, h.next hsame hkeep.owned, hsame,
    fun m hm => ?_, ?_, ?_, rfl, hmoved, fun m o => ?_⟩
  · split_ifs with hfull
    · exact .inr ⟨rfl, hfull.2⟩
    · exact .inl rfl
  · exact (update_of_ne hm ..).trans (congrFun hw.frame.inodes m)
  · rw [inodes_withInode, hyflags, hflags]
  · rw [inodes_withInode, hysize, hsize]
  · rw [hkeep.byteAt, hw.bytes, withInode_self, hmoved, Nat.zero_add]

theorem write_spec (h : Mounted v) {file : File} (buffer : Nat → UInt8) {size ownerId : UInt32}
    (now : UInt64) (hgood : GoodWrite v file size ownerId) :
    (∃ e, v.write file buffer size ownerId now = some (.error e, v, file)) ∨
      ∃ count ≤ size.toNat, ∃ r v' file', v.write file buffer size ownerId now = some (r, v', file') ∧
        (r = .ok count ∨ r = .error .full ∧ count = 0) ∧ v.Used file.inodeNum ∧
        WroteFile v file buffer count v' file' := by
  unfold Volume.write Volume.inodeRead
  split_ifs with hcount
  · exact .inl ⟨_, rfl⟩
  · dsimp only
    split_ifs with hflags howner
    · exact .inl ⟨_, rfl⟩
    · exact .inl ⟨_, rfl⟩
    · have hn : v.Used file.inodeNum := ⟨UInt32.not_le.mp hcount, hflags⟩
      obtain ⟨hshort, hover⟩ := hgood ⟨hn, howner⟩
      have hself := withInode_self v file.inodeNum
      obtain ⟨w, hloop, hw⟩ := writeLoop_spec buffer size.toNat size.toNat (n := file.inodeNum) v
        (v.inodes file.inodeNum) file.position 0 h.geometry (hself.symm ▸ h.owned)
        (hself.symm ▸ hn) (Nat.zero_le _) (Nat.sub_le ..) (hself.symm ▸ hshort)
        (hself.symm ▸ hover)
      obtain ⟨r, v', file', hfinish, hr, hwrote⟩ := finishWrite_spec h hn now hw
      refine .inr ⟨w.count, hw.count_le, r, v', file', ?_, hr, hn, hwrote⟩
      rw [hloop, Option.map_some, hfinish]

end Fs
end EkKor
