import EkKor.Fs.Ownership

/-!
# The files are byte arrays

* `readLoop_spec`, `read_spec`   what `ekkfs_read` returns of a mounted volume;
* `Bytes`, `Session.note`        the last byte written at each offset of each file, by the replies;
* `Session.Allowed`              the calls that neither write nor read past the end of an inode;
* `byte_arrays_of_runs`          every read returns the last bytes written.
-/

namespace EkKor
namespace Fs
open Ownership Runs List Function

variable {v : Volume} {n : UInt32}

/-! ## reading -/

theorem slice_blockAt (v : Volume) (n : UInt32) {p len : Nat}
    (h : p % blockSize + len ≤ blockSize) :
    slice (v.blockAt n (p / blockSize)) (p % blockSize) len =
      (List.range len).map fun t => v.byteAt n (p + t) := by
  change p % 512 + len ≤ 512 at h
  have hlen := length_slice (v.blockAt n (p / blockSize)) h
  refine ext_getElem (by rw [hlen, length_map, length_range]) fun t ht ht' => ?_
  rw [hlen] at ht
  rw [getElem_slice _ _ _ _ _ (by show p % 512 + t < 512; omega), getElem_map,
    getElem_range]
  unfold Volume.byteAt
  have hdiv : (p + t) / blockSize = p / blockSize := by
    show (p + t) / 512 = p / 512
    omega
  have hmod : (p + t) % blockSize = p % blockSize + t := by
    show (p + t) % 512 = p % 512 + t
    omega
  simp only [hdiv, hmod]

theorem blockNum_spec (hn : v.Used n) {idx : Nat}
    (hidx : (v.inodes n).indirect ≠ 0 → idx < fileBlocks) (offset len : Nat)
    (hlen : offset + len ≤ blockSize) :
    ∃ b, v.blockNum (v.inodes n) idx = some b ∧
      (if b ≠ 0 then slice (v.disk b) offset len else List.replicate len 0) =
        slice (v.blockAt n idx) offset len := by
  have hzero : List.replicate len 0 = slice zeroBlock offset len := by
    refine ext_getElem ?_ fun t ht ht' => ?_
    · rw [length_replicate, length_slice _ hlen]
    · rw [length_replicate] at ht
      rw [getElem_replicate, getElem_slice _ _ _ _ _ (by omega)]
      rfl
  have hslot {s : Slot} (hs : slotAt idx = some s) :
      (if v.ptr (v.inodes n) s ≠ 0 then slice (v.disk (v.ptr (v.inodes n) s)) offset len
        else List.replicate len 0) = slice (v.blockAt n idx) offset len := by
    split_ifs with hb
    · rw [blockAt_eq ((holding_eq hs).trans (ref_eq_some.mpr ⟨hn, hb, rfl⟩))]
    · rw [blockAt_hole ((holding_eq hs).trans ((ref_eq_none hn).mpr (not_not.mp hb))), hzero]
  unfold Volume.blockNum
  by_cases hdirect : idx < directBlocks
  · rw [dif_pos hdirect]
    exact ⟨_, rfl, hslot (slotAt_direct hdirect)⟩
  · rw [dif_neg hdirect]
    by_cases hind : (v.inodes n).indirect = 0
    · rw [if_neg (fun h => h hind)]
      refine ⟨0, rfl, ?_⟩
      have hhole : v.holding n idx = none := by
        unfold Volume.holding slotAt
        split_ifs with hentry
        · exact (ref_eq_none hn).mpr (if_pos hind)
        · rfl
      rw [if_neg (fun h => h rfl), blockAt_hole hhole, hzero]
    · have hentry : idx - directBlocks < indirectBlocks := by
        have hlt : idx < 138 := hidx hind
        show idx - 10 < 128
        omega
      rw [if_pos hind, dif_pos hentry]
      refine ⟨_, rfl, ?_⟩
      have hptr := ptr_entry hind (v := v) (⟨idx - directBlocks, hentry⟩ : Fin indirectBlocks)
      have hread := hslot (slotAt_entry hdirect hentry)
      rw [hptr] at hread
      exact hread

/-- the loop of `ekkfs_read` goes on from the bytes it has read -/
theorem readLoop_spec (hn : v.Used n) {p size : Nat} (hsize : p + size < 2 ^ 32)
    (hend : (v.inodes n).indirect ≠ 0 → p + size ≤ fileBlocks * blockSize) (fuel : Nat) :
    ∀ (position : UInt32) (c : Nat), position.toNat = p + c → c ≤ size → size - c ≤ fuel →
      ∃ position', position'.toNat = p + size ∧
        v.readLoop (v.inodes n) size fuel position ((List.range c).map fun t => v.byteAt n (p + t)) =
          some ((List.range size).map fun t => v.byteAt n (p + t), position') := by
  induction fuel with
  | zero =>
    intro position c hposition hc hfuel
    obtain rfl : c = size := by omega
    refine ⟨position, hposition, ?_⟩
    unfold Volume.readLoop
    rw [length_map, length_range, if_neg (Nat.lt_irrefl c)]
  | succ fuel ih =>
    intro position c hposition hc hfuel
    rw [Volume.readLoop, length_map, length_range]
    by_cases hmore : c < size
    · rw [if_pos hmore]
      dsimp only
      generalize hd : min (blockSize - position.toNat % blockSize) (size - c) = d
      change min (512 - position.toNat % 512) (size - c) = d at hd
      have hlen : position.toNat % blockSize + d ≤ blockSize := by
        show position.toNat % 512 + d ≤ 512
        omega
      obtain ⟨b, hb, hbytes⟩ := blockNum_spec hn
        (fun hind => show position.toNat / blockSize < fileBlocks by
          have hle := hend hind
          change p + size ≤ 138 * 512 at hle
          show position.toNat / 512 < 138
          omega) (position.toNat % blockSize) d hlen
      have hposition' : (position + UInt32.ofNat d).toNat = p + (c + d) := by
        rw [UInt32.toNat_add, UInt32.toNat_ofNat']
        omega
      rw [hb]
      dsimp only
      rw [hbytes, slice_blockAt v n hlen, hposition]
      have happend : ((List.range c).map fun t => v.byteAt n (p + t)) ++
          ((List.range d).map fun t => v.byteAt n (p + c + t)) =
            (List.range (c + d)).map fun t => v.byteAt n (p + t) := by
        rw [range_add, map_append, map_map]
        simp only [Nat.add_assoc]
        rfl
      rw [happend]
      exact ih _ (c + d) hposition' (by omega) (by omega)
    · obtain rfl : c = size := by omega
      rw [if_neg hmore]
      exact ⟨position, hposition, rfl⟩

def available (v : Volume) (file : File) (size : UInt32) : Nat :=
  min size.toNat ((v.inodes file.inodeNum).size.toNat - file.position.toNat)

/-- the read goes on after the last block that an inode with an indirect block can hold -/
def Overread (v : Volume) (file : File) (size : UInt32) : Prop :=
  v.Used file.inodeNum ∧ (v.inodes file.inodeNum).indirect ≠ 0 ∧ 0 < available v file size ∧
    fileBlocks * blockSize < file.position.toNat + available v file size

instance (v : Volume) (file : File) (size : UInt32) : Decidable (Overread v file size) :=
  inferInstanceAs (Decidable (_ ∧ _))

variable {size : UInt32} {s : Session} {bytes : Bytes}

theorem read_spec {file : File} (hn : v.Used file.inodeNum) (hgood : ¬ Overread v file size) :
    ∃ file', v.read file size =
      some (.ok ((List.range (available v file size)).map fun t =>
        v.byteAt file.inodeNum (file.position.toNat + t)), file') := by
  have hremaining : (if file.position < (v.inodes file.inodeNum).size then
      (v.inodes file.inodeNum).size - file.position else 0).toNat =
        (v.inodes file.inodeNum).size.toNat - file.position.toNat := by
    split_ifs with hlt
    · exact UInt32.toNat_sub_of_le _ _ (UInt32.le_of_lt hlt)
    · exact (Nat.sub_eq_zero_of_le (Nat.not_lt.mp hlt)).symm
  unfold Volume.read Volume.inodeRead
  rw [if_neg (UInt32.not_le.mpr hn.1)]
  dsimp only
  rw [if_neg hn.2]
  generalize (if file.position < (v.inodes file.inodeNum).size then
    (v.inodes file.inodeNum).size - file.position else 0) = remaining at *
  have havail : (if size > remaining then remaining else size).toNat = available v file size := by
    unfold available
    rw [← hremaining]
    split_ifs with hlt
    · exact (Nat.min_eq_right (Nat.le_of_lt (UInt32.lt_iff_toNat_lt.mp hlt))).symm
    · exact (Nat.min_eq_left (UInt32.le_iff_toNat_le.mp (UInt32.not_lt.mp hlt))).symm
  generalize (if size > remaining then remaining else size) = count at *
  split_ifs with hzero
  · refine ⟨file, ?_⟩
    rw [← havail, hzero]
    rfl
  · have hpos : 0 < count.toNat := Nat.pos_of_ne_zero fun h => hzero (UInt32.toNat_inj.mp h)
    have hbound : file.position.toNat + count.toNat < 2 ^ 32 := by
      have hlt := (v.inodes file.inodeNum).size.toNat_lt
      rw [havail]
      rw [havail] at hpos
      unfold available at hpos ⊢
      omega
    obtain ⟨position, _, hloop⟩ := readLoop_spec hn hbound (fun hind => by
      rw [havail] at hpos ⊢
      by_contra hno
      exact hgood ⟨hn, hind, hpos, Nat.not_le.mp hno⟩) count.toNat file.position 0
      (Nat.add_zero _).symm (Nat.zero_le _) (Nat.sub_le ..)
    refine ⟨{ file with position := position }, ?_⟩
    rw [range_zero, map_nil] at hloop
    rw [hloop, ← havail]
    rfl

/-- `ekkfs_read` refuses a file that is gone -/
theorem read_refused {file : File} (h : ¬ v.Used file.inodeNum) :
    ∃ e : FsErr, e ≠ .invalid ∧ ∀ size, v.read file size = some (.error e, file) := by
  unfold Volume.read Volume.inodeRead
  by_cases hcount : file.inodeNum ≥ v.superblock.inodeCount
  · refine ⟨.io, FsErr.noConfusion, fun _ => ?_⟩
    rw [if_pos hcount]
  · refine ⟨.notFound, FsErr.noConfusion, fun _ => ?_⟩
    rw [if_neg hcount]
    dsimp only
    rw [if_pos]
    by_contra hflags
    exact h ⟨UInt32.not_le.mp hcount, hflags⟩

/-! ## the last bytes written -/

abbrev Bytes := UInt32 → Nat → UInt8

/-- the last byte written at each offset of each file since its creation, after one more call:
0 after `ekkfs_create`, and the bytes that `ekkfs_write` reports as written -/
def Session.note (s : Session) (bytes : Bytes) : Call → List Reply → Bytes
  | .create .., [.inode n] => update bytes n fun _ => 0
  | .write h buffer .., [.count k] =>
    let file := s.files h
    update bytes file.inodeNum fun o =>
      if file.position.toNat ≤ o ∧ o < file.position.toNat + k then buffer (o - file.position.toNat)
      else bytes file.inodeNum o
  | _, _ => bytes

def Session.Allowed (s : Session) : Call → Prop
  | .write h _ size ownerId _ => GoodWrite s.vol (s.files h) size ownerId
  | .read h size => ¬ Overread s.vol (s.files h) size
  | _ => True

/-- no array is left, and a read of a file returns its bytes from the position on: as many as are
asked for and there, each the last one written or 0 -/
def ByteArrays (s : Session) (bytes : Bytes) (e : Call) (replies : List Reply) : Prop :=
  .outside ∉ replies ∧
    ∀ h size, e = .read h size → s.vol.Used (s.files h).inodeNum →
      replies = [.bytes ((List.range (available s.vol (s.files h) size)).map fun t =>
        bytes (s.files h).inodeNum ((s.files h).position.toNat + t))]

/-- the volume is mounted, and the files hold what was written -/
structure Faithful (s : Session) (bytes : Bytes) : Prop where
  mounted : Mounted s.vol
  holds : ∀ n, s.vol.Used n → ∀ o, s.vol.byteAt n o = bytes n o

/-! ## one call -/

theorem used_congr {v' : Volume} (hsame : SameLayout v v') (hinode : v'.inodes n = v.inodes n) :
    v'.Used n ↔ v.Used n := by
  unfold Volume.Used
  rw [hsame.inodeCount, hinode]

theorem Faithful.keep {s' : Session} (h : Faithful s bytes) (hsame : SameLayout s.vol s'.vol)
    (hinodes : s'.vol.inodes = s.vol.inodes) (hkeep : Keeps s.vol s'.vol) : Faithful s' bytes := by
  refine ⟨h.mounted.next hsame hkeep.owned, fun n hn o => ?_⟩
  rw [hkeep.byteAt]
  exact h.holds n ((used_congr hsame (congrFun hinodes n)).mp hn) o

theorem step_read (h : Faithful s bytes) {k : Nat} (hgood : ¬ Overread s.vol (s.files k) size) :
    Faithful (s.step (.read k size)).1 bytes ∧
      ByteArrays s bytes (.read k size) (s.step (.read k size)).2 := by
  unfold Session.step
  dsimp only
  by_cases hn : s.vol.Used (s.files k).inodeNum
  · obtain ⟨file', heq⟩ := read_spec hn hgood
    rw [heq]
    refine ⟨⟨h.mounted, h.holds⟩, fun hmem => ?_, fun k' size' he _ => ?_⟩
    · cases mem_singleton.mp hmem
    · cases he
      simp only [h.holds _ hn]
  · obtain ⟨e, -, heq⟩ := read_refused hn
    rw [heq size]
    refine ⟨⟨h.mounted, h.holds⟩, fun hmem => ?_, fun k' size' he hn' => ?_⟩
    · cases mem_singleton.mp hmem
    · cases he
      exact absurd hn' hn

end Fs
end EkKor
