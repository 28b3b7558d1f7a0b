import EkKor.Fs.Calls
import EkKor.Lib.Runs

/-!
# The blocks of a volume over every run

* `sessions`          the machine of the calls on a mounted volume;
* `Session.Good`      the calls other than a write that goes wrong;
* `owned_of_runs`     in a run of such calls from a new volume every marked block is held by one
                      slot, no other block is held, and `free_blocks` counts the rest.
-/

namespace EkKor
namespace Fs
open Ownership Runs

/-! ## a new volume -/

theorem mounted_of_new {totalBlocks inodeCount : UInt32} {v : Volume}
    (h : JustMounted totalBlocks inodeCount v) (hsize : Sized v.superblock) : Mounted v := by
  obtain ⟨formatted, mounted, hsb⟩ := h.superblock
  have hlaid := mount_layout hsb (h.bitmapBlocks ▸ h.few) hsize
  have hsmall := hlaid.small
  have hunused (m : UInt32) : ¬ v.Used m := by
    rintro ⟨_, hflags⟩
    rw [h.inodes] at hflags
    exact hflags (by decide)
  refine ⟨⟨UInt32.lt_iff_toNat_lt.mpr hlaid.pos, hsize.1, hlaid.few, ?_⟩,
    UInt32.le_iff_toNat_le.mp h.few, ?_, exact_empty (fun s => if_neg fun hc => hunused s.1 hc.1)
      fun b hb => ?_, ?_⟩
  · have hfew := hlaid.few
    omega
  · rw [h.bitmapBlocks]
    exact hlaid.bitmap
  · exact Bool.false_ne_true ((h.bitmap _ hb.1.index_lt).symm.trans hb.2)
  · exact hlaid.free.trans (clearCount_all h.bitmap).symm

/-! ## runs -/

/-- the calls on volume `v` -/
def sessions (v : Volume) (files : Nat → File) : Machine Session Call Reply :=
  ⟨⟨v, files⟩, Session.step⟩

def Session.Good (s : Session) : Call → Prop
  | .write h _ size ownerId _ => GoodWrite s.vol (s.files h) size ownerId
  | _ => True

instance (v : Volume) (n : UInt32) (position size : Nat) : Decidable (OneShort v n position size) :=
  inferInstanceAs (Decidable (_ ∧ _))

instance (v : Volume) (n : UInt32) (position size : Nat) : Decidable (Overrun v n position size) :=
  inferInstanceAs (Decidable (_ ∧ _))

instance (v : Volume) (file : File) (size ownerId : UInt32) :
    Decidable (GoodWrite v file size ownerId) :=
  inferInstanceAs (Decidable ((_ ∧ _) → _))

theorem step_mounted {s : Session} (h : Mounted s.vol) {e : Call} (hgood : s.Good e) :
    Mounted (s.step e).1.vol := by
  cases e with
  | create name ownerId flags now =>
    have hcreate := create_mounted h name ownerId flags now
    unfold Session.step
    dsimp only
    cases hres : s.vol.create name ownerId flags now with
    | mk r v' =>
      rw [hres] at hcreate
      cases r with
      | error e => exact hcreate
      | ok i => exact hcreate
  | delete name ownerId =>
    unfold Session.step
    dsimp only
    rcases delete_spec h name ownerId with ⟨e, heq⟩ | ⟨n, v', heq, hmounted, _⟩
    · rw [heq]
      exact h
    · rw [heq]
      exact hmounted
  | openFile k name =>
    unfold Session.step
    dsimp only
    cases s.vol.openFile name with
    | error e => exact h
    | ok file => exact h
  | close k => exact h
  | seek k position => exact h
  | read k size =>
    unfold Session.step
    dsimp only
    cases s.vol.read (s.files k) size with
    | none => exact h
    | some r =>
      obtain ⟨r | r, file⟩ := r
      · exact h
      · exact h
  | write k buffer size ownerId now =>
    unfold Session.step
    dsimp only
    rcases write_spec h buffer now hgood with ⟨e, heq⟩ |
      ⟨count, _, r, v', file', heq, hr, _, hwrote⟩
    · rw [heq]
      exact h
    · rw [heq]
      rcases hr with rfl | ⟨rfl, _⟩
      · exact hwrote.mounted
      · exact hwrote.mounted
  | sync =>
    obtain ⟨v', heq, hsame, _, hkeep⟩ := sync_spec h
    unfold Session.step
    rw [heq]
    exact h.next hsame hkeep.owned

theorem mounted_of_runs {v : Volume} (h : Mounted v) (files : Nat → File) (es : List Call)
    (hes : EveryStep (fun pre e => ((sessions v files).run pre).Good e) es) :
    Mounted ((sessions v files).run es).vol := by
  refine history_induction (I := fun es => Mounted ((sessions v files).run es).vol) h
    (fun es e ih hgood => ?_) es hes
  rw [Machine.run_concat]
  exact step_mounted ih hgood

/-- **Main.** A volume is formatted, with room for its metadata, and mounted.  In every run whose
writes neither get the last free block for an indirect block nor go on after the last block of a
file, every block that a slot holds is a marked data block, no two slots hold the same block, every
marked block is held, and `free_blocks` is the number of the data blocks that are not marked. -/
theorem owned_of_runs {totalBlocks inodeCount : UInt32} {v : Volume}
    (h : JustMounted totalBlocks inodeCount v) (hsize : Sized v.superblock) (files : Nat → File)
    (es : List Call) (hes : EveryStep (fun pre e => ((sessions v files).run pre).Good e) es) :
    Owned ((sessions v files).run es).vol :=
  (mounted_of_runs (mounted_of_new h hsize) files es hes).owned

/-! ## small volumes -/

/-- a new volume, where each data block is full of old data: the number 7 in each word -/
def newVolume (totalBlocks : UInt32) : Volume :=
  { superblock := mountSuperblock (formatSuperblock totalBlocks 8 0) 0
    bitmapBlocks := 1
    bitmapBuf := fun _ => 0
    inodes := fun _ => Inode.zero
    disk := fun _ => ofWords (Vector.replicate _ 7) }

def noFiles : Nat → File := fun _ => ⟨0, 0, 0⟩

theorem newVolume_new {totalBlocks : UInt32}
    (h : mountBitmapBlocks (newVolume totalBlocks).superblock = 1) :
    JustMounted totalBlocks 8 (newVolume totalBlocks) := by
  refine ⟨⟨0, 0, rfl⟩, h.symm, (by decide : (1 : UInt32) ≤ maxBitmapBlocks), fun k _ => ?_, fun _ => rfl⟩
  exact Nat.zero_testBit _

def writeAcross : List Call :=
  [.create [97] 0 0 0, .openFile 0 [97], .seek 0 5100, .write 0 (fun _ => 1) 40 0 0, .sync,
    .delete [97] 0]

theorem owned_of_runs_across :
    Owned ((sessions (newVolume 20) noFiles).run writeAcross).vol := by
  have hsize : Sized (newVolume 20).superblock := ⟨by decide +kernel, by decide +kernel⟩
  refine owned_of_runs (newVolume_new (by decide +kernel)) hsize noFiles writeAcross ?_
  unfold writeAcross
  rw [everyStep_cons, everyStep_cons, everyStep_cons, everyStep_cons, everyStep_cons,
    everyStep_cons]
  have hwrite : GoodWrite ((sessions (newVolume 20) noFiles).run (writeAcross.take 3)).vol
      (((sessions (newVolume 20) noFiles).run (writeAcross.take 3)).files 0) 40 0 := by
    decide +kernel
  exact ⟨trivial, trivial, trivial, hwrite, trivial, trivial, everyStep_nil _⟩

def writeFar : List Call :=
  [.create [97] 0 0 0, .openFile 0 [97], .seek 0 5120, .write 0 (fun _ => 1) 1 0 0]

/-- the only free block becomes the indirect block of the file, and is then also each of its
blocks -/
theorem one_short :
    JustMounted 8 8 (newVolume 8) ∧ (sessions (newVolume 8) noFiles).trace writeFar =
        [.inode 0, .ok, .ok, .error .full] ∧
      ((sessions (newVolume 8) noFiles).run writeFar).vol.ref (0, .indirect) = some 7 ∧
      ((sessions (newVolume 8) noFiles).run writeFar).vol.ref (0, .entry 0) = some 7 ∧
      ¬ Owned ((sessions (newVolume 8) noFiles).run writeFar).vol := by
  have hindirect : ((sessions (newVolume 8) noFiles).run writeFar).vol.ref (0, .indirect) =
      some 7 := by decide +kernel
  have hentry : ((sessions (newVolume 8) noFiles).run writeFar).vol.ref (0, .entry 0) =
      some 7 := by decide +kernel
  refine ⟨newVolume_new (by decide +kernel), by decide +kernel, hindirect, hentry, fun h => ?_⟩
  cases h.exact.once _ _ 7 hindirect hentry

end Fs
end EkKor
