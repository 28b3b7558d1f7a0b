import EkKor.Fs.Contents
import EkKor.Fs.Names

/-!
# Reading and writing byte by byte

* `readBytes`, `readLoop_eq`   the loop of `ekkfs_read`, one byte at a time;
* `chunk_cases`                what a round of `ekkfs_write` does, whatever the bytes are;
* `putBytes`, `writeLoop_eq`   the loop of `ekkfs_write`, one byte at a time;
* `putBytes_append`            and so in pieces of any size;
* `putBytes_withInode`         the table of inodes has no part in it;
* `write_eq`                   the whole of `ekkfs_write`.
-/

namespace EkKor
namespace Fs
open List hiding Vector

variable {v : Volume} {inode : Inode}

/-! ## reading -/

theorem mod_blockSize_lt (p : Nat) : p % blockSize < blockSize := Nat.mod_lt p (by decide)

def Volume.byteOf (v : Volume) (inode : Inode) (p : Nat) : Option UInt8 :=
  (v.blockNum inode (p / blockSize)).map fun block =>
    if block ≠ 0 then v.disk block ⟨p % blockSize, mod_blockSize_lt p⟩ else 0

/-- `len` bytes from offset `p` on -/
def Volume.readBytes (v : Volume) (inode : Inode) : Nat → Nat → Option (List UInt8)
  | _, 0 => some []
  | p, len + 1 =>
    (v.byteOf inode p).bind fun byte => (readBytes v inode (p + 1) len).map (byte :: ·)

theorem readBytes_add (v : Volume) (inode : Inode) (p m n : Nat) :
    v.readBytes inode p (m + n) =
      (v.readBytes inode p m).bind fun bytes =>
        (v.readBytes inode (p + m) n).map (bytes ++ ·) := by
  induction m generalizing p with
  | zero =>
    rw [Nat.zero_add]
    exact (Option.map_id'.symm : _ = (v.readBytes inode p n).map fun bytes => bytes)
  | succ m ih =>
    rw [Nat.add_right_comm, Volume.readBytes, Volume.readBytes]
    cases v.byteOf inode p with
    | none => rfl
    | some byte =>
      rw [Option.bind_some, Option.bind_some, ih, Nat.add_right_comm p 1 m, Nat.add_assoc p m 1]
      cases v.readBytes inode (p + 1) m with
      | none => rfl
      | some bytes =>
        cases v.readBytes inode (p + (m + 1)) n with
        | none => rfl
        | some rest => rfl

variable {p : Nat} {position b : UInt32} {v' : Volume} {bytes : List UInt8} {w : PutBytes}
  (buffer : Nat → UInt8)

theorem readBytes_of {n : Nat} {f : Nat → UInt8} (h : ∀ t < n, v.byteOf inode (p + t) = some (f t)) :
    v.readBytes inode p n = some ((List.range n).map f) := by
  induction n generalizing p f with
  | zero => rfl
  | succ n ih =>
    have hrest := ih (p := p + 1) (f := fun t => f (t + 1)) fun t ht => by
      rw [Nat.add_right_comm]
      exact h (t + 1) (Nat.succ_lt_succ ht)
    have hfirst : v.byteOf inode p = some (f 0) := h 0 (Nat.zero_lt_succ n)
    rw [Volume.readBytes, hfirst, Option.bind_some, hrest, range_succ_eq_map,
      map_cons, map_map]
    rfl

theorem readBytes_block {n : Nat} (hn : 0 < n) (hblock : p % blockSize + n ≤ blockSize) :
    v.readBytes inode p n = (v.blockNum inode (p / blockSize)).map fun block =>
      if block ≠ 0 then slice (v.disk block) (p % blockSize) n else List.replicate n 0 := by
  change p % 512 + n ≤ 512 at hblock
  have hdiv (t : Nat) (ht : t < n) : (p + t) / blockSize = p / blockSize := by
    show (p + t) / 512 = p / 512
    omega
  have hmod (t : Nat) (ht : t < n) : (p + t) % blockSize = p % blockSize + t := by
    show (p + t) % 512 = p % 512 + t
    omega
  cases hnum : v.blockNum inode (p / blockSize) with
  | none =>
    obtain ⟨n, rfl⟩ := Nat.exists_eq_succ_of_ne_zero (Nat.ne_of_gt hn)
    have hbyte : v.byteOf inode p = none := by
      unfold Volume.byteOf
      rw [hnum]
      rfl
    rw [Volume.readBytes, hbyte]
    rfl
  | some block =>
    rw [Option.map_some]
    split_ifs with hzero
    · have hlen := length_slice (v.disk block) hblock
      rw [readBytes_of (f := fun t => (slice (v.disk block) (p % blockSize) n).getD t 0) fun t ht => ?_]
      · refine congrArg some (ext_getElem ?_ fun t ht ht' => ?_)
        · rw [length_map, length_range]
          exact hlen.symm
        · rw [getElem_map, getElem_range, getD_eq_getElem _ _ ht']
      · have hlt : p % 512 + t < 512 := by omega
        unfold Volume.byteOf
        rw [hdiv t ht, hnum, Option.map_some, if_pos hzero,
          getD_eq_getElem _ _ (by rw [show (slice _ _ n).length = n from hlen]; exact ht),
          getElem_slice _ _ _ _ _ hlt]
        simp only [hmod t ht]
    · rw [readBytes_of (f := fun _ => 0) fun t ht => ?_]
      · rw [map_const', length_range]
      · unfold Volume.byteOf
        rw [hdiv t ht, hnum, Option.map_some, if_neg hzero]

/-- the loop of `ekkfs_read` reads the bytes that are missing -/
theorem readLoop_eq (v : Volume) (inode : Inode) (size : Nat) {fuel : Nat} {out : List UInt8}
    (hlen : out.length ≤ size) (hfuel : size - out.length ≤ fuel)
    (hposition : position.toNat + (size - out.length) < 2 ^ 32) :
    v.readLoop inode size fuel position out =
      (v.readBytes inode position.toNat (size - out.length)).map fun bytes =>
        (out ++ bytes, position + UInt32.ofNat (size - out.length)) := by
  induction fuel generalizing position out with
  | zero =>
    have hnone : size - out.length = 0 := Nat.le_zero.mp hfuel
    unfold Volume.readLoop
    rw [if_neg (by omega), hnone]
    show some (out, position) = some (out ++ [], position + 0)
    rw [append_nil, UInt32.add_zero]
  | succ fuel ih =>
    unfold Volume.readLoop
    by_cases hmore : out.length < size
    · rw [if_pos hmore]
      dsimp only
      generalize hd : min (blockSize - position.toNat % blockSize) (size - out.length) = d
      change min (512 - position.toNat % 512) (size - out.length) = d at hd
      have hsplit : size - out.length = d + (size - out.length - d) :=
        (Nat.add_sub_of_le (hd ▸ Nat.min_le_right ..)).symm
      have hnext : (position + UInt32.ofNat d).toNat = position.toNat + d := by
        rw [UInt32.toNat_add, UInt32.toNat_ofNat']
        omega
      have hblock := @readBytes_block v inode position.toNat d
        (by omega) (by show position.toNat % 512 + d ≤ 512; omega)
      rw [hsplit, readBytes_add, hblock]
      cases v.blockNum inode (position.toNat / blockSize) with
      | none => rfl
      | some block =>
        rw [Option.map_some, Option.bind_some]
        dsimp only
        generalize hbytes : (if block ≠ 0 then slice (v.disk block) (position.toNat % blockSize) d
          else List.replicate d 0) = bytes
        have hbyteslen : bytes.length = d := by
          rw [← hbytes]
          split_ifs
          · exact length_slice _ (by show position.toNat % 512 + d ≤ 512; omega)
          · exact length_replicate
        have hrest : size - (out ++ bytes).length = size - out.length - d := by
          rw [length_append, hbyteslen]
          omega
        rw [ih (by rw [length_append]; omega) (by omega) (by omega), hrest, hnext,
          Option.map_map]
        have hsum : position + UInt32.ofNat d + UInt32.ofNat (size - out.length - d) =
            position + UInt32.ofNat (d + (size - out.length - d)) := by
          rw [UInt32.add_assoc, UInt32.ofNat_add]
        rw [hsum]
        congr 1
        funext rest
        exact congrArg (·, _) (append_assoc ..)
    · have hnone : size - out.length = 0 := by omega
      rw [if_neg hmore, hnone]
      show some (out, position) = some (out ++ [], position + 0)
      rw [append_nil, UInt32.add_zero]

/-- `ekkfs_read` reads the bytes that are there -/
theorem read_eq {file : File} (hn : v.Used file.inodeNum) (size : UInt32) :
    v.read file size =
      (v.readBytes (v.inodes file.inodeNum) file.position.toNat (available v file size)).map
        fun bytes => (.ok bytes,
          { file with position := file.position + UInt32.ofNat (available v file size) }) := by
  have hremaining : (if file.position < (v.inodes file.inodeNum).size then
      (v.inodes file.inodeNum).size - file.position else 0).toNat =
        (v.inodes file.inodeNum).size.toNat - file.position.toNat := by
    split_ifs with hlt
    · exact UInt32.toNat_sub_of_le _ _ (UInt32.le_of_lt hlt)
    · exact (Nat.sub_eq_zero_of_le (Nat.not_lt.mp hlt)).symm
  unfold Volume.read Volume.inodeRead
  rw [if_neg (UInt32.not_le.mpr hn.1)]
  dsimp only
  rw [if_neg hn.2]
  generalize (if file.position < (v.inodes file.inodeNum).size then
    (v.inodes file.inodeNum).size - file.position else 0) = remaining at *
  have havail : (if size > remaining then remaining else size).toNat = available v file size := by
    unfold available
    rw [← hremaining]
    split_ifs with hlt
    · exact (Nat.min_eq_right (Nat.le_of_lt (UInt32.lt_iff_toNat_lt.mp hlt))).symm
    · exact (Nat.min_eq_left (UInt32.le_iff_toNat_le.mp (UInt32.not_lt.mp hlt))).symm
  generalize (if size > remaining then remaining else size) = count at *
  rw [← havail]
  split_ifs with hzero
  · rw [hzero]
    show _ = some (_, File.mk _ (file.position + 0) _)
    rw [UInt32.add_zero]
  · have hpos : 0 < count.toNat := Nat.pos_of_ne_zero fun h => hzero (UInt32.toNat_inj.mp h)
    have hbound : file.position.toNat + count.toNat < 2 ^ 32 := by
      have hlt := (v.inodes file.inodeNum).size.toNat_lt
      rw [havail]
      rw [havail] at hpos
      unfold available at hpos ⊢
      omega
    have hloop : v.readLoop (v.inodes file.inodeNum) count.toNat count.toNat file.position [] =
        (v.readBytes (v.inodes file.inodeNum) file.position.toNat count.toNat).map fun bytes =>
          (bytes, file.position + UInt32.ofNat count.toNat) :=
      readLoop_eq v _ count.toNat (Nat.zero_le _) (Nat.le_refl _) hbound
    rw [hloop, Option.map_map]
    rfl

/-! ## writing in a block -/

theorem splice_append {n : Nat} (buf : Fin n → UInt8) (offset : Nat) (a b : List UInt8) :
    splice (splice buf offset a) (offset + a.length) b = splice buf offset (a ++ b) := by
  funext k
  unfold splice
  by_cases h1 : offset + a.length ≤ k.val
  · rw [if_pos h1, if_pos (by omega), if_pos (by omega),
      getD_eq_default a _ (by omega), getD_append_right _ _ _ _ (by omega)]
    congr 1
    omega
  · split_ifs with h2
    · exact (getD_append _ _ _ _ (by omega)).symm
    · rfl

theorem bitmapAlloc_ne_zero (hg : Geometry v.superblock) (h : v.bitmapAlloc = some (some b, v')) :
    b ≠ 0 ∧ Geometry v'.superblock := by
  rcases bitmapAlloc_spec hg with ⟨k, hk, -, heq⟩ | ⟨-, heq⟩
  · rw [heq] at h
    obtain ⟨hb, rfl⟩ := Prod.mk.inj (Option.some.inj h)
    obtain rfl := Option.some.inj hb
    exact ⟨(inData_dataBlock hg hk).ne_zero hg, geometry_taken k hg⟩
  · rw [heq] at h
    cases (Prod.mk.inj (Option.some.inj h)).1

theorem target_ne_zero {ptr : UInt32} {data : Block} (hg : Geometry v.superblock)
    (h : v.target ptr = some (some (b, data), v')) : b ≠ 0 ∧ Geometry v'.superblock := by
  unfold Volume.target at h
  split_ifs at h with hptr
  · obtain ⟨⟨found, v₁⟩, halloc, heq⟩ := Option.map_eq_some_iff.mp h
    cases found with
    | none => cases (Prod.mk.inj heq).1
    | some b' =>
      obtain ⟨hb, rfl⟩ := Prod.mk.inj heq
      obtain ⟨rfl, -⟩ := Prod.mk.inj (Option.some.inj hb)
      exact bitmapAlloc_ne_zero hg halloc
  · obtain ⟨hb, rfl⟩ := Prod.mk.inj (Option.some.inj h)
    obtain ⟨rfl, -⟩ := Prod.mk.inj (Option.some.inj hb)
    exact ⟨hptr, hg⟩

theorem indirectTarget_ne_zero {i : UInt32} {ptrs : Vector UInt32 indirectBlocks}
    (hg : Geometry v.superblock) (h : v.indirectTarget inode = some (some (i, ptrs), v')) :
    i ≠ 0 ∧ Geometry v'.superblock := by
  unfold Volume.indirectTarget at h
  split_ifs at h with hptr
  · obtain ⟨⟨found, v₁⟩, halloc, heq⟩ := Option.map_eq_some_iff.mp h
    cases found with
    | none => cases (Prod.mk.inj heq).1
    | some b' =>
      obtain ⟨hb, rfl⟩ := Prod.mk.inj heq
      obtain ⟨rfl, -⟩ := Prod.mk.inj (Option.some.inj hb)
      exact bitmapAlloc_ne_zero hg halloc
  · obtain ⟨hb, rfl⟩ := Prod.mk.inj (Option.some.inj h)
    obtain ⟨rfl, -⟩ := Prod.mk.inj (Option.some.inj hb)
    exact ⟨hptr, hg⟩

theorem target_of_ne_zero {ptr : UInt32} (h : ptr ≠ 0) :
    v.target ptr = some (some (ptr, v.disk ptr), v) := if_neg h

theorem put_put (v : Volume) (b : UInt32) (x y : Block) : (v.put b x).put b y = v.put b y := by
  unfold Volume.put
  rw [Function.update_idem]

theorem disk_put_self (v : Volume) (b : UInt32) (x : Block) : (v.put b x).disk b = x :=
  Function.update_self ..

theorem disk_put_of_ne (v : Volume) {b' : UInt32} (h : b' ≠ b) (x : Block) :
    (v.put b x).disk b' = v.disk b' := Function.update_of_ne h ..

theorem put_comm (v : Volume) {b' : UInt32} (h : b ≠ b') (x y : Block) :
    (v.put b x).put b' y = (v.put b' y).put b x := by
  unfold Volume.put
  rw [Function.update_comm h]

/-- what a round of `ekkfs_write` does with a block of the file does not depend on the bytes: it leaves
an array, no block is free, or the bytes go into the block and the next ones after them -/
theorem chunk_cases (hg : Geometry v.superblock) (inode : Inode) (idx : Nat) :
    (∀ offset bytes, v.chunk inode idx offset bytes = none) ∨
    (∃ r, ∀ offset bytes, v.chunk inode idx offset bytes = some (.error r)) ∨
    ∃ (f : Nat → List UInt8 → Volume) (inode' : Inode), ∀ offset bytes,
      v.chunk inode idx offset bytes = some (.ok (f offset bytes, inode')) ∧
      Geometry (f offset bytes).superblock ∧
      ∀ bytes', (f offset bytes).chunk inode' idx (offset + bytes.length) bytes' =
        some (.ok (f offset (bytes ++ bytes'), inode')) := by
  unfold Volume.chunk
  by_cases hdirect : idx < directBlocks
  · simp only [dif_pos hdirect]
    cases htarget : v.target inode.blocks[idx] with
    | none => exact .inl fun _ _ => rfl
    | some r =>
      obtain ⟨found, v₁⟩ := r
      cases found with
      | none => exact .inr (.inl ⟨_, fun _ _ => rfl⟩)
      | some found =>
        obtain ⟨b, data⟩ := found
        obtain ⟨hb, hg₁⟩ := target_ne_zero hg htarget
        refine .inr (.inr ⟨fun offset bytes => v₁.put b (splice data offset bytes),
          { inode with blocks := inode.blocks.set idx b }, fun offset bytes => ⟨rfl, hg₁, ?_⟩⟩)
        intro bytes'
        rw [Vector.getElem_set_self, target_of_ne_zero hb, disk_put_self, Option.map_some]
        dsimp only
        rw [splice_append, put_put, Vector.set_set]
  · simp only [dif_neg hdirect]
    cases hindirect : v.indirectTarget inode with
    | none => exact .inl fun _ _ => rfl
    | some r =>
      obtain ⟨found, v₁⟩ := r
      cases found with
      | none => exact .inr (.inl ⟨_, fun _ _ => rfl⟩)
      | some found =>
        obtain ⟨i, ptrs⟩ := found
        obtain ⟨hi, hg₁⟩ := indirectTarget_ne_zero hg hindirect
        dsimp only [Option.bind_some]
        by_cases hentry : idx - directBlocks < indirectBlocks
        · simp only [dif_pos hentry]
          cases htarget : v₁.target ptrs[idx - directBlocks] with
          | none => exact .inl fun _ _ => rfl
          | some r =>
            obtain ⟨found', v₂⟩ := r
            cases found' with
            | none => exact .inr (.inl ⟨_, fun _ _ => rfl⟩)
            | some found' =>
              obtain ⟨b, data⟩ := found'
              obtain ⟨hb, hg₂⟩ := target_ne_zero hg₁ htarget
              generalize hq : ptrs.set (idx - directBlocks) b = q
              have hget : q[idx - directBlocks] = b := hq ▸ Vector.getElem_set_self ..
              have hset : q.set (idx - directBlocks) b = q := by
                rw [← hq, Vector.set_set]
              refine .inr (.inr ⟨fun offset bytes =>
                (v₂.put b (splice data offset bytes)).put i (ofWords q),
                { inode with indirect := i }, fun offset bytes => ⟨?_, hg₂, ?_⟩⟩)
              · rw [Option.map_some]
                dsimp only
                rw [hq]
              · intro bytes'
                unfold Volume.indirectTarget
                rw [if_neg hi, Option.bind_some, disk_put_self, words_ofWords]
                dsimp only
                rw [hget, target_of_ne_zero hb, Option.map_some]
                dsimp only
                rw [hset]
                -- the block may be the indirect block itself, which is written last
                by_cases hbi : b = i
                · rw [hbi, put_put, put_put, put_put, put_put]
                · rw [disk_put_of_ne _ hbi, disk_put_self, splice_append, put_comm _ hbi, put_put,
                    put_comm _ (Ne.symm hbi), put_put]
        · simp only [dif_neg hentry]
          exact .inl fun _ _ => trivial

/-! ## writing -/

/-- what is left after bytes were written: whether the blocks ran out, and how many went in -/
structure PutBytes where
  full : Bool
  vol : Volume
  inode : Inode
  count : Nat

/-- the bytes go into the file from offset `p` on, one at a time -/
def Volume.putBytes : Volume → Inode → Nat → List UInt8 → Option PutBytes
  | v, inode, _, [] => some ⟨false, v, inode, 0⟩
  | v, inode, p, byte :: bytes =>
    match v.chunk inode (p / blockSize) (p % blockSize) [byte] with
    | none => none
    | some (.error (v, inode)) => some ⟨true, v, inode, 0⟩
    | some (.ok (v, inode)) =>
      (putBytes v inode (p + 1) bytes).map fun w => { w with count := w.count + 1 }

def PutBytes.more (w : PutBytes) (p : Nat) (bytes : List UInt8) : Option PutBytes :=
  if w.full then some w
  else (w.vol.putBytes w.inode (p + w.count) bytes).map fun w' =>
    { w' with count := w.count + w'.count }

theorem putBytes_append (v : Volume) (inode : Inode) (p : Nat) (a b : List UInt8) :
    v.putBytes inode p (a ++ b) = (v.putBytes inode p a).bind fun w => w.more p b := by
  induction a generalizing v inode p with
  | nil =>
    show v.putBytes inode p b = (v.putBytes inode (p + 0) b).map fun w =>
      { w with count := 0 + w.count }
    simp only [Nat.zero_add]
    exact Option.map_id'.symm
  | cons byte a ih =>
    rw [cons_append, Volume.putBytes, Volume.putBytes]
    cases v.chunk inode (p / blockSize) (p % blockSize) [byte] with
    | none => rfl
    | some r =>
      cases r with
      | error r => rfl
      | ok r =>
        dsimp only
        rw [ih, Option.map_bind, Option.bind_map]
        refine Option.bind_congr fun w _ => ?_
        unfold PutBytes.more
        dsimp only [Function.comp]
        split_ifs with hfull
        · rfl
        · rw [Option.map_map, Nat.add_right_comm p 1, Nat.add_assoc p w.count 1]
          congr 1
          funext w'
          show PutBytes.mk _ _ _ _ = PutBytes.mk _ _ _ _
          rw [Nat.add_right_comm]

theorem putBytes_count {v : Volume} {inode : Inode} (h : v.putBytes inode p bytes = some w) :
    if w.full then w.count < bytes.length else w.count = bytes.length := by
  induction bytes generalizing v inode p w with
  | nil =>
    obtain rfl := Option.some.inj h
    rfl
  | cons byte bytes ih =>
    rw [Volume.putBytes] at h
    cases hchunk : v.chunk inode (p / blockSize) (p % blockSize) [byte] with
    | none =>
      rw [hchunk] at h
      cases h
    | some r =>
      rw [hchunk] at h
      cases r with
      | error r =>
        obtain rfl := Option.some.inj h
        exact Nat.zero_lt_succ _
      | ok r =>
        obtain ⟨w', hw', rfl⟩ := Option.map_eq_some_iff.mp h
        have hcount := ih hw'
        split_ifs with hfull
        · rw [if_pos hfull] at hcount
          exact Nat.succ_lt_succ hcount
        · rw [if_neg hfull] at hcount
          exact congrArg Nat.succ hcount

theorem putBytes_block (hg : Geometry v.superblock) (hne : bytes ≠ [])
    (hblock : p % blockSize + bytes.length ≤ blockSize) :
    v.putBytes inode p bytes =
      (v.chunk inode (p / blockSize) (p % blockSize) bytes).map fun
        | .error (v, inode) => ⟨true, v, inode, 0⟩
        | .ok (v, inode) => ⟨false, v, inode, bytes.length⟩ := by
  induction bytes generalizing v inode p with
  | nil => exact absurd rfl hne
  | cons byte bytes ih =>
    rw [Volume.putBytes]
    rcases chunk_cases hg inode (p / blockSize) with hnone | ⟨r, hfull⟩ | ⟨f, inode', hgoes⟩
    · rw [hnone, hnone]
      rfl
    · rw [hfull, hfull]
      rfl
    · obtain ⟨hchunk, hg', hmore⟩ := hgoes (p % blockSize) [byte]
      rw [hchunk, (hgoes (p % blockSize) (byte :: bytes)).1]
      dsimp only
      cases bytes with
      | nil => rfl
      | cons byte' bytes =>
        change p % 512 + (bytes.length + 1 + 1) ≤ 512 at hblock
        have hdiv : (p + 1) / blockSize = p / blockSize := by
          show (p + 1) / 512 = p / 512
          omega
        have hmod : (p + 1) % blockSize = p % blockSize + [byte].length := by
          show (p + 1) % 512 = p % 512 + 1
          omega
        rw [ih hg' (cons_ne_nil _ _) (by
          show (p + 1) % 512 + (bytes.length + 1) ≤ 512
          omega), hdiv, hmod, hmore]
        rfl

theorem chunk_far {idx : Nat} (hidx : fileBlocks ≤ idx) (offset : Nat) (bytes : List UInt8)
    (r : Volume × Inode) : v.chunk inode idx offset bytes ≠ some (.ok r) := by
  change 138 ≤ idx at hidx
  unfold Volume.chunk
  rw [dif_neg (show ¬ idx < 10 by omega)]
  cases v.indirectTarget inode with
  | none => rintro ⟨⟩
  | some found =>
    obtain ⟨found, v₁⟩ := found
    cases found with
    | none =>
      rintro ⟨⟩
    | some found =>
      rw [Option.bind_some]
      dsimp only
      rw [dif_neg (show ¬ idx - 10 < 128 by omega)]
      rintro ⟨⟩

/-- the bytes of the buffer from `count` on -/
def bufferFrom (buffer : Nat → UInt8) (count len : Nat) : List UInt8 :=
  (List.range len).map fun t => buffer (count + t)

theorem length_bufferFrom (count len : Nat) : (bufferFrom buffer count len).length = len := by
  unfold bufferFrom
  rw [length_map, length_range]

theorem bufferFrom_add (count m n : Nat) :
    bufferFrom buffer count (m + n) =
      bufferFrom buffer count m ++ bufferFrom buffer (count + m) n := by
  unfold bufferFrom
  rw [range_add, map_append, map_map]
  simp only [Nat.add_assoc]
  rfl

/-- the loop of `ekkfs_write` writes the bytes that are missing -/
theorem writeLoop_eq (hg : Geometry v.superblock) (buffer : Nat → UInt8) (size : Nat) {fuel : Nat}
    {count : Nat} (hcount : count ≤ size) (hfuel : size - count ≤ fuel)
    (hend : position.toNat < fileBlocks * blockSize → position.toNat + (size - count) < 2 ^ 32) :
    Volume.writeLoop buffer size fuel v inode position count =
      (v.putBytes inode position.toNat (bufferFrom buffer count (size - count))).map fun w =>
        ⟨w.full, w.vol, w.inode, position + UInt32.ofNat w.count, count + w.count⟩ := by
  have hdone {v : Volume} {inode : Inode} {position : UInt32} {count : Nat}
      (hnone : size - count = 0) : some (Volume.Written.mk false v inode position count) =
        (v.putBytes inode position.toNat (bufferFrom buffer count (size - count))).map fun w =>
          ⟨w.full, w.vol, w.inode, position + UInt32.ofNat w.count, count + w.count⟩ := by
    rw [hnone]
    show _ = some (Volume.Written.mk false v inode (position + 0) (count + 0))
    rw [UInt32.add_zero, Nat.add_zero]
  induction fuel generalizing v inode position count with
  | zero =>
    have hnone : size - count = 0 := Nat.le_zero.mp hfuel
    unfold Volume.writeLoop
    rw [if_neg (by omega)]
    exact hdone hnone
  | succ fuel ih =>
    unfold Volume.writeLoop
    by_cases hmore : count < size
    · rw [if_pos hmore]
      dsimp only
      generalize hd : min (blockSize - position.toNat % blockSize) (size - count) = d
      change min (512 - position.toNat % 512) (size - count) = d at hd
      have hsplit : size - count = d + (size - count - d) :=
        (Nat.add_sub_of_le (hd ▸ Nat.min_le_right ..)).symm
      have hlen := length_bufferFrom buffer count d
      have hne : bufferFrom buffer count d ≠ [] := by
        refine ne_nil_of_length_pos ?_
        omega
      have hfits : position.toNat % blockSize + (bufferFrom buffer count d).length ≤ blockSize := by
        show position.toNat % 512 + _ ≤ 512
        omega
      have hbytes : (List.range d).map (fun t => buffer (count + t)) =
          bufferFrom buffer count d := rfl
      rw [hbytes]
      rw [hsplit, bufferFrom_add, putBytes_append, putBytes_block hg hne hfits, hlen]
      rcases chunk_cases hg inode (position.toNat / blockSize) with hnone | ⟨r, hfull⟩ |
        ⟨f, inode', hgoes⟩
      · rw [hnone]
        rfl
      · rw [hfull]
        show some (Volume.Written.mk true r.1 r.2 position count) =
          some (Volume.Written.mk true r.1 r.2 (position + 0) (count + 0))
        rw [UInt32.add_zero, Nat.add_zero]
      · obtain ⟨hchunk, hg', -⟩ := hgoes (position.toNat % blockSize) (bufferFrom buffer count d)
        have hnear : position.toNat < fileBlocks * blockSize := by
          by_contra hfar
          refine chunk_far ?_ _ _ _ hchunk
          change ¬ position.toNat < 138 * 512 at hfar
          show 138 ≤ position.toNat / 512
          omega
        have hbound := hend hnear
        have hnext : (position + UInt32.ofNat d).toNat = position.toNat + d := by
          rw [UInt32.toNat_add, UInt32.toNat_ofNat']
          omega
        have hrest : size - (count + d) = size - count - d := Nat.sub_add_eq ..
        rw [hchunk, Option.map_some, Option.bind_some]
        dsimp only
        rw [ih hg' (by omega) (by omega) (fun _ => by omega), hnext, hrest]
        unfold PutBytes.more
        rw [if_neg Bool.false_ne_true, Option.map_map]
        congr 1
        funext w
        show Volume.Written.mk _ _ _ _ _ = Volume.Written.mk _ _ _ _ _
        rw [UInt32.add_assoc, ← UInt32.ofNat_add, Nat.add_assoc]
    · rw [if_neg hmore]
      exact hdone (by omega)

/-! ## the table of inodes -/

variable {n : UInt32} {x y : Inode}

theorem allocFrom_withInode (v : Volume) (n : UInt32) (x : Inode) (count i : Nat) :
    (v.withInode n x).allocFrom count i =
      (v.allocFrom count i).map fun r => (r.1, r.2.withInode n x) := by
  induction count generalizing i with
  | zero => rfl
  | succ count ih =>
    unfold Volume.allocFrom
    split_ifs
    · have hsame : Volume.freeBit (v.withInode n x).superblock ((v.withInode n x).bitmapBuf i) i =
          Volume.freeBit v.superblock (v.bitmapBuf i) i := rfl
      rw [hsame]
      cases Volume.freeBit v.superblock (v.bitmapBuf i) i with
      | none => exact ih (i + 1)
      | some bit => rfl
    · rfl

theorem bitmapAlloc_withInode (v : Volume) (n : UInt32) (x : Inode) :
    (v.withInode n x).bitmapAlloc = v.bitmapAlloc.map fun r => (r.1, r.2.withInode n x) :=
  allocFrom_withInode ..

theorem target_withInode (v : Volume) (n : UInt32) (x : Inode) (ptr : UInt32) :
    (v.withInode n x).target ptr = (v.target ptr).map fun r => (r.1, r.2.withInode n x) := by
  unfold Volume.target
  split_ifs
  · rw [bitmapAlloc_withInode, Option.map_map, Option.map_map]
    rfl
  · rfl

theorem indirectTarget_withInode (v : Volume) (n : UInt32) (x y inode : Inode) :
    (v.withInode n x).indirectTarget (y.pointing inode) =
      (v.indirectTarget inode).map fun r => (r.1, r.2.withInode n x) := by
  unfold Volume.indirectTarget
  show (if inode.indirect = 0 then _ else _) = _
  split_ifs
  · rw [bitmapAlloc_withInode, Option.map_map, Option.map_map]
    rfl
  · rfl

/-- a volume with another inode in the table, and an inode with other fields besides the blocks -/
def dressed (n : UInt32) (x y : Inode) (r : Volume × Inode) : Volume × Inode :=
  (r.1.withInode n x, y.pointing r.2)

/-- a round of `ekkfs_write` has to do with the blocks of the inode only -/
theorem chunk_withInode (v : Volume) (n : UInt32) (x y inode : Inode) (idx offset : Nat)
    (bytes : List UInt8) :
    (v.withInode n x).chunk (y.pointing inode) idx offset bytes =
      (v.chunk inode idx offset bytes).map fun
        | .ok r => .ok (dressed n x y r)
        | .error r => .error (dressed n x y r) := by
  unfold Volume.chunk
  by_cases hdirect : idx < directBlocks
  · simp only [dif_pos hdirect]
    rw [target_withInode, Option.map_map, Option.map_map]
    congr 1
    funext r
    obtain ⟨found, v₁⟩ := r
    cases found with
    | none => rfl
    | some found => rfl
  · simp only [dif_neg hdirect]
    rw [indirectTarget_withInode]
    cases v.indirectTarget inode with
    | none => rfl
    | some r =>
      obtain ⟨found, v₁⟩ := r
      cases found with
      | none => rfl
      | some found =>
        rw [Option.map_some, Option.bind_some, Option.bind_some]
        by_cases hentry : idx - directBlocks < indirectBlocks
        · simp only [dif_pos hentry]
          rw [target_withInode, Option.map_map, Option.map_map]
          congr 1
          funext r
          obtain ⟨found', v₂⟩ := r
          cases found' with
          | none => rfl
          | some found' => rfl
        · simp only [dif_neg hentry]
          rfl

theorem putBytes_withInode (v : Volume) (n : UInt32) (x y inode : Inode) (p : Nat)
    (bytes : List UInt8) :
    (v.withInode n x).putBytes (y.pointing inode) p bytes =
      (v.putBytes inode p bytes).map fun w =>
        { w with vol := w.vol.withInode n x, inode := y.pointing w.inode } := by
  induction bytes generalizing v inode p with
  | nil => rfl
  | cons byte bytes ih =>
    rw [Volume.putBytes, Volume.putBytes, chunk_withInode]
    cases v.chunk inode (p / blockSize) (p % blockSize) [byte] with
    | none => rfl
    | some r =>
      cases r with
      | error r => rfl
      | ok r =>
        show Option.map _ ((r.1.withInode n x).putBytes (y.pointing r.2) (p + 1) bytes) = _
        rw [ih, Option.map_map, Option.map_map]
        rfl

theorem putBytes_frame (hg : Geometry v.superblock) (h : v.putBytes inode p bytes = some w) :
    SameInodes v w.vol ∧ w.inode = inode.pointing w.inode ∧
      (w.full = false → Geometry w.vol.superblock) := by
  induction bytes generalizing v inode p w with
  | nil =>
    obtain rfl := Option.some.inj h
    exact ⟨sameInodes_refl v, rfl, fun _ => hg⟩
  | cons byte bytes ih =>
    rw [Volume.putBytes] at h
    cases hchunk : v.chunk inode (p / blockSize) (p % blockSize) [byte] with
    | none =>
      rw [hchunk] at h
      cases h
    | some r =>
      have hround := sameInodes_chunk hchunk
      rw [hchunk] at h
      cases r with
      | error r =>
        obtain rfl := Option.some.inj h
        exact ⟨hround.1, hround.2, fun hfull => absurd hfull (Bool.noConfusion ·)⟩
      | ok r =>
        obtain ⟨hsame, hpointers⟩ := hround
        have hg' : Geometry r.1.superblock := by
          rcases chunk_cases hg inode (p / blockSize) with hnone | ⟨r', herr⟩ | ⟨f, inode', hgoes⟩
          · rw [hnone] at hchunk
            cases hchunk
          · rw [herr] at hchunk
            cases hchunk
          · obtain ⟨hok, hg', -⟩ := hgoes (p % blockSize) [byte]
            rw [hok] at hchunk
            obtain rfl := Except.ok.inj (Option.some.inj hchunk)
            exact hg'
        obtain ⟨w', hw', rfl⟩ := Option.map_eq_some_iff.mp h
        obtain ⟨hsame', hpointers', hgeo⟩ := ih hg' hw'
        refine ⟨hsame.trans hsame', hpointers'.trans ?_, hgeo⟩
        rw [show r.2 = inode.pointing r.2 from hpointers]
        rfl

theorem putBytes_near (h : v.putBytes inode p bytes = some w) (hfull : w.full = false)
    (hne : bytes ≠ []) : p < fileBlocks * blockSize := by
  obtain ⟨byte, bytes, rfl⟩ := exists_cons_of_ne_nil hne
  rw [Volume.putBytes] at h
  by_contra hfar
  change ¬ p < 138 * 512 at hfar
  have hidx : fileBlocks ≤ p / blockSize := by
    show 138 ≤ p / 512
    omega
  have hchunk := @chunk_far v inode _ hidx (p % blockSize) [byte]
  cases hround : v.chunk inode (p / blockSize) (p % blockSize) [byte] with
  | none =>
    rw [hround] at h
    cases h
  | some r =>
    rw [hround] at h hchunk
    cases r with
    | error r =>
      obtain rfl := Option.some.inj h
      cases hfull
    | ok r => exact hchunk r rfl

/-! ## the whole write -/

def Inode.ended (inode : Inode) (full : Bool) (position : UInt32) (now : UInt64) : Inode :=
  let inode := { inode with
    modified := now
    size := if position > inode.size then position else inode.size }
  if full then inode else { inode with crc32 := 0 }

/-- `ekkfs_write` puts the bytes into the file and writes the inode back -/
theorem write_eq {file : File} {ownerId : UInt32} (hg : Geometry v.superblock)
    (hn : v.Used file.inodeNum)
    (howner : ¬ (ownerId ≠ 0 ∧ (v.inodes file.inodeNum).ownerId ≠ ownerId))
    (buffer : Nat → UInt8) {size : UInt32} (hsize : size.toNat < 2 ^ 31) (now : UInt64) :
    v.write file buffer size ownerId now =
      (v.putBytes (v.inodes file.inodeNum) file.position.toNat
        (bufferFrom buffer 0 size.toNat)).map fun w =>
          (if w.full ∧ w.count = 0 then .error .full else .ok w.count,
            w.vol.withInode file.inodeNum
              (w.inode.ended w.full (file.position + UInt32.ofNat w.count) now),
            { file with position := file.position + UInt32.ofNat w.count }) := by
  unfold Volume.write Volume.inodeRead
  rw [if_neg (UInt32.not_le.mpr hn.1)]
  dsimp only
  rw [if_neg hn.2, if_neg howner,
    writeLoop_eq hg buffer size.toNat (Nat.zero_le _) (Nat.sub_le ..) (fun hnear => by
      change _ < 138 * 512 at hnear
      omega), Option.map_map]
  refine Option.map_congr fun w hw => ?_
  have hcount : ¬ file.inodeNum ≥ w.vol.superblock.inodeCount := by
    rw [(putBytes_frame hg hw).1.inodeCount]
    exact UInt32.not_le.mpr hn.1
  show Volume.finishWrite _ _ ⟨w.full, w.vol, w.inode, _, 0 + w.count⟩ = _
  unfold Volume.finishWrite Volume.inodeWrite
  dsimp only
  rw [if_neg hcount, Nat.zero_add]
  rfl

end Fs
end EkKor
