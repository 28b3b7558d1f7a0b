import EkKor.Fs.Handles
import EkKor.Fs.Bytewise

/-!
# Transfers in pieces (`ekk_fs_read` and `ekk_fs_write` of `ekk_fs_client.c`)

* `FsClient.sendRequest`         `fs_send_request`, when the server handles the request once and the
                                 reply comes in time;
* `FsClient.read`, `write`       the calls, 56 and 48 bytes at a time;
* `directRead`, `directWrite`    one `ekkfs_read` or `ekkfs_write` on the file behind the handle;
* `readLoop_pieces`, `writeLoop_pieces`   the pieces come to the whole;
* `transfers_agree_iff`          so the calls agree, but for a file in inode 0 and for no bytes at all.
-/

namespace EkKor
namespace Fs
open Function
open List hiding Vector

/-! ## the client -/

/-- `FS_MAX_INLINE_DATA` -/
abbrev maxInlineData : Nat := 48

/-- an error of `ekkfs_read` or `ekkfs_write` as the int that it is -/
def FsErr.code (e : FsErr) : Int := -(e.status.toNat : Int)

namespace FsClient

def request (cmd : FsCmd) (sender : UInt8) (id : UInt16) (fd : UInt32) (chunk : Nat)
    (data : List UInt8) : FsRequest :=
  ⟨cmd, sender, id, fd, 0, UInt32.ofNat chunk, Vector.ofFn fun k => data.getD k 0⟩

/-- `fs_send_request`: the reply has the number of the request -/
def sendRequest (s : FsServer) (req : FsRequest) (now : UInt64) :
    Option (FsServer × Except Int FsResponse) :=
  (s.handleRequest req now).map fun (s, resp) =>
    (s, if resp.status ≠ 0 then .error (-(resp.status.toNat : Int)) else .ok resp)

variable (sender : UInt8) (fd : UInt32) (size : Nat) (now : Nat → UInt64)

/-- the loop of `ekk_fs_read`, with at most `fuel` requests; `out` has the bytes so far.  A request
is handled at a time that goes with the number of bytes before it. -/
def readLoop : Nat → FsServer → UInt16 → List UInt8 → Option (FsServer × Int × List UInt8)
  | 0, s, _, out => if out.length < size then none else some (s, out.length, out)
  | fuel + 1, s, id, out =>
    if out.length < size then
      let chunk := min (size - out.length) 56
      match sendRequest s (request .read sender id fd chunk []) (now out.length) with
      | none => none
      | some (s, .error e) => some (s, if out.length > 0 then (out.length : Int) else e, out)
      | some (s, .ok resp) =>
        if resp.result = 0 then some (s, out.length, out)
        else
          let out := out ++ resp.data.toList.take resp.result.toNat
          if resp.result.toNat < chunk then some (s, out.length, out)
          else readLoop fuel s (id + 1) out
    else some (s, out.length, out)

/-- `ekk_fs_read`: what it returns, and the bytes in the buffer -/
def read (s : FsServer) (id : UInt16) : Option (FsServer × Int × List UInt8) :=
  readLoop sender fd size now size s id []

/-- the loop of `ekk_fs_write`, with at most `fuel` requests -/
def writeLoop (buffer : Nat → UInt8) : Nat → FsServer → UInt16 → Nat → Option (FsServer × Int)
  | 0, s, _, total => if total < size then none else some (s, total)
  | fuel + 1, s, id, total =>
    if total < size then
      let chunk := min (size - total) maxInlineData
      let data := (List.range chunk).map fun t => buffer (total + t)
      match sendRequest s (request .write sender id fd chunk data) (now total) with
      | none => none
      | some (s, .error e) => some (s, if total > 0 then (total : Int) else e)
      | some (s, .ok resp) =>
        let total := total + resp.result.toNat
        if resp.result.toNat < chunk then some (s, total) else writeLoop buffer fuel s (id + 1) total
    else some (s, total)

/-- `ekk_fs_write` -/
def write (buffer : Nat → UInt8) (s : FsServer) (id : UInt16) : Option (FsServer × Int) :=
  writeLoop sender fd size now buffer size s id 0

end FsClient

/-! ## the direct calls -/

/-- `ekkfs_read` on an open file -/
def FsServer.directRead (s : FsServer) (k : Fin maxOpenFiles) (size : UInt32) :
    Option (FsServer × Int × List UInt8) :=
  (s.vol.read (s.openFiles k) size).map fun
    | (.ok bytes, file) => (s.withFile k file, bytes.length, bytes)
    | (.error e, file) => (s.withFile k file, e.code, [])

/-- `ekkfs_write` on an open file -/
def FsServer.directWrite (s : FsServer) (k : Fin maxOpenFiles) (buffer : Nat → UInt8)
    (size ownerId : UInt32) (now : UInt64) : Option (FsServer × Int) :=
  (s.vol.write (s.openFiles k) buffer size ownerId now).map fun
    | (.ok count, vol, file) => ((s.withVol vol).withFile k file, count)
    | (.error e, vol, file) => ((s.withVol vol).withFile k file, e.code)

def FsServer.untimed (s : FsServer) (n : UInt32) : FsServer :=
  s.withVol (s.vol.withInode n { s.vol.inodes n with modified := 0, crc32 := 0 })

def seen (n : UInt32) (r : FsServer × Int) : FsServer × Int := (r.1.untimed n, r.2)

/-- `ekk_fs_read` does what one `ekkfs_read` does: the result, the bytes, the position and all the
rest; or both leave an array -/
def ReadAgrees (s : FsServer) (k : Fin maxOpenFiles) (sender : UInt8) (size : UInt32) (id : UInt16)
    (now : Nat → UInt64) : Prop :=
  FsClient.read sender (UInt32.ofNat k.val) size.toNat now s id = s.directRead k size

/-- `ekk_fs_write` does what one `ekkfs_write` does: the result, the volume and the position -/
def WriteAgrees (s : FsServer) (k : Fin maxOpenFiles) (sender : UInt8) (buffer : Nat → UInt8)
    (size : UInt32) (id : UInt16) (now : Nat → UInt64) (now' : UInt64) : Prop :=
  (FsClient.write sender (UInt32.ofNat k.val) size.toNat now buffer s id).map
      (seen (s.openFiles k).inodeNum) =
    (s.directWrite k buffer size sender.toUInt32 now').map (seen (s.openFiles k).inodeNum)

variable {s : FsServer} {k : Fin maxOpenFiles} {sender : UInt8} {now : Nat → UInt64}

/-! ## handles -/

def FsServer.Owns (s : FsServer) (sender : UInt8) (k : Fin maxOpenFiles) : Prop :=
  sender = 0 ∨ s.openFileOwners k = sender

theorem toNat_fd (k : Fin maxOpenFiles) : (UInt32.ofNat k.val).toNat = k.val := by
  have hlt : k.val < 16 := k.isLt
  exact Nat.mod_eq_of_lt (by omega)

theorem getFileHandle_fd (howner : s.Owns sender k) :
    s.getFileHandle (UInt32.ofNat k.val) sender =
      if (s.openFiles k).inodeNum = 0 then none else some k := by
  have hlt : (UInt32.ofNat k.val).toNat < maxOpenFiles := by
    rw [toNat_fd]
    exact k.isLt
  have hk : (⟨_, hlt⟩ : Fin maxOpenFiles) = k := Fin.ext (toNat_fd k)
  unfold FsServer.getFileHandle
  rw [dif_pos hlt, hk]
  split_ifs with hzero hother
  · rfl
  · rcases howner with h | h
    · exact absurd h hother.1
    · exact absurd h hother.2
  · rfl

theorem sendRequest_refused (howner : s.Owns sender k) (hzero : (s.openFiles k).inodeNum = 0)
    {cmd : FsCmd} (hcmd : cmd = .read ∨ cmd = .write) (id : UInt16) (chunk : Nat)
    (data : List UInt8) (now : UInt64) :
    FsClient.sendRequest s (FsClient.request cmd sender id (UInt32.ofNat k.val) chunk data) now =
      some (s, .error (-7)) := by
  have hget : s.getFileHandle (UInt32.ofNat k.val) sender = none := by
    rw [getFileHandle_fd howner, if_pos hzero]
  unfold FsClient.sendRequest FsServer.handleRequest
  rcases hcmd with rfl | rfl
  · dsimp only [FsClient.request]
    unfold FsServer.handleRead
    rw [hget]
    rfl
  · dsimp only [FsClient.request]
    unfold FsServer.handleWrite
    rw [hget]
    rfl

/-! ## reading -/

variable {len chunk : Nat} {bytes data : List UInt8} {buffer : Nat → UInt8}

theorem length_readBytes {v : Volume} {inode : Inode} {p : Nat}
    (h : v.readBytes inode p len = some bytes) : bytes.length = len := by
  induction len generalizing p bytes with
  | zero =>
    obtain rfl := Option.some.inj h
    rfl
  | succ len ih =>
    obtain ⟨byte, -, hmap⟩ := Option.bind_eq_some_iff.mp h
    obtain ⟨rest, hrest, rfl⟩ := Option.map_eq_some_iff.mp hmap
    exact congrArg Nat.succ (ih hrest)

theorem toNat_chunk (h : chunk ≤ 56) : (UInt32.ofNat chunk).toNat = chunk := by
  exact Nat.mod_eq_of_lt (by omega)

theorem readLength_request (h : chunk ≤ 56) (cmd : FsCmd) (sender : UInt8) (id : UInt16)
    (fd : UInt32) (data : List UInt8) :
    (FsClient.request cmd sender id fd chunk data).readLength = UInt32.ofNat chunk := by
  unfold FsRequest.readLength FsClient.request
  rw [if_neg]
  rw [gt_iff_lt, UInt32.lt_iff_toNat_lt, toNat_chunk h]
  exact Nat.not_lt.mpr h

theorem take_okData {req : FsRequest} (h : bytes.length ≤ 56) :
    (FsResponse.okData req bytes).data.toList.take bytes.length = bytes := by
  refine ext_getElem ?_ fun t ht ht' => ?_
  · rw [length_take, Vector.length_toList]
    exact Nat.min_eq_left h
  · rw [getElem_take, Vector.getElem_toList]
    unfold FsResponse.okData
    rw [Vector.getElem_ofFn, getD_eq_getElem _ _ ht']

theorem sendRequest_read (howner : s.Owns sender k) (hzero : (s.openFiles k).inodeNum ≠ 0)
    (hn : s.vol.Used (s.openFiles k).inodeNum) (hchunk : chunk ≤ 56) (id : UInt16) (now : UInt64) :
    FsClient.sendRequest s (FsClient.request .read sender id (UInt32.ofNat k.val) chunk []) now =
      let d := available s.vol (s.openFiles k) (UInt32.ofNat chunk)
      (s.vol.readBytes (s.vol.inodes (s.openFiles k).inodeNum) (s.openFiles k).position.toNat d).map
        fun bytes =>
          (s.withFile k { s.openFiles k with
              position := (s.openFiles k).position + UInt32.ofNat d },
            .ok (.okData (FsClient.request .read sender id (UInt32.ofNat k.val) chunk []) bytes)) := by
  have hget : s.getFileHandle (UInt32.ofNat k.val) sender = some k := by
    rw [getFileHandle_fd howner, if_neg hzero]
  generalize hreq : FsClient.request .read sender id (UInt32.ofNat k.val) chunk [] = req
  have hlength : req.readLength = UInt32.ofNat chunk := by
    rw [← hreq]
    exact readLength_request hchunk ..
  have hinode : s.getFileHandle req.inode req.senderId = some k := by
    rw [← hreq]
    exact hget
  have hcmd : req.cmd = .read := by
    rw [← hreq]
    rfl
  unfold FsClient.sendRequest FsServer.handleRequest FsServer.handleRead
  simp only [hcmd]
  rw [hinode, hlength]
  dsimp only
  rw [read_eq hn, Option.map_map, Option.map_map]
  rfl

theorem available_ofNat (v : Volume) (file : File) (h : len < 2 ^ 31) :
    available v file (UInt32.ofNat len) =
      min len ((v.inodes file.inodeNum).size.toNat - file.position.toNat) := by
  unfold available
  rw [UInt32.toNat_ofNat', Nat.mod_eq_of_lt (by omega)]

/-- the loop of `ekk_fs_read` reads the bytes that are missing, up to the end of the file -/
theorem readLoop_pieces {size : Nat} (hsize : size < 2 ^ 31) {fuel : Nat} {id : UInt16}
    {out : List UInt8} (howner : s.Owns sender k) (hzero : (s.openFiles k).inodeNum ≠ 0)
    (hn : s.vol.Used (s.openFiles k).inodeNum) (hlen : out.length ≤ size)
    (hfuel : size - out.length ≤ fuel) :
    FsClient.readLoop sender (UInt32.ofNat k.val) size now fuel s id out =
      let d := available s.vol (s.openFiles k) (UInt32.ofNat (size - out.length))
      (s.vol.readBytes (s.vol.inodes (s.openFiles k).inodeNum) (s.openFiles k).position.toNat d).map
        fun bytes =>
          (s.withFile k { s.openFiles k with
              position := (s.openFiles k).position + UInt32.ofNat d },
            ((out ++ bytes).length : Int), out ++ bytes) := by
  have hdone {s : FsServer} {out : List UInt8} {d : Nat} (hd : d = 0) :
      some (s, (out.length : Int), out) =
        (s.vol.readBytes (s.vol.inodes (s.openFiles k).inodeNum) (s.openFiles k).position.toNat d).map
          fun bytes => (s.withFile k { s.openFiles k with
              position := (s.openFiles k).position + UInt32.ofNat d },
            ((out ++ bytes).length : Int), out ++ bytes) := by
    rw [hd]
    show _ = some (s.withFile k ⟨_, (s.openFiles k).position + 0, _⟩, ((out ++ []).length : Int), _)
    rw [append_nil, UInt32.add_zero, withFile_self]
  induction fuel generalizing s id out with
  | zero =>
    have hnone : size - out.length = 0 := Nat.le_zero.mp hfuel
    unfold FsClient.readLoop
    rw [if_neg (by omega)]
    refine hdone ?_
    rw [hnone]
    exact Nat.zero_min _
  | succ fuel ih =>
    unfold FsClient.readLoop
    by_cases hmore : out.length < size
    · rw [if_pos hmore]
      dsimp only
      generalize hchunk : min (size - out.length) 56 = chunk
      rw [sendRequest_read howner hzero hn (hchunk ▸ Nat.min_le_right ..)]
      dsimp only
      rw [available_ofNat _ _ (show chunk < 2 ^ 31 by omega),
        available_ofNat _ _ (show size - out.length < 2 ^ 31 by omega)]
      generalize hleft : (s.vol.inodes (s.openFiles k).inodeNum).size.toNat -
        (s.openFiles k).position.toNat = left
      generalize hd : min chunk left = d
      have hchunk56 : chunk ≤ 56 := hchunk ▸ Nat.min_le_right ..
      have hdchunk : d ≤ chunk := hd ▸ Nat.min_le_left ..
      have hd56 : d ≤ 56 := Nat.le_trans hdchunk hchunk56
      rw [show min (size - out.length) left = d + min (size - out.length - d) (left - d) by omega,
        readBytes_add]
      cases hbytes : s.vol.readBytes (s.vol.inodes (s.openFiles k).inodeNum)
        (s.openFiles k).position.toNat d with
      | none => rfl
      | some bytes =>
        have hbyteslen := length_readBytes hbytes
        have hresult : (UInt32.ofNat bytes.length).toNat = bytes.length :=
          toNat_chunk (hbyteslen ▸ hd56)
        rw [Option.map_some, Option.bind_some]
        dsimp only
        generalize hreq : FsClient.request .read sender id (UInt32.ofNat k.val) chunk [] = req
        have hok : (FsResponse.okData req bytes).result = UInt32.ofNat bytes.length := rfl
        rw [hok, hresult, take_okData (hbyteslen ▸ hd56), hbyteslen]
        generalize hs' : s.withFile k { s.openFiles k with
          position := (s.openFiles k).position + UInt32.ofNat d } = s'
        by_cases hlast : d < chunk
        · -- the file ends here: the reply is short, or has nothing
          rw [show min (size - out.length - d) (left - d) = 0 by omega, Nat.add_zero, hs']
          split_ifs with hnone
          · have hempty : bytes = [] := by
              refine length_eq_zero_iff.mp (hbyteslen.trans ?_)
              rw [← toNat_chunk hd56, hnone]
              rfl
            rw [hempty]
            show _ = some (s', ((out ++ []).length : Int), out ++ [])
            rw [append_nil]
          · show some (s', ((out ++ bytes).length : Int), out ++ bytes) =
              some (s', ((out ++ (bytes ++ [])).length : Int), out ++ (bytes ++ []))
            rw [append_nil]
        · have hnonzero : UInt32.ofNat d ≠ 0 := by
            intro heq
            have hd0 := congrArg UInt32.toNat heq
            rw [toNat_chunk hd56] at hd0
            change d = 0 at hd0
            omega
          have hfile : s'.openFiles k = { s.openFiles k with
              position := (s.openFiles k).position + UInt32.ofNat d } := by
            rw [← hs']
            exact update_self ..
          have hvol : s'.vol = s.vol := by
            rw [← hs']
            rfl
          have hposition : ((s.openFiles k).position + UInt32.ofNat d).toNat =
              (s.openFiles k).position.toNat + d := by
            have hlt := (s.vol.inodes (s.openFiles k).inodeNum).size.toNat_lt
            rw [UInt32.toNat_add, toNat_chunk hd56]
            exact Nat.mod_eq_of_lt (by omega)
          have howner' : s'.Owns sender k := by
            rw [← hs']
            exact howner
          have hrest : size - (out ++ bytes).length = size - out.length - d := by
            rw [length_append, hbyteslen]
            omega
          rw [if_neg hnonzero, if_neg hlast, ih howner' (by rw [hfile]; exact hzero)
            (by rw [hfile, hvol]; exact hn) (by rw [length_append]; omega) (by omega), hrest,
            hvol, hfile]
          dsimp only
          rw [available_ofNat _ _ (by omega), hposition, Option.map_map]
          rw [Nat.sub_add_eq, hleft]
          congr 1
          funext rest
          dsimp only [comp]
          rw [UInt32.add_assoc, ← UInt32.ofNat_add, append_assoc, ← hs']
          unfold FsServer.withFile
          rw [update_idem]
    · rw [if_neg hmore]
      refine hdone ?_
      rw [show size - out.length = 0 by omega]
      exact Nat.zero_min _

/-! ## writing -/

def FsServer.Permits (s : FsServer) (sender : UInt8) (k : Fin maxOpenFiles) : Prop :=
  ¬ (sender.toUInt32 ≠ 0 ∧
    (s.vol.inodes (s.openFiles k).inodeNum).ownerId ≠ sender.toUInt32)

instance (s : FsServer) (sender : UInt8) (k : Fin maxOpenFiles) : Decidable (s.Permits sender k) :=
  inferInstanceAs (Decidable (¬ (_ ∧ _)))

/-- the server after a write: the bytes in the file, the inode in the table, and the position -/
def FsServer.ended (s : FsServer) (k : Fin maxOpenFiles) (w : PutBytes) (now : UInt64) : FsServer :=
  let file := s.openFiles k
  let position := file.position + UInt32.ofNat w.count
  (s.withVol (w.vol.withInode file.inodeNum (w.inode.ended w.full position now))).withFile k
    { file with position := position }

def FsServer.settled (s : FsServer) (k : Fin maxOpenFiles) (w : PutBytes) : FsServer :=
  let file := s.openFiles k
  let position := file.position + UInt32.ofNat w.count
  (s.withVol (w.vol.withInode file.inodeNum { w.inode with
    size := if position > w.inode.size then position else w.inode.size
    modified := 0
    crc32 := 0 })).withFile k { file with position := position }

theorem untimed_ended (s : FsServer) (k : Fin maxOpenFiles) (w : PutBytes) (now : UInt64) :
    (s.ended k w now).untimed (s.openFiles k).inodeNum = s.settled k w := by
  unfold FsServer.untimed FsServer.ended FsServer.settled
  dsimp only [FsServer.withVol, FsServer.withFile]
  rw [inodes_withInode, withInode_withInode]
  cases w.full <;> rfl

/-- what a write that put bytes into the file returns, after `total` bytes of the same call -/
def written (total : Nat) (w : PutBytes) : Int :=
  if w.full ∧ total + w.count = 0 then FsErr.full.code else ((total + w.count : Nat) : Int)

theorem getElem_bufferFrom {count t : Nat} (h : t < (bufferFrom buffer count len).length) :
    (bufferFrom buffer count len)[t] = buffer (count + t) := by
  simp only [bufferFrom, getElem_map, getElem_range]

theorem bufferFrom_request (h : chunk ≤ maxInlineData) (sender : UInt8) (id : UInt16) (fd : UInt32)
    (hdata : data.length = chunk) :
    bufferFrom (FsClient.request .write sender id fd chunk data).buffer 0 chunk = data := by
  refine ext_getElem ((length_bufferFrom ..).trans hdata.symm) fun t ht ht' => ?_
  change chunk ≤ 48 at h
  have hin : t < (FsClient.request .write sender id fd chunk data).data.toList.length := by
    rw [Vector.length_toList]
    omega
  rw [getElem_bufferFrom, Nat.zero_add]
  unfold FsRequest.buffer
  rw [getD_eq_getElem _ _ hin, Vector.getElem_toList]
  unfold FsClient.request
  rw [Vector.getElem_ofFn, getD_eq_getElem _ _ ht']

theorem sendRequest_write (hg : Geometry s.vol.superblock) (howner : s.Owns sender k)
    (hzero : (s.openFiles k).inodeNum ≠ 0) (hn : s.vol.Used (s.openFiles k).inodeNum)
    (hperm : s.Permits sender k) (hdata : data.length ≤ maxInlineData) (id : UInt16) (now : UInt64) :
    FsClient.sendRequest s
        (FsClient.request .write sender id (UInt32.ofNat k.val) data.length data) now =
      (s.vol.putBytes (s.vol.inodes (s.openFiles k).inodeNum) (s.openFiles k).position.toNat data).map
        fun w => (s.ended k w now,
          if w.full ∧ w.count = 0 then .error FsErr.full.code
          else .ok (.ok (FsClient.request .write sender id (UInt32.ofNat k.val) data.length data)
            (UInt32.ofNat w.count))) := by
  have hget : s.getFileHandle (UInt32.ofNat k.val) sender = some k := by
    rw [getFileHandle_fd howner, if_neg hzero]
  have hbuffer := bufferFrom_request hdata sender id (UInt32.ofNat k.val) (Eq.refl data.length)
  change data.length ≤ 48 at hdata
  generalize hreq : FsClient.request .write sender id (UInt32.ofNat k.val) data.length data = req
    at hbuffer ⊢
  have hlength : req.writeLength = UInt32.ofNat data.length := by
    rw [← hreq]
    unfold FsRequest.writeLength FsClient.request
    rw [if_neg]
    rw [gt_iff_lt, UInt32.lt_iff_toNat_lt, toNat_chunk (by omega)]
    exact Nat.not_lt.mpr hdata
  have hinode : s.getFileHandle req.inode req.senderId = some k := by
    rw [← hreq]
    exact hget
  have hsender : req.senderId = sender := by
    rw [← hreq]
    rfl
  have hcmd : req.cmd = .write := by
    rw [← hreq]
    rfl
  have hcount := toNat_chunk (show data.length ≤ 56 by omega)
  unfold FsClient.sendRequest FsServer.handleRequest FsServer.handleWrite
  simp only [hcmd]
  rw [hinode, hlength, hsender]
  dsimp only
  rw [write_eq hg hn hperm req.buffer (by omega), hcount, hbuffer, Option.map_map, Option.map_map]
  congr 1
  funext w
  dsimp only [comp]
  by_cases hfull : w.full = true ∧ w.count = 0
  · simp only [if_pos hfull]
    rfl
  · simp only [if_neg hfull]
    rfl

theorem grown_grown {size p q : UInt32} (h : p ≤ q) :
    (if q > (if p > size then p else size) then q else if p > size then p else size) =
      if q > size then q else size := by
  rw [UInt32.le_iff_toNat_le] at h
  by_cases hp : p > size
  · simp only [if_pos hp]
    rw [gt_iff_lt, UInt32.lt_iff_toNat_lt] at hp
    rw [if_pos (show q > size by rw [gt_iff_lt, UInt32.lt_iff_toNat_lt]; omega)]
    split_ifs with hq
    · rfl
    · rw [gt_iff_lt, UInt32.lt_iff_toNat_lt] at hq
      exact UInt32.toNat_inj.mp (by omega)
  · simp only [if_neg hp]

theorem withFile_ended (s : FsServer) (k : Fin maxOpenFiles) (w : PutBytes) (now : UInt64)
    (vol : Volume) (file : File) :
    ((s.ended k w now).withVol vol).withFile k file = (s.withVol vol).withFile k file := by
  unfold FsServer.ended FsServer.withFile FsServer.withVol
  rw [update_idem]

theorem settled_ended {w w' : PutBytes} {now : UInt64} (hfull : w.full = false)
    (hinode : w'.inode = w.inode.pointing w'.inode)
    (hbound : (s.openFiles k).position.toNat + w.count + w'.count < 2 ^ 32) :
    let y := w.inode.ended w.full ((s.openFiles k).position + UInt32.ofNat w.count) now
    (s.ended k w now).settled k
        { w' with vol := w'.vol.withInode (s.openFiles k).inodeNum y, inode := y.pointing w'.inode } =
      s.settled k { w' with count := w.count + w'.count } := by
  intro y
  have hfile : (s.ended k w now).openFiles k = { s.openFiles k with
      position := (s.openFiles k).position + UInt32.ofNat w.count } := update_self ..
  have hcount (len : Nat) (hlen : len < 2 ^ 32) : (UInt32.ofNat len).toNat = len := by
    exact Nat.mod_eq_of_lt hlen
  have hposition : (s.openFiles k).position + UInt32.ofNat w.count + UInt32.ofNat w'.count =
      (s.openFiles k).position + UInt32.ofNat (w.count + w'.count) := by
    rw [UInt32.add_assoc, UInt32.ofNat_add]
  have hle : (s.openFiles k).position + UInt32.ofNat w.count ≤
      (s.openFiles k).position + UInt32.ofNat (w.count + w'.count) := by
    rw [UInt32.le_iff_toNat_le, UInt32.toNat_add, UInt32.toNat_add, hcount _ (by omega),
      hcount _ (by omega), Nat.mod_eq_of_lt (by omega), Nat.mod_eq_of_lt (by omega)]
    omega
  have hgrown := @grown_grown w.inode.size _ _ hle
  unfold FsServer.settled
  rw [hfile]
  dsimp only
  rw [hposition, withInode_withInode, withFile_ended]
  have hy : y = { w.inode with
      modified := now
      size := if (s.openFiles k).position + UInt32.ofNat w.count > w.inode.size then
        (s.openFiles k).position + UInt32.ofNat w.count else w.inode.size
      crc32 := 0 } := by
    show Inode.ended _ w.full _ _ = _
    rw [hfull]
    rfl
  rw [hy, hinode]
  unfold Inode.pointing
  rw [hgrown]

theorem settled_none {inode : Inode} (hinode : s.vol.inodes (s.openFiles k).inodeNum = inode)
    (h : (s.openFiles k).position ≤ inode.size) :
    s.settled k ⟨false, s.vol, inode, 0⟩ = s.untimed (s.openFiles k).inodeNum := by
  have hposition : (s.openFiles k).position + UInt32.ofNat 0 = (s.openFiles k).position :=
    UInt32.add_zero _
  unfold FsServer.settled FsServer.untimed
  dsimp only
  rw [hposition, if_neg (UInt32.not_lt.mpr h), hinode]
  exact withFile_self (s.withVol _) k

/-- the loop of `ekk_fs_write` writes the bytes that are missing -/
theorem writeLoop_pieces {size : Nat} (hsize : size < 2 ^ 31) {fuel : Nat} {id : UInt16}
    {total : Nat} (hg : Geometry s.vol.superblock) (howner : s.Owns sender k) {n : UInt32}
    (hfile : (s.openFiles k).inodeNum = n) (hzero : n ≠ 0) (hn : s.vol.Used n)
    (hperm : s.Permits sender k) (htotal : total ≤ size) (hfuel : size - total ≤ fuel)
    (hend : total = size → (s.openFiles k).position ≤ (s.vol.inodes n).size) :
    (FsClient.writeLoop sender (UInt32.ofNat k.val) size now buffer fuel s id total).map (seen n) =
      (s.vol.putBytes (s.vol.inodes n) (s.openFiles k).position.toNat
        (bufferFrom buffer total (size - total))).map fun w => (s.settled k w, written total w) := by
  have hdone {s : FsServer} {total : Nat} (hfile : (s.openFiles k).inodeNum = n)
      (hnone : total = size) (hend : (s.openFiles k).position ≤ (s.vol.inodes n).size) :
      (some (s, (total : Int))).map (seen n) =
        (s.vol.putBytes (s.vol.inodes n) (s.openFiles k).position.toNat
          (bufferFrom buffer total (size - total))).map fun w =>
            (s.settled k w, written total w) := by
    rw [hnone, Nat.sub_self]
    show _ = some (s.settled k ⟨false, s.vol, s.vol.inodes n, 0⟩, written size _)
    rw [settled_none (by rw [hfile]) hend, hfile]
    rfl
  induction fuel generalizing s id total with
  | zero =>
    unfold FsClient.writeLoop
    rw [if_neg (by omega)]
    exact hdone hfile (by omega) (hend (by omega))
  | succ fuel ih =>
    unfold FsClient.writeLoop
    by_cases hmore : total < size
    · rw [if_pos hmore]
      dsimp only
      generalize hchunk : min (size - total) maxInlineData = chunk
      change min (size - total) 48 = chunk at hchunk
      have hdata : (List.range chunk).map (fun t => buffer (total + t)) =
          bufferFrom buffer total chunk := rfl
      have hlen := length_bufferFrom buffer total chunk
      have hsend := sendRequest_write hg howner (hfile ▸ hzero) (hfile ▸ hn) hperm
        (show (bufferFrom buffer total chunk).length ≤ maxInlineData by
          rw [hlen]; show chunk ≤ 48; omega) id (now total)
      rw [hlen] at hsend
      rw [hdata, hsend, hfile, show size - total = chunk + (size - total - chunk) by omega,
        bufferFrom_add, putBytes_append]
      cases hput : s.vol.putBytes (s.vol.inodes n) (s.openFiles k).position.toNat
        (bufferFrom buffer total chunk) with
      | none => rfl
      | some w =>
        have hcount := putBytes_count hput
        rw [hlen] at hcount
        have hframe := putBytes_frame hg hput
        have huntimed := untimed_ended s k w (now total)
        rw [hfile] at huntimed
        rw [Option.map_some, Option.bind_some]
        unfold PutBytes.more
        by_cases hfull : w.full = true
        · -- the blocks run out in this piece
          rw [if_pos hfull] at hcount ⊢
          have hresult : (UInt32.ofNat w.count).toNat = w.count := toNat_chunk (by omega)
          by_cases hnone : w.count = 0
          · rw [if_pos ⟨hfull, hnone⟩]
            show some (seen n (s.ended k w (now total), _)) = some (s.settled k w, written total w)
            unfold seen written
            rw [huntimed, hnone]
            by_cases hfirst : total = 0
            · rw [if_neg (by omega), if_pos ⟨hfull, hfirst⟩]
            · rw [if_pos (Nat.pos_of_ne_zero hfirst), if_neg (fun h => hfirst h.2), Nat.add_zero]
          · rw [if_neg (fun h => hnone h.2)]
            dsimp only [FsResponse.ok]
            rw [hresult, if_pos hcount]
            show some (seen n (s.ended k w (now total), _)) = some (s.settled k w, written total w)
            unfold seen written
            rw [huntimed, if_neg (fun h => hnone (Nat.eq_zero_of_add_eq_zero_left h.2))]
        · rw [if_neg hfull] at hcount ⊢
          have hfull' : w.full = false := Bool.eq_false_iff.mpr hfull
          have hresult : (UInt32.ofNat w.count).toNat = w.count := toNat_chunk (by omega)
          have hne : bufferFrom buffer total chunk ≠ [] :=
            ne_nil_of_length_pos (by rw [hlen]; omega)
          have hnear := putBytes_near hput hfull' hne
          change _ < 138 * 512 at hnear
          rw [if_neg (fun h => hfull h.1)]
          dsimp only [FsResponse.ok]
          rw [hresult, if_neg (Nat.not_lt.mpr (Nat.le_of_eq hcount.symm))]
          generalize hposition : (s.openFiles k).position + UInt32.ofNat w.count = position
          generalize hy : w.inode.ended w.full position (now total) = y
          have hvol : (s.ended k w (now total)).vol = w.vol.withInode n y := by
            rw [← hy, ← hposition, ← hfile]
            rfl
          have hopen : (s.ended k w (now total)).openFiles k =
              { s.openFiles k with position := position } := by
            rw [← hposition]
            exact update_self ..
          obtain ⟨hsame, hpointers, hgeo⟩ := hframe
          have hfields : y.flags = (s.vol.inodes n).flags ∧
              y.ownerId = (s.vol.inodes n).ownerId ∧ position ≤ y.size := by
            rw [← hy, hpointers, hfull']
            refine ⟨rfl, rfl, ?_⟩
            show position ≤ if position > (s.vol.inodes n).size then position else _
            split_ifs with hgrows
            · exact UInt32.le_refl _
            · exact UInt32.not_lt.mp hgrows
          have hinode : (w.vol.withInode n y).inodes n = y := inodes_withInode ..
          have hused : (w.vol.withInode n y).Used n := by
            unfold Volume.Used
            rw [hinode, hfields.1]
            exact ⟨hsame.inodeCount ▸ hn.1, hn.2⟩
          have hperm' : (s.ended k w (now total)).Permits sender k := by
            unfold FsServer.Permits
            rw [hvol, hopen]
            rw [hfile, hinode, hfields.2.1, ← hfile]
            exact hperm
          have hnext : position.toNat = (s.openFiles k).position.toNat + chunk := by
            rw [← hposition, UInt32.toNat_add, hresult, hcount]
            exact Nat.mod_eq_of_lt (by omega)
          have hpointing : y.pointing w.inode = y := by
            rw [← hy]
            rw [hfull']
            rfl
          rw [ih (s := s.ended k w (now total)) (hvol ▸ hgeo hfull') howner (by rw [hopen]; exact hfile)
            (hvol ▸ hused) hperm' (by omega) (by omega)
            (fun _ => by rw [hopen, hvol, hinode]; exact hfields.2.2), hvol, hopen, hinode]
          have hrest := putBytes_withInode w.vol n y y w.inode
            ((s.openFiles k).position.toNat + chunk)
            (bufferFrom buffer (total + chunk) (size - total - chunk))
          rw [hpointing] at hrest
          rw [hnext, hcount, Nat.sub_add_eq, hrest, Option.map_map, Option.map_map]
          refine Option.map_congr fun w' hput' => ?_
          have hcount' := putBytes_count hput'
          rw [length_bufferFrom] at hcount'
          have hle : w'.count ≤ size - total - chunk := by
            split_ifs at hcount'
            · exact Nat.le_of_lt hcount'
            · exact Nat.le_of_eq hcount'
          have hsettled := @settled_ended s k _ _ (now total) hfull'
            (putBytes_frame (hgeo hfull') hput').2.1 (by omega)
          rw [hposition, hfile, hy, hcount] at hsettled
          refine Prod.ext hsettled ?_
          show written (total + chunk) _ = written total _
          unfold written
          dsimp only
          rw [if_neg (by omega), if_neg (by omega), Nat.add_assoc]
    · rw [if_neg hmore]
      exact hdone hfile (by omega) (hend (by omega))

/-! ## the calls against the direct ones -/

theorem code_injective {e e' : FsErr} (h : e.code = e'.code) : e = e' := by
  cases e <;> cases e' <;> first | rfl | exact absurd h (by decide)

theorem code_neg (e : FsErr) : e.code < 0 := by cases e <;> decide

theorem directRead_eq (hn : s.vol.Used (s.openFiles k).inodeNum) (size : UInt32) :
    s.directRead k size =
      let d := available s.vol (s.openFiles k) size
      (s.vol.readBytes (s.vol.inodes (s.openFiles k).inodeNum) (s.openFiles k).position.toNat d).map
        fun bytes =>
          (s.withFile k { s.openFiles k with
              position := (s.openFiles k).position + UInt32.ofNat d }, (bytes.length : Int), bytes) := by
  unfold FsServer.directRead
  rw [read_eq hn, Option.map_map]
  rfl

theorem directWrite_eq (hg : Geometry s.vol.superblock) (hn : s.vol.Used (s.openFiles k).inodeNum)
    (hperm : s.Permits sender k) (buffer : Nat → UInt8) {size : UInt32}
    (hsize : size.toNat < 2 ^ 31) (now' : UInt64) :
    s.directWrite k buffer size sender.toUInt32 now' =
      (s.vol.putBytes (s.vol.inodes (s.openFiles k).inodeNum) (s.openFiles k).position.toNat
        (bufferFrom buffer 0 size.toNat)).map fun w => (s.ended k w now', written 0 w) := by
  unfold FsServer.directWrite
  rw [write_eq hg hn hperm buffer hsize, Option.map_map]
  congr 1
  funext w
  unfold written
  dsimp only [comp]
  rw [Nat.zero_add]
  by_cases hfull : w.full = true ∧ w.count = 0
  · simp only [if_pos hfull]
    rfl
  · simp only [if_neg hfull]
    rfl

theorem sendRequest_failed (howner : s.Owns sender k) (hzero : (s.openFiles k).inodeNum ≠ 0)
    {cmd : FsCmd} {e : FsErr}
    (h : cmd = .read ∧ (∀ size, s.vol.read (s.openFiles k) size = some (.error e, s.openFiles k)) ∨
      cmd = .write ∧ ∀ buffer size now, s.vol.write (s.openFiles k) buffer size sender.toUInt32 now =
        some (.error e, s.vol, s.openFiles k)) (id : UInt16) (chunk : Nat) (data : List UInt8)
    (now : UInt64) :
    FsClient.sendRequest s (FsClient.request cmd sender id (UInt32.ofNat k.val) chunk data) now =
      some (s, .error e.code) := by
  have hget : s.getFileHandle (UInt32.ofNat k.val) sender = some k := by
    rw [getFileHandle_fd howner, if_neg hzero]
  unfold FsClient.sendRequest FsServer.handleRequest
  rcases h with ⟨rfl, h⟩ | ⟨rfl, h⟩
  · dsimp only [FsClient.request]
    unfold FsServer.handleRead
    rw [hget]
    dsimp only
    rw [h, Option.map_some, Option.map_some]
    dsimp only
    rw [withFile_self]
    cases e <;> rfl
  · dsimp only [FsClient.request]
    unfold FsServer.handleWrite
    rw [hget]
    dsimp only
    rw [h, Option.map_some, Option.map_some]
    have hsame : (s.withVol s.vol).withFile k (s.openFiles k) = s := withFile_self s k
    dsimp only
    rw [hsame]
    cases e <;> rfl

theorem clientRead_failed {size : Nat} (hsize : 0 < size) {e : Int} (id : UInt16)
    (h : ∀ id chunk data now, FsClient.sendRequest s
      (FsClient.request .read sender id (UInt32.ofNat k.val) chunk data) now = some (s, .error e)) :
    FsClient.read sender (UInt32.ofNat k.val) size now s id = some (s, e, []) := by
  obtain ⟨m, rfl⟩ := Nat.exists_eq_succ_of_ne_zero (Nat.ne_of_gt hsize)
  unfold FsClient.read FsClient.readLoop
  dsimp only
  rw [h]
  rfl

theorem clientWrite_failed {size : Nat} (hsize : 0 < size) {e : Int} (id : UInt16) (h : ∀ id chunk
    data now, FsClient.sendRequest s (FsClient.request .write sender id (UInt32.ofNat k.val) chunk
    data) now = some (s, .error e)) :
    FsClient.write sender (UInt32.ofNat k.val) size now buffer s id = some (s, e) := by
  obtain ⟨m, rfl⟩ := Nat.exists_eq_succ_of_ne_zero (Nat.ne_of_gt hsize)
  unfold FsClient.write FsClient.writeLoop
  dsimp only
  rw [h]
  rfl

theorem readAgrees_iff (howner : s.Owns sender k) {size : UInt32} (hsize : size.toNat < 2 ^ 31)
    (id : UInt16) :
    ReadAgrees s k sender size id now ↔
      if size = 0 then s.vol.Used (s.openFiles k).inodeNum else (s.openFiles k).inodeNum ≠ 0 := by
  unfold ReadAgrees
  by_cases hempty : size = 0
  · have hclient : FsClient.read sender (UInt32.ofNat k.val) size.toNat now s id =
        some (s, 0, []) := by
      rw [hempty]
      rfl
    rw [if_pos hempty, hclient]
    by_cases hn : s.vol.Used (s.openFiles k).inodeNum
    · refine iff_of_true ?_ hn
      have havail : available s.vol (s.openFiles k) size = 0 := by
        rw [hempty]
        exact Nat.zero_min _
      rw [directRead_eq hn, havail]
      show _ = some (s.withFile k ⟨_, (s.openFiles k).position + 0, _⟩, _)
      rw [UInt32.add_zero, withFile_self]
      rfl
    · refine iff_of_false (fun heq => ?_) hn
      obtain ⟨e, -, hread⟩ := read_refused hn
      unfold FsServer.directRead at heq
      rw [hread] at heq
      have hcode : (0 : Int) = e.code := congrArg (fun r => r.2.1) (Option.some.inj heq)
      exact absurd (code_neg e) (by omega)
  · have hpos : 0 < size.toNat := Nat.pos_of_ne_zero fun h => hempty (UInt32.toNat_inj.mp h)
    rw [if_neg hempty]
    by_cases hzero : (s.openFiles k).inodeNum = 0
    · refine iff_of_false (fun heq => ?_) (not_not_intro hzero)
      rw [clientRead_failed hpos id fun _ _ _ _ => sendRequest_refused howner hzero (.inl rfl) ..]
        at heq
      by_cases hn : s.vol.Used (s.openFiles k).inodeNum
      · rw [directRead_eq hn] at heq
        obtain ⟨bytes, -, hbytes⟩ := Option.map_eq_some_iff.mp heq.symm
        have hcount : (bytes.length : Int) = -7 := congrArg (fun r => r.2.1) hbytes
        omega
      · obtain ⟨e, he, hread⟩ := read_refused hn
        unfold FsServer.directRead at heq
        rw [hread] at heq
        have hcode : FsErr.invalid.code = e.code := congrArg (fun r => r.2.1) (Option.some.inj heq)
        exact he (code_injective hcode.symm)
    · refine iff_of_true ?_ hzero
      by_cases hn : s.vol.Used (s.openFiles k).inodeNum
      · rw [directRead_eq hn]
        unfold FsClient.read
        rw [readLoop_pieces hsize howner hzero hn (Nat.zero_le _) (Nat.sub_le ..)]
        dsimp only [length_nil, nil_append]
        rw [Nat.sub_zero, UInt32.ofNat_toNat]
      · obtain ⟨e, -, hread⟩ := read_refused hn
        rw [clientRead_failed hpos id fun _ _ _ _ =>
          sendRequest_failed howner hzero (.inl ⟨rfl, hread⟩) ..]
        unfold FsServer.directRead
        rw [hread]
        show _ = some (s.withFile k (s.openFiles k), _)
        rw [withFile_self]

theorem writeAgrees_iff (hg : Geometry s.vol.superblock) (howner : s.Owns sender k)
    (buffer : Nat → UInt8) {size : UInt32} (hsize : size.toNat < 2 ^ 31) (id : UInt16)
    (now' : UInt64) :
    WriteAgrees s k sender buffer size id now now' ↔
      if size = 0 then s.vol.Used (s.openFiles k).inodeNum ∧ s.Permits sender k ∧
        (s.openFiles k).position ≤ (s.vol.inodes (s.openFiles k).inodeNum).size
      else (s.openFiles k).inodeNum ≠ 0 := by
  unfold WriteAgrees
  by_cases hempty : size = 0
  · have hclient : FsClient.write sender (UInt32.ofNat k.val) size.toNat now buffer s id =
        some (s, 0) := by
      rw [hempty]
      rfl
    rw [if_pos hempty, hclient, ← and_assoc]
    by_cases hgood : s.vol.Used (s.openFiles k).inodeNum ∧ s.Permits sender k
    · rw [directWrite_eq hg hgood.1 hgood.2 buffer hsize, hempty]
      show some (seen _ (s, 0)) =
        some (seen _ (s.ended k ⟨false, s.vol, s.vol.inodes (s.openFiles k).inodeNum, 0⟩ now', 0)) ↔ _
      unfold seen
      rw [untimed_ended]
      by_cases hend : (s.openFiles k).position ≤ (s.vol.inodes (s.openFiles k).inodeNum).size
      · exact iff_of_true (by rw [settled_none rfl hend]) ⟨hgood, hend⟩
      · -- the direct call lets the file grow up to the position
        refine iff_of_false (fun heq => ?_) fun h => hend h.2
        have hsizes := congrArg (fun r : FsServer × Int =>
          (r.1.vol.inodes (s.openFiles k).inodeNum).size) (Option.some.inj heq)
        unfold FsServer.untimed FsServer.settled at hsizes
        dsimp only [FsServer.withVol, FsServer.withFile] at hsizes
        rw [inodes_withInode, inodes_withInode] at hsizes
        have hposition : (s.openFiles k).position + UInt32.ofNat 0 = (s.openFiles k).position :=
          UInt32.add_zero _
        rw [hposition, if_pos (UInt32.not_le.mp hend)] at hsizes
        exact hend (hsizes ▸ UInt32.le_refl _)
    · refine iff_of_false (fun heq => ?_) fun h => hgood h.1
      obtain ⟨e, -, hwrite⟩ := write_refused hgood
      unfold FsServer.directWrite at heq
      rw [hwrite] at heq
      have hcode : (0 : Int) = e.code := congrArg Prod.snd (Option.some.inj heq)
      exact absurd (code_neg e) (by omega)
  · have hpos : 0 < size.toNat := Nat.pos_of_ne_zero fun h => hempty (UInt32.toNat_inj.mp h)
    rw [if_neg hempty]
    by_cases hgood : s.vol.Used (s.openFiles k).inodeNum ∧ s.Permits sender k
    · rw [directWrite_eq hg hgood.1 hgood.2 buffer hsize]
      by_cases hzero : (s.openFiles k).inodeNum = 0
      · refine iff_of_false (fun heq => ?_) (not_not_intro hzero)
        rw [clientWrite_failed hpos id fun _ _ _ _ =>
          sendRequest_refused howner hzero (.inr rfl) ..] at heq
        obtain ⟨r, hr, hseen⟩ := Option.map_eq_some_iff.mp heq.symm
        obtain ⟨w, -, rfl⟩ := Option.map_eq_some_iff.mp hr
        have hcount : written 0 w = -7 := congrArg Prod.snd hseen
        unfold written at hcount
        split_ifs at hcount
        exact absurd hcount (by decide)
      · refine iff_of_true ?_ hzero
        unfold FsClient.write
        rw [writeLoop_pieces hsize hg howner rfl hzero hgood.1 hgood.2 (Nat.zero_le _) (Nat.sub_le ..)
          (fun h => absurd h (Nat.ne_of_lt hpos)), Nat.sub_zero, Option.map_map]
        congr 1
        funext w
        show _ = ((s.ended k w now').untimed _, written 0 w)
        rw [untimed_ended]
    · obtain ⟨e, he, hwrite⟩ := write_refused hgood
      have hdirect : s.directWrite k buffer size sender.toUInt32 now' = some (s, e.code) := by
        have hsame : (s.withVol s.vol).withFile k (s.openFiles k) = s := withFile_self s k
        unfold FsServer.directWrite
        rw [hwrite, Option.map_some]
        dsimp only
        rw [hsame]
      rw [hdirect]
      by_cases hzero : (s.openFiles k).inodeNum = 0
      · refine iff_of_false (fun heq => ?_) (not_not_intro hzero)
        rw [clientWrite_failed hpos id fun _ _ _ _ =>
          sendRequest_refused howner hzero (.inr rfl) ..] at heq
        have hcode : FsErr.invalid.code = e.code := congrArg Prod.snd (Option.some.inj heq)
        exact he (code_injective hcode.symm)
      · refine iff_of_true ?_ hzero
        rw [clientWrite_failed hpos id fun _ _ _ _ =>
          sendRequest_failed howner hzero (.inr ⟨rfl, hwrite⟩) ..]

/-- **Transfers in pieces.** The calls of the client do what one call of the file system does for
any number of bytes, except for a file in inode 0, which the server takes for a free place in its
table; and for no bytes they do, if that call neither fails nor lets the file grow. -/
theorem transfers_agree_iff (hg : Geometry s.vol.superblock) (howner : s.Owns sender k)
    (buffer : Nat → UInt8) {size : UInt32} (hsize : size.toNat < 2 ^ 31) (id : UInt16)
    (now : Nat → UInt64) (now' : UInt64) :
    (ReadAgrees s k sender size id now ↔
      if size = 0 then s.vol.Used (s.openFiles k).inodeNum else (s.openFiles k).inodeNum ≠ 0) ∧
    (WriteAgrees s k sender buffer size id now now' ↔
      if size = 0 then s.vol.Used (s.openFiles k).inodeNum ∧ s.Permits sender k ∧
        (s.openFiles k).position ≤ (s.vol.inodes (s.openFiles k).inodeNum).size
      else (s.openFiles k).inodeNum ≠ 0) :=
  ⟨readAgrees_iff howner hsize id, writeAgrees_iff hg howner buffer hsize id now'⟩

theorem geometry_newVolume : Geometry (newVolume 20).superblock :=
  ⟨by decide +kernel, by decide +kernel, by decide +kernel, by decide +kernel⟩

def nameRequest (cmd : FsCmd) (name : List UInt8) : FsRequest := FsClient.request cmd 7 0 0 0 name

/-- a server on a new volume, after sender 7 created and opened the files, the first one in inode 0 -/
def serverWith (names : List (List UInt8)) : FsServer :=
  names.foldl (fun s name => ((s.handleCreate (nameRequest .create name) 0).1.handleOpen
    (nameRequest .openFile name)).1) (FsServer.init (newVolume 20))

theorem transfers_agree_second :
    (serverWith [[97], [98]]).Owns 7 0 ∧
      ReadAgrees (serverWith [[97], [98]]) 0 7 100 0 (fun _ => 0) ∧
      WriteAgrees (serverWith [[97], [98]]) 0 7 (fun _ => 1) 100 0 (fun _ => 0) 0 := by
  have howner : (serverWith [[97], [98]]).Owns 7 0 := .inr (by decide +kernel)
  have hinode : ((serverWith [[97], [98]]).openFiles 0).inodeNum ≠ 0 := by decide +kernel
  have hagree := transfers_agree_iff (s := serverWith [[97], [98]]) geometry_newVolume howner
    (fun _ => 1) (show (100 : UInt32).toNat < 2 ^ 31 by decide) 0 (fun _ => 0) 0
  exact ⟨howner, hagree.1.mpr hinode, hagree.2.mpr hinode⟩

/-- the file in inode 0 was opened, and the server knows nothing of its handle -/
theorem read_first_refused :
    (serverWith [[97]]).Owns 7 0 ∧ (serverWith [[97]]).vol.Used 0 ∧
      ¬ ReadAgrees (serverWith [[97]]) 0 7 1 0 (fun _ => 0) := by
  have howner : (serverWith [[97]]).Owns 7 0 := .inr (by decide +kernel)
  have hinode : ((serverWith [[97]]).openFiles 0).inodeNum = 0 := by decide +kernel
  refine ⟨howner, by decide +kernel, fun hagree => ?_⟩
  exact (readAgrees_iff howner (by decide) 0).mp hagree hinode

end Fs
end EkKor
