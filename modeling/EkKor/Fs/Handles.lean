import EkKor.Fs.Contents
import EkKor.Fs.Server

/-!
# What the handles of the file server stand for

* `FileId`, `Grant`, `Ledger`   which file each handle was returned for, and to whom;
* `Denotes`                     a request on a handle acts on its file, or is refused;
* `FsServer.Allowed`            the requests that keep the handles apart;
* `handles_denote_files`        every allowed run.
-/

namespace EkKor
namespace Fs
open Runs Function

/-! ## the ledger -/

/-- a file of the volume: no other file is the one that was created in its inode as number `born` -/
structure FileId where
  inode : UInt32
  born : Nat
  deriving DecidableEq

/-- a handle that was returned and not closed -/
structure Grant where
  owner : UInt8
  file : FileId
  deriving DecidableEq

/-- the number of files created in each inode, and the grants of the handles -/
structure Ledger where
  born : UInt32 → Nat
  granted : UInt32 → Option Grant

/-- after one more request, by its response: `v` is the volume before the request -/
def Ledger.note (l : Ledger) (v : Volume) (req : FsRequest) (resp : FsResponse) : Ledger :=
  if resp.status ≠ 0 then l
  else match req.cmd with
    | .create => { l with born := update l.born resp.result (l.born resp.result + 1) }
    | .openFile =>
      { l with
        granted := update l.granted resp.result
          ((v.inodeFindByName req.name).map fun n => ⟨req.senderId, ⟨n, l.born n⟩⟩) }
    | .close => { l with granted := update l.granted req.inode none }
    | _ => l

def Ledger.Present (l : Ledger) (v : Volume) (f : FileId) : Prop :=
  v.Used f.inode ∧ l.born f.inode = f.born

/-! ## what handles are for -/

/-- the request acts on file `n` through its handle: it reads the bytes of the file, or writes no
other file, or moves the position; no other handle changes -/
def ActsOn (s : FsServer) (req : FsRequest) (now : UInt64) (n : UInt32) (s' : FsServer)
    (resp : FsResponse) : Prop :=
  ∃ k : Fin maxOpenFiles, req.inode.toNat = k.val ∧ s'.openFileOwners = s.openFileOwners ∧
    (∀ j ≠ k, s'.openFiles j = s.openFiles j) ∧
    let file : File := { s.openFiles k with inodeNum := n }
    match req.cmd with
    | .read =>
      s'.vol = s.vol ∧
      resp = .okData req ((List.range (available s.vol file req.readLength)).map fun t =>
        s.vol.byteAt n (file.position.toNat + t))
    | .write =>
      ∃ r file', s.vol.write file req.buffer req.writeLength req.senderId.toUInt32 now =
          some (r, s'.vol, file') ∧
        (∀ m ≠ n, s'.vol.inodes m = s.vol.inodes m) ∧
        (Mounted s.vol → GoodWrite s.vol file req.writeLength req.senderId.toUInt32 →
          (∃ e, r = .error e ∧ s'.vol = s.vol) ∨
            ∃ count, WroteFile s.vol file req.buffer count s'.vol file' ∧
              (r = .ok count ∨ r = .error .full ∧ count = 0)) ∧
        (∀ count, r = .ok count → resp = .ok req (UInt32.ofNat count)) ∧
        (∀ e, r = .error e → resp = .fail req e)
    | .seek =>
      s'.vol = s.vol ∧ (s'.openFiles k).position = req.offset ∧ resp = .ok req req.offset
    | _ => False

def Refused (s s' : FsServer) (resp : FsResponse) : Prop := resp.status ≠ 0 ∧ s' = s

def FsCmd.onFile (cmd : FsCmd) : Prop := cmd = .read ∨ cmd = .write ∨ cmd = .seek

/-- what a request finds: the owner of a handle the file that was opened, or nothing if that is
deleted; any other module nothing; a new handle is one that nobody has -/
structure Denotes (s : FsServer) (l : Ledger) (req : FsRequest) (now : UInt64) (s' : FsServer)
    (resp : FsResponse) : Prop where
  acts : ∀ g, l.granted req.inode = some g → req.senderId = g.owner → req.cmd.onFile →
    (l.Present s.vol g.file → ActsOn s req now g.file.inode s' resp) ∧
      (¬ l.Present s.vol g.file → Refused s s' resp)
  refused : ∀ g, l.granted req.inode = some g → req.senderId ≠ g.owner → req.senderId ≠ 0 →
    req.cmd.onFile ∨ req.cmd = .close → Refused s s' resp
  fresh : req.cmd = .openFile → resp.status = 0 → l.granted resp.result = none
  closes : ∀ g, l.granted req.inode = some g → req.senderId = g.owner → req.cmd = .close →
    resp.status = 0

/-! ## the calls of the file system -/

variable {v : Volume}

variable {ownerId : UInt8} {v' : Volume} {file : File} {handle i : UInt32} {k : Fin maxOpenFiles}
  {s' : FsServer} {resp : FsResponse} {g : Grant} {st : FsServer × Ledger} {e : FsRequest × UInt64}

theorem create_ok {name : List UInt8} {ownerId flags : UInt32} {now : UInt64} {n : UInt32}
    (h : v.create name ownerId flags now = (.ok n, v')) :
    name.length ≤ maxFilename ∧ v.inodeFindByName name = none ∧ v.inodeAlloc = some n := by
  unfold Volume.create at h
  split_ifs at h with hlen
  · cases h
  · cases hfind : v.inodeFindByName name with
    | some i =>
      rw [hfind] at h
      cases h
    | none =>
      cases halloc : v.inodeAlloc with
      | none =>
        rw [hfind, halloc] at h
        cases h
      | some i =>
        rw [hfind, halloc] at h
        dsimp only at h
        unfold Volume.inodeWrite at h
        rw [if_neg (UInt32.not_le.mpr (findInode_spec halloc).1)] at h
        cases h
        exact ⟨Nat.not_lt.mp hlen, rfl, rfl⟩

/-- `ekkfs_read` moves the position only -/
theorem read_file {file' : File} {size : UInt32} {r : Except FsErr (List UInt8)}
    (h : v.read file size = some (r, file')) : file'.inodeNum = file.inodeNum := by
  unfold Volume.read at h
  cases hread : v.inodeRead file.inodeNum with
  | error e =>
    rw [hread] at h
    cases h
    rfl
  | ok inode =>
    rw [hread] at h
    dsimp only at h
    generalize (if size > _ then _ else size : UInt32) = count at h
    split_ifs at h
    · cases h
      rfl
    · cases h
      rfl
    · obtain ⟨out, _, heq⟩ := Option.map_eq_some_iff.mp h
      cases heq
      rfl

theorem allocFrom_inodes (n : Nat) : ∀ (v : Volume) (i : Nat) {b : Option UInt32} {v' : Volume},
    v.allocFrom n i = some (b, v') → v'.inodes = v.inodes := by
  induction n with
  | zero =>
    intro v i b v' h
    cases h
    rfl
  | succ n ih =>
    intro v i b v' h
    rw [Volume.allocFrom] at h
    split_ifs at h with hi
    cases hbit : Volume.freeBit v.superblock (v.bitmapBuf i) i with
    | none =>
      rw [hbit] at h
      exact ih v (i + 1) h
    | some bit =>
      rw [hbit] at h
      cases h
      rfl

theorem target_inodes {ptr : UInt32} {t : Option (UInt32 × Block)} (h : v.target ptr = some (t, v')) :
    v'.inodes = v.inodes := by
  unfold Volume.target at h
  split_ifs at h with hzero
  · obtain ⟨⟨b, v₁⟩, halloc, heq⟩ := Option.map_eq_some_iff.mp h
    cases heq
    exact allocFrom_inodes _ v 0 halloc
  · cases h
    rfl

theorem indirectTarget_inodes {inode : Inode} {t : Option (UInt32 × Vector UInt32 indirectBlocks)}
    (h : v.indirectTarget inode = some (t, v')) : v'.inodes = v.inodes := by
  unfold Volume.indirectTarget at h
  split_ifs at h with hzero
  · obtain ⟨⟨b, v₁⟩, halloc, heq⟩ := Option.map_eq_some_iff.mp h
    cases heq
    exact allocFrom_inodes _ v 0 halloc
  · cases h
    rfl

/-- one round of `ekkfs_write` leaves the table of inodes as it is -/
theorem chunk_inodes {inode : Inode} {idx offset : Nat} {bytes : List UInt8}
    {r : Except (Volume × Inode) (Volume × Inode)} (h : v.chunk inode idx offset bytes = some r) :
    (∀ v' x, r = .error (v', x) → v'.inodes = v.inodes) ∧
      ∀ v' x, r = .ok (v', x) → v'.inodes = v.inodes := by
  unfold Volume.chunk at h
  by_cases hdirect : idx < directBlocks
  · rw [dif_pos hdirect] at h
    obtain ⟨⟨t, v₁⟩, htarget, heq⟩ := Option.map_eq_some_iff.mp h
    have hkeep := target_inodes htarget
    cases t with
    | none =>
      cases heq
      exact ⟨fun v' x hr => by cases hr; exact hkeep, nofun⟩
    | some t =>
      cases heq
      exact ⟨nofun, fun v' x hr => by cases hr; exact hkeep⟩
  · rw [dif_neg hdirect] at h
    obtain ⟨⟨t, v₁⟩, hindirect, h⟩ := Option.bind_eq_some_iff.mp h
    have hkeep := indirectTarget_inodes hindirect
    cases t with
    | none =>
      cases h
      exact ⟨fun v' x hr => by cases hr; exact hkeep, nofun⟩
    | some t =>
      split_ifs at h with hentry
      obtain ⟨⟨t', v₂⟩, htarget, heq⟩ := Option.map_eq_some_iff.mp h
      have hkeep' := (target_inodes htarget).trans hkeep
      cases t' with
      | none =>
        cases heq
        exact ⟨fun v' x hr => by cases hr; exact hkeep', nofun⟩
      | some t' =>
        cases heq
        exact ⟨nofun, fun v' x hr => by cases hr; exact hkeep'⟩

theorem writeLoop_inodes (buffer : Nat → UInt8) (size fuel : Nat) :
    ∀ (v : Volume) (inode : Inode) (position : UInt32) (count : Nat) {w : Volume.Written},
      Volume.writeLoop buffer size fuel v inode position count = some w →
        w.vol.inodes = v.inodes := by
  induction fuel with
  | zero =>
    intro v inode position count w h
    unfold Volume.writeLoop at h
    split_ifs at h
    cases h
    rfl
  | succ fuel ih =>
    intro v inode position count w h
    rw [Volume.writeLoop] at h
    split_ifs at h with hmore
    · dsimp only at h
      generalize hchunk : v.chunk inode _ _ _ = r at h
      rcases r with _ | ⟨v₁, x⟩ | ⟨v₁, x⟩
      · cases h
      · cases h
        exact (chunk_inodes hchunk).1 v₁ x rfl
      · exact (ih v₁ x _ _ h).trans ((chunk_inodes hchunk).2 v₁ x rfl)
    · cases h
      rfl

theorem inodeWrite_inodes {n m : UInt32} (inode : Inode) (hm : m ≠ n) :
    (v.inodeWrite n inode).2.inodes m = v.inodes m := by
  unfold Volume.inodeWrite
  split_ifs
  · rfl
  · exact update_of_ne hm ..

/-- `ekkfs_write` changes the inode of its file only -/
theorem write_inodes {file' : File} {buffer : Nat → UInt8} {size ownerId : UInt32} {now : UInt64}
    {r : Except FsErr Nat} (h : v.write file buffer size ownerId now = some (r, v', file')) :
    (∀ m ≠ file.inodeNum, v'.inodes m = v.inodes m) ∧ file'.inodeNum = file.inodeNum := by
  unfold Volume.write at h
  cases hread : v.inodeRead file.inodeNum with
  | error e =>
    rw [hread] at h
    cases h
    exact ⟨fun _ _ => rfl, rfl⟩
  | ok inode =>
    rw [hread] at h
    dsimp only at h
    split_ifs at h
    · cases h
      exact ⟨fun _ _ => rfl, rfl⟩
    · cases h
      exact ⟨fun _ _ => rfl, rfl⟩
    · obtain ⟨w, hloop, hfinish⟩ := Option.map_eq_some_iff.mp h
      have hkeep := writeLoop_inodes buffer _ _ v inode _ _ hloop
      obtain ⟨-, hrest⟩ := Prod.mk.inj hfinish
      obtain ⟨hvol, hfile⟩ := Prod.mk.inj hrest
      refine ⟨fun m hm => ?_, hfile ▸ rfl⟩
      rw [← hvol, inodeWrite_inodes _ hm]
      exact congrFun hkeep m

/-- `ekkfs_write` refuses a file that is gone, or one of another owner -/
theorem write_refused {ownerId : UInt32}
    (h : ¬ (v.Used file.inodeNum ∧ ¬ (ownerId ≠ 0 ∧ (v.inodes file.inodeNum).ownerId ≠ ownerId))) :
    ∃ e : FsErr, e ≠ .invalid ∧ ∀ buffer size now,
      v.write file buffer size ownerId now = some (.error e, v, file) := by
  unfold Volume.write Volume.inodeRead
  by_cases hcount : file.inodeNum ≥ v.superblock.inodeCount
  · refine ⟨.io, FsErr.noConfusion, fun _ _ _ => ?_⟩
    rw [if_pos hcount]
  · by_cases hflags : (v.inodes file.inodeNum).flags &&& flagUsed = 0
    · refine ⟨.notFound, FsErr.noConfusion, fun _ _ _ => ?_⟩
      rw [if_neg hcount]
      dsimp only
      rw [if_pos hflags]
    · refine ⟨.permission, FsErr.noConfusion, fun _ _ _ => ?_⟩
      rw [if_neg hcount]
      dsimp only
      rw [if_neg hflags, if_pos]
      by_contra hno
      exact h ⟨⟨UInt32.not_le.mp hcount, hflags⟩, hno⟩

/-! ## the table of open files -/

variable {s : FsServer} {l : Ledger} {req : FsRequest} {now : UInt64}

theorem getFileHandle_some (h : s.getFileHandle handle ownerId = some k) :
    handle.toNat = k.val ∧ (s.openFiles k).inodeNum ≠ 0 := by
  unfold FsServer.getFileHandle at h
  split_ifs at h with hlt hzero howner
  obtain rfl := Option.some.inj h
  exact ⟨rfl, hzero⟩

theorem getFileHandle_owner (hk : handle.toNat = k.val) (hn : (s.openFiles k).inodeNum ≠ 0) :
    s.getFileHandle handle (s.openFileOwners k) = some k := by
  have hlt : handle.toNat < maxOpenFiles := hk ▸ k.isLt
  obtain rfl : (⟨handle.toNat, hlt⟩ : Fin maxOpenFiles) = k := Fin.ext hk
  unfold FsServer.getFileHandle
  rw [dif_pos hlt, if_neg hn, if_neg fun h => h.2 rfl]

theorem getFileHandle_other (hk : handle.toNat = k.val) (hzero : ownerId ≠ 0)
    (hne : s.openFileOwners k ≠ ownerId) : s.getFileHandle handle ownerId = none := by
  have hlt : handle.toNat < maxOpenFiles := hk ▸ k.isLt
  obtain rfl : (⟨handle.toNat, hlt⟩ : Fin maxOpenFiles) = k := Fin.ext hk
  unfold FsServer.getFileHandle
  split_ifs with hinode howner
  · rfl
  · rfl
  · exact absurd ⟨hzero, hne⟩ howner

theorem allocFileHandle_some (h : s.allocFileHandle ownerId = some (k, s')) :
    (s.openFiles k).inodeNum = 0 ∧
      s' = { s with openFileOwners := update s.openFileOwners k ownerId } := by
  obtain ⟨i, hfind, heq⟩ := Option.map_eq_some_iff.mp h
  obtain ⟨rfl, rfl⟩ := Prod.mk.inj heq
  exact ⟨of_decide_eq_true (List.find?_some (p := fun i => decide ((s.openFiles i).inodeNum = 0))
    hfind), rfl⟩

/-- what the table says of each handle that was returned: its owner, and an inode that still holds
the file, or nothing -/
def Tracked (s : FsServer) (l : Ledger) : Prop :=
  ∀ h g, l.granted h = some g → ∃ k : Fin maxOpenFiles, h.toNat = k.val ∧
    (s.openFiles k).inodeNum = g.file.inode ∧ g.file.inode ≠ 0 ∧ s.openFileOwners k = g.owner ∧
    l.born g.file.inode = g.file.born

/-- the requests that keep the handles apart: no file is opened in inode 0, no file is created in
an inode that an open handle has, no handle of a deleted file is moved, and the file system stays
within its arrays -/
def FsServer.Allows (s : FsServer) (req : FsRequest) (now : UInt64) : FsCmd → Prop
  | .openFile =>
    (∃ k, (s.openFiles k).inodeNum = 0) → s.vol.inodeFindByName req.name ≠ some 0
  | .create =>
    req.name.length ≤ maxFilename → s.vol.inodeFindByName req.name = none →
      ∀ k, (s.openFiles k).inodeNum ≠ 0 → s.vol.inodeAlloc ≠ some (s.openFiles k).inodeNum
  | .seek =>
    ∀ k, s.getFileHandle req.inode req.senderId = some k → s.openFileOwners k = req.senderId →
      s.vol.Used (s.openFiles k).inodeNum
  | .read =>
    ∀ k, s.getFileHandle req.inode req.senderId = some k →
      ¬ Overread s.vol (s.openFiles k) req.readLength
  | .write =>
    ∀ k, s.getFileHandle req.inode req.senderId = some k →
      (s.vol.write (s.openFiles k) req.buffer req.writeLength req.senderId.toUInt32 now).isSome
  | .delete => (s.vol.delete req.name req.senderId.toUInt32).isSome
  | .close => True

instance (s : FsServer) (req : FsRequest) (now : UInt64) :
    (cmd : FsCmd) → Decidable (s.Allows req now cmd)
  | .openFile => inferInstanceAs (Decidable (_ → _))
  | .create => inferInstanceAs (Decidable (_ → _ → ∀ _, _))
  | .seek => inferInstanceAs (Decidable (∀ _, _))
  | .read => inferInstanceAs (Decidable (∀ _, _))
  | .write => inferInstanceAs (Decidable (∀ _, _))
  | .delete => inferInstanceAs (Decidable (_ = _))
  | .close => inferInstanceAs (Decidable True)

def FsServer.Allowed (s : FsServer) (req : FsRequest) (now : UInt64) : Prop :=
  s.Allows req now req.cmd

instance (s : FsServer) (req : FsRequest) (now : UInt64) : Decidable (s.Allowed req now) :=
  inferInstanceAs (Decidable (s.Allows req now req.cmd))

/-! ## one request -/

def Served (s : FsServer) (l : Ledger) (req : FsRequest) (now : UInt64) : Prop :=
  ∃ s' resp, s.handleRequest req now = some (s', resp) ∧ Tracked s' (l.note s.vol req resp) ∧
    Denotes s l req now s' resp

theorem fail_status (req : FsRequest) (e : FsErr) : (FsResponse.fail req e).status ≠ 0 :=
  e.status_ne_zero

theorem note_fail (e : FsErr) : l.note s.vol req (.fail req e) = l := if_pos (fail_status req e)

theorem Tracked.same (h : Tracked s l)
    (hfiles : ∀ k, (s'.openFiles k).inodeNum = (s.openFiles k).inodeNum)
    (howners : s'.openFileOwners = s.openFileOwners) : Tracked s' l := by
  intro i g hg
  obtain ⟨k, hk, hinode, hzero, howner, hborn⟩ := h i g hg
  exact ⟨k, hk, (hfiles k).trans hinode, hzero, (congrFun howners k).trans howner, hborn⟩

theorem Tracked.move (h : Tracked s l) {f : File} (hfile : f.inodeNum = (s.openFiles k).inodeNum)
    (vol : Volume) : Tracked ((s.withVol vol).withFile k f) l := by
  refine h.same (fun j => ?_) rfl
  show (update s.openFiles k f j).inodeNum = _
  by_cases hj : j = k
  · rw [hj, update_self, hfile]
  · rw [update_of_ne hj]

theorem denotes_file (hcmd : req.cmd = .create ∨ req.cmd = .delete) :
    Denotes s l req now s' resp := by
  have hno : ¬ req.cmd.onFile ∧ req.cmd ≠ .close ∧ req.cmd ≠ .openFile := by
    unfold FsCmd.onFile
    rcases hcmd with hcmd | hcmd <;> rw [hcmd] <;> decide
  exact ⟨fun _ _ _ hfile => absurd hfile hno.1,
    fun _ _ _ _ hfile => absurd hfile (not_or.mpr ⟨hno.1, hno.2.1⟩),
    fun hopen => absurd hopen hno.2.2, fun _ _ _ hclose => absurd hclose hno.2.1⟩

theorem served_create (h : Tracked s l) (hcmd : req.cmd = .create) (hallowed : s.Allowed req now) :
    Served s l req now := by
  unfold FsServer.Allowed at hallowed
  rw [hcmd] at hallowed
  unfold Served FsServer.handleRequest FsServer.handleCreate
  simp only [hcmd]
  rcases hcreate : s.vol.create req.name req.senderId.toUInt32 req.offset now with ⟨e | n, vol⟩
  · refine ⟨_, _, rfl, ?_, denotes_file (.inl hcmd)⟩
    rw [note_fail]
    exact h.same (fun _ => rfl) rfl
  · refine ⟨_, _, rfl, fun i g hg => ?_, denotes_file (.inl hcmd)⟩
    obtain ⟨hlen, hfind, halloc⟩ := create_ok hcreate
    have hnote : l.note s.vol req (.ok req n) =
        { l with born := update l.born n (l.born n + 1) } := by
      unfold Ledger.note
      rw [if_neg (fun hne => hne rfl), hcmd]
      rfl
    rw [hnote] at hg ⊢
    obtain ⟨k, hk, hinode, hzero, howner, hborn⟩ := h i g hg
    refine ⟨k, hk, hinode, hzero, howner, ?_⟩
    have hne : g.file.inode ≠ n := by
      rintro rfl
      refine hallowed hlen hfind k (hinode ▸ hzero) ?_
      rw [hinode]
      exact halloc
    exact (update_of_ne hne ..).trans hborn

theorem served_delete (h : Tracked s l) (hcmd : req.cmd = .delete) (hallowed : s.Allowed req now) :
    Served s l req now := by
  unfold FsServer.Allowed at hallowed
  rw [hcmd] at hallowed
  obtain ⟨⟨r, vol⟩, hdelete⟩ := Option.isSome_iff_exists.mp hallowed
  unfold Served FsServer.handleRequest FsServer.handleDelete
  simp only [hcmd]
  rw [hdelete]
  cases r with
  | error e =>
    refine ⟨_, _, rfl, ?_, denotes_file (.inr hcmd)⟩
    rw [note_fail]
    exact h.same (fun _ => rfl) rfl
  | ok =>
    refine ⟨_, _, rfl, ?_, denotes_file (.inr hcmd)⟩
    unfold Ledger.note
    rw [if_neg (fun hne => hne rfl), hcmd]
    exact h.same (fun _ => rfl) rfl

theorem Tracked.ungranted (h : Tracked s l) (hfree : (s.openFiles k).inodeNum = 0)
    (hg : l.granted i = some g) : i.toNat ≠ k.val := by
  intro hi
  obtain ⟨k', hk', hinode, hzero, _⟩ := h i g hg
  obtain rfl : k' = k := Fin.ext (hk'.symm.trans hi)
  exact hzero (hinode.symm.trans hfree)

theorem Tracked.others (h : Tracked s l) (hfiles : ∀ j ≠ k, s'.openFiles j = s.openFiles j)
    (howners : ∀ j ≠ k, s'.openFileOwners j = s.openFileOwners j) (hg : l.granted i = some g)
    (hi : i.toNat ≠ k.val) :
    ∃ j : Fin maxOpenFiles, i.toNat = j.val ∧ (s'.openFiles j).inodeNum = g.file.inode ∧
      g.file.inode ≠ 0 ∧ s'.openFileOwners j = g.owner ∧ l.born g.file.inode = g.file.born := by
  obtain ⟨j, hj, hinode, hzero, howner, hborn⟩ := h i g hg
  have hne : j ≠ k := by
    rintro rfl
    exact hi hj
  exact ⟨j, hj, hfiles j hne ▸ hinode, hzero, (howners j hne).trans howner, hborn⟩

theorem denotes_open (hcmd : req.cmd = .openFile)
    (hfresh : resp.status = 0 → l.granted resp.result = none) : Denotes s l req now s' resp := by
  have hno : ¬ req.cmd.onFile ∧ req.cmd ≠ .close := by
    unfold FsCmd.onFile
    rw [hcmd]
    decide
  exact ⟨fun _ _ _ hfile => absurd hfile hno.1, fun _ _ _ _ hfile => absurd hfile (not_or.mpr hno),
    fun _ => hfresh, fun _ _ _ hclose => absurd hclose hno.2⟩

theorem toNat_handle (k : Fin maxOpenFiles) : (UInt32.ofNat k.val).toNat = k.val := by
  have hk : k.val < 16 := k.isLt
  rw [UInt32.toNat_ofNat', Nat.mod_eq_of_lt (by omega)]

theorem served_open (h : Tracked s l) (hcmd : req.cmd = .openFile)
    (hallowed : s.Allowed req now) : Served s l req now := by
  unfold FsServer.Allowed at hallowed
  rw [hcmd] at hallowed
  unfold Served FsServer.handleRequest FsServer.handleOpen
  simp only [hcmd]
  cases halloc : s.allocFileHandle req.senderId with
  | none =>
    refine ⟨_, _, rfl, ?_, denotes_open hcmd fun hstatus => absurd hstatus (fail_status req _)⟩
    exact h
  | some res =>
    obtain ⟨k, s₁⟩ := res
    obtain ⟨hfree, rfl⟩ := allocFileHandle_some halloc
    unfold Volume.openFile
    dsimp only
    cases hfind : s.vol.inodeFindByName req.name with
    | none =>
      refine ⟨_, _, rfl, ?_, denotes_open hcmd fun hstatus => absurd hstatus (fail_status req _)⟩
      intro i g hg
      refine h.others (fun j hj => update_of_ne hj ..) (fun j hj => ?_) hg
        (h.ungranted hfree hg)
      exact (update_of_ne hj ..).trans (update_of_ne hj ..)
    | some n =>
      have hn : n ≠ 0 := by
        rintro rfl
        exact hallowed ⟨k, hfree⟩ hfind
      have hnote : l.note s.vol req (.ok req (UInt32.ofNat k.val)) =
          ⟨l.born, update l.granted (UInt32.ofNat k.val)
            (some ⟨req.senderId, ⟨n, l.born n⟩⟩)⟩ := by
        unfold Ledger.note
        rw [if_neg (fun hne => hne rfl), hcmd, hfind]
        rfl
      refine ⟨_, _, rfl, ?_, denotes_open hcmd fun _ => ?_⟩
      · rw [hnote]
        intro i g hg
        dsimp only at hg
        by_cases hi : i = UInt32.ofNat k.val
        · rw [hi, update_self] at hg
          obtain rfl := Option.some.inj hg
          refine ⟨k, hi ▸ toNat_handle k, ?_, hn, update_self .., rfl⟩
          show (update s.openFiles k _ k).inodeNum = n
          rw [update_self]
        · rw [update_of_ne hi] at hg
          exact h.others (fun j hj => update_of_ne hj ..)
            (fun j hj => update_of_ne hj ..) hg (h.ungranted hfree hg)
      · cases hg : l.granted (UInt32.ofNat k.val) with
        | none => exact hg
        | some g => exact absurd (toNat_handle k) (h.ungranted hfree hg)

/-! ## requests on a handle -/

theorem Tracked.owner (h : Tracked s l) (hg : l.granted i = some g) :
    ∃ k, s.getFileHandle i g.owner = some k ∧ (s.openFiles k).inodeNum = g.file.inode ∧
      s.openFileOwners k = g.owner ∧ l.born g.file.inode = g.file.born := by
  obtain ⟨k, hk, hinode, hzero, howner, hborn⟩ := h i g hg
  refine ⟨k, ?_, hinode, howner, hborn⟩
  rw [← howner]
  exact getFileHandle_owner hk (hinode ▸ hzero)

theorem Tracked.other (h : Tracked s l) (hg : l.granted i = some g) (hne : ownerId ≠ g.owner)
    (hzero : ownerId ≠ 0) : s.getFileHandle i ownerId = none := by
  obtain ⟨k, hk, _, _, howner, _⟩ := h i g hg
  refine getFileHandle_other hk hzero ?_
  rw [howner]
  exact hne.symm

theorem denotes_none (h : Tracked s l) (hget : s.getFileHandle req.inode req.senderId = none)
    (hcmd : req.cmd.onFile ∨ req.cmd = .close) :
    Denotes s l req now s (.fail req .invalid) := by
  have howner : ∀ g, l.granted req.inode = some g → req.senderId ≠ g.owner := by
    intro g hg heq
    obtain ⟨k, hk, _⟩ := h.owner hg
    rw [← heq, hget] at hk
    cases hk
  refine ⟨fun g hg heq => absurd heq (howner g hg), fun _ _ _ _ _ => ⟨fail_status req _, rfl⟩,
    fun hopen => ?_, fun g hg heq => absurd heq (howner g hg)⟩
  unfold FsCmd.onFile at hcmd
  rw [hopen] at hcmd
  exact absurd hcmd (by decide)

theorem served_close (h : Tracked s l) (hcmd : req.cmd = .close) : Served s l req now := by
  unfold Served FsServer.handleRequest FsServer.handleClose
  simp only [hcmd]
  cases hget : s.getFileHandle req.inode req.senderId with
  | none =>
    refine ⟨_, _, rfl, ?_, denotes_none h hget (.inr hcmd)⟩
    exact h
  | some k =>
    have hk := (getFileHandle_some hget).1
    refine ⟨_, _, rfl, ?_, ?_⟩
    · unfold Ledger.note
      rw [if_neg (fun hne => hne rfl), hcmd]
      intro i g hg
      have hi : i ≠ req.inode := by
        rintro rfl
        cases (update_self ..).symm.trans hg
      have hg' : l.granted i = some g := (update_of_ne hi ..).symm.trans hg
      refine h.others (fun j hj => ?_) (fun j hj => update_of_ne hj ..) hg' ?_
      · exact (update_of_ne hj ..).trans (update_of_ne hj ..)
      · rw [← hk]
        exact fun heq => hi (UInt32.toNat_inj.mp heq)
    · have hno : ¬ req.cmd.onFile ∧ req.cmd ≠ .openFile := by
        unfold FsCmd.onFile
        rw [hcmd]
        decide
      refine ⟨fun _ _ _ hfile => absurd hfile hno.1, fun g hg hne hzero _ => ?_,
        fun hopen => absurd hopen hno.2, fun _ _ _ _ => rfl⟩
      cases hget.symm.trans (h.other hg hne hzero)

theorem denotes_handle (h : Tracked s l) (hfile : req.cmd.onFile)
    (hget : s.getFileHandle req.inode req.senderId = some k) (hused : s.vol.Used (s.openFiles
    k).inodeNum → ActsOn s req now (s.openFiles k).inodeNum s' resp) (hunused : s.openFileOwners k =
    req.senderId → ¬ s.vol.Used (s.openFiles k).inodeNum → Refused s s' resp) :
    Denotes s l req now s' resp := by
  have hno : req.cmd ≠ .openFile ∧ req.cmd ≠ .close := by
    rcases hfile with hcmd | hcmd | hcmd <;> rw [hcmd] <;> decide
  refine ⟨fun g hg heq _ => ?_, fun g hg hne hzero _ => ?_, fun hopen => absurd hopen hno.1,
    fun _ _ _ hclose => absurd hclose hno.2⟩
  · obtain ⟨k', hk', hinode, howner, hborn⟩ := h.owner hg
    rw [← heq, hget] at hk'
    obtain rfl := Option.some.inj hk'
    rw [hinode] at hused hunused
    refine ⟨fun hpresent => hused hpresent.1, fun hgone => ?_⟩
    exact hunused (howner.trans heq.symm) fun hn => hgone ⟨hn, hborn⟩
  · cases hget.symm.trans (h.other hg hne hzero)

theorem withFile_self (s : FsServer) (k : Fin maxOpenFiles) : s.withFile k (s.openFiles k) = s := by
  unfold FsServer.withFile
  rw [update_eq_self]

theorem note_onFile (hfile : req.cmd.onFile) (resp : FsResponse) :
    l.note s.vol req resp = l := by
  unfold Ledger.note
  split_ifs
  · rfl
  · rcases hfile with hcmd | hcmd | hcmd <;> rw [hcmd]

theorem served_read (h : Tracked s l) (hcmd : req.cmd = .read) (hallowed : s.Allowed req now) :
    Served s l req now := by
  have hfile : req.cmd.onFile := .inl hcmd
  unfold FsServer.Allowed at hallowed
  rw [hcmd] at hallowed
  unfold Served FsServer.handleRequest FsServer.handleRead
  simp only [hcmd]
  cases hget : s.getFileHandle req.inode req.senderId with
  | none => exact ⟨_, _, rfl, by rwa [note_fail], denotes_none h hget (.inl hfile)⟩
  | some k =>
    have hk := (getFileHandle_some hget).1
    dsimp only
    by_cases hn : s.vol.Used (s.openFiles k).inodeNum
    · obtain ⟨file, heq⟩ := read_spec hn (hallowed k hget)
      rw [heq]
      refine ⟨_, _, rfl, ?_, denotes_handle h hfile hget (fun _ => ?_) fun _ hno => absurd hn hno⟩
      · rw [note_onFile hfile]
        exact h.move (read_file heq) s.vol
      · refine ⟨k, hk, rfl, fun j hj => update_of_ne hj .., ?_⟩
        rw [hcmd]
        exact ⟨rfl, rfl⟩
    · obtain ⟨e, -, heq⟩ := read_refused hn
      rw [heq req.readLength]
      refine ⟨_, _, rfl, ?_, denotes_handle h hfile hget (fun hused => absurd hused hn) ?_⟩
      · rw [note_onFile hfile]
        exact h.move (k := k) rfl s.vol
      · exact fun _ _ => ⟨fail_status req e, withFile_self s k⟩

theorem served_write (h : Tracked s l) (hcmd : req.cmd = .write) (hallowed : s.Allowed req now) :
    Served s l req now := by
  have hfile : req.cmd.onFile := .inr (.inl hcmd)
  unfold FsServer.Allowed at hallowed
  rw [hcmd] at hallowed
  unfold Served FsServer.handleRequest FsServer.handleWrite
  simp only [hcmd]
  cases hget : s.getFileHandle req.inode req.senderId with
  | none => exact ⟨_, _, rfl, by rwa [note_fail], denotes_none h hget (.inl hfile)⟩
  | some k =>
    have hk := (getFileHandle_some hget).1
    dsimp only
    by_cases hn : s.vol.Used (s.openFiles k).inodeNum
    · obtain ⟨⟨r, vol, file⟩, heq⟩ := Option.isSome_iff_exists.mp (hallowed k hget)
      obtain ⟨hothers, hsame⟩ := write_inodes heq
      have hbytes : Mounted s.vol →
          GoodWrite s.vol (s.openFiles k) req.writeLength req.senderId.toUInt32 →
          (∃ e, r = .error e ∧ vol = s.vol) ∨
            ∃ count, WroteFile s.vol (s.openFiles k) req.buffer count vol file ∧
              (r = .ok count ∨ r = .error .full ∧ count = 0) := by
        intro hmounted hgood
        rcases write_spec hmounted req.buffer now hgood with ⟨e, heq'⟩ |
          ⟨count, _, r', vol', file', heq', hr, _, hwrote⟩
        · cases heq.symm.trans heq'
          exact .inl ⟨e, rfl, rfl⟩
        · cases heq.symm.trans heq'
          exact .inr ⟨count, hwrote, hr⟩
      rw [heq]
      cases r with
      | ok count =>
        refine ⟨_, _, rfl, ?_, denotes_handle h hfile hget (fun _ => ?_) fun _ hno => absurd hn hno⟩
        · rw [note_onFile hfile]
          exact h.move hsame vol
        · refine ⟨k, hk, rfl, fun j hj => update_of_ne hj .., ?_⟩
          rw [hcmd]
          exact ⟨_, file, heq, hothers, hbytes, fun c hc => by cases hc; rfl, nofun⟩
      | error e =>
        refine ⟨_, _, rfl, ?_, denotes_handle h hfile hget (fun _ => ?_) fun _ hno => absurd hn hno⟩
        · rw [note_onFile hfile]
          exact h.move hsame vol
        · refine ⟨k, hk, rfl, fun j hj => update_of_ne hj .., ?_⟩
          rw [hcmd]
          exact ⟨_, file, heq, hothers, hbytes, nofun, fun c hc => by cases hc; rfl⟩
    · obtain ⟨e, -, heq⟩ : ∃ e : FsErr, e ≠ .invalid ∧ ∀ buffer size now,
          s.vol.write (s.openFiles k) buffer size req.senderId.toUInt32 now =
            some (.error e, s.vol, s.openFiles k) := write_refused fun hgood => hn hgood.1
      rw [heq req.buffer req.writeLength now]
      refine ⟨_, _, rfl, ?_, denotes_handle h hfile hget (fun hused => absurd hused hn) ?_⟩
      · rw [note_onFile hfile]
        exact h.move (k := k) rfl s.vol
      · exact fun _ _ => ⟨fail_status req e, withFile_self s k⟩

theorem served_seek (h : Tracked s l) (hcmd : req.cmd = .seek) (hallowed : s.Allowed req now) :
    Served s l req now := by
  have hfile : req.cmd.onFile := .inr (.inr hcmd)
  unfold FsServer.Allowed at hallowed
  rw [hcmd] at hallowed
  unfold Served FsServer.handleRequest FsServer.handleSeek
  simp only [hcmd]
  cases hget : s.getFileHandle req.inode req.senderId with
  | none => exact ⟨_, _, rfl, by rwa [note_fail], denotes_none h hget (.inl hfile)⟩
  | some k =>
    have hk := (getFileHandle_some hget).1
    refine ⟨_, _, rfl, ?_, denotes_handle h hfile hget (fun _ => ?_) fun howner hno => ?_⟩
    · rw [note_onFile hfile]
      exact h.move (k := k) (f := { s.openFiles k with position := req.offset }) rfl s.vol
    · refine ⟨k, hk, rfl, fun j hj => update_of_ne hj .., ?_⟩
      rw [hcmd]
      refine ⟨rfl, ?_, rfl⟩
      show (update s.openFiles k _ k).position = _
      rw [update_self]
    · exact absurd (hallowed k hget howner) hno

theorem served (h : Tracked s l) (hallowed : s.Allowed req now) : Served s l req now := by
  cases hcmd : req.cmd with
  | create => exact served_create h hcmd hallowed
  | delete => exact served_delete h hcmd hallowed
  | openFile => exact served_open h hcmd hallowed
  | close => exact served_close h hcmd
  | read => exact served_read h hcmd hallowed
  | write => exact served_write h hcmd hallowed
  | seek => exact served_seek h hcmd hallowed

/-! ## runs -/

/-- the requests to the server of volume `v`, each with the time, and the ledger beside it -/
def serving (v : Volume) : Machine (FsServer × Ledger) (FsRequest × UInt64) FsResponse where
  start := (.init v, ⟨fun _ => 0, fun _ => none⟩)
  step st e :=
    match st.1.handleRequest e.1 e.2 with
    | none => (st, [])
    | some (s', resp) => ((s', st.2.note st.1.vol e.1 resp), [resp])

def Denoted (st : FsServer × Ledger) (e : FsRequest × UInt64) : Prop :=
  ∃ s' resp, st.1.handleRequest e.1 e.2 = some (s', resp) ∧ Denotes st.1 st.2 e.1 e.2 s' resp

theorem serving_next {v : Volume} (h : st.1.handleRequest e.1 e.2 = some (s', resp)) :
    (serving v).next st e = (s', st.2.note st.1.vol e.1 resp) := by
  unfold Machine.next serving
  dsimp only
  rw [h]

theorem serving_outs {v : Volume} (h : st.1.handleRequest e.1 e.2 = some (s', resp)) :
    (serving v).outs st e = [resp] := by
  unfold Machine.outs serving
  dsimp only
  rw [h]

theorem tracked_of_runs (v : Volume) (es : List (FsRequest × UInt64))
    (hes : EveryStep (fun pre e => ((serving v).run pre).1.Allowed e.1 e.2) es) :
    Tracked ((serving v).run es).1 ((serving v).run es).2 := by
  refine history_induction (I := fun es => Tracked ((serving v).run es).1 ((serving v).run es).2)
    nofun (fun es e ih hallowed => ?_) es hes
  obtain ⟨s', resp, heq, htracked, _⟩ := served ih hallowed
  rw [Machine.run_concat, serving_next heq]
  exact htracked

/-- **Main.** In every run of requests that opens no file of inode 0, creates no file in an inode
that an open handle has, moves no handle of a deleted file, and stays within the arrays of the file
system: each request of its owner on a handle acts on the file that was opened, or is refused if
that file was deleted; requests of the other modules are refused; no handle is returned twice; and
its owner can close it. -/
theorem handles_denote_files (v : Volume) (es : List (FsRequest × UInt64))
    (hes : EveryStep (fun pre e => ((serving v).run pre).1.Allowed e.1 e.2) es) :
    EveryStep (fun pre e => Denoted ((serving v).run pre) e) es := by
  intro pre e hpre
  have htracked := tracked_of_runs v pre
    (hes.initial ((List.prefix_append pre [e]).trans hpre))
  obtain ⟨s', resp, heq, _, hdenotes⟩ := served htracked (hes pre e hpre)
  exact ⟨s', resp, heq, hdenotes⟩

def ask (cmd : FsCmd) (senderId : UInt8) (inode offset length : UInt32) (data : List UInt8) :
    FsRequest × UInt64 :=
  (⟨cmd, senderId, 0, inode, offset, length, Vector.ofFn fun k => data.getD k 0⟩, 0)

/-- module 1 creates "a" and "b", opens "b" and writes to it; module 2 cannot read there -/
def serveTwo : List (FsRequest × UInt64) :=
  [ask .create 1 0 0 0 [97], ask .create 1 0 0 0 [98], ask .openFile 1 0 0 0 [98],
    ask .write 1 0 0 2 [104, 105], ask .seek 1 0 0 0 [], ask .read 2 0 0 2 [],
    ask .read 1 0 0 2 [], ask .close 1 0 0 0 []]

theorem handles_denote_files_two :
    EveryStep (fun pre e => Denoted ((serving (newVolume 20)).run pre) e) serveTwo ∧
      ((serving (newVolume 20)).trace serveTwo).map (·.status) = [0, 0, 0, 0, 0, 7, 0, 0] := by
  refine ⟨handles_denote_files (newVolume 20) serveTwo ?_, by decide +kernel⟩
  exact (everyStep_iff _ _).mpr (by decide +kernel)

def openZero : List (FsRequest × UInt64) :=
  [ask .create 1 0 0 0 [97], ask .openFile 1 0 0 0 [97], ask .openFile 2 0 0 0 [97]]

def replaceOpen : List (FsRequest × UInt64) :=
  [ask .create 1 0 0 0 [97], ask .create 1 0 0 0 [98], ask .openFile 1 0 0 0 [98],
    ask .delete 1 0 0 0 [98], ask .create 2 0 0 0 [99], ask .read 1 0 0 2 []]

def seekDeleted : List (FsRequest × UInt64) :=
  [ask .create 1 0 0 0 [97], ask .create 1 0 0 0 [98], ask .openFile 1 0 0 0 [98],
    ask .delete 1 0 0 0 [98], ask .seek 1 0 4 0 []]

/-- the last request of `es` is on handle 0 of a deleted file, and yet it succeeds -/
theorem not_denoted_deleted {v : Volume} {es : List (FsRequest × UInt64)}
    (hg : ((serving v).run es).2.granted e.1.inode = some g) (howner : e.1.senderId = g.owner)
    (hfile : e.1.cmd.onFile)
    (hgone : ¬ ((serving v).run es).2.Present ((serving v).run es).1.vol g.file)
    (hstatus : ((serving v).outs ((serving v).run es) e).map (·.status) = [0]) :
    ¬ Denoted ((serving v).run es) e := by
  rintro ⟨s', resp, heq, hdenotes⟩
  have hrefused := ((hdenotes.acts g hg howner hfile).2 hgone).1
  rw [serving_outs heq] at hstatus
  exact hrefused (List.singleton_inj.mp hstatus)

/-- two modules get the same handle; the handle of a deleted file reads another one, and can still
be moved -/
theorem handles_confused :
    ¬ EveryStep (fun pre e => Denoted ((serving (newVolume 20)).run pre) e) openZero ∧
      ¬ EveryStep (fun pre e => Denoted ((serving (newVolume 20)).run pre) e) replaceOpen ∧
      ¬ EveryStep (fun pre e => Denoted ((serving (newVolume 20)).run pre) e) seekDeleted := by
  refine ⟨fun h => ?_, fun h => ?_, fun h => ?_⟩
  · obtain ⟨s', resp, heq, hdenotes⟩ := h (openZero.take 2) _ (List.prefix_refl openZero)
    have hresp : (((serving (newVolume 20)).run (openZero.take 2)).1.handleRequest
        (ask .openFile 2 0 0 0 [97]).1 (ask .openFile 2 0 0 0 [97]).2).map (fun r => (r.2.status, r.2.result)) =
          some (0, 0) := by
      decide +kernel
    have hopen : ((serving (newVolume 20)).run (openZero.take 2)).2.granted 0 =
        some ⟨1, ⟨0, 1⟩⟩ := by
      decide +kernel
    rw [heq] at hresp
    obtain ⟨hstatus, hresult⟩ := Prod.mk.inj (Option.some.inj hresp)
    have hfresh := hdenotes.fresh rfl hstatus
    rw [hresult, hopen] at hfresh
    cases hfresh
  · refine not_denoted_deleted (g := ⟨1, ⟨1, 1⟩⟩) ?_ rfl (.inl rfl) (fun hp => ?_) ?_
      (h (replaceOpen.take 5) _ (List.prefix_refl replaceOpen))
    · decide +kernel
    · exact absurd hp.2 (by decide +kernel)
    · decide +kernel
  · refine not_denoted_deleted (g := ⟨1, ⟨1, 1⟩⟩) ?_ rfl (.inr (.inr rfl)) (fun hp => ?_) ?_
      (h (seekDeleted.take 4) _ (List.prefix_refl seekDeleted))
    · decide +kernel
    · exact absurd hp.1 (by decide +kernel)
    · decide +kernel

end Fs
end EkKor
