import EkKor.Fs.Volume

/-!
# The file server (`fs_server.c`)

* `FsRequest`, `FsResponse`     the messages, for the seven commands on files and handles;
* `FsServer`                    the volume and the table of open files;
* `FsServer.handleRequest`      `fs_server_handle_request`.

A result is `none` when a call of the file system leaves one of its arrays.
-/

namespace EkKor
namespace Fs

/-! ## messages -/

/-- the commands on files and handles -/
inductive FsCmd where
  | openFile
  | close
  | read
  | write
  | create
  | delete
  | seek
  deriving DecidableEq

/-- `ekkfs_request_t` -/
structure FsRequest where
  cmd : FsCmd
  senderId : UInt8
  reqId : UInt16
  inode : UInt32
  offset : UInt32
  length : UInt32
  data : Vector UInt8 48

/-- `ekkfs_response_t` -/
structure FsResponse where
  status : UInt8
  cmd : FsCmd
  reqId : UInt16
  result : UInt32
  data : Vector UInt8 56
  deriving DecidableEq

/-- `(uint8_t)(-result)` -/
def FsErr.status : FsErr → UInt8
  | .io => 1
  | .corrupt => 2
  | .notFound => 3
  | .exists => 4
  | .full => 5
  | .noInodes => 6
  | .invalid => 7
  | .notMounted => 8
  | .nameTooLong => 9
  | .permission => 10

theorem FsErr.status_ne_zero (e : FsErr) : e.status ≠ 0 := by
  cases e <;> decide

/-- the string in `data`; one without a terminating zero is longer than any file name, wherever
`strlen` ends -/
def FsRequest.name (req : FsRequest) : List UInt8 := req.data.toList.takeWhile (· ≠ 0)

def FsRequest.buffer (req : FsRequest) (k : Nat) : UInt8 := req.data.toList.getD k 0

def FsRequest.writeLength (req : FsRequest) : UInt32 := if req.length > 48 then 48 else req.length

def FsRequest.readLength (req : FsRequest) : UInt32 := if req.length > 56 then 56 else req.length

namespace FsResponse

def init (req : FsRequest) : FsResponse :=
  ⟨0, req.cmd, req.reqId, 0, Vector.replicate 56 0⟩

def ok (req : FsRequest) (result : UInt32) : FsResponse := { init req with result := result }

def fail (req : FsRequest) (e : FsErr) : FsResponse := { init req with status := e.status }

def okData (req : FsRequest) (bytes : List UInt8) : FsResponse :=
  { ok req (UInt32.ofNat bytes.length) with data := Vector.ofFn fun k => bytes.getD k 0 }

end FsResponse

/-! ## open files -/

/-- `FS_MAX_OPEN_FILES` -/
abbrev maxOpenFiles : Nat := 16

structure FsServer where
  vol : Volume
  /-- `g_open_files` -/
  openFiles : Fin maxOpenFiles → File
  /-- `g_open_file_owners` -/
  openFileOwners : Fin maxOpenFiles → UInt8

namespace FsServer

/-- the tables after `fs_server_init` -/
def init (vol : Volume) : FsServer := ⟨vol, fun _ => ⟨0, 0, 0⟩, fun _ => 0⟩

def withVol (s : FsServer) (vol : Volume) : FsServer := { s with vol := vol }

def withFile (s : FsServer) (h : Fin maxOpenFiles) (file : File) : FsServer :=
  { s with openFiles := Function.update s.openFiles h file }

/-- `alloc_file_handle` -/
def allocFileHandle (s : FsServer) (ownerId : UInt8) : Option (Fin maxOpenFiles × FsServer) :=
  ((List.finRange maxOpenFiles).find? fun i => decide ((s.openFiles i).inodeNum = 0)).map fun i =>
    (i, { s with openFileOwners := Function.update s.openFileOwners i ownerId })

/-- `free_file_handle` -/
def freeFileHandle (s : FsServer) (h : Fin maxOpenFiles) : FsServer :=
  { s with
    openFiles := Function.update s.openFiles h ⟨0, 0, 0⟩
    openFileOwners := Function.update s.openFileOwners h 0 }

/-- `get_file_handle`: the place in the table, if the owner may use it; a handle from 2^31 on is a
negative int -/
def getFileHandle (s : FsServer) (handle : UInt32) (ownerId : UInt8) :
    Option (Fin maxOpenFiles) :=
  if h : handle.toNat < maxOpenFiles then
    if (s.openFiles ⟨handle.toNat, h⟩).inodeNum = 0 then none
    else if ownerId ≠ 0 ∧ s.openFileOwners ⟨handle.toNat, h⟩ ≠ ownerId then none
    else some ⟨handle.toNat, h⟩
  else none

/-! ## requests -/

/-- `handle_create`; `now` from `ekkfs_get_time_us` -/
def handleCreate (s : FsServer) (req : FsRequest) (now : UInt64) : FsServer × FsResponse :=
  match s.vol.create req.name req.senderId.toUInt32 req.offset now with
  | (.ok inodeNum, vol) => (s.withVol vol, .ok req inodeNum)
  | (.error e, vol) => (s.withVol vol, .fail req e)

/-- `handle_delete` -/
def handleDelete (s : FsServer) (req : FsRequest) : Option (FsServer × FsResponse) :=
  (s.vol.delete req.name req.senderId.toUInt32).map fun
    | (.ok (), vol) => (s.withVol vol, .ok req 0)
    | (.error e, vol) => (s.withVol vol, .fail req e)

/-- `handle_open` -/
def handleOpen (s : FsServer) (req : FsRequest) : FsServer × FsResponse :=
  match s.allocFileHandle req.senderId with
  | none => (s, .fail req .full)
  | some (h, s) =>
    match s.vol.openFile req.name with
    | .ok file => (s.withFile h file, .ok req (UInt32.ofNat h.val))
    | .error e => (s.freeFileHandle h, .fail req e)

/-- `handle_close`; `ekkfs_close` clears the file, like `free_file_handle` after it -/
def handleClose (s : FsServer) (req : FsRequest) : FsServer × FsResponse :=
  match s.getFileHandle req.inode req.senderId with
  | none => (s, .fail req .invalid)
  | some h => ((s.withFile h ⟨0, 0, 0⟩).freeFileHandle h, .ok req 0)

/-- `handle_read` -/
def handleRead (s : FsServer) (req : FsRequest) : Option (FsServer × FsResponse) :=
  match s.getFileHandle req.inode req.senderId with
  | none => some (s, .fail req .invalid)
  | some h =>
    (s.vol.read (s.openFiles h) req.readLength).map fun
      | (.ok bytes, file) => (s.withFile h file, .okData req bytes)
      | (.error e, file) => (s.withFile h file, .fail req e)

/-- `handle_write` -/
def handleWrite (s : FsServer) (req : FsRequest) (now : UInt64) :
    Option (FsServer × FsResponse) :=
  match s.getFileHandle req.inode req.senderId with
  | none => some (s, .fail req .invalid)
  | some h =>
    (s.vol.write (s.openFiles h) req.buffer req.writeLength req.senderId.toUInt32 now).map fun
      | (.ok count, vol, file) => ((s.withVol vol).withFile h file, .ok req (UInt32.ofNat count))
      | (.error e, vol, file) => ((s.withVol vol).withFile h file, .fail req e)

/-- `handle_seek` -/
def handleSeek (s : FsServer) (req : FsRequest) : FsServer × FsResponse :=
  match s.getFileHandle req.inode req.senderId with
  | none => (s, .fail req .invalid)
  | some h => (s.withFile h { s.openFiles h with position := req.offset }, .ok req req.offset)

/-- `fs_server_handle_request` -/
def handleRequest (s : FsServer) (req : FsRequest) (now : UInt64) :
    Option (FsServer × FsResponse) :=
  match req.cmd with
  | .create => some (s.handleCreate req now)
  | .delete => s.handleDelete req
  | .openFile => some (s.handleOpen req)
  | .close => some (s.handleClose req)
  | .read => s.handleRead req
  | .write => s.handleWrite req now
  | .seek => some (s.handleSeek req)

end FsServer
end Fs
end EkKor
