import EkKor.Db.Types

/-!
# The key-value server (`ekkdb_kv.c`)

Calls of EKKFS do not fail, and a file has the content that was last written to it: a header, and
entries of 32 bytes behind it.

* `KvHeader`, `KvEntry`, `KvFile`   what is in a file;
* `KvState`, `KvStore`              the handles, with the files;
* `findKvEntry`                     the search for a key;
* `kvServerOpen`, `kvServerClose`, `kvServerGet`, `kvServerPut`, `kvServerDelete`   the calls.

The calls that search are `none` when the search does not end.
-/

namespace EkKor
namespace Db

/-! ## files -/

abbrev kvMagic : UInt32 := 0x454B4B56
abbrev kvMaxKeyLen : Nat := 14
abbrev kvMaxValueLen : Nat := 14
abbrev kvMaxNamespace : Nat := 12
abbrev kvFlagFree : UInt8 := 0
abbrev kvFlagUsed : UInt8 := 1
abbrev kvFlagDeleted : UInt8 := 2

/-- `ekkdb_kv_header_t` -/
structure KvHeader where
  magic : UInt32
  version : UInt32
  entryCount : UInt32
  maxEntries : UInt32
  ownerId : UInt8
  reserved : Vector UInt8 3
  created : UInt64
  modified : UInt64
  namespaceName : Vector UInt8 16
  crc32 : UInt32
  padding : Vector UInt8 12

open Packed in
def KvHeader.layout : Packed KvHeader :=
  ((array u32 4).pair ((bytes 1).pair ((bytes 3).pair (u64.pair (u64.pair ((bytes 16).pair
    (u32.pair (bytes 12)))))))).map
    (fun (v, ownerId, reserved, created, modified, namespaceName, crc32, padding) =>
      ⟨v[0], v[1], v[2], v[3], ownerId[0], reserved, created, modified, namespaceName, crc32,
        padding⟩)
    (fun h => (#v[h.magic, h.version, h.entryCount, h.maxEntries], #v[h.ownerId], h.reserved,
      h.created, h.modified, h.namespaceName, h.crc32, h.padding))
    (fun _ => rfl)

/-- `ekkdb_kv_entry_t` -/
structure KvEntry where
  key : Vector UInt8 15
  flags : UInt8
  valueLen : UInt8
  value : Vector UInt8 14
  reserved : UInt8

def KvEntry.empty : KvEntry := ⟨Vector.replicate 15 0, kvFlagFree, 0, Vector.replicate 14 0, 0⟩

structure KvFile where
  header : KvHeader
  entries : UInt32 → KvEntry

/-- `ekkdb_header_crc` of the header without its padding: the bytes before the checksum -/
def headerCrc (h : KvHeader) : UInt32 := Fs.crc32 ((KvHeader.layout.encode h).take 52)

def KvHeader.sealed (h : KvHeader) : KvHeader := { h with crc32 := headerCrc h }

/-! ## the server -/

/-- `ekkdb_kv_state_t` -/
structure KvState where
  inUse : Bool
  ownerId : UInt8
  namespaceName : Vector UInt8 13
  filename : List UInt8
  header : KvHeader
  dirty : Bool

def KvState.zero : KvState :=
  ⟨false, 0, Vector.replicate 13 0, [], ⟨0, 0, 0, 0, 0, Vector.replicate 3 0, 0, 0,
    Vector.replicate 16 0, 0, Vector.replicate 12 0⟩, false⟩

/-- the files of EKKFS, and `g_kv_handles` -/
structure KvStore where
  files : List UInt8 → Option KvFile
  handles : Nat → KvState

/-- `ekkdb_hash`; a char is unsigned -/
def ekkdbHash (key : List UInt8) : UInt32 :=
  key.foldl (fun (hash : UInt32) (c : UInt8) => (hash <<< 5) + hash + c.toUInt32) 5381

/-- `build_kv_filename`: `"kv_"`, at most eight bytes of the name, `".dat"` -/
def buildKvFilename (namespaceName : List UInt8) : List UInt8 :=
  [0x6B, 0x76, 0x5F] ++ namespaceName.take 8 ++ [0x2E, 0x64, 0x61, 0x74]

/-- the loop of `find_kv_entry`, with at most `fuel` rounds; `firstFree` is none for -1 -/
def probeLoop (entries : UInt32 → KvEntry) (maxEntries startIdx : UInt32) (key : List UInt8) :
    Nat → UInt32 → Option UInt32 → Option (Option UInt32 × Option UInt32)
  | 0, _, _ => none
  | fuel + 1, idx, firstFree =>
    let entry := entries idx
    if entry.flags = kvFlagFree then some (none, firstFree.or (some idx))
    else if entry.flags = kvFlagUsed ∧ Fs.Volume.strncmpEq 15 entry.key.toList key = true then
      some (some idx, firstFree)
    else
      let firstFree := if entry.flags = kvFlagDeleted then firstFree.or (some idx) else firstFree
      let idx := (idx + 1) % maxEntries
      if idx ≠ startIdx then probeLoop entries maxEntries startIdx key fuel idx firstFree
      else some (none, firstFree)

/-- `find_kv_entry`: the index of the key, and the slot for it if it is not there; `none` when the
search does not end, or the table has no slots -/
def findKvEntry (file : KvFile) (maxEntries : UInt32) (key : List UInt8) :
    Option (Option UInt32 × Option UInt32) :=
  if maxEntries = 0 then none
  else
    let startIdx := ekkdbHash key % maxEntries
    probeLoop file.entries maxEntries startIdx key maxEntries.toNat startIdx none

/-- the entry that `ekkdb_kv_server_put` writes -/
def newEntry (key value : List UInt8) : KvEntry where
  key := fieldOf 15 14 key
  flags := kvFlagUsed
  valueLen := UInt8.ofNat value.length
  value := fieldOf 14 14 value
  reserved := 0

namespace KvStore

def setHandle (s : KvStore) (handle : Nat) (state : KvState) : KvStore :=
  { s with handles := Function.update s.handles handle state }

def setFile (s : KvStore) (filename : List UInt8) (file : KvFile) : KvStore :=
  { s with files := Function.update s.files filename (some file) }

/-- `write_kv_entry` -/
def writeKvEntry (s : KvStore) (filename : List UInt8) (file : KvFile) (index : UInt32)
    (entry : KvEntry) : KvStore :=
  s.setFile filename { file with entries := Function.update file.entries index entry }

/-- `ekkdb_kv_server_open` -/
def kvServerOpen (p : Platform) (s : KvStore) (namespaceName : List UInt8) (ownerId : UInt8)
    (now : UInt64) : Except DbErr Nat × KvStore :=
  if namespaceName.length = 0 then (.error .invalid, s)
  else if namespaceName.length > kvMaxNamespace then (.error .invalid, s)
  else
    match (List.range p.maxKvHandles).find? fun i => !(s.handles i).inUse with
    | none => (.error .full, s)
    | some handle =>
      let state : KvState :=
        { KvState.zero with
          ownerId := ownerId
          namespaceName := fieldOf 13 kvMaxNamespace namespaceName
          filename := buildKvFilename namespaceName }
      match s.files state.filename with
      | some file =>
        let state := { state with header := file.header }
        if file.header.magic ≠ kvMagic then (.error .corrupt, s.setHandle handle state)
        else if headerCrc file.header ≠ file.header.crc32 then
          (.error .corrupt, s.setHandle handle state)
        else (.ok handle, s.setHandle handle { state with inUse := true })
      | none =>
        let header := KvHeader.sealed
          { KvState.zero.header with
            magic := kvMagic
            version := 1
            entryCount := 0
            maxEntries := p.kvMaxEntries
            ownerId := ownerId
            created := now
            modified := now
            namespaceName := fieldOf 16 15 namespaceName }
        (.ok handle, (s.setFile state.filename ⟨header, fun _ => KvEntry.empty⟩).setHandle handle
          { state with header := header, inUse := true })

def isOpen (p : Platform) (s : KvStore) (handle : Nat) : Bool :=
  decide (handle < p.maxKvHandles) && (s.handles handle).inUse

/-- `ekkdb_kv_server_close` -/
def kvServerClose (p : Platform) (s : KvStore) (handle : Nat) (now : UInt64) :
    Except DbErr Unit × KvStore :=
  if !s.isOpen p handle then (.error .invalid, s)
  else
    let state := s.handles handle
    if state.dirty then
      let header := KvHeader.sealed { state.header with modified := now }
      let s := match s.files state.filename with
        | some file => s.setFile state.filename { file with header := header }
        | none => s
      (.ok (), s.setHandle handle { state with header := header, inUse := false })
    else (.ok (), s.setHandle handle { state with inUse := false })

/-- `ekkdb_kv_server_get` into a buffer of `len` bytes: what is copied, and the length of the
value -/
def kvServerGet (p : Platform) (s : KvStore) (handle : Nat) (key : List UInt8) (len : Nat) :
    Option (Except DbErr (List UInt8 × Nat)) :=
  if !s.isOpen p handle then some (.error .notOpen)
  else if key.length > kvMaxKeyLen then some (.error .invalid)
  else if len = 0 then some (.error .invalid)
  else
    let state := s.handles handle
    match s.files state.filename with
    | none => some (.error .notFound)
    | some file =>
      (findKvEntry file state.header.maxEntries key).map fun
        | (none, _) => .error .notFound
        | (some idx, _) =>
          let entry := file.entries idx
          .ok (entry.value.toList.take (min entry.valueLen.toNat len), entry.valueLen.toNat)

/-- `ekkdb_kv_server_put` -/
def kvServerPut (p : Platform) (s : KvStore) (handle : Nat) (key value : List UInt8)
    (now : UInt64) : Option (Except DbErr Unit × KvStore) :=
  if !s.isOpen p handle then some (.error .notOpen, s)
  else if key.length > kvMaxKeyLen then some (.error .keyTooLong, s)
  else if value.length > kvMaxValueLen then some (.error .valueTooBig, s)
  else
    let state := s.handles handle
    match s.files state.filename with
    | none =>
      -- the search fails and leaves `free_slot` 0; then the file cannot be opened
      if state.header.entryCount ≥ state.header.maxEntries then some (.error .full, s)
      else some (.error .io, s)
    | some file =>
      (findKvEntry file state.header.maxEntries key).map fun
        | (some idx, _) =>
          (.ok (), (s.writeKvEntry state.filename file idx (newEntry key value)).setHandle handle
            { state with header := { state.header with modified := now }, dirty := true })
        | (none, none) => (.error .full, s)
        | (none, some freeSlot) =>
          if state.header.entryCount ≥ state.header.maxEntries then (.error .full, s)
          else
            (.ok (), (s.writeKvEntry state.filename file freeSlot
                (newEntry key value)).setHandle handle
              { state with
                header := { state.header with
                  entryCount := state.header.entryCount + 1
                  modified := now }
                dirty := true })

/-- `ekkdb_kv_server_delete` -/
def kvServerDelete (p : Platform) (s : KvStore) (handle : Nat) (key : List UInt8)
    (now : UInt64) : Option (Except DbErr Unit × KvStore) :=
  if !s.isOpen p handle then some (.error .notOpen, s)
  else if key.length > kvMaxKeyLen then some (.error .invalid, s)
  else
    let state := s.handles handle
    match s.files state.filename with
    | none => some (.error .notFound, s)
    | some file =>
      (findKvEntry file state.header.maxEntries key).map fun
        | (none, _) => (.error .notFound, s)
        | (some idx, _) =>
          (.ok (), (s.writeKvEntry state.filename file idx
              { file.entries idx with flags := kvFlagDeleted }).setHandle handle
            { state with
              header := { state.header with
                entryCount := state.header.entryCount - 1
                modified := now }
              dirty := true })

end KvStore
end Db
end EkKor
