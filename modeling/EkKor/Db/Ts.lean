import EkKor.Db.RingFile

/-!
# The time-series server (`ekkdb_ts.c`)

Calls of EKKFS do not fail, and a file has the content that was last written to it: a header, and
a record in each slot behind it.

* `TsHeader`, `TsRecord`, `TsFile`        what is in a file;
* `TsState`, `TsIter`, `TsStore`          the handles and iterators, with the files;
* `tsServerOpen`, `tsServerClose`, `tsServerAppend`   the records;
* `tsServerQuery`, `tsServerNext`         the records in a range of time.
-/

namespace EkKor
namespace Db

/-! ## files -/

abbrev tsMagic : UInt32 := 0x454B5453
abbrev tsMaxMetricLen : Nat := 8
/-- `EKKDB_COMPACT_INTERVAL` -/
abbrev compactInterval : UInt32 := 64

/-- `ekkdb_ts_header_t` -/
structure TsHeader where
  magic : UInt32
  version : UInt32
  ring : RingIndex
  moduleId : UInt8
  reserved : Vector UInt8 3
  metric : Vector UInt8 12
  oldestTimestamp : UInt64
  newestTimestamp : UInt64
  crc32 : UInt32

def TsHeader.zero : TsHeader :=
  ⟨0, 0, RingIndex.empty 0, 0, Vector.replicate 3 0, Vector.replicate 12 0, 0, 0, 0⟩

/-- the positions in the words and in the bytes of the header -/
local instance instNeZeroWords : NeZero 6 := ⟨by decide⟩
local instance instNeZeroBytes : NeZero 1 := ⟨by decide⟩

open Packed in
def TsHeader.fields : Packed (Vector UInt32 6 × Vector UInt8 1 × Vector UInt8 3 ×
    Vector UInt8 12 × UInt64 × UInt64) :=
  (array u32 6).pair ((bytes 1).pair ((bytes 3).pair ((bytes 12).pair (u64.pair u64))))

open Packed in
def TsHeader.layout : Packed TsHeader :=
  (fields.pair u32).map
    (fun ((v, moduleId, reserved, metric, oldest, newest), crc32) =>
      ⟨v.get 0, v.get 1, ⟨v.get 2, v.get 3, v.get 4, v.get 5⟩, moduleId.get 0, reserved, metric,
        oldest, newest, crc32⟩)
    (fun h => ((#v[h.magic, h.version, h.ring.head, h.ring.tail, h.ring.count, h.ring.max],
      #v[h.moduleId], h.reserved, h.metric, h.oldestTimestamp, h.newestTimestamp), h.crc32))
    (fun _ => rfl)

def tsHeaderCrc (h : TsHeader) : UInt32 := Fs.crc32 ((TsHeader.layout.encode h).take 56)

def TsHeader.sealed (h : TsHeader) : TsHeader := { h with crc32 := tsHeaderCrc h }

theorem tsHeaderCrc_sealed (h : TsHeader) : tsHeaderCrc h.sealed = h.sealed.crc32 := by
  have htake (h : TsHeader) : (TsHeader.layout.encode h).take 56 =
      TsHeader.fields.encode (#v[h.magic, h.version, h.ring.head, h.ring.tail, h.ring.count,
        h.ring.max], #v[h.moduleId], h.reserved, h.metric, h.oldestTimestamp, h.newestTimestamp) :=
    Packed.take_pair TsHeader.fields Packed.u32 (_, h.crc32)
  show _ = tsHeaderCrc h
  unfold tsHeaderCrc
  rw [htake, htake]
  rfl

/-- `ekkdb_ts_record_t` -/
structure TsRecord where
  timestamp : UInt64
  voltageMv : Int32
  currentMa : Int32
  tempMc : Int32
  powerMw : Int32
  flags : UInt16
  moduleId : UInt16
  deriving DecidableEq

def TsRecord.empty : TsRecord := ⟨0, 0, 0, 0, 0, 0, 0⟩

structure TsFile where
  header : TsHeader
  records : UInt32 → TsRecord

/-! ## the server -/

/-- `ekkdb_ts_state_t` -/
structure TsState where
  inUse : Bool
  moduleId : UInt8
  metric : Vector UInt8 9
  filename : List UInt8
  header : TsHeader
  dirty : Bool

def TsState.zero : TsState := ⟨false, 0, Vector.replicate 9 0, [], TsHeader.zero, false⟩

/-- `ekkdb_ts_iter_state_t` -/
structure TsIter where
  inUse : Bool
  tsHandle : Nat
  startUs : UInt64
  endUs : UInt64
  currentIdx : UInt32
  recordsReturned : UInt32

def TsIter.zero : TsIter := ⟨false, 0, 0, 0, 0, 0⟩

def TsIter.inRange (iter : TsIter) (r : TsRecord) : Bool :=
  decide (r.timestamp ≥ iter.startUs ∧ r.timestamp ≤ iter.endUs)

def TsIter.pastEnd (iter : TsIter) (r : TsRecord) : Bool := decide (r.timestamp > iter.endUs)

/-- the files of EKKFS, `g_ts_handles` and `g_ts_iterators` -/
structure TsStore where
  files : List UInt8 → Option TsFile
  handles : Nat → TsState
  iterators : Nat → TsIter

def digit (n : Nat) : UInt8 := 0x30 + UInt8.ofNat n

def idDigits (moduleId : UInt8) : List UInt8 :=
  let n := moduleId.toNat
  if n ≥ 100 then [digit (n / 100), digit (n / 10 % 10), digit (n % 10)]
  else if n ≥ 10 then [digit (n / 10), digit (n % 10)]
  else [digit n]

/-- `build_ts_filename`: `"ts_m"`, the id, `"_"`, the metric, `".dat"`, in 15 bytes -/
def buildTsFilename (moduleId : UInt8) (metric : List UInt8) : List UInt8 :=
  let start := [0x74, 0x73, 0x5F, 0x6D] ++ idDigits moduleId ++ [0x5F]
  start ++ metric.take (15 - start.length - 4) ++ [0x2E, 0x64, 0x61, 0x74]

namespace TsStore

def setHandle (s : TsStore) (handle : Nat) (state : TsState) : TsStore :=
  { s with handles := Function.update s.handles handle state }

def setFile (s : TsStore) (filename : List UInt8) (file : TsFile) : TsStore :=
  { s with files := Function.update s.files filename (some file) }

def setIter (s : TsStore) (iterHandle : Nat) (iter : TsIter) : TsStore :=
  { s with iterators := Function.update s.iterators iterHandle iter }

/-- `ekkdb_ts_server_open` -/
def tsServerOpen (p : Platform) (s : TsStore) (moduleId : UInt8) (metric : List UInt8) :
    Except DbErr Nat × TsStore :=
  if metric.length = 0 then (.error .invalid, s)
  else if metric.length > tsMaxMetricLen then (.error .invalid, s)
  else
    match (List.range p.maxTsHandles).find? fun i => !(s.handles i).inUse with
    | none => (.error .full, s)
    | some handle =>
      let state : TsState :=
        { TsState.zero with
          filename := buildTsFilename moduleId metric
          moduleId := moduleId
          metric := fieldOf 9 tsMaxMetricLen metric }
      match s.files state.filename with
      | some file =>
        let state := { state with header := file.header }
        if file.header.magic ≠ tsMagic then (.error .corrupt, s.setHandle handle state)
        else if tsHeaderCrc file.header ≠ file.header.crc32 then
          (.error .corrupt, s.setHandle handle state)
        else (.ok handle, s.setHandle handle { state with inUse := true })
      | none =>
        let header := TsHeader.sealed
          { TsHeader.zero with
            magic := tsMagic
            version := 1
            ring := RingIndex.empty p.tsMaxRecords
            moduleId := moduleId
            metric := fieldOf 12 11 metric }
        (.ok handle, (s.setFile state.filename ⟨header, fun _ => TsRecord.empty⟩).setHandle handle
          { state with header := header, inUse := true })

def isOpen (p : Platform) (s : TsStore) (handle : Nat) : Bool :=
  decide (handle < p.maxTsHandles) && (s.handles handle).inUse

/-- `ekkdb_ts_server_close` -/
def tsServerClose (p : Platform) (s : TsStore) (handle : Nat) : Except DbErr Unit × TsStore :=
  if !s.isOpen p handle then (.error .invalid, s)
  else
    let state := s.handles handle
    let iterators i :=
      if i < p.maxTsHandles * 2 ∧ (s.iterators i).tsHandle = handle then
        { s.iterators i with inUse := false }
      else s.iterators i
    if state.dirty then
      let header := state.header.sealed
      let s := match s.files state.filename with
        | some file => s.setFile state.filename { file with header := header }
        | none => s
      (.ok (), { s.setHandle handle { state with header := header, inUse := false } with
        iterators := iterators })
    else
      (.ok (), { s.setHandle handle { state with inUse := false } with iterators := iterators })

/-- `ekkdb_ts_server_append` -/
def tsServerAppend (p : Platform) (s : TsStore) (handle : Nat) (record : TsRecord) :
    Except DbErr Unit × TsStore :=
  if !s.isOpen p handle then (.error .notOpen, s)
  else
    let state := s.handles handle
    match s.files state.filename with
    | none => (.error .io, s)
    | some file =>
      let ring := state.header.ring
      let records := Function.update file.records ring.head record
      let timestamps := ring.timestamps (fun i => (records i).timestamp)
        state.header.oldestTimestamp state.header.newestTimestamp record.timestamp
      let header :=
        { state.header with
          ring := ring.advance
          oldestTimestamp := timestamps.1
          newestTimestamp := timestamps.2 }
      -- the header is written from time to time
      if header.ring.count % compactInterval = 0 then
        let header := header.sealed
        (.ok (), (s.setFile state.filename ⟨header, records⟩).setHandle handle
          { state with header := header, dirty := false })
      else
        (.ok (), (s.setFile state.filename { file with records := records }).setHandle handle
          { state with header := header, dirty := true })

/-- `ekkdb_ts_server_next` -/
def tsServerNext (p : Platform) (s : TsStore) (iterHandle : Nat) :
    Except DbErr TsRecord × TsStore :=
  if !(decide (iterHandle < p.maxTsHandles * 2) && (s.iterators iterHandle).inUse) then
    (.error .invalid, s)
  else
    let iter := s.iterators iterHandle
    let state := s.handles iter.tsHandle
    if !state.inUse then (.error .notOpen, s)
    else if iter.recordsReturned < state.header.ring.count then
      match s.files state.filename with
      | none => (.error .io, s)
      | some file =>
        let (found, idx, returned) := nextLoop file.records state.header.ring.max iter.inRange
          iter.pastEnd (state.header.ring.count.toNat - iter.recordsReturned.toNat)
          iter.currentIdx iter.recordsReturned
        (nextResult found,
          s.setIter iterHandle { iter with currentIdx := idx, recordsReturned := returned })
    else (.error .notFound, s)

end TsStore
end Db
end EkKor
