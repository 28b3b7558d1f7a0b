import EkKor.Db.RingFile

/-!
# The event log (`ekkdb_log.c`)

There is one log, in the file `log_event.dat`, and one handle for it. Calls of EKKFS do not fail, and
the file has the content that was last written to it: a header, and an event in each slot behind it.

* `LogHeader`, `Event`, `LogFile`         what is in the file;
* `LogState`, `LogIter`, `LogStore`       the handle and the iterators, with the file;
* `logServerOpen`, `logServerClose`, `logServerWrite`   the events;
* `logServerQuery`, `logServerNext`       the events that match a filter.
-/

namespace EkKor
namespace Db

/-! ## the file -/

abbrev logMagic : UInt32 := 0x454B4C47
abbrev sevDebug : UInt8 := 0
abbrev logFlushInterval : UInt32 := 8
abbrev maxLogIterators : Nat := 4

/-- `ekkdb_log_header_t` -/
structure LogHeader where
  magic : UInt32
  version : UInt32
  ring : RingIndex
  nextSequence : UInt32
  reserved : UInt32
  oldestTimestamp : UInt64
  newestTimestamp : UInt64
  crc32 : UInt32
  padding : Vector UInt8 12

def LogHeader.zero : LogHeader :=
  ⟨0, 0, RingIndex.empty 0, 0, 0, 0, 0, 0, Vector.replicate 12 0⟩

open Packed in
def LogHeader.fields : Packed (Vector UInt32 8 × UInt64 × UInt64) :=
  (array u32 8).pair (u64.pair u64)

open Packed in
def LogHeader.layout : Packed LogHeader :=
  (fields.pair (u32.pair (bytes 12))).map
    (fun ((v, oldest, newest), crc32, padding) =>
      ⟨v.get 0, v.get 1, ⟨v.get 2, v.get 3, v.get 4, v.get 5⟩, v.get 6, v.get 7, oldest, newest,
        crc32, padding⟩)
    (fun h => ((#v[h.magic, h.version, h.ring.head, h.ring.tail, h.ring.count, h.ring.max,
      h.nextSequence, h.reserved], h.oldestTimestamp, h.newestTimestamp), h.crc32, h.padding))
    (fun _ => rfl)

def logHeaderCrc (h : LogHeader) : UInt32 := Fs.crc32 ((LogHeader.layout.encode h).take 48)

def LogHeader.sealed (h : LogHeader) : LogHeader := { h with crc32 := logHeaderCrc h }

theorem logHeaderCrc_sealed (h : LogHeader) : logHeaderCrc h.sealed = h.sealed.crc32 := by
  have htake (h : LogHeader) : (LogHeader.layout.encode h).take 48 =
      LogHeader.fields.encode (#v[h.magic, h.version, h.ring.head, h.ring.tail, h.ring.count,
        h.ring.max, h.nextSequence, h.reserved], h.oldestTimestamp, h.newestTimestamp) :=
    Packed.take_pair LogHeader.fields (Packed.u32.pair (Packed.bytes 12)) (_, h.crc32, h.padding)
  show _ = logHeaderCrc h
  unfold logHeaderCrc
  rw [htake, htake]
  rfl

/-- `ekkdb_event_t` -/
structure Event where
  timestamp : UInt64
  sequence : UInt32
  severity : UInt8
  sourceType : UInt8
  sourceId : UInt8
  eventType : UInt8
  eventCode : UInt32
  param1 : UInt32
  param2 : UInt32
  message : Vector UInt8 32
  crc32 : UInt32

def Event.empty : Event := ⟨0, 0, 0, 0, 0, 0, 0, 0, 0, Vector.replicate 32 0, 0⟩

open Packed in
def Event.fields : Packed (UInt64 × UInt32 × Vector UInt8 4 × Vector UInt32 3 × Vector UInt8 32) :=
  u64.pair (u32.pair ((bytes 4).pair ((array u32 3).pair (bytes 32))))

open Packed in
def Event.layout : Packed Event :=
  (fields.pair u32).map
    (fun ((timestamp, sequence, b, v, message), crc32) =>
      ⟨timestamp, sequence, b.get 0, b.get 1, b.get 2, b.get 3, v.get 0, v.get 1, v.get 2, message,
        crc32⟩)
    (fun e => ((e.timestamp, e.sequence, #v[e.severity, e.sourceType, e.sourceId, e.eventType],
      #v[e.eventCode, e.param1, e.param2], e.message), e.crc32))
    (fun _ => rfl)

def eventCrc (e : Event) : UInt32 := Fs.crc32 ((Event.layout.encode e).take 60)

/-- the event as it is written: with a time, the next sequence number and the checksum -/
def Event.stamp (e : Event) (sequence : UInt32) (now : UInt64) : Event :=
  let e := { e with
    timestamp := if e.timestamp = 0 then now else e.timestamp
    sequence := sequence }
  { e with crc32 := eventCrc e }

structure LogFile where
  header : LogHeader
  events : UInt32 → Event

/-! ## the server -/

/-- `ekkdb_log_filter_t` -/
structure LogFilter where
  startUs : UInt64
  endUs : UInt64
  minSeverity : UInt8
  sourceType : UInt8
  sourceId : UInt8

def LogFilter.all : LogFilter := ⟨0, 0, sevDebug, 0xFF, 0xFF⟩

/-- `event_matches_filter` -/
def eventMatchesFilter (filter : LogFilter) (event : Event) : Bool :=
  if filter.startUs > 0 ∧ event.timestamp < filter.startUs then false
  else if filter.endUs > 0 ∧ event.timestamp > filter.endUs then false
  else if event.severity < filter.minSeverity then false
  else if filter.sourceType ≠ 0xFF ∧ event.sourceType ≠ filter.sourceType then false
  else if filter.sourceId ≠ 0xFF ∧ event.sourceId ≠ filter.sourceId then false
  else true

/-- `ekkdb_log_state_t` -/
structure LogState where
  inUse : Bool
  header : LogHeader
  dirty : Bool

/-- `ekkdb_log_iter_state_t` -/
structure LogIter where
  inUse : Bool
  filter : LogFilter
  currentIdx : UInt32
  eventsReturned : UInt32

/-- the file of the log, `g_log_handle` and `g_log_iterators` -/
structure LogStore where
  file : Option LogFile
  handle : LogState
  iterators : Nat → LogIter

namespace LogStore

def setIter (s : LogStore) (iterHandle : Nat) (iter : LogIter) : LogStore :=
  { s with iterators := Function.update s.iterators iterHandle iter }

/-- `ekkdb_log_server_open` -/
def logServerOpen (p : Platform) (s : LogStore) : Except DbErr Nat × LogStore :=
  if s.handle.inUse then (.ok 0, s)
  else
    match s.file with
    | some file =>
      let handle : LogState := ⟨false, file.header, false⟩
      if file.header.magic ≠ logMagic then (.error .corrupt, { s with handle := handle })
      else if logHeaderCrc file.header ≠ file.header.crc32 then
        (.error .corrupt, { s with handle := handle })
      else (.ok 0, { s with handle := { handle with inUse := true } })
    | none =>
      let header := LogHeader.sealed
        { LogHeader.zero with
          magic := logMagic
          version := 1
          ring := RingIndex.empty p.logMaxEvents
          nextSequence := 1 }
      (.ok 0, { s with file := some ⟨header, fun _ => Event.empty⟩, handle := ⟨true, header, false⟩ })

/-- `ekkdb_log_server_close` -/
def logServerClose (s : LogStore) (handle : Nat) : Except DbErr Unit × LogStore :=
  if handle ≠ 0 ∨ !s.handle.inUse then (.error .invalid, s)
  else
    let iterators i :=
      if i < maxLogIterators then { s.iterators i with inUse := false } else s.iterators i
    if s.handle.dirty then
      let header := s.handle.header.sealed
      (.ok (),
        { file := s.file.map fun file => { file with header := header }
          handle := { s.handle with inUse := false, header := header }
          iterators := iterators })
    else (.ok (), { s with handle := { s.handle with inUse := false }, iterators := iterators })

/-- `ekkdb_log_server_write` -/
def logServerWrite (s : LogStore) (handle : Nat) (event : Event) (now : UInt64) :
    Except DbErr Unit × LogStore :=
  if handle ≠ 0 ∨ !s.handle.inUse then (.error .notOpen, s)
  else
    let state := s.handle
    let evt := event.stamp state.header.nextSequence now
    let header := { state.header with nextSequence := state.header.nextSequence + 1 }
    match s.file with
    -- the number is taken even when the event cannot be written
    | none => (.error .io, { s with handle := { state with header := header } })
    | some file =>
      let ring := header.ring
      let events := Function.update file.events ring.head evt
      let timestamps := ring.timestamps (fun i => (events i).timestamp) header.oldestTimestamp
        header.newestTimestamp evt.timestamp
      let header :=
        { header with
          ring := ring.advance
          oldestTimestamp := timestamps.1
          newestTimestamp := timestamps.2 }
      if header.ring.count % logFlushInterval = 0 then
        let header := header.sealed
        (.ok (), { s with
          file := some ⟨header, events⟩
          handle := { state with header := header, dirty := false } })
      else
        (.ok (), { s with
          file := some { file with events := events }
          handle := { state with header := header, dirty := true } })

def returned (filter : LogFilter) (event : Event) : Bool :=
  eventMatchesFilter filter event && decide (eventCrc event = event.crc32)

/-- `ekkdb_log_server_next` -/
def logServerNext (s : LogStore) (iterHandle : Nat) : Except DbErr Event × LogStore :=
  if !(decide (iterHandle < maxLogIterators) && (s.iterators iterHandle).inUse) then
    (.error .invalid, s)
  else if !s.handle.inUse then (.error .notOpen, s)
  else
    let iter := s.iterators iterHandle
    let ring := s.handle.header.ring
    if iter.eventsReturned < ring.count then
      match s.file with
      | none => (.error .io, s)
      | some file =>
        let (found, idx, eventsReturned) := nextLoop file.events ring.max (returned iter.filter)
          (fun _ => false) (ring.count.toNat - iter.eventsReturned.toNat) iter.currentIdx
          iter.eventsReturned
        (nextResult found, s.setIter iterHandle
          { iter with currentIdx := idx, eventsReturned := eventsReturned })
    else (.error .notFound, s)

end LogStore
end Db
end EkKor
