import EkKor.Lib.EightBit
import EkKor.Gateway.Flash
import EkKor.Gossip.Model
import EkKor.Module.Model

/-!
# The gateway (`ekk_gateway.c`, `ekk_stream_index.c`)

The counts of the streams and of the projections have eight bits, so that their comparison with
`EKK_GATEWAY_MAX_MODULES` = 256 never holds.

* `StreamIndex`       the index of the stored events, with its searches;
* `Projection`        what the events say about a module;
* `gatewayInit`, `gatewayAppend`, `gatewayReadStream`, `gatewayModuleState`, `gatewayStateAt`
                      the API.
-/

namespace EkKor
namespace Gateway
open Gossip (EventV2)
open EightBit (Table)

/-! ## the index -/

/-- `ekk_index_entry_t` -/
structure IndexEntry where
  globalSeq : UInt32
  flashOffset : UInt32
  timestampUs : UInt32
  streamSeq : UInt16
  streamId : ModuleId
  eventType : UInt8
  deriving DecidableEq

/-- `ekk_stream_state_t` -/
structure StreamState where
  moduleId : ModuleId
  sequence : UInt32
  eventCount : UInt32
  firstIndex : UInt32
  lastIndex : UInt32
  lastTimestampUs : UInt32

/-- the capacity of an index: `ekk_stream_index_init` refuses 0 -/
abbrev Capacity := { capacity : UInt32 // capacity ≠ 0 }

/-- `ekk_stream_index_t` -/
structure StreamIndex where
  entries : List IndexEntry
  capacity : Capacity
  oldestSeq : UInt32
  newestSeq : UInt32
  streams : Table StreamState

/-- `ekk_stream_index_init` -/
def streamIndexInit (capacity : Capacity) : StreamIndex := ⟨[], capacity, 0, 0, Table.empty⟩

/-- `create_stream` -/
def newStream (id : ModuleId) : StreamState := ⟨id, 0, 0, 0xFFFFFFFF, 0xFFFFFFFF, 0⟩

/-- the stream after the entry at `idx` -/
def StreamState.add (idx : UInt32) (entry : IndexEntry) (s : StreamState) : StreamState :=
  { s with
    firstIndex := if s.firstIndex = 0xFFFFFFFF then idx else s.firstIndex
    lastIndex := idx
    sequence := s.sequence + 1
    eventCount := s.eventCount + 1
    lastTimestampUs := entry.timestampUs }

/-- `ekk_stream_index_add` -/
def streamIndexAdd (index : StreamIndex) (entry : IndexEntry) : Except Err Unit × StreamIndex :=
  if index.entries.length ≥ index.capacity.val.toNat then (.error .noMemory, index)
  else
    let idx := UInt32.ofNat index.entries.length
    (.ok (),
      { index with
        entries := index.entries ++ [entry]
        streams :=
          index.streams.update StreamState.moduleId newStream entry.streamId
            (StreamState.add idx entry)
        oldestSeq :=
          if idx = 0 ∨ entry.globalSeq < index.oldestSeq then entry.globalSeq else index.oldestSeq
        newestSeq :=
          if entry.globalSeq > index.newestSeq then entry.globalSeq else index.newestSeq })

/-- the loop of `binary_search_time` -/
def searchTime (entries : List IndexEntry) (target : UInt32) (lo hi : Nat) : Nat :=
  if lo < hi then
    let mid := lo + (hi - lo) / 2
    match entries[mid]? with
    | some entry =>
      if entry.timestampUs < target then searchTime entries target (mid + 1) hi
      else searchTime entries target lo mid
    | none => lo
  else lo
termination_by hi - lo
decreasing_by all_goals omega

/-- `ekk_stream_index_find_time`: the first place and the count -/
def findTime (index : StreamIndex) (fromTime toTime : UInt32) : Except Err (Nat × Nat) :=
  if index.entries = [] then .error .notFound
  else
    let start := searchTime index.entries fromTime 0 index.entries.length
    if start ≥ index.entries.length then .error .notFound
    else
      let count :=
        ((index.entries.drop start).takeWhile fun entry => entry.timestampUs ≤ toTime).length
      if count > 0 then .ok (start, count) else .error .notFound

/-- an entry in the scan of `ekk_stream_index_find_stream`, with what was found before -/
def streamFound (entries : List IndexEntry) (streamId : ModuleId) (fromSeq : UInt32)
    (found : Option Nat × Nat) (i : Nat) : Option Nat × Nat :=
  match entries[i]? with
  | some entry =>
    if entry.streamId = streamId ∧ entry.streamSeq.toUInt32 ≥ fromSeq then
      (some (found.1.getD i), found.2 + 1)
    else found
  | none => found

/-- `ekk_stream_index_find_stream`: the first place and the count -/
def findStream (index : StreamIndex) (streamId : ModuleId) (fromSeq : UInt32) :
    Except Err (Nat × Nat) :=
  match Keyed.lookup StreamState.moduleId index.streams.rows streamId with
  | none => .error .notFound
  | some stream =>
    if stream.firstIndex = 0xFFFFFFFF then .error .notFound
    else
      let first := stream.firstIndex.toNat
      let stop := min (stream.lastIndex.toNat + 1) index.entries.length
      let found :=
        (List.range' first (stop - first)).foldl (streamFound index.entries streamId fromSeq)
          (none, 0)
      match found with
      | (none, _) => .error .notFound
      | (some first, count) => .ok (first, count)

/-! ## projections -/

/-- `ekk_module_projection_t` -/
structure Projection where
  moduleId : ModuleId
  state : Module.State
  lastSeen : TimeUs
  eventCount : UInt32
  load : Int32
  thermal : Int32
  power : Int32
  neighborCount : UInt8
  deriving DecidableEq

/-- `create_projection` -/
def newProjection (id : ModuleId) : Projection := ⟨id, .init, 0, 0, 0, 0, 0, 0⟩

abbrev stateTransition : UInt8 := 0x01
abbrev fieldPublished : UInt8 := 0x02
abbrev neighborJoined : UInt8 := 0x03
abbrev neighborLeft : UInt8 := 0x04

/-- the states below `EKK_MODULE_SHUTDOWN` -/
def stateBelowShutdown (b : UInt8) : Option Module.State :=
  if b = 0 then some .init
  else if b = 1 then some .discovering
  else if b = 2 then some .active
  else if b = 3 then some .degraded
  else if b = 4 then some .isolated
  else if b = 5 then some .reforming
  else none

/-- the field of an `EKK_EVENT_FIELD_PUBLISHED` -/
def publishedField (payload : Vector UInt8 20) : UInt8 := payload.get 0

/-- the value of an `EKK_EVENT_FIELD_PUBLISHED` -/
def publishedValue (payload : Vector UInt8 20) : Int32 :=
  ((payload.get 1).toUInt32 <<< 24 ||| (payload.get 2).toUInt32 <<< 16 |||
    (payload.get 3).toUInt32 <<< 8 ||| (payload.get 4).toUInt32).toInt32

/-- the `EKK_EVENT_STATE_TRANSITION` case -/
def Projection.transition (p : Projection) (payload : Vector UInt8 20) : Projection :=
  match stateBelowShutdown (payload.get 0) with
  | some state => { p with state := state }
  | none => p

/-- the `EKK_EVENT_FIELD_PUBLISHED` case -/
def Projection.publish (p : Projection) (payload : Vector UInt8 20) : Projection :=
  let value := publishedValue payload
  if publishedField payload = 0 then { p with load := value }
  else if publishedField payload = 1 then { p with thermal := value }
  else if publishedField payload = 2 then { p with power := value }
  else p

def Projection.seen (p : Projection) (timestampUs : UInt32) : Projection :=
  { p with
    lastSeen := timestampUs.toUInt64
    eventCount := p.eventCount + 1 }

/-- what `update_projection` does to the projection -/
def Projection.apply (event : EventV2) (p : Projection) : Projection :=
  let p := p.seen event.timestampUs
  if event.eventType = stateTransition then p.transition event.payload
  else if event.eventType = fieldPublished then p.publish event.payload
  else if event.eventType = neighborJoined then
    if p.neighborCount < 255 then { p with neighborCount := p.neighborCount + 1 } else p
  else if event.eventType = neighborLeft then
    if p.neighborCount > 0 then { p with neighborCount := p.neighborCount - 1 } else p
  else p

/-- what the replay of `ekk_gateway_state_at` does to the projection -/
def Projection.replay (event : EventV2) (p : Projection) : Projection :=
  let p := p.seen event.timestampUs
  if event.eventType = stateTransition then p.transition event.payload else p

/-- `update_projection` -/
def updateProjection (projections : Table Projection) (event : EventV2) : Table Projection :=
  projections.update Projection.moduleId newProjection event.originId (Projection.apply event)

/-! ## the gateway -/

/-- `ekk_gateway_t`, with the flash -/
structure GatewayState where
  gatewayId : ModuleId
  store : Store
  index : StreamIndex
  projections : Table Projection
  eventsStored : UInt32
  queriesServed : UInt32

/-- `EKK_FLASH_LOG_CAPACITY` -/
abbrev flashLogCapacity : UInt32 := 262144

/-- `ekk_gateway_init` after its check -/
def gatewayStart (flash : Flash) (gatewayId : ModuleId) (flashBase : UInt32) (capacity : Capacity)
    (time : UInt32) : GatewayState × List HalOp :=
  let started := flashLogInit flash flashBase flashLogCapacity time
  ({ gatewayId := gatewayId
     store := started.1
     index := streamIndexInit capacity
     projections := Table.empty
     eventsStored := 0
     queriesServed := 0 }, started.2)

/-- `ekk_gateway_init` -/
def gatewayInit (flash : Flash) (gatewayId : ModuleId) (flashBase indexCapacity time : UInt32) :
    Except Err (GatewayState × List HalOp) :=
  if h : indexCapacity ≠ 0 then
    .ok (gatewayStart flash gatewayId flashBase ⟨indexCapacity, h⟩ time)
  else .error .invalidArg

def openEntry (globalSeq : UInt32) (moduleId : ModuleId) (event : EventV2) : FlashEntry where
  globalSeq := globalSeq
  crc32 := 0
  length := 20
  streamId := moduleId
  eventType := event.eventType
  timestampUs := event.timestampUs
  originSeq := event.originSeq
  data := event.payload ++ (Vector.replicate 24 0 : Vector UInt8 24)

def flashEntry (globalSeq : UInt32) (moduleId : ModuleId) (event : EventV2) : FlashEntry :=
  let entry := openEntry globalSeq moduleId event
  { entry with crc32 := flashEntryCrc (FlashEntry.layout.encode entry) }

/-- the index entry of a flash entry, whose stream has the low 16 bits of its sequence -/
def indexEntry (offset : UInt32) (entry : FlashEntry) : IndexEntry where
  globalSeq := entry.globalSeq
  flashOffset := offset
  timestampUs := entry.timestampUs
  streamId := entry.streamId
  eventType := entry.eventType
  streamSeq := (entry.originSeq &&& 0xFFFF).toUInt16

def Store.takeSequence (s : Store) : Store :=
  { s with log := { s.log with globalSequence := s.log.globalSequence + 1 } }

/-- `ekk_gateway_append` -/
def gatewayAppend (gw : GatewayState) (moduleId : ModuleId) (event : EventV2) (time : UInt32) :
    UInt32 × GatewayState × List HalOp :=
  let entry := flashEntry gw.store.log.globalSequence moduleId event
  match flashLogWrite gw.store.takeSequence entry time with
  | (none, store, outs) => (0, { gw with store := store }, outs)
  | (some offset, store, outs) =>
    (entry.globalSeq,
      { gw with
        store := store
        index := (streamIndexAdd gw.index (indexEntry offset entry)).2
        projections := updateProjection gw.projections event
        eventsStored := gw.eventsStored + 1 }, outs)

def entryEvent (entry : FlashEntry) : EventV2 where
  sequence := entry.globalSeq
  timestampUs := entry.timestampUs
  eventType := entry.eventType
  flags := 0
  originId := entry.streamId
  hopCount := 0
  originSeq := entry.originSeq
  payload := Vector.ofFn fun i => entry.data.get (i.castLE (by decide))

/-- an index entry in the loop of `ekk_gateway_read_stream`, with the events read before -/
def readEntry (read : List EventV2 × Store) (idx : IndexEntry) : List EventV2 × Store :=
  match flashLogRead read.2 idx.flashOffset with
  | (.ok entry, store) => (read.1 ++ [entryEvent entry], store)
  | (.error _, store) => (read.1, store)

/-- `ekk_gateway_read_stream`: what it puts in the buffer -/
def gatewayReadStream (gw : GatewayState) (streamId : ModuleId) (fromSeq maxCount : UInt32) :
    List EventV2 × GatewayState :=
  if maxCount = 0 then ([], gw)
  else
    match findStream gw.index streamId fromSeq with
    | .error _ => ([], gw)
    | .ok (first, count) =>
      let read := ((gw.index.entries.drop first).take (min count maxCount.toNat)).foldl readEntry
        ([], gw.store)
      (read.1, { gw with store := read.2, queriesServed := gw.queriesServed + 1 })

/-- `ekk_gateway_module_state` -/
def gatewayModuleState (gw : GatewayState) (moduleId : ModuleId) : Except Err Projection :=
  match Keyed.lookup Projection.moduleId gw.projections.rows moduleId with
  | none => .error .notFound
  | some projection => .ok projection

/-- an index entry in the loop of `ekk_gateway_state_at` -/
def replayEntry (moduleId : ModuleId) (replayed : Projection × Store) (idx : IndexEntry) :
    Projection × Store :=
  if idx.streamId ≠ moduleId then replayed
  else
    match flashLogRead replayed.2 idx.flashOffset with
    | (.ok entry, store) => (replayed.1.replay (entryEvent entry), store)
    | (.error _, store) => (replayed.1, store)

/-- `ekk_gateway_state_at`, which succeeds also without events -/
def gatewayStateAt (gw : GatewayState) (moduleId : ModuleId) (timestampUs : UInt32) :
    Projection × GatewayState :=
  match findTime gw.index 0 timestampUs with
  | .error _ => (newProjection moduleId, gw)
  | .ok (first, count) =>
    let replayed := ((gw.index.entries.drop first).take count).foldl (replayEntry moduleId)
      (newProjection moduleId, gw.store)
    (replayed.1, { gw with store := replayed.2 })

end Gateway
end EkKor
