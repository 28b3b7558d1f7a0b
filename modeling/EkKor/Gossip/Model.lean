import Mathlib.Algebra.Group.Nat.Defs
import Mathlib.Data.List.FinRange
import EkKor.Types

/-!
# Event gossip (`ekk_gossip.c`)

One gossip context and the calls on it.  An array with its count is a list.

* `vvGet`, `vvSet`, `vvCompare`, `vvMerge`, `vvToSummary`, `vvFromSummary`   version vectors;
* `Ctx`, `init`, `addNeighbor`, `removeNeighbor`                the context;
* `emit`, `tick`                                                local events and their sending;
* `handleEvent`, `handleMsg`                                    received events and messages.

The callbacks of the application are outputs: `send` for `ekk_gossip_send`, `store` for
`ekk_gossip_store_event`, `onEvent` for `ekk_gossip_on_event`.  `ekk_gossip_load_event` is a
parameter.  The callbacks do not call back into the context.
-/

namespace EkKor
namespace Gossip

/-! ## constants -/

abbrev maxHops : UInt8 := 3
abbrev tickUs : TimeUs := 10000
abbrev batchSize : Nat := 2
abbrev syncIntervalUs : TimeUs := 10000000
abbrev maxPending : Nat := 8
abbrev maxBuffered : Nat := 4

/-! ## version vectors -/

/-- `ekk_vv_entry_t` -/
structure VvEntry where
  moduleId : ModuleId
  sequence : UInt32
  deriving DecidableEq, Repr

/-- `ekk_version_vector_t` -/
abbrev VersionVector := List VvEntry

/-- `ekk_vv_get` -/
def vvGet : VersionVector → ModuleId → UInt32
  | [], _ => 0
  | entry :: rest, moduleId =>
    if entry.moduleId = moduleId then entry.sequence else vvGet rest moduleId

/-- the first loop of `ekk_vv_set`: writes the existing entry, if there is one -/
def vvWrite : VersionVector → ModuleId → UInt32 → Option VersionVector
  | [], _, _ => none
  | entry :: rest, moduleId, seq =>
    if entry.moduleId = moduleId then some ({ entry with sequence := seq } :: rest)
    else (vvWrite rest moduleId seq).map (entry :: ·)

/-- `ekk_vv_set` -/
def vvSet (vv : VersionVector) (moduleId : ModuleId) (seq : UInt32) : Except Err VersionVector :=
  match vvWrite vv moduleId seq with
  | some vv' => .ok vv'
  | none =>
    if vv.length ≥ kNeighbors + 1 then .error .noMemory else .ok (vv ++ [⟨moduleId, seq⟩])

/-- a call of `ekk_vv_set` whose result is not looked at -/
def vvPut (vv : VersionVector) (moduleId : ModuleId) (seq : UInt32) : VersionVector :=
  (vvSet vv moduleId seq).toOption.getD vv

/-- `ekk_vv_increment`, without the returned sequence, which its caller drops -/
def vvIncrement (vv : VersionVector) (moduleId : ModuleId) : VersionVector :=
  vvPut vv moduleId (vvGet vv moduleId + 1)

/-- `ekk_vv_order_t` -/
inductive VvOrder where
  | equal
  | before
  | after
  | concurrent
  deriving DecidableEq, Repr

/-- the two flags of `ekk_vv_compare` -/
structure Dominance where
  aDominates : Bool
  bDominates : Bool
  deriving DecidableEq, Repr

/-- the body of both loops of `ekk_vv_compare` -/
def Dominance.observe (flags : Dominance) (aSeq bSeq : UInt32) : Dominance :=
  { aDominates := if aSeq < bSeq then false else flags.aDominates
    bDominates := if aSeq > bSeq then false else flags.bDominates }

/-- what `ekk_vv_compare` returns at its end -/
def Dominance.order (flags : Dominance) : VvOrder :=
  if flags.aDominates && flags.bDominates then .equal
  else if flags.aDominates then .after
  else if flags.bDominates then .before
  else .concurrent

/-- `ekk_vv_compare` -/
def vvCompare (a b : VersionVector) : VvOrder :=
  let flags : Dominance := a.foldl (fun flags entry =>
    Dominance.observe flags entry.sequence (vvGet b entry.moduleId)) ⟨true, true⟩
  let flags : Dominance := b.foldl (fun flags entry =>
    Dominance.observe flags (vvGet a entry.moduleId) entry.sequence) flags
  flags.order

/-- `ekk_vv_merge` -/
def vvMerge (vv remote : VersionVector) : VersionVector :=
  remote.foldl (fun vv entry =>
    if entry.sequence > vvGet vv entry.moduleId then vvPut vv entry.moduleId entry.sequence
    else vv) vv

/-- `ekk_vv_summary_t`: one byte for each neighbor position -/
abbrev VvSummary := Vector UInt8 kNeighbors

/-- `ekk_vv_to_summary`: the low byte of the sequence of each neighbor, in the order of
`neighborIds` -/
def vvToSummary (vv : VersionVector) (neighborIds : List ModuleId) : VvSummary :=
  Vector.ofFn fun i =>
    match neighborIds[i.val]? with
    | some moduleId => (vvGet vv moduleId).toUInt8
    | none => 0

/-- `ekk_vv_from_summary` on an empty vector: the bytes above 0 become entries of the neighbors at
the same positions -/
def vvFromSummary (summary : VvSummary) (neighborIds : List ModuleId) : VersionVector :=
  (List.finRange kNeighbors).foldl (fun vv i =>
    match neighborIds[i.val]? with
    | some moduleId =>
      if summary.get i > 0 then vvPut vv moduleId (summary.get i).toUInt32 else vv
    | none => vv) []

/-! ## events and messages -/

/-- `ekk_event_v2_t` -/
structure EventV2 where
  sequence : UInt32
  timestampUs : UInt32
  eventType : UInt8
  flags : UInt8
  originId : ModuleId
  hopCount : UInt8
  originSeq : UInt32
  payload : Vector UInt8 20
  deriving DecidableEq, Repr

/-- `ekk_gossip_msg_t`; of its two events only the first `event_count` are kept -/
structure GossipMsg where
  sourceModule : ModuleId
  eventCount : UInt8
  vvSummary : VvSummary
  events : List EventV2
  deriving DecidableEq

/-- `ekk_gossip_request_t` -/
structure Request where
  requester : ModuleId
  targetOrigin : ModuleId
  fromSeq : UInt32
  toSeq : UInt32
  deriving DecidableEq, Repr

/-- the messages that `ekk_gossip_handle_msg` knows, complete ones -/
inductive Msg where
  | gossip (msg : GossipMsg)
  | ack
  | request (req : Request)
  deriving DecidableEq

/-- what the code calls in the application -/
inductive Out where
  | send (dest : ModuleId) (msg : Msg)
  | store (event : EventV2)
  | onEvent (event : EventV2)
  deriving DecidableEq

/-! ## the context -/

/-- `ekk_gossip_stats_t` -/
structure Stats where
  eventsSent : UInt32
  eventsReceived : UInt32
  duplicates : UInt32
  gapsDetected : UInt32
  gapsFilled : UInt32
  ttlExpired : UInt32
  deriving DecidableEq, Repr

/-- `ekk_neighbor_gossip_t` -/
structure Neighbor where
  id : ModuleId
  lastSeenSeq : UInt32
  cursor : UInt32
  lastSync : TimeUs
  deriving DecidableEq, Repr

/-- `ekk_gossip_ctx_t` -/
structure Ctx where
  myId : ModuleId
  vv : VersionVector
  localSequence : UInt32
  neighbors : List Neighbor
  pendingEvents : List EventV2
  bufferedEvents : List EventV2
  lastGossipTick : TimeUs
  lastSync : TimeUs
  stats : Stats
  deriving DecidableEq

/-- `ekk_gossip_init` -/
def init (myId : ModuleId) : Except Err Ctx :=
  if myId = invalidModuleId then .error .invalidArg
  else .ok
    { myId := myId
      vv := vvPut [] myId 0
      localSequence := 1
      neighbors := []
      pendingEvents := []
      bufferedEvents := []
      lastGossipTick := 0
      lastSync := 0
      stats := ⟨0, 0, 0, 0, 0, 0⟩ }

def Ctx.neighborIds (ctx : Ctx) : List ModuleId := ctx.neighbors.map Neighbor.id

/-- `ekk_gossip_add_neighbor` -/
def addNeighbor (ctx : Ctx) (neighborId : ModuleId) : Except Err Unit × Ctx :=
  if neighborId = invalidModuleId then (.error .invalidArg, ctx)
  else if neighborId ∈ ctx.neighborIds then (.error .alreadyExists, ctx)
  else if ctx.neighbors.length ≥ kNeighbors then (.error .noMemory, ctx)
  else (.ok (), { ctx with neighbors := ctx.neighbors ++ [⟨neighborId, 0, 0, 0⟩] })

/-- `ekk_gossip_remove_neighbor` -/
def removeNeighbor (ctx : Ctx) (neighborId : ModuleId) : Except Err Unit × Ctx :=
  if neighborId ∈ ctx.neighborIds then
    (.ok (), { ctx with neighbors := ctx.neighbors.eraseP fun n => n.id = neighborId })
  else (.error .notFound, ctx)

/-! ## sending -/

def outgoing (ctx : Ctx) (event : EventV2) : EventV2 :=
  if event.originId ≠ ctx.myId then { event with hopCount := event.hopCount + 1 } else event

/-- `send_gossip_to_neighbor`; no caller looks at its result -/
def sendGossipToNeighbor (ctx : Ctx) (neighborId : ModuleId) (events : List EventV2) :
    Ctx × List Out :=
  if events.length = 0 ∨ events.length > batchSize then (ctx, [])
  else
    ({ ctx with
        stats := { ctx.stats with
          eventsSent := ctx.stats.eventsSent + UInt32.ofNat events.length } },
      [.send neighborId (.gossip
        { sourceModule := ctx.myId
          eventCount := UInt8.ofNat events.length
          vvSummary := vvToSummary ctx.vv ctx.neighborIds
          events := events.map (outgoing ctx) })])

def sendAll (ctx : Ctx) : List (ModuleId × List EventV2) → Ctx × List Out
  | [] => (ctx, [])
  | (neighborId, events) :: rest =>
    let (ctx, out) := sendGossipToNeighbor ctx neighborId events
    let (ctx, out') := sendAll ctx rest
    (ctx, out ++ out')

/-- the pending events in batches of `EKK_GOSSIP_BATCH_SIZE` -/
def batches : List EventV2 → List (List EventV2)
  | [] => []
  | [event] => [[event]]
  | event₁ :: event₂ :: rest => [event₁, event₂] :: batches rest

/-- `ekk_gossip_emit`; `now` is what `ekk_hal_time_us` returns -/
def emit (ctx : Ctx) (now : TimeUs) (eventType : UInt8) (payload : List UInt8) :
    Except Err Unit × Ctx × List Out :=
  if payload.length > 20 then (.error .invalidArg, ctx, [])
  else if ctx.pendingEvents.length ≥ maxPending then (.error .noMemory, ctx, [])
  else
    let event : EventV2 :=
      { sequence := ctx.localSequence
        timestampUs := now.toUInt32
        eventType := eventType
        flags := 0
        originId := ctx.myId
        hopCount := 0
        originSeq := ctx.localSequence
        payload := Vector.ofFn fun i => payload.getD i.val 0 }
    (.ok (),
      { ctx with
        pendingEvents := ctx.pendingEvents ++ [event]
        localSequence := ctx.localSequence + 1
        vv := vvIncrement ctx.vv ctx.myId },
      [.onEvent event, .store event])

/-- the part of `ekk_gossip_tick` that sends the pending events -/
def sendPending (ctx : Ctx) : Ctx × List Out :=
  let (ctx', out) := sendAll ctx (ctx.neighborIds.flatMap fun neighborId =>
    (batches ctx.pendingEvents).map fun batch => (neighborId, batch))
  ({ ctx' with pendingEvents := [] }, out)

/-- the anti-entropy part of `ekk_gossip_tick`; `ekk_gossip_sync` does nothing -/
def syncNeighbors (ctx : Ctx) (now : TimeUs) : Ctx :=
  if now - ctx.lastSync > syncIntervalUs then
    { ctx with
      lastSync := now
      neighbors := ctx.neighbors.map fun n =>
        if now - n.lastSync > syncIntervalUs then { n with lastSync := now } else n }
  else ctx

/-- `ekk_gossip_tick` -/
def tick (ctx : Ctx) (now : TimeUs) : Ctx × List Out :=
  if now - ctx.lastGossipTick < tickUs then (ctx, [])
  else
    let (ctx, out) := sendPending { ctx with lastGossipTick := now }
    (syncNeighbors ctx now, out)

/-! ## receiving events -/

/-- the loop over the buffered events at the end of `ekk_gossip_handle_event`: an event that is
next in its sequence is handed over and leaves the buffer, any other stays -/
def drain (vv : VersionVector) : List EventV2 → VersionVector × List EventV2 × List Out
  | [] => (vv, [], [])
  | buffered :: rest =>
    if buffered.originSeq = vvGet vv buffered.originId + 1 then
      let (vv', kept, out) := drain (vvPut vv buffered.originId buffered.originSeq) rest
      (vv', kept, .store buffered :: .onEvent buffered :: out)
    else
      let (vv', kept, out) := drain vv rest
      (vv', buffered :: kept, out)

/-- the forwarding part of `ekk_gossip_handle_event` -/
def forward (ctx : Ctx) (event : EventV2) (sender : ModuleId) : Ctx × List Out :=
  if event.hopCount < maxHops then
    sendAll ctx ((ctx.neighborIds.filter fun id => id ≠ sender).map fun id =>
      (id, [{ event with hopCount := event.hopCount + 1 }]))
  else (ctx, [])

/-- `ekk_gossip_handle_event` -/
def handleEvent (ctx : Ctx) (event : EventV2) (sender : ModuleId) :
    Except Err Unit × Ctx × List Out :=
  let ctx := { ctx with
    stats := { ctx.stats with eventsReceived := ctx.stats.eventsReceived + 1 } }
  let knownSeq := vvGet ctx.vv event.originId
  if event.originSeq ≤ knownSeq then
    (.error .alreadyExists,
      { ctx with stats := { ctx.stats with duplicates := ctx.stats.duplicates + 1 } }, [])
  else if event.originSeq > knownSeq + 1 then
    (.error .notFound,
      { ctx with
        stats := { ctx.stats with gapsDetected := ctx.stats.gapsDetected + 1 }
        bufferedEvents :=
          if ctx.bufferedEvents.length < maxBuffered then ctx.bufferedEvents ++ [event]
          else ctx.bufferedEvents },
      [.send sender (.request
        { requester := ctx.myId
          targetOrigin := event.originId
          fromSeq := knownSeq + 1
          toSeq := event.originSeq - 1 })])
  else
    let ctx :=
      if event.hopCount ≥ maxHops then
        { ctx with stats := { ctx.stats with ttlExpired := ctx.stats.ttlExpired + 1 } }
      else ctx
    let (ctx, sent) := forward { ctx with vv := vvPut ctx.vv event.originId event.originSeq }
      event sender
    let (vv, kept, drained) := drain ctx.vv ctx.bufferedEvents
    (.ok (), { ctx with vv := vv, bufferedEvents := kept },
      [.store event, .onEvent event] ++ sent ++ drained)

/-! ## receiving messages -/

/-- the event loop of the `EKK_MSG_EVENT_GOSSIP` case -/
def handleEvents (ctx : Ctx) (sender : ModuleId) : List EventV2 → Ctx × List Out
  | [] => (ctx, [])
  | event :: rest =>
    let (_, ctx, out) := handleEvent ctx event sender
    let (ctx, out') := handleEvents ctx sender rest
    (ctx, out ++ out')

/-- the summary merge of the `EKK_MSG_EVENT_GOSSIP` case: the bytes are read in the order of the
receiver's own neighbors -/
def mergeSummary (ctx : Ctx) (summary : VvSummary) : Ctx :=
  { ctx with vv := vvMerge ctx.vv (vvFromSummary summary ctx.neighborIds) }

/-- the loop of the `EKK_MSG_EVENT_REQUEST` case; `none` when the fuel runs out -/
def answer (load : ModuleId → UInt32 → Option EventV2) (requester : ModuleId) (toSeq : UInt32) :
    Nat → Ctx → UInt32 → Option (Ctx × List Out)
  | 0, _, _ => none
  | fuel + 1, ctx, seq =>
    if seq ≤ toSeq then
      match load ctx.myId seq with
      | some event =>
        let (ctx, out) := sendGossipToNeighbor ctx requester [event]
        (answer load requester toSeq fuel
          { ctx with stats := { ctx.stats with gapsFilled := ctx.stats.gapsFilled + 1 } }
          (seq + 1)).map fun (ctx, out') => (ctx, out ++ out')
      | none => answer load requester toSeq fuel ctx (seq + 1)
    else some (ctx, [])

abbrev answerFuel : Nat := 2 ^ 32 + 1

/-- `ekk_gossip_handle_msg` on a complete message; `none` when it does not return -/
def handleMsg (load : ModuleId → UInt32 → Option EventV2) (ctx : Ctx) :
    Msg → Option (Ctx × List Out)
  | .gossip msg =>
    let (ctx, out) := handleEvents ctx msg.sourceModule
      (msg.events.take (min msg.eventCount.toNat batchSize))
    some (mergeSummary ctx msg.vvSummary, out)
  | .ack => some (ctx, [])
  | .request req =>
    if req.targetOrigin = ctx.myId then
      answer load req.requester req.toSeq answerFuel ctx req.fromSeq
    else some (ctx, [])

end Gossip
end EkKor
