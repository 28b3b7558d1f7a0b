import EkKor.Gossip.Model

/-!
# Event gossip in Rust (`gossip.rs`)

The second gossip engine: the part of it that receives events.  `EventV2`, `VVEntry` and
`GossipStats` have the fields of the C structs and share their Lean types.  An array with its count
is a list.

* `VersionVector.get`, `VersionVector.set`   version vectors;
* `GossipContext.new`, `GossipContext.handleEvent`   the context and its event handler.

A function returns `none` when it panics: with `checks`, the overflow checks of a debug build, an
addition that does not fit in 32 bits panics; without them it wraps.
-/

namespace EkKor
namespace Rust
open Gossip (VvEntry EventV2 Stats Neighbor)

/-! ## version vectors -/

abbrev vvMaxEntries : Nat := 8
abbrev gossipMaxHops : UInt8 := 3

/-- `VersionVector` -/
structure VersionVector where
  entries : List VvEntry
  deriving DecidableEq, Repr

namespace VersionVector

/-- `VersionVector::new` -/
def new : VersionVector := ⟨[]⟩

/-- `VersionVector::get` -/
def get (vv : VersionVector) (moduleId : ModuleId) : UInt32 :=
  match vv.entries.find? fun entry => entry.moduleId = moduleId with
  | some entry => entry.sequence
  | none => 0

/-- `VersionVector::set` -/
def set (vv : VersionVector) (moduleId : ModuleId) (seq : UInt32) : Except Err VersionVector :=
  match vv.entries.findIdx? fun entry => entry.moduleId = moduleId with
  | some i => .ok ⟨vv.entries.modify i fun entry => { entry with sequence := seq }⟩
  | none =>
    if vv.entries.length ≥ vvMaxEntries then .error .noMemory
    else .ok ⟨vv.entries ++ [⟨moduleId, seq⟩]⟩

/-- `let _ = vv.set(..)` -/
def put (vv : VersionVector) (moduleId : ModuleId) (seq : UInt32) : VersionVector :=
  (vv.set moduleId seq).toOption.getD vv

end VersionVector

/-! ## the context -/

/-- `GossipContext` -/
structure GossipContext where
  myId : ModuleId
  vv : VersionVector
  localSequence : UInt32
  neighbors : List Neighbor
  pendingEvents : List EventV2
  bufferedEvents : List EventV2
  lastGossipTick : TimeUs
  lastSync : TimeUs
  stats : Stats
  deriving DecidableEq

/-- `n + 1` on a `u32` -/
def succU32 (checks : Bool) (n : UInt32) : Option UInt32 :=
  if checks && decide (n = 0xFFFFFFFF) then none else some (n + 1)

namespace GossipContext

/-- `GossipContext::new` -/
def new (myId : ModuleId) : GossipContext :=
  { myId := myId
    vv := VersionVector.new.put myId 0
    localSequence := 1
    neighbors := []
    pendingEvents := []
    bufferedEvents := []
    lastGossipTick := 0
    lastSync := 0
    stats := ⟨0, 0, 0, 0, 0, 0⟩ }

/-- the loop of `process_buffered_events`, from the event that `i` points at -/
def processBuffered (checks : Bool) (vv : VersionVector) :
    List EventV2 → Option (VersionVector × List EventV2)
  | [] => some (vv, [])
  | buffered :: rest =>
    (succU32 checks (vv.get buffered.originId)).bind fun expected =>
      if buffered.originSeq = expected then
        processBuffered checks (vv.put buffered.originId buffered.originSeq) rest
      else
        (processBuffered checks vv rest).map fun (vv', kept) => (vv', buffered :: kept)

/-- `process_buffered_events` -/
def processBufferedEvents (checks : Bool) (ctx : GossipContext) : Option GossipContext :=
  (processBuffered checks ctx.vv ctx.bufferedEvents).map fun (vv, kept) =>
    { ctx with vv := vv, bufferedEvents := kept }

/-- the part of `handle_event` for an event that is next in its sequence -/
def accept (checks : Bool) (ctx : GossipContext) (event : EventV2) : Option GossipContext :=
  let ttlExpired :=
    if event.hopCount ≥ gossipMaxHops then succU32 checks ctx.stats.ttlExpired
    else some ctx.stats.ttlExpired
  ttlExpired.bind fun n =>
    processBufferedEvents checks
      { ctx with
        stats := { ctx.stats with ttlExpired := n }
        vv := ctx.vv.put event.originId event.originSeq }

/-- `handle_event`; the sender is not used -/
def handleEvent (checks : Bool) (ctx : GossipContext) (event : EventV2) (_sender : ModuleId) :
    Option (Except Err Unit × GossipContext) :=
  (succU32 checks ctx.stats.eventsReceived).bind fun received =>
    let ctx := { ctx with stats := { ctx.stats with eventsReceived := received } }
    let knownSeq := ctx.vv.get event.originId
    if event.originSeq ≤ knownSeq then
      (succU32 checks ctx.stats.duplicates).map fun n =>
        (.error .alreadyExists, { ctx with stats := { ctx.stats with duplicates := n } })
    else
      (succU32 checks knownSeq).bind fun next =>
        if event.originSeq > next then
          (succU32 checks ctx.stats.gapsDetected).map fun n =>
            (.error .notFound,
              { ctx with
                stats := { ctx.stats with gapsDetected := n }
                bufferedEvents :=
                  if ctx.bufferedEvents.length < 4 then ctx.bufferedEvents ++ [event]
                  else ctx.bufferedEvents })
        else (accept checks ctx event).map fun ctx => (.ok (), ctx)

end GossipContext
end Rust
end EkKor
