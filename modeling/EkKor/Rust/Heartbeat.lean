import Mathlib
import EkKor.Module.Heartbeat

/-!
# The heartbeat engine in Rust (`heartbeat.rs`)

The second engine of the repository.  `Vec<_, MAX_MODULES>` is a list that does not grow beyond its
capacity.

* `HeartbeatNeighbor`, `Heartbeat`   the data;
* `judge`             what a tick finds about one neighbor, with the thresholds;
* `addNeighbor`, `removeNeighbor`, `received`, `tick`, `getHealth`   the engine.

`tick` returns `none` when it panics.  With `checks` (the overflow checks of a debug build) a
multiplication that does not fit its type panics, without them (a release build) it wraps.
-/

namespace EkKor
namespace Rust

/-! ## data -/

/-- `HeartbeatConfig` -/
structure HeartbeatConfig where
  period : TimeUs
  timeoutCount : UInt8
  autoBroadcast : Bool
  trackLatency : Bool
  deriving DecidableEq, Repr

/-- `HeartbeatConfig::default` -/
def HeartbeatConfig.default : HeartbeatConfig :=
  { period := 10000, timeoutCount := 5, autoBroadcast := true, trackLatency := false }

/-- `HeartbeatNeighbor`; `HealthState` is `Health` -/
structure HeartbeatNeighbor where
  id : ModuleId
  health : Health
  lastSeen : TimeUs
  missedCount : UInt8
  sequence : UInt8
  avgLatency : TimeUs
  deriving DecidableEq, Repr

/-- `HeartbeatNeighbor::new` -/
def HeartbeatNeighbor.new (id : ModuleId) : HeartbeatNeighbor :=
  { id := id, health := .unknown, lastSeen := 0, missedCount := 0, sequence := 0, avgLatency := 0 }

/-- `Heartbeat` -/
structure Heartbeat where
  myId : ModuleId
  neighbors : List HeartbeatNeighbor
  lastSend : TimeUs
  sendSequence : UInt8
  config : HeartbeatConfig
  callbacks : EkKor.Heartbeat.Callbacks
  deriving DecidableEq

namespace Heartbeat
open EkKor.Heartbeat (Callbacks Out)

/-- `Heartbeat::new` -/
def new (myId : ModuleId) (config : Option HeartbeatConfig) : Heartbeat :=
  { myId := myId
    neighbors := []
    lastSend := 0
    sendSequence := 0
    config := config.getD HeartbeatConfig.default
    callbacks := ⟨false, false, false⟩ }

/-- `set_callbacks` -/
def setCallbacks (hb : Heartbeat) (cb : Callbacks) : Heartbeat := { hb with callbacks := cb }

/-! ## neighbors -/

/-- `position` of a neighbor -/
def position (hb : Heartbeat) (id : ModuleId) : Option Nat :=
  Keyed.index HeartbeatNeighbor.id hb.neighbors id

/-- `add_neighbor` -/
def addNeighbor (hb : Heartbeat) (neighborId : ModuleId) : Except Err Unit × Heartbeat :=
  if neighborId = hb.myId ∨ neighborId = invalidModuleId then (.error .invalidArg, hb)
  else
    match hb.position neighborId with
    | some _ => (.error .alreadyExists, hb)
    | none =>
      if hb.neighbors.length < maxModules then
        (.ok (), { hb with neighbors := hb.neighbors ++ [HeartbeatNeighbor.new neighborId] })
      else (.error .noMemory, hb)

/-- `remove_neighbor` -/
def removeNeighbor (hb : Heartbeat) (neighborId : ModuleId) : Except Err Unit × Heartbeat :=
  match hb.position neighborId with
  | some pos => (.ok (), { hb with neighbors := hb.neighbors.eraseIdx pos })
  | none => (.error .notFound, hb)

/-! ## heartbeats -/

def hear (neighbor : HeartbeatNeighbor) (sequence : UInt8) (now : TimeUs) : HeartbeatNeighbor :=
  { neighbor with lastSeen := now, missedCount := 0, sequence := sequence, health := .alive }

/-- `received` -/
def received (hb : Heartbeat) (senderId : ModuleId) (sequence : UInt8) (now : TimeUs) :
    Except Err Unit × Heartbeat × List Out :=
  match hb.position senderId with
  | none => (.error .notFound, hb, [])
  | some idx =>
    match hb.neighbors[idx]? with
    | none => (.error .notFound, hb, [])
    | some neighbor =>
      (.ok (), { hb with neighbors := hb.neighbors.set idx (hear neighbor sequence now) },
        if neighbor.health = .alive then [] else hb.callbacks.call senderId .alive)

/-! ## time -/

/-- `a.saturating_sub(b)` -/
def saturatingSub (a b : TimeUs) : TimeUs := if b ≤ a then a - b else 0

/-- `a * b` -/
def mulTime (checks : Bool) (a b : TimeUs) : Option TimeUs :=
  if checks && decide (2 ^ 64 ≤ a.toNat * b.toNat) then none else some (a * b)

/-- the branches of `tick` for a neighbor that is not dead -/
def judge (config : HeartbeatConfig) (cb : Callbacks) (elapsed timeout suspectThreshold : TimeUs)
    (neighbor : HeartbeatNeighbor) : HeartbeatNeighbor × List Out :=
  if elapsed > timeout then
    ({ neighbor with health := .dead, missedCount := config.timeoutCount },
      if neighbor.health = .dead then [] else cb.call neighbor.id .dead)
  else if elapsed > suspectThreshold then
    ({ neighbor with health := .suspect, missedCount := (elapsed / config.period).toUInt8 },
      if neighbor.health = .suspect then [] else cb.call neighbor.id .suspect)
  else (neighbor, [])

/-- the loop of `tick` for one neighbor -/
def checkNeighbor (checks : Bool) (config : HeartbeatConfig) (cb : Callbacks) (now : TimeUs)
    (neighbor : HeartbeatNeighbor) : Option (HeartbeatNeighbor × List Out) :=
  if neighbor.health = .dead then some (neighbor, [])
  else do
    let timeout ← mulTime checks config.period config.timeoutCount.toUInt64
    let suspectThreshold ← mulTime checks config.period 2
    some (judge config cb (saturatingSub now neighbor.lastSeen) timeout suspectThreshold neighbor)

/-- `tick`, and the number of neighbors whose state changed -/
def tick (checks : Bool) (hb : Heartbeat) (now : TimeUs) : Option (Nat × Heartbeat × List Out) := do
  let checked ← hb.neighbors.mapM (checkNeighbor checks hb.config hb.callbacks now)
  let changed := (hb.neighbors.zip checked).countP fun p => decide (p.2.1.health ≠ p.1.health)
  let outs := checked.flatMap Prod.snd
  let hb := { hb with neighbors := checked.map Prod.fst }
  let sendDue := saturatingSub now hb.lastSend ≥ hb.config.period
  if hb.config.autoBroadcast = true ∧ sendDue then
    some (changed, { hb with lastSend := now, sendSequence := hb.sendSequence + 1 }, outs)
  else some (changed, hb, outs)

/-! ## queries -/

/-- `get_health` -/
def getHealth (hb : Heartbeat) (neighborId : ModuleId) : Health :=
  ((Keyed.lookup HeartbeatNeighbor.id hb.neighbors neighborId).map
    HeartbeatNeighbor.health).getD .unknown

end Heartbeat
end Rust
end EkKor
