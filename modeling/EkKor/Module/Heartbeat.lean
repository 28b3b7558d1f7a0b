import EkKor.Types
import EkKor.Lib.Keyed
import Mathlib.Algebra.Group.Int.Defs
import Mathlib.Algebra.Group.Nat.Defs
import Mathlib.Data.List.Perm.Subperm
import Mathlib.Data.List.Range

/-!
# The heartbeat engine (`ekk_heartbeat.c`)

The neighbors are a list: an array with its count.  A function returns its error code or value, the
new engine and what it does to the outside, in order.

* `Health`, `Heartbeat.Neighbor`, `Heartbeat`   the data;
* `checkNeighbor`    what a tick does with one neighbor;
* `init`, `addNeighbor`, `removeNeighbor`, `received`, `tick`, `send`, `getHealth`   the API.
-/

namespace EkKor

/-- `EKK_MAX_MODULES` -/
abbrev maxModules : Nat := 256

theorem length_lt_maxModules {l : List ModuleId} (hn : l.Nodup) (hvalid : invalidModuleId ∉ l) :
    l.length < maxModules := by
  have hnodup : (l.map UInt8.toNat).Nodup := hn.map fun _ _ => UInt8.toNat_inj.mp
  have hsub : l.map UInt8.toNat ⊆ List.range' 1 255 := by
    intro k hk
    obtain ⟨id, hid, rfl⟩ := List.mem_map.mp hk
    have hne : id.toNat ≠ 0 := by
      intro he
      rw [show id = invalidModuleId from UInt8.toNat_inj.mp he] at hid
      exact hvalid hid
    have hlt := id.toNat_lt
    rw [List.mem_range'_1]
    omega
  have hle := (hnodup.subperm hsub).length_le
  rw [List.length_map, List.length_range'] at hle
  exact Nat.lt_of_le_of_lt hle (by decide)

/-- `ekk_health_state_t` -/
inductive Health where
  | unknown
  | alive
  | suspect
  | dead
  deriving DecidableEq, Repr, Inhabited

namespace Heartbeat

/-- `ekk_heartbeat_config_t` -/
structure Config where
  period : TimeUs
  timeoutCount : UInt32
  autoBroadcast : Bool
  trackLatency : Bool
  deriving DecidableEq, Repr

/-- `EKK_HEARTBEAT_CONFIG_DEFAULT` -/
def Config.default : Config :=
  { period := 10000, timeoutCount := 5, autoBroadcast := true, trackLatency := false }

/-- `ekk_heartbeat_neighbor_t` -/
structure Neighbor where
  id : ModuleId
  health : Health
  lastSeen : TimeUs
  missedCount : UInt8
  sequence : UInt8
  avgLatency : TimeUs
  deriving DecidableEq, Repr

/-- the callbacks that are not null -/
structure Callbacks where
  alive : Bool
  suspect : Bool
  dead : Bool
  deriving DecidableEq, Repr

/-- the calls of the callbacks, and `ekk_heartbeat_msg_t` as it is broadcast -/
inductive Out where
  | alive (id : ModuleId)
  | suspect (id : ModuleId)
  | dead (id : ModuleId)
  | broadcast (senderId : ModuleId) (sequence neighborCount : UInt8)
  deriving DecidableEq, Repr

end Heartbeat

/-- `ekk_heartbeat_t` -/
structure Heartbeat where
  myId : ModuleId
  neighbors : List Heartbeat.Neighbor
  lastSend : TimeUs
  sendSequence : UInt8
  config : Heartbeat.Config
  callbacks : Heartbeat.Callbacks
  deriving DecidableEq

namespace Heartbeat

/-! ## internal helpers -/

/-- `find_neighbor_index` -/
def findNeighborIndex (hb : Heartbeat) (id : ModuleId) : Option Nat :=
  Keyed.index Neighbor.id hb.neighbors id

def Callbacks.call (cb : Callbacks) (id : ModuleId) : Health → List Out
  | .alive => if cb.alive then [.alive id] else []
  | .suspect => if cb.suspect then [.suspect id] else []
  | .dead => if cb.dead then [.dead id] else []
  | .unknown => []

/-- `set_neighbor_health` -/
def setNeighborHealth (cb : Callbacks) (neighbor : Neighbor) (newState : Health) :
    Neighbor × List Out :=
  if neighbor.health = newState then (neighbor, [])
  else ({ neighbor with health := newState }, cb.call neighbor.id newState)

/-! ## initialisation -/

/-- `ekk_heartbeat_init` -/
def init (myId : ModuleId) (config : Option Config) : Except Err Heartbeat :=
  if myId = invalidModuleId then .error .invalidArg
  else
    .ok
      { myId := myId
        neighbors := []
        lastSend := 0
        sendSequence := 0
        config := config.getD Config.default
        callbacks := ⟨false, false, false⟩ }

/-- `ekk_heartbeat_set_callbacks` -/
def setCallbacks (hb : Heartbeat) (cb : Callbacks) : Heartbeat := { hb with callbacks := cb }

/-! ## neighbors -/

def newNeighbor (id : ModuleId) : Neighbor :=
  { id := id, health := .unknown, lastSeen := 0, missedCount := 0, sequence := 0, avgLatency := 0 }

/-- `ekk_heartbeat_add_neighbor` -/
def addNeighbor (hb : Heartbeat) (neighborId : ModuleId) : Except Err Unit × Heartbeat :=
  if neighborId = invalidModuleId then (.error .invalidArg, hb)
  else
    match findNeighborIndex hb neighborId with
    | some _ => (.error .alreadyExists, hb)
    | none =>
      if hb.neighbors.length ≥ maxModules then (.error .noMemory, hb)
      else (.ok (), { hb with neighbors := hb.neighbors ++ [newNeighbor neighborId] })

/-- `ekk_heartbeat_remove_neighbor` -/
def removeNeighbor (hb : Heartbeat) (neighborId : ModuleId) : Except Err Unit × Heartbeat :=
  if neighborId = invalidModuleId then (.error .invalidArg, hb)
  else
    match findNeighborIndex hb neighborId with
    | none => (.error .notFound, hb)
    | some idx => (.ok (), { hb with neighbors := hb.neighbors.eraseIdx idx })

/-! ## heartbeats -/

def hear (config : Config) (neighbor : Neighbor) (sequence : UInt8) (now : TimeUs) : Neighbor :=
  { neighbor with
    avgLatency :=
      if config.trackLatency = true ∧ neighbor.lastSeen > 0 then
        (neighbor.avgLatency * 7 + (now - neighbor.lastSeen)) / 8
      else neighbor.avgLatency
    lastSeen := now
    sequence := sequence
    missedCount := 0 }

/-- `ekk_heartbeat_received` -/
def received (hb : Heartbeat) (senderId : ModuleId) (sequence : UInt8) (now : TimeUs) :
    Except Err Unit × Heartbeat × List Out :=
  if senderId = invalidModuleId then (.error .invalidArg, hb, [])
  else
    match findNeighborIndex hb senderId with
    | none => (.ok (), hb, [])
    | some idx =>
      match hb.neighbors[idx]? with
      | none => (.ok (), hb, [])
      | some neighbor =>
        let (neighbor, outs) :=
          setNeighborHealth hb.callbacks (hear hb.config neighbor sequence now) .alive
        (.ok (), { hb with neighbors := hb.neighbors.set idx neighbor }, outs)

/-! ## time -/

/-- `(uint32_t)(elapsed / period)`; a period of 0 is not used -/
def missedBeats (config : Config) (now : TimeUs) (neighbor : Neighbor) : UInt32 :=
  ((now - neighbor.lastSeen) / config.period).toUInt32

def countMissed (config : Config) (now : TimeUs) (neighbor : Neighbor) : Neighbor :=
  let missed := missedBeats config now neighbor
  if missed > neighbor.missedCount.toUInt32 then
    { neighbor with missedCount := (if missed < 255 then missed else 255).toUInt8 }
  else neighbor

def healthOf (config : Config) (neighbor : Neighbor) : Health :=
  if neighbor.missedCount = 0 then .alive
  else if neighbor.missedCount.toUInt32 < config.timeoutCount then .suspect
  else .dead

/-- the loop of `ekk_heartbeat_tick` for one neighbor -/
def checkNeighbor (config : Config) (cb : Callbacks) (now : TimeUs) (neighbor : Neighbor) :
    Neighbor × List Out :=
  if neighbor.health = .unknown then (neighbor, [])
  else
    let neighbor := countMissed config now neighbor
    setNeighborHealth cb neighbor (healthOf config neighbor)

/-- `ekk_heartbeat_send`; `sent` is the result of `ekk_hal_broadcast`, `time` the one of
`ekk_hal_time_us` after it -/
def send (hb : Heartbeat) (sent : Except Err Unit) (time : TimeUs) :
    Except Err Unit × Heartbeat × List Out :=
  (sent,
    { hb with
      sendSequence := hb.sendSequence + 1
      lastSend := match sent with
        | .ok () => time
        | .error _ => hb.lastSend },
    [.broadcast hb.myId hb.sendSequence (UInt8.ofNat hb.neighbors.length)])

/-- `ekk_heartbeat_tick`, and the number of neighbors whose state changed -/
def tick (hb : Heartbeat) (now : TimeUs) (sent : Except Err Unit) (time : TimeUs) :
    Nat × Heartbeat × List Out :=
  let check := checkNeighbor hb.config hb.callbacks now
  let changes := hb.neighbors.countP fun n => decide ((check n).1.health ≠ n.health)
  let outs := hb.neighbors.flatMap fun n => (check n).2
  let hb := { hb with neighbors := hb.neighbors.map fun n => (check n).1 }
  if hb.config.autoBroadcast = true ∧ now - hb.lastSend ≥ hb.config.period then
    let (_, hb, broadcast) := send hb sent time
    (changes, hb, outs ++ broadcast)
  else (changes, hb, outs)

/-! ## queries -/

/-- `ekk_heartbeat_get_health` -/
def getHealth (hb : Heartbeat) (neighborId : ModuleId) : Health :=
  if neighborId = invalidModuleId then .unknown
  else
    match findNeighborIndex hb neighborId with
    | none => .unknown
    | some idx => ((hb.neighbors[idx]?).map Neighbor.health).getD .unknown

end Heartbeat
end EkKor
