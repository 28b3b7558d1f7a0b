import EkKor.Lib.Nearest
import EkKor.Module.Heartbeat

/-!
# The topology (`ekk_topology.c`)

Arrays with a count are lists.  `Shared` is what the file keeps for all topologies of the process:
the positions of the known modules are among it.

* `Topology.Neighbor`, `Topology`, `Topology.Shared`   the data;
* `distance`          the metrics; `sortByDistance` the insertion sort;
* `onDiscovery`, `onNeighborLost`, `reelect`, `tick`   the API.
-/

namespace EkKor

/-- `ekk_field_t` -/
structure Field where
  components : Vector Int32 6
  timestamp : TimeUs
  source : ModuleId
  sequence : UInt8
  deriving DecidableEq

def Field.zero : Field := ⟨Vector.replicate 6 0, 0, 0, 0⟩

namespace Topology

/-- `ekk_position_t` -/
structure Position where
  x : Int16
  y : Int16
  z : Int16
  deriving DecidableEq

/-- `ekk_distance_metric_t` -/
inductive Metric where
  | logical
  | physical
  | latency
  | custom
  deriving DecidableEq, Repr

/-- `ekk_topology_config_t` -/
structure Config where
  kNeighbors : UInt32
  metric : Metric
  discoveryPeriod : TimeUs
  reelectionDelay : TimeUs
  minNeighbors : UInt32
  deriving DecidableEq

/-- `EKK_TOPOLOGY_CONFIG_DEFAULT` -/
def Config.default : Config :=
  { kNeighbors := 7
    metric := .logical
    discoveryPeriod := 1000000
    reelectionDelay := 100000
    minNeighbors := 3 }

/-- `ekk_neighbor_t`, without its capabilities, which nothing sets or reads -/
structure Neighbor where
  id : ModuleId
  health : Health
  lastSeen : TimeUs
  lastField : Field
  logicalDistance : Int32
  missedHeartbeats : UInt8
  deriving DecidableEq

/-- the topology callback and `ekk_discovery_msg_t` as it is broadcast -/
inductive Out where
  | changed (old new : List Neighbor)
  | broadcast (senderId : ModuleId) (position : Position) (neighborCount : UInt8)
      (sequence : UInt16)
  deriving DecidableEq

/-- the variables of the file: `g_known_positions`, `g_topology_callback`, which is null or not, and
`g_discovery_sequence` -/
structure Shared where
  knownPositions : Nat → Position
  callback : Bool
  discoverySequence : UInt16

def Shared.zero : Shared := ⟨fun _ => ⟨0, 0, 0⟩, false, 0⟩

end Topology

/-- `ekk_topology_t` -/
structure Topology where
  myId : ModuleId
  myPosition : Topology.Position
  neighbors : List Topology.Neighbor
  allKnown : List ModuleId
  lastDiscovery : TimeUs
  lastReelection : TimeUs
  config : Topology.Config
  deriving DecidableEq

namespace Topology

/-! ## known modules -/

/-- `find_known_index` -/
def findKnownIndex (topo : Topology) (id : ModuleId) : Option Nat :=
  Keyed.index (fun i => i) topo.allKnown id

/-- `find_neighbor_index` -/
def findNeighborIndex (topo : Topology) (id : ModuleId) : Option Nat :=
  Keyed.index Neighbor.id topo.neighbors id

/-- `add_to_known`; `none` for -1 -/
def addToKnown (g : Shared) (topo : Topology) (id : ModuleId) (pos : Position) :
    Option (Shared × Topology) :=
  match findKnownIndex topo id with
  | some idx => some ({ g with knownPositions := Function.update g.knownPositions idx pos }, topo)
  | none =>
    if topo.allKnown.length ≥ maxModules then none
    else
      some
        ({ g with
            knownPositions := Function.update g.knownPositions topo.allKnown.length pos },
          { topo with allKnown := topo.allKnown ++ [id] })

/-- `remove_from_known`: what is behind the module moves down, with the positions -/
def removeFromKnown (g : Shared) (topo : Topology) (id : ModuleId) : Shared × Topology :=
  match findKnownIndex topo id with
  | none => (g, topo)
  | some idx =>
    ({ g with
        knownPositions := fun i =>
          if idx ≤ i ∧ i + 1 < topo.allKnown.length then g.knownPositions (i + 1)
          else g.knownPositions i },
      { topo with allKnown := topo.allKnown.eraseIdx idx })

/-! ## distances -/

/-- `position_distance_sq`, in 32 bits -/
def positionDistanceSq (a b : Position) : Int32 :=
  let dx := a.x.toInt32 - b.x.toInt32
  let dy := a.y.toInt32 - b.y.toInt32
  let dz := a.z.toInt32 - b.z.toInt32
  dx * dx + dy * dy + dz * dz

/-- the loop of `isqrt`: `x` goes down in every round -/
def isqrtLoop (n x y : Int32) : Int32 :=
  if y < x then isqrtLoop n y ((y + n / y) / 2) else x
termination_by (x.toInt + 2 ^ 31).toNat
decreasing_by
  rename_i h
  have hlt := Int32.lt_iff_toInt_lt.mp h
  have hle := y.le_toInt
  omega

/-- `isqrt` -/
def isqrt (n : Int32) : Int32 :=
  if n ≤ 0 then 0
  else if n = 1 then 1
  else isqrtLoop n n ((n + 1) / 2)

def idDistance (a b : ModuleId) : Int32 :=
  Int32.ofNat (if a > b then a.toNat - b.toNat else b.toNat - a.toNat)

/-- `ekk_topology_distance`, with the default `ekk_topology_distance_custom` -/
def distance (topo : Topology) (idA : ModuleId) (posA : Position) (idB : ModuleId)
    (posB : Position) : Int32 :=
  match topo.config.metric with
  | .logical => idDistance idA idB
  | .physical => isqrt (positionDistanceSq posA posB)
  | .latency => idDistance idA idB
  | .custom => idDistance idA idB

/-- `distance_entry_t` -/
structure Entry where
  id : ModuleId
  distance : Int32
  position : Position

/-- `entry_less_than` -/
def entryLessThan (a b : Entry) : Bool :=
  if a.distance ≠ b.distance then decide (a.distance < b.distance) else decide (a.id < b.id)

/-- `sort_by_distance` -/
def sortByDistance (entries : List Entry) : List Entry := Nearest.sort entryLessThan entries

/-! ## initialisation -/

/-- `ekk_topology_init` -/
def init (myId : ModuleId) (myPosition : Position) (config : Option Config) :
    Except Err Topology :=
  if myId = invalidModuleId then .error .invalidArg
  else
    .ok
      { myId := myId
        myPosition := myPosition
        neighbors := []
        allKnown := []
        lastDiscovery := 0
        lastReelection := 0
        config := config.getD Config.default }

/-! ## the election -/

def entryAt (g : Shared) (topo : Topology) (id : ModuleId) (idx : Nat) : Entry where
  id := id
  distance := distance topo topo.myId topo.myPosition id (g.knownPositions idx)
  position := g.knownPositions idx

def entries (g : Shared) (topo : Topology) : List Entry :=
  (topo.allKnown.zipIdx.filter fun known => decide (known.1 ≠ topo.myId)).map fun known =>
    entryAt g topo known.1 known.2

def newNeighbor (entry : Entry) : Neighbor where
  id := entry.id
  health := .unknown
  lastSeen := 0
  lastField := Field.zero
  logicalDistance := entry.distance
  missedHeartbeats := 0

def elected (old : List Neighbor) (entry : Entry) : Neighbor :=
  { ((Keyed.lookup Neighbor.id old entry.id).getD (newNeighbor entry)) with
    logicalDistance := entry.distance }

/-- `ekk_topology_reelect`; `time` is the value of `ekk_hal_time_us` -/
def reelect (g : Shared) (topo : Topology) (time : TimeUs) : Topology × List Out :=
  if topo.allKnown.length = 0 then ({ topo with neighbors := [] }, [])
  else
    let sorted := sortByDistance (entries g topo)
    let neighbors :=
      (sorted.take (min sorted.length topo.config.kNeighbors.toNat)).map (elected topo.neighbors)
    let changed := neighbors.map Neighbor.id ≠ topo.neighbors.map Neighbor.id
    ({ topo with neighbors := neighbors, lastReelection := time },
      if g.callback = true ∧ changed then [.changed topo.neighbors neighbors] else [])

/-! ## discovery and loss -/

/-- `ekk_topology_on_discovery` -/
def onDiscovery (g : Shared) (topo : Topology) (senderId : ModuleId) (senderPosition : Position)
    (time : TimeUs) : Except Err Unit × Shared × Topology × List Out :=
  if senderId = invalidModuleId then (.error .invalidArg, g, topo, [])
  else if senderId = topo.myId then (.ok (), g, topo, [])
  else
    match addToKnown g topo senderId senderPosition with
    | none => (.error .noMemory, g, topo, [])
    | some (g, topo) =>
      if topo.neighbors.length < topo.config.kNeighbors.toNat then
        (.ok (), g, reelect g topo time)
      else (.ok (), g, topo, [])

/-- `ekk_topology_on_neighbor_lost` -/
def onNeighborLost (g : Shared) (topo : Topology) (lostId : ModuleId) (time : TimeUs) :
    Except Err Unit × Shared × Topology × List Out :=
  if lostId = invalidModuleId then (.error .invalidArg, g, topo, [])
  else
    match findNeighborIndex topo lostId with
    | none => (.error .notFound, g, topo, [])
    | some idx =>
      let (g, topo) := removeFromKnown g topo lostId
      (.ok (), g, reelect g { topo with neighbors := topo.neighbors.eraseIdx idx } time)

/-! ## time -/

/-- `send_discovery` -/
def sendDiscovery (g : Shared) (topo : Topology) : Shared × List Out :=
  ({ g with discoverySequence := g.discoverySequence + 1 },
    [.broadcast topo.myId topo.myPosition (UInt8.ofNat topo.neighbors.length)
      g.discoverySequence])

/-- `ekk_topology_tick`, which returns false -/
def tick (g : Shared) (topo : Topology) (now : TimeUs) : Shared × Topology × List Out :=
  let (g, topo, outs) :=
    if now - topo.lastDiscovery ≥ topo.config.discoveryPeriod then
      let (g, outs) := sendDiscovery g topo
      (g, { topo with lastDiscovery := now }, outs)
    else (g, topo, [])
  if topo.neighbors.length < topo.config.minNeighbors.toNat ∧
      now - topo.lastDiscovery ≥ topo.config.discoveryPeriod / 4 then
    let (g, more) := sendDiscovery g topo
    (g, { topo with lastDiscovery := now }, outs ++ more)
  else (g, topo, outs)

/-! ## queries -/

/-- `ekk_topology_is_neighbor` -/
def isNeighbor (topo : Topology) (moduleId : ModuleId) : Bool :=
  if moduleId = invalidModuleId then false else (findNeighborIndex topo moduleId).isSome

end Topology
end EkKor
