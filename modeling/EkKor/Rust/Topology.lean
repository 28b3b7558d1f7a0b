import EkKor.Module.Topology

/-!
# The topology in Rust (`topology.rs`)

The second topology of the repository.  `Vec` is a list that does not grow beyond its capacity; a
stable sort of a slice is the insertion sort, which is stable too.

* `KnownModule`, `Topology`   the data; positions, metrics and neighbors are those of the C topology;
* `computeDistance`   the metrics, which are not those of the C topology;
* `onDiscovery`, `onNeighborLost`, `reelect`   the topology.

A function returns `none` when it panics.  With `checks` (the overflow checks of a debug build) an
operation that does not fit its type panics, without them (a release build) it wraps.
-/

namespace EkKor
namespace Rust
open EkKor.Topology (Position Metric Neighbor)

/-- `K_NEIGHBORS`, the capacity of the neighbors -/
abbrev maxNeighbors : Nat := 7

/-- `TopologyConfig` -/
structure TopologyConfig where
  kNeighbors : Nat
  metric : Metric
  discoveryPeriod : TimeUs
  reelectionDelay : TimeUs
  minNeighbors : Nat
  deriving DecidableEq

/-- `TopologyConfig::default` -/
def TopologyConfig.default : TopologyConfig :=
  { kNeighbors := 7
    metric := .logical
    discoveryPeriod := 1000000
    reelectionDelay := 100000
    minNeighbors := 3 }

/-- `KnownModule` -/
structure KnownModule where
  id : ModuleId
  position : Position
  distance : Int32
  lastSeen : TimeUs
  deriving DecidableEq

/-- `Topology`; `onChange`: the callback is set -/
structure Topology where
  myId : ModuleId
  myPosition : Position
  neighbors : List Neighbor
  known : List KnownModule
  lastDiscovery : TimeUs
  lastReelection : TimeUs
  config : TopologyConfig
  onChange : Bool
  deriving DecidableEq

namespace Topology

/-- `Topology::new` -/
def new (myId : ModuleId) (myPosition : Position) (config : Option TopologyConfig) : Topology :=
  { myId := myId
    myPosition := myPosition
    neighbors := []
    known := []
    lastDiscovery := 0
    lastReelection := 0
    config := config.getD TopologyConfig.default
    onChange := false }

/-- `is_neighbor` -/
def isNeighbor (topo : Topology) (moduleId : ModuleId) : Bool :=
  topo.neighbors.any fun n => n.id == moduleId

/-! ## distances -/

section
variable (checks : Bool)

/-- `a - b` -/
def sub16 (a b : Int16) : Option Int16 :=
  if checks && decide ((a - b).toInt ≠ a.toInt - b.toInt) then none else some (a - b)

/-- `a * b` -/
def mul32 (a b : Int32) : Option Int32 :=
  if checks && decide ((a * b).toInt ≠ a.toInt * b.toInt) then none else some (a * b)

/-- `a + b` -/
def add32 (a b : Int32) : Option Int32 :=
  if checks && decide ((a + b).toInt ≠ a.toInt + b.toInt) then none else some (a + b)

/-- `distance_squared` -/
def distanceSquared (p other : Position) : Option Int32 := do
  let dx := (← sub16 checks p.x other.x).toInt32
  let dy := (← sub16 checks p.y other.y).toInt32
  let dz := (← sub16 checks p.z other.z).toInt32
  let xx ← mul32 checks dx dx
  let yy ← mul32 checks dy dy
  let zz ← mul32 checks dz dz
  add32 checks (← add32 checks xx yy) zz

/-- `compute_distance` -/
def computeDistance (topo : Topology) (id : ModuleId) (position : Position) : Option Int32 :=
  match topo.config.metric with
  | .logical => some (Int32.ofNat topo.myId.toNat - Int32.ofNat id.toNat).abs
  | .physical => distanceSquared checks topo.myPosition position
  | .latency => some (Int32.ofNat topo.myId.toNat - Int32.ofNat id.toNat).abs
  | .custom => some 0

end

/-! ## the election -/

/-- `known.sort_by` -/
def sortKnown (known : List KnownModule) : List KnownModule :=
  Nearest.sort (fun a b => decide (a.distance < b.distance)) known

def elected (known : KnownModule) : Neighbor where
  id := known.id
  health := .unknown
  lastSeen := known.lastSeen
  lastField := Field.zero
  logicalDistance := known.distance
  missedHeartbeats := 0

/-- `reelect`, and the number of neighbors; the known modules stay sorted -/
def reelect (topo : Topology) : Nat × Topology × List EkKor.Topology.Out :=
  let known := sortKnown topo.known
  let candidates := known.filter fun m => decide (m.id ≠ topo.myId ∧ m.id ≠ invalidModuleId)
  let neighbors := (candidates.take (min topo.config.kNeighbors maxNeighbors)).map elected
  (neighbors.length, { topo with known := known, neighbors := neighbors },
    if topo.onChange = true then [.changed topo.neighbors neighbors] else [])

/-! ## discovery and loss -/

def note (known : List KnownModule) (entry : KnownModule) : List KnownModule :=
  match Keyed.index KnownModule.id known entry.id with
  | some i => known.set i entry
  | none => if known.length < maxModules then known ++ [entry] else known

/-- `on_discovery` -/
def onDiscovery (checks : Bool) (topo : Topology) (senderId : ModuleId)
    (senderPosition : Position) (now : TimeUs) :
    Option (Except Err Bool × Topology × List EkKor.Topology.Out) :=
  if senderId = topo.myId ∨ senderId = invalidModuleId then some (.error .invalidArg, topo, [])
  else do
    let distance ← topo.computeDistance checks senderId senderPosition
    let topo :=
      { topo with known := note topo.known ⟨senderId, senderPosition, distance, now⟩ }
    if topo.isNeighbor senderId = false ∧ topo.neighbors.length < topo.config.kNeighbors then
      some (.ok true, topo.reelect.2)
    else some (.ok false, topo, [])

/-- `on_neighbor_lost`: the module stays known -/
def onNeighborLost (topo : Topology) (lostId : ModuleId) :
    Except Err Unit × Topology × List EkKor.Topology.Out :=
  match Keyed.index Neighbor.id topo.neighbors lostId with
  | some pos => (.ok (), ({ topo with neighbors := topo.neighbors.eraseIdx pos }).reelect.2)
  | none => (.error .notFound, topo, [])

end Topology
end Rust
end EkKor
