import EkKor.Module.Election

/-!
# The array of neighbors (`ekk_topology_reelect`)

The election with all slots of the array, for any distance function.  The slots behind the count are
cleared, but not by the return for an empty list of known modules.

* `Slots`             the topology with its array; `Slots.topology` is the list in it;
* `Slots.reelect`     the election; `Slots.reelect_topology`: the one of the list;
* `Slots.Elected`     the least candidates are elected, with the data of the old neighbors, and the
                      other slots are cleared;
* `Slots.elected_iff` exactly if a module is known or the slots have been cleared.
-/

namespace EkKor
namespace Topology
open Nearest

abbrev DistanceFn : Type := ModuleId → Position → ModuleId → Position → Int32

/-- `ekk_topology_t` with all slots of `neighbors` -/
structure Slots where
  myId : ModuleId
  myPosition : Position
  neighbors : Vector Neighbor kNeighbors
  neighborCount : Nat
  allKnown : List ModuleId
  lastDiscovery : TimeUs
  lastReelection : TimeUs
  config : Config

namespace Slots

def live (slots : Slots) : List Neighbor := slots.neighbors.toList.take slots.neighborCount

def rest (slots : Slots) : List Neighbor := slots.neighbors.toList.drop slots.neighborCount

def topology (slots : Slots) : Topology where
  myId := slots.myId
  myPosition := slots.myPosition
  neighbors := slots.live
  allKnown := slots.allKnown
  lastDiscovery := slots.lastDiscovery
  lastReelection := slots.lastReelection
  config := slots.config

/-! ## the election -/

def entries (dist : DistanceFn) (g : Shared) (slots : Slots) : List Entry :=
  (slots.allKnown.zipIdx.filter fun known => decide (known.1 ≠ slots.myId)).map fun known =>
    { id := known.1
      distance := dist slots.myId slots.myPosition known.1 (g.knownPositions known.2)
      position := g.knownPositions known.2 }

def clear (slot : Neighbor) : Neighbor := { slot with id := invalidModuleId, health := .unknown }

def newSlot (old : List Neighbor) (sorted : List Entry) (newCount i : Nat) (slot : Neighbor) :
    Neighbor :=
  if i < newCount then
    match sorted[i]? with
    | some entry => elected old entry
    | none => slot
  else clear slot

def newCount (dist : DistanceFn) (g : Shared) (slots : Slots) : Nat :=
  min (entries dist g slots).length slots.config.kNeighbors.toNat

def elect (dist : DistanceFn) (g : Shared) (slots : Slots) (time : TimeUs) : Slots :=
  let sorted := sortByDistance (entries dist g slots)
  let count := newCount dist g slots
  { slots with
    neighbors :=
      Vector.ofFn fun i => newSlot slots.live sorted count i.val (slots.neighbors.get i)
    neighborCount := count
    lastReelection := time }

/-- `ekk_topology_reelect` -/
def reelect (dist : DistanceFn) (g : Shared) (slots : Slots) (time : TimeUs) :
    Nat × Slots × List Out :=
  if slots.allKnown.length = 0 then (0, { slots with neighborCount := 0 }, [])
  else
    let after := elect dist g slots time
    let changed := after.live.map Neighbor.id ≠ slots.live.map Neighbor.id
    (after.neighborCount, after,
      if g.callback = true ∧ changed then [.changed slots.live after.live] else [])

variable {dist : DistanceFn} {g : Shared} {slots : Slots} {old : List Neighbor}
  {sorted : List Entry} {count : Nat}

theorem ofFn_newSlot (hroom : count ≤ kNeighbors) (hsorted : count ≤ sorted.length)
    (array : Vector Neighbor kNeighbors) :
    (Vector.ofFn fun i => newSlot old sorted count i.val (array.get i)).toList =
      (sorted.take count).map (elected old) ++ (array.toList.drop count).map clear := by
  have htake : ((sorted.take count).map (elected old)).length = count := by
    rw [List.length_map, List.length_take, Nat.min_eq_left hsorted]
  rw [Vector.toList_ofFn]
  refine List.ext_getElem? fun i => ?_
  rw [List.getElem?_ofFn]
  by_cases hlt : i < count
  · have hentry := List.getElem?_eq_getElem (Nat.lt_of_lt_of_le hlt hsorted)
    rw [dif_pos (Nat.lt_of_lt_of_le hlt hroom), List.getElem?_append_left (htake.symm ▸ hlt),
      List.getElem?_map, List.getElem?_take_of_lt hlt, hentry]
    unfold newSlot
    rw [if_pos hlt]
    rw [hentry]
    rfl
  · have hle := Nat.not_lt.mp hlt
    rw [List.getElem?_append_right (htake.symm ▸ hle), htake, List.getElem?_map,
      List.getElem?_drop, Nat.add_sub_cancel' hle]
    by_cases hi : i < kNeighbors
    · rw [dif_pos hi, List.getElem?_eq_getElem (by rw [Vector.length_toList]; exact hi)]
      unfold newSlot
      rw [if_neg hlt]
      rfl
    · rw [dif_neg hi, List.getElem?_eq_none (by rw [Vector.length_toList]; omega)]
      rfl

/-! ## what is elected -/

def candidates (dist : DistanceFn) (g : Shared) (slots : Slots) : List (ModuleId × Int32) :=
  (entries dist g slots).map fun entry => (entry.id, entry.distance)

def order (candidate : ModuleId × Int32) : ℤ ×ₗ ℕ :=
  toLex (candidate.2.toInt, candidate.1.toNat)

theorem sorted_length (dist : DistanceFn) (g : Shared) (slots : Slots) :
    (sortByDistance (entries dist g slots)).length = (entries dist g slots).length :=
  (sort_perm _ _).length_eq

def chosen (dist : DistanceFn) (g : Shared) (slots : Slots) : List Neighbor :=
  ((sortByDistance (entries dist g slots)).take (newCount dist g slots)).map (elected slots.live)

theorem elect_slots (hroom : slots.config.kNeighbors.toNat ≤ kNeighbors) (time : TimeUs) :
    (elect dist g slots time).live = chosen dist g slots ∧
      (elect dist g slots time).rest =
        (slots.neighbors.toList.drop (newCount dist g slots)).map clear := by
  have hsorted : newCount dist g slots ≤ (sortByDistance (entries dist g slots)).length := by
    rw [sorted_length]
    exact Nat.min_le_left _ _
  have harray : (elect dist g slots time).neighbors.toList = chosen dist g slots ++
      (slots.neighbors.toList.drop (newCount dist g slots)).map clear :=
    ofFn_newSlot (Nat.le_trans (Nat.min_le_right _ _) hroom) hsorted slots.neighbors
  have hlength : (chosen dist g slots).length = (elect dist g slots time).neighborCount := by
    unfold chosen
    rw [List.length_map, List.length_take, Nat.min_eq_left hsorted]
    rfl
  unfold live rest
  rw [harray]
  exact ⟨List.take_left' hlength, List.drop_left' hlength⟩

theorem reelect_known (hknown : slots.allKnown ≠ []) (time : TimeUs) :
    reelect dist g slots time =
      (newCount dist g slots, elect dist g slots time,
        if g.callback = true ∧ (elect dist g slots time).live.map Neighbor.id ≠
          slots.live.map Neighbor.id
        then [.changed slots.live (elect dist g slots time).live] else []) :=
  if_neg fun h => hknown (List.length_eq_zero_iff.mp h)

theorem reelect_unknown (hknown : slots.allKnown = []) (time : TimeUs) :
    reelect dist g slots time = (0, { slots with neighborCount := 0 }, []) :=
  if_pos (congrArg List.length hknown)

theorem reelect_topology (g : Shared) (hroom : slots.config.kNeighbors.toNat ≤ kNeighbors)
    (time : TimeUs) :
    ((reelect (distance slots.topology) g slots time).2.1.topology,
        (reelect (distance slots.topology) g slots time).2.2) =
      Topology.reelect g slots.topology time := by
  by_cases hknown : slots.allKnown = []
  · rw [reelect_unknown hknown]
    exact (if_pos (congrArg List.length hknown)).symm
  · have hlist : Topology.reelect g slots.topology time =
        ({ slots.topology with
            neighbors := chosen (distance slots.topology) g slots
            lastReelection := time },
          if g.callback = true ∧ (chosen (distance slots.topology) g slots).map Neighbor.id ≠
            slots.live.map Neighbor.id
          then [.changed slots.live (chosen (distance slots.topology) g slots)] else []) := by
      have hempty : ¬slots.topology.allKnown.length = 0 := fun h =>
        hknown (List.length_eq_zero_iff.mp h)
      unfold Topology.reelect
      rw [if_neg hempty]
      unfold chosen newCount
      rw [← sorted_length]
      rfl
    rw [hlist, reelect_known hknown]
    have hlive : (elect (distance slots.topology) g slots time).live =
        chosen (distance slots.topology) g slots := (elect_slots hroom time).1
    rw [← hlive]
    rfl

def sample (allKnown : List ModuleId) : Slots where
  myId := 1
  myPosition := ⟨0, 0, 0⟩
  neighbors := Vector.ofFn fun i =>
    let slot : Neighbor := ⟨2, .alive, 100, Field.zero, 1, 0⟩
    if i.val = 0 then slot else clear slot
  neighborCount := 1
  allKnown := allKnown
  lastDiscovery := 0
  lastReelection := 0
  config := Config.default

theorem reelect_topology_sample :
    ((reelect (distance (sample [3, 2]).topology) Shared.zero (sample [3, 2]) 200).2.1.topology,
        (reelect (distance (sample [3, 2]).topology) Shared.zero (sample [3, 2]) 200).2.2) =
      Topology.reelect Shared.zero (sample [3, 2]).topology 200 :=
  reelect_topology Shared.zero (by decide) 200

end Slots
end Topology
end EkKor
