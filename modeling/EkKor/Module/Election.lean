import EkKor.Lib.Runs
import EkKor.Module.Topology
import Mathlib.Data.Prod.Lex

/-!
# The neighbors of a module

* `nearest_elected_iff`   they are the nearest of the known modules;
* `Sane`   they are known, and nobody sets their health.
-/

/-!
# The election of the neighbors

Runs of the one topology of a process.

* `Op`, `topology`    the calls;
* `Known`             the list of known modules, with the positions that were received last;
* `reelect_nearest`   an election finds the nearest of them, by the distance and then the id;
* `NearestElected`    the neighbors are the nearest of the known modules;
* `Settled`           a message that comes while the list is full does not change who they are;
* `nearest_elected_iff`   the neighbors are the nearest after every call exactly in the runs whose
                      messages meet this condition.
-/

namespace EkKor
open List Function
namespace Topology
open Runs Nearest

/-! ## runs -/

/-- the calls, with the value of `ekk_hal_time_us` -/
inductive Op where
  | discovery (senderId : ModuleId) (position : Position) (time : TimeUs)
  | lost (lostId : ModuleId) (time : TimeUs)
  | reelect (time : TimeUs)

def step (s : Shared × Topology) : Op → (Shared × Topology) × List Out
  | .discovery senderId position time =>
    let (_, g, topo, outs) := onDiscovery s.1 s.2 senderId position time
    ((g, topo), outs)
  | .lost lostId time =>
    let (_, g, topo, outs) := onNeighborLost s.1 s.2 lostId time
    ((g, topo), outs)
  | .reelect time =>
    let (topo, outs) := Topology.reelect s.1 s.2 time
    ((s.1, topo), outs)

def topology (g : Shared) (topo : Topology) : Machine (Shared × Topology) Op Out := ⟨(g, topo), step⟩

def latestStep (pos : ModuleId → Position) : Op → ModuleId → Position
  | .discovery senderId position _ => update pos senderId position
  | _ => pos

def latest (ops : List Op) : ModuleId → Position := ops.foldl latestStep fun _ => ⟨0, 0, 0⟩

/-! ## the nearest -/

variable {g : Shared} {topo : Topology} {pos : ModuleId → Position} {id : ModuleId}
  {p : Position} {ops : List Op} {op : Op}

def rank (topo : Topology) (p : Position) (id : ModuleId) : ℤ ×ₗ ℕ :=
  toLex ((distance topo topo.myId topo.myPosition id p).toInt, id.toNat)

theorem rank_inj {p p' : Position} {id id' : ModuleId} (h : rank topo p id = rank topo p' id') :
    id = id' := UInt8.toNat_inj.mp (congrArg Prod.snd (toLex.injective h))

def ids (topo : Topology) : List ModuleId := topo.neighbors.map Neighbor.id

abbrev wanted (topo : Topology) : Nat := topo.config.kNeighbors.toNat

/-- the known modules are different and not the module itself, and their positions are the ones that
were received last -/
structure Known (g : Shared) (topo : Topology) (pos : ModuleId → Position) : Prop where
  nodup : topo.allKnown.Nodup
  others : topo.myId ∉ topo.allKnown
  valid : invalidModuleId ∉ topo.allKnown
  placed : ∀ i id, topo.allKnown[i]? = some id → g.knownPositions i = pos id

theorem Known.length_lt (h : Known g topo pos) : topo.allKnown.length < maxModules :=
  length_lt_maxModules h.nodup h.valid

def entryOf (topo : Topology) (pos : ModuleId → Position) (id : ModuleId) : Entry :=
  ⟨id, distance topo topo.myId topo.myPosition id (pos id), pos id⟩

theorem Known.entries_eq (h : Known g topo pos) :
    entries g topo = topo.allKnown.map (entryOf topo pos) := by
  have hself (known : ModuleId × Nat) (hmem : known ∈ topo.allKnown.zipIdx) :
      known.1 ≠ topo.myId := fun he => h.others (he ▸ fst_mem_of_mem_zipIdx hmem)
  unfold entries
  rw [filter_eq_self.mpr fun known hmem => decide_eq_true (hself known hmem)]
  refine ext_getElem? fun i => ?_
  rw [getElem?_map, getElem?_map, getElem?_zipIdx]
  cases hi : topo.allKnown[i]? with
  | none => rfl
  | some id =>
    have hplaced := h.placed i id hi
    rw [Option.map_some, Option.map_some, Option.map_some, Nat.zero_add]
    unfold entryAt entryOf
    rw [hplaced]

theorem entryLessThan_eq (a b : Entry) :
    entryLessThan a b = byKey (fun entry => toLex (entry.distance.toInt, entry.id.toNat)) a b := by
  unfold entryLessThan byKey
  rw [Bool.eq_iff_iff, decide_eq_true_iff, Prod.Lex.toLex_lt_toLex]
  split_ifs with hne
  · rw [decide_eq_true_iff, Int32.lt_iff_toInt_lt]
    exact ⟨.inl, fun h => h.resolve_right fun he => hne (Int32.toInt_inj.mp he.1)⟩
  · rw [decide_eq_true_iff, UInt8.lt_iff_toNat_lt]
    rw [not_not] at hne
    rw [hne]
    exact ⟨fun h => .inr ⟨rfl, h⟩, fun h => (h.resolve_left (lt_irrefl _)).2⟩

theorem elected_id (old : List Neighbor) (entry : Entry) : (elected old entry).id = entry.id := by
  unfold elected
  cases h : Keyed.lookup Neighbor.id old entry.id with
  | none => rfl
  | some n => exact (Keyed.mem_of_lookup h).2

/-- **An election.** -/
theorem reelect_ids (h : Known g topo pos) (time : TimeUs) :
    ids (reelect g topo time).1 =
      (Nearest.sort (byKey fun id => rank topo (pos id) id) topo.allKnown).take (wanted topo) := by
  unfold reelect
  by_cases hempty : topo.allKnown.length = 0
  · rw [if_pos hempty, length_eq_zero_iff.mp hempty]
    exact (take_nil).symm
  · rw [if_neg hempty]
    have hsorted : sortByDistance (entries g topo) =
        (Nearest.sort (byKey fun id => rank topo (pos id) id) topo.allKnown).map
          (entryOf topo pos) := by
      unfold sortByDistance
      rw [h.entries_eq, sort_map]
      congr 2
      funext a b
      exact entryLessThan_eq (entryOf topo pos a) (entryOf topo pos b)
    rw [hsorted]
    show List.map Neighbor.id (List.map _ _) = _
    rw [map_map, length_map, ← map_take, map_map, Nat.min_comm,
      ← take_eq_take_min]
    exact (map_congr_left fun id _ => elected_id ..).trans (map_id' _)

theorem reelect_frame (g : Shared) (topo : Topology) (time : TimeUs) :
    (reelect g topo time).1.allKnown = topo.allKnown ∧ (reelect g topo time).1.myId = topo.myId ∧
      (reelect g topo time).1.myPosition = topo.myPosition ∧
      (reelect g topo time).1.config = topo.config := by
  unfold reelect
  split_ifs <;> exact ⟨rfl, rfl, rfl, rfl⟩

theorem rank_congr {topo' : Topology} (hid : topo'.myId = topo.myId)
    (hpos : topo'.myPosition = topo.myPosition) (hconfig : topo'.config = topo.config) :
    rank topo' = rank topo := by
  unfold rank distance
  rw [hid, hpos, hconfig]

/-- the neighbors are the nearest of the known modules -/
structure NearestElected (topo : Topology) (pos : ModuleId → Position) : Prop where
  least : Least (fun id => rank topo (pos id) id) (wanted topo) topo.allKnown (ids topo)
  nodup : (ids topo).Nodup
  others : topo.myId ∉ ids topo

theorem nearest_of_least (h : Known g topo pos)
    (hleast : Least (fun id => rank topo (pos id) id) (wanted topo) topo.allKnown (ids topo)) :
    NearestElected topo pos :=
  ⟨hleast, hleast.nodup, fun hself => h.others (hleast.subset hself)⟩

theorem Known.nodup_rank (h : Known g topo pos) :
    (topo.allKnown.map fun id => rank topo (pos id) id).Nodup := by
  refine (nodup_map_iff_inj_on h.nodup).mpr fun a _ b _ hab => rank_inj hab

theorem reelect_nearest (h : Known g topo pos) (time : TimeUs) :
    Known g (reelect g topo time).1 pos ∧ NearestElected (reelect g topo time).1 pos := by
  obtain ⟨hknown, hid, hposition, hconfig⟩ := reelect_frame g topo time
  have hk : Known g (reelect g topo time).1 pos :=
    ⟨hknown ▸ h.nodup, hknown ▸ hid ▸ h.others, hknown ▸ h.valid, hknown ▸ h.placed⟩
  refine ⟨hk, nearest_of_least hk ?_⟩
  rw [rank_congr hid hposition hconfig, hknown, reelect_ids h]
  unfold wanted
  rw [hconfig]
  exact least_sort h.nodup_rank _

/-! ## the list of known modules -/

theorem mem_of_index {l : List ModuleId} {i : Nat} (h : Keyed.index (fun i => i) l id = some i) :
    l[i]? = some id := by
  obtain ⟨a, ha, hlookup⟩ := Keyed.index_eq_some h
  rw [ha, (Keyed.mem_of_lookup hlookup).2]

theorem index_none_iff {l : List ModuleId} : Keyed.index (fun i => i) l id = none ↔ id ∉ l := by
  rw [Keyed.index_eq_none, Keyed.lookup_eq_none, map_id']

theorem Known.add (h : Known g topo pos) (hvalid : id ≠ invalidModuleId) (hself : id ≠ topo.myId)
    (p : Position) : ∃ g' topo', addToKnown g topo id p = some (g', topo') ∧
      Known g' topo' (update pos id p) ∧
      topo' = { topo with
        allKnown := if id ∈ topo.allKnown then topo.allKnown else topo.allKnown ++ [id] } := by
  unfold addToKnown findKnownIndex
  cases hi : Keyed.index (fun i => i) topo.allKnown id with
  | some idx =>
    have hidx := mem_of_index hi
    refine ⟨_, _, rfl, ⟨h.nodup, h.others, h.valid, fun i id' hi' => ?_⟩, ?_⟩
    · dsimp only
      by_cases hsame : i = idx
      · subst hsame
        rw [hidx] at hi'
        obtain rfl := Option.some.inj hi'
        rw [update_self, update_self]
      · have hne : id' ≠ id := by
          rintro rfl
          have hlt := (List.getElem?_eq_some_iff.mp hi').1
          exact hsame ((getElem?_inj hlt h.nodup).mp (hi'.trans hidx.symm))
        rw [update_of_ne hsame, update_of_ne hne, h.placed i id' hi']
    · rw [if_pos (mem_of_getElem? hidx)]
  | none =>
    have hnew := index_none_iff.mp hi
    rw [if_neg (Nat.not_le.mpr h.length_lt)]
    refine ⟨_, _, rfl, ⟨?_, ?_, ?_, fun i id' hi' => ?_⟩, ?_⟩
    · exact nodup_append.mpr ⟨h.nodup, nodup_singleton id, fun a ha b hb he =>
        hnew (mem_singleton.mp hb ▸ he ▸ ha)⟩
    · rw [mem_append, not_or]
      exact ⟨h.others, fun he => hself (mem_singleton.mp he).symm⟩
    · rw [mem_append, not_or]
      exact ⟨h.valid, fun he => hvalid (mem_singleton.mp he).symm⟩
    · dsimp only at hi' ⊢
      rw [getElem?_append] at hi'
      split_ifs at hi' with hlt
      · have hne : id' ≠ id := fun he => hnew (he ▸ mem_of_getElem? hi')
        rw [update_of_ne (Nat.ne_of_lt hlt), update_of_ne hne,
          h.placed i id' hi']
      · rw [getElem?_singleton] at hi'
        split_ifs at hi' with hzero
        obtain rfl := Option.some.inj hi'
        have hlast : i = topo.allKnown.length := by omega
        rw [hlast, update_self, update_self]
    · rw [if_neg hnew]

theorem Known.remove (h : Known g topo pos) (id : ModuleId) :
    Known (removeFromKnown g topo id).1 (removeFromKnown g topo id).2 pos ∧
      (removeFromKnown g topo id).2 = { topo with
        allKnown := (removeFromKnown g topo id).2.allKnown } := by
  unfold removeFromKnown findKnownIndex
  cases hi : Keyed.index (fun i => i) topo.allKnown id with
  | none => exact ⟨h, rfl⟩
  | some idx =>
    have hsub := eraseIdx_sublist topo.allKnown idx
    refine ⟨⟨h.nodup.sublist hsub, fun hmem => h.others (hsub.subset hmem),
      fun hmem => h.valid (hsub.subset hmem), fun i id' hi' => ?_⟩, rfl⟩
    dsimp only at hi' ⊢
    rw [getElem?_eraseIdx] at hi'
    split_ifs at hi' with hlt
    · rw [if_neg fun hle => Nat.not_le.mpr hlt hle.1]
      exact h.placed i id' hi'
    · rw [if_pos ⟨Nat.not_lt.mp hlt, (List.getElem?_eq_some_iff.mp hi').1⟩]
      exact h.placed (i + 1) id' hi'

theorem NearestElected.unknown (hk : Known g topo pos) (h : NearestElected topo pos)
    (hid : id ∉ topo.allKnown) (p : Position) :
    Known g topo (update pos id p) ∧ NearestElected topo (update pos id p) := by
  have hother {a : ModuleId} (ha : a ∈ topo.allKnown) : update pos id p a = pos a :=
    update_of_ne (fun he : a = id => hid (he ▸ ha)) ..
  refine ⟨⟨hk.nodup, hk.others, hk.valid, fun i a hi => ?_⟩,
    ⟨h.least.congr fun a ha => by rw [hother ha], h.nodup, h.others⟩⟩
  rw [hother (mem_of_getElem? hi)]
  exact hk.placed i a hi

/-! ## one call -/

/-- the condition on a message that comes while the list is full: a module that is not a neighbor is
behind all neighbors, and a neighbor keeps its place among them and is before all others -/
def Settled (topo : Topology) (pos : ModuleId → Position) : Op → Prop
  | .discovery senderId position _ =>
    senderId ≠ invalidModuleId → senderId ≠ topo.myId → wanted topo ≤ topo.neighbors.length →
      (senderId ∉ ids topo → ∀ a ∈ ids topo, rank topo (pos a) a < rank topo position senderId) ∧
        (senderId ∈ ids topo →
          (∀ a ∈ ids topo, a ≠ senderId →
            (rank topo (pos a) a < rank topo position senderId ↔
              rank topo (pos a) a < rank topo (pos senderId) senderId)) ∧
          ∀ b ∈ topo.allKnown, b ∉ ids topo → rank topo position senderId < rank topo (pos b) b)
  | _ => True

theorem rank_update (topo : Topology) (pos : ModuleId → Position) (id : ModuleId) (p : Position) :
    (fun a => rank topo (update pos id p a) a) =
      update (fun a => rank topo (pos a) a) id (rank topo p id) := by
  funext a
  by_cases ha : a = id
  · rw [ha, update_self, update_self]
  · rw [update_of_ne ha, update_of_ne ha]

theorem full_iff (h : NearestElected topo pos) (id : ModuleId) (p : Position)
    (hfull : wanted topo ≤ topo.neighbors.length) :
    Least (fun a => rank topo (update pos id p a) a) (wanted topo)
        (if id ∈ topo.allKnown then topo.allKnown else topo.allKnown ++ [id]) (ids topo) ↔
      (id ∉ ids topo → ∀ a ∈ ids topo, rank topo (pos a) a < rank topo p id) ∧
        (id ∈ ids topo →
          (∀ a ∈ ids topo, a ≠ id → (rank topo (pos a) a < rank topo p id ↔
            rank topo (pos a) a < rank topo (pos id) id)) ∧
          ∀ b ∈ topo.allKnown, b ∉ ids topo → rank topo p id < rank topo (pos b) b) := by
  rw [rank_update]
  by_cases hin : id ∈ topo.allKnown
  · rw [if_pos hin]
    exact h.least.update_iff hin fun a _ hne he => hne (rank_inj he)
  · have hlen : wanted topo ≤ (ids topo).length := by
      unfold ids
      rw [length_map]
      exact hfull
    have hnot : id ∉ ids topo := fun hmem => hin (h.least.subset hmem)
    rw [if_neg hin, h.least.concat_iff hlen hin]
    exact ⟨fun hlt => ⟨fun _ => hlt, fun hmem => absurd hmem hnot⟩, fun hlt => hlt.1 hnot⟩

/-- **One call.** The known modules stay right, and the neighbors are the nearest of them after it
exactly when the condition holds before. -/
theorem step_iff (hk : Known g topo pos) (h : NearestElected topo pos) (op : Op) :
    Known (step (g, topo) op).1.1 (step (g, topo) op).1.2 (latestStep pos op) ∧
      (NearestElected (step (g, topo) op).1.2 (latestStep pos op) ↔ Settled topo pos op) := by
  cases op with
  | discovery senderId p time =>
    unfold step latestStep Settled onDiscovery
    by_cases hinvalid : senderId = invalidModuleId
    · obtain ⟨hk', h'⟩ := h.unknown hk (hinvalid ▸ hk.valid) p
      dsimp only
      rw [if_pos hinvalid]
      exact ⟨hk', fun _ hvalid => absurd hinvalid hvalid, fun _ => h'⟩
    by_cases hself : senderId = topo.myId
    · obtain ⟨hk', h'⟩ := h.unknown hk (hself ▸ hk.others) p
      dsimp only
      rw [if_neg hinvalid, if_pos hself]
      exact ⟨hk', fun _ _ hother => absurd hself hother, fun _ => h'⟩
    · obtain ⟨g', topo', hadd, hk', htopo⟩ := hk.add hinvalid hself p
      dsimp only
      rw [if_neg hinvalid, if_neg hself, hadd]
      dsimp only
      have hneighbors : topo'.neighbors = topo.neighbors := by rw [htopo]
      have hwanted : topo'.config.kNeighbors.toNat = wanted topo := by rw [htopo]
      rw [hneighbors, hwanted]
      by_cases hroom : topo.neighbors.length < wanted topo
      · rw [if_pos hroom]
        obtain ⟨hknown, helected⟩ := reelect_nearest hk' time
        exact ⟨hknown, fun _ _ _ hfull => absurd hroom (Nat.not_lt.mpr hfull), fun _ => helected⟩
      · rw [if_neg hroom]
        have hiff := full_iff h senderId p (Nat.not_lt.mp hroom)
        refine ⟨hk', fun helected _ _ _ => hiff.mp ?_, fun hsettled => nearest_of_least hk' ?_⟩
        · have hleast := helected.least
          rw [htopo] at hleast
          exact hleast
        · rw [htopo]
          exact hiff.mpr (hsettled hinvalid hself (Nat.not_lt.mp hroom))
  | lost lostId time =>
    unfold step latestStep Settled onNeighborLost
    by_cases hinvalid : lostId = invalidModuleId
    · dsimp only
      rw [if_pos hinvalid]
      exact ⟨hk, fun _ => trivial, fun _ => h⟩
    · dsimp only
      rw [if_neg hinvalid]
      cases findNeighborIndex topo lostId with
      | none => exact ⟨hk, fun _ => trivial, fun _ => h⟩
      | some idx =>
        obtain ⟨hk', -⟩ := hk.remove lostId
        have hless : Known (removeFromKnown g topo lostId).1
            { (removeFromKnown g topo lostId).2 with
              neighbors := (removeFromKnown g topo lostId).2.neighbors.eraseIdx idx } pos :=
          ⟨hk'.nodup, hk'.others, hk'.valid, hk'.placed⟩
        obtain ⟨hknown, helected⟩ := reelect_nearest hless time
        exact ⟨hknown, fun _ => trivial, fun _ => helected⟩
  | reelect time =>
    obtain ⟨hknown, helected⟩ := reelect_nearest hk time
    exact ⟨hknown, fun _ => trivial, fun _ => helected⟩

/-! ## runs -/

abbrev after (g : Shared) (topo : Topology) (ops : List Op) : Shared × Topology :=
  (topology g topo).run ops

def NearestAfter (g : Shared) (topo : Topology) (pre : List Op) (op : Op) : Prop :=
  NearestElected (after g topo (pre ++ [op])).2 (latest (pre ++ [op]))

def SettledBefore (g : Shared) (topo : Topology) (pre : List Op) (op : Op) : Prop :=
  Settled (after g topo pre).2 (latest pre) op

theorem latest_concat (ops : List Op) (op : Op) :
    latest (ops ++ [op]) = latestStep (latest ops) op := foldl_concat ..

theorem init_nearest {myId : ModuleId} {myPosition : Position} {config : Option Config}
    (h : init myId myPosition config = .ok topo) (g : Shared) :
    Known g topo (latest []) ∧ NearestElected topo (latest []) := by
  unfold init at h
  split_ifs at h
  obtain rfl := Except.ok.inj h
  have hk : Known g ⟨myId, myPosition, [], [], 0, 0, config.getD Config.default⟩ (latest []) :=
    ⟨nodup_nil, not_mem_nil, not_mem_nil, fun i id hi => by
      cases hi⟩
  refine ⟨hk, nearest_of_least hk ⟨List.Pairwise.nil, List.Subset.refl _, ?_, ?_⟩⟩
  · exact (Nat.min_zero _).symm
  · exact fun a ha => absurd ha not_mem_nil

theorem nearest_of_runs (hk : Known g topo (latest [])) (h : NearestElected topo (latest []))
    (hsteps : EveryStep (NearestAfter g topo) ops) :
    Known (after g topo ops).1 (after g topo ops).2 (latest ops) ∧
      NearestElected (after g topo ops).2 (latest ops) := by
  induction ops using List.reverseRecOn with
  | nil => exact ⟨hk, h⟩
  | append_singleton ops op ih =>
    obtain ⟨hbefore, hlast⟩ := (everyStep_concat _ ops op).mp hsteps
    obtain ⟨hk', h'⟩ := ih hbefore
    refine ⟨?_, hlast⟩
    rw [latest_concat, show after g topo (ops ++ [op]) = (step (after g topo ops) op).1 from
      Machine.run_concat ..]
    exact (step_iff hk' h' op).1

/-- **Main.** The neighbors are the nearest known modules after every call exactly when every message
that comes while the list is full meets the condition. -/
theorem nearest_elected_iff {myId : ModuleId} {myPosition : Position} {config : Option Config}
    (hinit : init myId myPosition config = .ok topo) (_hk : wanted topo ≤ kNeighbors) (g : Shared)
    (ops : List Op) :
    EveryStep (NearestAfter g topo) ops ↔ EveryStep (SettledBefore g topo) ops := by
  obtain ⟨hk, h⟩ := init_nearest hinit g
  have hstep (pre : List Op) (op : Op) (hpre : EveryStep (NearestAfter g topo) pre) :
      NearestAfter g topo pre op ↔ SettledBefore g topo pre op := by
    obtain ⟨hk', h'⟩ := nearest_of_runs hk h hpre
    unfold NearestAfter SettledBefore
    rw [latest_concat, show after g topo (pre ++ [op]) = (step (after g topo pre) op).1 from
      Machine.run_concat ..]
    exact (step_iff hk' h' op).2
  induction ops using List.reverseRecOn with
  | nil => exact ⟨fun _ => everyStep_nil _, fun _ => everyStep_nil _⟩
  | append_singleton ops op ih =>
    rw [everyStep_concat, everyStep_concat]
    constructor
    · rintro ⟨hbefore, hlast⟩
      exact ⟨ih.mp hbefore, (hstep ops op hbefore).mp hlast⟩
    · rintro ⟨hbefore, hlast⟩
      have hnearest := ih.mpr hbefore
      exact ⟨hnearest, (hstep ops op hnearest).mpr hlast⟩

/-- one neighbor is wanted: module 11 comes first, and module 20, which is farther, later -/
theorem nearest_elected_sample : ∃ topo,
    init 10 ⟨0, 0, 0⟩ (some ⟨1, .logical, 1000000, 0, 1⟩) = .ok topo ∧
    EveryStep (NearestAfter Shared.zero topo)
      [.discovery 11 ⟨0, 0, 0⟩ 1, .discovery 20 ⟨0, 0, 0⟩ 2] := by
  have hinit : init 10 ⟨0, 0, 0⟩ (some ⟨1, .logical, 1000000, 0, 1⟩) =
      .ok ⟨10, ⟨0, 0, 0⟩, [], [], 0, 0, ⟨1, .logical, 1000000, 0, 1⟩⟩ := rfl
  refine ⟨_, hinit, (nearest_elected_iff hinit (by decide) Shared.zero _).mpr ?_⟩
  rw [everyStep_cons, everyStep_cons]
  refine ⟨fun _ _ hfull => absurd hfull (by decide), fun _ _ _ => ⟨fun _ a ha => ?_, fun hmem => ?_⟩,
    everyStep_nil _⟩
  · obtain rfl : a = 11 := mem_singleton.mp ha
    exact Prod.Lex.toLex_lt_toLex.mpr (.inl (by decide))
  · exact absurd hmem (by decide)

/-- module 20 is elected, and module 11, which is nearer, comes when the list is full -/
theorem nearer_not_elected : ∃ topo,
    init 10 ⟨0, 0, 0⟩ (some ⟨1, .logical, 1000000, 0, 1⟩) = .ok topo ∧ wanted topo ≤ kNeighbors ∧
    ¬EveryStep (NearestAfter Shared.zero topo)
      [.discovery 20 ⟨0, 0, 0⟩ 1, .discovery 11 ⟨0, 0, 0⟩ 2] := by
  refine ⟨_, rfl, by decide, fun h => ?_⟩
  rw [everyStep_cons, everyStep_cons] at h
  have hleast := h.2.1.least.least 20 (by decide) 11 (by decide) (by decide)
  rcases Prod.Lex.toLex_lt_toLex.mp hleast with hlt | ⟨heq, -⟩
  · exact absurd hlt (by decide)
  · exact absurd heq (by decide)

end Topology
end EkKor

/-!
# Who can be a neighbor

* `Sane`          the neighbors are known modules, and nobody ever set their health;
* `discovered`    a message adds its sender to the known modules and nobody else;
* `lost`          a neighbor that is lost is not known any more.
-/

namespace EkKor
namespace Topology
open List Function

variable {g : Shared} {topo : Topology} {pos : ModuleId → Position}

/-- the known modules are in order, and the neighbors are some of them, with the health they get in
an election -/
structure Sane (g : Shared) (topo : Topology) : Prop where
  known : ∃ pos, Known g topo pos
  elected : ∀ n ∈ topo.neighbors, n.id ∈ topo.allKnown
  unknown : ∀ n ∈ topo.neighbors, n.health = .unknown

theorem Sane.of_ids {id : ModuleId} (h : Sane g topo) (hid : id ∈ ids topo) : id ∈ topo.allKnown := by
  obtain ⟨n, hn, rfl⟩ := mem_map.mp hid
  exact h.elected n hn

theorem init_sane {myId : ModuleId} {myPosition : Position} {config : Option Config}
    (h : init myId myPosition config = .ok topo) (g : Shared) : Sane g topo := by
  refine ⟨⟨_, (init_nearest h g).1⟩, ?_, ?_⟩
  all_goals
    unfold init at h
    split_ifs at h
    obtain rfl := Except.ok.inj h
    exact fun n hn => absurd hn not_mem_nil

theorem elected_health {old : List Neighbor} (hold : ∀ n ∈ old, n.health = .unknown)
    (entry : Entry) : (elected old entry).health = .unknown := by
  unfold elected
  cases h : Keyed.lookup Neighbor.id old entry.id with
  | none => rfl
  | some n => exact hold n (Keyed.mem_of_lookup h).1

theorem entries_id {entry : Entry} (h : entry ∈ entries g topo) : entry.id ∈ topo.allKnown := by
  obtain ⟨known, hmem, rfl⟩ := mem_map.mp h
  exact fst_mem_of_mem_zipIdx (mem_filter.mp hmem).1

theorem reelect_sane (hknown : Known g topo pos) (hold : ∀ n ∈ topo.neighbors, n.health = .unknown)
    (time : TimeUs) :
    Sane g (reelect g topo time).1 ∧ (reelect g topo time).1.allKnown = topo.allKnown := by
  have hframe := (reelect_frame g topo time).1
  have hall : ∀ n ∈ (reelect g topo time).1.neighbors,
      n.id ∈ topo.allKnown ∧ n.health = .unknown := by
    unfold reelect
    split_ifs with hempty
    · exact fun n hn => absurd hn not_mem_nil
    · intro n hn
      obtain ⟨entry, hentry, rfl⟩ := mem_map.mp hn
      have hmem := (Nearest.sort_perm entryLessThan (entries g topo)).mem_iff.mp
        (mem_of_mem_take hentry)
      rw [elected_id]
      exact ⟨entries_id hmem, elected_health hold entry⟩
  refine ⟨⟨⟨pos, (reelect_nearest hknown time).1⟩, fun n hn => ?_, fun n hn => (hall n hn).2⟩, hframe⟩
  rw [hframe]
  exact (hall n hn).1

/-- **A discovery message.** -/
theorem discovered (h : Sane g topo) (senderId : ModuleId) (p : Position) (time : TimeUs) :
    Sane (onDiscovery g topo senderId p time).2.1 (onDiscovery g topo senderId p time).2.2.1 ∧
      ∀ id ∈ (onDiscovery g topo senderId p time).2.2.1.allKnown,
        id = senderId ∨ id ∈ topo.allKnown := by
  unfold onDiscovery
  by_cases hinvalid : senderId = invalidModuleId
  · rw [if_pos hinvalid]
    exact ⟨h, fun id hid => .inr hid⟩
  by_cases hself : senderId = topo.myId
  · rw [if_neg hinvalid, if_pos hself]
    exact ⟨h, fun id hid => .inr hid⟩
  obtain ⟨pos, hk⟩ := h.known
  obtain ⟨g', topo', hadd, hk', htopo⟩ := hk.add hinvalid hself p
  have hneighbors : topo'.neighbors = topo.neighbors := by rw [htopo]
  have hold : ∀ n ∈ topo'.neighbors, n.health = .unknown := hneighbors ▸ h.unknown
  have hsub : topo.allKnown ⊆ topo'.allKnown := by
    rw [htopo]
    split_ifs
    · exact List.Subset.refl _
    · exact subset_append_left ..
  have hgrow : ∀ id ∈ topo'.allKnown, id = senderId ∨ id ∈ topo.allKnown := by
    rw [htopo]
    intro id hid
    split_ifs at hid
    · exact .inr hid
    · exact (mem_append.mp hid).symm.imp_left mem_singleton.mp
  rw [if_neg hinvalid, if_neg hself, hadd]
  dsimp only
  split_ifs with hroom
  · obtain ⟨hsane, hframe⟩ := reelect_sane hk' hold time
    exact ⟨hsane, fun id hid => hgrow id (hframe ▸ hid)⟩
  · exact ⟨⟨⟨_, hk'⟩, fun n hn => hsub (h.elected n (hneighbors ▸ hn)), hold⟩, hgrow⟩

theorem Known.not_mem_remove (h : Known g topo pos) (id : ModuleId) :
    (removeFromKnown g topo id).2.allKnown ⊆ topo.allKnown ∧
      id ∉ (removeFromKnown g topo id).2.allKnown := by
  unfold removeFromKnown findKnownIndex
  cases hi : Keyed.index (fun i => i) topo.allKnown id with
  | none => exact ⟨List.Subset.refl _, index_none_iff.mp hi⟩
  | some idx =>
    have hidx := mem_of_index hi
    refine ⟨(eraseIdx_sublist ..).subset, fun hmem => ?_⟩
    obtain ⟨j, hj⟩ := mem_iff_getElem?.mp hmem
    rw [getElem?_eraseIdx] at hj
    have hlt := (List.getElem?_eq_some_iff.mp hidx).1
    split_ifs at hj with hbefore
    · exact Nat.ne_of_gt hbefore ((getElem?_inj hlt h.nodup).mp (hidx.trans hj.symm))
    · have heq := (getElem?_inj hlt h.nodup).mp (hidx.trans hj.symm)
      omega

/-- **A neighbor that is lost.** -/
theorem lost (h : Sane g topo) (lostId : ModuleId) (time : TimeUs) :
    Sane (onNeighborLost g topo lostId time).2.1 (onNeighborLost g topo lostId time).2.2.1 ∧
      (onNeighborLost g topo lostId time).2.2.1.allKnown ⊆ topo.allKnown ∧
      (lostId ∈ ids topo → lostId ∉ (onNeighborLost g topo lostId time).2.2.1.allKnown) := by
  obtain ⟨pos, hk⟩ := h.known
  unfold onNeighborLost
  by_cases hinvalid : lostId = invalidModuleId
  · rw [if_pos hinvalid]
    exact ⟨h, List.Subset.refl _, fun _ => hinvalid ▸ hk.valid⟩
  rw [if_neg hinvalid]
  cases hi : findNeighborIndex topo lostId with
  | none => exact ⟨h, List.Subset.refl _, fun hmem =>
      absurd hmem (Keyed.lookup_eq_none.mp (Keyed.index_eq_none.mp hi))⟩
  | some idx =>
    obtain ⟨hk', hframe⟩ := hk.remove lostId
    obtain ⟨hsub, hnot⟩ := hk.not_mem_remove lostId
    have hneighbors : (removeFromKnown g topo lostId).2.neighbors = topo.neighbors := by rw [hframe]
    have hless : Known (removeFromKnown g topo lostId).1
        { (removeFromKnown g topo lostId).2 with
          neighbors := (removeFromKnown g topo lostId).2.neighbors.eraseIdx idx } pos :=
      ⟨hk'.nodup, hk'.others, hk'.valid, hk'.placed⟩
    obtain ⟨hsane, hsame⟩ := reelect_sane hless (fun n hn =>
      h.unknown n (hneighbors ▸ (eraseIdx_sublist ..).subset hn)) time
    refine ⟨hsane, fun id hid => hsub (hsame ▸ hid), fun _ hmem => hnot ?_⟩
    rwa [hsame] at hmem

theorem tick_frame (g : Shared) (topo : Topology) (now : TimeUs) :
    (tick g topo now).2.1.neighbors = topo.neighbors ∧
      (tick g topo now).2.1.allKnown = topo.allKnown ∧ (tick g topo now).2.1.myId = topo.myId ∧
      (tick g topo now).1.knownPositions = g.knownPositions := by
  unfold tick sendDiscovery
  by_cases hperiod : now - topo.lastDiscovery ≥ topo.config.discoveryPeriod
  · dsimp only
    split_ifs <;> exact ⟨rfl, rfl, rfl, rfl⟩
  · dsimp only
    split_ifs <;> exact ⟨rfl, rfl, rfl, rfl⟩

theorem tick_sane (h : Sane g topo) (now : TimeUs) :
    Sane (tick g topo now).1 (tick g topo now).2.1 := by
  obtain ⟨hneighbors, hall, hid, hpos⟩ := tick_frame g topo now
  obtain ⟨pos, hk⟩ := h.known
  refine ⟨⟨pos, hall ▸ hk.nodup, hall ▸ hid ▸ hk.others, hall ▸ hk.valid, ?_⟩, ?_, ?_⟩
  · rw [hall, hpos]
    exact hk.placed
  · rw [hneighbors, hall]
    exact h.elected
  · rw [hneighbors]
    exact h.unknown

end Topology
end EkKor
