import EkKor.Lib.Nearest
import EkKor.Module.Election
import EkKor.Rust.Topology
import Mathlib.Algebra.Group.Int.Defs
import Mathlib.Algebra.Group.Nat.Defs
import Mathlib.Tactic.Linarith

/-!
# The two topologies

The Rust topology never forgets a module, measures distances in another way, breaks ties by the
order in its list, and elects for a message only when its sender is not a neighbor.

* `Fits`              a distance that does not overflow;
* `Same`              the topologies have the same neighbors, and the Rust topology knows all modules
                      that the C topology knows;
* `election_iff`      two elections find the same neighbors;
* `Agrees`            a call succeeds in both or fails in both, and leaves the same neighbors;
* `Alike`             the condition on a call;
* `topologies_agree_iff`   they agree on all calls of a run exactly when all meet it.
-/

namespace EkKor
namespace Agreement
namespace Topologies
open Runs Topology Nearest List Function

/-! ## distances -/

/-- the distance of two positions does not overflow -/
structure Fits (p other : Position) : Prop where
  x : -2 ^ 15 ≤ p.x.toInt - other.x.toInt ∧ p.x.toInt - other.x.toInt < 2 ^ 15
  y : -2 ^ 15 ≤ p.y.toInt - other.y.toInt ∧ p.y.toInt - other.y.toInt < 2 ^ 15
  z : -2 ^ 15 ≤ p.z.toInt - other.z.toInt ∧ p.z.toInt - other.z.toInt < 2 ^ 15
  sum : (p.x.toInt - other.x.toInt) ^ 2 + (p.y.toInt - other.y.toInt) ^ 2 +
    (p.z.toInt - other.z.toInt) ^ 2 < 2 ^ 31

/-- `compute_distance` in a release build -/
def distanceTo (r : Rust.Topology) (id : ModuleId) (position : Position) : Int32 :=
  (r.computeDistance false id position).getD 0

section
variable {checks : Bool}

theorem sub16_toInt (a b : Int16) : (a - b).toInt = a.toInt - b.toInt ↔
    -2 ^ 15 ≤ a.toInt - b.toInt ∧ a.toInt - b.toInt < 2 ^ 15 := by
  rw [Int16.toInt_sub]
  unfold Int.bmod
  dsimp only
  split_ifs <;> omega

theorem add32_toInt (a b : Int32) : (a + b).toInt = a.toInt + b.toInt ↔
    -2 ^ 31 ≤ a.toInt + b.toInt ∧ a.toInt + b.toInt < 2 ^ 31 := by
  rw [Int32.toInt_add]
  unfold Int.bmod
  dsimp only
  split_ifs <;> omega

theorem square_toInt (a : Int16) :
    (a.toInt32 * a.toInt32).toInt = a.toInt * a.toInt ∧ a.toInt * a.toInt ≤ 2 ^ 30 := by
  have hle := a.le_toInt
  have hlt := a.toInt_lt
  have hbound : a.toInt * a.toInt ≤ 2 ^ 30 := by nlinarith
  have hpos := mul_self_nonneg a.toInt
  rw [Int32.toInt_mul, Int16.toInt_toInt32]
  unfold Int.bmod
  dsimp only
  split_ifs <;> omega

theorem sub16_eq (checks : Bool) (a b : Int16) : Rust.Topology.sub16 checks a b =
    if checks = true ∧ ¬(-2 ^ 15 ≤ a.toInt - b.toInt ∧ a.toInt - b.toInt < 2 ^ 15) then none
    else some (a - b) := by
  refine if_congr ?_ rfl rfl
  rw [Bool.and_eq_true, decide_eq_true_iff, ne_eq, sub16_toInt]

theorem mul32_square (checks : Bool) (a : Int16) :
    Rust.Topology.mul32 checks a.toInt32 a.toInt32 = some (a.toInt32 * a.toInt32) := by
  unfold Rust.Topology.mul32
  rw [(square_toInt a).1, Int16.toInt_toInt32]
  refine if_neg fun h => ?_
  exact of_decide_eq_true ((Bool.and_eq_true ..).mp h).2 rfl

theorem add32_eq (checks : Bool) (a b : Int32) : Rust.Topology.add32 checks a b =
    if checks = true ∧ ¬(-2 ^ 31 ≤ a.toInt + b.toInt ∧ a.toInt + b.toInt < 2 ^ 31) then none
    else some (a + b) := by
  refine if_congr ?_ rfl rfl
  rw [Bool.and_eq_true, decide_eq_true_iff, ne_eq, add32_toInt]

theorem sum_eq (checks : Bool) (a b c : Int16) :
    ((Rust.Topology.add32 checks (a.toInt32 * a.toInt32) (b.toInt32 * b.toInt32)).bind
      fun ab => Rust.Topology.add32 checks ab (c.toInt32 * c.toInt32)) =
    if checks = true ∧ 2 ^ 31 ≤ a.toInt ^ 2 + b.toInt ^ 2 + c.toInt ^ 2 then none
    else some (a.toInt32 * a.toInt32 + b.toInt32 * b.toInt32 + c.toInt32 * c.toInt32) := by
  obtain ⟨ha, hale⟩ := square_toInt a
  obtain ⟨hb, hble⟩ := square_toInt b
  obtain ⟨hc, hcle⟩ := square_toInt c
  have hapos := mul_self_nonneg a.toInt
  have hbpos := mul_self_nonneg b.toInt
  have hcpos := mul_self_nonneg c.toInt
  rw [add32_eq, ha, hb, pow_two, pow_two, pow_two]
  by_cases hsmall : a.toInt * a.toInt + b.toInt * b.toInt < 2 ^ 31
  · have hab := (add32_toInt (a.toInt32 * a.toInt32) (b.toInt32 * b.toInt32)).mpr (by
      omega)
    rw [if_neg (by omega), Option.bind_some, add32_eq, hab, ha, hb, hc]
    refine if_congr (and_congr_right fun _ => ?_) rfl rfl
    omega
  · cases checks with
    | false =>
      rw [if_neg fun h => Bool.false_ne_true h.1, if_neg fun h => Bool.false_ne_true h.1,
        Option.bind_some, add32_eq, if_neg fun h => Bool.false_ne_true h.1]
    | true =>
      rw [if_pos ⟨rfl, by omega⟩, if_pos ⟨rfl, by omega⟩]
      rfl

theorem distanceSquared_eq (checks : Bool) (p other : Position) :
    Rust.Topology.distanceSquared checks p other =
      (Rust.Topology.sub16 checks p.x other.x).bind fun dx =>
        (Rust.Topology.sub16 checks p.y other.y).bind fun dy =>
          (Rust.Topology.sub16 checks p.z other.z).bind fun dz =>
            if checks = true ∧ 2 ^ 31 ≤ dx.toInt ^ 2 + dy.toInt ^ 2 + dz.toInt ^ 2 then none
            else some (dx.toInt32 * dx.toInt32 + dy.toInt32 * dy.toInt32 +
              dz.toInt32 * dz.toInt32) := by
  refine Option.bind_congr fun dx _ => Option.bind_congr fun dy _ => Option.bind_congr fun dz _ => ?_
  dsimp only
  rw [← sum_eq, mul32_square, mul32_square, mul32_square]
  rfl

/-- **Panics.** The distance overflows, with the checks, exactly when it does not fit. -/
theorem distanceSquared_eq_none (checks : Bool) (p other : Position) :
    Rust.Topology.distanceSquared checks p other = none ↔ checks = true ∧ ¬Fits p other := by
  rw [distanceSquared_eq]
  cases checks with
  | false =>
    rw [sub16_eq, sub16_eq, sub16_eq]
    simp
  | true =>
    rw [and_iff_right rfl, sub16_eq, sub16_eq, sub16_eq]
    by_cases hx : -2 ^ 15 ≤ p.x.toInt - other.x.toInt ∧ p.x.toInt - other.x.toInt < 2 ^ 15
    · by_cases hy : -2 ^ 15 ≤ p.y.toInt - other.y.toInt ∧ p.y.toInt - other.y.toInt < 2 ^ 15
      · by_cases hz : -2 ^ 15 ≤ p.z.toInt - other.z.toInt ∧ p.z.toInt - other.z.toInt < 2 ^ 15
        · rw [if_neg fun h => h.2 hx, if_neg fun h => h.2 hy, if_neg fun h => h.2 hz,
            Option.bind_some, Option.bind_some, Option.bind_some, (sub16_toInt ..).mpr hx,
            (sub16_toInt ..).mpr hy, (sub16_toInt ..).mpr hz]
          by_cases hsum : 2 ^ 31 ≤ (p.x.toInt - other.x.toInt) ^ 2 +
              (p.y.toInt - other.y.toInt) ^ 2 + (p.z.toInt - other.z.toInt) ^ 2
          · rw [if_pos ⟨rfl, hsum⟩]
            exact iff_of_true rfl fun h => absurd h.sum (Int.not_lt.mpr hsum)
          · rw [if_neg fun h => hsum h.2]
            exact iff_of_false nofun fun h => h ⟨hx, hy, hz, Int.not_le.mp hsum⟩
        · rw [if_neg fun h => h.2 hx, if_neg fun h => h.2 hy, if_pos ⟨rfl, hz⟩]
          exact iff_of_true rfl fun h => hz h.z
      · rw [if_neg fun h => h.2 hx, if_pos ⟨rfl, hy⟩]
        exact iff_of_true rfl fun h => hy h.y
    · rw [if_pos ⟨rfl, hx⟩]
      exact iff_of_true rfl fun h => hx h.x

variable {p : Position}

theorem distanceSquared_release {other : Position} {d : Int32}
    (h : Rust.Topology.distanceSquared checks p other = some d) :
    Rust.Topology.distanceSquared false p other = some d := by
  have hsub (a b : Int16) : Rust.Topology.sub16 checks a b = none ∨
      Rust.Topology.sub16 checks a b = Rust.Topology.sub16 false a b := by
    exact (ite_eq_or_eq ..)
  rw [distanceSquared_eq] at h ⊢
  rcases hsub p.x other.x with hx | hx <;> rw [hx] at h
  · exact nomatch h
  rcases hsub p.y other.y with hy | hy <;> rw [hy] at h
  · simp at h
  rcases hsub p.z other.z with hz | hz <;> rw [hz] at h
  · simp at h
  rw [sub16_eq, sub16_eq, sub16_eq] at h ⊢
  rw [if_neg fun h => Bool.false_ne_true h.1, if_neg fun h => Bool.false_ne_true h.1,
    if_neg fun h => Bool.false_ne_true h.1, Option.bind_some, Option.bind_some,
    Option.bind_some] at h ⊢
  split_ifs at h
  exact h

def Measurable (checks : Bool) (r : Rust.Topology) (p : Position) : Prop :=
  checks = true → r.config.metric = .physical → Fits r.myPosition p

theorem computeDistance_eq {r : Rust.Topology} (id : ModuleId) (h : Measurable checks r p) :
    r.computeDistance checks id p = some (distanceTo r id p) := by
  unfold distanceTo Rust.Topology.computeDistance
  cases hmetric : r.config.metric with
  | logical => rfl
  | latency => rfl
  | custom => rfl
  | physical =>
    cases hd : Rust.Topology.distanceSquared checks r.myPosition p with
    | none =>
      obtain ⟨hchecks, hnot⟩ := (distanceSquared_eq_none ..).mp hd
      exact absurd (h hchecks hmetric) hnot
    | some d =>
      rw [distanceSquared_release hd]
      rfl

theorem computeDistance_none {r : Rust.Topology} (id : ModuleId) (h : ¬Measurable checks r p) :
    r.computeDistance checks id p = none := by
  unfold Measurable at h
  rw [Classical.not_imp, Classical.not_imp] at h
  obtain ⟨hchecks, hmetric, hnot⟩ := h
  unfold Rust.Topology.computeDistance
  rw [hmetric]
  exact (distanceSquared_eq_none ..).mpr ⟨hchecks, hnot⟩

end

/-! ## elections -/

def knownIds (r : Rust.Topology) : List ModuleId := r.known.map Rust.KnownModule.id

def rustRank (r : Rust.Topology) (pos : ModuleId → Position) (order : List ModuleId)
    (id : ModuleId) : ℤ ×ₗ ℕ :=
  placed (fun id => (distanceTo r id (pos id)).toInt) order id

variable {g : Shared} {topo : Topology} {pos : ModuleId → Position} {r : Rust.Topology}
  {id : ModuleId} {time : TimeUs} {checks : Bool}

/-- the Rust topology knows different modules, other than itself, by their last positions -/
structure RustKnown (r : Rust.Topology) (pos : ModuleId → Position) : Prop where
  nodup : (knownIds r).Nodup
  others : r.myId ∉ knownIds r
  valid : invalidModuleId ∉ knownIds r
  measured : ∀ m ∈ r.known, m.distance = distanceTo r m.id (pos m.id)

theorem sortKnown_ids (h : RustKnown r pos) :
    (Rust.Topology.sortKnown r.known).map Rust.KnownModule.id =
      Nearest.sort (byKey (rustRank r pos (knownIds r))) (knownIds r) := by
  show _ = Nearest.sort (byKey (placed _ _)) _
  rw [← sort_stable _ h.nodup]
  unfold knownIds Rust.Topology.sortKnown
  rw [sort_map]
  refine congrArg (List.map _) (sort_congr ?_)
  refine pairwise_of_forall_mem_list fun a ha b hb => ?_
  rw [h.measured a ha, h.measured b hb]
  exact decide_eq_decide.mpr Int32.lt_iff_toInt_lt

/-- **An election of the Rust topology.** -/
theorem rust_reelect_ids (h : RustKnown r pos) (hk : r.config.kNeighbors ≤ Rust.maxNeighbors) :
    r.reelect.2.1.neighbors.map Neighbor.id =
      (Nearest.sort (byKey (rustRank r pos (knownIds r))) (knownIds r)).take
        r.config.kNeighbors := by
  have hall : (Rust.Topology.sortKnown r.known).filter (fun m =>
      decide (m.id ≠ r.myId ∧ m.id ≠ invalidModuleId)) = Rust.Topology.sortKnown r.known := by
    refine filter_eq_self.mpr fun m hm => decide_eq_true ⟨fun he => ?_, fun he => ?_⟩
    · exact h.others (he ▸ mem_map_of_mem ((sort_perm _ _).mem_iff.mp hm))
    · exact h.valid (he ▸ mem_map_of_mem ((sort_perm _ _).mem_iff.mp hm))
  unfold Rust.Topology.reelect
  dsimp only
  rw [hall, Nat.min_eq_left hk, map_map, ← sortKnown_ids h, ← map_take]
  rfl

theorem rust_reelect_frame (r : Rust.Topology) : r.reelect.2.1.myId = r.myId ∧
    r.reelect.2.1.myPosition = r.myPosition ∧ r.reelect.2.1.config = r.config ∧
    (knownIds r.reelect.2.1).Perm (knownIds r) ∧
    ∀ m, m ∈ r.reelect.2.1.known ↔ m ∈ r.known :=
  ⟨rfl, rfl, rfl, (sort_perm _ r.known).map _, fun _ => (sort_perm _ r.known).mem_iff⟩

/-- the topologies, before they elect: the Rust topology knows what the C topology knows -/
structure Covers (g : Shared) (topo : Topology) (pos : ModuleId → Position) (r : Rust.Topology) :
    Prop where
  known : Known g topo pos
  rust : RustKnown r pos
  myId : r.myId = topo.myId
  myPosition : r.myPosition = topo.myPosition
  metric : r.config.metric = topo.config.metric
  wanted : r.config.kNeighbors = wanted topo
  bound : Topology.wanted topo ≤ Rust.maxNeighbors
  subset : topo.allKnown ⊆ knownIds r

def SameChoice (topo : Topology) (pos : ModuleId → Position) (r : Rust.Topology)
    (allKnown order : List ModuleId) : Prop :=
  Foremost (fun id => rank topo (pos id) id) (rustRank r pos order) (wanted topo) allKnown order

/-- **Two elections** find the same neighbors. -/
theorem election_iff (h : Covers g topo pos r) (time : TimeUs) :
    r.reelect.2.1.neighbors.map Neighbor.id = ids (reelect g topo time).1 ↔
      SameChoice topo pos r topo.allKnown (knownIds r) := by
  rw [rust_reelect_ids h.rust (h.wanted ▸ h.bound), reelect_ids h.known, h.wanted, eq_comm]
  exact take_sort_eq_iff h.known.nodup_rank (nodup_placed _ h.rust.nodup) h.subset

/-- nothing that an election of the C topology looks at is different -/
structure Unmoved (topo topo' : Topology) : Prop where
  myId : topo'.myId = topo.myId
  myPosition : topo'.myPosition = topo.myPosition
  config : topo'.config = topo.config

/-- nothing that the Rust topology measures with is different -/
structure RustUnmoved (r r' : Rust.Topology) : Prop where
  myId : r'.myId = r.myId
  myPosition : r'.myPosition = r.myPosition
  config : r'.config = r.config

variable {r' : Rust.Topology}

theorem RustUnmoved.distanceTo_eq (h : RustUnmoved r r') : distanceTo r' = distanceTo r := by
  unfold distanceTo Rust.Topology.computeDistance
  rw [h.myId, h.myPosition, h.config]

theorem sameChoice_congr {topo' : Topology} (h : Unmoved topo topo') (hr : RustUnmoved r r')
    (pos : ModuleId → Position) : SameChoice topo' pos r' = SameChoice topo pos r := by
  unfold SameChoice rustRank Topology.wanted
  rw [rank_congr h.myId h.myPosition h.config, hr.distanceTo_eq, h.config]

theorem Covers.congr {topo' : Topology} (h : Covers g topo pos r) (hsame : Unmoved topo topo')
    (hr : RustUnmoved r r') (hall : topo'.allKnown = topo.allKnown)
    (hknown : ∀ m, m ∈ r'.known ↔ m ∈ r.known) (hperm : (knownIds r').Perm (knownIds r)) :
    Covers g topo' pos r' where
  known := ⟨hall ▸ h.known.nodup, hall ▸ hsame.myId ▸ h.known.others, hall ▸ h.known.valid,
    hall ▸ h.known.placed⟩
  rust :=
    { nodup := hperm.nodup_iff.mpr h.rust.nodup
      others := by
        rw [hr.myId, hperm.mem_iff]
        exact h.rust.others
      valid := by
        rw [hperm.mem_iff]
        exact h.rust.valid
      measured := fun m hm => by
        rw [hr.distanceTo_eq]
        exact h.rust.measured m ((hknown m).mp hm) }
  myId := hr.myId.trans (h.myId.trans hsame.myId.symm)
  myPosition := hr.myPosition.trans (h.myPosition.trans hsame.myPosition.symm)
  metric := by
    rw [hr.config, hsame.config]
    exact h.metric
  wanted := by
    unfold Topology.wanted
    rw [hr.config, hsame.config]
    exact h.wanted
  bound := by
    unfold Topology.wanted
    rw [hsame.config]
    exact h.bound
  subset := fun id hid => hperm.mem_iff.mpr (h.subset (hall ▸ hid))

theorem Covers.elect (h : Covers g topo pos r) (time : TimeUs) :
    Covers g (reelect g topo time).1 pos r ∧
      Covers g (reelect g topo time).1 pos r.reelect.2.1 ∧
      ids (reelect g topo time).1 ⊆ (reelect g topo time).1.allKnown := by
  obtain ⟨hall, hid, hposition, hconfig⟩ := reelect_frame g topo time
  obtain ⟨hid', hposition', hconfig', hperm, hknown⟩ := rust_reelect_frame r
  have hsame : Unmoved topo (reelect g topo time).1 := ⟨hid, hposition, hconfig⟩
  exact ⟨h.congr hsame ⟨rfl, rfl, rfl⟩ hall (fun _ => Iff.rfl) (List.Perm.refl _),
    h.congr hsame ⟨hid', hposition', hconfig'⟩ hall hknown hperm,
    (reelect_nearest h.known time).2.least.subset⟩

/-! ## what is known after a message -/

def withSender (l : List ModuleId) (id : ModuleId) : List ModuleId := if id ∈ l then l else l ++ [id]

theorem rustKnown_length (h : RustKnown r pos) : r.known.length < maxModules := by
  have hlt := length_lt_maxModules h.nodup h.valid
  unfold knownIds at hlt
  rwa [length_map] at hlt

theorem note_known (h : RustKnown r pos) (entry : Rust.KnownModule) :
    (Rust.Topology.note r.known entry).map Rust.KnownModule.id =
        withSender (knownIds r) entry.id ∧
      ∀ m ∈ Rust.Topology.note r.known entry, m = entry ∨ m ∈ r.known ∧ m.id ≠ entry.id := by
  unfold Rust.Topology.note withSender
  cases hi : Keyed.index Rust.KnownModule.id r.known entry.id with
  | some i =>
    have hmem : entry.id ∈ knownIds r := by
      by_contra hnot
      rw [Keyed.index_eq_none.mpr (Keyed.lookup_eq_none.mpr hnot)] at hi
      exact nomatch hi
    rw [if_pos hmem]
    refine ⟨Keyed.map_set hi, fun m hm => ?_⟩
    dsimp only at hm
    rw [Keyed.set_eq_map h.nodup hi] at hm
    obtain ⟨m', hm', rfl⟩ := mem_map.mp hm
    split_ifs with hid
    · exact .inl rfl
    · exact .inr ⟨hm', hid⟩
  | none =>
    have hnot : entry.id ∉ knownIds r := Keyed.lookup_eq_none.mp (Keyed.index_eq_none.mp hi)
    rw [if_pos (rustKnown_length h), if_neg hnot, map_append]
    refine ⟨rfl, fun m hm => ?_⟩
    rcases mem_append.mp hm with hm | hm
    · exact .inr ⟨hm, fun hid => hnot (hid ▸ mem_map_of_mem hm)⟩
    · exact .inl (mem_singleton.mp hm)

theorem mem_withSender {l : List ModuleId} {id id' : ModuleId} :
    id' ∈ withSender l id ↔ id' ∈ l ∨ id' = id := by
  unfold withSender
  split_ifs with hmem
  · exact ⟨.inl, fun h => h.elim (fun h => h) fun h => h ▸ hmem⟩
  · rw [mem_append, mem_singleton]

theorem Covers.note (h : Covers g topo pos r) (hvalid : id ≠ invalidModuleId)
    (hself : id ≠ topo.myId) (p : Position) (time : TimeUs) :
    ∃ g' topo', addToKnown g topo id p = some (g', topo') ∧
      topo' = { topo with allKnown := withSender topo.allKnown id } ∧
      Covers g' topo' (update pos id p) { r with
        known := Rust.Topology.note r.known ⟨id, p, distanceTo r id p, time⟩ } ∧
      knownIds { r with known := Rust.Topology.note r.known ⟨id, p, distanceTo r id p, time⟩ } =
        withSender (knownIds r) id := by
  obtain ⟨g', topo', hadd, hknown, htopo⟩ := h.known.add hvalid hself p
  obtain ⟨hids, hentries⟩ := note_known h.rust ⟨id, p, distanceTo r id p, time⟩
  refine ⟨g', topo', hadd, htopo, ?_, hids⟩
  have hall : topo'.allKnown = withSender topo.allKnown id := by rw [htopo]; rfl
  exact
    { known := hknown
      rust :=
        { nodup := by
            show (List.map _ (Rust.Topology.note _ _)).Nodup
            rw [hids]
            unfold withSender
            split_ifs with hmem
            · exact h.rust.nodup
            · exact nodup_append.mpr ⟨h.rust.nodup, nodup_singleton id,
                fun a ha b hb he => hmem (mem_singleton.mp hb ▸ he ▸ ha)⟩
          others := by
            show r.myId ∉ List.map _ (Rust.Topology.note _ _)
            rw [hids, mem_withSender, not_or]
            exact ⟨h.rust.others, fun he => hself (he.symm.trans h.myId)⟩
          valid := by
            show invalidModuleId ∉ List.map _ (Rust.Topology.note _ _)
            rw [hids, mem_withSender, not_or]
            exact ⟨h.rust.valid, hvalid.symm⟩
          measured := fun m hm => by
            rcases hentries m hm with rfl | ⟨hm, hne⟩
            · rw [update_self]
              rfl
            · rw [update_of_ne hne]
              exact h.rust.measured m hm }
      myId := h.myId.trans (by rw [htopo])
      myPosition := h.myPosition.trans (by rw [htopo])
      metric := h.metric.trans (by rw [htopo])
      wanted := h.wanted.trans (by rw [htopo])
      bound := by
        have hb := h.bound
        rw [htopo]
        exact hb
      subset := fun id' hid' => by
        rw [hall, mem_withSender] at hid'
        show id' ∈ List.map _ (Rust.Topology.note _ _)
        rw [hids, mem_withSender]
        exact hid'.imp_left fun hin => h.subset hin }

theorem removeFromKnown_allKnown (h : Known g topo pos) (id : ModuleId) :
    (removeFromKnown g topo id).2.allKnown = topo.allKnown.filter fun a => decide (a ≠ id) := by
  have hnodup : (topo.allKnown.map fun i => i).Nodup := by
    rw [map_id']
    exact h.nodup
  unfold removeFromKnown findKnownIndex
  cases hi : Keyed.index (fun i => i) topo.allKnown id with
  | none => exact (Keyed.filter_of_lookup (Keyed.index_eq_none.mp hi)).symm
  | some idx => exact Keyed.eraseIdx_eq_filter hnodup hi

theorem Covers.remove (h : Covers g topo pos r) (id : ModuleId) :
    Covers (removeFromKnown g topo id).1 (removeFromKnown g topo id).2 pos r ∧
      Unmoved topo (removeFromKnown g topo id).2 := by
  obtain ⟨hknown, htopo⟩ := h.known.remove id
  have hsame : Unmoved topo (removeFromKnown g topo id).2 := by
    rw [htopo]
    exact ⟨rfl, rfl, rfl⟩
  have hwanted : Topology.wanted (removeFromKnown g topo id).2 = Topology.wanted topo := by
    unfold Topology.wanted
    rw [hsame.config]
  exact ⟨
    { known := hknown
      rust := h.rust
      myId := h.myId.trans hsame.myId.symm
      myPosition := h.myPosition.trans hsame.myPosition.symm
      metric := by
        rw [hsame.config]
        exact h.metric
      wanted := h.wanted.trans hwanted.symm
      bound := hwanted.symm ▸ h.bound
      subset := fun a ha => by
        rw [removeFromKnown_allKnown h.known] at ha
        exact h.subset (mem_of_mem_filter ha) }, hsame⟩

/-! ## the calls -/

def cResult (s : Shared × Topology) : Op → Except Err Unit
  | .discovery senderId p time => (onDiscovery s.1 s.2 senderId p time).1
  | .lost lostId time => (onNeighborLost s.1 s.2 lostId time).1
  | .reelect _ => .ok ()

def rustStep (checks : Bool) (r : Rust.Topology) : Op → Option (Except Err Unit × Rust.Topology)
  | .discovery senderId p time =>
    (r.onDiscovery checks senderId p time).map fun a => (a.1.map fun _ => (), a.2.1)
  | .lost lostId _ => some ((r.onNeighborLost lostId).1, (r.onNeighborLost lostId).2.1)
  | .reelect _ => some (.ok (), r.reelect.2.1)

def rustConfig (config : Config) : Rust.TopologyConfig :=
  { kNeighbors := config.kNeighbors.toNat
    metric := config.metric
    discoveryPeriod := config.discoveryPeriod
    reelectionDelay := config.reelectionDelay
    minNeighbors := config.minNeighbors.toNat }

/-- the Rust topology after the calls; `none` if one of them panicked -/
def rustTopology (checks : Bool) (topo : Topology) (ops : List Op) : Option Rust.Topology :=
  ops.foldlM (fun r op => (rustStep checks r op).map Prod.snd)
    (Rust.Topology.new topo.myId topo.myPosition (some (rustConfig topo.config)))

/-- a call of both topologies: both succeed or both fail, and the neighbors are the same -/
def StepAgrees (checks : Bool) (s : Shared × Topology) (r : Rust.Topology) (op : Op) : Prop :=
  ∃ res r', rustStep checks r op = some (res, r') ∧ res = cResult s op ∧
    r'.neighbors.map Neighbor.id = ids (step s op).1.2

/-- after `pre`, a call of both topologies -/
def Agrees (checks : Bool) (g : Shared) (topo : Topology) (pre : List Op) (op : Op) : Prop :=
  ∃ r, rustTopology checks topo pre = some r ∧ StepAgrees checks (after g topo pre) r op

/-- the neighbors are all known modules, in the order of their distances -/
structure Ordered (topo : Topology) (pos : ModuleId → Position) : Prop where
  all : topo.allKnown ⊆ ids topo
  sorted : (ids topo).Pairwise fun a b => rank topo (pos a) a < rank topo (pos b) b

/-- the condition on a call.  The sender of a message is known with its new position: if it is a
neighbor, only the C topology elects -/
def Alike (checks : Bool) (topo : Topology) (pos : ModuleId → Position) (r : Rust.Topology) :
    Op → Prop
  | .discovery senderId p _ => senderId ≠ invalidModuleId →
    Measurable checks r p ∧ (topo.neighbors.length < wanted topo →
      if senderId ∈ ids topo then Ordered topo (update pos senderId p)
      else SameChoice topo (update pos senderId p) r (withSender topo.allKnown senderId)
        (withSender (knownIds r) senderId))
  | .lost lostId _ => lostId ≠ invalidModuleId ∧ (lostId ∈ ids topo →
    SameChoice topo pos r (topo.allKnown.filter fun a => decide (a ≠ lostId)) (knownIds r))
  | .reelect _ => SameChoice topo pos r topo.allKnown (knownIds r)

/-- the topologies agree -/
structure Same (g : Shared) (topo : Topology) (pos : ModuleId → Position) (r : Rust.Topology) :
    Prop where
  covers : Covers g topo pos r
  neighbors : r.neighbors.map Neighbor.id = ids topo
  elected : ids topo ⊆ topo.allKnown

theorem Same.length_eq (h : Same g topo pos r) : r.neighbors.length = topo.neighbors.length := by
  have hlength := congrArg List.length h.neighbors
  unfold ids at hlength
  rwa [length_map, length_map] at hlength

theorem Same.isNeighbor (h : Same g topo pos r) (id : ModuleId) :
    r.isNeighbor id = false ↔ id ∉ ids topo := by
  unfold Rust.Topology.isNeighbor
  rw [← h.neighbors, any_eq_false, mem_map]
  constructor
  · rintro hall ⟨n, hn, rfl⟩
    exact hall n hn (beq_self_eq_true _)
  · exact fun hnot n hn he => hnot ⟨n, hn, beq_iff_eq.mp he⟩

theorem kept_iff (h : Known g topo pos) (helected : ids topo ⊆ topo.allKnown)
    (hroom : topo.neighbors.length < wanted topo) (time : TimeUs) :
    ids topo = ids (reelect g topo time).1 ↔ Ordered topo pos := by
  have hleast := least_sort h.nodup_rank (wanted topo)
  have hlength : (ids topo).length < wanted topo := by
    unfold ids
    rw [length_map]
    exact hroom
  rw [reelect_ids h]
  constructor
  · intro heq
    rw [← heq] at hleast
    refine ⟨?_, hleast.sorted⟩
    have hle : topo.allKnown.length ≤ (ids topo).length := by
      have := hleast.length
      omega
    exact ((hleast.nodup.subperm helected).perm_of_length_le hle).symm.subset
  · rintro ⟨hall, hsorted⟩
    have hnodup : (ids topo).Nodup := hsorted.imp fun {a b} hlt he => by
      rw [he] at hlt
      exact lt_irrefl _ hlt
    refine Least.unique ⟨hsorted, helected, ?_, fun a _ b hb hnot => absurd (hall hb) hnot⟩ hleast
    have hle := (hnodup.subperm helected).length_le
    have hge := (h.nodup.subperm hall).length_le
    omega

/-! ## one call -/

def FromOther (myId : ModuleId) : Op → Prop
  | .discovery senderId _ _ => senderId ≠ myId
  | _ => True

variable {op : Op} {res : Except Err Unit}

theorem stepAgrees_iff (hstep : rustStep checks r op = some (res, r'))
    (hres : res = cResult (g, topo) op) : StepAgrees checks (g, topo) r op ↔
      r'.neighbors.map Neighbor.id = ids (step (g, topo) op).1.2 := by
  constructor
  · rintro ⟨res', r'', hstep', -, hids⟩
    obtain ⟨-, rfl⟩ := Prod.mk.inj (Option.some.inj (hstep.symm.trans hstep'))
    exact hids
  · exact fun hids => ⟨res, r', hstep, hres, hids⟩

/-- what a call comes to: it agrees under the condition, and then the topologies stay the same -/
structure Outcome (checks : Bool) (g : Shared) (topo : Topology) (pos : ModuleId → Position)
    (r : Rust.Topology) (op : Op) : Prop where
  iff : StepAgrees checks (g, topo) r op ↔ Alike checks topo pos r op
  same : StepAgrees checks (g, topo) r op → ∃ res r', rustStep checks r op = some (res, r') ∧
    Same (step (g, topo) op).1.1 (step (g, topo) op).1.2 (latestStep pos op) r'

theorem outcome_of (hstep : rustStep checks r op = some (res, r'))
    (hres : res = cResult (g, topo) op)
    (hcovers : Covers (step (g, topo) op).1.1 (step (g, topo) op).1.2 (latestStep pos op) r')
    (helected : ids (step (g, topo) op).1.2 ⊆ (step (g, topo) op).1.2.allKnown)
    (hiff : r'.neighbors.map Neighbor.id = ids (step (g, topo) op).1.2 ↔
      Alike checks topo pos r op) : Outcome checks g topo pos r op := by
  have hagrees := stepAgrees_iff hstep hres
  exact ⟨hagrees.trans hiff, fun h => ⟨res, r', hstep, hcovers, hagrees.mp h, helected⟩⟩

theorem Covers.unknown (h : Covers g topo pos r) (p : Position) :
    Covers g topo (update pos invalidModuleId p) r := by
  have hother {a : ModuleId} (ha : a ≠ invalidModuleId) :
      update pos invalidModuleId p a = pos a := update_of_ne ha ..
  have hvalid {a : ModuleId} (ha : a ∈ knownIds r) : a ≠ invalidModuleId :=
    fun he => h.rust.valid (he ▸ ha)
  have hplaced (i : Nat) (a : ModuleId) (hi : topo.allKnown[i]? = some a) :
      g.knownPositions i = update pos invalidModuleId p a := by
    rw [hother (hvalid (h.subset (mem_of_getElem? hi)))]
    exact h.known.placed i a hi
  have hmeasured (m : Rust.KnownModule) (hm : m ∈ r.known) :
      m.distance = distanceTo r m.id (update pos invalidModuleId p m.id) := by
    rw [hother (hvalid (mem_map_of_mem hm))]
    exact h.rust.measured m hm
  exact { h with known := { h.known with placed := hplaced }, rust := { h.rust with measured := hmeasured } }

theorem outcome_discovery (h : Same g topo pos r) (hother : id ≠ topo.myId) (p : Position)
    (time : TimeUs) : Outcome checks g topo pos r (.discovery id p time) := by
  by_cases hinvalid : id = invalidModuleId
  · -- both topologies refuse the message
    have hrust : rustStep checks r (.discovery id p time) = some (.error .invalidArg, r) := by
      unfold rustStep Rust.Topology.onDiscovery
      dsimp only
      rw [if_pos (Or.inr hinvalid)]
      rfl
    have hc : onDiscovery g topo id p time = (.error .invalidArg, g, topo, []) := if_pos hinvalid
    have hstep : (step (g, topo) (.discovery id p time)).1 = (g, topo) := by
      unfold step
      dsimp only
      rw [hc]
    refine outcome_of hrust (congrArg Prod.fst hc).symm ?_ ?_ ?_ <;> rw [hstep]
    · rw [hinvalid]
      exact h.covers.unknown p
    · exact h.elected
    · exact iff_of_true h.neighbors fun hvalid => absurd hinvalid hvalid
  by_cases hfits : Measurable checks r p
  · obtain ⟨g', topo', hadd, htopo, hcovers, hids⟩ := h.covers.note hinvalid hother p time
    generalize hr₁ : ({ r with
      known := Rust.Topology.note r.known ⟨id, p, distanceTo r id p, time⟩ } : Rust.Topology) = r₁
      at hcovers hids
    have hneighbors : r₁.neighbors = r.neighbors := by rw [← hr₁]
    have hunmoved : RustUnmoved r r₁ := by
      rw [← hr₁]
      exact ⟨rfl, rfl, rfl⟩
    have hsame : Unmoved topo topo' := by
      rw [htopo]
      exact ⟨rfl, rfl, rfl⟩
    have hn : topo'.neighbors = topo.neighbors := by rw [htopo]
    have hidsTopo : ids topo' = ids topo := congrArg (List.map Neighbor.id) hn
    have hall : topo'.allKnown = withSender topo.allKnown id := by rw [htopo]
    have hsub : ids topo' ⊆ topo'.allKnown := fun a ha => by
      rw [hall, mem_withSender]
      exact .inl (h.elected (hidsTopo ▸ ha))
    have hwanted : topo'.config.kNeighbors.toNat = wanted topo := by rw [htopo]
    have hrust : rustStep checks r (.discovery id p time) = some (.ok (),
        if r₁.isNeighbor id = false ∧ r₁.neighbors.length < r₁.config.kNeighbors then
          r₁.reelect.2.1 else r₁) := by
      unfold rustStep Rust.Topology.onDiscovery
      dsimp only
      rw [if_neg (not_or.mpr ⟨fun he => hother (he.trans h.covers.myId), hinvalid⟩),
        computeDistance_eq id hfits, Option.bind_eq_bind, Option.bind_some, ← hr₁]
      split_ifs <;> rfl
    have hc : onDiscovery g topo id p time = if topo.neighbors.length < wanted topo then
        (.ok (), g', reelect g' topo' time) else (.ok (), g', topo', []) := by
      unfold onDiscovery
      rw [if_neg hinvalid, if_neg hother, hadd]
      dsimp only
      rw [hn, hwanted]
    have hneighbor : r₁.isNeighbor id = false ↔ id ∉ ids topo := by
      rw [← h.isNeighbor]
      unfold Rust.Topology.isNeighbor
      rw [hneighbors]
    have hroomIff : r₁.neighbors.length < r₁.config.kNeighbors ↔
        topo.neighbors.length < wanted topo := by
      rw [hneighbors, hunmoved.config, h.length_eq, h.covers.wanted]
    by_cases hroom : topo.neighbors.length < wanted topo
    · rw [if_pos hroom] at hc
      have hstep : (step (g, topo) (.discovery id p time)).1 = (g', (reelect g' topo' time).1) := by
        unfold step
        dsimp only
        rw [hc]
      have hres : Except.ok () = cResult (g, topo) (.discovery id p time) :=
        (congrArg Prod.fst hc).symm
      obtain ⟨hkept, helected, hsubset⟩ := hcovers.elect time
      by_cases hmem : id ∈ ids topo
      · -- only the C topology elects
        rw [if_neg fun hboth => hneighbor.mp hboth.1 hmem] at hrust
        refine outcome_of hrust hres ?_ ?_ ?_ <;> rw [hstep]
        · exact hkept
        · exact hsubset
        · have halike : Alike checks topo pos r (.discovery id p time) ↔
              Ordered topo (update pos id p) :=
            ⟨fun ha => by
              have := (ha hinvalid).2 hroom
              rwa [if_pos hmem] at this,
            fun ho _ => ⟨hfits, fun _ => by
              rw [if_pos hmem]
              exact ho⟩⟩
          have hordered : Ordered topo' (update pos id p) ↔
              Ordered topo (update pos id p) := by
            have hknown : topo'.allKnown = topo.allKnown := by
              rw [hall]
              exact if_pos (h.elected hmem)
            constructor <;> rintro ⟨h₁, h₂⟩ <;> constructor
            · rwa [← hknown, ← hidsTopo]
            · rwa [← rank_congr hsame.myId hsame.myPosition hsame.config, ← hidsTopo]
            · rwa [hknown, hidsTopo]
            · rwa [rank_congr hsame.myId hsame.myPosition hsame.config, hidsTopo]
          rw [halike, hneighbors, h.neighbors, ← hordered, ← hidsTopo]
          refine kept_iff hcovers.known hsub ?_ time
          rw [hn]
          show _ < topo'.config.kNeighbors.toNat
          rw [hwanted]
          exact hroom
      · rw [if_pos ⟨hneighbor.mpr hmem, hroomIff.mpr hroom⟩] at hrust
        refine outcome_of hrust hres ?_ ?_ ?_ <;> rw [hstep]
        · exact helected
        · exact hsubset
        · have halike : Alike checks topo pos r (.discovery id p time) ↔
              SameChoice topo (update pos id p) r (withSender topo.allKnown id)
                (withSender (knownIds r) id) :=
            ⟨fun ha => by
              have := (ha hinvalid).2 hroom
              rwa [if_neg hmem] at this,
            fun hs _ => ⟨hfits, fun _ => by
              rw [if_neg hmem]
              exact hs⟩⟩
          rw [halike, ← sameChoice_congr hsame hunmoved, ← hall, ← hids]
          exact election_iff hcovers time
    · rw [if_neg hroom] at hc
      rw [if_neg fun hboth => hroom (hroomIff.mp hboth.2)] at hrust
      have hstep : (step (g, topo) (.discovery id p time)).1 = (g', topo') := by
        unfold step
        dsimp only
        rw [hc]
      refine outcome_of hrust (congrArg Prod.fst hc).symm ?_ ?_ ?_ <;> rw [hstep]
      · exact hcovers
      · exact hsub
      · refine iff_of_true ?_ fun _ => ⟨hfits, fun hlt => absurd hlt hroom⟩
        rw [hneighbors, h.neighbors]
        exact hidsTopo.symm
  · have hnone : rustStep checks r (.discovery id p time) = none := by
      unfold rustStep Rust.Topology.onDiscovery
      dsimp only
      rw [if_neg (not_or.mpr ⟨fun he => hother (he.trans h.covers.myId), hinvalid⟩),
        computeDistance_none id hfits]
      rfl
    have hnot : ¬StepAgrees checks (g, topo) r (.discovery id p time) := by
      rintro ⟨res, r', hstep, -⟩
      exact nomatch hnone.symm.trans hstep
    exact ⟨iff_of_false hnot fun ha => hfits (ha hinvalid).1, fun hs => absurd hs hnot⟩

theorem Same.index_none (h : Same g topo pos r) (id : ModuleId) :
    (Keyed.index Neighbor.id topo.neighbors id = none ↔ id ∉ ids topo) ∧
      (Keyed.index Neighbor.id r.neighbors id = none ↔ id ∉ ids topo) := by
  rw [Keyed.index_eq_none, Keyed.index_eq_none, Keyed.lookup_eq_none, Keyed.lookup_eq_none,
    h.neighbors]
  exact ⟨Iff.rfl, Iff.rfl⟩

theorem outcome_lost (h : Same g topo pos r) (id : ModuleId) (time : TimeUs) :
    Outcome checks g topo pos r (.lost id time) := by
  obtain ⟨hnone, hnone'⟩ := h.index_none id
  by_cases hvalid : id = invalidModuleId
  · -- the C topology reports another error
    have hmem : id ∉ ids topo := fun hin => h.covers.known.valid (hvalid ▸ h.elected hin)
    have hnot : ¬StepAgrees checks (g, topo) r (.lost id time) := by
      rintro ⟨res, r', hstep, hres, -⟩
      have hrust : (r.onNeighborLost id).1 = .error .notFound := by
        unfold Rust.Topology.onNeighborLost
        rw [hnone'.mpr hmem]
      have hc : cResult (g, topo) (.lost id time) = .error .invalidArg := by
        unfold cResult onNeighborLost
        dsimp only
        rw [if_pos hvalid]
      have hresult := (Prod.mk.inj (Option.some.inj hstep)).1
      rw [hrust, hres, hc] at hresult
      exact nomatch hresult
    exact ⟨iff_of_false hnot fun ha => ha.1 hvalid, fun hs => absurd hs hnot⟩
  by_cases hmem : id ∈ ids topo
  · obtain ⟨idx, hidx⟩ := Option.ne_none_iff_exists'.mp fun he => hnone.mp he hmem
    obtain ⟨place, hplace⟩ := Option.ne_none_iff_exists'.mp fun he => hnone'.mp he hmem
    obtain ⟨hcovers, hunmoved⟩ := h.covers.remove id
    have hbefore : Covers (removeFromKnown g topo id).1
        { (removeFromKnown g topo id).2 with
          neighbors := (removeFromKnown g topo id).2.neighbors.eraseIdx idx } pos
        { r with neighbors := r.neighbors.eraseIdx place } :=
      hcovers.congr ⟨rfl, rfl, rfl⟩ ⟨rfl, rfl, rfl⟩ rfl (fun _ => Iff.rfl) (List.Perm.refl _)
    have hrust : rustStep checks r (.lost id time) =
        some (.ok (), ({ r with neighbors := r.neighbors.eraseIdx place }).reelect.2.1) := by
      unfold rustStep Rust.Topology.onNeighborLost
      dsimp only
      rw [hplace]
    have hc : onNeighborLost g topo id time =
        (.ok (), (removeFromKnown g topo id).1, reelect (removeFromKnown g topo id).1
          { (removeFromKnown g topo id).2 with
            neighbors := (removeFromKnown g topo id).2.neighbors.eraseIdx idx } time) := by
      unfold onNeighborLost findNeighborIndex
      rw [if_neg hvalid, hidx]
    obtain ⟨-, helected, hsubset⟩ := hbefore.elect time
    refine outcome_of hrust (congrArg Prod.fst hc).symm ?_ ?_ ?_ <;> unfold step <;> dsimp only <;>
      rw [hc]
    · exact helected
    · exact hsubset
    · have halike : Alike checks topo pos r (.lost id time) ↔
          SameChoice topo pos r (topo.allKnown.filter fun a => decide (a ≠ id)) (knownIds r) :=
        ⟨fun ha => ha.2 hmem, fun hs => ⟨hvalid, fun _ => hs⟩⟩
      have hsame : Unmoved topo { (removeFromKnown g topo id).2 with
          neighbors := (removeFromKnown g topo id).2.neighbors.eraseIdx idx } :=
        ⟨hunmoved.myId, hunmoved.myPosition, hunmoved.config⟩
      have hrsame : RustUnmoved r { r with neighbors := r.neighbors.eraseIdx place } :=
        ⟨rfl, rfl, rfl⟩
      rw [halike, ← sameChoice_congr hsame hrsame, ← removeFromKnown_allKnown h.covers.known]
      exact election_iff hbefore time
  · have hrust : rustStep checks r (.lost id time) = some (.error .notFound, r) := by
      unfold rustStep Rust.Topology.onNeighborLost
      dsimp only
      rw [hnone'.mpr hmem]
    have hc : onNeighborLost g topo id time = (.error .notFound, g, topo, []) := by
      unfold onNeighborLost findNeighborIndex
      rw [if_neg hvalid, hnone.mpr hmem]
    refine outcome_of hrust (congrArg Prod.fst hc).symm ?_ ?_ ?_ <;> unfold step <;> dsimp only <;>
      rw [hc]
    · exact h.covers
    · exact h.elected
    · exact iff_of_true h.neighbors ⟨hvalid, fun hin => absurd hin hmem⟩

theorem outcome_reelect (h : Same g topo pos r) (time : TimeUs) :
    Outcome checks g topo pos r (.reelect time) := by
  obtain ⟨-, hcovers, hsubset⟩ := h.covers.elect time
  have hrust : rustStep checks r (.reelect time) = some (.ok (), r.reelect.2.1) := rfl
  exact outcome_of hrust rfl hcovers hsubset (election_iff h.covers time)

/-- **One call.** -/
theorem outcome_step (h : Same g topo pos r) (hother : FromOther topo.myId op) :
    Outcome checks g topo pos r op := by
  cases op with
  | discovery senderId p time => exact outcome_discovery h hother p time
  | lost lostId time => exact outcome_lost h lostId time
  | reelect time => exact outcome_reelect h time

/-! ## runs -/

theorem rustTopology_concat (checks : Bool) (topo : Topology) (ops : List Op) (op : Op) :
    rustTopology checks topo (ops ++ [op]) =
      (rustTopology checks topo ops).bind fun r => (rustStep checks r op).map Prod.snd := by
  unfold rustTopology
  rw [foldlM_append]
  exact Option.bind_congr fun r _ => bind_pure _

theorem init_same {myId : ModuleId} {myPosition : Position} {config : Option Config}
    (hinit : init myId myPosition config = .ok topo) (g : Shared)
    (hk : wanted topo ≤ Rust.maxNeighbors) :
    Same g topo (latest [])
      (Rust.Topology.new topo.myId topo.myPosition (some (rustConfig topo.config))) := by
  obtain ⟨hknown, -⟩ := init_nearest hinit g
  unfold init at hinit
  split_ifs at hinit
  obtain rfl := Except.ok.inj hinit
  exact
    { covers :=
        { known := hknown
          rust := ⟨nodup_nil, not_mem_nil, not_mem_nil, nofun⟩
          myId := rfl
          myPosition := rfl
          metric := rfl
          wanted := rfl
          bound := hk
          subset := nofun }
      neighbors := rfl
      elected := nofun }

theorem step_myId (g : Shared) (topo : Topology) (op : Op) :
    (step (g, topo) op).1.2.myId = topo.myId := by
  cases op with
  | discovery senderId p time =>
    have hadd {g' : Shared} {topo' : Topology} (h : addToKnown g topo senderId p = some (g', topo')) :
        topo'.myId = topo.myId := by
      unfold addToKnown at h
      split at h
      · exact congrArg (fun a => a.2.myId) (Option.some.inj h).symm
      · split_ifs at h
        exact congrArg (fun a => a.2.myId) (Option.some.inj h).symm
    unfold step onDiscovery
    dsimp only
    split_ifs
    · rfl
    · rfl
    · cases h : addToKnown g topo senderId p with
      | none => rfl
      | some known =>
        dsimp only
        split_ifs
        · exact (reelect_frame ..).2.1.trans (hadd h)
        · exact hadd h
  | lost lostId time =>
    have hremove : (removeFromKnown g topo lostId).2.myId = topo.myId := by
      unfold removeFromKnown
      split <;> rfl
    unfold step onNeighborLost
    dsimp only
    split_ifs
    · rfl
    · cases findNeighborIndex topo lostId with
      | none => rfl
      | some idx => exact (reelect_frame ..).2.1.trans hremove
  | reelect time => exact (reelect_frame ..).2.1

theorem after_myId (g : Shared) (topo : Topology) (ops : List Op) :
    (after g topo ops).2.myId = topo.myId := by
  induction ops using List.reverseRecOn with
  | nil => rfl
  | append_singleton ops op ih =>
    show ((topology g topo).run _).2.myId = _
    rw [Machine.run_concat]
    exact (step_myId ..).trans ih

theorem same_of_runs (hinit : Same g topo (latest [])
    (Rust.Topology.new topo.myId topo.myPosition (some (rustConfig topo.config)))) {ops : List Op}
    (hother : ∀ op ∈ ops, FromOther topo.myId op) (hagrees : EveryStep (Agrees checks g topo) ops) :
    ∃ r, rustTopology checks topo ops = some r ∧
      Same (after g topo ops).1 (after g topo ops).2 (latest ops) r := by
  induction ops using List.reverseRecOn with
  | nil => exact ⟨_, rfl, hinit⟩
  | append_singleton ops op ih =>
    rw [everyStep_concat] at hagrees
    obtain ⟨hbefore, hop⟩ := hagrees
    obtain ⟨r, hr, hsame⟩ := ih (fun op' hin => hother op' (mem_append_left _ hin)) hbefore
    obtain ⟨r₁, hr₁, hstep⟩ := hop
    obtain rfl := Option.some.inj (hr.symm.trans hr₁)
    have hfrom : FromOther (after g topo ops).2.myId op := by
      rw [after_myId]
      exact hother op (mem_append_right _ mem_cons_self)
    obtain ⟨res, r', hrust, hsame'⟩ := (outcome_step hsame hfrom).same hstep
    refine ⟨r', ?_, ?_⟩
    · rw [rustTopology_concat, hr, Option.bind_some, hrust]
      rfl
    · rw [latest_concat]
      show Same ((topology g topo).run _).1 ((topology g topo).run _).2 _ _
      rw [Machine.run_concat]
      exact hsame'

def AlikeBefore (checks : Bool) (g : Shared) (topo : Topology) (pre : List Op) (op : Op) : Prop :=
  ∀ r ∈ rustTopology checks topo pre, Alike checks (after g topo pre).2 (latest pre) r op

/-- **Main.** The topologies agree on all calls of a run exactly when all calls meet the
condition. -/
theorem topologies_agree_iff {myId : ModuleId} {myPosition : Position} {config : Option Config}
    (hinit : init myId myPosition config = .ok topo) (hk : wanted topo ≤ Rust.maxNeighbors)
    {ops : List Op} (hother : ∀ op ∈ ops, FromOther topo.myId op) :
    EveryStep (Agrees checks g topo) ops ↔ EveryStep (AlikeBefore checks g topo) ops := by
  refine everyStep_congr_where (V := fun ops => ∀ op ∈ ops, FromOther topo.myId op)
    (fun ops op h op' hin => h op' (mem_append_left _ hin)) (fun ops op h hagrees => ?_) ops
    hother
  obtain ⟨r, hr, hsame⟩ := same_of_runs (init_same hinit g hk)
    (fun op' hin => h op' (mem_append_left _ hin)) hagrees
  have hfrom : FromOther (after g topo ops).2.myId op := by
    rw [after_myId]
    exact h op (mem_append_right _ mem_cons_self)
  have houtcome : Outcome checks _ _ _ _ _ := outcome_step hsame hfrom
  have hiff := houtcome.iff
  constructor
  · rintro ⟨r₁, hr₁, hstep⟩ r₂ hr₂
    obtain rfl := Option.some.inj (hr.symm.trans hr₁)
    obtain rfl := Option.some.inj (hr.symm.trans hr₂)
    exact hiff.mp hstep
  · exact fun h => ⟨r, hr, hiff.mpr (h r hr)⟩

def sampleRun : List Op :=
  [.discovery 12 ⟨0, 0, 0⟩ 1, .discovery 9 ⟨0, 0, 0⟩ 2, .reelect 3]

theorem topologies_agree_sample : ∃ topo,
    init 10 ⟨0, 0, 0⟩ none = .ok topo ∧ topo.config.metric = .logical ∧
      EveryStep (Agrees true Shared.zero topo) sampleRun := by
  refine ⟨_, rfl, rfl, (topologies_agree_iff (show init 10 ⟨0, 0, 0⟩ none = .ok _ from rfl)
    (by decide) ?_).mpr ?_⟩
  · intro op hop
    rcases mem_cons.mp hop with rfl | hop
    · show (12 : ModuleId) ≠ 10
      decide
    rcases mem_cons.mp hop with rfl | hop
    · show (9 : ModuleId) ≠ 10
      decide
    obtain rfl := mem_singleton.mp hop
    trivial
  show EveryStep _ ([] ++ [Op.discovery 12 ⟨0, 0, 0⟩ 1] ++ [Op.discovery 9 ⟨0, 0, 0⟩ 2] ++
    [Op.reelect 3])
  rw [everyStep_concat, everyStep_concat, everyStep_concat]
  refine ⟨⟨⟨everyStep_nil _, fun r hr _ => ?_⟩, fun r hr _ => ?_⟩, fun r hr => ?_⟩
  · obtain rfl := Option.some.inj hr
    refine ⟨fun _ => nofun, fun _ => ?_⟩
    exact ⟨by decide +kernel, by decide +kernel⟩
  · obtain rfl := Option.some.inj hr
    refine ⟨fun _ => nofun, fun _ => ?_⟩
    exact ⟨by decide +kernel, by decide +kernel⟩
  · obtain rfl := Option.some.inj hr
    exact ⟨by decide +kernel, by decide +kernel⟩

/-- of two neighbors at one distance the C topology prefers the smaller id, and the Rust topology the
one it heard of first -/
theorem not_agree_tie : ∃ topo,
    init 10 ⟨0, 0, 0⟩ none = .ok topo ∧ topo.config.metric = .logical ∧
      wanted topo ≤ Rust.maxNeighbors ∧
      ¬EveryStep (Agrees true Shared.zero topo)
        [.discovery 12 ⟨0, 0, 0⟩ 1, .discovery 8 ⟨0, 0, 0⟩ 2] := by
  refine ⟨_, rfl, rfl, by decide, fun h => ?_⟩
  obtain ⟨r, hr, res, r', hstep, -, hids⟩ :=
    h [.discovery 12 ⟨0, 0, 0⟩ 1] _ (prefix_refl _)
  obtain rfl := Option.some.inj hr
  obtain ⟨-, rfl⟩ := Prod.mk.inj (Option.some.inj hstep)
  exact absurd hids (by decide)

end Topologies
end Agreement
end EkKor
