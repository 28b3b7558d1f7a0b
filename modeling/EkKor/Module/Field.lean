import EkKor.Module.Topology
import EkKor.Lib.Signed
import Mathlib.Tactic.Linarith
import Mathlib.Tactic.Ring

/-!
# Fields and fixed point numbers

* `Region`, `publish`, `sample`   the fields;
* `fixedMul_of_fits`, `expDecay_value`   the values of the fixed point operations.
-/

/-!
# The coordination fields (`ekk_field.c`)

A region is used by one call at a time: a write that is in progress is one that never ended.

* `fixedMul`, `fixedDiv`, `fixedExpDecay`   numbers with 16 binary places;
* `CoordField`, `Region`   the data;
* `publish`, `sample`, `sampleNeighbors`, `gradientAll`   the API.
-/

namespace EkKor
namespace Field
open EkKor.Topology (Neighbor)

/-! ## fixed point numbers (`ekk_types.c`) -/

abbrev one : Int32 := 65536
abbrev half : Int32 := 32768

/-- `ekk_fixed_mul` -/
def fixedMul (a b : Int32) : Int32 := ((a.toInt64 * b.toInt64) >>> 16).toInt32

/-- `ekk_fixed_div` -/
def fixedDiv (a b : Int32) : Int32 :=
  if b = 0 then (if a ≥ 0 then Int32.maxValue else Int32.minValue)
  else ((a.toInt64 <<< 16) / b.toInt64).toInt32

/-- `ekk_fixed_exp_decay` -/
def fixedExpDecay (elapsed tau : TimeUs) : Int32 :=
  if tau = 0 then 0
  else if elapsed = 0 then one
  else if elapsed ≥ tau * 5 then 0
  else
    let x := fixedDiv elapsed.toUInt32.toInt32 tau.toUInt32.toInt32
    let x2 := fixedMul x x
    fixedDiv one (one + x + (x2 >>> 1))

/-! ## the region -/

/-- `EKK_FIELD_DECAY_TAU_US` -/
abbrev decayTau : TimeUs := 100000

/-- `EKK_FIELD_MAX_AGE_US` -/
abbrev maxAge : TimeUs := decayTau * 5

/-- `ekk_coord_field_t` -/
structure CoordField where
  field : Field
  sequence : UInt32

/-- `ekk_field_region_t`; a flag is a bit -/
structure Region where
  fields : ModuleId → CoordField
  updateFlags : ModuleId → Bool
  lastGc : TimeUs

/-- `ekk_field_init`, for a region that is not null -/
def init : Region := ⟨fun _ => ⟨Field.zero, 0⟩, fun _ => false, 0⟩

/-- `ekk_field_publish`; `now` is the value of `ekk_hal_time_us` -/
def publish (region : Option Region) (moduleId : ModuleId) (field : Field) (now : TimeUs) :
    Except Err Unit × Option Region :=
  match region with
  | none => (.error .halFailure, none)
  | some region =>
    if moduleId = invalidModuleId then (.error .invalidArg, some region)
    else
      let sequence := (region.fields moduleId).sequence
      let cf : CoordField :=
        { field :=
            { components := field.components
              timestamp := now
              source := moduleId
              sequence := (sequence + 1).toUInt8 }
          sequence := sequence + 1 + 1 }
      (.ok (),
        some
          { region with
            fields := Function.update region.fields moduleId cf
            updateFlags := Function.update region.updateFlags moduleId true })

/-- `ekk_field_apply_decay` -/
def applyDecay (field : Field) (elapsed : TimeUs) : Field :=
  { field with
    components := field.components.map fun c => fixedMul c (fixedExpDecay elapsed decayTau) }

/-- `ekk_field_sample`; `now` is the value of `ekk_hal_time_us` -/
def sample (region : Option Region) (targetId : ModuleId) (now : TimeUs) : Except Err Field :=
  match region with
  | none => .error .halFailure
  | some region =>
    if targetId = invalidModuleId then .error .invalidArg
    else
      let cf := region.fields targetId
      if cf.sequence % 2 = 1 then .error .busy
      else if cf.field.source = invalidModuleId then .error .notFound
      else if now - cf.field.timestamp > maxAge then .error .fieldExpired
      else .ok (applyDecay cf.field (now - cf.field.timestamp))

/-! ## aggregates -/

def weight (n : Neighbor) : Int32 :=
  let weight := if n.health = .suspect then half else one
  if n.logicalDistance > 0 then
    fixedMul weight (fixedDiv one (one + (n.logicalDistance <<< 8)))
  else weight

/-- what the loop of `ekk_field_sample_neighbors` does with a neighbor -/
def sampleNeighbor (region : Option Region) (clock : ModuleId → TimeUs) (n : Neighbor) :
    Option (Neighbor × Field) :=
  if n.health = .dead ∨ n.health = .unknown then none
  else
    match sample region n.id (clock n.id) with
    | .ok field => some (n, field)
    | .error _ => none

def sampled (region : Option Region) (clock : ModuleId → TimeUs) (neighbors : List Neighbor) :
    List (Neighbor × Field) :=
  neighbors.filterMap (sampleNeighbor region clock)

/-- `sums[c]` -/
def sum (samples : List (Neighbor × Field)) (c : Fin 6) : Int64 :=
  (samples.map fun s => (fixedMul (s.2.components.get c) (weight s.1)).toInt64).sum

/-- `total_weight` -/
def totalWeight (samples : List (Neighbor × Field)) : Int32 :=
  (samples.map fun s => weight s.1).sum

/-- `ekk_field_sample_neighbors`; `clock` is `ekk_hal_time_us` when the field of a module is read.
A positive total below 1 divides by zero in the source, and the quotient is 0 here. -/
def sampleNeighbors (region : Option Region) (clock : ModuleId → TimeUs)
    (neighbors : List Neighbor) : Field :=
  let samples := sampled region clock neighbors
  { components :=
      if totalWeight samples > 0 then
        Vector.ofFn fun c => (sum samples c / (totalWeight samples >>> 16).toInt64).toInt32
      else Vector.replicate 6 0
    timestamp := (samples.map fun s => s.2.timestamp).foldl max 0
    source := invalidModuleId
    sequence := 0 }

/-- `ekk_field_gradient_all` -/
def gradientAll (myField aggregate : Field) : Vector Int32 6 :=
  Vector.ofFn fun c => aggregate.components.get c - myField.components.get c

/-! ## who is aggregated -/

def Fresh (region : Option Region) (id : ModuleId) (now : TimeUs) : Prop :=
  ∃ field, sample region id now = .ok field

theorem mem_sampled {region : Option Region} {clock : ModuleId → TimeUs}
    {neighbors : List Neighbor} {n : Neighbor} :
    n ∈ (sampled region clock neighbors).map Prod.fst ↔
      n ∈ neighbors ∧ (n.health = .alive ∨ n.health = .suspect) ∧
        Fresh region n.id (clock n.id) := by
  unfold sampled
  rw [List.map_filterMap, List.mem_filterMap]
  have hone (m : Neighbor) : (sampleNeighbor region clock m).map Prod.fst = some n ↔
      m = n ∧ (m.health = .alive ∨ m.health = .suspect) ∧ Fresh region m.id (clock m.id) := by
    unfold sampleNeighbor Fresh
    cases m.health with
    | unknown => simp
    | dead => simp
    | alive => cases sample region m.id (clock m.id) <;> simp
    | suspect => cases sample region m.id (clock m.id) <;> simp
  constructor
  · rintro ⟨m, hm, hsome⟩
    obtain ⟨rfl, hrest⟩ := (hone m).mp hsome
    exact ⟨hm, hrest⟩
  · rintro ⟨hn, hrest⟩
    exact ⟨n, hn, (hone n).mpr ⟨rfl, hrest⟩⟩

end Field
end EkKor

/-!
# The values of the fixed point operations (`ekk_types.c`)

* `fixedMul_toInt`, `fixedDiv_toInt`   rounded and narrowed to 32 bits;
* `narrow_toInt`      a time that is narrowed to 32 bits;
* `denominator`       `1 + x + x ^ 2 / 2`, which is never below a half;
* `expDecay_value`    the decay factor is its inverse, for a quotient `x` that has room.
-/

namespace EkKor
namespace Field
open Signed

variable {a b : Int32} {elapsed tau : TimeUs}

theorem fixedMul_toInt (a b : Int32) :
    (fixedMul a b).toInt = (a.toInt * b.toInt / 65536).bmod (2 ^ 32) := by
  unfold fixedMul
  rw [Int64.toInt_toInt32, toInt_shiftRight64, toInt_mul64]

theorem fixedMul_of_fits (h : Fits (a.toInt * b.toInt / 65536)) :
    (fixedMul a b).toInt = a.toInt * b.toInt / 65536 := by
  rw [fixedMul_toInt, bmod_of_fits h]

theorem fixedDiv_toInt (a : Int32) (hb : b ≠ 0) :
    (fixedDiv a b).toInt = ((a.toInt * 65536).tdiv b.toInt).bmod (2 ^ 32) := by
  have hlow := a.le_toInt
  have hhigh := a.toInt_lt
  have habs : ((a.toInt * 65536).tdiv b.toInt).natAbs ≤ 2 ^ 47 := by
    rw [Int.natAbs_tdiv]
    refine Nat.le_trans (Nat.div_le_self _ _) ?_
    omega
  unfold fixedDiv
  rw [if_neg hb, Int64.toInt_toInt32, Int64.toInt_div, toInt_shiftLeft64, Int32.toInt_toInt64,
    bmod64_of_le (by omega) (by omega)]

theorem fixedDiv_of_fits (hb : b ≠ 0) (h : Fits ((a.toInt * 65536).tdiv b.toInt)) :
    (fixedDiv a b).toInt = (a.toInt * 65536).tdiv b.toInt := by
  rw [fixedDiv_toInt a hb, bmod_of_fits h]

/-! ## the decay factor -/

def narrow (v : TimeUs) : Int := v.toUInt32.toInt32.toInt

theorem narrow_toInt (v : TimeUs) :
    narrow v = if v.toNat % 2 ^ 32 < 2 ^ 31 then ((v.toNat % 2 ^ 32 : Nat) : Int)
      else ((v.toNat % 2 ^ 32 : Nat) : Int) - 2 ^ 32 := by
  have hvalue : narrow v = ((v.toNat % 2 ^ 32 : Nat) : Int).bmod (2 ^ 32) := by
    unfold narrow
    rw [← Int32.toInt_toBitVec, BitVec.toInt_eq_toNat_bmod]
    show ((v.toUInt32.toNat : Nat) : Int).bmod _ = _
    rw [UInt64.toNat_toUInt32]
  rw [hvalue]
  split_ifs with h
  · exact Int.bmod_eq_of_le (by omega) (by omega)
  · rw [← Int.sub_bmod_right]
    exact Int.bmod_eq_of_le (by omega) (by omega)

/-- what `1` is divided by -/
def denominator (x : Int) : Int := 65536 + x + x * x / 65536 / 2

theorem denominator_ge (x : Int) : 32768 ≤ denominator x := by
  have hsquare : 0 ≤ (x + 65536) * (x + 65536) := mul_self_nonneg _
  have hexpand : (x + 65536) * (x + 65536) = x * x + 131072 * x + 4294967296 := by ring
  unfold denominator
  omega

theorem square_le {x : Int} (hlow : -2 ^ 19 ≤ x) (hhigh : x ≤ 2 ^ 19) : x * x ≤ 2 ^ 38 := by
  nlinarith

theorem denominator_le {x : Int} (hlow : -2 ^ 19 ≤ x) (hhigh : x ≤ 2 ^ 19) :
    denominator x ≤ 2687488 := by
  have hsquare := square_le hlow hhigh
  unfold denominator
  omega

theorem expDecay_value (hzero : elapsed ≠ 0) (hlt : elapsed < tau * 5) (htau : narrow tau ≠ 0)
    {x : Int} (hx : (narrow elapsed * 65536).tdiv (narrow tau) = x) (hlow : -2 ^ 19 ≤ x)
    (hhigh : x ≤ 2 ^ 19) :
    (fixedExpDecay elapsed tau).toInt = 2 ^ 32 / denominator x := by
  have htau' : tau ≠ 0 := by
    rintro rfl
    exact htau rfl
  have hb : tau.toUInt32.toInt32 ≠ 0 := fun h => htau (congrArg Int32.toInt h)
  have hquotient : (fixedDiv elapsed.toUInt32.toInt32 tau.toUInt32.toInt32).toInt = x := by
    rw [fixedDiv_of_fits hb, ← hx]
    · rfl
    · show Fits ((narrow elapsed * 65536).tdiv (narrow tau))
      unfold Fits
      omega
  unfold fixedExpDecay
  rw [if_neg htau', if_neg hzero, if_neg (UInt64.not_le.mpr hlt)]
  generalize fixedDiv elapsed.toUInt32.toInt32 tau.toUInt32.toInt32 = q at hquotient
  have hsquare := square_le hlow hhigh
  have hnonneg : 0 ≤ x * x := mul_self_nonneg x
  have hx2 : (fixedMul q q).toInt = x * x / 65536 := by
    rw [fixedMul_of_fits (by rw [hquotient]; unfold Fits; omega), hquotient]
  have hone : one.toInt = 65536 := rfl
  have hsum : (one + q).toInt = 65536 + x := by
    rw [toInt_add (by rw [hquotient, hone]; unfold Fits; omega), hquotient, hone]
  have hden : (one + q + (fixedMul q q >>> 1)).toInt = denominator x := by
    rw [toInt_add, hsum, toInt_half, hx2]
    · rfl
    · rw [hsum, toInt_half, hx2]
      unfold Fits
      omega
  have hge := denominator_ge x
  have hne : one + q + (fixedMul q q >>> 1) ≠ 0 := by
    intro h
    rw [h] at hden
    have hzero : (0 : Int32).toInt = 0 := rfl
    omega
  have hle : (2 ^ 32 : Int) / denominator x ≤ 131072 :=
    Int.ediv_le_of_le_mul (by omega) (by omega)
  have hpos : (0 : Int) ≤ 2 ^ 32 / denominator x := Int.ediv_nonneg (by decide) (by omega)
  have hdiv : (one.toInt * 65536).tdiv (one + q + (fixedMul q q >>> 1)).toInt =
      2 ^ 32 / denominator x := by
    rw [hden, hone, Int.tdiv_eq_ediv_of_nonneg (by decide)]
    rfl
  rw [fixedDiv_of_fits hne, hdiv]
  unfold Fits
  omega

end Field
end EkKor
