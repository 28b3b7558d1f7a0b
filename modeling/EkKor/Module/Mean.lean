import EkKor.Lib.Truncation
import EkKor.Stigmergy.Decay

/-!
# The aggregate of the neighbors (`ekk_field_sample_neighbors`)

The sum of the weighted components is divided by the whole part of the total weight.

* `contributing`      the neighbors whose fields are aggregated;
* `WeightDefined`, `weight_bounds`   a weight is between 0 and 1, where the distance has room;
* `IsMean`            nothing overflows or divides by 0, and the aggregate is between the bounds of
                      the fields;
* `Close`             little of the total weight is lost;
* `isMean_of_close`   where it is close, the aggregate is a mean of all fields;
* `close_of_isMean`   where the aggregate is a mean of fields of components 1, it is close;
* `mean_iff`          so it is a mean of all fields exactly if it is close.
-/

namespace EkKor
namespace Field
open Signed WeightedMean
open List hiding Vector
open EkKor.Topology (Neighbor)

variable {n : Neighbor} {neighbors : List Neighbor} {samples : List (Neighbor × Field)}
  {region : Option Region} {clock : ModuleId → TimeUs} {readable : ModuleId → Bool}

/-! ## weights -/

def WeightDefined (n : Neighbor) : Prop :=
  0 < n.logicalDistance.toInt → n.logicalDistance.toInt * 256 + 65536 < 2 ^ 31

instance (n : Neighbor) : Decidable (WeightDefined n) := inferInstanceAs (Decidable (_ → _))

theorem divisor_toInt {d : Int32} (hpos : 0 < d.toInt) (hroom : d.toInt * 256 + 65536 < 2 ^ 31) :
    (one + (d <<< 8)).toInt = 65536 + d.toInt * 256 := by
  have hone : one.toInt = 65536 := rfl
  have hshift : (d <<< 8).toInt = d.toInt * 256 := by
    have hmul : d <<< 8 = d * 256 := by
      refine Int32.toBitVec_inj.mp ?_
      exact BitVec.shiftLeft_eq_mul_twoPow _ 8
    rw [hmul]
    refine toInt_mul ?_
    show Fits (d.toInt * 256)
    unfold Fits
    omega
  rw [toInt_add, hshift, hone]
  unfold Fits
  omega

theorem distanceFactor_bounds {d : Int32} (hpos : 0 < d.toInt)
    (hroom : d.toInt * 256 + 65536 < 2 ^ 31) :
    2 ≤ (fixedDiv one (one + (d <<< 8))).toInt ∧
      (fixedDiv one (one + (d <<< 8))).toInt ≤ 65536 := by
  have hdivisor := divisor_toInt hpos hroom
  have hne : one + (d <<< 8) ≠ 0 := fun hzero => by
    rw [hzero] at hdivisor
    have hval : (0 : Int32).toInt = 0 := rfl
    omega
  have hquotient : (one.toInt * 65536).tdiv (one + (d <<< 8)).toInt =
      2 ^ 32 / (65536 + d.toInt * 256) := by
    have hone : one.toInt = 65536 := rfl
    rw [hdivisor, hone, Int.tdiv_eq_ediv_of_nonneg (by decide)]
    rfl
  have hge : 2 ≤ (2 ^ 32 : Int) / (65536 + d.toInt * 256) :=
    (Int.le_ediv_iff_mul_le (by omega)).mpr (by omega)
  have hle : (2 ^ 32 : Int) / (65536 + d.toInt * 256) ≤ 65536 :=
    Int.ediv_le_of_le_mul (by omega) (by omega)
  rw [fixedDiv_of_fits hne, hquotient]
  · exact ⟨hge, hle⟩
  · unfold Fits
    omega

theorem weight_bounds (h : WeightDefined n) : 1 ≤ (weight n).toInt ∧ (weight n).toInt ≤ 65536 := by
  unfold weight
  have hhealth : 32768 ≤ (if n.health = .suspect then half else one).toInt ∧
      (if n.health = .suspect then half else one).toInt ≤ 65536 := by
    split_ifs <;> decide
  generalize (if n.health = .suspect then half else one) = base at hhealth ⊢
  dsimp only
  split_ifs with hd
  · have hpos : 0 < n.logicalDistance.toInt := Int32.lt_iff_toInt_lt.mp hd
    have hfactor := distanceFactor_bounds hpos (h hpos)
    generalize fixedDiv one (one + (n.logicalDistance <<< 8)) = factor at hfactor ⊢
    have hlow : 32768 * 2 ≤ base.toInt * factor.toInt :=
      Int.mul_le_mul hhealth.1 hfactor.1 (by decide) (Int.le_trans (by decide) hhealth.1)
    have hhigh : base.toInt * factor.toInt ≤ 65536 * 65536 :=
      Int.mul_le_mul hhealth.2 hfactor.2 (Int.le_trans (by decide) hfactor.1) (by decide)
    rw [fixedMul_of_fits]
    · omega
    · unfold Fits
      omega
  · omega

/-! ## fields -/

def InUnit (region : Region) : Prop :=
  ∀ id c, 0 ≤ (region.fields id).field.components.get c ∧
    (region.fields id).field.components.get c ≤ one

theorem fixedMul_unit {a b : Int32} (ha : 0 ≤ a.toInt ∧ a.toInt ≤ 65536)
    (hb : 0 ≤ b.toInt ∧ b.toInt ≤ 65536) :
    (fixedMul a b).toInt = a.toInt * b.toInt / 65536 ∧ 0 ≤ (fixedMul a b).toInt ∧
      (fixedMul a b).toInt ≤ 65536 := by
  have hnonneg : 0 ≤ a.toInt * b.toInt := Int.mul_nonneg ha.1 hb.1
  have hle : a.toInt * b.toInt ≤ 65536 * 65536 := by nlinarith
  have hvalue : (fixedMul a b).toInt = a.toInt * b.toInt / 65536 := by
    refine fixedMul_of_fits ?_
    unfold Fits
    omega
  refine ⟨hvalue, ?_, ?_⟩
  · omega
  · omega

theorem sample_unit {region : Region} (h : InUnit region) {id : ModuleId} {now : TimeUs}
    {field : Field} (hsample : sample (some region) id now = .ok field) (c : Fin 6) :
    0 ≤ (field.components.get c).toInt ∧ (field.components.get c).toInt ≤ 65536 := by
  unfold sample at hsample
  dsimp only at hsample
  split_ifs at hsample
  obtain rfl := Except.ok.inj hsample
  have hdecays : Stigmergy.Decays fun e => fixedExpDecay e decayTau :=
    Stigmergy.decays_of_pos (by decide) (by decide)
  obtain ⟨hlow, hhigh⟩ :=
    (hdecays (now - (region.fields id).field.timestamp) _ (UInt64.le_refl _)).first
  obtain ⟨hc0, hc1⟩ := h id c
  unfold applyDecay
  have hget : ((region.fields id).field.components.map fun c =>
      fixedMul c (fixedExpDecay (now - (region.fields id).field.timestamp) decayTau)).get c =
        fixedMul ((region.fields id).field.components.get c)
          (fixedExpDecay (now - (region.fields id).field.timestamp) decayTau) := by
    exact Vector.getElem_map _ _
  rw [hget]
  exact (fixedMul_unit ⟨Int32.le_iff_toInt_le.mp hc0, Int32.le_iff_toInt_le.mp hc1⟩
    ⟨Int32.le_iff_toInt_le.mp hlow, Int32.le_iff_toInt_le.mp hhigh⟩).2

/-! ## the samples -/

/-- the neighbors that are aggregated, where the modules with a field that can be read are known -/
def contributing (readable : ModuleId → Bool) (neighbors : List Neighbor) : List Neighbor :=
  neighbors.filter fun n => (n.health == .alive || n.health == .suspect) && readable n.id

theorem sampled_ok {s : Neighbor × Field} (h : s ∈ sampled region clock neighbors) :
    sample region s.1.id (clock s.1.id) = .ok s.2 := by
  obtain ⟨n, -, hsome⟩ := mem_filterMap.mp h
  unfold sampleNeighbor at hsome
  split_ifs at hsome
  cases hsample : sample region n.id (clock n.id) with
  | error e =>
    rw [hsample] at hsome
    cases hsome
  | ok field =>
    rw [hsample] at hsome
    obtain rfl := Option.some.inj hsome
    exact hsample

theorem sampled_fst
    (hread : ∀ id, Fresh region id (clock id) ↔ readable id = true) :
    (sampled region clock neighbors).map Prod.fst = contributing readable neighbors := by
  unfold sampled contributing
  rw [map_filterMap, ← filterMap_eq_filter]
  refine filterMap_congr fun n _ => ?_
  have hn := hread n.id
  unfold sampleNeighbor
  unfold Fresh at hn
  cases hsample : sample region n.id (clock n.id) with
  | error e =>
    rw [hsample] at hn
    have hfalse : readable n.id = false := by
      rw [← Bool.not_eq_true, ← hn]
      rintro ⟨field, hfield⟩
      cases hfield
    cases hhealth : n.health <;> simp [Option.guard, hhealth, hfalse]
  | ok field =>
    have htrue : readable n.id = true := hn.mp ⟨field, hsample⟩
    cases hhealth : n.health <;> simp [Option.guard, hhealth, htrue]

/-! ## the aggregate -/

def total (l : List Neighbor) : Int := (l.map fun n => (weight n).toInt).sum

/-- the numbers of the mean are defined, and it is between the bounds of the fields, but for one
unit for each of them.  The weights are not negative, so that the total has room if the sum has -/
structure IsMean (region : Option Region) (clock : ModuleId → TimeUs) (neighbors : List Neighbor) :
    Prop where
  weights : ∀ s ∈ sampled region clock neighbors, WeightDefined s.1
  room : total ((sampled region clock neighbors).map Prod.fst) < 2 ^ 31
  divides : 0 < totalWeight (sampled region clock neighbors) →
    totalWeight (sampled region clock neighbors) >>> 16 ≠ 0
  between : sampled region clock neighbors ≠ [] → ∀ c low high,
    (∀ s ∈ sampled region clock neighbors,
      low ≤ (s.2.components.get c).toInt ∧ (s.2.components.get c).toInt ≤ high) →
    low - (sampled region clock neighbors).length ≤
        ((sampleNeighbors region clock neighbors).components.get c).toInt ∧
      ((sampleNeighbors region clock neighbors).components.get c).toInt ≤
        high + (sampled region clock neighbors).length

/-- the weights are defined, and what is lost of their sum is less than its whole part for each
neighbor, and once more -/
def Close (l : List Neighbor) : Prop :=
  (∀ n ∈ l, WeightDefined n) ∧ total l < 2 ^ 31 ∧
    total l % 65536 < total l / 65536 * (l.length + 1)

instance (l : List Neighbor) : Decidable (Close l) := inferInstanceAs (Decidable (_ ∧ _ ∧ _))

def pairs (samples : List (Neighbor × Field)) (c : Fin 6) : List (Int × Int) :=
  samples.map fun s => ((s.2.components.get c).toInt, (weight s.1).toInt)

theorem weights_pairs (c : Fin 6) : weights (pairs samples c) = total (samples.map Prod.fst) := by
  unfold weights pairs total
  rw [map_map, map_map]
  rfl

theorem pairs_length (c : Fin 6) : (pairs samples c).length = samples.length := length_map _

section
variable (hdefined : ∀ s ∈ samples, WeightDefined s.1)
  (hroom : total (samples.map Prod.fst) < 2 ^ 31)
include hdefined hroom

theorem totalWeight_toInt : (totalWeight samples).toInt = total (samples.map Prod.fst) := by
  have hmap : (samples.map fun s => weight s.1).map Int32.toInt =
      (samples.map Prod.fst).map fun n => (weight n).toInt := by
    rw [map_map, map_map]
    rfl
  unfold totalWeight total
  rw [← hmap]
  refine toInt_sum (fun w hw => ?_) ?_
  · obtain ⟨s, hs, rfl⟩ := mem_map.mp hw
    exact Int.le_trans (by decide) (weight_bounds (hdefined s hs)).1
  · rw [hmap]
    exact hroom

variable {c : Fin 6}
  (hunit : ∀ s ∈ samples, 0 ≤ (s.2.components.get c).toInt ∧ (s.2.components.get c).toInt ≤ 65536)
include hunit

theorem products_bounds : 0 ≤ products 65536 (pairs samples c) ∧
    products 65536 (pairs samples c) < 2 ^ 31 := by
  have hweight : ∀ p ∈ pairs samples c, 0 ≤ p.2 := fun p hp => by
    obtain ⟨s, hs, rfl⟩ := mem_map.mp hp
    exact Int.le_trans (by decide) (weight_bounds (hdefined s hs)).1
  have hvalue : ∀ p ∈ pairs samples c, 0 ≤ p.1 ∧ p.1 ≤ 65536 := fun p hp => by
    obtain ⟨s, hs, rfl⟩ := mem_map.mp hp
    exact hunit s hs
  have hle := products_le (u := 65536) (by decide) hweight fun p hp => (hvalue p hp).2
  rw [weights_pairs] at hle
  exact ⟨products_nonneg (by decide) (fun p hp => (hvalue p hp).1) hweight, by omega⟩

theorem sum_toInt : (sum samples c).toInt = products 65536 (pairs samples c) := by
  have hproduct : ∀ s ∈ samples, (fixedMul (s.2.components.get c) (weight s.1)).toInt =
      (s.2.components.get c).toInt * (weight s.1).toInt / 65536 ∧
        0 ≤ (fixedMul (s.2.components.get c) (weight s.1)).toInt := fun s hs => by
    have hweight := weight_bounds (hdefined s hs)
    obtain ⟨hvalue, hnonneg, -⟩ := fixedMul_unit (hunit s hs)
      ⟨Int.le_trans (by decide) hweight.1, hweight.2⟩
    exact ⟨hvalue, hnonneg⟩
  have hmap : (samples.map fun s => fixedMul (s.2.components.get c) (weight s.1)).map Int32.toInt =
      (pairs samples c).map fun p => p.1 * p.2 / 65536 := by
    unfold pairs
    rw [map_map, map_map]
    refine map_congr_left fun s hs => ?_
    rw [Function.comp_apply, Function.comp_apply]
    exact (hproduct s hs).1
  have hmap64 : (samples.map fun s => (fixedMul (s.2.components.get c) (weight s.1)).toInt64) =
      (samples.map fun s => fixedMul (s.2.components.get c) (weight s.1)).map Int32.toInt64 := by
    rw [map_map]
    rfl
  unfold sum products
  rw [hmap64, ← hmap]
  refine toInt_sum64 (fun w hw => ?_) ?_
  · obtain ⟨s, hs, rfl⟩ := mem_map.mp hw
    exact (hproduct s hs).2
  · rw [hmap]
    exact (products_bounds hdefined hroom hunit).2

theorem quotient_toInt (hpos : 0 < total (samples.map Prod.fst) / 65536) :
    (sum samples c / (totalWeight samples >>> 16).toInt64).toInt32.toInt =
      products 65536 (pairs samples c) / (total (samples.map Prod.fst) / 65536) := by
  obtain ⟨hnonneg, hlt⟩ := products_bounds hdefined hroom hunit
  have hle : products 65536 (pairs samples c) / (total (samples.map Prod.fst) / 65536) ≤
      products 65536 (pairs samples c) := Int.ediv_le_self _ hnonneg
  have hlow : 0 ≤ products 65536 (pairs samples c) / (total (samples.map Prod.fst) / 65536) :=
    Int.ediv_nonneg hnonneg (Int.le_of_lt hpos)
  rw [Int64.toInt_toInt32, Int64.toInt_div, sum_toInt hdefined hroom hunit, Int32.toInt_toInt64,
    toInt_shiftRight, totalWeight_toInt hdefined hroom, Int.tdiv_eq_ediv_of_nonneg hnonneg,
    bmod64_of_le (by omega) (by omega)]
  exact bmod_of_fits ⟨by omega, by omega⟩

end

theorem aggregate_get (hpos : 0 < totalWeight (sampled region clock neighbors)) (c : Fin 6) :
    (sampleNeighbors region clock neighbors).components.get c =
      (sum (sampled region clock neighbors) c /
        (totalWeight (sampled region clock neighbors) >>> 16).toInt64).toInt32 := by
  unfold sampleNeighbors
  dsimp only
  rw [if_pos hpos]
  exact Vector.getElem_ofFn _

/-! ## the condition is enough -/

theorem isMean_nil (hnil : sampled region clock neighbors = []) :
    IsMean region clock neighbors where
  weights s hs := by
    rw [hnil] at hs
    cases hs
  room := by
    rw [hnil]
    decide
  divides hpos := by
    rw [hnil] at hpos
    exact absurd hpos (by decide)
  between hne := absurd hnil hne

theorem isMean_of_close {region : Region} (hunit : InUnit region)
    (hclose : Close ((sampled (some region) clock neighbors).map Prod.fst)) :
    IsMean (some region) clock neighbors := by
  obtain ⟨hfst, hroom, hrest⟩ := hclose
  have hdefined : ∀ s ∈ sampled (some region) clock neighbors, WeightDefined s.1 :=
    fun s hs => hfst s.1 (mem_map_of_mem hs)
  have hfield (c : Fin 6) : ∀ s ∈ sampled (some region) clock neighbors,
      0 ≤ (s.2.components.get c).toInt ∧ (s.2.components.get c).toInt ≤ 65536 :=
    fun s hs => sample_unit hunit (sampled_ok hs) c
  have htotal := totalWeight_toInt hdefined hroom
  rw [length_map] at hrest
  have hpos : 0 < total ((sampled (some region) clock neighbors).map Prod.fst) / 65536 := by
    by_contra hle
    have hprod := Int.mul_nonpos_of_nonpos_of_nonneg (Int.not_lt.mp hle)
      (show (0 : Int) ≤ (sampled (some region) clock neighbors).length + 1 by omega)
    omega
  refine ⟨hdefined, hroom, fun _ hzero => ?_, fun _ c low high hbounds => ?_⟩
  · have hshift := toInt_shiftRight (totalWeight (sampled (some region) clock neighbors))
    rw [hzero, htotal] at hshift
    exact absurd hshift (Int.ne_of_lt hpos)
  · have hlt : 0 < totalWeight (sampled (some region) clock neighbors) := by
      rw [Int32.lt_iff_toInt_lt, htotal]
      show (0 : Int) < _
      omega
    rw [aggregate_get hlt, quotient_toInt hdefined hroom (hfield c) hpos]
    have hmem {p : Int × Int} (hp : p ∈ pairs (sampled (some region) clock neighbors) c) :
        ∃ s ∈ sampled (some region) clock neighbors,
          p = ((s.2.components.get c).toInt, (weight s.1).toInt) := by
      obtain ⟨s, hs, rfl⟩ := mem_map.mp hp
      exact ⟨s, hs, rfl⟩
    have hmean := @mean_between 65536 low high (pairs (sampled (some region) clock neighbors) c)
      (by decide)
      (fun p hp => by
        obtain ⟨s, hs, rfl⟩ := hmem hp
        exact Int.le_trans (by decide) (weight_bounds (hdefined s hs)).1)
      (fun p hp => by
        obtain ⟨s, hs, rfl⟩ := hmem hp
        exact (hfield c s hs).1)
      (fun p hp => by
        obtain ⟨s, hs, rfl⟩ := hmem hp
        exact (hfield c s hs).2)
      (by rw [weights_pairs, pairs_length]; exact hrest)
      (fun p hp => by
        obtain ⟨s, hs, rfl⟩ := hmem hp
        exact (hbounds s hs).1)
      (fun p hp => by
        obtain ⟨s, hs, rfl⟩ := hmem hp
        exact (hbounds s hs).2)
    rw [weights_pairs, pairs_length] at hmean
    exact hmean

/-! ## the condition is necessary -/

def ones (readable : ModuleId → Bool) : Region where
  fields id :=
    { field :=
        { components := Vector.replicate 6 one
          timestamp := 0
          source := if readable id then id else invalidModuleId
          sequence := 0 }
      sequence := 0 }
  updateFlags _ := false
  lastGc := 0

theorem ones_inUnit (readable : ModuleId → Bool) : InUnit (ones readable) := by
  intro id c
  have hget : ((ones readable).fields id).field.components.get c = one :=
    Vector.getElem_replicate _
  rw [hget]
  decide

theorem ones_fresh (hinvalid : readable invalidModuleId = false) (id : ModuleId) :
    Fresh (some (ones readable)) id 0 ↔ readable id = true := by
  constructor
  · rintro ⟨field, hsample⟩
    by_contra hid
    simp only [sample, ones, if_neg hid] at hsample
    split_ifs at hsample
  · intro hid
    have hne : id ≠ invalidModuleId := fun h => by
      rw [h, hinvalid] at hid
      cases hid
    refine ⟨applyDecay ⟨Vector.replicate 6 one, 0, id, 0⟩ 0, ?_⟩
    simp only [sample, ones, if_pos hid, if_neg hne]
    rfl

theorem ones_component {id : ModuleId} {field : Field}
    (hsample : sample (some (ones readable)) id 0 = .ok field) (c : Fin 6) :
    (field.components.get c).toInt = 65536 := by
  unfold sample at hsample
  dsimp only at hsample
  split_ifs at hsample
  obtain rfl := Except.ok.inj hsample
  have hget : (applyDecay ((ones readable).fields id).field (0 - 0)).components.get c =
      fixedMul (((ones readable).fields id).field.components.get c)
        (fixedExpDecay (0 - 0) decayTau) := Vector.getElem_map _ _
  have hone : ((ones readable).fields id).field.components.get c = one :=
    Vector.getElem_replicate _
  show ((applyDecay ((ones readable).fields id).field (0 - 0)).components.get c).toInt = 65536
  rw [hget, hone]
  decide

theorem close_of_isMean {samples : List (Neighbor × Field)} (hne : samples ≠ [])
    (hsampled : sampled region clock neighbors = samples)
    (hones : ∀ s ∈ samples, ∀ c, (s.2.components.get c).toInt = 65536)
    (h : IsMean region clock neighbors) : Close (samples.map Prod.fst) := by
  obtain ⟨hdefined, hroom, hdivides, hbetween⟩ := h
  rw [hsampled] at hdefined hroom hdivides hbetween
  have htotal := totalWeight_toInt hdefined hroom
  have hlength := length_le_weights (l := pairs samples 0) fun p hp => by
    obtain ⟨s, hs, rfl⟩ := mem_map.mp hp
    exact (weight_bounds (hdefined s hs)).1
  rw [weights_pairs, pairs_length] at hlength
  have hsome := length_pos_iff.mpr hne
  have hlt : 0 < totalWeight samples := by
    rw [Int32.lt_iff_toInt_lt, htotal]
    show (0 : Int) < _
    omega
  have hpos : 0 < total (samples.map Prod.fst) / 65536 := by
    have hshift := toInt_shiftRight (totalWeight samples)
    rw [htotal] at hshift
    have hzero : total (samples.map Prod.fst) / 65536 ≠ 0 := by
      rw [← hshift]
      exact fun h => hdivides hlt (Int32.toInt_inj.mp h)
    omega
  have hmean := (hbetween hne 0 65536 65536 fun s hs =>
    ⟨Int.le_of_eq (hones s hs 0).symm, Int.le_of_eq (hones s hs 0)⟩).2
  rw [aggregate_get (hsampled ▸ hlt), hsampled, quotient_toInt hdefined hroom
    (fun s hs => by rw [hones s hs 0]; decide) hpos] at hmean
  refine ⟨fun n hn => ?_, hroom, ?_⟩
  · obtain ⟨s, hs, rfl⟩ := mem_map.mp hn
    exact hdefined s hs
  · rw [length_map]
    have hsame := mean_same (u := 65536) (l := pairs samples 0) (by decide)
    rw [weights_pairs, pairs_length] at hsame
    refine hsame hpos (fun p hp => ?_) hmean
    obtain ⟨s, hs, rfl⟩ := mem_map.mp hp
    exact hones s hs 0

/-- **The mean of the neighbors.**  For the fields that are between 0 and 1, the aggregate of a list
of neighbors is a mean of the fields that can be read exactly if there are none, or little of the
total weight is lost -/
theorem mean_iff (neighbors : List Neighbor) (readable : ModuleId → Bool)
    (hinvalid : readable invalidModuleId = false) :
    (∀ region clock, InUnit region →
        (∀ id, Fresh (some region) id (clock id) ↔ readable id = true) →
        IsMean (some region) clock neighbors) ↔
      contributing readable neighbors = [] ∨ Close (contributing readable neighbors) := by
  constructor
  · intro h
    have hread := ones_fresh hinvalid
    have hmean := h (ones readable) (fun _ => 0) (ones_inUnit readable) hread
    have hfst : (sampled _ _ neighbors).map Prod.fst = _ := sampled_fst hread
    by_cases hnil : contributing readable neighbors = []
    · exact .inl hnil
    · right
      rw [← hfst] at hnil ⊢
      exact close_of_isMean (fun h => hnil (map_eq_nil_iff.mpr h)) rfl
        (fun s hs c => ones_component (sampled_ok hs) c) hmean
  · intro h region clock hunit hread
    have hfst : (sampled _ _ neighbors).map Prod.fst = _ := sampled_fst hread
    rcases h with hnil | hclose
    · rw [← hfst] at hnil
      exact isMean_nil (map_eq_nil_iff.mp hnil)
    · rw [← hfst] at hclose
      exact isMean_of_close hunit hclose

def near (id : ModuleId) (health : Health) : Neighbor := ⟨id, health, 0, Field.zero, 0, 0⟩

/-- one neighbor that is alive -/
theorem mean_alive : IsMean (some (ones (· == 1))) (fun _ => 0) [near 1 .alive] :=
  (mean_iff [near 1 .alive] (· == 1) rfl).mpr (.inr (by decide)) _ _ (ones_inUnit _)
    (ones_fresh rfl)

/-- the total weight of one suspect neighbor has no whole part, and with a second one that is alive
all its components of 1 give 1.5 -/
theorem mean_suspect :
    InUnit (ones (· == 1)) ∧
      totalWeight (sampled (some (ones (· == 1))) (fun _ => 0) [near 1 .suspect]) = half ∧
      half >>> 16 = 0 ∧ ¬IsMean (some (ones (· == 1))) (fun _ => 0) [near 1 .suspect] ∧
      ((sampleNeighbors (some (ones (· == 1))) (fun _ => 0)
        [near 1 .suspect, near 1 .alive]).components.get 0 = one + half) := by
  have hweight : totalWeight (sampled (some (ones (· == 1))) (fun _ => 0) [near 1 .suspect]) =
      half := by decide
  refine ⟨ones_inUnit _, hweight, by decide, fun h => ?_, ?_⟩
  · exact h.divides (hweight ▸ by decide) (hweight ▸ by decide)
  · decide +kernel

end Field
end EkKor
