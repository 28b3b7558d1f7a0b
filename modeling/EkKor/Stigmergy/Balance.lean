import EkKor.Lib.Runs
import EkKor.Stigmergy.Decay
import Mathlib.Data.List.Dedup

/-!
# The balance of the load (`ekk_stigmergy.c`)

* `Ctx`, `Op`, `stigmergy`   a context and its updates;
* `computeRank`, `computeLoadFactor`   the factor;
* `SumsFit`           no sum of 32 bits overflows;
* `HasRoom`           the products have room, and a hot module does not get cooler;
* `Known`             the slots hold the neighbors that were recorded;
* `factorOf_range`, `factorOf_anti`   the factor has a bound, and a hotter module gets no more load;
* `balanced_run`      with room in every step, all this holds in every run.
-/

namespace EkKor
namespace Stigmergy
open Runs (Machine EveryStep)
open List Function
open EkKor.Field (fixedMul one)
open Signed

/-! ## the context -/

/-- `ekk_stigmergy_config_t` -/
structure Config where
  targetTemp : Int32
  tempThreshold : Int32
  alpha : Int32
  tau : TimeUs
  maxLoadAdjust : Int32
  deriving DecidableEq

/-- `EKK_STIGMERGY_CONFIG_DEFAULT` -/
def Config.default : Config :=
  { targetTemp := 22806528
    tempThreshold := 327680
    alpha := 6553
    tau := 60000000
    maxLoadAdjust := 6553 }

/-- `ekk_stigmergy_ctx_t` -/
structure Ctx where
  myTag : Int32
  neighborTags : Nat → Int32
  neighborIds : Nat → ModuleId
  neighborCount : UInt8
  lastUpdate : TimeUs
  config : Config

/-- `ekk_stigmergy_init` -/
def init (config : Option Config) : Ctx where
  myTag := 0
  neighborTags _ := 0
  neighborIds _ := invalidModuleId
  neighborCount := 0
  lastUpdate := 0
  config := config.getD Config.default

def Ctx.elapsed (ctx : Ctx) (now : TimeUs) : TimeUs :=
  if ctx.lastUpdate > 0 ∧ now > ctx.lastUpdate then now - ctx.lastUpdate else 0

/-- the tag after the decay; `EKK_FIXED_MUL` is the expression of `ekk_fixed_mul` -/
def Ctx.decayed (ctx : Ctx) (now : TimeUs) : Int32 :=
  if ctx.elapsed now > 0 then
    fixedMul ctx.myTag (fixedExpDecay (ctx.elapsed now) ctx.config.tau)
  else ctx.myTag

/-- `ekk_stigmergy_update_tag` -/
def updateTag (ctx : Ctx) (tj : Int32) (now : TimeUs) : Ctx :=
  let tag := ctx.decayed now
  let deltaT := tj - ctx.config.targetTemp
  let tag :=
    if deltaT > ctx.config.tempThreshold then tag + fixedMul ctx.config.alpha deltaT
    else if deltaT < -ctx.config.tempThreshold then
      let tag := tag - fixedMul ctx.config.alpha (-deltaT)
      if tag < 0 then 0 else tag
    else tag
  { ctx with
    myTag := tag
    lastUpdate := now }

def findSlot (ctx : Ctx) (id : ModuleId) : Option Nat :=
  (List.range kNeighbors).find? fun i => ctx.neighborIds i == id

/-- `ekk_stigmergy_update_neighbor` -/
def updateNeighbor (ctx : Ctx) (neighborId : ModuleId) (neighborTag : Int32) :
    Except Err Unit × Ctx :=
  if neighborId = invalidModuleId then (.error .invalidArg, ctx)
  else
    match findSlot ctx neighborId with
    | some i =>
      (.ok (), { ctx with neighborTags := update ctx.neighborTags i neighborTag })
    | none =>
      match findSlot ctx invalidModuleId with
      | some slot =>
        (.ok (),
          { ctx with
            neighborIds := update ctx.neighborIds slot neighborId
            neighborTags := update ctx.neighborTags slot neighborTag
            neighborCount := ctx.neighborCount + 1 })
      | none => (.error .noMemory, ctx)

/-- `compute_rank` -/
def computeRank (myTag : Int32) (neighborTags : Nat → Int32) (count : Nat) : Nat :=
  (List.range count).countP fun i => neighborTags i < myTag

/-- `EKK_FIXED_DIV`, narrowed -/
def fixedDivMacro (a b : Int32) : Int32 := ((a.toInt64 <<< 16) / b.toInt64).toInt32

/-- `ekk_stigmergy_compute_load_factor` -/
def computeLoadFactor (ctx : Ctx) : Int32 :=
  if ctx.neighborCount = 0 then 0
  else
    let rank := Int32.ofNat (computeRank ctx.myTag ctx.neighborTags ctx.neighborCount.toNat)
    let total := Int32.ofNat ctx.neighborCount.toNat + 1
    let center := total / 2
    let deviation := center - rank
    let ratio := fixedDivMacro (deviation <<< 16) (total <<< 16)
    fixedMul ctx.config.maxLoadAdjust ratio

/-! ## runs -/

/-- the updates -/
inductive Op where
  | updateTag (tj : Int32) (now : TimeUs)
  | updateNeighbor (neighborId : ModuleId) (neighborTag : Int32)

def step (ctx : Ctx) : Op → Ctx × List ModuleId
  | .updateTag tj now => (updateTag ctx tj now, [])
  | .updateNeighbor neighborId neighborTag =>
    let r := updateNeighbor ctx neighborId neighborTag
    (r.2, if r.1.isOk then [neighborId] else [])

def stigmergy (config : Option Config) : Machine Ctx Op ModuleId := ⟨init config, step⟩

/-! ## the tag -/

variable {ctx : Ctx} {op : Op} {config : Option Config} {ops : List Op}

def SumsFit (ctx : Ctx) : Op → Prop
  | .updateTag tj now =>
    let deltaT := tj - ctx.config.targetTemp
    Fits (tj.toInt - ctx.config.targetTemp.toInt) ∧
      if deltaT > ctx.config.tempThreshold then
        Fits ((ctx.decayed now).toInt + (fixedMul ctx.config.alpha deltaT).toInt)
      else
        Fits (-ctx.config.tempThreshold.toInt) ∧
          (deltaT < -ctx.config.tempThreshold → Fits (-deltaT.toInt) ∧
            Fits ((ctx.decayed now).toInt - (fixedMul ctx.config.alpha (-deltaT)).toInt))
  | .updateNeighbor _ _ => True

/-- the product of the decay has room, and so has the one of a hot module, which is not negative -/
def HasRoom (ctx : Ctx) : Op → Prop
  | .updateTag tj now =>
    let deltaT := tj.toInt - ctx.config.targetTemp.toInt
    (0 < ctx.elapsed now → ctx.myTag.toInt *
        (fixedExpDecay (ctx.elapsed now) ctx.config.tau).toInt < 2 ^ 47) ∧
      (ctx.config.tempThreshold.toInt < deltaT →
        0 ≤ ctx.config.alpha.toInt * deltaT ∧ ctx.config.alpha.toInt * deltaT < 2 ^ 47)
  | .updateNeighbor _ _ => True

instance (ctx : Ctx) : (op : Op) → Decidable (SumsFit ctx op)
  | .updateTag _ _ => inferInstanceAs (Decidable (_ ∧ ite _ _ _))
  | .updateNeighbor _ _ => inferInstanceAs (Decidable True)

instance (ctx : Ctx) : (op : Op) → Decidable (HasRoom ctx op)
  | .updateTag _ _ => inferInstanceAs (Decidable (_ ∧ _))
  | .updateNeighbor _ _ => inferInstanceAs (Decidable True)

theorem expDecay_nonneg (elapsed tau : TimeUs) : 0 ≤ (fixedExpDecay elapsed tau).toInt := by
  by_cases htau : tau = 0
  · rw [htau]
    exact Int.le_refl 0
  · rw [expDecay_toInt htau]
    split_ifs with hend
    · exact Int.le_refl 0
    · have hpos := (lut_bounds (quotient elapsed tau / 2 ^ 14) (by omega))
      unfold interpolated
      omega

theorem fixedMul_nonneg {a b : Int32} (hpos : 0 ≤ a.toInt * b.toInt)
    (hroom : a.toInt * b.toInt < 2 ^ 47) : 0 ≤ (fixedMul a b).toInt := by
  have hlow : 0 ≤ a.toInt * b.toInt / 65536 := Int.ediv_nonneg hpos (by decide)
  have hhigh : a.toInt * b.toInt / 65536 < 2 ^ 31 := Int.ediv_lt_of_lt_mul (by decide) hroom
  rw [Field.fixedMul_of_fits ⟨by omega, hhigh⟩]
  exact hlow

theorem decayed_nonneg {now : TimeUs} (htag : 0 ≤ ctx.myTag.toInt)
    (hroom : 0 < ctx.elapsed now → ctx.myTag.toInt *
      (fixedExpDecay (ctx.elapsed now) ctx.config.tau).toInt < 2 ^ 47) :
    0 ≤ (ctx.decayed now).toInt := by
  unfold Ctx.decayed
  split_ifs with helapsed
  · exact fixedMul_nonneg (Int.mul_nonneg htag (expDecay_nonneg _ _)) (hroom helapsed)
  · exact htag

theorem updateTag_nonneg {tj : Int32} {now : TimeUs} (htag : 0 ≤ ctx.myTag.toInt)
    (hfits : SumsFit ctx (.updateTag tj now)) (hroom : HasRoom ctx (.updateTag tj now)) :
    0 ≤ (updateTag ctx tj now).myTag.toInt := by
  obtain ⟨hdelta, hsums⟩ := hfits
  obtain ⟨hdecay, hhot⟩ := hroom
  have hd := decayed_nonneg htag hdecay
  have hdeltaT := toInt_sub hdelta
  unfold updateTag
  dsimp only at hsums hhot ⊢
  rw [← hdeltaT] at hhot
  split_ifs with h1 h2 h3
  · rw [if_pos h1] at hsums
    obtain ⟨hpos, hlt⟩ := hhot (Int32.lt_iff_toInt_lt.mp h1)
    rw [toInt_add hsums]
    exact Int.add_nonneg hd (fixedMul_nonneg hpos hlt)
  · exact Int.le_refl 0
  · exact Int32.le_iff_toInt_le.mp (Int32.not_lt.mp h3)
  · exact hd

/-! ## the neighbors -/

/-- the first slots hold the recorded neighbors, the others none -/
structure Known (ctx : Ctx) (known : List ModuleId) : Prop where
  nodup : known.Nodup
  valid : invalidModuleId ∉ known
  room : known.length ≤ kNeighbors
  slots : ∀ i < kNeighbors, ctx.neighborIds i = known[i]?.getD invalidModuleId
  count : ctx.neighborCount.toNat = known.length

variable {id : ModuleId} {count rank : Nat} {maxAdjust : Int}

theorem findSlot_some {i : Nat} (h : findSlot ctx id = some i) :
    i < kNeighbors ∧ ctx.neighborIds i = id ∧ ∀ j < i, ctx.neighborIds j ≠ id := by
  obtain ⟨hid, hi, hbefore⟩ := find?_range_eq_some.mp h
  refine ⟨mem_range.mp hi, beq_iff_eq.mp hid, fun j hj heq => ?_⟩
  have hfirst := hbefore j hj
  rw [heq, beq_self_eq_true] at hfirst
  exact absurd hfirst (by decide)

theorem findSlot_none (h : findSlot ctx id = none) {i : Nat} (hi : i < kNeighbors) :
    ctx.neighborIds i ≠ id :=
  fun heq => find?_eq_none.mp h i (mem_range.mpr hi) (beq_iff_eq.mpr heq)

section
variable {known : List ModuleId} {i : Nat}

theorem Known.slot_lt (h : Known ctx known) (hi : i < known.length) :
    ctx.neighborIds i = known[i] := by
  rw [h.slots i (Nat.lt_of_lt_of_le hi h.room), getElem?_eq_getElem hi]
  rfl

theorem Known.slot_ge (h : Known ctx known) (hi : i < kNeighbors) (hge : known.length ≤ i) :
    ctx.neighborIds i = invalidModuleId := by
  rw [h.slots i hi, getElem?_eq_none hge]
  rfl

theorem Known.slot_valid (h : Known ctx known) (hi : i < known.length) :
    ctx.neighborIds i ≠ invalidModuleId := by
  rw [h.slot_lt hi]
  exact fun heq => h.valid (heq ▸ getElem_mem hi)

theorem Known.concat {slot : Nat} (h : Known ctx known) (hid : id ≠ invalidModuleId)
    (hnew : id ∉ known) (hslot : findSlot ctx invalidModuleId = some slot) (tag : Int32) :
    Known
      { ctx with
        neighborIds := update ctx.neighborIds slot id
        neighborTags := update ctx.neighborTags slot tag
        neighborCount := ctx.neighborCount + 1 } (known ++ [id]) := by
  obtain ⟨hroom, hfree, hfirst⟩ := findSlot_some hslot
  have hlength : slot = known.length := by
    refine Nat.le_antisymm (Nat.not_lt.mp fun hlt => ?_) (Nat.not_lt.mp fun hlt => ?_)
    · exact hfirst _ hlt (h.slot_ge (Nat.lt_trans hlt hroom) (Nat.le_refl _))
    · exact h.slot_valid hlt hfree
  refine ⟨?_, ?_, ?_, fun i hi => ?_, ?_⟩
  · exact nodup_append.mpr ⟨h.nodup, nodup_singleton id, fun a ha b hb heq =>
      hnew (mem_singleton.mp hb ▸ heq ▸ ha)⟩
  · rw [mem_append, mem_singleton, not_or]
    exact ⟨h.valid, hid.symm⟩
  · rw [length_append, length_singleton]
    omega
  · dsimp only
    by_cases his : i = slot
    · rw [his, update_self, hlength, getElem?_concat_length]
      rfl
    · rw [update_of_ne his, h.slots i hi]
      by_cases hlt : i < known.length
      · rw [getElem?_append_left hlt]
      · rw [getElem?_eq_none (Nat.not_lt.mp hlt), getElem?_eq_none (by
          rw [length_append, length_singleton]
          omega)]
  · have hval : (1 : UInt8).toNat = 1 := rfl
    rw [UInt8.toNat_add, h.count, hval, length_append, length_singleton]
    exact Nat.mod_eq_of_lt (Nat.lt_of_le_of_lt (Nat.succ_le_of_lt (hlength ▸ hroom)) (by decide))

theorem Known.update (h : Known ctx known) (id : ModuleId) (tag : Int32) :
    ∃ known', Known (updateNeighbor ctx id tag).2 known' ∧
      ∀ id', id' ∈ known' ↔ id' ∈ known ∨
        (updateNeighbor ctx id tag).1.isOk = true ∧ id' = id := by
  unfold updateNeighbor
  split_ifs with hinvalid
  · exact ⟨known, h, fun id' => (or_iff_left fun hok => absurd hok.1 Bool.false_ne_true).symm⟩
  · cases hfound : findSlot ctx id with
    | some i =>
      obtain ⟨hi, hid, -⟩ := findSlot_some hfound
      have hmem : id ∈ known := by
        by_contra hnot
        by_cases hlt : i < known.length
        · exact hnot (hid ▸ h.slot_lt hlt ▸ getElem_mem hlt)
        · exact hinvalid (hid.symm.trans (h.slot_ge hi (Nat.not_lt.mp hlt)))
      refine ⟨known, ⟨h.nodup, h.valid, h.room, h.slots, h.count⟩, fun id' => ?_⟩
      exact (or_iff_left_of_imp fun hok => hok.2 ▸ hmem).symm
    | none =>
      have hnew : id ∉ known := fun hmem => by
        obtain ⟨j, hj, heq⟩ := getElem_of_mem hmem
        exact findSlot_none hfound (Nat.lt_of_lt_of_le hj h.room) ((h.slot_lt hj).trans heq)
      cases hfree : findSlot ctx invalidModuleId with
      | none =>
        exact ⟨known, h, fun id' => (or_iff_left fun hok => absurd hok.1 Bool.false_ne_true).symm⟩
      | some slot =>
        refine ⟨known ++ [id], h.concat hinvalid hnew hfree tag, fun id' => ?_⟩
        rw [mem_append, mem_singleton]
        exact or_congr_right (and_iff_right rfl).symm

end

theorem updateNeighbor_frame (ctx : Ctx) (id : ModuleId) (tag : Int32) :
    (updateNeighbor ctx id tag).2.config = ctx.config ∧
      (updateNeighbor ctx id tag).2.myTag = ctx.myTag := by
  unfold updateNeighbor
  split_ifs
  · exact ⟨rfl, rfl⟩
  · cases findSlot ctx id with
    | some i => exact ⟨rfl, rfl⟩
    | none =>
      cases findSlot ctx invalidModuleId with
      | some slot => exact ⟨rfl, rfl⟩
      | none => exact ⟨rfl, rfl⟩

/-! ## the factor -/

def factorOf (maxAdjust : Int) (count rank : Nat) : Int :=
  maxAdjust * (((((count + 1) / 2 : Nat) : Int) - rank) * 65536 * 65536).tdiv
    (((count + 1 : Nat) : Int) * 65536) / 65536

theorem ratio_bounds (hrank : rank ≤ count) :
    -65536 ≤ (((((count + 1) / 2 : Nat) : Int) - rank) * 65536 * 65536).tdiv
        (((count + 1 : Nat) : Int) * 65536) ∧
      (((((count + 1) / 2 : Nat) : Int) - rank) * 65536 * 65536).tdiv
        (((count + 1 : Nat) : Int) * 65536) ≤ 65536 := by
  have hpos : (0 : Int) < ((count + 1 : Nat) : Int) * 65536 := by omega
  have hsame : (-((count + 1 : Nat) : Int) * 65536 * 65536).tdiv (((count + 1 : Nat) : Int) * 65536) =
      -65536 := by
    have heq : -((count + 1 : Nat) : Int) * 65536 * 65536 =
        -65536 * (((count + 1 : Nat) : Int) * 65536) := by ring
    rw [heq, Int.mul_tdiv_cancel _ (Int.ne_of_gt hpos)]
  have hsame' : (((count + 1 : Nat) : Int) * 65536 * 65536).tdiv (((count + 1 : Nat) : Int) * 65536) =
      65536 := by
    rw [Int.mul_comm _ 65536, Int.mul_tdiv_cancel _ (Int.ne_of_gt hpos)]
  constructor
  · rw [← hsame]
    exact Int.tdiv_le_tdiv hpos (by omega)
  · refine Int.le_trans (Int.tdiv_le_tdiv hpos ?_) (Int.le_of_eq hsame')
    omega

theorem factorOf_anti {rank' : Nat} (hmax : 0 ≤ maxAdjust) (hle : rank ≤ rank') :
    factorOf maxAdjust count rank' ≤ factorOf maxAdjust count rank := by
  have hpos : (0 : Int) < ((count + 1 : Nat) : Int) * 65536 := by omega
  refine Int.ediv_le_ediv (by decide) (Int.mul_le_mul_of_nonneg_left ?_ hmax)
  exact Int.tdiv_le_tdiv hpos (by omega)

theorem factorOf_range (hmax : 0 ≤ maxAdjust) (hrank : rank ≤ count) :
    -maxAdjust ≤ factorOf maxAdjust count rank ∧ factorOf maxAdjust count rank ≤ maxAdjust := by
  obtain ⟨hlow, hhigh⟩ := ratio_bounds hrank
  have hmul := Int.mul_le_mul_of_nonneg_left hlow hmax
  have hmul' := Int.mul_le_mul_of_nonneg_left hhigh hmax
  unfold factorOf
  constructor
  · omega
  · exact Int.ediv_le_of_le_mul (by decide) hmul'

theorem computeRank_le (myTag : Int32) (tags : Nat → Int32) (count : Nat) :
    computeRank myTag tags count ≤ count := by
  have hle := countP_le_length (p := fun i => decide (tags i < myTag)) (l := List.range count)
  rwa [length_range] at hle

theorem computeRank_mono {tag tag' : Int32} (hle : tag ≤ tag') (tags : Nat → Int32) (count : Nat) :
    computeRank tag tags count ≤ computeRank tag' tags count :=
  countP_mono_left fun _ _ hlt =>
    decide_eq_true (Int32.lt_of_lt_of_le (of_decide_eq_true hlt) hle)

theorem ratio_toInt (hcount : count ≤ kNeighbors) (hrank : rank ≤ count) :
    (fixedDivMacro (((Int32.ofNat count + 1) / 2 - Int32.ofNat rank) <<< 16)
        ((Int32.ofNat count + 1) <<< 16)).toInt =
      (((((count + 1) / 2 : Nat) : Int) - rank) * 65536 * 65536).tdiv
        (((count + 1 : Nat) : Int) * 65536) := by
  have hratio := ratio_bounds hrank
  have hseven : count ≤ 7 := hcount
  have hone : (1 : Int32).toInt = (1 : Nat) := rfl
  have hsmall : (Int32.ofNat count).toInt = count := toInt_ofNat (by omega)
  have htotal : (Int32.ofNat count + 1).toInt = ((count + 1 : Nat) : Int) := by
    rw [toInt_add (by rw [hsmall, hone]; unfold Fits; omega), hsmall, hone]
    rfl
  have hcenter : ((Int32.ofNat count + 1) / 2).toInt = (((count + 1) / 2 : Nat) : Int) :=
    toInt_div htotal (d := 2) rfl
  have hdeviation : ((Int32.ofNat count + 1) / 2 - Int32.ofNat rank).toInt =
      (((count + 1) / 2 : Nat) : Int) - rank := by
    have hr : (Int32.ofNat rank).toInt = rank := toInt_ofNat (by omega)
    rw [toInt_sub (by rw [hcenter, hr]; unfold Fits; omega), hcenter, hr]
  have hnumerator : (((Int32.ofNat count + 1) / 2 - Int32.ofNat rank) <<< 16).toInt =
      ((((count + 1) / 2 : Nat) : Int) - rank) * 65536 := by
    rw [toInt_shiftLeft (by rw [hdeviation]; unfold Fits; omega), hdeviation]
  have hdivisor : ((Int32.ofNat count + 1) <<< 16).toInt = ((count + 1 : Nat) : Int) * 65536 := by
    rw [toInt_shiftLeft (by rw [htotal]; unfold Fits; omega), htotal]
  have hne : (Int32.ofNat count + 1) <<< 16 ≠ 0 := fun h => by
    rw [h] at hdivisor
    have hzero : (0 : Int32).toInt = 0 := rfl
    omega
  have hdiv (a : Int32) : fixedDivMacro a ((Int32.ofNat count + 1) <<< 16) =
      Field.fixedDiv a ((Int32.ofNat count + 1) <<< 16) := (if_neg hne).symm
  rw [hdiv, Field.fixedDiv_of_fits hne, hnumerator, hdivisor]
  rw [hnumerator, hdivisor]
  unfold Fits
  omega

theorem loadFactor_toInt (hmax : 0 ≤ ctx.config.maxLoadAdjust.toInt)
    (hcount : ctx.neighborCount.toNat ≤ kNeighbors) :
    (computeLoadFactor ctx).toInt = if ctx.neighborCount = 0 then 0
      else factorOf ctx.config.maxLoadAdjust.toInt ctx.neighborCount.toNat
        (computeRank ctx.myTag ctx.neighborTags ctx.neighborCount.toNat) := by
  unfold computeLoadFactor
  split_ifs with hzero
  · rfl
  · have hrank := computeRank_le ctx.myTag ctx.neighborTags ctx.neighborCount.toNat
    have hratio := ratio_toInt hcount hrank
    have hfactor := factorOf_range hmax hrank
    have hlt := ctx.config.maxLoadAdjust.toInt_lt
    unfold factorOf at hfactor ⊢
    rw [Field.fixedMul_of_fits, hratio]
    rw [hratio]
    unfold Fits
    omega

/-- what holds after a run: the tag, the count, and the factor for it and other tags -/
structure Balanced (config : Option Config) (ops : List Op) : Prop where
  tag : 0 ≤ ((stigmergy config).run ops).myTag
  count : ((stigmergy config).run ops).neighborCount.toNat =
    ((stigmergy config).trace ops).dedup.length
  range : -(((stigmergy config).run ops).config.maxLoadAdjust.toInt) ≤
      (computeLoadFactor ((stigmergy config).run ops)).toInt ∧
    (computeLoadFactor ((stigmergy config).run ops)).toInt ≤
      ((stigmergy config).run ops).config.maxLoadAdjust.toInt
  down : ∀ tag tag', tag ≤ tag' →
    computeLoadFactor { (stigmergy config).run ops with myTag := tag' } ≤
      computeLoadFactor { (stigmergy config).run ops with myTag := tag }

theorem known_run (config : Option Config) (ops : List Op) :
    ∃ known, Known ((stigmergy config).run ops) known ∧
      ∀ id, id ∈ known ↔ id ∈ (stigmergy config).trace ops := by
  induction ops using List.reverseRecOn with
  | nil =>
    refine ⟨[], ⟨nodup_nil, not_mem_nil, Nat.zero_le _, fun i _ => rfl, rfl⟩, fun id => ?_⟩
    exact Iff.rfl
  | append_singleton ops op ih =>
    obtain ⟨known, hknown, hids⟩ := ih
    rw [Machine.run_concat, Machine.trace_concat]
    cases op with
    | updateTag tj now =>
      refine ⟨known, ⟨hknown.nodup, hknown.valid, hknown.room, hknown.slots, hknown.count⟩,
        fun id => ?_⟩
      rw [hids]
      exact (iff_of_eq (congrArg (id ∈ ·) (append_nil _))).symm
    | updateNeighbor neighborId neighborTag =>
      obtain ⟨known', hknown', hids'⟩ := hknown.update neighborId neighborTag
      refine ⟨known', hknown', fun id => ?_⟩
      rw [hids', mem_append, hids]
      refine or_congr_right ?_
      show _ ↔ id ∈ if (updateNeighbor _ neighborId neighborTag).1.isOk then [neighborId] else []
      split_ifs with hok
      · rw [mem_singleton]
        exact and_iff_right hok
      · exact iff_of_false (fun h => hok h.1) not_mem_nil

theorem config_run (config : Option Config) (ops : List Op) :
    ((stigmergy config).run ops).config = config.getD Config.default := by
  induction ops using List.reverseRecOn with
  | nil => rfl
  | append_singleton ops op ih =>
    rw [Machine.run_concat, ← ih]
    cases op with
    | updateTag tj now => rfl
    | updateNeighbor neighborId neighborTag => exact (updateNeighbor_frame _ neighborId neighborTag).1

theorem tag_run (config : Option Config) (ops : List Op)
    (hfits : EveryStep (fun pre op => SumsFit ((stigmergy config).run pre) op) ops)
    (hroom : EveryStep (fun pre op => HasRoom ((stigmergy config).run pre) op) ops) :
    0 ≤ ((stigmergy config).run ops).myTag.toInt := by
  induction ops using List.reverseRecOn with
  | nil => exact Int.le_refl 0
  | append_singleton ops op ih =>
    obtain ⟨hfits, hfit⟩ := (Runs.everyStep_concat _ _ _).mp hfits
    obtain ⟨hroom, hlast⟩ := (Runs.everyStep_concat _ _ _).mp hroom
    have htag := ih hfits hroom
    rw [Machine.run_concat]
    cases op with
    | updateTag tj now => exact updateTag_nonneg htag hfit hlast
    | updateNeighbor neighborId neighborTag =>
      show 0 ≤ (updateNeighbor _ neighborId neighborTag).2.myTag.toInt
      rw [(updateNeighbor_frame _ neighborId neighborTag).2]
      exact htag

/-- **The balance.** -/
theorem balanced_run (config : Option Config)
    (hmax : 0 ≤ (config.getD Config.default).maxLoadAdjust) (ops : List Op)
    (hfits : EveryStep (fun pre op => SumsFit ((stigmergy config).run pre) op) ops)
    (hroom : EveryStep (fun pre op => HasRoom ((stigmergy config).run pre) op) ops) :
    Balanced config ops := by
  obtain ⟨known, hknown, hids⟩ := known_run config ops
  rw [← config_run config ops] at hmax
  have hmax' := Int32.le_iff_toInt_le.mp hmax
  have hcount : ((stigmergy config).run ops).neighborCount.toNat ≤ kNeighbors :=
    hknown.count.symm ▸ hknown.room
  have htag := tag_run config ops hfits hroom
  refine ⟨Int32.le_iff_toInt_le.mpr htag, ?_, ?_, fun tag tag' hle => ?_⟩
  · have hperm : known.Perm ((stigmergy config).trace ops).dedup :=
      (perm_ext_iff_of_nodup hknown.nodup (nodup_dedup _)).mpr fun id => by
        rw [hids, mem_dedup]
    rw [hknown.count, hperm.length_eq]
  · rw [loadFactor_toInt hmax' hcount]
    split_ifs
    · have hpos : 0 ≤ ((stigmergy config).run ops).config.maxLoadAdjust.toInt := hmax'
      omega
    · exact factorOf_range hmax' (computeRank_le ..)
  · rw [Int32.le_iff_toInt_le, loadFactor_toInt (by exact hmax') (by exact hcount),
      loadFactor_toInt (by exact hmax') (by exact hcount)]
    split_ifs
    · exact Int.le_refl 0
    · exact factorOf_anti hmax' (computeRank_mono hle ..)

/-- a hot update, two neighbors, and the decay of a minute -/
theorem balanced_sample : Balanced none [.updateTag 26214400 1000, .updateNeighbor 2 5,
    .updateNeighbor 3 500000, .updateTag 22806528 60001000] := by
  refine balanced_run none (by decide) _ ?_ ?_
  · rw [Runs.everyStep_cons, Runs.everyStep_cons, Runs.everyStep_cons, Runs.everyStep_cons]
    exact ⟨by decide, trivial, trivial, by decide, Runs.everyStep_nil _⟩
  · rw [Runs.everyStep_cons, Runs.everyStep_cons, Runs.everyStep_cons, Runs.everyStep_cons]
    exact ⟨by decide, trivial, trivial, by decide, Runs.everyStep_nil _⟩

def hotThenIdle : List Op := [.updateTag 1610612736 1, .updateTag 0 17]

def fastConfig : Config := ⟨0, 327680, 65536, 1000000, 6553⟩

/-- the tag almost doubles and does not fit any more -/
theorem tag_negative :
    ((stigmergy (some fastConfig)).run hotThenIdle).myTag < 0 ∧
      ¬Balanced (some fastConfig) hotThenIdle ∧
      EveryStep (fun pre op => SumsFit ((stigmergy (some fastConfig)).run pre) op) hotThenIdle := by
  have hneg : ((stigmergy (some fastConfig)).run hotThenIdle).myTag < 0 := by decide
  refine ⟨hneg, fun h => ?_, ?_⟩
  · exact Int32.not_lt.mpr h.tag hneg
  · unfold hotThenIdle
    rw [Runs.everyStep_cons, Runs.everyStep_cons]
    exact ⟨by decide, by decide, Runs.everyStep_nil _⟩

end Stigmergy
end EkKor
