import EkKor.Module.Field

/-!
# The decay factors (`ekk_types.c`, `ekk_stigmergy.c`)

There are two functions `ekk_fixed_exp_decay`.  The one of `ekk_types.c` narrows its times to 32
bits; the one of `ekk_stigmergy.c` multiplies a negative slope by an unsigned fraction.

* `fixedExpDecay`     the function of `ekk_stigmergy.c`;
* `Decays`            a factor is between 0 and 1, is 1 at the beginning and goes down;
* `Narrow`            the time constants for which the first function decays;
* `OnGrid`            the quotients for which the second function does not interpolate;
* `decays_iff`        when the two functions decay.
-/

namespace EkKor
namespace Stigmergy
open EkKor.Field (one)

/-! ## the table -/

/-- `exp_lut` -/
def expLut : List Int32 :=
  [65536, 51042, 39755, 30965, 24109, 18775, 14622, 11387, 8869, 6906, 5378, 4188, 3261, 2540,
    1978, 1540, 1200]

/-- `exp_lut[i]` -/
def lut (i : Nat) : Int32 := expLut.getD i 0

/-- `ekk_fixed_exp_decay` -/
def fixedExpDecay (elapsed tau : TimeUs) : Int32 :=
  if tau = 0 then 0
  else
    let xScaled := (elapsed <<< 16) / tau
    if xScaled ≥ 262144 then 0
    else
      let xFixed := xScaled.toUInt32
      let index := (xFixed * 4) >>> 16
      if index ≥ 16 then lut 16
      else
        let y0 := lut index.toNat
        let y1 := lut (index.toNat + 1)
        let frac := (xFixed * 4) &&& 0xFFFF
        let delta := y1 - y0
        y0 + ((delta.toUInt32 * frac) >>> 16).toInt32

/-! ## what is asked -/

def InRange (v : Int32) : Prop := 0 ≤ v ∧ v ≤ one

/-- the factors at two times -/
structure DecaysAt (f : TimeUs → Int32) (e₁ e₂ : TimeUs) : Prop where
  first : InRange (f e₁)
  second : InRange (f e₂)
  start : f 0 = one
  down : f e₂ ≤ f e₁

def Decays (f : TimeUs → Int32) : Prop := ∀ e₁ e₂, e₁ ≤ e₂ → DecaysAt f e₁ e₂

/-! ## the function of `ekk_types.c` -/

section
open EkKor.Field Signed
variable {elapsed tau : TimeUs}

/-- the end of the decay, and the time constant in 32 bits, between which the quotient has room.  A
negative one is right only if all quotients are 0 -/
def Narrow (tau : TimeUs) : Prop :=
  (0 < narrow tau ∧ (tau * 5).toNat ≤ 2 ^ 31) ∨
    (narrow tau < 0 ∧ (((tau * 5).toNat - 1 : Nat) : Int) * 65536 < -narrow tau)

theorem toNat_end (tau : TimeUs) : (tau * 5).toNat = tau.toNat * 5 % 2 ^ 64 := by
  rfl

theorem eq_zero_of_mul_five {n k : Nat} (h : n * 5 % 2 ^ k = 0) (hlt : n < 2 ^ k) : n = 0 := by
  have hcoprime : Nat.Coprime (2 ^ k) 5 := Nat.Coprime.pow_left k (by decide)
  exact Nat.eq_zero_of_dvd_of_lt (hcoprime.dvd_of_dvd_mul_right (Nat.dvd_of_mod_eq_zero h)) hlt

theorem end_pos (htau : tau ≠ 0) : 0 < (tau * 5).toNat := by
  exact Nat.pos_of_ne_zero fun h =>
    htau (UInt64.toNat_inj.mp (eq_zero_of_mul_five h tau.toNat_lt))

theorem inRange_of_toInt {v : Int32} (hlow : 0 ≤ v.toInt) (hhigh : v.toInt ≤ 65536) : InRange v :=
  ⟨Int32.le_iff_toInt_le.mpr hlow, Int32.le_iff_toInt_le.mpr hhigh⟩

theorem decays_of_value (htau : tau ≠ 0) (value : TimeUs → Int)
    (hvalue : ∀ e, e ≠ 0 → e < tau * 5 → (Field.fixedExpDecay e tau).toInt = value e)
    (hrange : ∀ e, e ≠ 0 → e < tau * 5 → 0 ≤ value e ∧ value e ≤ 65536)
    (hdown : ∀ e₁ e₂, e₁ ≠ 0 → e₁ ≤ e₂ → e₂ < tau * 5 → value e₂ ≤ value e₁) :
    Decays fun e => Field.fixedExpDecay e tau := by
  have hstart : Field.fixedExpDecay 0 tau = one := (if_neg htau).trans (if_pos rfl)
  have hend (e : TimeUs) (he : tau * 5 ≤ e) : Field.fixedExpDecay e tau = 0 := by
    have hne : e ≠ 0 := by
      rintro rfl
      have hpos := end_pos htau
      have hle := UInt64.le_iff_toNat_le.mp he
      have hzero : (0 : UInt64).toNat = 0 := rfl
      omega
    exact (if_neg htau).trans ((if_neg hne).trans (if_pos he))
  have hin (e : TimeUs) : InRange (Field.fixedExpDecay e tau) := by
    by_cases hzero : e = 0
    · rw [hzero, hstart]
      exact ⟨by decide, by decide⟩
    · by_cases hlt : e < tau * 5
      · have hbounds := hrange e hzero hlt
        rw [← hvalue e hzero hlt] at hbounds
        exact inRange_of_toInt hbounds.1 hbounds.2
      · rw [hend e (UInt64.not_lt.mp hlt)]
        exact ⟨by decide, by decide⟩
  intro e₁ e₂ hle
  refine ⟨hin e₁, hin e₂, hstart, ?_⟩
  by_cases hzero : e₁ = 0
  · rw [hzero, hstart]
    exact (hin e₂).2
  · by_cases hlt : e₂ < tau * 5
    · have hzero' : e₂ ≠ 0 := by
        rintro rfl
        exact hzero (UInt64.le_zero_iff.mp hle)
      rw [Int32.le_iff_toInt_le, hvalue e₂ hzero' hlt,
        hvalue e₁ hzero (UInt64.lt_of_le_of_lt hle hlt)]
      exact hdown e₁ e₂ hzero hle hlt
    · rw [hend e₂ (UInt64.not_lt.mp hlt)]
      exact (hin e₁).1

/-! ### the quotients -/

theorem narrow_small {e : TimeUs} (h : e.toNat < 2 ^ 31) : narrow e = e.toNat := by
  rw [narrow_toInt, Nat.mod_eq_of_lt (by omega), if_pos h]

theorem narrow_pos (h : 0 < narrow tau) : ∃ r : Nat, narrow tau = r ∧ 0 < r ∧ r < 2 ^ 31 ∧
    (tau * 5).toNat % 2 ^ 32 = r * 5 % 2 ^ 32 := by
  have hmod : (tau * 5).toNat % 2 ^ 32 = tau.toNat % 2 ^ 32 * 5 % 2 ^ 32 := by
    rw [toNat_end, Nat.mod_mod_of_dvd _ (by decide), Nat.mod_mul_mod]
  rw [narrow_toInt] at h ⊢
  split_ifs at h ⊢ with hsmall
  · exact ⟨_, rfl, by omega, hsmall, hmod⟩
  · omega

theorem tdiv_natCast (n r : Nat) : ((n : Int) * 65536).tdiv r = ↑(n * 65536 / r) := by
  rfl

theorem denominator_mono {x y : Int} (hx : 0 ≤ x) (hle : x ≤ y) : denominator x ≤ denominator y := by
  have hsquare : x * x ≤ y * y := mul_self_le_mul_self hx hle
  unfold denominator
  omega

theorem inverse_anti {c d : Int} (hc : 0 < c) (hle : c ≤ d) : (2 ^ 32 : Int) / d ≤ 2 ^ 32 / c := by
  have hd : 0 < d := Int.lt_of_lt_of_le hc hle
  rw [Int.le_ediv_iff_mul_le hc]
  refine Int.le_trans (Int.mul_le_mul_of_nonneg_left hle ?_) (Int.ediv_mul_le _ (Int.ne_of_gt hd))
  exact Int.ediv_nonneg (by decide) (Int.le_of_lt hd)

/-! ### where it decays -/

/-- the times are before `2 ^ 31` -/
theorem decays_of_pos (hpos : 0 < narrow tau) (hend : (tau * 5).toNat ≤ 2 ^ 31) :
    Decays fun e => Field.fixedExpDecay e tau := by
  obtain ⟨r, hr, hr0, -, hmod⟩ := narrow_pos hpos
  have htau : tau ≠ 0 := by
    rintro rfl
    exact absurd hpos (by decide)
  have hbound : (tau * 5).toNat ≤ r * 5 := by omega
  have hquotient (e : TimeUs) (he : e < tau * 5) : e.toNat * 65536 / r ≤ 2 ^ 19 := by
    have hlt := UInt64.lt_iff_toNat_lt.mp he
    refine Nat.div_le_of_le_mul ?_
    omega
  refine decays_of_value htau (fun e => 2 ^ 32 / denominator ↑(e.toNat * 65536 / r)) ?_ ?_ ?_
  · intro e hzero he
    have hlt := UInt64.lt_iff_toNat_lt.mp he
    have hle := hquotient e he
    refine expDecay_value hzero he (Int.ne_of_gt hpos) ?_
      (Int.le_trans (by decide) (Int.natCast_nonneg _)) (by exact_mod_cast hle)
    rw [narrow_small (by omega), hr, tdiv_natCast]
  · intro e _ _
    have hge := denominator_mono (Int.le_refl 0) (Int.natCast_nonneg (e.toNat * 65536 / r))
    have hone : denominator 0 = 65536 := rfl
    refine ⟨Int.ediv_nonneg (by decide) (by omega), ?_⟩
    exact Int.ediv_le_of_le_mul (by omega) (by omega)
  · intro e₁ e₂ _ hle _
    have hmono : e₁.toNat * 65536 / r ≤ e₂.toNat * 65536 / r :=
      Nat.div_le_div_right (Nat.mul_le_mul_right _ (UInt64.le_iff_toNat_le.mp hle))
    have hge := denominator_ge ↑(e₁.toNat * 65536 / r)
    exact inverse_anti (by omega) (denominator_mono (Int.natCast_nonneg _) (by exact_mod_cast hmono))

theorem decays_of_neg (htau : tau ≠ 0) (hneg : narrow tau < 0)
    (hend : (((tau * 5).toNat - 1 : Nat) : Int) * 65536 < -narrow tau) :
    Decays fun e => Field.fixedExpDecay e tau := by
  have hlow : -2 ^ 31 ≤ narrow tau := Int32.le_toInt _
  refine decays_of_value htau (fun _ => 65536) (fun e hzero he => ?_) (fun _ _ _ => by decide)
    fun _ _ _ _ _ => Int.le_refl _
  have hlt := UInt64.lt_iff_toNat_lt.mp he
  have hquotient : (narrow e * 65536).tdiv (narrow tau) = 0 := by
    have hzero : ((e.toNat : Int) * 65536).tdiv (-narrow tau) = 0 :=
      Int.tdiv_eq_zero_of_lt (by omega) (by omega)
    rw [Int.tdiv_neg, Int.neg_eq_zero] at hzero
    rw [narrow_small (by omega)]
    exact hzero
  rw [expDecay_value hzero he (Int.ne_of_lt hneg) hquotient (by decide) (by decide)]
  rfl

/-! ### where it does not -/

theorem not_decays_of_up (e₁ e₂ : TimeUs) (hle : e₁ ≤ e₂)
    (hup : (Field.fixedExpDecay e₁ tau).toInt < (Field.fixedExpDecay e₂ tau).toInt) :
    ¬Decays fun e => Field.fixedExpDecay e tau := by
  intro h
  exact absurd (Int32.le_iff_toInt_le.mp (h e₁ e₂ hle).down) (Int.not_le.mpr hup)

theorem not_decays_of_out {e : TimeUs}
    (hout : (Field.fixedExpDecay e tau).toInt < 0 ∨ 65536 < (Field.fixedExpDecay e tau).toInt) :
    ¬Decays fun e => Field.fixedExpDecay e tau := by
  intro h
  obtain ⟨hlow, hhigh⟩ := (h e e (UInt64.le_refl e)).first
  rcases hout with hneg | hbig
  · exact absurd (Int32.le_iff_toInt_le.mp hlow) (Int.not_le.mpr hneg)
  · exact absurd (Int32.le_iff_toInt_le.mp hhigh) (Int.not_le.mpr hbig)

theorem toNat_place {n : Nat} (h : n < (tau * 5).toNat) :
    (UInt64.ofNat n).toNat = n ∧ UInt64.ofNat n < tau * 5 := by
  have hn : (UInt64.ofNat n).toNat = n :=
    UInt64.toNat_ofNat_of_lt' (Nat.lt_trans h (UInt64.toNat_lt _))
  exact ⟨hn, UInt64.lt_iff_toNat_lt.mpr (hn.symm ▸ h)⟩

/-- at `2 ^ 32`, the narrowed time is 0 again -/
theorem not_decays_of_long (hpos : 0 < narrow tau) (hend : 2 ^ 32 < (tau * 5).toNat) :
    ¬Decays fun e => Field.fixedExpDecay e tau := by
  obtain ⟨r, hr, hr0, hr31, -⟩ := narrow_pos hpos
  obtain ⟨hfirst, hfirst'⟩ := toNat_place (show r < (tau * 5).toNat by omega)
  obtain ⟨hsecond, hsecond'⟩ := toNat_place hend
  refine not_decays_of_up (UInt64.ofNat r) (UInt64.ofNat (2 ^ 32))
    (UInt64.le_iff_toNat_le.mpr (by omega)) ?_
  have hone : (narrow (UInt64.ofNat r) * 65536).tdiv (narrow tau) = 65536 := by
    rw [narrow_small (by omega), hfirst, hr]
    exact Int.mul_tdiv_cancel_left 65536 (by omega)
  have hzero : (narrow (UInt64.ofNat (2 ^ 32)) * 65536).tdiv (narrow tau) = 0 :=
    Int.zero_tdiv _
  have hne : UInt64.ofNat r ≠ 0 := fun h => by
    rw [h] at hfirst
    exact absurd hfirst (Nat.ne_of_lt hr0)
  rw [expDecay_value hne hfirst' (Int.ne_of_gt hpos) hone (by decide) (by decide),
    expDecay_value (by decide) hsecond' (Int.ne_of_gt hpos) hzero (by decide) (by decide)]
  decide

/-- the factors of the quotients `v` and `-u`: at a quotient of at least 1, the second one is
greater -/
theorem inverse_up {u v : Int} (hone : 65536 ≤ u) (hhigh : u ≤ 327680) (hnear : u - 1 ≤ v)
    (hle : v ≤ u) : (2 ^ 32 : Int) / denominator v < 2 ^ 32 / denominator (-u) := by
  have hge := denominator_ge (-u)
  have hle' : denominator v ≤ 2687488 := denominator_le (by omega) (by omega)
  -- the denominators are at least `2 * u - 9` apart
  have hfar : denominator (-u) + 131063 ≤ denominator v := by
    have hsquare : u * u - 2 * u + 1 ≤ v * v := by nlinarith
    have hneg : -u * -u = u * u := neg_mul_neg u u
    unfold denominator
    omega
  have hmul := Int.ediv_mul_le (2 ^ 32 : Int) (b := denominator v) (by omega)
  refine Int.lt_of_add_one_le ((Int.le_ediv_iff_mul_le (by omega)).mpr ?_)
  nlinarith

/-- at `2 ^ 31`, the narrowed time is negative -/
theorem not_decays_of_half (hpos : 0 < narrow tau) (hend : 2 ^ 31 < (tau * 5).toNat)
    (hend' : (tau * 5).toNat < 2 ^ 32) : ¬Decays fun e => Field.fixedExpDecay e tau := by
  obtain ⟨r, hr, hr0, hr31, hmod⟩ := narrow_pos hpos
  obtain ⟨hfirst, hfirst'⟩ := toNat_place (show 2 ^ 31 - 1 < (tau * 5).toNat by omega)
  obtain ⟨hsecond, hsecond'⟩ := toNat_place hend
  have hr5 : 2 ^ 31 < r * 5 := by
    rw [Nat.mod_eq_of_lt hend'] at hmod
    have hle := Nat.mod_le (r * 5) (2 ^ 32)
    omega
  refine not_decays_of_up (UInt64.ofNat (2 ^ 31 - 1)) (UInt64.ofNat (2 ^ 31)) (by decide) ?_
  have hv : (narrow (UInt64.ofNat (2 ^ 31 - 1)) * 65536).tdiv (narrow tau) =
      (((2 ^ 31 - 1) * 65536 / r : Nat) : Int) := by
    rw [narrow_small (by omega), hfirst, hr, tdiv_natCast]
  have hu : (narrow (UInt64.ofNat (2 ^ 31)) * 65536).tdiv (narrow tau) =
      -((2 ^ 31 * 65536 / r : Nat) : Int) := by
    have hnarrow : narrow (UInt64.ofNat (2 ^ 31)) = -((2 ^ 31 : Nat) : Int) := rfl
    rw [hnarrow, hr, Int.neg_mul, Int.neg_tdiv, tdiv_natCast]
  -- the two quotients, and the rest of the second one
  have hone : 65536 ≤ 2 ^ 31 * 65536 / r := (Nat.le_div_iff_mul_le hr0).mpr (by omega)
  have hhigh : 2 ^ 31 * 65536 / r ≤ 327680 := Nat.div_le_of_le_mul (by omega)
  have hnear : 2 ^ 31 * 65536 / r - 1 ≤ (2 ^ 31 - 1) * 65536 / r := by
    rw [Nat.le_div_iff_mul_le hr0, Nat.sub_mul]
    have hmul := Nat.div_mul_le_self (2 ^ 31 * 65536) r
    omega
  have hle : (2 ^ 31 - 1) * 65536 / r ≤ 2 ^ 31 * 65536 / r := Nat.div_le_div_right (by decide)
  rw [expDecay_value (by decide) hfirst' (Int.ne_of_gt hpos) hv (by omega) (by omega),
    expDecay_value (by decide) hsecond' (Int.ne_of_gt hpos) hu (by omega) (by omega)]
  exact inverse_up (by omega) (by omega) (by omega) (by omega)

theorem not_decays_of_zero (htau : tau ≠ 0) (hzero : narrow tau = 0) :
    ¬Decays fun e => Field.fixedExpDecay e tau := by
  have hword : tau.toUInt32.toInt32 = 0 := Int32.toInt_inj.mp hzero
  have hlt : ¬(1 : UInt64) ≥ tau * 5 := by
    intro hle
    have hend := UInt64.le_iff_toNat_le.mp hle
    have hpos := end_pos htau
    have hmod : (tau * 5).toNat % 2 ^ 32 = 0 := by
      have hrest : tau.toNat % 2 ^ 32 = 0 := by
        rw [narrow_toInt] at hzero
        split_ifs at hzero <;> omega
      rw [toNat_end, Nat.mod_mod_of_dvd _ (by decide), ← Nat.mod_mul_mod, hrest]
      rfl
    have hval : (1 : UInt64).toNat = 1 := rfl
    omega
  refine not_decays_of_out (e := 1) (.inl ?_)
  have hvalue : Field.fixedExpDecay 1 tau =
      let x := fixedDiv 1 0
      fixedDiv one (one + x + (fixedMul x x >>> 1)) := by
    unfold Field.fixedExpDecay
    rw [if_neg htau, if_neg (by decide), if_neg hlt, hword]
    rfl
  rw [hvalue]
  decide

theorem not_decays_of_neg (hneg : narrow tau < 0)
    (hend : -narrow tau ≤ (((tau * 5).toNat - 1 : Nat) : Int) * 65536) :
    ¬Decays fun e => Field.fixedExpDecay e tau := by
  have hlow : -2 ^ 31 ≤ narrow tau := Int32.le_toInt _
  obtain ⟨m, hm⟩ := Int.eq_ofNat_of_zero_le (a := -narrow tau) (by omega)
  obtain ⟨hplace, hplace'⟩ := toNat_place (show (m + 65535) / 65536 < (tau * 5).toNat by omega)
  refine not_decays_of_out (e := UInt64.ofNat ((m + 65535) / 65536)) (.inr ?_)
  have hquotient : (narrow (UInt64.ofNat ((m + 65535) / 65536)) * 65536).tdiv (narrow tau) =
      -↑((m + 65535) / 65536 * 65536 / m) := by
    have htau : narrow tau = -(m : Int) := by omega
    rw [narrow_small (by omega), hplace, htau, Int.tdiv_neg, tdiv_natCast]
  have hone : 1 ≤ (m + 65535) / 65536 * 65536 / m :=
    (Nat.le_div_iff_mul_le (by omega)).mpr (by omega)
  have hhigh : (m + 65535) / 65536 * 65536 / m ≤ 65536 := by
    refine Nat.div_le_of_le_mul ?_
    omega
  have hne : UInt64.ofNat ((m + 65535) / 65536) ≠ 0 := fun h => by
    rw [h] at hplace
    have hzero : (0 : UInt64).toNat = 0 := rfl
    omega
  generalize (m + 65535) / 65536 * 65536 / m = q at hquotient hone hhigh
  rw [expDecay_value hne hplace' (Int.ne_of_lt hneg) hquotient (by omega) (by omega)]
  have hsmall : denominator (-q) ≤ 65535 := by
    have hsquare : -(q : Int) * -q ≤ 65536 * q := by nlinarith
    unfold denominator
    omega
  have hge := denominator_ge (-q)
  exact Int.lt_of_add_one_le ((Int.le_ediv_iff_mul_le (by omega)).mpr (by omega))

theorem types_decays_iff (htau : tau ≠ 0) :
    (Decays fun e => Field.fixedExpDecay e tau) ↔ Narrow tau := by
  rcases Int.lt_trichotomy (narrow tau) 0 with hneg | hzero | hpos
  · by_cases hend : (((tau * 5).toNat - 1 : Nat) : Int) * 65536 < -narrow tau
    · exact iff_of_true (decays_of_neg htau hneg hend) (.inr ⟨hneg, hend⟩)
    · refine iff_of_false (not_decays_of_neg hneg (Int.not_lt.mp hend)) ?_
      rintro (⟨hpos, -⟩ | ⟨-, hlt⟩)
      · exact absurd hpos (Int.lt_asymm hneg)
      · exact hend hlt
  · refine iff_of_false (not_decays_of_zero htau hzero) ?_
    rintro (⟨hpos, -⟩ | ⟨hneg, -⟩)
    · exact absurd hzero.symm (Int.ne_of_lt hpos)
    · exact absurd hzero (Int.ne_of_lt hneg)
  · by_cases hend : (tau * 5).toNat ≤ 2 ^ 31
    · exact iff_of_true (decays_of_pos hpos hend) (.inl ⟨hpos, hend⟩)
    · refine iff_of_false ?_ ?_
      · obtain ⟨r, -, hr0, hr31, hmod⟩ := narrow_pos hpos
        rcases Nat.lt_trichotomy (tau * 5).toNat (2 ^ 32) with hlt | heq | hgt
        · exact not_decays_of_half hpos (Nat.not_le.mp hend) hlt
        · rw [heq, Nat.mod_self] at hmod
          exact absurd (eq_zero_of_mul_five hmod.symm (Nat.lt_trans hr31 (by decide)))
            (Nat.ne_of_gt hr0)
        · exact not_decays_of_long hpos hgt
      · rintro (⟨-, hle⟩ | ⟨hneg, -⟩)
        · exact hend hle
        · exact absurd hneg (Int.lt_asymm hpos)

end

/-! ## the function of `ekk_stigmergy.c` -/

section
variable {elapsed tau : TimeUs} {x i : Nat}

/-- `x_scaled` -/
def quotient (elapsed tau : TimeUs) : Nat := elapsed.toNat * 2 ^ 16 % 2 ^ 64 / tau.toNat

def OnGrid (x : Nat) : Prop := 2 ^ 18 ≤ x ∨ x % 2 ^ 14 = 0

def gridValue (i : Nat) : Int := if i < 16 then (lut i).toInt else 0

theorem gridValue_lt : ∀ j ≤ 16, ∀ i < j, gridValue j < gridValue i := by decide

theorem gridValue_range : ∀ i ≤ 16, 0 ≤ gridValue i ∧ gridValue i ≤ 65536 := by decide

theorem slope_toNat : ∀ i < 16, (lut (i + 1) - lut i).toUInt32.toNat + (lut i).toInt.toNat =
    2 ^ 32 + (lut (i + 1)).toInt.toNat := by decide

theorem lut_bounds : ∀ i < 16, (lut (i + 1)).toInt < (lut i).toInt ∧ 0 < (lut (i + 1)).toInt ∧
    (lut i).toInt ≤ 65536 := by decide

theorem toNat_quotient (elapsed tau : TimeUs) :
    ((elapsed <<< 16) / tau).toNat = quotient elapsed tau := by
  rw [UInt64.toNat_div, UInt64.toNat_shiftLeft, Nat.shiftLeft_eq]
  rfl

def interpolated (x : Nat) : Int :=
  (lut (x / 2 ^ 14)).toInt +
    (((lut (x / 2 ^ 14 + 1) - lut (x / 2 ^ 14)).toUInt32.toNat * (x % 2 ^ 14 * 4) % 2 ^ 32 /
      2 ^ 16 : Nat) : Int)

theorem expDecay_toInt (htau : tau ≠ 0) :
    (fixedExpDecay elapsed tau).toInt =
      if 2 ^ 18 ≤ quotient elapsed tau then 0 else interpolated (quotient elapsed tau) := by
  unfold fixedExpDecay
  rw [if_neg htau, ← toNat_quotient]
  dsimp only
  generalize elapsed <<< 16 / tau = q
  have hbound : q ≥ 262144 ↔ 2 ^ 18 ≤ q.toNat := UInt64.le_iff_toNat_le
  by_cases hend : q ≥ 262144
  · rw [if_pos hend, if_pos (hbound.mp hend)]
    rfl
  · have hlt : q.toNat < 2 ^ 18 := Nat.not_le.mp (mt hbound.mpr hend)
    rw [if_neg hend, if_neg (mt hbound.mpr hend)]
    have hfixed : (q.toUInt32 * 4).toNat = q.toNat * 4 := by
      show q.toNat % 2 ^ 32 * 4 % 2 ^ 32 = _
      omega
    have hindex : ((q.toUInt32 * 4) >>> 16).toNat = q.toNat / 2 ^ 14 := by
      rw [UInt32.toNat_shiftRight, hfixed, Nat.shiftRight_eq_div_pow]
      show q.toNat * 4 / 2 ^ 16 = _
      omega
    have hfrac : ((q.toUInt32 * 4) &&& 0xFFFF).toNat = q.toNat % 2 ^ 14 * 4 := by
      rw [UInt32.toNat_and, hfixed]
      show q.toNat * 4 &&& 2 ^ 16 - 1 = _
      rw [Nat.and_two_pow_sub_one_eq_mod]
      omega
    have hsmall : ¬(q.toUInt32 * 4) >>> 16 ≥ 16 := by
      intro hge
      have hle := UInt32.le_iff_toNat_le.mp hge
      have hval : (16 : UInt32).toNat = 16 := rfl
      omega
    rw [if_neg hsmall, hindex]
    unfold interpolated
    obtain ⟨hdown, hpos, hone⟩ := lut_bounds (q.toNat / 2 ^ 14) (by omega)
    generalize lut (q.toNat / 2 ^ 14) = y0 at *
    generalize (lut (q.toNat / 2 ^ 14 + 1) - y0).toUInt32 = slope at *
    have hproduct : ((slope * (q.toUInt32 * 4 &&& 0xFFFF)) >>> 16).toNat =
        slope.toNat * (q.toNat % 2 ^ 14 * 4) % 2 ^ 32 / 2 ^ 16 := by
      rw [UInt32.toNat_shiftRight, UInt32.toNat_mul, hfrac, Nat.shiftRight_eq_div_pow]
      rfl
    have hstep : ((slope * (q.toUInt32 * 4 &&& 0xFFFF)) >>> 16).toInt32.toInt =
        ((slope.toNat * (q.toNat % 2 ^ 14 * 4) % 2 ^ 32 / 2 ^ 16 : Nat) : Int) := by
      rw [Signed.toInt_ofUnsigned (by omega), hproduct]
    rw [Signed.toInt_add, hstep]
    unfold Signed.Fits
    omega

theorem interpolated_grid (hlt : x < 2 ^ 18) (h : x % 2 ^ 14 = 0) :
    interpolated x = gridValue (x / 2 ^ 14) := by
  unfold interpolated gridValue
  rw [if_pos (by omega), h, Nat.zero_mul, Nat.mul_zero]
  exact Int.add_zero _

theorem interpolated_off (hlt : x < 2 ^ 18) (h : x % 2 ^ 14 ≠ 0) : 65536 < interpolated x := by
  unfold interpolated
  have hi : x / 2 ^ 14 < 16 := by omega
  have hslope := slope_toNat (x / 2 ^ 14) hi
  obtain ⟨hdown, hpos, hone⟩ := lut_bounds (x / 2 ^ 14) hi
  generalize (lut (x / 2 ^ 14 + 1) - lut (x / 2 ^ 14)).toUInt32.toNat = slope at *
  obtain ⟨y0, hy0⟩ := Int.eq_ofNat_of_zero_le (a := (lut (x / 2 ^ 14)).toInt) (by omega)
  obtain ⟨y1, hy1⟩ := Int.eq_ofNat_of_zero_le (a := (lut (x / 2 ^ 14 + 1)).toInt) (by omega)
  have hfrac : 0 < x % 2 ^ 14 * 4 ∧ x % 2 ^ 14 * 4 < 2 ^ 16 := by omega
  generalize x % 2 ^ 14 * 4 = frac at hfrac
  -- the fall of the table, and the product modulo `2 ^ 32`
  obtain ⟨fall, hfall⟩ : ∃ fall, y0 = y1 + fall := ⟨y0 - y1, by omega⟩
  obtain ⟨f, rfl⟩ : ∃ f, frac = f + 1 := ⟨frac - 1, by omega⟩
  have hle : fall * (f + 1) ≤ fall * (2 ^ 16 - 1) := Nat.mul_le_mul_left _ (by omega)
  have hproduct : slope * (f + 1) = 2 ^ 32 - fall * (f + 1) + 2 ^ 32 * f := by
    have hsum : slope + fall = 2 ^ 32 := by omega
    have hmul : (slope + fall) * (f + 1) = 2 ^ 32 * (f + 1) := by rw [hsum]
    rw [Nat.add_mul] at hmul
    omega
  have hpos' : 0 < fall * (f + 1) := Nat.mul_pos (by omega) (Nat.succ_pos f)
  omega

/-! ### the condition -/

def place (x : Nat) : Nat := min x (2 ^ 18) / 2 ^ 14

theorem expDecay_grid (htau : tau ≠ 0) (h : OnGrid (quotient elapsed tau)) :
    (fixedExpDecay elapsed tau).toInt = gridValue (place (quotient elapsed tau)) := by
  rw [expDecay_toInt htau]
  unfold place
  split_ifs with hend
  · rw [Nat.min_eq_right hend]
    rfl
  · have hlt := Nat.not_le.mp hend
    rw [Nat.min_eq_left (Nat.le_of_lt hlt)]
    exact interpolated_grid hlt (h.resolve_left hend)

theorem place_le (x : Nat) : place x ≤ 16 := by
  unfold place
  omega

theorem inRange_iff (htau : tau ≠ 0) :
    InRange (fixedExpDecay elapsed tau) ↔ OnGrid (quotient elapsed tau) := by
  constructor
  · intro hrange
    by_contra hoff
    obtain ⟨hlt, hne⟩ := not_or.mp hoff
    have hbig := interpolated_off (Nat.not_le.mp hlt) hne
    have hle := Int32.le_iff_toInt_le.mp hrange.2
    rw [expDecay_toInt htau, if_neg hlt] at hle
    exact absurd hle (Int.not_le.mpr hbig)
  · intro hgrid
    have hrange := gridValue_range _ (place_le (quotient elapsed tau))
    rw [← expDecay_grid htau hgrid] at hrange
    exact inRange_of_toInt hrange.1 hrange.2

theorem place_le_iff {x y : Nat} (hx : OnGrid x) (hy : OnGrid y) :
    place x ≤ place y ↔ min x (2 ^ 18) ≤ min y (2 ^ 18) := by
  unfold place OnGrid at *
  omega

theorem decaysAt_iff (htau : tau ≠ 0) (e₁ e₂ : TimeUs) :
    DecaysAt (fun e => fixedExpDecay e tau) e₁ e₂ ↔
      OnGrid (quotient e₁ tau) ∧ OnGrid (quotient e₂ tau) ∧
        min (quotient e₁ tau) (2 ^ 18) ≤ min (quotient e₂ tau) (2 ^ 18) := by
  have hdown (h₁ : OnGrid (quotient e₁ tau)) (h₂ : OnGrid (quotient e₂ tau)) :
      fixedExpDecay e₂ tau ≤ fixedExpDecay e₁ tau ↔
        min (quotient e₁ tau) (2 ^ 18) ≤ min (quotient e₂ tau) (2 ^ 18) := by
    rw [Int32.le_iff_toInt_le, expDecay_grid htau h₁, expDecay_grid htau h₂, ← place_le_iff h₁ h₂]
    rcases Nat.lt_trichotomy (place (quotient e₁ tau)) (place (quotient e₂ tau)) with hlt | heq | hgt
    · exact iff_of_true (Int.le_of_lt (gridValue_lt _ (place_le _) _ hlt)) (Nat.le_of_lt hlt)
    · rw [heq]
      exact iff_of_true (Int.le_refl _) (Nat.le_refl _)
    · exact iff_of_false (Int.not_le.mpr (gridValue_lt _ (place_le _) _ hgt)) (Nat.not_le.mpr hgt)
  have hstart : fixedExpDecay 0 tau = one := by
    have hzero : quotient 0 tau = 0 := Nat.zero_div _
    refine Int32.toInt_inj.mp ?_
    rw [expDecay_grid htau (hzero ▸ .inr rfl), hzero]
    rfl
  constructor
  · intro h
    have h₁ := (inRange_iff htau).mp h.first
    have h₂ := (inRange_iff htau).mp h.second
    exact ⟨h₁, h₂, (hdown h₁ h₂).mp h.down⟩
  · rintro ⟨h₁, h₂, hle⟩
    exact ⟨(inRange_iff htau).mpr h₁, (inRange_iff htau).mpr h₂, hstart, (hdown h₁ h₂).mpr hle⟩

theorem stigmergy_decays_iff (htau : tau ≠ 0) :
    (Decays fun e => fixedExpDecay e tau) ↔ 2 ^ 64 - 2 ^ 16 < tau.toNat := by
  have hpos : 0 < tau.toNat := Nat.pos_of_ne_zero fun h => htau (UInt64.toNat_inj.mp h)
  constructor
  · intro h
    by_contra hle
    have hat := (decaysAt_iff htau (2 ^ 48 - 1) (2 ^ 48)).mp (h _ _ (by decide))
    have hlast : quotient (2 ^ 48) tau = 0 := Nat.zero_div _
    have hfirst : 0 < quotient (2 ^ 48 - 1) tau := Nat.div_pos (Nat.not_lt.mp hle) hpos
    omega
  · intro hbig e₁ e₂ _
    have hzero (e : TimeUs) : quotient e tau = 0 := by
      refine Nat.div_eq_of_lt ?_
      omega
    rw [decaysAt_iff htau, hzero, hzero]
    exact ⟨.inr rfl, .inr rfl, Nat.le_refl _⟩

end

/-- **The decay factors.**  The first function decays for the time constants that have room in 32
bits, the second one for no time constant but the last ones, and at two times if their quotients are
on the grid -/
theorem decays_iff {tau : TimeUs} (htau : tau ≠ 0) :
    ((Decays fun e => Field.fixedExpDecay e tau) ↔ Narrow tau) ∧
      ((Decays fun e => fixedExpDecay e tau) ↔ 2 ^ 64 - 2 ^ 16 < tau.toNat) ∧
      ∀ e₁ e₂, e₁ ≤ e₂ → (DecaysAt (fun e => fixedExpDecay e tau) e₁ e₂ ↔
        OnGrid (quotient e₁ tau) ∧ OnGrid (quotient e₂ tau) ∧
          min (quotient e₁ tau) (2 ^ 18) ≤ min (quotient e₂ tau) (2 ^ 18)) :=
  ⟨types_decays_iff htau, stigmergy_decays_iff htau, fun e₁ e₂ _ => decaysAt_iff htau e₁ e₂⟩

/-- the time constant of the fields -/
theorem decays_fields : Decays fun e => Field.fixedExpDecay e Field.decayTau :=
  (decays_iff (by decide)).1.mpr (.inl ⟨by decide, by decide⟩)

/-- the first factor is 1 again after 4295 seconds, and the second one is almost 2 after 16
microseconds -/
theorem decay_grows :
    Field.fixedExpDecay 1000000000 1000000000 = 26214 ∧
      Field.fixedExpDecay 4294967296 1000000000 = one ∧
      ¬(Decays fun e => Field.fixedExpDecay e 1000000000) ∧
      fixedExpDecay 16 1000000 = 131071 ∧ ¬Decays fun e => fixedExpDecay e 1000000 := by
  refine ⟨by decide, by decide, fun h => ?_, by decide, fun h => ?_⟩
  · exact absurd (h 1000000000 4294967296 (by decide)).down (by decide)
  · exact absurd (h 16 16 (by decide)).first.2 (by decide)

end Stigmergy
end EkKor
