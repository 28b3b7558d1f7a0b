import EkKor.Lib.Newton
import EkKor.Lib.Signed
import EkKor.Module.Topology

/-!
# The physical distance (`position_distance_sq`, `isqrt`)

Both are computed in 32 bits, where the squared distance of far positions has no room.

* `SqDefined`, `IsqrtDefined`   no operation of the two functions overflows or divides by 0;
* `isqrt_iff`         the root of every number but `INT32_MAX` is right;
* `euclidean_iff`     the distance of all positions whose squared distance is below `2 ^ 31`.
-/

namespace EkKor
namespace Topology
open Newton Signed

/-- no operation of `position_distance_sq` overflows -/
def SqDefined (a b : Position) : Prop :=
  let dx := a.x.toInt - b.x.toInt
  let dy := a.y.toInt - b.y.toInt
  let dz := a.z.toInt - b.z.toInt
  Fits dx ∧ Fits dy ∧ Fits dz ∧ Fits (dx * dx) ∧ Fits (dy * dy) ∧ Fits (dz * dz) ∧
    Fits (dx * dx + dy * dy) ∧ Fits (dx * dx + dy * dy + dz * dz)

/-- no round of the loop of `isqrt` overflows or divides by 0 -/
def IsqrtLoopDefined (n x y : Int32) : Prop :=
  if y < x then
    y ≠ 0 ∧ Fits (n.toInt.tdiv y.toInt) ∧ Fits (y.toInt + n.toInt.tdiv y.toInt) ∧
      IsqrtLoopDefined n y ((y + n / y) / 2)
  else True
termination_by (x.toInt + 2 ^ 31).toNat
decreasing_by
  rename_i h
  have hlt := Int32.lt_iff_toInt_lt.mp h
  have hle := y.le_toInt
  omega

/-- no operation of `isqrt` overflows or divides by 0 -/
def IsqrtDefined (n : Int32) : Prop :=
  if n ≤ 0 then True
  else if n = 1 then True
  else Fits (n.toInt + 1) ∧ IsqrtLoopDefined n n ((n + 1) / 2)

def distanceSq (a b : Position) : Nat :=
  (a.x.toInt - b.x.toInt).natAbs ^ 2 + (a.y.toInt - b.y.toInt).natAbs ^ 2 +
    (a.z.toInt - b.z.toInt).natAbs ^ 2

/-! ## the root -/

theorem isqrtLoop_spec {n : Nat} (hn : 0 < n) (hmax : n < 2 ^ 31 - 1) {N : Int32}
    (hN : N.toInt = n) (x : Nat) (hx : 0 < x) (hle : x ≤ n) (habove : Nat.sqrt n ≤ x)
    (X Y : Int32) (hX : X.toInt = x) (hY : Y.toInt = newton n x) :
    IsqrtLoopDefined N X Y ∧ (isqrtLoop N X Y).toInt = Nat.sqrt n := by
  induction x using Nat.strong_induction_on generalizing X Y with
  | _ x ih =>
    have hstep : Y < X ↔ Nat.sqrt n < x := by
      rw [← newton_lt_iff hx, Int32.lt_iff_toInt_lt, hX, hY]
      exact Int.ofNat_lt
    rw [IsqrtLoopDefined, isqrtLoop]
    by_cases hlt : Nat.sqrt n < x
    · rw [if_pos (hstep.mpr hlt), if_pos (hstep.mpr hlt)]
      have hbelow := (newton_lt_iff hx).mpr hlt
      have hpos := newton_pos hx hle
      have hroot := sqrt_le_newton (n := n) hx
      generalize newton n x = y at *
      have hyle : y ≤ n := by omega
      have hsum : y + n / y < 2 ^ 31 := by
        have hnext := add_div_le hpos hyle
        omega
      have hdiv : (N / Y).toInt = ↑(n / y) := toInt_div hN hY
      have hquotient : N.toInt.tdiv Y.toInt = ↑(n / y) := by
        rw [hN, hY, Int.tdiv_eq_ediv_of_nonneg (Int.natCast_nonneg n), Int.natCast_ediv]
      have hadd : (Y + N / Y).toInt = ↑(y + n / y) := by
        have hfits : Fits (Y.toInt + (N / Y).toInt) := by
          rw [hY, hdiv, ← Int.natCast_add]
          exact fits_natCast.mpr hsum
        rw [toInt_add hfits, hY, hdiv, Int.natCast_add]
      have hnewton : ((Y + N / Y) / 2).toInt = newton n y := toInt_div (d := 2) hadd rfl
      obtain ⟨hdefined, hresult⟩ := ih y hbelow hpos hyle hroot Y _ hY hnewton
      refine ⟨⟨?_, ?_, ?_, hdefined⟩, hresult⟩
      · rintro rfl
        have hzero : (0 : Int) = y := hY
        omega
      · rw [hquotient]
        exact fits_natCast.mpr (by omega)
      · rw [hquotient, hY, ← Int.natCast_add]
        exact fits_natCast.mpr hsum
    · rw [if_neg (mt hstep.mp hlt), if_neg (mt hstep.mp hlt)]
      exact ⟨trivial, by rw [hX, Nat.le_antisymm habove (Nat.not_lt.mp hlt)]⟩

theorem isqrt_spec {n : Nat} (hmax : n < 2 ^ 31 - 1) {N : Int32} (hN : N.toInt = n) :
    IsqrtDefined N ∧ (isqrt N).toInt = Nat.sqrt n := by
  unfold IsqrtDefined isqrt
  rcases Nat.eq_zero_or_pos n with rfl | hpos
  · have hzero : N ≤ 0 := Int32.le_iff_toInt_le.mpr (by rw [hN]; exact Int.le_refl 0)
    rw [if_pos hzero, if_pos hzero]
    exact ⟨trivial, rfl⟩
  · have hzero : ¬N ≤ 0 := by
      rw [Int32.le_iff_toInt_le, hN, Int32.toInt_zero]
      omega
    rw [if_neg hzero, if_neg hzero]
    by_cases hone : N = 1
    · rw [if_pos hone, if_pos hone]
      have hn : n = 1 := by
        have hvalue : (1 : Int) = n := by rw [← hN, hone]; rfl
        omega
      rw [hn]
      exact ⟨trivial, rfl⟩
    · rw [if_neg hone, if_neg hone]
      have hfits : Fits (N.toInt + (1 : Int32).toInt) := by
        rw [hN]
        show -2 ^ 31 ≤ (n : Int) + 1 ∧ (n : Int) + 1 < 2 ^ 31
        omega
      have hadd : (N + 1).toInt = ↑(n + 1) := by
        rw [toInt_add hfits, hN]
        rfl
      have hfirst : ((N + 1) / 2).toInt = newton n n := by
        rw [toInt_div (d := 2) hadd rfl, newton, Nat.div_self hpos]
      obtain ⟨hdefined, hresult⟩ :=
        isqrtLoop_spec hpos hmax hN n hpos (Nat.le_refl n) (Nat.sqrt_le_self n) N _ hN hfirst
      exact ⟨⟨hfits, hdefined⟩, hresult⟩

theorem isqrt_iff {n : Int32} (h : 0 ≤ n) :
    IsqrtDefined n ∧ (isqrt n).toInt = Nat.sqrt n.toInt.toNat ↔ n ≠ Int32.maxValue := by
  have hnonneg : 0 ≤ n.toInt := Int32.le_iff_toInt_le.mp h
  have hN : n.toInt = n.toInt.toNat := (Int.toNat_of_nonneg hnonneg).symm
  constructor
  · rintro ⟨hdefined, -⟩ rfl
    exact absurd hdefined.1.2 (by decide)
  · intro hne
    refine isqrt_spec ?_ hN
    have hlt := n.toInt_lt
    have hvalue : n.toInt ≠ 2 ^ 31 - 1 := fun heq => hne (Int32.toInt_inj.mp heq)
    omega

/-! ## the distance -/

theorem natAbs_sq (v : Int) : ((v.natAbs ^ 2 : Nat) : Int) = v * v := by
  rw [Int.natCast_pow, Int.natAbs_sq, pow_two]

theorem distanceSq_eq (a b : Position) :
    (distanceSq a b : Int) =
      (a.x.toInt - b.x.toInt) * (a.x.toInt - b.x.toInt) +
        (a.y.toInt - b.y.toInt) * (a.y.toInt - b.y.toInt) +
        (a.z.toInt - b.z.toInt) * (a.z.toInt - b.z.toInt) := by
  rw [distanceSq, Int.natCast_add, Int.natCast_add, natAbs_sq, natAbs_sq, natAbs_sq]

theorem three_squares (a b c : Nat) : a ^ 2 + b ^ 2 + c ^ 2 ≠ 2 ^ 31 - 1 := by
  have hrest : ∀ r < 8, r ^ 2 % 8 = 0 ∨ r ^ 2 % 8 = 1 ∨ r ^ 2 % 8 = 4 := by decide
  have hsquare (v : Nat) : v ^ 2 % 8 = 0 ∨ v ^ 2 % 8 = 1 ∨ v ^ 2 % 8 = 4 := by
    rw [Nat.pow_mod]
    exact hrest (v % 8) (Nat.mod_lt v (by decide))
  have ha := hsquare a
  have hb := hsquare b
  have hc := hsquare c
  omega

theorem fits_sub (a b : Int16) : Fits (a.toInt - b.toInt) := by
  have ha := a.toInt_lt
  have hb := b.toInt_lt
  have ha' := a.le_toInt
  have hb' := b.le_toInt
  unfold Fits
  omega

theorem toInt_difference (a b : Int16) :
    (a.toInt32 - b.toInt32).toInt = a.toInt - b.toInt := by
  rw [toInt_sub (by rw [Int16.toInt_toInt32, Int16.toInt_toInt32]; exact fits_sub a b),
    Int16.toInt_toInt32, Int16.toInt_toInt32]

theorem sqDefined_iff (a b : Position) : SqDefined a b ↔ distanceSq a b < 2 ^ 31 := by
  have hsum := distanceSq_eq a b
  have hx := mul_self_nonneg (a.x.toInt - b.x.toInt)
  have hy := mul_self_nonneg (a.y.toInt - b.y.toInt)
  have hz := mul_self_nonneg (a.z.toInt - b.z.toInt)
  constructor
  · rintro ⟨-, -, -, -, -, -, -, hfits⟩
    rw [← hsum] at hfits
    exact fits_natCast.mp hfits
  · intro hlt
    refine ⟨fits_sub _ _, fits_sub _ _, fits_sub _ _, ?_⟩
    unfold Fits
    omega

theorem positionDistanceSq_eq {a b : Position} (h : distanceSq a b < 2 ^ 31) :
    (positionDistanceSq a b).toInt = distanceSq a b := by
  obtain ⟨-, -, -, hx, hy, hz, hxy, hxyz⟩ := (sqDefined_iff a b).mpr h
  rw [distanceSq_eq]
  simp only [← toInt_difference] at hx hy hz hxy hxyz ⊢
  rw [← toInt_mul hx, ← toInt_mul hy] at hxy
  rw [← toInt_mul hx, ← toInt_mul hy, ← toInt_mul hz, ← toInt_add hxy] at hxyz ⊢
  exact toInt_add hxyz

/-- the distance is the Euclidean one exactly if the squared distance has room in 32 bits, and the
root is right exactly below the largest number -/
theorem euclidean_iff {topo : Topology} (hmetric : topo.config.metric = .physical)
    (idA idB : ModuleId) :
    (∀ a b : Position,
      SqDefined a b ∧ IsqrtDefined (positionDistanceSq a b) ∧
          (distance topo idA a idB b).toInt = Nat.sqrt (distanceSq a b) ↔
        distanceSq a b < 2 ^ 31) ∧
      ∀ n : Int32, 0 ≤ n →
        (IsqrtDefined n ∧ (isqrt n).toInt = Nat.sqrt n.toInt.toNat ↔ n ≠ Int32.maxValue) := by
  refine ⟨fun a b => ?_, fun n => isqrt_iff⟩
  constructor
  · intro h
    exact (sqDefined_iff a b).mp h.1
  · intro hlt
    refine ⟨(sqDefined_iff a b).mpr hlt, ?_⟩
    have hdistance : distance topo idA a idB b = isqrt (positionDistanceSq a b) := by
      unfold distance
      rw [hmetric]
    rw [hdistance]
    refine isqrt_spec ?_ (positionDistanceSq_eq hlt)
    have hne : distanceSq a b ≠ 2 ^ 31 - 1 := three_squares _ _ _
    omega

/-- modules at the corners of a box -/
theorem euclidean_box : ∃ topo,
    init 1 ⟨0, 0, 0⟩ (some { Config.default with metric := .physical }) = .ok topo ∧
      (distance topo 1 ⟨0, 0, 0⟩ 2 ⟨2, 3, 6⟩).toInt = Nat.sqrt (7 * 7) :=
  ⟨_, rfl, (((euclidean_iff rfl 1 2).1 ⟨0, 0, 0⟩ ⟨2, 3, 6⟩).mpr (by decide)).2.2⟩

/-- the squared distance of modules at the ends of an axis overflows and wraps to a negative
number: their distance is 0.  The first iterate for the largest number overflows as well -/
theorem far_apart_is_zero : ∃ topo,
    init 1 ⟨-32768, 0, 0⟩ (some { Config.default with metric := .physical }) = .ok topo ∧
      ¬SqDefined ⟨-32768, 0, 0⟩ ⟨32767, 0, 0⟩ ∧
      distanceSq ⟨-32768, 0, 0⟩ ⟨32767, 0, 0⟩ = 65535 * 65535 ∧
      distance topo 1 ⟨-32768, 0, 0⟩ 2 ⟨32767, 0, 0⟩ = 0 ∧ ¬IsqrtDefined Int32.maxValue := by
  refine ⟨_, rfl, ?_, by decide, ?_, ?_⟩
  · exact mt (sqDefined_iff _ _).mp (by decide)
  · show isqrt (positionDistanceSq _ _) = 0
    rw [isqrt, if_pos (by decide)]
  · exact fun h => absurd h.1.2 (by decide)

end Topology
end EkKor
