import Mathlib.Algebra.BigOperators.Group.List.Basic
import Mathlib.Algebra.GroupWithZero.Nat
import Mathlib.Algebra.Order.BigOperators.Group.List
import Mathlib.Algebra.Order.Ring.Int
import Mathlib.Tactic.Common
import Mathlib.Tactic.Linarith
import Mathlib.Tactic.Ring

/-!
# Sums of rounded products

* `Truncation`     a growth that is rounded piece by piece;
* `WeightedMean`   a mean that is divided by the whole units of its weight.
-/

/-!
# Sums of truncated products

A quantity that grows by `rate / unit` for each unit of length is updated piece by piece, each
update rounded down.

* `grown`, `dropped`   the sum of the rounded updates, and of what the rounding drops;
* `grown_dropped`      together they are the whole growth;
* `whole_div`          the growth rounded once: the dropped parts make up for whole units.
-/

namespace Truncation
open List

variable (rate unit : Nat)

def grown (pieces : List Nat) : Nat := (pieces.map fun d => rate * d / unit).sum

def dropped (pieces : List Nat) : Nat := (pieces.map fun d => rate * d % unit).sum

theorem grown_concat (pieces : List Nat) (d : Nat) :
    grown rate unit (pieces ++ [d]) = grown rate unit pieces + rate * d / unit := by
  rw [grown, map_append, sum_append]
  rfl

theorem grown_dropped (pieces : List Nat) :
    unit * grown rate unit pieces + dropped rate unit pieces = rate * pieces.sum := by
  induction pieces with
  | nil => rfl
  | cons d pieces ih =>
    have hone := Nat.div_add_mod (rate * d) unit
    rw [grown, dropped] at ih ⊢
    rw [map_cons, map_cons, sum_cons, sum_cons, sum_cons, Nat.mul_add,
      Nat.mul_add]
    omega

/-- **Main.** -/
theorem whole_div (hunit : 0 < unit) (pieces : List Nat) :
    rate * pieces.sum / unit = grown rate unit pieces + dropped rate unit pieces / unit := by
  rw [← grown_dropped rate unit pieces, Nat.mul_add_div hunit]

end Truncation

/-!
# Weighted means in units

Values and weights are numbers of units `u`, and a value counts as often as its weight has units.
The mean divides by the whole units of the total weight only.

* `products`, `weights`   the sums;
* `le_products`, `products_le`   the sum of the products is between the bounds of the values, but
                      for one unit each;
* `mean_between`      and so is the mean, where little of the total weight is lost;
* `mean_same`         the mean of values of one unit shows what is lost.
-/

namespace WeightedMean
open List

variable {u low high : Int} {l : List (Int × Int)}

def products (u : Int) (l : List (Int × Int)) : Int := (l.map fun p => p.1 * p.2 / u).sum

def weights (l : List (Int × Int)) : Int := (l.map Prod.snd).sum

theorem length_le_weights (hweight : ∀ p ∈ l, 1 ≤ p.2) : (l.length : Int) ≤ weights l := by
  unfold weights
  induction l with
  | nil => exact Int.le_refl 0
  | cons p l ih =>
    have hp := hweight p mem_cons_self
    have hrest := ih fun q hq => hweight q (mem_cons_of_mem p hq)
    rw [map_cons, sum_cons, length_cons]
    omega

theorem products_nonneg (hu : 0 < u) (hvalue : ∀ p ∈ l, 0 ≤ p.1) (hweight : ∀ p ∈ l, 0 ≤ p.2) :
    0 ≤ products u l := by
  refine sum_nonneg fun w hw => ?_
  obtain ⟨p, hp, rfl⟩ := mem_map.mp hw
  exact Int.ediv_nonneg (Int.mul_nonneg (hvalue p hp) (hweight p hp)) (Int.le_of_lt hu)

theorem products_le (hu : 0 < u) (hweight : ∀ p ∈ l, 0 ≤ p.2) (hhigh : ∀ p ∈ l, p.1 ≤ high) :
    u * products u l ≤ high * weights l := by
  unfold products weights
  induction l with
  | nil => simp
  | cons p l ih =>
    have hrest := ih (fun q hq => hweight q (mem_cons_of_mem p hq))
      fun q hq => hhigh q (mem_cons_of_mem p hq)
    have hproduct : p.1 * p.2 ≤ high * p.2 := Int.mul_le_mul_of_nonneg_right
      (hhigh p mem_cons_self) (hweight p mem_cons_self)
    have hround : u * (p.1 * p.2 / u) ≤ p.1 * p.2 := Int.mul_ediv_self_le (Int.ne_of_gt hu)
    rw [map_cons, sum_cons, map_cons, sum_cons, Int.mul_add, Int.mul_add]
    omega

theorem le_products (hu : 0 < u) (hweight : ∀ p ∈ l, 0 ≤ p.2) (hlow : ∀ p ∈ l, low ≤ p.1) :
    low * weights l ≤ u * products u l + u * l.length := by
  unfold products weights
  induction l with
  | nil => simp
  | cons p l ih =>
    have hrest := ih (fun q hq => hweight q (mem_cons_of_mem p hq))
      fun q hq => hlow q (mem_cons_of_mem p hq)
    have hproduct : low * p.2 ≤ p.1 * p.2 := Int.mul_le_mul_of_nonneg_right
      (hlow p mem_cons_self) (hweight p mem_cons_self)
    have hround : p.1 * p.2 ≤ u * (p.1 * p.2 / u) + u :=
      Int.le_of_lt (Int.lt_mul_ediv_self_add hu)
    rw [map_cons, sum_cons, map_cons, sum_cons, length_cons, Int.mul_add,
      Int.mul_add]
    push_cast
    rw [Int.mul_add]
    omega

theorem mean_between (hu : 0 < u) (hweight : ∀ p ∈ l, 0 ≤ p.2) (hvalue : ∀ p ∈ l, 0 ≤ p.1)
    (hunit : ∀ p ∈ l, p.1 ≤ u) (hclose : weights l % u < weights l / u * (l.length + 1))
    (hlow : ∀ p ∈ l, low ≤ p.1) (hhigh : ∀ p ∈ l, p.1 ≤ high) :
    low - l.length ≤ products u l / (weights l / u) ∧
      products u l / (weights l / u) ≤ high + l.length := by
  have htotal : weights l = u * (weights l / u) + weights l % u :=
    (Int.mul_ediv_add_emod _ _).symm
  have hrest := Int.emod_nonneg (weights l) (Int.ne_of_gt hu)
  have hsum := products_nonneg hu hvalue hweight
  have hlength : (0 : Int) ≤ l.length := Int.natCast_nonneg _
  have hn : 0 < weights l / u := by
    by_contra hle
    have hprod : weights l / u * (l.length + 1) ≤ 0 :=
      Int.mul_nonpos_of_nonpos_of_nonneg (Int.not_lt.mp hle) (by omega)
    omega
  constructor
  · apply (Int.le_ediv_iff_mul_le hn).mpr
    rcases Int.lt_or_le low 0 with hneg | hpos
    · refine Int.le_trans ?_ hsum
      exact Int.mul_nonpos_of_nonpos_of_nonneg (by omega) (Int.le_of_lt hn)
    · have hle := le_products hu hweight hlow
      generalize weights l / u = n at *
      generalize weights l % u = r at *
      generalize products u l = s at *
      have hmul : low * (u * n) ≤ u * s + u * l.length := by
        have hr : 0 ≤ low * r := Int.mul_nonneg hpos hrest
        rw [htotal, Int.mul_add] at hle
        omega
      have hsmall : low * n ≤ s + l.length := by
        refine Int.le_of_mul_le_mul_left ?_ hu
        rw [Int.mul_add, Int.mul_left_comm]
        exact hmul
      have hk : (l.length : Int) ≤ l.length * n := le_mul_of_one_le_right hlength hn
      rw [Int.sub_mul]
      omega
  · have hbest : ∀ q ∈ l, q.1 ≤ min high u := fun q hq => le_min (hhigh q hq) (hunit q hq)
    have hle := products_le hu hweight hbest
    have hmin := Int.min_le_left high u
    have hminu := Int.min_le_right high u
    generalize min high u = m at *
    refine Int.le_trans (Int.lt_add_one_iff.mp ?_) (Int.add_le_add_right hmin _)
    apply Int.ediv_lt_of_lt_mul hn
    generalize weights l / u = n at *
    generalize weights l % u = r at *
    generalize products u l = s at *
    refine Int.lt_of_mul_lt_mul_left ?_ (Int.le_of_lt hu)
    have hmr : m * r ≤ u * r := Int.mul_le_mul_of_nonneg_right hminu hrest
    have hur : u * r < u * (n * (l.length + 1)) := Int.mul_lt_mul_of_pos_left hclose hu
    calc u * s ≤ m * (u * n + r) := htotal ▸ hle
      _ = u * (m * n) + m * r := by ring
      _ < u * (m * n) + u * (n * (l.length + 1)) := by omega
      _ = u * ((m + l.length + 1) * n) := by ring

theorem mean_same (hu : 0 < u) (hn : 0 < weights l / u) (hsame : ∀ p ∈ l, p.1 = u)
    (hle : products u l / (weights l / u) ≤ u + l.length) :
    weights l % u < weights l / u * (l.length + 1) := by
  have hsum : products u l = weights l := by
    refine congrArg List.sum (map_congr_left fun p hp => ?_)
    rw [hsame p hp]
    exact Int.mul_ediv_cancel_left _ (Int.ne_of_gt hu)
  have htotal : weights l = u * (weights l / u) + weights l % u :=
    (Int.mul_ediv_add_emod _ _).symm
  have hlt := Int.lt_mul_of_ediv_lt hn (Int.lt_add_one_iff.mpr hle)
  generalize weights l / u = n at *
  have hexpand : (u + l.length + 1) * n = u * n + n * (l.length + 1) := by ring
  omega

end WeightedMean
