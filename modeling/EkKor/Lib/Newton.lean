import Mathlib.Data.Nat.Sqrt
import Mathlib.Tactic.Linarith

/-!
# Newton's iteration for integer square roots

From any place above the root the values go down until they are at it.

* `newton`            one step;
* `sqrt_le_newton`    no step goes below the root;
* `newton_lt_iff`     a step goes down exactly above the root;
* `add_div_le`        the sum in a step is at most `n + 1`.
-/

namespace Newton

def newton (n x : Nat) : Nat := (x + n / x) / 2

variable {n x : Nat}

theorem sqrt_le_newton (hx : 0 < x) : Nat.sqrt n ≤ newton n x := by
  unfold newton
  rw [Nat.le_div_iff_mul_le (by decide)]
  rcases Nat.lt_or_ge x (Nat.sqrt n * 2) with hlt | hge
  · obtain ⟨d, hd⟩ := Nat.exists_eq_add_of_lt hlt
    -- the square of the difference of `x` and the root is not negative
    have hsquare : (d + 1) * x ≤ n := by
      have hroot := Nat.sqrt_le n
      nlinarith [sq_nonneg ((x : ℤ) - (d + 1))]
    have hdiv := (Nat.le_div_iff_mul_le hx).mpr hsquare
    omega
  · exact Nat.le_trans hge (Nat.le_add_right _ _)

theorem newton_lt_iff (hx : 0 < x) : newton n x < x ↔ Nat.sqrt n < x := by
  unfold newton
  rw [Nat.div_lt_iff_lt_mul (by decide), Nat.sqrt_lt, ← Nat.div_lt_iff_lt_mul hx]
  omega

theorem newton_pos (hx : 0 < x) (hle : x ≤ n) : 0 < newton n x := by
  have hdiv : 1 ≤ n / x := (Nat.le_div_iff_mul_le hx).mpr (by rw [Nat.one_mul]; exact hle)
  exact Nat.div_pos (by omega) (by decide)

theorem add_div_le (hx : 0 < x) (hle : x ≤ n) : x + n / x ≤ n + 1 := by
  have hmul := Nat.div_mul_le_self n x
  have hdiv : 1 ≤ n / x := (Nat.le_div_iff_mul_le hx).mpr (by rw [Nat.one_mul]; exact hle)
  -- `(x - 1) * (n / x - 1)` is not negative
  obtain ⟨a, rfl⟩ : ∃ a, x = a + 1 := ⟨x - 1, by omega⟩
  obtain ⟨b, hb⟩ : ∃ b, n / (a + 1) = b + 1 := ⟨n / (a + 1) - 1, by omega⟩
  nlinarith [Nat.zero_le (a * b)]

end Newton
