import Mathlib.Tactic.Common

/-!
# Lists put together

* `Merge xs ys zs`   `zs` is made of `xs` and `ys`, each in its own order;
* `Merge.length_eq`  nothing is left out.
-/

namespace Merge

variable {α : Type*}

/-- `zs` is made of `xs` and `ys`, each in its own order -/
inductive Merge : List α → List α → List α → Prop
  | nil : Merge [] [] []
  | left {xs ys zs : List α} (a : α) : Merge xs ys zs → Merge (xs ++ [a]) ys (zs ++ [a])
  | right {xs ys zs : List α} (a : α) : Merge xs ys zs → Merge xs (ys ++ [a]) (zs ++ [a])

theorem Merge.length_eq {xs ys zs : List α} (h : Merge xs ys zs) :
    xs.length + ys.length = zs.length := by
  induction h with
  | nil => rfl
  | left a _ ih =>
    rw [List.length_append, List.length_append, ← ih, List.length_singleton]
    omega
  | right a _ ih =>
    rw [List.length_append, List.length_append, ← ih, List.length_singleton]
    omega

end Merge
