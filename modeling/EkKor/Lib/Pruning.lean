import Mathlib.Data.List.Basic

/-!
# Pruning a list down to a bound

`prune p bound n l` removes the first entry with `p`, again and again, while the list is longer
than `bound` (at most `n` times).

* `prune_done`        the length of the list is enough fuel: the loop ends by its own condition;
* `prune_sublist`     what is left is in the list;
* `prune_eq_self`     a short list, or one without such an entry, stays;
* `prune_eq_filter`   all such entries go if the others alone reach the bound.
-/

namespace Pruning
open List

variable {α : Type*}

def prune (p : α → Bool) (bound : Nat) : Nat → List α → List α
  | 0, l => l
  | n + 1, l =>
    if l.length > bound then
      if l.any p then prune p bound n (l.eraseP p) else l
    else l

variable {p : α → Bool} {bound n : Nat} {l : List α}

theorem length_eraseP_lt (h : l.any p = true) : (l.eraseP p).length + 1 = l.length := by
  obtain ⟨a, ha, hp⟩ := any_eq_true.mp h
  have hpos : 0 < l.length := length_pos_of_mem ha
  rw [length_eraseP_of_mem ha hp]
  omega

theorem filter_eraseP (p : α → Bool) (l : List α) :
    (l.eraseP p).filter (fun a => !p a) = l.filter fun a => !p a := by
  rcases exists_or_eq_self_of_eraseP p l with h | ⟨a, l₁, l₂, -, ha, hl, he⟩
  · rw [h]
  · rw [he, hl, filter_append, filter_append, filter_cons, ha]
    rfl

theorem prune_sublist (p : α → Bool) (bound n : Nat) (l : List α) :
    (prune p bound n l).Sublist l := by
  induction n generalizing l with
  | zero => exact List.Sublist.refl l
  | succ n ih =>
    rw [prune]
    split
    next =>
      split
      next => exact (ih _).trans eraseP_sublist
      next => exact List.Sublist.refl l
    next => exact List.Sublist.refl l

theorem prune_eq_self (h : l.length ≤ bound ∨ l.any p = false) : prune p bound n l = l := by
  cases n with
  | zero => rfl
  | succ n =>
    rw [prune]
    rcases h with h | h
    · rw [if_neg (Nat.not_lt.mpr h)]
    · rw [h, if_neg Bool.false_ne_true, ite_self]

theorem prune_done (hn : l.length ≤ n) :
    (prune p bound n l).length ≤ bound ∨ (prune p bound n l).any p = false := by
  induction n generalizing l with
  | zero =>
    rw [length_eq_zero_iff.mp (Nat.le_zero.mp hn)]
    exact Or.inr rfl
  | succ n ih =>
    rw [prune]
    split
    next =>
      split
      next h =>
        have hlen := length_eraseP_lt h
        exact ih (by omega)
      next h => exact Or.inr (Bool.not_eq_true _ ▸ h)
    next h => exact Or.inl (Nat.le_of_not_lt h)

theorem filter_eq_self_of_any (h : l.any p = false) : l.filter (fun a => !p a) = l := by
  refine filter_eq_self.mpr fun a ha => ?_
  rw [Bool.not_eq_true']
  exact Bool.not_eq_true _ ▸ any_eq_false.mp h a ha

theorem prune_eq_filter (hn : l.length ≤ n) (h : bound ≤ (l.filter fun a => !p a).length) :
    prune p bound n l = l.filter fun a => !p a := by
  induction n generalizing l with
  | zero =>
    rw [length_eq_zero_iff.mp (Nat.le_zero.mp hn)]
    rfl
  | succ n ih =>
    rw [prune]
    split
    next =>
      split
      next hp =>
        have hlen := length_eraseP_lt hp
        rw [ih (by omega) (by rw [filter_eraseP]; exact h), filter_eraseP]
      next hp => exact (filter_eq_self_of_any (Bool.not_eq_true _ ▸ hp)).symm
    next hlen =>
      -- the entries without `p` fill the bound, so there are no others
      have hle := length_filter_le (fun a => !p a) l
      exact (filter_eq_self.mpr (length_filter_eq_length_iff.mp (by omega))).symm

end Pruning
