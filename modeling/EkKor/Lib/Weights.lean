import Mathlib.Algebra.BigOperators.Group.List.Basic
import Mathlib.Algebra.GroupWithZero.Nat
import Mathlib.Data.List.Perm.Basic
import Mathlib.Tactic.Common

/-!
# Weights

* `total`       the weight of the elements of a list that have a property;
* `total_flatMap`   it is added up part by part;
* `eq_of_total_le`  where each weight is at most another one and the totals are the other way round,
                the weights are the same.
-/

namespace Weights
open List

variable {α β : Type*} {p : α → Bool} {w w' : α → Nat} {a : α} {l l' : List α}

def total (p : α → Bool) (w : α → Nat) (l : List α) : Nat := ((l.filter p).map w).sum

theorem total_append : total p w (l ++ l') = total p w l + total p w l' := by
  unfold total
  rw [filter_append, map_append, sum_append]

theorem total_singleton : total p w [a] = if p a = true then w a else 0 := by
  unfold total
  cases h : p a with
  | false =>
    rw [filter_cons_of_neg (ne_true_of_eq_false h), if_neg Bool.false_ne_true]
    rfl
  | true =>
    rw [filter_cons_of_pos h, if_pos rfl]
    rfl

theorem total_cons : total p w (a :: l) = (if p a = true then w a else 0) + total p w l := by
  rw [← singleton_append, total_append, total_singleton]

theorem total_eq_zero (h : ∀ a ∈ l, p a = false) : total p w l = 0 := by
  unfold total
  rw [filter_eq_nil_iff.mpr fun a ha => ne_true_of_eq_false (h a ha)]
  rfl

theorem total_perm (h : l.Perm l') : total p w l = total p w l' :=
  ((h.filter p).map w).sum_eq

theorem total_flatMap {F : β → List α} (bs : List β) :
    total p w (bs.flatMap F) = (bs.map fun b => total p w (F b)).sum := by
  induction bs with
  | nil => rfl
  | cons b bs ih => rw [flatMap_cons, total_append, ih, map_cons, sum_cons]

theorem total_map {q : β → Bool} {v : β → Nat} {F : α → β} :
    total q v (l.map F) = total (q ∘ F) (v ∘ F) l := by
  unfold total
  rw [filter_map, map_map]

theorem total_eq_sum : total p w l = (l.map fun a => if p a = true then w a else 0).sum := by
  induction l with
  | nil => rfl
  | cons a l ih => rw [total_cons, ih, map_cons, sum_cons]

theorem total_all (h : ∀ a ∈ l, p a = true) : total p w l = (l.map w).sum := by
  unfold total
  rw [filter_eq_self.mpr h]

theorem total_filter {q : α → Bool} (h : ∀ a, p a = true → q a = true) :
    total p w (l.filter q) = total p w l := by
  unfold total
  rw [filter_filter]
  congr 2
  refine filter_congr fun a _ => ?_
  cases hp : p a with
  | false => rfl
  | true => exact h a hp

theorem total_le (h : ∀ a ∈ l, p a = true → w a ≤ w' a) : total p w l ≤ total p w' l := by
  induction l with
  | nil => exact Nat.le_refl _
  | cons a l ih =>
    have hl := ih fun b hb => h b (mem_cons_of_mem a hb)
    rw [total_cons, total_cons]
    split_ifs with ha
    · exact Nat.add_le_add (h a mem_cons_self ha) hl
    · exact Nat.add_le_add_left hl 0

/-- **Main.** -/
theorem eq_of_total_le (h : ∀ a ∈ l, p a = true → w a ≤ w' a) (hle : total p w' l ≤ total p w l) :
    ∀ a ∈ l, p a = true → w a = w' a := by
  induction l with
  | nil => exact nofun
  | cons a l ih =>
    have htail : ∀ b ∈ l, p b = true → w b ≤ w' b := fun b hb => h b (mem_cons_of_mem a hb)
    have hl := total_le htail
    have ha := h a mem_cons_self
    rw [total_cons, total_cons] at hle
    intro b hb hpb
    rcases mem_cons.mp hb with rfl | hb
    · rw [if_pos hpb, if_pos hpb] at hle
      have := ha hpb
      omega
    · refine ih htail ?_ b hb hpb
      split_ifs at hle with hpa
      · have := ha hpa
        omega
      · omega

end Weights
