import EkKor.Lib.Circular
import Mathlib.Data.List.Chain
import Mathlib.Order.Bounds.Basic

/-!
# The extremes of the newest entries

The least and the greatest element of a list, when elements come at its end and go at its front.

* `isLeast_tail_iff`, `isGreatest_tail_iff`   what a list leaves when its first element goes;
* `Spans`                    a list between two bounds that it attains;
* `Spans.append`             one more element;
* `newest_append_of_lt`, `newest_append_of_ge`   the newest entries after one more;
* `isChain_newest_append_iff`   links between neighbours.
-/

/-! ## bounds -/

namespace Extremes
open List

variable {α : Type*} [LinearOrder α] {lo hi : α}

theorem isLeast_tail_iff {e : α} {l : List α} (h : IsLeast {x | x ∈ e :: l} lo) :
    IsLeast {x | x ∈ l} lo ↔ ∃ x ∈ l, x ≤ e := by
  constructor
  · intro hl
    exact ⟨lo, hl.1, h.2 mem_cons_self⟩
  · rintro ⟨x, hx, hxe⟩
    refine ⟨?_, fun y hy => h.2 (mem_cons_of_mem e hy)⟩
    rcases mem_cons.mp h.1 with heq | hmem
    · -- the element that goes is the least one, and so is `x`
      have hxlo : lo = x := le_antisymm (h.2 (mem_cons_of_mem e hx)) (heq ▸ hxe)
      exact hxlo.symm ▸ hx
    · exact hmem

theorem isGreatest_tail_iff {e : α} {l : List α} (h : IsGreatest {x | x ∈ e :: l} hi) :
    IsGreatest {x | x ∈ l} hi ↔ ∃ x ∈ l, e ≤ x :=
  isLeast_tail_iff (α := αᵒᵈ) h

/-- the list lies between `lo` and `hi`, and has both -/
structure Spans (lo hi : α) (l : List α) : Prop where
  least : IsLeast {x | x ∈ l} lo
  greatest : IsGreatest {x | x ∈ l} hi

theorem spans_singleton (a : α) : Spans a a [a] := by
  have hset : {x | x ∈ [a]} = {a} := Set.ext fun x => mem_singleton
  constructor
  · rw [hset]
    exact isLeast_singleton
  · rw [hset]
    exact isGreatest_singleton

theorem Spans.append {l : List α} (h : Spans lo hi l) (a : α) :
    Spans (min lo a) (max hi a) (l ++ [a]) := by
  have hset : {x | x ∈ l ++ [a]} = {x | x ∈ l} ∪ {a} := by
    ext x
    exact mem_append.trans (or_congr_right mem_singleton)
  constructor
  · rw [hset]
    exact h.least.union isLeast_singleton
  · rw [hset]
    exact h.greatest.union isGreatest_singleton

end Extremes

/-! ## the newest entries -/

namespace Ring
open List

variable {α : Type*} {max : Nat} {h : List α}

theorem newest_of_le (hle : h.length ≤ max) : newest max h = h := by
  unfold newest
  rw [Nat.sub_eq_zero_of_le hle, drop_zero]

theorem newest_append_of_lt (hlt : h.length < max) (a : α) : newest max (h ++ [a]) = h ++ [a] := by
  refine newest_of_le ?_
  rw [length_append]
  exact hlt

theorem newest_append_of_ge (hmax : 0 < max) (hge : max ≤ h.length) (a : α) :
    ∃ e rest, newest max h = e :: rest ∧ newest max (h ++ [a]) = rest ++ [a] := by
  have hlt : h.length - max < h.length := by omega
  refine ⟨h[h.length - max], h.drop (h.length - max + 1), ?_, ?_⟩
  · exact drop_eq_getElem_cons hlt
  · unfold newest
    rw [length_append, length_singleton, Nat.sub_add_comm hge,
      drop_append_of_le_length (by omega)]

theorem getLast?_newest (hmax : 0 < max) : (newest max h).getLast? = h.getLast? := by
  unfold newest
  rw [getLast?_drop]
  cases h with
  | nil => simp
  | cons a h =>
    rw [if_neg]
    rw [length_cons]
    omega

/-! ## links -/

section
variable {R : α → α → Prop}

theorem isChain_append_singleton_iff {l : List α} (a : α) :
    List.IsChain R (l ++ [a]) ↔ List.IsChain R l ∧ ∀ b ∈ l.getLast?, R b a := by
  rw [isChain_append]
  constructor
  · rintro ⟨hl, _, hlink⟩
    exact ⟨hl, fun b hb => hlink b hb a rfl⟩
  · rintro ⟨hl, hlink⟩
    refine ⟨hl, isChain_singleton a, fun b hb c hc => ?_⟩
    obtain rfl : a = c := Option.some.inj hc
    exact hlink b hb

theorem isChain_newest_append_iff (hmax : 1 < max) (hl : List.IsChain R (newest max h)) (a : α) :
    List.IsChain R (newest max (h ++ [a])) ↔ ∀ b ∈ h.getLast?, R b a := by
  by_cases hlt : h.length < max
  · rw [newest_append_of_lt hlt, isChain_append_singleton_iff]
    rw [newest_of_le (Nat.le_of_lt hlt)] at hl
    exact and_iff_right hl
  · obtain ⟨e, rest, hold, hnew⟩ :=
      newest_append_of_ge (Nat.lt_of_succ_lt hmax) (Nat.not_lt.mp hlt) a
    have hlast := getLast?_newest (h := h) (Nat.lt_of_succ_lt hmax)
    have hlength := length_newest max h
    rw [hold] at hl hlast hlength
    have hrest : List.IsChain R rest := hl.tail
    rw [hnew, isChain_append_singleton_iff, and_iff_right hrest, ← hlast]
    cases rest with
    | nil =>
      rw [length_singleton] at hlength
      omega
    | cons b rest => rw [getLast?_cons_cons]

end
end Ring
