import Mathlib.Data.List.Basic
import Mathlib.Data.List.TakeWhile
import Mathlib.Tactic.Common

/-!
# Searching lists

* `Scan`          a search that goes on behind each hit;
* `RangeSearch`   a binary search and a scan.
-/

/-!
# Searching a list step by step

A search returns the next hit and goes on behind it; an element past the range ends it. Some of the
elements were there from the beginning, others came later.

* `scan`          one search: the hit, and what is left behind it;
* `owed`          the hits that were there from the beginning;
* `Clear`         the search meets none of the others, and none of `owed` is behind its end;
* `scan_clear`    then it returns the first of `owed` and leaves the others.
-/

namespace Scan
open List

variable {α : Type*} (hit past stored : α → Bool)

def scan : List α → Option α × List α
  | [] => (none, [])
  | a :: l => if hit a then (some a, l) else if past a then (none, l) else scan l

def owed (l : List α) : List α := l.filter fun a => stored a && hit a

/-- what stops the search is a hit that was there, or no hit that was there is behind it -/
def Clear (l : List α) : Prop :=
  ∀ before a after, l = before ++ a :: after → (∀ b ∈ before, hit b = false ∧ past b = false) →
    (hit a = true → stored a = true) ∧
      (hit a = false → past a = true → ∀ b ∈ after, stored b = true → hit b = false)

variable {hit past stored} {l : List α} {a : α}

theorem owed_cons_hit (hstored : stored a = true) (hhit : hit a = true) :
    owed hit stored (a :: l) = a :: owed hit stored l := by
  unfold owed
  rw [filter_cons, hstored, hhit]
  rfl

theorem owed_cons_miss (hhit : hit a = false) : owed hit stored (a :: l) = owed hit stored l := by
  unfold owed
  rw [filter_cons, hhit, Bool.and_false]
  rfl

theorem owed_eq_nil (h : ∀ b ∈ l, stored b = true → hit b = false) : owed hit stored l = [] := by
  refine filter_eq_nil_iff.mpr fun b hb hboth => ?_
  rw [Bool.and_eq_true] at hboth
  rw [h b hb hboth.1] at hboth
  exact absurd hboth.2 Bool.false_ne_true

theorem Clear.tail (h : Clear hit past stored (a :: l)) (hhit : hit a = false)
    (hpast : past a = false) : Clear hit past stored l := by
  intro before b after heq hbefore
  refine h (a :: before) b after (by rw [heq, cons_append]) fun c hc => ?_
  rcases mem_cons.mp hc with rfl | hc
  · exact ⟨hhit, hpast⟩
  · exact hbefore c hc

/-- **One search.** It returns the first of the hits that were there, and leaves the others. -/
theorem scan_clear (h : Clear hit past stored l) :
    (scan hit past l).1 = (owed hit stored l).head? ∧
      owed hit stored (scan hit past l).2 = (owed hit stored l).tail := by
  induction l with
  | nil => exact ⟨rfl, rfl⟩
  | cons a l ih =>
    obtain ⟨hstored, hbehind⟩ := h [] a l rfl fun b hb => absurd hb not_mem_nil
    unfold scan
    split_ifs with hhit hpast
    · rw [owed_cons_hit (hstored hhit) hhit]
      exact ⟨rfl, rfl⟩
    · rw [Bool.not_eq_true] at hhit
      rw [owed_cons_miss hhit, owed_eq_nil (hbehind hhit hpast)]
      exact ⟨rfl, rfl⟩
    · rw [Bool.not_eq_true] at hhit hpast
      rw [owed_cons_miss hhit]
      exact ih (h.tail hhit hpast)

end Scan

/-!
# Binary search and scan

A list is searched for the run of the elements in a range: a binary search for the first element
that is not below the range, and a scan from there on.

* `lowerBound`, `eq_lowerBound`   the binary search, and how it is recognised;
* `find`              the search and the scan;
* `Exact`             the run is what it should be;
* `find_exact`        it is, when the list is sorted;
* `within_of_exact`   a range without a lower end shows where the list is not.
-/

namespace RangeSearch
open List

variable {α : Type} (below within : α → Bool)

def lowerBound (l : List α) (lo hi : Nat) : Nat :=
  if lo < hi then
    let mid := lo + (hi - lo) / 2
    match l[mid]? with
    | some x => if below x then lowerBound l (mid + 1) hi else lowerBound l lo mid
    | none => lo
  else lo
termination_by hi - lo
decreasing_by all_goals omega

def find (l : List α) : Option (Nat × Nat) :=
  let start := lowerBound below l 0 l.length
  let count := ((l.drop start).takeWhile within).length
  if count > 0 then some (start, count) else none

def Exact (l : List α) : Option (Nat × Nat) → Prop
  | none => ∀ x ∈ l, ¬ (below x = false ∧ within x = true)
  | some (first, count) => 0 < count ∧ first + count ≤ l.length ∧ ∀ i x, l[i]? = some x →
      ((below x = false ∧ within x = true) ↔ first ≤ i ∧ i < first + count)

def Initial (p : α → Bool) (l : List α) : Prop := l.Pairwise fun x y => p y = true → p x = true

variable {below within} {l : List α}

theorem Initial.of_le {p : α → Bool} (h : Initial p l) {i j : Nat} {x y : α} (hij : i ≤ j)
    (hx : l[i]? = some x) (hy : l[j]? = some y) (hp : p y = true) : p x = true := by
  obtain ⟨hi, rfl⟩ := List.getElem?_eq_some_iff.mp hx
  obtain ⟨hj, rfl⟩ := List.getElem?_eq_some_iff.mp hy
  rcases Nat.lt_or_eq_of_le hij with hlt | rfl
  · exact pairwise_iff_getElem.mp h i j hi hj hlt hp
  · exact hp

/-- what the search keeps: the answer is from `lo` up to `hi` -/
theorem lowerBound_spec (h : Initial below l) {lo hi : Nat} (hle : lo ≤ hi) (hhi : hi ≤ l.length)
    (hlow : ∀ i x, i < lo → l[i]? = some x → below x = true)
    (hhigh : ∀ i x, hi ≤ i → l[i]? = some x → below x = false) :
    lowerBound below l lo hi ≤ l.length ∧
      ∀ i x, l[i]? = some x → (below x = true ↔ i < lowerBound below l lo hi) := by
  fun_induction lowerBound below l lo hi with
  | case1 lo hi hmore mid x hx hbelow ih =>
    refine ih (by omega) hhi (fun i y hi' hy => ?_) hhigh
    exact h.of_le (Nat.le_of_lt_succ hi') hy hx hbelow
  | case2 lo hi hmore mid x hx hbelow ih =>
    refine ih (by omega) (by omega) hlow fun i y hi' hy => ?_
    exact Bool.eq_false_iff.mpr fun hp => hbelow (h.of_le hi' hx hy hp)
  | case3 lo hi hmore mid hx =>
    have hge := List.getElem?_eq_none_iff.mp hx
    omega
  | case4 lo hi hmore =>
    refine ⟨by omega, fun i x hx => ⟨fun hbelow => ?_, fun hi' => hlow i x hi' hx⟩⟩
    by_contra hge
    rw [hhigh i x (by omega) hx] at hbelow
    cases hbelow

/-- whatever searches in this way is `lowerBound` -/
theorem eq_lowerBound {f : Nat → Nat → Nat} (hf : ∀ lo hi, f lo hi =
      if lo < hi then
        match l[lo + (hi - lo) / 2]? with
        | some x =>
          if below x = true then f (lo + (hi - lo) / 2 + 1) hi else f lo (lo + (hi - lo) / 2)
        | none => lo
      else lo) (lo hi : Nat) : f lo hi = lowerBound below l lo hi := by
  fun_induction lowerBound below l lo hi with
  | case1 lo hi hmore mid x hx hbelow ih =>
    rw [hf, if_pos hmore]
    rw [show l[lo + (hi - lo) / 2]? = some x from hx]
    dsimp only
    rw [if_pos hbelow]
    exact ih
  | case2 lo hi hmore mid x hx hbelow ih =>
    rw [hf, if_pos hmore]
    rw [show l[lo + (hi - lo) / 2]? = some x from hx]
    dsimp only
    rw [if_neg hbelow]
    exact ih
  | case3 lo hi hmore mid hx =>
    rw [hf, if_pos hmore]
    rw [show l[lo + (hi - lo) / 2]? = none from hx]
  | case4 lo hi hmore => rw [hf, if_neg hmore]

theorem lowerBound_none (h : ∀ x, below x = false) (l : List α) (hi : Nat) :
    lowerBound below l 0 hi = 0 := by
  generalize hlo : 0 = lo
  fun_induction lowerBound below l lo hi with
  | case1 lo hi hmore mid x hx hbelow ih =>
    rw [h x] at hbelow
    cases hbelow
  | case2 lo hi hmore mid x hx hbelow ih => exact ih hlo
  | case3 lo hi hmore mid hx => rfl
  | case4 lo hi hmore => rfl

theorem getElem_scan (within : α → Bool) (l : List α) {i : Nat} {x : α}
    (hx : l[i]? = some x) (hi : i < (l.takeWhile within).length) : within x = true := by
  have hmem : (l.takeWhile within)[i] = x := by
    have hstart := ( takeWhile_prefix within (l := l)).getElem hi
    rw [hstart]
    exact (List.getElem?_eq_some_iff.mp hx).2
  rw [← hmem]
  exact mem_takeWhile_imp (getElem_mem hi)

theorem scan_iff (h : Initial within l) {i : Nat} {x : α} (hx : l[i]? = some x) :
    i < (l.takeWhile within).length ↔ within x = true := by
  refine ⟨getElem_scan within l hx, fun hwithin => ?_⟩
  induction l generalizing i with
  | nil => cases hx
  | cons y l ih =>
    have hy : within y = true := h.of_le (Nat.zero_le i) rfl hx hwithin
    rw [takeWhile_cons, if_pos hy]
    cases i with
    | zero => exact Nat.zero_lt_succ _
    | succ i => exact Nat.succ_lt_succ (ih (List.Pairwise.of_cons h) hx)

theorem find_exact (hbelow : Initial below l) (hwithin : Initial within l) :
    Exact below within l (find below within l) := by
  obtain ⟨hle, hstart⟩ := lowerBound_spec hbelow (Nat.zero_le _) (Nat.le_refl _)
    (fun _ _ hi => absurd hi (Nat.not_lt_zero _)) fun i x hi hx => by
      rw [getElem?_eq_none hi] at hx
      cases hx
  unfold find
  dsimp only
  generalize lowerBound below l 0 l.length = start at hle hstart ⊢
  have hscan (i : Nat) (x : α) (hx : l[i]? = some x) (hi : start ≤ i) :
      i < start + ((l.drop start).takeWhile within).length ↔ within x = true := by
    have hdrop : (l.drop start)[i - start]? = some x := by
      rw [getElem?_drop, Nat.add_sub_of_le hi]
      exact hx
    rw [← scan_iff (hwithin.sublist (drop_sublist start l)) hdrop]
    omega
  have hlen := ( takeWhile_prefix within (l := l.drop start)).length_le
  rw [length_drop] at hlen
  generalize ((l.drop start).takeWhile within).length = count at hscan hlen ⊢
  have hrun (i : Nat) (x : α) (hx : l[i]? = some x) :
      (below x = false ∧ within x = true) ↔ start ≤ i ∧ i < start + count := by
    rw [← Bool.not_eq_true, hstart i x hx, Nat.not_lt]
    exact and_congr_right fun hi => (hscan i x hx hi).symm
  split_ifs with hcount
  · exact ⟨hcount, by omega, hrun⟩
  · intro x hx hrange
    obtain ⟨i, hi, rfl⟩ := getElem_of_mem hx
    have hin := (hrun i l[i] (getElem?_eq_getElem hi)).mp hrange
    omega

theorem within_of_exact (hbelow : ∀ x, below x = false)
    (h : Exact below within l (find below within l)) : Initial within l := by
  refine pairwise_iff_getElem.mpr fun i j hi hj hij hwithin => ?_
  unfold find at h
  dsimp only at h
  rw [lowerBound_none hbelow] at h
  split_ifs at h with hcount
  · have hin := (h.2.2 j l[j] (getElem?_eq_getElem hj)).mp ⟨hbelow _, hwithin⟩
    exact ((h.2.2 i l[i] (getElem?_eq_getElem hi)).mpr ⟨Nat.zero_le _, by omega⟩).2
  · exact absurd ⟨hbelow _, hwithin⟩ (h _ (getElem_mem hj))

end RangeSearch
