import Mathlib.Data.List.Induction
import Mathlib.Logic.Function.Basic
import Mathlib.Tactic.Common

/-!
# Undoing assignments in the order in which they were made

Bits are assigned one after the other, and a log remembers each assignment, oldest first.

* `assigned`             the bits after the assignments of a log;
* `lastOf`               the last assignment to a bit;
* `undone`               the opposite assignments, again from the oldest on;
* `undone_assigned_iff`  they restore the bits exactly when the last assignment to each bit changed
                         it from what it was at first.
-/

namespace Undo

variable {κ : Type*} [DecidableEq κ]

def assigned (f : κ → Bool) (log : List (κ × Bool)) : κ → Bool :=
  log.foldl (fun f e => Function.update f e.1 e.2) f

def lastOf (log : List (κ × Bool)) (k : κ) : Option Bool := log.reverse.lookup k

def undone (f : κ → Bool) (log : List (κ × Bool)) : κ → Bool :=
  assigned f (log.map fun e => (e.1, !e.2))

variable (f : κ → Bool) (log : List (κ × Bool))

theorem assigned_concat (log : List (κ × Bool)) (e : κ × Bool) :
    assigned f (log ++ [e]) = Function.update (assigned f log) e.1 e.2 :=
  List.foldl_append ..

theorem lastOf_concat (e : κ × Bool) (k : κ) :
    lastOf (log ++ [e]) k = if k = e.1 then some e.2 else lastOf log k := by
  unfold lastOf
  rw [List.reverse_append, List.reverse_singleton, List.singleton_append, List.lookup_cons]
  by_cases hk : k = e.1
  · rw [if_pos hk, beq_iff_eq.mpr hk]
  · rw [if_neg hk, beq_eq_false_iff_ne.mpr hk]

theorem mem_of_lastOf {log : List (κ × Bool)} {k : κ} {used : Bool}
    (h : lastOf log k = some used) : (k, used) ∈ log := by
  induction log using List.reverseRecOn with
  | nil => cases h
  | append_singleton log e ih =>
    rw [lastOf_concat] at h
    split_ifs at h with hk
    · rw [hk, ← Option.some.inj h]
      exact List.mem_append_right log List.mem_cons_self
    · exact List.mem_append_left [e] (ih h)

theorem assigned_apply (log : List (κ × Bool)) (k : κ) :
    assigned f log k = (lastOf log k).getD (f k) := by
  induction log using List.reverseRecOn with
  | nil => rfl
  | append_singleton log e ih =>
    rw [assigned_concat, lastOf_concat]
    by_cases hk : k = e.1
    · rw [if_pos hk, hk, Function.update_self]
      rfl
    · rw [if_neg hk, Function.update_of_ne hk, ih]

theorem lastOf_map_not (k : κ) :
    lastOf (log.map fun e => (e.1, !e.2)) k = (lastOf log k).map not := by
  induction log using List.reverseRecOn with
  | nil => rfl
  | append_singleton log e ih =>
    rw [List.map_append, List.map_singleton, lastOf_concat, lastOf_concat, ih]
    by_cases hk : k = e.1
    · rw [if_pos hk, if_pos hk]
      rfl
    · rw [if_neg hk, if_neg hk]

theorem undone_assigned (log : List (κ × Bool)) (k : κ) :
    undone (assigned f log) log k = ((lastOf log k).map not).getD (f k) := by
  unfold undone
  rw [assigned_apply, lastOf_map_not, assigned_apply]
  cases lastOf log k with
  | none => rfl
  | some used => rfl

/-- **Undoing in the same order.** -/
theorem undone_assigned_iff (log : List (κ × Bool)) :
    undone (assigned f log) log = f ↔ ∀ k used, lastOf log k = some used → f k = !used := by
  constructor
  · intro h k used hlast
    have hk := congrFun h k
    rw [undone_assigned, hlast] at hk
    exact hk.symm
  · intro h
    funext k
    rw [undone_assigned]
    cases hlast : lastOf log k with
    | none => rfl
    | some used => exact (h k used hlast).symm

end Undo
