import Mathlib.Logic.Function.Basic
import Mathlib.Tactic.Common

/-!
# Slots that mirror a store

A store maps keys to values.  Some slots hold copies of it, and every access is written down.

* `Mirrors slots store`   each slot holds the current value of its key, and no two the same key;
* `Mirrors.fill`, `Mirrors.write`, `Mirrors.write_beside`   how the slots follow the store;
* `Access`, `contents`    the accesses, and the values last written;
* `Current`               whatever is read, or copied back into the store, is the value last written.
-/

namespace Mirror
open Function

variable {ι κ β : Type*}

/-! ## slots -/

/-- each slot holds the current value of its key, and no two slots hold the same key -/
structure Mirrors (slots : ι → Option (κ × β)) (store : κ → β) : Prop where
  current : ∀ i k b, slots i = some (k, b) → store k = b
  once : ∀ i j k b b', slots i = some (k, b) → slots j = some (k, b') → i = j

variable {slots : ι → Option (κ × β)} {store : κ → β} {k : κ}

theorem mirrors_empty (h : ∀ i, slots i = none) (store : κ → β) : Mirrors slots store :=
  ⟨fun i _ _ hi => absurd ((h i).symm.trans hi) nofun,
    fun i _ _ _ _ hi _ => absurd ((h i).symm.trans hi) nofun⟩

theorem Mirrors.update_eq [DecidableEq κ] (h : Mirrors slots store) {i : ι} {b : β}
    (hi : slots i = some (k, b)) : update store k b = store := by
  rw [← h.current i k b hi, update_eq_self]

theorem Mirrors.write_beside [DecidableEq κ] (h : Mirrors slots store) {b : β}
    (hk : ∀ i b', slots i = some (k, b') → b' = b) : Mirrors slots (update store k b) := by
  refine ⟨fun i k' b' hi => ?_, h.once⟩
  by_cases hkey : k' = k
  · subst hkey
    rw [update_self]
    exact (hk i b' hi).symm
  · rw [update_of_ne hkey]
    exact h.current i k' b' hi

section
variable [DecidableEq ι]

/-- slot `i` takes a key that no other slot holds -/
theorem Mirrors.fill (h : Mirrors slots store) {i : ι} {b : β}
    (hk : ∀ j b', j ≠ i → slots j ≠ some (k, b')) (hb : store k = b) :
    Mirrors (update slots i (some (k, b))) store := by
  have hold {j : ι} {k' : κ} {b' : β}
      (hj : update slots i (some (k, b)) j = some (k', b')) :
      j = i ∧ k' = k ∧ b' = b ∨ j ≠ i ∧ slots j = some (k', b') := by
    by_cases hji : j = i
    · rw [hji, update_self] at hj
      obtain ⟨rfl, rfl⟩ := Prod.mk.inj (Option.some.inj hj)
      exact .inl ⟨hji, rfl, rfl⟩
    · rw [update_of_ne hji] at hj
      exact .inr ⟨hji, hj⟩
  constructor
  · intro j k' b' hj
    rcases hold hj with ⟨_, rfl, rfl⟩ | ⟨_, hj⟩
    · exact hb
    · exact h.current j k' b' hj
  · intro j₁ j₂ k' b₁ b₂ h₁ h₂
    rcases hold h₁ with ⟨hj₁, hk₁, _⟩ | ⟨hne₁, h₁⟩ <;>
      rcases hold h₂ with ⟨hj₂, hk₂, _⟩ | ⟨hne₂, h₂⟩
    · exact hj₁.trans hj₂.symm
    · exact absurd (hk₁ ▸ h₂) (hk j₂ b₂ hne₂)
    · exact absurd (hk₂ ▸ h₁) (hk j₁ b₁ hne₁)
    · exact h.once j₁ j₂ k' b₁ b₂ h₁ h₂

/-- the key of slot `i` is written, in the slot and in the store -/
theorem Mirrors.write [DecidableEq κ] (h : Mirrors slots store) {i : ι}
    (hk : ∀ j b', j ≠ i → slots j ≠ some (k, b')) (b : β) :
    Mirrors (update slots i (some (k, b))) (update store k b) := by
  have hold {j : ι} {k' : κ} {b' : β}
      (hj : update slots i none j = some (k', b')) : j ≠ i ∧ slots j = some (k', b') := by
    by_cases hji : j = i
    · rw [hji, update_self] at hj
      cases hj
    · rw [update_of_ne hji] at hj
      exact ⟨hji, hj⟩
  have hdrop : Mirrors (update slots i none) store :=
    ⟨fun j k' b' hj => h.current j k' b' (hold hj).2,
      fun j₁ j₂ k' b₁ b₂ h₁ h₂ => h.once j₁ j₂ k' b₁ b₂ (hold h₁).2 (hold h₂).2⟩
  have hbeside := hdrop.write_beside (k := k) (b := b)
    fun j b' hj => absurd (hold hj).2 (hk j b' (hold hj).1)
  have hfill := hbeside.fill (i := i) (k := k) (b := b)
    (fun j b' hj hs => hk j b' hj (hold hs).2) (update_self ..)
  rwa [update_idem] at hfill

end

/-! ## accesses -/

/-- what happens to a store: a write, a copy of a slot that goes back, a read and its result -/
inductive Access (κ β : Type*) where
  | write (k : κ) (b : β)
  | writeBack (k : κ) (b : β)
  | read (k : κ) (b : β)

section
variable [DecidableEq κ]

def contents (store : κ → β) : List (Access κ β) → κ → β
  | [] => store
  | .write k b :: log => contents (update store k b) log
  | _ :: log => contents store log

def Current (store : κ → β) : List (Access κ β) → Prop
  | [] => True
  | .write k b :: log => Current (update store k b) log
  | .writeBack k b :: log => store k = b ∧ Current store log
  | .read k b :: log => store k = b ∧ Current store log

theorem contents_append (store : κ → β) (log log' : List (Access κ β)) :
    contents store (log ++ log') = contents (contents store log) log' := by
  induction log generalizing store with
  | nil => rfl
  | cons a log ih =>
    cases a with
    | write k b => exact ih _
    | writeBack k b => exact ih _
    | read k b => exact ih _

theorem current_append (store : κ → β) (log log' : List (Access κ β)) :
    Current store (log ++ log') ↔ Current store log ∧ Current (contents store log) log' := by
  induction log generalizing store with
  | nil => exact ⟨fun h => ⟨trivial, h⟩, And.right⟩
  | cons a log ih =>
    cases a with
    | write k b => exact ih _
    | writeBack k b => exact (and_congr_right fun _ => ih _).trans and_assoc.symm
    | read k b => exact (and_congr_right fun _ => ih _).trans and_assoc.symm

end
end Mirror
