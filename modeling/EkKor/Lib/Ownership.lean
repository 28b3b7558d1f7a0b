import Mathlib.Data.List.Count
import Mathlib.Data.List.Nodup
import Mathlib.Logic.Function.Basic
import Mathlib.Tactic.Common

/-!
# Slots that hold blocks

A table of slots, each of which is empty or holds a block, and a set of marked blocks.

* `Exact ref marked`   every marked block is held by exactly one slot, and no other block is held;
* `Exact.assign`       an empty slot takes a block that is not marked;
* `Exact.release`      some slots give their blocks back;
* `clearCount`         how many of the first `n` bits are clear.
-/

namespace Ownership
open List

variable {σ β : Type*}

/-- the slots hold the marked blocks, each once -/
structure Exact (ref : σ → Option β) (marked : β → Prop) : Prop where
  marked_of : ∀ s b, ref s = some b → marked b
  once : ∀ s s' b, ref s = some b → ref s' = some b → s = s'
  held : ∀ b, marked b → ∃ s, ref s = some b

variable {ref ref' : σ → Option β} {marked marked' : β → Prop} {bit : Nat → Bool} {n : Nat}

theorem exact_empty (href : ∀ s, ref s = none) (hmarked : ∀ b, ¬ marked b) : Exact ref marked :=
  ⟨fun s _ h => absurd ((href s).symm.trans h) nofun,
    fun s _ _ h _ => absurd ((href s).symm.trans h) nofun, fun b hb => absurd hb (hmarked b)⟩

theorem Exact.congr (h : Exact ref marked) (href : ∀ s, ref' s = ref s)
    (hmarked : ∀ b, marked' b ↔ marked b) : Exact ref' marked' := by
  obtain rfl : ref' = ref := funext href
  obtain rfl : marked' = marked := funext fun b => propext (hmarked b)
  exact h

theorem Exact.assign [DecidableEq σ] (h : Exact ref marked) {s : σ} {b : β} (hs : ref s = none)
    (hb : ¬ marked b) : Exact (Function.update ref s (some b)) fun b' => marked b' ∨ b' = b := by
  have hold {s' : σ} {b' : β} (h' : Function.update ref s (some b) s' = some b') :
      s' = s ∧ b' = b ∨ s' ≠ s ∧ ref s' = some b' := by
    by_cases hss : s' = s
    · rw [hss, Function.update_self] at h'
      exact .inl ⟨hss, (Option.some.inj h').symm⟩
    · rw [Function.update_of_ne hss] at h'
      exact .inr ⟨hss, h'⟩
  constructor
  · intro s' b' h'
    rcases hold h' with ⟨_, rfl⟩ | ⟨_, h'⟩
    · exact .inr rfl
    · exact .inl (h.marked_of s' b' h')
  · intro s₁ s₂ b' h₁ h₂
    rcases hold h₁ with ⟨hs₁, hb₁⟩ | ⟨_, href₁⟩ <;> rcases hold h₂ with ⟨hs₂, hb₂⟩ | ⟨_, href₂⟩
    · exact hs₁.trans hs₂.symm
    · rw [hb₁] at href₂
      exact absurd (h.marked_of _ _ href₂) hb
    · rw [hb₂] at href₁
      exact absurd (h.marked_of _ _ href₁) hb
    · exact h.once s₁ s₂ b' href₁ href₂
  · rintro b' (hb' | rfl)
    · obtain ⟨s', hs'⟩ := h.held b' hb'
      have hne : s' ≠ s := by
        rintro rfl
        rw [hs] at hs'
        cases hs'
      exact ⟨s', by rw [Function.update_of_ne hne]; exact hs'⟩
    · exact ⟨s, Function.update_self ..⟩

/-- the slots of `S` give their blocks back -/
theorem Exact.release (h : Exact ref marked) (S : σ → Prop) (hin : ∀ s, S s → ref' s = none)
    (hout : ∀ s, ¬ S s → ref' s = ref s)
    (hmarked : ∀ b, marked' b ↔ marked b ∧ ∀ s, S s → ref s ≠ some b) : Exact ref' marked' := by
  have hold {s : σ} {b : β} (h' : ref' s = some b) : ¬ S s ∧ ref s = some b := by
    by_cases hs : S s
    · rw [hin s hs] at h'
      cases h'
    · rw [hout s hs] at h'
      exact ⟨hs, h'⟩
  constructor
  · intro s b h'
    obtain ⟨hs, href⟩ := hold h'
    refine (hmarked b).mpr ⟨h.marked_of s b href, fun s' hs' href' => ?_⟩
    exact hs (h.once s s' b href href' ▸ hs')
  · intro s s' b h₁ h₂
    exact h.once s s' b (hold h₁).2 (hold h₂).2
  · intro b hb
    obtain ⟨hb, hfree⟩ := (hmarked b).mp hb
    obtain ⟨s, hs⟩ := h.held b hb
    have hS : ¬ S s := fun hS => hfree s hS hs
    exact ⟨s, (hout s hS).trans hs⟩

/-! ## counting clear bits -/

/-- how many of the first `n` bits are clear -/
def clearCount (bit : Nat → Bool) (n : Nat) : Nat := (List.range n).countP fun k => !bit k

theorem countP_flip {α : Type*} [DecidableEq α] {l : List α} (hl : l.Nodup) {a : α} (ha : a ∈ l)
    {p q : α → Bool} (hpa : p a = false) (hqa : q a = true) (hne : ∀ x, x ≠ a → q x = p x) :
    l.countP q = l.countP p + 1 := by
  induction l with
  | nil => cases ha
  | cons x l ih =>
    obtain ⟨hx, hl⟩ := nodup_cons.mp hl
    rw [countP_cons, countP_cons]
    by_cases hxa : x = a
    · subst hxa
      have hrest : l.countP q = l.countP p :=
        countP_congr fun y hy => by rw [hne y (fun h => hx (h ▸ hy))]
      rw [hrest, hpa, hqa]
      rfl
    · have ha' : a ∈ l := (mem_cons.mp ha).resolve_left (Ne.symm hxa)
      rw [ih hl ha', hne x hxa]
      omega

theorem clearCount_set {bit' : Nat → Bool} {k : Nat} (hk : k < n) (hclear : bit k = false)
    (hset : bit' k = true) (hne : ∀ j, j ≠ k → bit' j = bit j) :
    clearCount bit n = clearCount bit' n + 1 := by
  refine countP_flip nodup_range (mem_range.mpr hk) (a := k) ?_ ?_ fun j hj => ?_
  · rw [hset]
    rfl
  · rw [hclear]
    rfl
  · rw [hne j hj]

theorem clearCount_pos {k : Nat} (hk : k < n) (hclear : bit k = false) : 0 < clearCount bit n :=
  countP_pos_iff.mpr ⟨k, mem_range.mpr hk, by rw [hclear]; rfl⟩

theorem clearCount_eq_zero (h : ∀ k < n, bit k = true) : clearCount bit n = 0 :=
  countP_eq_zero.mpr fun k hk => by rw [h k (mem_range.mp hk)]; decide

theorem clearCount_all (h : ∀ k < n, bit k = false) : clearCount bit n = n := by
  refine (countP_eq_length.mpr fun k hk => ?_).trans length_range
  rw [h k (mem_range.mp hk)]
  rfl

end Ownership
