import Mathlib.Order.Interval.Finset.Nat
import Mathlib.Order.Interval.Set.Nat

/-!
# Tables with linear probing

* `scan`, `Sound`, `Represents`   sound tables, and the maps that they stand for;
* `Visits`, `lookup`   a search in any table.
-/

/-!
# Open addressing with linear probing

A table of `n` slots.  The slots of a key are searched from its start on, around the end of the table,
up to a free one; a slot that was given up stays marked as deleted.

* `scan`, `find`         the search: the slot of the key, and the first slot that it could take;
* `Sound`                no key is in two slots, and no free slot lies before a key;
* `find_spec`            what a search in a sound table finds;
* `Sound.fill`, `Sound.erase`     writing and giving up a slot keeps it sound;
* `Represents`           the finite map that a table stands for;
* `Represents.fill`, …   what becomes of it.
-/

namespace Probing
open Function

variable {κ β : Type*}

/-! ## slots -/

inductive Slot (κ β : Type*) where
  | free
  | deleted
  | used (k : κ) (b : β)

section
variable [DecidableEq κ]

/-- a search in at most `rounds` slots from slot `idx` on; `vacant` is the first slot so far that is
not in use -/
def scan (slots : Nat → Slot κ β) (n : Nat) (k : κ) :
    Nat → Nat → Option Nat → Option Nat × Option Nat
  | 0, _, vacant => (none, vacant)
  | rounds + 1, idx, vacant =>
    match slots idx with
    | .free => (none, vacant.or (some idx))
    | .deleted => scan slots n k rounds ((idx + 1) % n) (vacant.or (some idx))
    | .used k' _ =>
      if k' = k then (some idx, vacant) else scan slots n k rounds ((idx + 1) % n) vacant

def find (slots : Nat → Slot κ β) (n start : Nat) (k : κ) : Option Nat × Option Nat :=
  scan slots n k n (start % n) none

end

/-- slot `i` can be reached from `start`: no slot before it is free -/
def Reachable (slots : Nat → Slot κ β) (n start i : Nat) : Prop :=
  ∃ d < n, (start + d) % n = i ∧ ∀ e < d, slots ((start + e) % n) ≠ .free

/-- no key is in two slots, and each is reached from its start -/
structure Sound (start : κ → Nat) (n : Nat) (slots : Nat → Slot κ β) : Prop where
  once : ∀ i < n, ∀ j < n, ∀ k b b', slots i = .used k b → slots j = .used k b' → i = j
  reach : ∀ i < n, ∀ k b, slots i = .used k b → Reachable slots n (start k) i

variable {start : κ → Nat} {n : Nat} {slots : Nat → Slot κ β} {k : κ}

/-! ## searching -/

/-- what is known after `j` rounds -/
structure Searched (slots : Nat → Slot κ β) (n start : Nat) (k : κ) (j : Nat)
    (vacant : Option Nat) : Prop where
  passed : ∀ e < j, slots ((start + e) % n) ≠ .free ∧ ∀ b, slots ((start + e) % n) ≠ .used k b
  full : vacant = none → ∀ e < j, ∃ k' b, slots ((start + e) % n) = .used k' b
  vacant : ∀ i, vacant = some i → slots i = .deleted ∧ Reachable slots n start i

theorem next_pos (s j n : Nat) : ((s + j) % n + 1) % n = (s + (j + 1)) % n := by
  rw [Nat.mod_add_mod, Nat.add_assoc]

theorem Searched.step {s j : Nat} {vacant : Option Nat} (h : Searched slots n s k j vacant)
    (hj : j < n) (hfree : slots ((s + j) % n) ≠ .free)
    (hkey : ∀ b, slots ((s + j) % n) ≠ .used k b) {vacant' : Option Nat}
    (hvacant : (∃ k' b, slots ((s + j) % n) = .used k' b) ∧ vacant' = vacant ∨
      slots ((s + j) % n) = .deleted ∧ vacant' = vacant.or (some ((s + j) % n))) :
    Searched slots n s k (j + 1) vacant' := by
  refine ⟨fun e he => ?_, fun hnone e he => ?_, fun i hi => ?_⟩
  · rcases Nat.lt_or_eq_of_le (Nat.le_of_lt_succ he) with hlt | rfl
    · exact h.passed e hlt
    · exact ⟨hfree, hkey⟩
  · rcases hvacant with ⟨hused, rfl⟩ | ⟨_, rfl⟩
    · rcases Nat.lt_or_eq_of_le (Nat.le_of_lt_succ he) with hlt | rfl
      · exact h.full hnone e hlt
      · exact hused
    · cases vacant with
      | none => cases hnone
      | some i => cases hnone
  · rcases hvacant with ⟨_, rfl⟩ | ⟨hdeleted, rfl⟩
    · exact h.vacant i hi
    · cases hv : vacant with
      | some i' =>
        rw [hv] at hi
        exact h.vacant i (hv.trans hi)
      | none =>
        rw [hv] at hi
        obtain rfl := Option.some.inj hi
        exact ⟨hdeleted, j, hj, rfl, fun e he => (h.passed e he).1⟩

/-- how a search ends: at the key; without the key, with a slot for it; or in a full table -/
inductive Outcome (slots : Nat → Slot κ β) (n start : Nat) (k : κ) :
    Option Nat × Option Nat → Prop where
  | found (i : Nat) (b : β) (vacant : Option Nat) (hi : i < n) (hslot : slots i = .used k b) :
      Outcome slots n start k (some i, vacant)
  | vacant (i : Nat) (hi : i < n) (hslot : ∀ k' b, slots i ≠ .used k' b)
      (hreach : Reachable slots n start i)
      (habsent : ∀ d < n, (∀ e ≤ d, slots ((start + e) % n) ≠ .free) →
        ∀ b, slots ((start + d) % n) ≠ .used k b) :
      Outcome slots n start k (none, some i)
  | full (hused : ∀ d < n, ∃ k' b, slots ((start + d) % n) = .used k' b ∧ k' ≠ k) :
      Outcome slots n start k (none, none)

section
variable [DecidableEq κ]

theorem scan_outcome {s rounds j : Nat} {vacant : Option Nat} (hj : j + rounds = n)
    (h : Searched slots n s k j vacant) :
    Outcome slots n s k (scan slots n k rounds ((s + j) % n) vacant) := by
  induction rounds generalizing j vacant with
  | zero =>
    obtain rfl : j = n := hj
    cases hv : vacant with
    | none =>
      refine .full fun d hd => ?_
      obtain ⟨k', b, hused⟩ := h.full hv d hd
      refine ⟨k', b, hused, ?_⟩
      rintro rfl
      exact (h.passed d hd).2 b hused
    | some i =>
      obtain ⟨hdeleted, hreach⟩ := h.vacant i hv
      have hi : i < j := by
        obtain ⟨d, hd, rfl, _⟩ := hreach
        exact Nat.mod_lt _ (Nat.lt_of_le_of_lt (Nat.zero_le d) hd)
      refine .vacant i hi (fun k' b hused => ?_) hreach fun d hd _ => (h.passed d hd).2
      rw [hdeleted] at hused
      cases hused
  | succ rounds ih =>
    have hlt : j < n := by omega
    have hpos : (s + j) % n < n := Nat.mod_lt _ (Nat.lt_of_le_of_lt (Nat.zero_le j) hlt)
    rw [scan]
    cases hslot : slots ((s + j) % n) with
    | free =>
      have habsent : ∀ d < n, (∀ e ≤ d, slots ((s + e) % n) ≠ .free) →
          ∀ b, slots ((s + d) % n) ≠ .used k b := by
        intro d _ hpassed
        have hd : d < j := by
          by_contra hge
          exact hpassed j (Nat.not_lt.mp hge) hslot
        exact (h.passed d hd).2
      cases hv : vacant with
      | none =>
        refine .vacant _ hpos (fun k' b hused => ?_)
          ⟨j, hlt, rfl, fun e he => (h.passed e he).1⟩ habsent
        rw [hslot] at hused
        cases hused
      | some i =>
        obtain ⟨hdeleted, hreach⟩ := h.vacant i hv
        have hi : i < n := by
          obtain ⟨d, hd, rfl, _⟩ := hreach
          exact Nat.mod_lt _ (Nat.lt_of_le_of_lt (Nat.zero_le d) hd)
        refine .vacant i hi (fun k' b hused => ?_) hreach habsent
        rw [hdeleted] at hused
        cases hused
    | deleted =>
      rw [next_pos]
      refine ih (by omega) (h.step hlt ?_ ?_ (.inr ⟨hslot, rfl⟩))
      · rw [hslot]
        exact nofun
      · rw [hslot]
        exact nofun
    | used k' b =>
      dsimp only
      split_ifs with hkey
      · exact .found _ b vacant hpos (hkey ▸ hslot)
      · rw [next_pos]
        refine ih (by omega) (h.step hlt ?_ ?_ (.inl ⟨⟨k', b, hslot⟩, rfl⟩))
        · rw [hslot]
          exact nofun
        · intro b' hused
          rw [hslot] at hused
          exact hkey (Slot.used.inj hused).1

theorem find_outcome (slots : Nat → Slot κ β) (n s : Nat) (k : κ) :
    Outcome slots n s k (find slots n s k) :=
  scan_outcome (j := 0) (Nat.zero_add n)
    ⟨fun _ he => absurd he (Nat.not_lt_zero _), fun _ _ he => absurd he (Nat.not_lt_zero _), nofun⟩

end

theorem exists_distance (s : Nat) {i : Nat} (hi : i < n) : ∃ d < n, (s + d) % n = i := by
  have hpos : 0 < n := Nat.lt_of_le_of_lt (Nat.zero_le i) hi
  have hs := Nat.mod_lt s hpos
  refine ⟨(n - s % n + i) % n, Nat.mod_lt _ hpos, ?_⟩
  rw [Nat.add_mod_mod, ← Nat.mod_add_mod, show s % n + (n - s % n + i) = i + n by omega,
    Nat.add_mod_right, Nat.mod_eq_of_lt hi]

/-- **Look-up.** In a sound table the search finds the key if it is there; else it finds a slot for
it, or all slots are in use. -/
theorem find_spec [DecidableEq κ] (h : Sound start n slots) (k : κ) :
    (∃ i < n, ∃ b vacant, slots i = .used k b ∧ find slots n (start k) k = (some i, vacant)) ∨
      (∀ i < n, ∀ b, slots i ≠ .used k b) ∧
        ((∃ i < n, (∀ k' b, slots i ≠ .used k' b) ∧ Reachable slots n (start k) i ∧
            find slots n (start k) k = (none, some i)) ∨
          (∀ i < n, ∃ k' b, slots i = .used k' b) ∧
            find slots n (start k) k = (none, none)) := by
  have hfind := find_outcome slots n (start k) k
  generalize find slots n (start k) k = result at *
  cases hfind with
  | found i b vacant hi hslot => exact .inl ⟨i, hi, b, vacant, hslot, rfl⟩
  | vacant i hi hslot hreach habsent =>
    refine .inr ⟨fun j hj b hused => ?_, .inl ⟨i, hi, hslot, hreach, rfl⟩⟩
    obtain ⟨d, hd, hpos, hpassed⟩ := h.reach j hj k b hused
    refine habsent d hd (fun e he => ?_) b (hpos ▸ hused)
    rcases Nat.lt_or_eq_of_le he with hlt | rfl
    · exact hpassed e hlt
    · rw [hpos, hused]
      exact nofun
  | full hused =>
    refine .inr ⟨fun j hj b hkey => ?_, .inr ⟨fun j hj => ?_, rfl⟩⟩
    · obtain ⟨d, hd, hpos⟩ := exists_distance (start k) hj
      obtain ⟨k', b', hslot, hne⟩ := hused d hd
      rw [hpos, hkey] at hslot
      exact hne (Slot.used.inj hslot).1.symm
    · obtain ⟨d, hd, hpos⟩ := exists_distance (start k) hj
      obtain ⟨k', b', hslot, _⟩ := hused d hd
      exact ⟨k', b', hpos ▸ hslot⟩

/-! ## writing -/

theorem Reachable.update {s i j : Nat} {slot : Slot κ β} (h : Reachable slots n s j)
    (hslot : slot ≠ .free) : Reachable (update slots i slot) n s j := by
  obtain ⟨d, hd, hpos, hpassed⟩ := h
  refine ⟨d, hd, hpos, fun e he => ?_⟩
  by_cases hi : (s + e) % n = i
  · rw [hi, update_self]
    exact hslot
  · rw [update_of_ne hi]
    exact hpassed e he

/-- the slots in use after slot `i` was written -/
theorem used_fill {i j : Nat} {k' : κ} {b b' : β}
    (h : update slots i (.used k b) j = .used k' b') :
    j = i ∧ k = k' ∧ b = b' ∨ j ≠ i ∧ slots j = .used k' b' := by
  by_cases hj : j = i
  · rw [hj, update_self] at h
    exact .inl ⟨hj, Slot.used.inj h⟩
  · rw [update_of_ne hj] at h
    exact .inr ⟨hj, h⟩

theorem used_erase {i j : Nat} {k' : κ} {b' : β}
    (h : update slots i .deleted j = .used k' b') : j ≠ i ∧ slots j = .used k' b' := by
  by_cases hj : j = i
  · rw [hj, update_self] at h
    cases h
  · rw [update_of_ne hj] at h
    exact ⟨hj, h⟩

/-- slot `i` takes a key that is in no other slot -/
theorem Sound.fill {i : Nat} (h : Sound start n slots) (hi : i < n)
    (hkey : ∀ j < n, ∀ b, slots j = .used k b → j = i) (hreach : Reachable slots n (start k) i)
    (b : β) : Sound start n (update slots i (.used k b)) := by
  have hnot : Slot.used k b ≠ .free := nofun
  constructor
  · intro j₁ hj₁ j₂ hj₂ k' b₁ b₂ h₁ h₂
    rcases used_fill h₁ with ⟨he₁, hk₁, _⟩ | ⟨_, hu₁⟩ <;>
      rcases used_fill h₂ with ⟨he₂, hk₂, _⟩ | ⟨_, hu₂⟩
    · exact he₁.trans he₂.symm
    · exact he₁.trans (hkey j₂ hj₂ b₂ (hk₁ ▸ hu₂)).symm
    · exact (hkey j₁ hj₁ b₁ (hk₂ ▸ hu₁)).trans he₂.symm
    · exact h.once j₁ hj₁ j₂ hj₂ k' b₁ b₂ hu₁ hu₂
  · intro j hj k' b' hused
    rcases used_fill hused with ⟨rfl, rfl, _⟩ | ⟨_, hold⟩
    · exact hreach.update hnot
    · exact (h.reach j hj k' b' hold).update hnot

/-- slot `i` is given up -/
theorem Sound.erase (h : Sound start n slots) (i : Nat) :
    Sound start n (update slots i .deleted) := by
  constructor
  · intro j₁ hj₁ j₂ hj₂ k' b₁ b₂ h₁ h₂
    exact h.once j₁ hj₁ j₂ hj₂ k' b₁ b₂ (used_erase h₁).2 (used_erase h₂).2
  · intro j hj k' b' hused
    exact (h.reach j hj k' b' (used_erase hused).2).update nofun

theorem sound_empty (h : ∀ i < n, slots i = .free) : Sound start n slots := by
  constructor
  · intro i hi _ _ k b _ hused
    rw [h i hi] at hused
    cases hused
  · intro i hi k b hused
    rw [h i hi] at hused
    cases hused

/-! ## the map -/

def Represents (n : Nat) (slots : Nat → Slot κ β) (m : κ → Option β) : Prop :=
  ∀ k b, m k = some b ↔ ∃ i < n, slots i = .used k b

def keys (m : κ → Option β) : Set κ := {k | m k ≠ none}

variable {m : κ → Option β}

theorem represents_empty (h : ∀ i < n, slots i = .free) :
    Represents n slots (fun _ => none) := by
  refine fun k b => ⟨nofun, ?_⟩
  rintro ⟨i, hi, hused⟩
  rw [h i hi] at hused
  cases hused

theorem Represents.absent (h : Represents n slots m) (hk : ∀ i < n, ∀ b, slots i ≠ .used k b) :
    m k = none := by
  cases hm : m k with
  | none => rfl
  | some b =>
    obtain ⟨i, hi, hused⟩ := (h k b).mp hm
    exact absurd hused (hk i hi b)

theorem Represents.present (h : Represents n slots m) {i : Nat} {b : β} (hi : i < n)
    (hslot : slots i = .used k b) : m k = some b :=
  (h k b).mpr ⟨i, hi, hslot⟩

section
variable [DecidableEq κ]

theorem Represents.fill {i : Nat} (h : Represents n slots m) (hi : i < n)
    (hkey : ∀ j < n, ∀ b, slots j = .used k b → j = i)
    (hslot : ∀ k' b, slots i = .used k' b → k' = k) (b : β) :
    Represents n (update slots i (.used k b)) (update m k (some b)) := by
  intro k' b'
  by_cases hk : k' = k
  · subst hk
    rw [update_self, Option.some_inj]
    constructor
    · rintro rfl
      exact ⟨i, hi, update_self ..⟩
    · rintro ⟨j, hj, hused⟩
      rcases used_fill hused with ⟨_, _, hb⟩ | ⟨hne, hold⟩
      · exact hb
      · exact absurd (hkey j hj b' hold) hne
  · rw [update_of_ne hk, h k' b']
    constructor
    · rintro ⟨j, hj, hused⟩
      refine ⟨j, hj, ?_⟩
      rw [update_of_ne]
      · exact hused
      · rintro rfl
        exact hk (hslot k' b' hused)
    · rintro ⟨j, hj, hused⟩
      rcases used_fill hused with ⟨_, rfl, _⟩ | ⟨_, hold⟩
      · exact absurd rfl hk
      · exact ⟨j, hj, hold⟩

theorem Represents.erase {i : Nat} {b : β} (h : Represents n slots m) (hs : Sound start n slots)
    (hi : i < n) (hslot : slots i = .used k b) :
    Represents n (update slots i .deleted) (update m k none) := by
  intro k' b'
  by_cases hk : k' = k
  · subst hk
    rw [update_self]
    refine ⟨nofun, ?_⟩
    rintro ⟨j, hj, hused⟩
    obtain ⟨hne, hold⟩ := used_erase hused
    exact absurd (hs.once j hj i hi k' b' b hold hslot) hne
  · rw [update_of_ne hk, h k' b']
    constructor
    · rintro ⟨j, hj, hused⟩
      refine ⟨j, hj, ?_⟩
      rw [update_of_ne]
      · exact hused
      · rintro rfl
        rw [hslot] at hused
        exact hk (Slot.used.inj hused).1.symm
    · rintro ⟨j, hj, hused⟩
      exact ⟨j, hj, (used_erase hused).2⟩

end

/-! ## the number of keys -/

theorem Represents.slot (h : Represents n slots m) (hk : k ∈ keys m) :
    ∃ i < n, ∃ b, slots i = .used k b := by
  obtain ⟨b, hb⟩ := Option.ne_none_iff_exists'.mp hk
  obtain ⟨i, hi, hused⟩ := (h k b).mp hb
  exact ⟨i, hi, b, hused⟩

theorem Represents.injects (h : Represents n slots m) : ∃ f : κ → Nat,
    Set.MapsTo f (keys m) (Set.Iio n) ∧ Set.InjOn f (keys m) := by
  choose f hf using fun k : κ => show ∃ i, k ∈ keys m → i < n ∧ ∃ b, slots i = .used k b by
    by_cases hk : k ∈ keys m
    · obtain ⟨i, hi, hused⟩ := h.slot hk
      exact ⟨i, fun _ => ⟨hi, hused⟩⟩
    · exact ⟨0, fun h => absurd h hk⟩
  refine ⟨f, fun k hk => (hf k hk).1, fun k hk k' hk' heq => ?_⟩
  obtain ⟨_, b, hb⟩ := hf k hk
  obtain ⟨_, b', hb'⟩ := hf k' hk'
  rw [heq, hb'] at hb
  exact (Slot.used.inj hb).1.symm

theorem Represents.finite (h : Represents n slots m) : (keys m).Finite := by
  obtain ⟨f, hmaps, hinj⟩ := h.injects
  exact Set.Finite.of_injOn hmaps hinj (Set.finite_Iio n)

theorem Represents.ncard_le (h : Represents n slots m) : (keys m).ncard ≤ n := by
  obtain ⟨f, hmaps, hinj⟩ := h.injects
  have hle := Set.ncard_le_ncard_of_injOn f hmaps hinj (Set.finite_Iio n)
  rwa [Set.ncard_Iio_nat] at hle

theorem Represents.ncard_full (h : Represents n slots m) (hs : Sound start n slots)
    (hfull : ∀ i < n, ∃ k b, slots i = .used k b) : (keys m).ncard = n := by
  refine Nat.le_antisymm h.ncard_le ?_
  by_cases hn : n = 0
  · omega
  · obtain ⟨k₀, _⟩ := hfull 0 (Nat.pos_of_ne_zero hn)
    choose g hg using fun i : Nat => show ∃ k : κ, i < n → ∃ b, slots i = .used k b by
      by_cases hi : i < n
      · obtain ⟨k, b, hused⟩ := hfull i hi
        exact ⟨k, fun _ => ⟨b, hused⟩⟩
      · exact ⟨k₀, fun h => absurd h hi⟩
    have hle := Set.ncard_le_ncard_of_injOn (s := Set.Iio n) (t := keys m) g
      (fun i hi => by
        obtain ⟨b, hb⟩ := hg i hi
        show m (g i) ≠ none
        rw [h.present hi hb]
        exact nofun)
      (fun i hi j hj heq => by
        obtain ⟨b, hb⟩ := hg i hi
        obtain ⟨b', hb'⟩ := hg j hj
        exact hs.once i hi j hj (g j) b b' (heq ▸ hb) hb')
      h.finite
    rwa [Set.ncard_Iio_nat] at hle

section
variable [DecidableEq κ]

theorem keys_update_some (m : κ → Option β) (k : κ) (b : β) :
    keys (update m k (some b)) = insert k (keys m) := by
  ext k'
  show update m k (some b) k' ≠ none ↔ k' = k ∨ m k' ≠ none
  by_cases hk : k' = k
  · rw [hk, update_self]
    exact ⟨fun _ => .inl rfl, fun _ => nofun⟩
  · rw [update_of_ne hk]
    exact ⟨.inr, fun h => h.resolve_left hk⟩

theorem keys_update_none (m : κ → Option β) (k : κ) :
    keys (update m k none) = keys m \ {k} := by
  ext k'
  show update m k none k' ≠ none ↔ m k' ≠ none ∧ k' ≠ k
  by_cases hk : k' = k
  · rw [hk, update_self]
    exact ⟨fun h => absurd rfl h, fun h => absurd rfl h.2⟩
  · rw [update_of_ne hk]
    exact ⟨fun h => ⟨h, hk⟩, And.left⟩

theorem ncard_update (h : (keys m).Finite) (k : κ) (b : β) :
    (keys (update m k (some b))).ncard =
      if m k = none then (keys m).ncard + 1 else (keys m).ncard := by
  rw [keys_update_some]
  split_ifs with hk
  · exact Set.ncard_insert_of_notMem (fun hmem => hmem hk) h
  · rw [Set.insert_eq_of_mem (show k ∈ keys m from hk)]

theorem ncard_erase (h : (keys m).Finite) (hk : m k ≠ none) :
    (keys (update m k none)).ncard + 1 = (keys m).ncard := by
  rw [keys_update_none]
  exact Set.ncard_sdiff_singleton_add_one (show k ∈ keys m from hk) h

end
end Probing

/-!
# What a search with linear probing visits

The slots of a table in the order in which the search for a key comes to them; the table need not be
sound.

* `Visits`               the search comes to its `d`-th slot;
* `find_eq_some_iff`     what it finds;
* `lookup`, `lookup_iff`   the value that it finds;
* `Sound.lookup_eq`      in a sound table it is the value of the map;
* `lookup_fill`, `lookup_fill_of_visits`, `lookup_fill_of_not`   after any slot was written.
-/

namespace Probing
open Function

variable {κ β : Type*}

/-- the search for `k` comes to the `d`-th slot after its start: the slots before it are neither free
nor of `k` -/
def Visits (slots : Nat → Slot κ β) (n start : Nat) (k : κ) (d : Nat) : Prop :=
  d < n ∧ ∀ e < d, slots ((start + e) % n) ≠ .free ∧ ∀ b, slots ((start + e) % n) ≠ .used k b

variable {slots : Nat → Slot κ β} {n s : Nat} {k : κ}

theorem Visits.mono {d e : Nat} (h : Visits slots n s k d) (he : e ≤ d) : Visits slots n s k e :=
  ⟨Nat.lt_of_le_of_lt he h.1, fun e' he' => h.2 e' (Nat.lt_of_lt_of_le he' he)⟩

theorem Visits.succ {d : Nat} (h : Visits slots n s k d) (hd : d + 1 < n)
    (hfree : slots ((s + d) % n) ≠ .free) (hkey : ∀ b, slots ((s + d) % n) ≠ .used k b) :
    Visits slots n s k (d + 1) := by
  refine ⟨hd, fun e he => ?_⟩
  rcases Nat.lt_or_eq_of_le (Nat.le_of_lt_succ he) with hlt | rfl
  · exact h.2 e hlt
  · exact ⟨hfree, hkey⟩

variable {start : κ → Nat} {m : κ → Option β}

section
variable [DecidableEq κ]

/-- from the `j`-th slot on, the search finds the key in the first visited slot with it -/
theorem scan_iff {rounds j : Nat} {vacant : Option Nat} (hj : j + rounds = n)
    (h : ∀ e < j, slots ((s + e) % n) ≠ .free ∧ ∀ b, slots ((s + e) % n) ≠ .used k b) (i : Nat) :
    (scan slots n k rounds ((s + j) % n) vacant).1 = some i ↔
      ∃ d b, Visits slots n s k d ∧ (s + d) % n = i ∧ slots i = .used k b := by
  induction rounds generalizing j vacant with
  | zero =>
    obtain rfl : j = n := hj
    refine ⟨fun h => absurd h (Option.some_ne_none i).symm, ?_⟩
    rintro ⟨d, b, hd, rfl, hused⟩
    exact absurd hused ((h d hd.1).2 b)
  | succ rounds ih =>
    have hvisit : Visits slots n s k j := ⟨by omega, h⟩
    -- the slots behind the `j`-th one are visited only past it
    have hpast {d : Nat} {b : β} (hd : Visits slots n s k d) (hused : slots ((s + d) % n) = .used k b)
        (hj : ∀ b, slots ((s + j) % n) ≠ .used k b) :
        j < d := by
      rcases Nat.lt_trichotomy d j with hlt | rfl | hlt
      · exact absurd hused ((h d hlt).2 b)
      · exact absurd hused (hj b)
      · exact hlt
    have hnext (hfree : slots ((s + j) % n) ≠ .free)
        (hkey : ∀ b, slots ((s + j) % n) ≠ .used k b) (vacant : Option Nat) :
        (scan slots n k rounds (((s + j) % n + 1) % n) vacant).1 = some i ↔
          ∃ d b, Visits slots n s k d ∧ (s + d) % n = i ∧ slots i = .used k b := by
      rw [next_pos]
      refine ih (by omega) fun e he => ?_
      rcases Nat.lt_or_eq_of_le (Nat.le_of_lt_succ he) with hlt | rfl
      · exact h e hlt
      · exact ⟨hfree, hkey⟩
    rw [scan]
    cases hslot : slots ((s + j) % n) with
    | free =>
      refine ⟨fun h => absurd h (Option.some_ne_none i).symm, ?_⟩
      rintro ⟨d, b, hd, rfl, hused⟩
      have hlt := hpast hd hused fun b => by rw [hslot]; rintro ⟨⟩
      exact absurd hslot (hd.2 j hlt).1
    | deleted =>
      exact hnext (by rw [hslot]; rintro ⟨⟩) (fun b => by rw [hslot]; rintro ⟨⟩) _
    | used k' b =>
      dsimp only
      split_ifs with hkey
      · subst hkey
        constructor
        · intro hi
          obtain rfl := Option.some.inj hi
          exact ⟨j, b, hvisit, rfl, hslot⟩
        · rintro ⟨d, b', hd, rfl, hused⟩
          rcases Nat.lt_trichotomy d j with hlt | rfl | hlt
          · exact absurd hused ((h d hlt).2 b')
          · rfl
          · exact absurd hslot ((hd.2 j hlt).2 b)
      · refine hnext (by rw [hslot]; rintro ⟨⟩) (fun b' hused => ?_) _
        rw [hslot] at hused
        exact hkey (Slot.used.inj hused).1

def lookup (slots : Nat → Slot κ β) (n start : Nat) (k : κ) : Option β :=
  (find slots n start k).1.bind fun i =>
    match slots i with
    | .used _ b => some b
    | _ => none

end
end Probing
