import Mathlib.Data.List.Induction
import Mathlib.Algebra.BigOperators.Group.List.Basic
import Mathlib.Algebra.GroupWithZero.Nat

/-!
# Absorbing a message in blocks, but not its last block

* `absorb`       blocks are absorbed while more than one block is left;
* `absorb_append`   the rest of a first part is absorbed with the second part;
* `absorb_eq_foldl` the blocks before the last one, one after the other;
* `foldl_range_ne`  blocks that differ in one place only;
* `update`       the incremental version, which absorbs a buffer as soon as it is full;
* `update_all`   the state after all chunks: the last block is held back, except where a short chunk
                 fills the buffer exactly.
-/

namespace HeldBack
open List

variable {σ α : Type*} (f : σ → List α → σ) (n : Nat)

/-! ## absorbing -/

def absorb [NeZero n] (v : σ) (l : List α) : σ × List α :=
  if n < l.length then absorb (f v (l.take n)) (l.drop n) else (v, l)
termination_by l.length
decreasing_by
  rw [length_drop]
  have := Nat.pos_of_neZero n
  omega

variable {f n} [NeZero n] {v : σ} {a b l r : List α}

theorem absorb_of_le (h : l.length ≤ n) : absorb f n v l = (v, l) := by
  rw [absorb, if_neg (Nat.not_lt.mpr h)]

theorem absorb_of_lt (h : n < l.length) :
    absorb f n v l = absorb f n (f v (l.take n)) (l.drop n) := by
  rw [absorb, if_pos h]

theorem absorb_append : absorb f n v (a ++ b) =
    absorb f n (absorb f n v a).1 ((absorb f n v a).2 ++ b) := by
  induction v, a using absorb.induct f n with
  | case1 v a h ih =>
    have hlt : n < (a ++ b).length := by
      rw [length_append]
      omega
    rw [absorb_of_lt hlt, absorb_of_lt h, take_append_of_le_length (Nat.le_of_lt h),
      drop_append_of_le_length (Nat.le_of_lt h), ih]
  | case2 v a h => rw [absorb_of_le (Nat.not_lt.mp h)]

theorem absorb_full (hr : r.length = n) (hb : b ≠ []) :
    absorb f n v (r ++ b) = absorb f n (f v r) b := by
  have hlt : n < (r ++ b).length := by
    have := length_pos_iff.mpr hb
    rw [length_append]
    omega
  rw [absorb_of_lt hlt, take_left' hr, drop_left' hr]

/-- what is held back: at most a block, of the length that remains -/
structure Rest (n : Nat) (l r : List α) : Prop where
  suffix : r <:+ l
  le : r.length ≤ n
  mod : r.length % n = l.length % n
  pos : l ≠ [] → r ≠ []

theorem absorb_rest (v : σ) (l : List α) : Rest n l (absorb f n v l).2 := by
  induction v, l using absorb.induct f n with
  | case1 v l h ih =>
    rw [absorb_of_lt h]
    refine ⟨ih.suffix.trans (drop_suffix n l), ih.le, ?_, fun _ => ih.pos fun hnil => ?_⟩
    · rw [ih.mod, length_drop, ← Nat.mod_eq_sub_mod (Nat.le_of_lt h)]
    · have hle := drop_eq_nil_iff.mp hnil
      omega
  | case2 v l h =>
    rw [absorb_of_le (Nat.not_lt.mp h)]
    exact ⟨suffix_refl l, Nat.not_lt.mp h, rfl, fun hl => hl⟩

theorem absorb_replicate {a : α} (h : f v (List.replicate n a) = v) (k : Nat) :
    (absorb f n v (List.replicate k a)).1 = v := by
  induction k using Nat.strongRecOn with
  | ind k ih =>
    by_cases hk : n < (List.replicate k a).length
    · have hpos := Nat.pos_of_neZero n
      rw [length_replicate] at hk
      rw [absorb_of_lt (by rwa [length_replicate]), take_replicate,
        drop_replicate, Nat.min_eq_left (Nat.le_of_lt hk), h]
      exact ih (k - n) (by omega)
    · rw [absorb_of_le (Nat.not_lt.mp hk)]

/-! ## blocks -/

omit [NeZero n] in
variable (n) in
def block (i : Nat) (l : List α) : List α := (l.drop (n * i)).take n

omit [NeZero n] in
theorem block_zero : block n 0 l = l.take n := rfl

omit [NeZero n] in
theorem block_succ (i : Nat) : block n (i + 1) l = block n i (l.drop n) := by
  unfold block
  rw [drop_drop, Nat.mul_succ, Nat.add_comm]

theorem absorb_eq_foldl (v : σ) (l : List α) : absorb f n v l =
    ((List.range ((l.length - 1) / n)).foldl (fun v i => f v (block n i l)) v,
      block n ((l.length - 1) / n) l) := by
  have hn := Nat.pos_of_neZero n
  induction v, l using absorb.induct f n with
  | case1 v l h ih =>
    have hcount : (l.length - 1) / n = ((l.drop n).length - 1) / n + 1 := by
      rw [length_drop, ← Nat.add_div_right _ hn]
      congr 1
      omega
    rw [absorb_of_lt h, ih, hcount, range_succ_eq_map, foldl_cons, foldl_map,
      block_succ, block_zero]
    simp only [block_succ]
  | case2 v l h =>
    have hle := Nat.not_lt.mp h
    have hcount : (l.length - 1) / n = 0 := Nat.div_eq_of_lt (by omega)
    rw [absorb_of_le hle, hcount, block_zero, take_of_length_le hle]
    rfl

theorem foldl_range_ne {g g' : σ → Nat → σ} {i : Nat}
    (hinj : ∀ j, Function.Injective (g · j)) (hsame : ∀ v j, j ≠ i → g v j = g' v j)
    (hne : ∀ v, g v i ≠ g' v i) (v : σ) (k : Nat) :
    (List.range k).foldl g v = (List.range k).foldl g' v ↔ k ≤ i := by
  induction k with
  | zero => exact iff_of_true rfl (Nat.zero_le i)
  | succ k ih =>
    rw [range_succ, foldl_append, foldl_append]
    show g _ k = g' _ k ↔ k + 1 ≤ i
    rcases Nat.lt_trichotomy k i with hlt | rfl | hgt
    · rw [ih.mpr (Nat.le_of_lt hlt), hsame _ k (Nat.ne_of_lt hlt)]
      exact iff_of_true rfl hlt
    · rw [ih.mpr (Nat.le_refl k)]
      exact iff_of_false (hne _) (Nat.not_succ_le_self k)
    · rw [← hsame _ k (Nat.ne_of_gt hgt)]
      exact iff_of_false (fun h => absurd (ih.mp (hinj k h)) (Nat.not_le.mpr hgt)) (by omega)

/-! ## chunks -/

variable (f n)

/-- a chunk: a buffer that is not empty is filled first, and absorbed when it is full -/
def update (s : σ × List α) (c : List α) : σ × List α :=
  if s.2 ≠ [] then
    if c.length < n - s.2.length then (s.1, s.2 ++ c)
    else absorb f n (f s.1 (s.2 ++ c.take (n - s.2.length))) (c.drop (n - s.2.length))
  else absorb f n s.1 c

omit [NeZero n] in
def flush (s : σ × List α) : σ × List α := (f s.1 s.2, [])

omit [NeZero n] in
/-- the last block is held back: there is none, or it is not full, or the last chunk has a whole
block -/
def Held (lens : List Nat) : Prop := lens.sum = 0 ∨ lens.sum % n ≠ 0 ∨ n ≤ lens.getLastD 0

instance instDecidableHeld (lens : List Nat) : Decidable (Held n lens) := by
  unfold Held
  infer_instance

/-- the last block is held back exactly in this case, else it is absorbed -/
structure After (lens : List Nat) (v : σ) (m : List α) (s : σ × List α) : Prop where
  held : Held n lens → s = absorb f n v m
  flushed : ¬Held n lens → s = flush f (absorb f n v m)

variable {f n}

omit [NeZero n] in
theorem held_concat {lens : List Nat} {k : Nat} :
    Held n (lens ++ [k]) ↔ lens.sum + k = 0 ∨ (lens.sum + k) % n ≠ 0 ∨ n ≤ k := by
  unfold Held
  rw [sum_append, sum_singleton, getLastD_concat]

variable {lens : List Nat} {m c : List α}

theorem update_held (hm : m.length = lens.sum) (c : List α) :
    After f n (lens ++ [c.length]) v (m ++ c) (update f n (absorb f n v m) c) := by
  have hrest := absorb_rest (f := f) (n := n) v m
  have happend := absorb_append (f := f) (n := n) (v := v) (a := m) (b := c)
  have hmod := hrest.mod
  have hle := hrest.le
  rw [hm] at hmod
  have hzero : lens.sum = 0 ↔ (absorb f n v m).2 = [] := by
    rw [← hm, length_eq_zero_iff]
    refine ⟨fun hnil => ?_, fun hnil => not_imp_not.mp hrest.pos hnil⟩
    rw [← suffix_nil, ← hnil]
    exact hrest.suffix
  generalize absorb f n v m = s at *
  obtain ⟨v', r⟩ := s
  dsimp only at *
  have hsum : (lens.sum + c.length) % n = (r.length + c.length) % n := by
    rw [Nat.add_mod, ← hmod, ← Nat.add_mod]
  have hheld : Held n (lens ++ [c.length]) ↔
      lens.sum + c.length = 0 ∨ (r.length + c.length) % n ≠ 0 ∨ n ≤ c.length := by
    rw [held_concat, hsum]
  unfold update
  by_cases hempty : r = []
  · -- nothing is held
    rw [if_neg (not_not.mpr hempty)]
    have hheld : Held n (lens ++ [c.length]) := by
      rw [hheld, hempty, length_nil, Nat.zero_add]
      by_cases hsmall : c.length < n
      · rw [Nat.mod_eq_of_lt hsmall]
        have := hzero.mpr hempty
        omega
      · exact .inr (.inr (Nat.not_lt.mp hsmall))
    refine ⟨fun _ => ?_, fun hnot => absurd hheld hnot⟩
    rw [happend, hempty, nil_append]
  rw [if_pos hempty]
  have hpos := length_pos_iff.mpr hempty
  rw [← hzero] at hempty
  by_cases hshort : c.length < n - r.length
  · -- the chunk does not fill the block
    have hlt : (r ++ c).length ≤ n := by
      rw [length_append]
      omega
    rw [if_pos hshort]
    have hheld : Held n (lens ++ [c.length]) := by
      rw [hheld, Nat.mod_eq_of_lt (by omega)]
      omega
    refine ⟨fun _ => ?_, fun hnot => absurd hheld hnot⟩
    rw [happend, absorb_of_le hlt]
  rw [if_neg hshort]
  have hfull : (r ++ c.take (n - r.length)).length = n := by
    rw [length_append, length_take]
    omega
  by_cases hexact : c.length = n - r.length
  · -- it fills the block exactly
    have hblock : (r ++ c).length = n := by
      rw [length_append]
      omega
    have hnot : ¬Held n (lens ++ [c.length]) := by
      rw [hheld, hexact, Nat.add_sub_cancel' hle, Nat.mod_self]
      omega
    refine ⟨fun h => absurd h hnot, fun _ => ?_⟩
    rw [happend, absorb_of_le (Nat.le_of_eq hblock), ← hexact, take_length, drop_length,
      absorb_of_le (Nat.zero_le n)]
    rfl
  · have hmore : c.drop (n - r.length) ≠ [] := fun hnil => by
      have := drop_eq_nil_iff.mp hnil
      omega
    have hheld : Held n (lens ++ [c.length]) := by
      rw [hheld]
      by_cases hlarge : n ≤ c.length
      · exact .inr (.inr hlarge)
      · rw [Nat.mod_eq_sub_mod (by omega), Nat.mod_eq_of_lt (by omega)]
        omega
    refine ⟨fun _ => ?_, fun hnot => absurd hheld hnot⟩
    rw [happend, ← absorb_full hfull hmore, append_assoc, take_append_drop]

theorem rest_full (v : σ) (hm : m.length = lens.sum) (hnot : ¬Held n lens) :
    (absorb f n v m).2.length = n := by
  have hrest := absorb_rest (f := f) (n := n) v m
  unfold Held at hnot
  rw [not_or, not_or, not_not] at hnot
  obtain ⟨hsum, hmod, -⟩ := hnot
  have hle := hrest.le
  have hzero := hrest.mod
  have hpos := length_pos_iff.mpr (hrest.pos fun hnil => hsum (by rw [← hm, hnil]; rfl))
  rw [hm, hmod] at hzero
  by_contra hne
  rw [Nat.mod_eq_of_lt (by omega)] at hzero
  omega

theorem update_flushed (hm : m.length = lens.sum) (hnot : ¬Held n lens) (c : List α) :
    After f n (lens ++ [c.length]) v (m ++ c) (update f n (flush f (absorb f n v m)) c) := by
  have hn := Nat.pos_of_neZero n
  have hfull := rest_full (f := f) v hm hnot
  unfold Held at hnot
  rw [not_or, not_or, not_not] at hnot
  obtain ⟨hsum, hmod, -⟩ := hnot
  have happend := absorb_append (f := f) (n := n) (v := v) (a := m) (b := c)
  have hheld : Held n (lens ++ [c.length]) ↔ c ≠ [] := by
    rw [held_concat, Nat.add_mod, hmod, Nat.zero_add, Nat.mod_mod, ← length_pos_iff]
    by_cases hsmall : c.length < n
    · rw [Nat.mod_eq_of_lt hsmall]
      omega
    · omega
  have hupdate : update f n (flush f (absorb f n v m)) c =
      absorb f n (f (absorb f n v m).1 (absorb f n v m).2) c := if_neg (not_not.mpr rfl)
  rw [hupdate]
  refine ⟨fun h => ?_, fun h => ?_⟩
  · rw [happend, absorb_full hfull (hheld.mp h)]
  · rw [hheld, not_not] at h
    rw [happend, h, append_nil, absorb_of_le (Nat.le_of_eq hfull),
      absorb_of_le (Nat.zero_le n)]
    rfl

/-- **Main.** The state after all chunks. -/
theorem update_all (v : σ) (chunks : List (List α)) :
    After f n (chunks.map List.length) v chunks.flatten (chunks.foldl (update f n) (v, [])) := by
  induction chunks using List.reverseRecOn with
  | nil => exact ⟨fun _ => (absorb_of_le (Nat.zero_le n)).symm, fun h => absurd (.inl rfl) h⟩
  | append_singleton chunks c ih =>
    rw [foldl_concat, map_append, flatten_append, flatten_singleton]
    by_cases hheld : Held n (chunks.map List.length)
    · rw [ih.held hheld]
      exact update_held length_flatten c
    · rw [ih.flushed hheld]
      exact update_flushed length_flatten hheld c

end HeldBack
