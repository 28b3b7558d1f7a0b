import Mathlib.Data.List.Dedup
import Mathlib.Data.List.Perm.Subperm
import Mathlib.Data.List.Range
import EkKor.Lib.Runs

/-!
# A reorder buffer with a single pass

Numbers arrive in any order and are handed over as 1, 2, 3, ...  A number that is too early waits in
a buffer of bounded length; after each handed-over number one pass over the buffer, from its first
place to its last, hands over what is next when the pass reaches it.

* `runEnd v xs`    the last number of the longest run `v + 1, v + 2, ...` inside `xs`;
* `scan`           the pass; `scan_clean_iff`: it leaves nothing behind exactly when the numbers it
                   could hand over are in the buffer in order and once (`Ordered`);
* `arrive`         one arrival;
* `all_clean_iff`  a permutation with repetitions of 1, ..., n that never has more than `cap`
                   numbers outstanding is handed over completely, with a clean buffer throughout,
                   exactly when every arrival meets `Fits`.
-/

namespace Reorder
open Runs List

/-! ## runs of consecutive numbers -/

/-- at most `steps` steps of the run `v + 1, v + 2, ...` inside `xs` -/
def walk (xs : List Nat) : Nat → Nat → Nat
  | 0, v => v
  | steps + 1, v => if v + 1 ∈ xs then walk xs steps (v + 1) else v

/-- the last number of the longest run `v + 1, v + 2, ...` inside `xs`, and `v` without one -/
def runEnd (v : Nat) (xs : List Nat) : Nat := walk xs xs.length v

theorem walk_spec (xs : List Nat) (steps v : Nat) :
    v ≤ walk xs steps v ∧ (∀ s, v < s → s ≤ walk xs steps v → s ∈ xs) ∧
      (walk xs steps v + 1 ∈ xs → walk xs steps v = v + steps) := by
  induction steps generalizing v with
  | zero => exact ⟨Nat.le_refl v, fun s h h' => absurd h' (Nat.not_le.mpr h), fun _ => rfl⟩
  | succ steps ih =>
    rw [walk]
    split_ifs with hmem
    · obtain ⟨h1, h2, h3⟩ := ih (v + 1)
      refine ⟨by omega, fun s h h' => ?_, fun h => by rw [h3 h]; omega⟩
      rcases Nat.lt_or_eq_of_le (Nat.succ_le_of_lt h) with hlt | heq
      · exact h2 s hlt h'
      · rw [← heq]
        exact hmem
    · exact ⟨Nat.le_refl v, fun s h h' => absurd h' (Nat.not_le.mpr h), fun h => absurd h hmem⟩

theorem le_runEnd (v : Nat) (xs : List Nat) : v ≤ runEnd v xs := (walk_spec xs _ v).1

variable {xs es : List Nat} {v s cap : Nat} {b : Buffer}

theorem mem_of_le_runEnd (h : v < s) (h' : s ≤ runEnd v xs) : s ∈ xs := (walk_spec xs _ v).2.1 s h h'

/-- `xs` has no room for a longer run -/
theorem run_length_le {m : Nat} (h : ∀ s, v < s → s ≤ m → s ∈ xs) : m - v ≤ xs.length := by
  have hsub : range' (v + 1) (m - v) ⊆ xs := by
    intro s hs
    rw [mem_range'_1] at hs
    exact h s (by omega) (by omega)
  have hlen := (subperm_of_subset nodup_range' hsub).length_le
  rw [length_range'] at hlen
  exact hlen

theorem runEnd_succ_notMem (v : Nat) (xs : List Nat) : runEnd v xs + 1 ∉ xs := by
  intro hmem
  have hend : runEnd v xs = v + xs.length := (walk_spec xs _ v).2.2 hmem
  have hlonger : ∀ s, v < s → s ≤ runEnd v xs + 1 → s ∈ xs := by
    intro s hs hs'
    rcases Nat.lt_or_eq_of_le hs' with hlt | heq
    · exact mem_of_le_runEnd hs (Nat.le_of_lt_succ hlt)
    · rw [heq]
      exact hmem
  have hlen := run_length_le hlonger
  omega

theorem runEnd_unique {m : Nat} (hv : v ≤ m) (h : ∀ s, v < s → s ≤ m → s ∈ xs) (h' : m + 1 ∉ xs) :
    runEnd v xs = m := by
  have hle := le_runEnd v xs
  rcases Nat.lt_trichotomy (runEnd v xs) m with hlt | heq | hgt
  · exact absurd (h _ (by omega) hlt) (runEnd_succ_notMem v xs)
  · exact heq
  · exact absurd (mem_of_le_runEnd (by omega) hgt) h'

/-! ## the pass over the buffer -/

/-- one pass with last number `v`: the last number after it, and what stays -/
def scan : Nat → List Nat → Nat × List Nat
  | v, [] => (v, [])
  | v, x :: xs =>
    if x = v + 1 then scan (v + 1) xs
    else ((scan v xs).1, x :: (scan v xs).2)

def Clean (v : Nat) (xs : List Nat) : Prop := ∀ x ∈ xs, v + 1 < x

/-- the numbers that become next one after the other are in `xs` in this order, each once -/
def Ordered (v : Nat) (xs : List Nat) : Prop :=
  xs.filter (· ≤ runEnd v xs) = range' (v + 1) (runEnd v xs - v)

instance (v : Nat) (xs : List Nat) : Decidable (Ordered v xs) :=
  inferInstanceAs (Decidable (_ = _))

theorem le_scan (v : Nat) (xs : List Nat) : v ≤ (scan v xs).1 := by
  induction xs generalizing v with
  | nil => exact Nat.le_refl v
  | cons x xs ih =>
    rw [scan]
    split_ifs
    · exact Nat.le_of_succ_le (ih (v + 1))
    · exact ih v

theorem count_scan (v : Nat) (xs : List Nat) (s : Nat) :
    xs.count s = (scan v xs).2.count s + if v < s ∧ s ≤ (scan v xs).1 then 1 else 0 := by
  induction xs generalizing v with
  | nil =>
    show 0 = 0 + if v < s ∧ s ≤ v then 1 else 0
    rw [if_neg (by omega)]
  | cons x xs ih =>
    have hle := le_scan (v + 1) xs
    rw [scan]
    by_cases hx : x = v + 1
    · rw [if_pos hx, count_cons, ih (v + 1)]
      simp only [beq_iff_eq]
      split_ifs <;> omega
    · rw [if_neg hx, count_cons, count_cons, ih v]
      dsimp only
      omega

theorem filter_scan (h : ∀ x ∈ (scan v xs).2, (scan v xs).1 < x) :
    xs.filter (· ≤ (scan v xs).1) = range' (v + 1) ((scan v xs).1 - v) := by
  induction xs generalizing v with
  | nil =>
    show [] = range' (v + 1) (v - v)
    rw [Nat.sub_self]
    rfl
  | cons x xs ih =>
    have hle := le_scan (v + 1) xs
    rw [scan] at h ⊢
    by_cases hx : x = v + 1
    · rw [if_pos hx] at h ⊢
      rw [filter_cons_of_pos (by simpa using by omega), ih h, hx,
        show (scan (v + 1) xs).1 - v = (scan (v + 1) xs).1 - (v + 1) + 1 by omega,
        range'_succ]
    · rw [if_neg hx] at h ⊢
      have hhead := h x mem_cons_self
      rw [filter_cons_of_neg (by simpa using hhead)]
      exact ih fun y hy => h y (mem_cons_of_mem x hy)

theorem scan_of_filter {m : Nat} (hv : v ≤ m) (h : xs.filter (· ≤ m) = range' (v + 1) (m - v))
    (hgap : m + 1 ∉ xs) : scan v xs = (m, xs.filter (m < ·)) := by
  induction xs generalizing v with
  | nil =>
    have hlen : m - v = 0 := (range'_eq_nil_iff.mp h.symm)
    rw [show v = m by omega]
    rfl
  | cons x xs ih =>
    have hgap' : m + 1 ∉ xs := fun hmem => hgap (mem_cons_of_mem x hmem)
    rw [scan]
    by_cases hx : x ≤ m
    · rw [filter_cons_of_pos (by simpa using hx)] at h
      obtain ⟨k, hk⟩ : ∃ k, m - v = k + 1 := by
        rcases Nat.eq_zero_or_pos (m - v) with hz | hp
        · rw [hz] at h
          exact absurd h (cons_ne_nil _ _)
        · exact ⟨m - v - 1, by omega⟩
      rw [hk, range'_succ] at h
      obtain ⟨hhead, htail⟩ := List.cons.inj h
      rw [if_pos hhead, filter_cons_of_neg (by simpa using hx)]
      exact ih (by omega) (by rw [htail]; congr 1; omega) hgap'
    · rw [filter_cons_of_neg (by simpa using hx)] at h
      have hne : x ≠ v + 1 := by
        rintro rfl
        exact hgap (by rw [show m = v by omega]; exact mem_cons_self)
      rw [if_neg hne, ih hv h hgap', filter_cons_of_pos (by simpa using hx)]

/-- **Main.** The pass leaves nothing behind that could be handed over, or has been, exactly when
the numbers that become next are in the buffer in order and once. -/
theorem scan_clean_iff (v : Nat) (xs : List Nat) :
    Clean (scan v xs).1 (scan v xs).2 ↔ Ordered v xs := by
  have hle := le_scan v xs
  constructor
  · intro hclean
    have hend : runEnd v xs = (scan v xs).1 := by
      refine runEnd_unique hle ?_ ?_
      · intro s hs hs'
        have hcount := count_scan v xs s
        rw [if_pos ⟨hs, hs'⟩] at hcount
        exact count_pos_iff.mp (by omega)
      · intro hmem
        have hcount := count_scan v xs ((scan v xs).1 + 1)
        rw [if_neg (by omega)] at hcount
        have hpos := count_pos_iff.mpr hmem
        exact absurd (hclean ((scan v xs).1 + 1) (count_pos_iff.mp (by omega)))
          (Nat.lt_irrefl _)
    rw [Ordered, hend]
    exact filter_scan fun x hx => Nat.lt_of_succ_lt (hclean x hx)
  · intro hord
    have hscan := scan_of_filter (le_runEnd v xs) hord (runEnd_succ_notMem v xs)
    rw [hscan]
    intro x hx
    obtain ⟨hmem, hlt⟩ := mem_filter.mp hx
    have hlt' : runEnd v xs < x := of_decide_eq_true hlt
    have hne : x ≠ runEnd v xs + 1 := by
      rintro rfl
      exact runEnd_succ_notMem v xs hmem
    omega

/-! ## arrivals -/

/-- the last number handed over, and the numbers that wait -/
structure Buffer where
  last : Nat
  waiting : List Nat
  deriving DecidableEq, Repr

namespace Buffer

/-- one arrival at a buffer of `cap` places -/
def arrive (cap : Nat) (b : Buffer) (s : Nat) : Buffer :=
  if s ≤ b.last then b
  else if s > b.last + 1 then
    { b with waiting := if b.waiting.length < cap then b.waiting ++ [s] else b.waiting }
  else ⟨(scan s b.waiting).1, (scan s b.waiting).2⟩

/-- the buffer after the arrivals `es` -/
def run (cap : Nat) (es : List Nat) : Buffer := es.foldl (arrive cap) ⟨0, []⟩

theorem run_concat (cap : Nat) (es : List Nat) (s : Nat) :
    run cap (es ++ [s]) = (run cap es).arrive cap s := foldl_concat _ _ _ _

end Buffer

/-- the number that arrives does not wait already, or the buffer is full; and if it is the next one,
the numbers that follow it are in the buffer in order and once -/
def Fits (cap : Nat) (b : Buffer) (s : Nat) : Prop :=
  (b.last + 1 < s → s ∉ b.waiting ∨ cap ≤ b.waiting.length) ∧
    (s = b.last + 1 → Ordered s b.waiting)

instance (cap : Nat) (b : Buffer) (s : Nat) : Decidable (Fits cap b s) :=
  inferInstanceAs (Decidable (_ ∧ _))

def outstanding (es : List Nat) : List Nat := es.dedup.filter (runEnd 0 es < ·)

theorem mem_outstanding : s ∈ outstanding es ↔ s ∈ es ∧ runEnd 0 es < s := by
  rw [outstanding, mem_filter, mem_dedup, decide_eq_true_iff]

/-- the buffer holds exactly what is outstanding -/
structure Exact (es : List Nat) (b : Buffer) : Prop where
  last : b.last = runEnd 0 es
  nodup : b.waiting.Nodup
  waiting : ∀ s, s ∈ b.waiting ↔ s ∈ outstanding es

theorem Exact.clean (h : Exact es b) : Clean b.last b.waiting := by
  intro s hs
  obtain ⟨hmem, hlt⟩ := mem_outstanding.mp ((h.waiting s).mp hs)
  have hne : s ≠ runEnd 0 es + 1 := by
    rintro rfl
    exact runEnd_succ_notMem 0 es hmem
  rw [h.last]
  omega

theorem runEnd_concat_other (h : s ≠ runEnd 0 es + 1) : runEnd 0 (es ++ [s]) = runEnd 0 es := by
  refine runEnd_unique (Nat.zero_le _) (fun t ht ht' => ?_) fun hmem => ?_
  · exact mem_append_left _ (mem_of_le_runEnd ht ht')
  · rcases mem_append.mp hmem with hmem | hmem
    · exact runEnd_succ_notMem 0 es hmem
    · exact h (mem_singleton.mp hmem).symm

theorem mem_outstanding_concat (h : s ≠ runEnd 0 es + 1) (t : Nat) :
    t ∈ outstanding (es ++ [s]) ↔ t ∈ outstanding es ∨ t = s ∧ runEnd 0 es < s := by
  rw [mem_outstanding, mem_outstanding, runEnd_concat_other h, mem_append,
    mem_singleton]
  constructor
  · rintro ⟨ht | rfl, hlt⟩
    · exact .inl ⟨ht, hlt⟩
    · exact .inr ⟨rfl, hlt⟩
  · rintro (⟨ht, hlt⟩ | ⟨rfl, hlt⟩)
    · exact ⟨.inl ht, hlt⟩
    · exact ⟨.inr rfl, hlt⟩

theorem Exact.stale (h : Exact es b) (hs : s ≤ b.last) : Exact (es ++ [s]) b := by
  have hlast := h.last
  have hne : s ≠ runEnd 0 es + 1 := by omega
  refine ⟨h.last.trans (runEnd_concat_other hne).symm, h.nodup, fun t => ?_⟩
  rw [h.waiting t, mem_outstanding_concat hne]
  exact ⟨.inl, fun ht => ht.resolve_right fun hh => by omega⟩

theorem Exact.early (h : Exact es b) (hs : b.last + 1 < s)
    (hcap : (outstanding (es ++ [s])).length ≤ cap) (hfits : s ∉ b.waiting ∨ cap ≤ b.waiting.length) :
    Exact (es ++ [s])
      { b with waiting := if b.waiting.length < cap then b.waiting ++ [s] else b.waiting } := by
  have hlast := h.last
  have hne : s ≠ runEnd 0 es + 1 := by omega
  have hmem := mem_outstanding_concat hne
  refine ⟨h.last.trans (runEnd_concat_other hne).symm, ?_, fun t => ?_⟩
  · split_ifs with hroom
    · have hnew : s ∉ b.waiting := hfits.resolve_right (by omega)
      exact nodup_append.mpr ⟨h.nodup, nodup_singleton s, fun x hx y hy hxy =>
        hnew (by rw [← mem_singleton.mp hy, ← hxy]; exact hx)⟩
    · exact h.nodup
  · dsimp only
    rw [hmem t, ← h.waiting t]
    split_ifs with hroom
    · rw [mem_append, mem_singleton]
      exact or_congr_right (iff_self_and.mpr fun _ => by omega)
    · -- a full buffer drops `s`, which must then wait already: else too many are outstanding
      refine ⟨.inl, fun ht => ht.elim id ?_⟩
      rintro ⟨rfl, hlt⟩
      by_contra hnew
      have hsub : t :: b.waiting ⊆ outstanding (es ++ [t]) := by
        intro x hx
        rcases mem_cons.mp hx with rfl | hx
        · exact (hmem x).mpr (.inr ⟨rfl, hlt⟩)
        · exact (hmem x).mpr (.inl ((h.waiting x).mp hx))
      have hlen := (subperm_of_subset (nodup_cons.mpr ⟨hnew, h.nodup⟩) hsub).length_le
      rw [length_cons] at hlen
      omega

theorem Exact.next (h : Exact es b) (hs : s = b.last + 1) (hord : Ordered s b.waiting) :
    Exact (es ++ [s]) ⟨(scan s b.waiting).1, (scan s b.waiting).2⟩ := by
  have hlast := h.last
  have hle := le_runEnd s b.waiting
  have hscan := scan_of_filter hle hord (runEnd_succ_notMem s b.waiting)
  have hwaiting : ∀ t, t ∈ b.waiting ↔ t ∈ es ∧ runEnd 0 es < t := fun t => by
    rw [h.waiting t, mem_outstanding]
  have hend : runEnd 0 (es ++ [s]) = runEnd s b.waiting := by
    refine runEnd_unique (Nat.zero_le _) (fun t ht ht' => ?_) fun hmem => ?_
    · rcases Nat.lt_trichotomy t s with hlt | heq | hgt
      · exact mem_append_left _ (mem_of_le_runEnd ht (by omega))
      · exact mem_append_right _ (mem_singleton.mpr heq)
      · exact mem_append_left _ ((hwaiting t).mp (mem_of_le_runEnd hgt ht')).1
    · rcases mem_append.mp hmem with hmem | hmem
      · exact runEnd_succ_notMem s b.waiting ((hwaiting _).mpr ⟨hmem, by omega⟩)
      · have heq := mem_singleton.mp hmem
        omega
  rw [hscan]
  refine ⟨hend.symm, h.nodup.filter _, fun t => ?_⟩
  rw [mem_outstanding, hend, mem_filter, hwaiting t, decide_eq_true_iff, mem_append,
    mem_singleton]
  constructor
  · rintro ⟨⟨ht, _⟩, hlt⟩
    exact ⟨.inl ht, hlt⟩
  · rintro ⟨ht | rfl, hlt⟩
    · exact ⟨⟨ht, by omega⟩, hlt⟩
    · omega

theorem Exact.arrive (h : Exact es b) (hcap : (outstanding (es ++ [s])).length ≤ cap)
    (hfits : Fits cap b s) : Exact (es ++ [s]) (b.arrive cap s) := by
  unfold Buffer.arrive
  by_cases hstale : s ≤ b.last
  · rw [if_pos hstale]
    exact h.stale hstale
  · by_cases hearly : s > b.last + 1
    · rw [if_neg hstale, if_pos hearly]
      exact h.early hearly hcap (hfits.1 hearly)
    · have hnext : s = b.last + 1 := by omega
      rw [if_neg hstale, if_neg hearly]
      exact h.next hnext (hfits.2 hnext)

/-! ## a number that waits twice -/

theorem twice_stuck {t : Nat} (hclean : Clean (b.arrive cap t).last (b.arrive cap t).waiting)
    (hlast : b.last < s) (htwice : 2 ≤ b.waiting.count s) :
    (b.arrive cap t).last < s ∧ 2 ≤ (b.arrive cap t).waiting.count s := by
  unfold Buffer.arrive at hclean ⊢
  split_ifs at hclean ⊢ with hstale hearly hroom
  · exact ⟨hlast, htwice⟩
  · refine ⟨hlast, ?_⟩
    rw [count_append]
    omega
  · exact ⟨hlast, htwice⟩
  · have hcount := count_scan t b.waiting s
    have hleft : s ∈ (scan t b.waiting).2 := by
      refine count_pos_iff.mp ?_
      split_ifs at hcount <;> omega
    have hgt : (scan t b.waiting).1 + 1 < s := hclean s hleft
    rw [if_neg (by omega)] at hcount
    exact ⟨by dsimp only; omega, by dsimp only; omega⟩

def CleanRun (cap : Nat) (es : List Nat) : Prop :=
  ∀ pre, pre <+: es → Clean (Buffer.run cap pre).last (Buffer.run cap pre).waiting

theorem twice_stuck_run {rest : List Nat} (hclean : CleanRun cap (es ++ rest))
    (hlast : (Buffer.run cap es).last < s) (htwice : 2 ≤ (Buffer.run cap es).waiting.count s) :
    (Buffer.run cap (es ++ rest)).last < s ∧
      2 ≤ (Buffer.run cap (es ++ rest)).waiting.count s := by
  induction rest using List.reverseRecOn with
  | nil =>
    rw [append_nil]
    exact ⟨hlast, htwice⟩
  | append_singleton rest t ih =>
    rw [← append_assoc] at hclean ⊢
    have hbefore := prefix_append (es ++ rest) [t]
    obtain ⟨h1, h2⟩ := ih fun pre hp => hclean pre (hp.trans hbefore)
    have hafter := hclean _ (prefix_refl _)
    rw [Buffer.run_concat] at hafter ⊢
    exact twice_stuck hafter h1 h2

/-! ## runs -/

theorem exact_nil : Exact [] ⟨0, []⟩ :=
  ⟨rfl, nodup_nil, fun _ => iff_of_false not_mem_nil fun h =>
    not_mem_nil (mem_outstanding.mp h).1⟩

theorem exact_run (hout : ∀ pre, pre <+: es → (outstanding pre).length ≤ cap)
    (hfits : EveryStep (fun pre s => Fits cap (Buffer.run cap pre) s) es) (pre : List Nat)
    (hp : pre <+: es) : Exact pre (Buffer.run cap pre) := by
  have hsteps : EveryStep (fun pre s => Fits cap (Buffer.run cap pre) s ∧
      (outstanding (pre ++ [s])).length ≤ cap) pre :=
    fun pre' s hp' => ⟨hfits pre' s (hp'.trans hp), hout _ (hp'.trans hp)⟩
  refine history_induction (I := fun pre => Exact pre (Buffer.run cap pre)) exact_nil
    (fun pre' s ih hs => ?_) pre hsteps
  rw [Buffer.run_concat]
  exact ih.arrive hs.2 hs.1

/-- **Main.** Any arrival order of 1, ..., n, with any repetitions, that never has more than `cap`
numbers outstanding: all n are handed over and the buffer is clean after every arrival, exactly when
every arrival fits. -/
theorem all_clean_iff {n : Nat} (hmax : ∀ s ∈ es, s ≤ n) (hall : ∀ s, 1 ≤ s → s ≤ n → s ∈ es)
    (hout : ∀ pre, pre <+: es → (outstanding pre).length ≤ cap) :
    n ≤ (Buffer.run cap es).last ∧ CleanRun cap es ↔
      EveryStep (fun pre s => Fits cap (Buffer.run cap pre) s) es := by
  constructor
  · rintro ⟨hlast, hclean⟩ pre s hp
    have hafter := hclean (pre ++ [s]) hp
    rw [Buffer.run_concat, Buffer.arrive] at hafter
    constructor
    · intro hearly
      by_contra hno
      push Not at hno
      obtain ⟨hwaits, hroom⟩ := hno
      have harrive : (Buffer.run cap (pre ++ [s])) =
          { Buffer.run cap pre with waiting := (Buffer.run cap pre).waiting ++ [s] } := by
        rw [Buffer.run_concat, Buffer.arrive, if_neg (by omega), if_pos hearly, if_pos hroom]
      have htwice : 2 ≤ (Buffer.run cap (pre ++ [s])).waiting.count s := by
        have hpos := count_pos_iff.mpr hwaits
        rw [harrive]
        rw [count_append, count_singleton_self]
        omega
      have hlater : (Buffer.run cap (pre ++ [s])).last < s := by
        rw [harrive]
        exact Nat.lt_of_succ_lt hearly
      obtain ⟨rest, rfl⟩ := hp
      have hstuck := (twice_stuck_run hclean hlater htwice).1
      have hs := hmax s (by simp)
      omega
    · rintro rfl
      rw [if_neg (by omega), if_neg (by omega)] at hafter
      exact (scan_clean_iff _ _).mp hafter
  · intro hfits
    refine ⟨?_, fun pre hp => (exact_run hout hfits pre hp).clean⟩
    rw [(exact_run hout hfits es (prefix_refl es)).last]
    refine Nat.le_of_eq (runEnd_unique (Nat.zero_le n) (fun s hs hs' => hall s hs hs') ?_).symm
    intro hmem
    have hle := hmax _ hmem
    omega

end Reorder
