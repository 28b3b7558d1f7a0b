import EkKor.Lib.Keyed
import Mathlib.Data.List.Induction
import Mathlib.Data.List.Perm.Subperm

/-!
# Tables with a count of eight bits

An array of 256 rows, found by a key of eight bits, and a count of eight bits that wraps to 0 when
the last row is taken.

* `Table`             the rows that the count shows;
* `Table.update`      the row of a key is found or created, and changed;
* `row`               the row that a key has after updates, in a table that is large enough;
* `run_rows`          after updates, the table has the rows of those behind the last wrap; all keys
                      occur before it.
-/

namespace EightBit
open Keyed List

variable {α : Type*}

/-- the rows of an array that its count shows -/
structure Table (α : Type*) where
  rows : List α
  bound : rows.length < 256

def Table.empty : Table α := ⟨[], Nat.zero_lt_succ 255⟩

def Table.shown (rows : List α) : Table α where
  rows := rows.take (rows.length % 256)
  bound := by
    rw [length_take]
    exact Nat.lt_of_le_of_lt (Nat.min_le_left _ _) (Nat.mod_lt _ (by decide))

theorem rows_shown (rows : List α) :
    (Table.shown rows).rows = rows.take (rows.length % 256) := rfl

def Table.update (key : α → UInt8) (fresh : UInt8 → α) (t : Table α) (k : UInt8) (f : α → α) :
    Table α :=
  Table.shown (upsert key fresh f t.rows k)

/-! ## eight-bit keys -/

theorem mem_of_nodup {l : List UInt8} (hn : l.Nodup) (hlen : 256 ≤ l.length) (k : UInt8) :
    k ∈ l := by
  have hmap : (l.map UInt8.toNat).Nodup := hn.map fun _ _ => UInt8.toNat_inj.mp
  have hsub : l.map UInt8.toNat ⊆ List.range 256 := by
    intro n hmem
    obtain ⟨b, _, rfl⟩ := mem_map.mp hmem
    exact mem_range.mpr b.toNat_lt
  have hperm := (hmap.subperm hsub).perm_of_length_le
    (by rw [length_range, length_map]; exact hlen)
  obtain ⟨b, hb, heq⟩ := mem_map.mp (hperm.mem_iff.mpr (mem_range.mpr k.toNat_lt))
  rwa [UInt8.toNat_inj.mp heq] at hb

theorem length_of_all {l : List UInt8} (h : ∀ k, k ∈ l) : 256 ≤ l.length := by
  have hsub : List.range 256 ⊆ l.map UInt8.toNat := by
    intro n hn
    refine mem_map.mpr ⟨UInt8.ofNat n, h _, ?_⟩
    exact Nat.mod_eq_of_lt (mem_range.mp hn)
  have hlen := (nodup_range.subperm hsub).length_le
  rwa [length_range, length_map] at hlen

/-! ## one update -/

section
variable {key : α → UInt8} {fresh : UInt8 → α}

theorem update_cases (t : Table α) (k : UInt8) (f : α → α) :
    (t.update key fresh k f).rows = upsert key fresh f t.rows k ∨
      (t.update key fresh k f).rows = [] ∧ 256 ≤ (upsert key fresh f t.rows k).length := by
  have hlen : (upsert key fresh f t.rows k).length ≤ 256 := by
    have hbound := t.bound
    unfold upsert
    split
    · rw [length_modify]
      exact Nat.le_of_lt hbound
    · rw [length_append]
      exact hbound
  unfold Table.update
  rw [rows_shown]
  by_cases hfull : 256 ≤ (upsert key fresh f t.rows k).length
  · refine .inr ⟨?_, hfull⟩
    rw [Nat.le_antisymm hlen hfull]
    exact take_zero
  · rw [Nat.mod_eq_of_lt (Nat.lt_of_not_le hfull)]
    exact .inl take_length

/-! ## runs -/

abbrev Change (α : Type*) := UInt8 × (α → α)

def row (fresh : UInt8 → α) (k : UInt8) (cs : List (Change α)) : Option α :=
  cs.foldl (fun r c => if c.1 = k then some (c.2 (r.getD (fresh k))) else r) none

theorem row_concat (k : UInt8) (cs : List (Change α)) (c : Change α) :
    row fresh k (cs ++ [c]) =
      if c.1 = k then some (c.2 ((row fresh k cs).getD (fresh k))) else row fresh k cs :=
  foldl_concat ..

theorem row_eq (k : UInt8) (cs : List (Change α)) : row fresh k cs =
    if ∃ c ∈ cs, c.1 = k then
      some ((cs.filter fun c => c.1 = k).foldl (fun a c => c.2 a) (fresh k)) else none := by
  induction cs using List.reverseRecOn with
  | nil =>
    rfl
  | append_singleton cs c ih =>
    rw [row_concat, ih, filter_append]
    by_cases hk : c.1 = k
    · have hlast : ∃ c' ∈ cs ++ [c], c'.1 = k := ⟨c, mem_concat_self, hk⟩
      rw [if_pos hk, if_pos hlast, filter_cons, decide_eq_true hk, if_pos rfl,
        filter_nil, foldl_concat]
      by_cases hex : ∃ c ∈ cs, c.1 = k
      · rw [if_pos hex]
        rfl
      · have hnone : (cs.filter fun c => c.1 = k) = [] :=
          filter_eq_nil_iff.mpr fun c' hc' he => hex ⟨c', hc', of_decide_eq_true he⟩
        rw [if_neg hex, hnone]
        rfl
    · have hsame : (∃ c' ∈ cs ++ [c], c'.1 = k) ↔ ∃ c' ∈ cs, c'.1 = k := by
        constructor
        · rintro ⟨c', hc', he⟩
          cases mem_append.mp hc' with
          | inl hc' => exact ⟨c', hc', he⟩
          | inr hc' => exact absurd (mem_singleton.mp hc' ▸ he) hk
        · rintro ⟨c', hc', he⟩
          exact ⟨c', mem_append_left _ hc', he⟩
      rw [if_neg hk, filter_cons, decide_eq_false hk, if_neg Bool.false_ne_true,
        filter_nil, append_nil]
      simp only [hsame]

def run (key : α → UInt8) (fresh : UInt8 → α) (cs : List (Change α)) : Table α :=
  cs.foldl (fun t c => t.update key fresh c.1 c.2) Table.empty

theorem run_concat (cs : List (Change α)) (c : Change α) :
    run key fresh (cs ++ [c]) = (run key fresh cs).update key fresh c.1 c.2 :=
  foldl_concat ..

/-- **Main.** The changes behind the last wrap are those that the table shows, and before it every
key was changed. -/
theorem run_rows (key : α → UInt8) (fresh : UInt8 → α) (hfresh : ∀ k, key (fresh k) = k)
    (cs : List (Change α)) (hkey : ∀ c ∈ cs, ∀ a, key (c.2 a) = key a) : ∃ old new, cs = old ++ new ∧
      (old = [] ∨ ∀ k, ∃ c ∈ old, c.1 = k) ∧ ((run key fresh cs).rows.map key).Nodup ∧
      ∀ k, lookup key (run key fresh cs).rows k = row fresh k new := by
  induction cs using List.reverseRecOn with
  | nil => exact ⟨[], [], rfl, .inl rfl, nodup_nil, fun _ => rfl⟩
  | append_singleton cs c ih =>
    obtain ⟨old, new, rfl, hold, hnodup, hrows⟩ :=
      ih fun c' hc' => hkey c' (mem_append_left _ hc')
    have hc := hkey c mem_concat_self
    have hlookup := lookup_upsert (f := c.2) hc hfresh (run key fresh (old ++ new)).rows c.1
    have hkeys : ((upsert key fresh c.2 (run key fresh (old ++ new)).rows c.1).map key).Nodup := by
      rw [map_upsert hc hfresh]
      split_ifs with hmem
      · exact hnodup
      · rw [nodup_append_comm]
        exact nodup_cons.mpr ⟨hmem, hnodup⟩
    rw [run_concat]
    cases update_cases (run key fresh (old ++ new)) c.1 c.2 with
    | inl heq =>
      rw [heq]
      refine ⟨old, new ++ [c], append_assoc .., hold, hkeys, fun k => ?_⟩
      rw [hlookup, row_concat, hrows, hrows]
      by_cases hk : c.1 = k
      · rw [if_pos hk, if_pos hk, hk]
      · rw [if_neg hk, if_neg hk]
    | inr hfull =>
      rw [hfull.1]
      refine ⟨old ++ new ++ [c], [], (append_nil _).symm, .inr fun k => ?_, nodup_nil,
        fun _ => rfl⟩
      have hmem := mem_of_nodup hkeys (by rw [length_map]; exact hfull.2) k
      rw [map_upsert hc hfresh] at hmem
      by_cases hk : c.1 = k
      · exact ⟨c, mem_concat_self, hk⟩
      · have hfound : lookup key (run key fresh (old ++ new)).rows k ≠ none := by
          rw [Ne, lookup_eq_none, not_not]
          split_ifs at hmem with hin
          · exact hmem
          · cases mem_append.mp hmem with
            | inl hmem => exact hmem
            | inr hmem => exact absurd (mem_singleton.mp hmem).symm hk
        rw [hrows, row_eq] at hfound
        split_ifs at hfound with hex
        · obtain ⟨c', hc', he⟩ := hex
          exact ⟨c', mem_append_left _ (mem_append_right _ hc'), he⟩
        · exact absurd rfl hfound

theorem exists_lookup_none (key : α → UInt8) (t : Table α) :
    ∃ k, lookup key t.rows k = none := by
  by_contra hnone
  have hall : ∀ k, k ∈ t.rows.map key := fun k =>
    by_contra fun hk => hnone ⟨k, lookup_eq_none.mpr hk⟩
  have hlen := length_of_all hall
  rw [length_map] at hlen
  exact absurd t.bound (Nat.not_lt.mpr hlen)

end

end EightBit
