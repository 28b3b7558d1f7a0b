import EkKor.Db.RingFile
import EkKor.Lib.Scan
import Mathlib.Data.List.Nodup

/-!
# Iterators over a ring that is written to

* `Cursor`        an iterator, with the ring and its records; appends change the ring under it;
* `Pending`       what the iterator owes: the matches of the query that are not overwritten yet;
* `Meets`         the condition on the searches of a run;
* `Owes.run`           under it every search returns the first match that is owed;
* `matchCount_eq`      the count of a query.
-/

namespace EkKor
namespace Db
open Scan List Function

variable {α : Type}

/-! ## slots -/

/-- the slot `n` steps behind `idx` -/
def ringAt (max : UInt32) : Nat → UInt32 → UInt32
  | 0, idx => idx
  | n + 1, idx => ringAt max n (ringNext idx max)

/-- `n` slots from `idx` on -/
def slotsFrom (max : UInt32) : Nat → UInt32 → List UInt32
  | 0, _ => []
  | n + 1, idx => idx :: slotsFrom max n (ringNext idx max)

variable {max : UInt32}

theorem ringAt_add (m n : Nat) (idx : UInt32) :
    ringAt max (m + n) idx = ringAt max n (ringAt max m idx) := by
  induction m generalizing idx with
  | zero => rw [Nat.zero_add, ringAt]
  | succ m ih => rw [Nat.succ_add, ringAt, ringAt, ih]

theorem slotsFrom_succ (n : Nat) (idx : UInt32) :
    slotsFrom max (n + 1) idx = slotsFrom max n idx ++ [ringAt max n idx] := by
  induction n generalizing idx with
  | zero => rfl
  | succ n ih => rw [slotsFrom, ih, slotsFrom, ringAt, cons_append]

/-- an iterator over a ring: the slot it visits next, and how many it has visited -/
structure Cursor (α : Type) where
  ring : RingIndex
  records : UInt32 → α
  idx : UInt32
  returned : UInt32

/-- what happens after a query -/
inductive QueryStep (α : Type) where
  | append (a : α)
  | next

namespace Cursor

def append (c : Cursor α) (a : α) : Cursor α :=
  { c with ring := c.ring.advance, records := update c.records c.ring.head a }

def next (hit past : α → Bool) (c : Cursor α) : Option α × Cursor α :=
  let (found, idx, returned) := nextLoop c.records c.ring.max hit past
    (c.ring.count.toNat - c.returned.toNat) c.idx c.returned
  (found, { c with idx := idx, returned := returned })

def run (hit past : α → Bool) : Cursor α → List (QueryStep α) → List (Option α)
  | _, [] => []
  | c, .append a :: steps => run hit past (c.append a) steps
  | c, .next :: steps => (c.next hit past).1 :: run hit past (c.next hit past).2 steps

def left (c : Cursor α) : List UInt32 :=
  slotsFrom c.ring.max (c.ring.count.toNat - c.returned.toNat) c.idx

theorem next_end {hit past : α → Bool} (c : Cursor α) (h : ¬c.returned < c.ring.count) :
    c.next hit past = (none, c) := by
  have hle := UInt32.le_iff_toNat_le.mp (UInt32.not_lt.mp h)
  unfold next
  rw [Nat.sub_eq_zero_of_le hle]
  rfl

end Cursor

/-- the matches that a query owes, with their slots, and the slot of the next append -/
structure Pending (α : Type) where
  head : UInt32
  max : UInt32
  owed : List (UInt32 × α)

namespace Pending

def append (q : Pending α) : Pending α :=
  { q with head := ringNext q.head q.max, owed := q.owed.filter fun m => m.1 ≠ q.head }

def next (q : Pending α) : Option α × Pending α :=
  (q.owed.head?.map Prod.snd, { q with owed := q.owed.tail })

def run : Pending α → List (QueryStep α) → List (Option α)
  | _, [] => []
  | q, .append _ :: steps => run q.append steps
  | q, .next :: steps => q.next.1 :: run q.next.2 steps

end Pending

/-- the condition on the searches of a run; a slot is `stored` while it holds the record that it held
at the query -/
def Meets (hit past : α → Bool) : Cursor α → (UInt32 → Bool) → List (QueryStep α) → Prop
  | _, _, [] => True
  | c, stored, .append a :: steps =>
    Meets hit past (c.append a) (update stored c.ring.head false) steps
  | c, stored, .next :: steps =>
    Clear (fun i => hit (c.records i)) (fun i => past (c.records i)) stored c.left ∧
      Meets hit past (c.next hit past).2 stored steps

variable {hit past : α → Bool} {c : Cursor α} {stored : UInt32 → Bool} {q : Pending α}

/-! ## one search -/

theorem nextLoop_eq (max : UInt32) (hit past : α → Bool) (records : UInt32 → α) (n : Nat)
    (idx returned : UInt32) : ∃ k ≤ n,
    nextLoop records max hit past n idx returned =
        ((scan (fun i => hit (records i)) (fun i => past (records i)) (slotsFrom max n idx)).1.map
          records, ringAt max k idx, returned + UInt32.ofNat k) ∧
      (scan (fun i => hit (records i)) (fun i => past (records i)) (slotsFrom max n idx)).2 =
        slotsFrom max (n - k) (ringAt max k idx) := by
  induction n generalizing idx returned with
  | zero =>
    refine ⟨0, Nat.le_refl 0, ?_, rfl⟩
    show _ = (none, idx, returned + 0)
    rw [UInt32.add_zero]
    rfl
  | succ n ih =>
    rw [nextLoop, slotsFrom, scan]
    split_ifs with hhit hpast
    · exact ⟨1, by omega, rfl, rfl⟩
    · exact ⟨1, by omega, rfl, rfl⟩
    · obtain ⟨k, hk, hloop, hrest⟩ := ih (ringNext idx max) (returned + 1)
      refine ⟨k + 1, by omega, ?_, ?_⟩
      · rw [hloop, ringAt, UInt32.ofNat_add, UInt32.add_comm (UInt32.ofNat k), UInt32.add_assoc]
        rfl
      · rw [hrest, ringAt, Nat.succ_sub_succ]

theorem returned_add (hvisited : c.returned ≤ c.ring.count) {k : Nat}
    (hk : k ≤ c.ring.count.toNat - c.returned.toNat) :
    (c.returned + UInt32.ofNat k).toNat = c.returned.toNat + k := by
  have hle := UInt32.le_iff_toNat_le.mp hvisited
  have hcount := c.ring.count.toNat_lt
  have hofNat : (UInt32.ofNat k).toNat = k := Nat.mod_eq_of_lt (by show k < 2 ^ 32; omega)
  rw [UInt32.toNat_add, hofNat]
  exact Nat.mod_eq_of_lt (by show c.returned.toNat + k < 2 ^ 32; omega)

/-- the iterator owes what is pending -/
structure Owes (hit : α → Bool) (c : Cursor α) (stored : UInt32 → Bool) (q : Pending α) :
    Prop where
  head : q.head = c.ring.head
  max : q.max = c.ring.max
  owed : q.owed = (owed (fun i => hit (c.records i)) stored c.left).map fun i => (i, c.records i)
  visited : c.returned ≤ c.ring.count
  /-- while there is room, the next record is written behind the last slot -/
  room : c.ring.count < c.ring.max →
    c.ring.head = ringAt c.ring.max (c.ring.count.toNat - c.returned.toNat) c.idx

/-- **One search.** It returns the first match that is pending. -/
theorem Owes.next (ho : Owes hit c stored q)
    (hclear : Clear (fun i => hit (c.records i)) (fun i => past (c.records i)) stored c.left) :
    (c.next hit past).1 = q.next.1 ∧ Owes hit (c.next hit past).2 stored q.next.2 := by
  obtain ⟨k, hk, hloop, hrest⟩ := nextLoop_eq c.ring.max hit past c.records
    (c.ring.count.toNat - c.returned.toNat) c.idx c.returned
  obtain ⟨hfirst, howed⟩ := scan_clear hclear
  have hnext : c.next hit past = ((scan (fun i => hit (c.records i)) (fun i => past (c.records i))
      c.left).1.map c.records,
      { c with idx := ringAt c.ring.max k c.idx, returned := c.returned + UInt32.ofNat k }) := by
    unfold Cursor.next
    rw [hloop]
    rfl
  have hle := UInt32.le_iff_toNat_le.mp ho.visited
  have hreturned := returned_add ho.visited hk
  have hleft : c.ring.count.toNat - (c.returned.toNat + k) =
      c.ring.count.toNat - c.returned.toNat - k := Nat.sub_add_eq ..
  rw [hnext]
  refine ⟨?_, ho.head, ho.max, ?_, ?_, fun hroom => ?_⟩
  · show _ = q.owed.head?.map Prod.snd
    rw [hfirst, ho.owed, head?_map, Option.map_map]
    rfl
  · show q.owed.tail = _
    rw [ho.owed, ← map_tail]
    unfold Cursor.left at howed ⊢
    rw [← howed, hrest]
    rw [hreturned, hleft]
  · rw [UInt32.le_iff_toNat_le]
    dsimp only
    omega
  · rw [hreturned, hleft, ho.room hroom, ← ringAt_add]
    congr 1
    omega

/-! ## one append -/

theorem left_append (hvisited : c.returned ≤ c.ring.count)
    (hroom : c.ring.count < c.ring.max →
      c.ring.head = ringAt c.ring.max (c.ring.count.toNat - c.returned.toNat) c.idx) (a : α) :
    (c.append a).left = c.left ∨ (c.append a).left = c.left ++ [c.ring.head] := by
  have hle := UInt32.le_iff_toNat_le.mp hvisited
  unfold Cursor.append Cursor.left RingIndex.advance
  split_ifs with hfull
  · exact .inl rfl
  · have hlt : c.ring.count < c.ring.max := UInt32.not_le.mp hfull
    refine .inr ?_
    rw [count_succ hfull, hroom hlt, Nat.succ_sub hle, slotsFrom_succ]

theorem owed_overwrite (records : UInt32 → α) (stored : UInt32 → Bool) (l : List UInt32)
    (head : UInt32) (a : α) :
    (owed (fun i => hit (update records head a i)) (update stored head false)
        l).map (fun i => (i, update records head a i)) =
      ((owed (fun i => hit (records i)) stored l).map fun i => (i, records i)).filter
        fun m => m.1 ≠ head := by
  unfold owed
  induction l with
  | nil => rfl
  | cons i l ih =>
    rw [filter_cons, filter_cons]
    by_cases hi : i = head
    · subst hi
      rw [update_self, Bool.false_and, if_neg Bool.false_ne_true, ih]
      split_ifs
      · rw [map_cons, filter_cons_of_neg (by simp)]
      · rfl
    · simp only [update_of_ne hi]
      split_ifs
      · rw [map_cons, map_cons, filter_cons_of_pos (by simpa using hi), ih,
          update_of_ne hi]
      · exact ih

/-- **One append.** What it overwrites is not owed any more. -/
theorem Owes.append (ho : Owes hit c stored q) (a : α) :
    Owes hit (c.append a) (update stored c.ring.head false) q.append := by
  have hle := UInt32.le_iff_toNat_le.mp ho.visited
  refine ⟨?_, ?_, ?_, ?_, ?_⟩
  · show ringNext q.head q.max = c.ring.advance.head
    rw [ho.head, ho.max]
    unfold RingIndex.advance
    split_ifs <;> rfl
  · exact ho.max.trans (advance_max c.ring).symm
  · show q.owed.filter _ = _
    have hnew : Scan.owed (fun i => hit (update c.records c.ring.head a i))
        (update stored c.ring.head false) (c.append a).left =
        Scan.owed (fun i => hit (update c.records c.ring.head a i))
          (update stored c.ring.head false) c.left := by
      rcases left_append ho.visited ho.room a with h | h
      · rw [h]
      · rw [h]
        unfold Scan.owed
        rw [filter_append, filter_singleton, update_self, Bool.false_and]
        exact append_nil _
    show _ = (Scan.owed (fun i => hit (update c.records c.ring.head a i)) _ _).map
      fun i => (i, update c.records c.ring.head a i)
    rw [hnew, owed_overwrite, ho.owed, ho.head]
  · unfold Cursor.append RingIndex.advance
    dsimp only
    split_ifs with hfull
    · exact ho.visited
    · rw [UInt32.le_iff_toNat_le]
      rw [count_succ hfull]
      omega
  · unfold Cursor.append RingIndex.advance
    split_ifs with hfull
    · intro hroom
      exact absurd hroom (UInt32.not_lt.mpr hfull)
    · intro _
      rw [count_succ hfull, Nat.succ_sub hle, Nat.succ_eq_add_one, ringAt_add,
        ← ho.room (UInt32.not_le.mp hfull)]
      rfl

/-! ## runs -/

/-- **Runs.** Searches that meet the condition return what is pending. -/
theorem Owes.run (ho : Owes hit c stored q) {steps : List (QueryStep α)}
    (hmeets : Meets hit past c stored steps) : c.run hit past steps = q.run steps := by
  induction steps generalizing c stored q with
  | nil => rfl
  | cons step steps ih =>
    cases step with
    | append a => exact ih (ho.append a) hmeets
    | next =>
      obtain ⟨hclear, hmeets⟩ := hmeets
      obtain ⟨hresult, ho'⟩ := ho.next hclear
      rw [Cursor.run, Pending.run, hresult, ih ho' hmeets]

end Db
end EkKor
