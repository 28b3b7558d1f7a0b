import EkKor.Db.Types
import EkKor.Lib.Circular

/-!
# Ring files (`ekkdb_ts.c`, `ekkdb_log.c`)

The time series and the event log keep their records in rings of the same kind.

* `RingIndex`      the indices in a header;
* `RingIndex.advance`, `RingIndex.timestamps`   what changes in the header after a record was written;
* `matchCount`     the count of a query;
* `nextLoop`       the search for the next match of a query;
* `Keeps`          the ring holds the newest records of a history;
* `Keeps.push`     one more record.
-/

namespace EkKor
namespace Db

/-! ## indices -/

structure RingIndex where
  head : UInt32
  tail : UInt32
  count : UInt32
  max : UInt32
  deriving DecidableEq, Repr

/-- `ring_next` -/
def ringNext (idx max : UInt32) : UInt32 := (idx + 1) % max

def RingIndex.advance (r : RingIndex) : RingIndex :=
  if r.count ≥ r.max then
    { r with head := ringNext r.head r.max, tail := ringNext r.tail r.max }
  else { r with head := ringNext r.head r.max, count := r.count + 1 }

/-- the oldest and the newest timestamp after a record was written at the head; a full ring reads
the one at its new tail -/
def RingIndex.timestamps (r : RingIndex) (timestampAt : UInt32 → UInt64)
    (oldest newest timestamp : UInt64) : UInt64 × UInt64 :=
  let oldest := if r.count = 0 ∨ timestamp < oldest then timestamp else oldest
  let newest := if timestamp > newest then timestamp else newest
  (if r.count ≥ r.max then timestampAt (ringNext r.tail r.max) else oldest, newest)

/-! ## queries -/

section
variable {α : Type} (records : UInt32 → α) (max : UInt32)

/-- the search through the next `n` records: the match, if there is one, with the index and the
number of records after it; a record past the range ends it -/
def nextLoop (hit past : α → Bool) : Nat → UInt32 → UInt32 → Option α × UInt32 × UInt32
  | 0, idx, returned => (none, idx, returned)
  | n + 1, idx, returned =>
    let record := records idx
    let idx := ringNext idx max
    let returned := returned + 1
    if hit record then (some record, idx, returned)
    else if past record then (none, idx, returned)
    else nextLoop hit past n idx returned

def nextResult : Option α → Except DbErr α
  | none => .error .notFound
  | some a => .ok a

end

/-! ## the newest records -/

section
open Ring
variable {α : Type}

def RingIndex.marks (r : RingIndex) : Marks := ⟨r.head.toNat, r.tail.toNat, r.count.toNat⟩

def RingIndex.empty (max : UInt32) : RingIndex := ⟨0, 0, 0, max⟩

def Keeps (r : RingIndex) (records : UInt32 → α) (h : List α) : Prop :=
  Kept r.max.toNat (fun i => records (UInt32.ofNat i)) r.marks h

variable {r : RingIndex} {records : UInt32 → α} {h : List α}

theorem ringNext_toNat {idx max : UInt32} (h : idx < max) :
    (ringNext idx max).toNat = (idx.toNat + 1) % max.toNat := by
  have hlt := UInt32.lt_iff_toNat_lt.mp h
  have hmax := max.toNat_lt
  have hadd : (idx + 1).toNat = idx.toNat + 1 := by
    exact Nat.mod_eq_of_lt (by show idx.toNat + 1 < 2 ^ 32; omega)
  unfold ringNext
  rw [UInt32.toNat_mod, hadd]

theorem advance_max (r : RingIndex) : r.advance.max = r.max := by
  unfold RingIndex.advance
  split_ifs <;> rfl

theorem count_succ (h : ¬r.count ≥ r.max) : (r.count + 1).toNat = r.count.toNat + 1 := by
  have hlt := UInt32.lt_iff_toNat_lt.mp (UInt32.not_le.mp h)
  have hmax := r.max.toNat_lt
  exact Nat.mod_eq_of_lt (by show r.count.toNat + 1 < 2 ^ 32; omega)

theorem marks_advance (hhead : r.head < r.max) (htail : r.tail < r.max) :
    r.advance.marks = r.marks.next r.max.toNat := by
  unfold RingIndex.advance Marks.next RingIndex.marks
  by_cases hfull : r.count ≥ r.max
  · rw [if_pos hfull, if_pos (UInt32.le_iff_toNat_le.mp hfull), ringNext_toNat hhead,
      ringNext_toNat htail]
  · have hlt : r.count.toNat < r.max.toNat :=
      Nat.lt_of_not_ge fun hge => hfull (UInt32.le_iff_toNat_le.mpr hge)
    rw [if_neg hfull, if_neg (Nat.not_le.mpr hlt), ringNext_toNat hhead, count_succ hfull]

theorem Keeps.head_lt (hk : Keeps r records h) : r.head < r.max := by
  exact hk.head.trans_lt (Nat.mod_lt _ hk.pos)

theorem Keeps.tail_lt (hk : Keeps r records h) : r.tail < r.max := by
  exact hk.tail.trans_lt (Nat.mod_lt _ hk.pos)

/-- **One record.** It is written at the head. -/
theorem Keeps.push (hk : Keeps r records h) (a : α) :
    Keeps r.advance (Function.update records r.head a) (h ++ [a]) := by
  have hpush := Kept.push hk a
  unfold Keeps
  rw [advance_max, marks_advance hk.head_lt hk.tail_lt]
  refine hpush.congr fun i hi => ?_
  have hofNat : (UInt32.ofNat i).toNat = i :=
    Nat.mod_eq_of_lt (Nat.lt_trans hi r.max.toNat_lt)
  show _ = Function.update (fun i => records (UInt32.ofNat i)) r.head.toNat a i
  by_cases heq : i = r.head.toNat
  · subst heq
    rw [UInt32.ofNat_toNat, Function.update_self, Function.update_self]
  · have hne : UInt32.ofNat i ≠ r.head := by
      intro hindex
      rw [hindex] at hofNat
      exact heq hofNat.symm
    rw [Function.update_of_ne hne, Function.update_of_ne heq]

def fromTail (r : RingIndex) (records : UInt32 → α) : List α :=
  (List.range r.count.toNat).map fun i =>
    records (UInt32.ofNat ((r.tail.toNat + i) % r.max.toNat))

/-- the records from the tail on are the last ones of the history, as many as fit -/
structure HoldsNewest (r : RingIndex) (records : UInt32 → α) (h : List α) : Prop where
  count : r.count.toNat = min h.length r.max.toNat
  head : r.head.toNat = (r.tail.toNat + r.count.toNat) % r.max.toNat
  records : fromTail r records = h.drop (h.length - r.max.toNat)

theorem Keeps.holdsNewest (hk : Keeps r records h) : HoldsNewest r records h :=
  ⟨hk.count, Kept.head_eq hk, Kept.window_eq hk⟩

end
end Db
end EkKor
