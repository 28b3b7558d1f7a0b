import Mathlib.Data.Int.ModEq
import Mathlib.Data.List.GetD
import Mathlib.Data.List.Induction
import Mathlib.Data.Nat.ModEq
import Mathlib.Logic.Function.Basic
import Mathlib.Tactic.Common

/-!
# Entries around the end of their slots

* `Ring`        a full ring overwrites its oldest entry;
* `Circular`    a log with a free slot at its head;
* `Counted`     a queue that counts its entries.
-/

/-!
# Rings that keep the newest entries

Entries are written around `max` slots; a full ring overwrites its oldest entry.

* `newest`            the last entries of a history, as many as fit;
* `Kept`              the ring holds the newest entries of a history;
* `Kept.push`         the next entry;
* `window`            the entries from the oldest one on;
* `Kept.window_eq`    they are the newest entries, in order.
-/

namespace Ring
open List Function

variable {α : Type*}

/-! ## histories -/

/-- the last `max` entries -/
def newest (max : Nat) (h : List α) : List α := h.drop (h.length - max)

theorem length_newest (max : Nat) (h : List α) : (newest max h).length = min h.length max := by
  unfold newest
  rw [length_drop]
  omega

/-- where the next entry goes, where the oldest one is, and how many there are -/
structure Marks where
  head : Nat
  tail : Nat
  count : Nat

def Marks.next (max : Nat) (r : Marks) : Marks :=
  if r.count ≥ max then { r with head := (r.head + 1) % max, tail := (r.tail + 1) % max }
  else { r with head := (r.head + 1) % max, count := r.count + 1 }

/-- the ring holds the newest entries of the history; entry `g` lies in slot `g % max` -/
structure Kept (max : Nat) (slots : Nat → α) (r : Marks) (h : List α) : Prop where
  pos : 0 < max
  head : r.head = h.length % max
  count : r.count = min h.length max
  tail : r.tail = (h.length - r.count) % max
  entries : ∀ g (hg : g < h.length), h.length ≤ g + max → slots (g % max) = h[g]

variable {max : Nat} {slots : Nat → α} {r : Marks} {h : List α}

theorem kept_nil (hmax : 0 < max) (slots : Nat → α) : Kept max slots ⟨0, 0, 0⟩ [] := by
  refine ⟨hmax, ?_, ?_, ?_, fun g hg => absurd hg (Nat.not_lt_zero g)⟩
  · exact (Nat.zero_mod max).symm
  · exact (Nat.zero_min max).symm
  · exact (Nat.zero_mod max).symm

/-- only the slots below `max` count -/
theorem Kept.congr {slots' : Nat → α} (hk : Kept max slots r h)
    (heq : ∀ i < max, slots' i = slots i) : Kept max slots' r h := by
  refine { hk with entries := fun g hg hnew => ?_ }
  rw [heq _ (Nat.mod_lt g hk.pos)]
  exact hk.entries g hg hnew

theorem mod_succ_mod (a max : Nat) : (a % max + 1) % max = (a + 1) % max := Nat.mod_add_mod a max 1

/-- **One entry.** The head takes it, and the oldest entry goes when the ring is full. -/
theorem Kept.push (hk : Kept max slots r h) (a : α) :
    Kept max (update slots r.head a) (r.next max) (h ++ [a]) := by
  have hcount := hk.count
  have htail := hk.tail
  have hlen : (h ++ [a]).length = h.length + 1 := length_append
  refine ⟨hk.pos, ?_, ?_, ?_, fun g hg hnew => ?_⟩
  · have hhead : (r.next max).head = (r.head + 1) % max := by
      unfold Marks.next
      split_ifs <;> rfl
    rw [hhead, hk.head, hlen, mod_succ_mod]
  · unfold Marks.next
    split_ifs with hfull
    · show r.count = _
      omega
    · show r.count + 1 = _
      omega
  · unfold Marks.next
    split_ifs with hfull
    · show (r.tail + 1) % max = _
      rw [htail, mod_succ_mod, hlen]
      congr 1
      show h.length - r.count + 1 = h.length + 1 - r.count
      omega
    · rw [htail, hlen]
      congr 1
      show h.length - r.count = h.length + 1 - (r.count + 1)
      omega
  · by_cases hlast : g = h.length
    · subst hlast
      rw [hk.head, update_self, getElem_append_right (Nat.le_refl _)]
      simp
    · have hg' : g < h.length := by omega
      rw [update_of_ne, hk.entries g hg' (by omega), getElem_append_left hg']
      -- fewer than `max` entries apart: the slots differ
      rw [hk.head]
      intro heq
      have hdiv : max ∣ h.length - g := (Nat.modEq_iff_dvd' (Nat.le_of_lt hg')).mp heq
      have hle := Nat.le_of_dvd (by omega) hdiv
      omega

/-! ## reading -/

def window (max : Nat) (slots : Nat → α) (r : Marks) : List α :=
  (List.range r.count).map fun i => slots ((r.tail + i) % max)

theorem Kept.window_eq (hk : Kept max slots r h) : window max slots r = newest max h := by
  have hcount := hk.count
  refine ext_getElem ?_ fun i hi hi' => ?_
  · unfold window
    rw [length_map, length_range, length_newest, hcount]
  · have hlt : i < r.count := by
      unfold window at hi
      rwa [length_map, length_range] at hi
    simp only [window, newest, getElem_map, getElem_range, getElem_drop]
    rw [hk.tail, Nat.mod_add_mod]
    have hindex : h.length - r.count + i = h.length - max + i := by omega
    rw [hindex]
    exact hk.entries _ (by omega) (by omega)

/-- the head is `count` slots behind the tail -/
theorem Kept.head_eq (hk : Kept max slots r h) : r.head = (r.tail + r.count) % max := by
  have hcount := hk.count
  rw [hk.tail, Nat.mod_add_mod, Nat.sub_add_cancel (by omega)]
  exact hk.head

end Ring

/-!
# Circular logs with a free slot

A log lies in the slots from its tail up to its head, around the end of the slots.  The slot at the
head is free, and a full log gives up its oldest entry.

* `Holds`          the log holds a list of entries, oldest first;
* `Holds.push`     one more entry;
* `Holds.write`, `Holds.publish`   the same in two steps, for a log that is not full;
* `Holds.uncons`, `Holds.rewrite`   reading on from the tail, and writing to the oldest entry;
* `contents`       the list that a log with these marks holds.
-/

namespace Circular
open List Function
open Ring (newest)

variable {α : Type*}

/-! ## newest entries -/

theorem newest_of_length_le {n : Nat} {l : List α} (h : l.length ≤ n) : newest n l = l := by
  unfold newest
  rw [Nat.sub_eq_zero_of_le h, drop_zero]

theorem newest_append {n : Nat} (l : List α) {es : List α} (h : es.length ≤ n) :
    newest n (l ++ es) = newest (n - es.length) l ++ es := by
  unfold newest
  rw [drop_append_of_le_length, length_append]
  · congr 2
    omega
  · rw [length_append]
    omega

theorem newest_newest_concat (n : Nat) (l : List α) (a : α) :
    newest n (newest n l ++ [a]) = newest n (l ++ [a]) := by
  by_cases hn : n = 0
  · subst hn
    simp [newest]
  · have h1 : [a].length ≤ n := Nat.one_le_iff_ne_zero.mpr hn
    rw [newest_append _ h1, newest_append _ h1]
    congr 1
    unfold newest
    rw [drop_drop, length_drop]
    congr 1
    omega

theorem mem_of_mem_newest {n : Nat} {l : List α} {a : α} (h : a ∈ newest n l) : a ∈ l :=
  mem_of_mem_drop h

/-! ## logs -/

/-- where the next entry goes, and where the oldest one is -/
structure Marks where
  head : Nat
  tail : Nat

/-- the marks after one more entry of a log with `size` slots -/
def Marks.next (size : Nat) (m : Marks) : Marks :=
  ⟨(m.head + 1) % size, if (m.head + 1) % size = m.tail then (m.tail + 1) % size else m.tail⟩

/-- the log holds the entries `l` -/
structure Holds (size : Nat) (slots : Nat → α) (m : Marks) (l : List α) : Prop where
  tail : m.tail < size
  free : l.length < size
  head : m.head = (m.tail + l.length) % size
  entries : ∀ j (hj : j < l.length), slots ((m.tail + j) % size) = l[j]

variable {size : Nat} {slots : Nat → α} {m : Marks} {l : List α} {a : α}

/-- slots less than `size` apart are different -/
theorem add_mod_inj {size t i j : Nat} (hi : i < size) (hj : j < size)
    (h : (t + i) % size = (t + j) % size) : i = j := by
  have hmod : i ≡ j [MOD size] := Nat.ModEq.add_left_cancel' t h
  exact Nat.ModEq.eq_of_lt_of_lt hmod hi hj

theorem Holds.congr {slots' : Nat → α} (h : Holds size slots m l)
    (heq : ∀ i < size, slots' i = slots i) : Holds size slots' m l := by
  refine ⟨h.tail, h.free, h.head, fun j hj => ?_⟩
  rw [heq _ (Nat.mod_lt _ (Nat.zero_lt_of_lt h.free))]
  exact h.entries j hj

theorem Holds.full_iff (h : Holds size slots m l) :
    (m.head + 1) % size = m.tail ↔ l.length + 1 = size := by
  have hfree := h.free
  have htail := h.tail
  rw [h.head, Nat.mod_add_mod, Nat.add_assoc]
  constructor
  · intro heq
    by_contra hne
    have hzero : (m.tail + (l.length + 1)) % size = (m.tail + 0) % size := by
      rw [heq, Nat.add_zero, Nat.mod_eq_of_lt htail]
    have hlen := add_mod_inj (by omega) (by omega) hzero
    omega
  · intro heq
    rw [heq, Nat.add_mod_right, Nat.mod_eq_of_lt htail]

/-- **One entry.** The head takes it, and the oldest entry goes when the log is full. -/
theorem Holds.push (h : Holds size slots m l) (a : α) :
    Holds size (update slots m.head a) (m.next size) (newest (size - 1) (l ++ [a])) := by
  have hfree := h.free
  have hslot (j : Nat) (hj : j ≤ l.length) :
      update slots m.head a ((m.tail + j) % size) = (l ++ [a]).getD j a := by
    by_cases hlast : j = l.length
    · rw [hlast, ← h.head, update_self]
      simp
    · have hlt : j < l.length := by omega
      rw [update_of_ne, h.entries j hlt, getD_append _ _ _ _ hlt,
        getD_eq_getElem _ _ hlt]
      rw [h.head]
      exact fun heq => hlast (add_mod_inj (by omega) hfree heq)
  by_cases hfull : l.length + 1 = size
  · have hnext : m.next size = ⟨(m.head + 1) % size, (m.tail + 1) % size⟩ := by
      unfold Marks.next
      rw [if_pos (h.full_iff.mpr hfull)]
    have hnew : newest (size - 1) (l ++ [a]) = (l ++ [a]).drop 1 := by
      unfold newest
      congr 1
      rw [length_append, length_singleton]
      omega
    have hlen : ((l ++ [a]).drop 1).length = l.length := by simp
    rw [hnext, hnew]
    refine ⟨Nat.mod_lt _ (by omega), by omega, ?_, fun j hj => ?_⟩
    · rw [hlen]
      show (m.head + 1) % size = ((m.tail + 1) % size + l.length) % size
      rw [h.head, Nat.mod_add_mod, Nat.mod_add_mod]
      congr 1
      omega
    · rw [Nat.mod_add_mod, Nat.add_assoc, hslot (1 + j) (by omega), getElem_drop,
        getD_eq_getElem]
  · have hnext : m.next size = ⟨(m.head + 1) % size, m.tail⟩ := by
      unfold Marks.next
      rw [if_neg fun heq => hfull (h.full_iff.mp heq)]
    have hlen : (l ++ [a]).length = l.length + 1 := by simp
    rw [hnext, newest_of_length_le (by omega)]
    refine ⟨h.tail, by omega, ?_, fun j hj => ?_⟩
    · rw [h.head, Nat.mod_add_mod, hlen, Nat.add_assoc]
    · rw [← getD_eq_getElem _ a (by omega)]
      exact hslot j (by omega)

theorem Holds.write (h : Holds size slots m l) (a : α) :
    Holds size (update slots m.head a) m l := by
  refine ⟨h.tail, h.free, h.head, fun j hj => ?_⟩
  rw [update_of_ne, h.entries j hj]
  rw [h.head]
  exact fun heq => Nat.ne_of_lt hj (add_mod_inj (Nat.lt_trans hj h.free) h.free heq)

theorem Holds.publish (h : Holds size slots m l) (hroom : l.length + 1 < size) :
    Holds size slots ⟨(m.head + 1) % size, m.tail⟩ (l ++ [slots m.head]) := by
  have hlen : (l ++ [slots m.head]).length = l.length + 1 := length_append
  refine ⟨h.tail, by omega, ?_, fun j hj => ?_⟩
  · rw [hlen, h.head, Nat.mod_add_mod, Nat.add_assoc]
  · by_cases hlast : j = l.length
    · subst hlast
      rw [← h.head, getElem_append_right (Nat.le_refl _)]
      simp
    · have hlt : j < l.length := by omega
      rw [getElem_append_left hlt]
      exact h.entries j hlt

theorem Holds.length_eq (h : Holds size slots m l) :
    (m.head + size - m.tail) % size = l.length := by
  have htail := h.tail
  have hfree := h.free
  by_cases hwrap : m.tail + l.length < size
  · have hhead : m.head = m.tail + l.length := by rw [h.head, Nat.mod_eq_of_lt hwrap]
    rw [show m.head + size - m.tail = l.length + size by omega, Nat.add_mod_right,
      Nat.mod_eq_of_lt hfree]
  · have hhead : m.head = m.tail + l.length - size := by
      rw [h.head, Nat.mod_eq_sub_mod (by omega), Nat.mod_eq_of_lt (by omega)]
    rw [show m.head + size - m.tail = l.length by omega, Nat.mod_eq_of_lt hfree]

/-! ## reading -/

theorem Holds.nil_eq (h : Holds size slots m []) : m.tail = m.head := by
  rw [h.head]
  exact (Nat.mod_eq_of_lt h.tail).symm

theorem Holds.uncons (h : Holds size slots m (a :: l)) :
    m.tail ≠ m.head ∧ slots m.tail = a ∧ Holds size slots ⟨m.head, (m.tail + 1) % size⟩ l := by
  have hfree := h.free
  rw [length_cons] at hfree
  have htail := Nat.mod_eq_of_lt h.tail
  refine ⟨fun heq => ?_, ?_, ⟨Nat.mod_lt _ (by omega), by omega, ?_, fun j hj => ?_⟩⟩
  · have hhead := h.head
    rw [length_cons, ← heq] at hhead
    have hzero : (m.tail + 0) % size = (m.tail + (l.length + 1)) % size := by
      rw [Nat.add_zero, htail]
      exact hhead
    exact absurd (add_mod_inj (by omega) hfree hzero) (by omega)
  · have hfirst := h.entries 0 (Nat.zero_lt_succ _)
    rw [Nat.add_zero, htail] at hfirst
    exact hfirst
  · rw [h.head, Nat.mod_add_mod, length_cons]
    congr 1
    omega
  · have hnext := h.entries (j + 1) (Nat.succ_lt_succ hj)
    rw [Nat.mod_add_mod, Nat.add_assoc, Nat.add_comm 1 j]
    exact hnext

theorem Holds.rewrite (h : Holds size slots m (a :: l)) (b : α) :
    Holds size (update slots m.tail b) m (b :: l) := by
  refine ⟨h.tail, h.free, h.head, fun j hj => ?_⟩
  have htail := Nat.mod_eq_of_lt h.tail
  cases j with
  | zero =>
    rw [Nat.add_zero, htail, update_self]
    rfl
  | succ j =>
    have hlt : j + 1 < size := Nat.lt_trans hj h.free
    rw [update_of_ne, h.entries (j + 1) hj]
    · rfl
    · intro heq
      have hzero : (m.tail + (j + 1)) % size = (m.tail + 0) % size := by
        rw [heq, Nat.add_zero, htail]
      exact absurd (add_mod_inj hlt (Nat.zero_lt_of_lt hlt) hzero) (Nat.succ_ne_zero j)

def contents (size : Nat) (slots : Nat → α) (m : Marks) : List α :=
  (List.range ((m.head + size - m.tail) % size)).map fun j => slots ((m.tail + j) % size)

theorem holds_contents (hhead : m.head < size) (htail : m.tail < size) :
    Holds size slots m (contents size slots m) := by
  have hlen : (contents size slots m).length = (m.head + size - m.tail) % size := by
    unfold contents
    rw [length_map, length_range]
  refine ⟨htail, hlen ▸ Nat.mod_lt _ (by omega), ?_, fun j hj => ?_⟩
  · rw [hlen, Nat.add_mod_mod, show m.tail + (m.head + size - m.tail) = m.head + size by omega,
      Nat.add_mod_right, Nat.mod_eq_of_lt hhead]
  · simp only [contents, getElem_map, getElem_range]

theorem Holds.contents_eq (h : Holds size slots m l) : contents size slots m = l := by
  unfold contents
  rw [h.length_eq]
  refine ext_getElem (by rw [length_map, length_range]) fun j _ hj => ?_
  rw [getElem_map, getElem_range, h.entries j hj]

end Circular

/-!
# Circular queues with a counter

A queue lies in `size` slots, around their end: `count` entries from the slot `tail` on.  All slots
can be in use.

* `contents`        the entries, oldest first;
* `contents_push`   one more entry, in the slot after the last;
* `contents_pop`    the oldest entry goes.
-/

namespace Counted
open List Function

variable {α : Type*}

def contents (size : Nat) (slots : Nat → α) (tail count : Nat) : List α :=
  (List.range count).map fun k => slots ((tail + k) % size)

/-- slots less than `size` apart are different -/
theorem add_mod_ne {size t i j : Nat} (hi : i < size) (hj : j < size) (hne : i ≠ j) :
    (t + i) % size ≠ (t + j) % size := by
  intro h
  have hmod : i ≡ j [MOD size] := Nat.ModEq.add_left_cancel' t h
  exact hne (Nat.ModEq.eq_of_lt_of_lt hmod hi hj)

theorem contents_push {size count : Nat} (h : count < size) (slots : Nat → α) (tail : Nat)
    (a : α) :
    contents size (update slots ((tail + count) % size) a) tail (count + 1) =
      contents size slots tail count ++ [a] := by
  unfold contents
  rw [range_succ, map_append]
  congr 1
  · refine map_congr_left fun k hk => ?_
    have hlt := mem_range.mp hk
    exact update_of_ne (add_mod_ne (Nat.lt_trans hlt h) h (Nat.ne_of_lt hlt)) ..
  · exact congrArg (fun x => [x]) (update_self ..)

theorem contents_pop (size : Nat) (slots : Nat → α) (tail count : Nat) :
    contents size slots tail (count + 1) =
      slots (tail % size) :: contents size slots ((tail + 1) % size) count := by
  unfold contents
  rw [range_succ_eq_map, map_cons, map_map, Nat.add_zero]
  congr 1
  refine map_congr_left fun k _ => ?_
  show slots ((tail + (k + 1)) % size) = slots (((tail + 1) % size + k) % size)
  rw [Nat.mod_add_mod, Nat.add_assoc, Nat.add_comm 1 k]

end Counted
