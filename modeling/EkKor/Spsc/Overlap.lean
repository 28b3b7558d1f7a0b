import Mathlib.Data.Nat.Find
import EkKor.Spsc.Fifo

/-!
# Slots that overlap

`slot_ptr` multiplies in 32 bits.  When the last slot is beyond them, some slot begins inside the
first one, and a run in which both are in use writes one of them while the other is stored.

* `At`          both threads are idle, after so many pushes and pops;
* `reach`       every such state is reached;
* `overlap`     the slot that begins inside the first one;
* `fifo_iff`    the queue is a bounded FIFO exactly when its slots fit.
-/

namespace EkKor
namespace Spsc
open Runs (Machine)

variable {n : Nat} {q : Queue}

/-! ## pushes and pops -/

/-- after `p` pushes and `c` pops both threads are idle -/
structure At (n : Nat) (q : Queue) (p c : Nat) (s : State) : Prop where
  sized : Sized n s.q
  itemSize : s.q.itemSize = q.itemSize
  head : s.q.head.toNat = p % 2 ^ n
  tail : s.q.tail.toNat = c % 2 ^ n
  producer : s.producer = .idle
  consumer : s.consumer = .idle

variable {p c : Nat} {s : State}

theorem succ_mod (n p : Nat) : (p % 2 ^ n + 1) % 2 ^ n = (p + 1) % 2 ^ n := Nat.mod_add_mod p _ 1

theorem mod_ne_mod (hlt : c < p) (hround : p < c + 2 ^ n) : p % 2 ^ n ≠ c % 2 ^ n := by
  intro he
  have hdvd : 2 ^ n ∣ p - c := (Nat.modEq_iff_dvd' (Nat.le_of_lt hlt)).mp he.symm
  have hle := Nat.le_of_dvd (by omega) hdvd
  omega

theorem At.room (h : At n q p c s) (hle : c ≤ p) (hroom : p + 1 < c + 2 ^ n) :
    s.q.next s.q.head ≠ s.q.tail := by
  intro he
  have heq := congrArg UInt32.toNat he
  rw [toNat_next h.sized, h.head, h.tail, succ_mod] at heq
  exact mod_ne_mod (by omega) hroom heq

/-- `push` finds room -/
theorem step_pushHead {q : Queue} (hne : q.next q.head ≠ q.tail) (bytes : Nat → UInt8)
    (c : Consumer) :
    (step ⟨q, .pushHead bytes q.head, c⟩ .produce).1 = ⟨q, .pushRoom bytes q.head, c⟩ := by
  have hproduce : produce q (.pushHead bytes q.head) .produce = (q, .pushRoom bytes q.head, []) :=
    if_neg hne
  show State.mk (produce q (.pushHead bytes q.head) .produce).1
    (produce q (.pushHead bytes q.head) .produce).2.1 c = _
  rw [hproduce]

/-- `pop` finds an item -/
theorem step_popTail {q : Queue} (hne : q.tail ≠ q.head) (p : Producer) :
    (step ⟨q, p, .popTail q.tail⟩ .consume).1 = ⟨q, p, .popItem q.tail⟩ := by
  have hconsume : consume q (.popTail q.tail) .consume = (q, .popItem q.tail, []) := if_neg hne
  show State.mk (consume q (.popTail q.tail) .consume).1 p
    (consume q (.popTail q.tail) .consume).2.1 = _
  rw [hconsume]

theorem At.push (h : At n q p c s) (hle : c ≤ p) (hroom : p + 1 < c + 2 ^ n)
    (bytes : Nat → UInt8) :
    At n q (p + 1) c ((ring q).runFrom s [.push bytes, .produce, .produce, .produce]) := by
  have hrun : (ring q).runFrom s [.push bytes, .produce, .produce, .produce] =
      ⟨{ s.q.copy s.q.head bytes with head := s.q.next s.q.head }, .idle, s.consumer⟩ := by
    obtain ⟨q', producer, consumer⟩ := s
    obtain rfl : producer = .idle := h.producer
    show (step (step (step ⟨q', .pushHead bytes q'.head, consumer⟩ .produce).1 .produce).1
      .produce).1 = _
    rw [step_pushHead (h.room hle hroom)]
    rfl
  rw [hrun]
  refine ⟨⟨h.sized.pos, h.sized.lt, h.sized.mask, h.sized.capacity⟩, h.itemSize, ?_, h.tail, rfl,
    h.consumer⟩
  rw [toNat_next h.sized, h.head, succ_mod]

theorem At.pop (h : At n q p c s) (hlt : c < p) (hround : p < c + 2 ^ n) :
    At n q p (c + 1) ((ring q).runFrom s [.pop, .consume, .consume, .consume]) := by
  have hrun : (ring q).runFrom s [.pop, .consume, .consume, .consume] =
      ⟨{ s.q with tail := s.q.next s.q.tail }, s.producer, .idle⟩ := by
    obtain ⟨q', producer, consumer⟩ := s
    obtain rfl : consumer = .idle := h.consumer
    have hne : q'.tail ≠ q'.head := fun he => by
      have heq := congrArg UInt32.toNat he.symm
      rw [h.head, h.tail] at heq
      exact mod_ne_mod hlt hround heq
    show (step (step (step ⟨q', producer, .popTail q'.tail⟩ .consume).1 .consume).1
      .consume).1 = _
    rw [step_popTail hne]
    rfl
  rw [hrun]
  refine ⟨⟨h.sized.pos, h.sized.lt, h.sized.mask, h.sized.capacity⟩, h.itemSize, h.head, ?_,
    h.producer, rfl⟩
  rw [toNat_next h.sized, h.tail, succ_mod]

theorem At.pushes (h : At n q c c s) {k : Nat} (hk : k < 2 ^ n) :
    ∃ es, At n q (c + k) c ((ring q).runFrom s es) := by
  induction k with
  | zero => exact ⟨[], h⟩
  | succ k ih =>
    obtain ⟨es, hes⟩ := ih (Nat.lt_of_succ_lt hk)
    refine ⟨es ++ [.push fun _ => 0, .produce, .produce, .produce], ?_⟩
    rw [Machine.runFrom_append]
    exact hes.push (Nat.le_add_right c k) (by omega) _

theorem Fresh.reach (h : Fresh n q) (c : Nat) {k : Nat} (hk : k < 2 ^ n) :
    ∃ es, At n q (c + k) c ((ring q).run es) := by
  have hone : 1 < 2 ^ n := Nat.one_lt_two_pow (Nat.one_le_iff_ne_zero.mp h.sized.pos)
  have hempty : ∃ es, At n q c c ((ring q).run es) := by
    induction c with
    | zero =>
      refine ⟨[], h.sized, rfl, ?_, ?_, rfl, rfl⟩
      · exact (congrArg UInt32.toNat h.head).trans (Nat.zero_mod _).symm
      · exact (congrArg UInt32.toNat h.tail).trans (Nat.zero_mod _).symm
    | succ c ih =>
      obtain ⟨es, hes⟩ := ih
      have hpush := hes.push (Nat.le_refl c) (by omega) fun _ => 0
      have hpop := hpush.pop (Nat.lt_succ_self c) (by omega)
      rw [← Machine.runFrom_append, ← Machine.run_append] at hpop
      exact ⟨_, hpop⟩
  obtain ⟨es, hes⟩ := hempty
  obtain ⟨es', hes'⟩ := hes.pushes hk
  rw [← Machine.run_append] at hes'
  exact ⟨es ++ es', hes'⟩

/-! ## the overlap -/

theorem overlap (hf : ¬ Fits n q) : ∃ i, 1 ≤ i ∧ i < 2 ^ n ∧
    ∃ k, ∀ slot : UInt32, slot.toNat = 0 ∨ slot.toNat = i → k ∈ q.region slot := by
  have hsize := q.itemSize.toNat_lt
  generalize hsz : q.itemSize.toNat = size at hsize
  have hbeyond : 2 ^ 32 ≤ (2 ^ n - 1) * size := by
    unfold Fits at hf
    rw [hsz] at hf
    exact Nat.le_of_not_lt hf
  have hsome : ∃ i, 2 ^ 32 ≤ i * size := ⟨_, hbeyond⟩
  obtain ⟨i, hi, hmin⟩ : ∃ i, 2 ^ 32 ≤ i * size ∧ ∀ j < i, j * size < 2 ^ 32 :=
    ⟨Nat.find hsome, Nat.find_spec hsome, fun j hj => Nat.lt_of_not_le (Nat.find_min hsome hj)⟩
  have hpos : 1 ≤ i := Nat.one_le_iff_ne_zero.mpr fun he => by
    rw [he, Nat.zero_mul] at hi
    omega
  have hlast : i < 2 ^ n := by
    by_contra hge
    have hlt := hmin (2 ^ n - 1) (by omega)
    omega
  have hprev := hmin (i - 1) (by omega)
  rw [Nat.sub_mul, Nat.one_mul] at hprev
  refine ⟨i, hpos, hlast, i * size - 2 ^ 32, fun slot hslot => ?_⟩
  have hptr : q.slotPtr slot = slot.toNat * size % 2 ^ 32 := by
    unfold Queue.slotPtr
    rw [UInt32.toNat_mul, hsz]
  show _ ≤ _ ∧ _ < _
  rw [hptr, hsz]
  rcases hslot with h0 | h1
  · rw [h0, Nat.zero_mul, Nat.zero_mod]
    omega
  · rw [h1, Nat.mod_eq_sub_mod hi, Nat.mod_eq_of_lt (by omega)]
    omega

/-- **The slots overlap.** Then the producer writes to a slot that is stored. -/
theorem Fresh.not_fifo (h : Fresh n q) (hf : ¬ Fits n q) : ¬ Fifo q := by
  intro hfifo
  obtain ⟨i, hpos, hlt, k, hk⟩ := overlap hf
  -- the two slots are the head and the tail of a queue that has room
  obtain ⟨c, m, hm, hroom, hends⟩ : ∃ c m, 1 ≤ m ∧ m + 1 < 2 ^ n ∧
      ((c + m) % 2 ^ n = 0 ∧ c % 2 ^ n = i ∨ (c + m) % 2 ^ n = i ∧ c % 2 ^ n = 0) := by
    by_cases hlast : i + 1 < 2 ^ n
    · refine ⟨0, i, hpos, hlast, Or.inr ⟨?_, Nat.zero_mod _⟩⟩
      rw [Nat.zero_add, Nat.mod_eq_of_lt hlt]
    · refine ⟨i, 1, Nat.le_refl 1, ?_, Or.inl ⟨?_, Nat.mod_eq_of_lt hlt⟩⟩
      · -- two slots never overlap
        by_contra htwo
        have hn2 : 2 ^ n = 2 := by
          omega
        have hsize := q.itemSize.toNat_lt
        unfold Fits at hf
        rw [hn2] at hf
        omega
      · rw [show i + 1 = 2 ^ n by omega, Nat.mod_self]
  obtain ⟨es, hes⟩ := h.reach c (Nat.lt_of_succ_lt hroom)
  obtain ⟨now, hnow⟩ : ∃ now, (ring q).run es = now := ⟨_, rfl⟩
  rw [hnow] at hes
  have hnext := hes.room (Nat.le_add_right c m) (by omega)
  have hrun : (ring q).run (es ++ [.push fun _ => 0, .produce]) =
      ⟨now.q, .pushRoom (fun _ => 0) now.q.head, now.consumer⟩ := by
    rw [Machine.run_append, hnow]
    obtain ⟨q', producer, consumer⟩ := now
    obtain rfl : producer = .idle := hes.producer
    show (step ⟨q', .pushHead _ q'.head, consumer⟩ .produce).1 = _
    exact step_pushHead hnext _ _
  have hlen : 0 < now.q.len.toNat := by
    have htail : now.q.tail.toNat < 2 ^ n := by
      rw [hes.tail]
      exact Nat.mod_lt _ (Nat.two_pow_pos n)
    rw [toNat_len hes.sized htail, hes.head, hes.tail]
    rcases hends with ⟨h1, h2⟩ | ⟨h1, h2⟩
    · rw [h1, h2, Nat.zero_add, Nat.mod_eq_of_lt (by omega)]
      omega
    · rw [h1, h2, Nat.sub_zero, Nat.add_mod_right, Nat.mod_eq_of_lt hlt]
      exact hpos
  have hapart := hfifo.apart (es ++ [.push fun _ => 0, .produce]) .produce now.q.head (by
    rw [hrun]
    rfl)
  rw [hrun] at hapart
  have hdisjoint := hapart 0 hlen
  have hregion (slot : UInt32) : now.q.region slot = q.region slot := by
    unfold Queue.region Queue.slotPtr
    rw [hes.itemSize]
  have hindex : (now.q.tail + UInt32.ofNat 0) &&& now.q.mask = now.q.tail := by
    refine UInt32.toNat_inj.mp ?_
    rw [toNat_and_mask hes.sized, show now.q.tail + UInt32.ofNat 0 = now.q.tail from
      UInt32.add_zero _, hes.tail, Nat.mod_mod]
  rw [hindex, hregion, hregion] at hdisjoint
  refine Set.disjoint_left.mp hdisjoint (hk _ ?_) (hk _ ?_)
  · rw [hes.head]
    omega
  · rw [hes.tail]
    omega

/-! ## queues that are initialised -/

theorem toNat_pred {capacity : UInt32} (hcap : capacity.toNat = 2 ^ n) :
    (capacity - 1).toNat = 2 ^ n - 1 := by
  have hpos := Nat.two_pow_pos n
  have hlt := capacity.toNat_lt
  rw [UInt32.toNat_sub, UInt32.toNat_one]
  omega

theorem isPowerOf2_two_pow {capacity : UInt32} (hcap : capacity.toNat = 2 ^ n) :
    isPowerOf2 capacity = true := by
  have hpos := Nat.two_pow_pos n
  have hpred := toNat_pred hcap
  unfold isPowerOf2
  rw [Bool.and_eq_true, bne_iff_ne, beq_iff_eq]
  refine ⟨fun he => ?_, UInt32.toNat_inj.mp ?_⟩
  · rw [he] at hcap
    exact absurd hcap.symm (Nat.ne_of_gt hpos)
  · rw [UInt32.toNat_and, hpred, Nat.and_two_pow_sub_one_eq_mod, hcap, Nat.mod_self]
    rfl

theorem init_ok (hn : 1 ≤ n) {capacity itemSize : UInt32} (hcap : capacity.toNat = 2 ^ n)
    (hsize : itemSize ≠ 0) (buffer : Nat → UInt8) :
    ∃ q, init buffer capacity itemSize = .ok q ∧ Fresh n q ∧ q.itemSize = itemSize := by
  have hpos := Nat.two_pow_pos n
  have hlt : n < 32 := (Nat.pow_lt_pow_iff_right (by decide)).mp (hcap ▸ capacity.toNat_lt)
  have hzero : capacity ≠ 0 := fun he => by
    rw [he] at hcap
    exact absurd hcap.symm (Nat.ne_of_gt hpos)
  unfold init
  rw [if_neg (not_or.mpr ⟨hzero, hsize⟩), isPowerOf2_two_pow hcap]
  exact ⟨_, rfl, ⟨⟨hn, hlt, toNat_pred hcap, hcap⟩, rfl, rfl⟩, rfl⟩

/-- a queue of `2 ^ n` slots is a bounded FIFO exactly when its slots fit -/
theorem fifo_iff_fits (n : Nat) (hn : 1 ≤ n) (capacity itemSize : UInt32)
    (hcap : capacity.toNat = 2 ^ n) (hsize : itemSize ≠ 0) (buffer : Nat → UInt8) :
    ∃ q, init buffer capacity itemSize = .ok q ∧
      (Fifo q ↔ (2 ^ n - 1) * itemSize.toNat < 2 ^ 32) := by
  obtain ⟨q, hinit, hfresh, hq⟩ := init_ok hn hcap hsize buffer
  refine ⟨q, hinit, ?_⟩
  rw [← hq]
  exact ⟨fun hfifo => by_contra fun hf => hfresh.not_fifo hf hfifo, fun hf => hfresh.fifo hf⟩

/-- **Main.** For every order of the steps of one producer and one consumer, an initialised queue of
`2 ^ n` slots is a bounded FIFO exactly when the offsets of its slots fit in 32 bits. -/
theorem fifo_iff (n : Nat) (hn : 1 ≤ n) (capacity itemSize : UInt32)
    (hcap : capacity.toNat = 2 ^ n) (hsize : itemSize ≠ 0) (buffer : Nat → UInt8) :
    ∃ q, init buffer capacity itemSize = .ok q ∧
      (Fifo q ↔ (2 ^ n - 1) * itemSize.toNat < 2 ^ 32) :=
  fifo_iff_fits n hn capacity itemSize hcap hsize buffer

/-- four slots of 13 bytes, the size of a CAN frame -/
theorem fifo_four : ∃ q, init (fun _ => 0) 4 13 = .ok q ∧ Fifo q := by
  obtain ⟨q, hinit, hiff⟩ := fifo_iff 2 (by decide) 4 13 rfl (by decide) fun _ => 0
  exact ⟨q, hinit, hiff.mpr (by decide)⟩

/-- four slots of 2 GiB: the third begins where the first does -/
theorem not_fifo_huge : ∃ q, init (fun _ => 0) 4 0x80000000 = .ok q ∧ ¬ Fifo q := by
  obtain ⟨q, hinit, hiff⟩ := fifo_iff_fits 2 (by decide) 4 0x80000000 rfl (by decide) fun _ => 0
  exact ⟨q, hinit, fun h => absurd (hiff.mp h) (by decide)⟩

end Spsc
end EkKor
