import Mathlib.Data.List.Basic
import Mathlib.Data.Set.BooleanAlgebra
import Mathlib.Order.CompletePartialOrder
import EkKor.Lib.Circular
import EkKor.Spsc.Model

/-!
# The queue is a bounded FIFO

The items between the tail and the head are a list: a step of the producer adds to its end, a step
of the consumer takes from its front.  All of it needs slots that do not overlap.

* `Fits`          the offsets of the slots fit in 32 bits;
* `load_copy`     then a copy to one slot leaves the others alone;
* `Inv`           the queue holds a list, and what the local variables of the threads say of it;
* `Inv.produce`, `Inv.consume`   the steps;
* `Fifo`          what a bounded queue of two threads promises;
* `fifo`          the queue is one when the slots fit.
-/

namespace EkKor
namespace Spsc
open Runs (Machine)
open List
open Circular (Marks Holds)

/-! ## indices -/

/-- a queue of `2 ^ n` slots -/
structure Sized (n : Nat) (q : Queue) : Prop where
  pos : 1 ≤ n
  lt : n < 32
  mask : q.mask.toNat = 2 ^ n - 1
  capacity : q.capacity.toNat = 2 ^ n

def Fits (n : Nat) (q : Queue) : Prop := (2 ^ n - 1) * q.itemSize.toNat < 2 ^ 32

variable {n : Nat} {q : Queue}

theorem two_pow_le (hs : Sized n q) : 2 ^ n ≤ 2 ^ 31 := Nat.pow_le_pow_right (by decide) (by
  have := hs.lt
  omega)

theorem toNat_and_mask (hs : Sized n q) (i : UInt32) : (i &&& q.mask).toNat = i.toNat % 2 ^ n := by
  rw [UInt32.toNat_and, hs.mask, Nat.and_two_pow_sub_one_eq_mod]

theorem toNat_next (hs : Sized n q) (i : UInt32) : (q.next i).toNat = (i.toNat + 1) % 2 ^ n := by
  unfold Queue.next
  rw [toNat_and_mask hs, UInt32.toNat_add]
  exact Nat.mod_mod_of_dvd _ (Nat.pow_dvd_pow 2 (Nat.le_of_lt hs.lt))

theorem toNat_ofNat (hs : Sized n q) {i : Nat} (hi : i < 2 ^ n) : (UInt32.ofNat i).toNat = i := by
  have hle := two_pow_le hs
  exact UInt32.toNat_ofNat_of_lt' (Nat.lt_of_lt_of_le hi (Nat.le_trans hle (by decide)))

/-! ## slots -/

theorem slotPtr_eq (hf : Fits n q) {i : UInt32} (hi : i.toNat < 2 ^ n) :
    q.slotPtr i = i.toNat * q.itemSize.toNat := by
  unfold Queue.slotPtr
  rw [UInt32.toNat_mul]
  refine Nat.mod_eq_of_lt (Nat.lt_of_le_of_lt ?_ hf)
  exact Nat.mul_le_mul_right _ (by omega)

theorem region_disjoint (hf : Fits n q) {i j : UInt32} (hi : i.toNat < 2 ^ n)
    (hj : j.toNat < 2 ^ n) (hne : i ≠ j) : Disjoint (q.region i) (q.region j) := by
  have hstep {a b : UInt32} (ha : a.toNat < 2 ^ n) (hb : b.toNat < 2 ^ n)
      (hlt : a.toNat < b.toNat) {k : Nat} (hka : k ∈ q.region a) : k ∉ q.region b := by
    intro hkb
    have h1 := hka.2
    have h2 := hkb.1
    rw [slotPtr_eq hf ha] at h1
    rw [slotPtr_eq hf hb] at h2
    have hmul := Nat.mul_le_mul_right q.itemSize.toNat hlt
    rw [Nat.succ_mul] at hmul
    omega
  refine Set.disjoint_left.mpr fun k hki hkj => ?_
  rcases Nat.lt_or_gt_of_ne fun he => hne (UInt32.toNat_inj.mp he) with hlt | hgt
  · exact hstep hi hj hlt hki hkj
  · exact hstep hj hi hgt hkj hki

theorem mem_region (q : Queue) (i : UInt32) {k : Nat} (hk : k < q.itemSize.toNat) :
    q.slotPtr i + k ∈ q.region i :=
  ⟨Nat.le_add_right _ _, Nat.add_lt_add_left hk _⟩

theorem load_copy (hf : Fits n q) {i j : UInt32} (hi : i.toNat < 2 ^ n) (hj : j.toNat < 2 ^ n)
    (bytes : Nat → UInt8) :
    (q.copy i bytes).load j = if j = i then q.item bytes else q.load j := by
  split_ifs with he
  · subst he
    refine map_congr_left fun k hk => ?_
    have hmem := mem_region q j (mem_range.mp hk)
    refine (if_pos hmem).trans (congrArg bytes ?_)
    exact Nat.add_sub_cancel_left _ _
  · refine map_congr_left fun k hk => ?_
    have hmem := mem_region q j (mem_range.mp hk)
    exact if_neg fun hin => Set.disjoint_left.mp (region_disjoint hf hj hi he) hmem hin

def slots (q : Queue) (i : Nat) : List UInt8 := q.load (UInt32.ofNat i)

def marks (q : Queue) : Marks := ⟨q.head.toNat, q.tail.toNat⟩

theorem slots_toNat (q : Queue) (i : UInt32) : slots q i.toNat = q.load i := by
  unfold slots
  rw [UInt32.ofNat_toNat]

/-! ## what the threads know -/

/-- the local variables of the producer, when the queue holds `l` -/
def ProducerKnows (n : Nat) (q : Queue) (l : List (List UInt8)) : Producer → Prop
  | .idle => True
  | .pushHead _ head | .acquireHead head => head = q.head
  | .pushRoom _ head | .acquired head | .commitHead head => head = q.head ∧ l.length + 1 < 2 ^ n
  | .pushCopied bytes head =>
    head = q.head ∧ l.length + 1 < 2 ^ n ∧ q.load head = q.item bytes

/-- the local variables of the consumer, when the queue holds `l` -/
def ConsumerKnows (q : Queue) (l : List (List UInt8)) : Consumer → Prop
  | .idle => True
  | .popTail tail | .peekTail tail => tail = q.tail
  | .popItem tail => tail = q.tail ∧ l ≠ []
  | .popCopied tail item => tail = q.tail ∧ l.head? = some item
  | .peeked tail seen | .releaseTail tail seen =>
    tail = q.tail ∧ l ≠ [] ∧ ∀ item, seen = some item → l.head? = some item

/-- the queue holds `l` -/
structure Inv (n : Nat) (s : State) (l : List (List UInt8)) : Prop where
  sized : Sized n s.q
  fits : Fits n s.q
  holds : Holds (2 ^ n) (slots s.q) (marks s.q) l
  producer : ProducerKnows n s.q l s.producer
  consumer : ConsumerKnows s.q l s.consumer

variable {s : State} {l : List (List UInt8)}

theorem Inv.head_lt (h : Inv n s l) : s.q.head.toNat < 2 ^ n := by
  show (marks s.q).head < 2 ^ n
  rw [h.holds.head]
  exact Nat.mod_lt _ (Nat.two_pow_pos n)

theorem Inv.full_iff (h : Inv n s l) : s.q.next s.q.head = s.q.tail ↔ l.length + 1 = 2 ^ n := by
  rw [← h.holds.full_iff, ← UInt32.toNat_inj, toNat_next h.sized]
  rfl

theorem toNat_len (hs : Sized n q) (htail : q.tail.toNat < 2 ^ n) :
    q.len.toNat = (q.head.toNat + 2 ^ n - q.tail.toNat) % 2 ^ n := by
  unfold Queue.len
  have hpow : 2 ^ n ∣ 2 ^ 32 := Nat.pow_dvd_pow 2 (Nat.le_of_lt hs.lt)
  rw [toNat_and_mask hs, UInt32.toNat_sub, Nat.mod_mod_of_dvd _ hpow]
  obtain ⟨c, hc⟩ := hpow
  have hpos : 1 ≤ c := Nat.one_le_iff_ne_zero.mpr fun he => by
    rw [he, Nat.mul_zero] at hc
    exact absurd hc (by decide)
  have hsplit : 2 ^ 32 - q.tail.toNat + q.head.toNat =
      q.head.toNat + 2 ^ n - q.tail.toNat + 2 ^ n * (c - 1) := by
    rw [hc, Nat.mul_sub, Nat.mul_one]
    have hmul := Nat.mul_le_mul_left (2 ^ n) hpos
    omega
  rw [hsplit, Nat.add_mul_mod_self_left]

/-- **The length.** It is the number of the items. -/
theorem Inv.len_eq (h : Inv n s l) : s.q.len.toNat = l.length := by
  rw [toNat_len h.sized h.holds.tail, ← h.holds.length_eq]
  rfl

theorem Inv.isEmpty_iff (h : Inv n s l) : s.q.isEmpty = true ↔ l = [] := by
  unfold Queue.isEmpty
  rw [beq_iff_eq]
  constructor
  · intro heq
    cases hl : l with
    | nil => rfl
    | cons a l' =>
      have hne := (hl ▸ h.holds).uncons.1
      exact absurd (congrArg UInt32.toNat heq.symm) hne
  · intro hl
    exact UInt32.toNat_inj.mp (hl ▸ h.holds).nil_eq.symm

/-! ## the steps -/

/-- the steps of one thread: what comes in at the end of the list, and what goes out in front -/
structure Moves (n : Nat) (l : List (List UInt8)) (s' : State) (outs : List Out) : Prop where
  moved : ∃ l', Inv n s' l' ∧
    l ++ outs.filterMap Out.produced? = outs.filterMap Out.consumed? ++ l'
  full : .full ∈ outs → l.length + 1 = 2 ^ n

theorem Inv.moves (h : Inv n s l) : Moves n l s [] :=
  ⟨⟨l, h, append_nil l⟩, nofun⟩

theorem Inv.moves_full (h : Inv n s l) (hfull : l.length + 1 = 2 ^ n) : Moves n l s [.full] :=
  ⟨⟨l, h, append_nil l⟩, fun _ => hfull⟩

theorem Inv.copy (h : Inv n s l) (bytes : Nat → UInt8) (p : Producer)
    (hp : ProducerKnows n (s.q.copy s.q.head bytes) l p) :
    Inv n ⟨s.q.copy s.q.head bytes, p, s.consumer⟩ l := by
  refine ⟨⟨h.sized.pos, h.sized.lt, h.sized.mask, h.sized.capacity⟩, h.fits, ?_, hp, ?_⟩
  · refine (h.holds.write (s.q.item bytes)).congr fun i hi => ?_
    have hi' := toNat_ofNat h.sized hi
    show (s.q.copy s.q.head bytes).load (UInt32.ofNat i) = _
    rw [load_copy h.fits h.head_lt (by omega)]
    by_cases he : i = s.q.head.toNat
    · subst he
      rw [UInt32.ofNat_toNat, if_pos rfl]
      exact (Function.update_self (f := slots s.q) _ _).symm
    · rw [if_neg fun heq => he (by rw [← heq, hi'])]
      exact (Function.update_of_ne (f := slots s.q) he _).symm
  · have hc := h.consumer
    cases hs : s.consumer <;> rw [hs] at hc <;> exact hc

theorem Inv.publish (h : Inv n s l) (hroom : l.length + 1 < 2 ^ n) :
    Moves n l ⟨{ s.q with head := s.q.next s.q.head }, .idle, s.consumer⟩
      [.produced (s.q.load s.q.head)] := by
  refine ⟨⟨l ++ [s.q.load s.q.head], ⟨⟨h.sized.pos, h.sized.lt, h.sized.mask, h.sized.capacity⟩,
    h.fits, ?_, trivial, ?_⟩, rfl⟩, fun hfull => ?_⟩
  · have hpub := h.holds.publish hroom
    have hmarks : marks { s.q with head := s.q.next s.q.head } =
        ⟨((marks s.q).head + 1) % 2 ^ n, (marks s.q).tail⟩ := by
      unfold marks
      rw [toNat_next h.sized]
    have hslot : slots s.q (marks s.q).head = s.q.load s.q.head := slots_toNat s.q s.q.head
    rw [hslot, ← hmarks] at hpub
    exact hpub
  · have hc := h.consumer
    have hhead {item : List UInt8} (hl : l.head? = some item) :
        (l ++ [s.q.load s.q.head]).head? = some item := by
      rw [head?_append, hl]
      rfl
    have hne : l ++ [s.q.load s.q.head] ≠ [] := concat_ne_nil _ _
    cases hs : s.consumer with
    | idle => trivial
    | popTail tail | peekTail tail =>
      rw [hs] at hc
      exact hc
    | popItem tail =>
      rw [hs] at hc
      exact ⟨hc.1, hne⟩
    | popCopied tail item =>
      rw [hs] at hc
      exact ⟨hc.1, hhead hc.2⟩
    | peeked tail seen | releaseTail tail seen =>
      rw [hs] at hc
      exact ⟨hc.1, hne, fun item hseen => hhead (hc.2.2 item hseen)⟩
  · exact nomatch mem_singleton.mp hfull

theorem Inv.remove {a : List UInt8} (h : Inv n s (a :: l)) :
    Moves n (a :: l) ⟨{ s.q with tail := s.q.next s.q.tail }, s.producer, .idle⟩
      [.consumed a] := by
  refine ⟨⟨l, ⟨⟨h.sized.pos, h.sized.lt, h.sized.mask, h.sized.capacity⟩, h.fits, ?_, ?_, trivial⟩,
    append_nil _⟩, fun hfull => ?_⟩
  · have hrest := h.holds.uncons.2.2
    have hmarks : marks { s.q with tail := s.q.next s.q.tail } =
        ⟨(marks s.q).head, ((marks s.q).tail + 1) % 2 ^ n⟩ := by
      unfold marks
      rw [toNat_next h.sized]
    rw [← hmarks] at hrest
    exact hrest
  · have hp := h.producer
    have hshort (hl : (a :: l).length + 1 < 2 ^ n) : l.length + 1 < 2 ^ n := by
      rw [length_cons] at hl
      omega
    cases hs : s.producer with
    | idle => trivial
    | pushHead bytes head | acquireHead head =>
      rw [hs] at hp
      exact hp
    | pushRoom bytes head | acquired head | commitHead head =>
      rw [hs] at hp
      exact ⟨hp.1, hshort hp.2⟩
    | pushCopied bytes head =>
      rw [hs] at hp
      exact ⟨hp.1, hshort hp.2.1, hp.2.2⟩
  · exact nomatch mem_singleton.mp hfull

theorem Inv.head_eq (h : Inv n s l) (hne : l ≠ []) : l.head? = some (s.q.load s.q.tail) := by
  cases l with
  | nil => exact absurd rfl hne
  | cons a l =>
    rw [← slots_toNat]
    exact congrArg some h.holds.uncons.2.1.symm

theorem Inv.withProducer (h : Inv n s l) (p : Producer) (hp : ProducerKnows n s.q l p) :
    Inv n ⟨s.q, p, s.consumer⟩ l :=
  ⟨h.sized, h.fits, h.holds, hp, h.consumer⟩

theorem Inv.withConsumer (h : Inv n s l) (c : Consumer) (hc : ConsumerKnows s.q l c) :
    Inv n ⟨s.q, s.producer, c⟩ l :=
  ⟨h.sized, h.fits, h.holds, h.producer, hc⟩

/-- **A step of the producer.** -/
theorem Inv.produce (h : Inv n s l) (e : Event) :
    Moves n l ⟨(produce s.q s.producer e).1, (produce s.q s.producer e).2.1, s.consumer⟩
      (produce s.q s.producer e).2.2 := by
  have hp := h.producer
  have hidle := h.withProducer .idle trivial
  have hfull := fun he => hidle.moves_full (h.full_iff.mp he)
  have hroom : s.q.next s.q.head ≠ s.q.tail → l.length + 1 < 2 ^ n := fun hne =>
    Nat.lt_of_le_of_ne h.holds.free fun he => hne (h.full_iff.mpr he)
  unfold Spsc.produce
  split
  next bytes heq => exact (h.withProducer (.pushHead bytes s.q.head) rfl).moves
  next bytes head heq =>
    rw [heq] at hp
    obtain rfl : head = s.q.head := hp
    split_ifs with hcheck
    · exact hfull hcheck
    · exact (h.withProducer (.pushRoom bytes s.q.head) ⟨rfl, hroom hcheck⟩).moves
  next bytes head heq =>
    rw [heq] at hp
    obtain ⟨rfl, hlt⟩ := hp
    have hload : (s.q.copy s.q.head bytes).load s.q.head = s.q.item bytes := by
      rw [load_copy h.fits h.head_lt h.head_lt, if_pos rfl]
    exact (h.copy bytes (.pushCopied bytes s.q.head) ⟨rfl, hlt, hload⟩).moves
  next bytes head heq =>
    rw [heq] at hp
    obtain ⟨rfl, hlt, hload⟩ := hp
    have hpub := h.publish hlt
    rw [hload] at hpub
    exact hpub
  next heq => exact (h.withProducer (.acquireHead s.q.head) rfl).moves
  next head heq =>
    rw [heq] at hp
    obtain rfl : head = s.q.head := hp
    split_ifs with hcheck
    · exact hfull hcheck
    · exact (h.withProducer (.acquired s.q.head) ⟨rfl, hroom hcheck⟩).moves
  next slot bytes heq =>
    rw [heq] at hp
    obtain ⟨rfl, hlt⟩ := hp
    exact (h.copy bytes (.acquired s.q.head) ⟨rfl, hlt⟩).moves
  next slot heq =>
    rw [heq] at hp
    exact (h.withProducer (.commitHead s.q.head) ⟨rfl, hp.2⟩).moves
  next head heq =>
    rw [heq] at hp
    obtain ⟨rfl, hlt⟩ := hp
    exact h.publish hlt
  next => exact h.moves

/-- **A step of the consumer.** -/
theorem Inv.consume (h : Inv n s l) (e : Event) :
    Moves n l ⟨(consume s.q s.consumer e).1, s.producer, (consume s.q s.consumer e).2.1⟩
      (consume s.q s.consumer e).2.2 := by
  have hc := h.consumer
  have hsome : s.q.tail ≠ s.q.head → l ≠ [] := fun hne hl =>
    hne (beq_iff_eq.mp (h.isEmpty_iff.mpr hl)).symm
  have hremove {item : List UInt8} (hl : l.head? = some item) :
      Moves n l ⟨{ s.q with tail := s.q.next s.q.tail }, s.producer, .idle⟩ [.consumed item] := by
    cases l with
    | nil => exact nomatch hl
    | cons a l =>
      obtain rfl : a = item := Option.some.inj hl
      exact h.remove
  have hnone : Moves n l ⟨s.q, s.producer, .idle⟩ [.empty] :=
    ⟨⟨l, h.withConsumer .idle trivial, append_nil l⟩, fun hfull =>
      nomatch mem_singleton.mp hfull⟩
  unfold Spsc.consume
  split
  next heq => exact (h.withConsumer (.popTail s.q.tail) rfl).moves
  next tail heq =>
    rw [heq] at hc
    obtain rfl : tail = s.q.tail := hc
    split_ifs with hcheck
    · exact hnone
    · exact (h.withConsumer (.popItem s.q.tail) ⟨rfl, hsome hcheck⟩).moves
  next tail heq =>
    rw [heq] at hc
    obtain ⟨rfl, hne⟩ := hc
    exact (h.withConsumer (.popCopied s.q.tail _) ⟨rfl, h.head_eq hne⟩).moves
  next tail item heq =>
    rw [heq] at hc
    obtain ⟨rfl, hl⟩ := hc
    exact hremove hl
  next heq => exact (h.withConsumer (.peekTail s.q.tail) rfl).moves
  next tail heq =>
    rw [heq] at hc
    obtain rfl : tail = s.q.tail := hc
    split_ifs with hcheck
    · exact hnone
    · exact (h.withConsumer (.peeked s.q.tail none) ⟨rfl, hsome hcheck, nofun⟩).moves
  next slot seen heq =>
    rw [heq] at hc
    obtain ⟨rfl, hne, -⟩ := hc
    refine (h.withConsumer (.peeked s.q.tail _) ⟨rfl, hne, fun item hitem => ?_⟩).moves
    rw [← Option.some.inj hitem]
    exact h.head_eq hne
  next slot seen heq =>
    rw [heq] at hc
    exact (h.withConsumer (.releaseTail s.q.tail seen) ⟨rfl, hc.2⟩).moves
  next tail seen heq =>
    rw [heq] at hc
    obtain ⟨rfl, hne, hseen⟩ := hc
    refine hremove ?_
    cases seen with
    | none => exact h.head_eq hne
    | some item => exact hseen item rfl
  next => exact h.moves

theorem Inv.step (h : Inv n s l) (e : Event) :
    Moves n l (Spsc.step s e).1 (Spsc.step s e).2 := by
  unfold Spsc.step
  split_ifs
  · exact h.produce e
  · exact h.consume e

theorem Inv.writes_eq (h : Inv n s l) {e : Event} {slot : UInt32} (hw : s.writes e = some slot) :
    slot = s.q.head ∧ l.length + 1 < 2 ^ n := by
  have hp := h.producer
  unfold State.writes at hw
  split at hw
  · split at hw
    next bytes head heq =>
      rw [heq] at hp
      rw [← Option.some.inj hw]
      exact hp
    next => exact nomatch hw
  · split at hw
    next head heq =>
      rw [heq] at hp
      rw [← Option.some.inj hw]
      exact hp
    next => exact nomatch hw
  · exact nomatch hw

/-! ## the promise -/

/-- **A bounded FIFO.** For every order of the steps of the two threads. -/
structure Fifo (q : Queue) : Prop where
  /-- what comes out is a prefix of what went in -/
  inOrder : ∀ es, consumed q es <+: produced q es
  /-- one slot stays free -/
  bounded : ∀ es, stored q es ≤ q.capacity.toNat - 1
  /-- a push fails only when all other slots are taken at its check -/
  full : ∀ es e, .full ∈ (ring q).outs ((ring q).run es) e → stored q es = q.capacity.toNat - 1
  /-- the producer does not write to a slot that the consumer may still read -/
  apart : ∀ es e slot, ((ring q).run es).writes e = some slot →
    let now := ((ring q).run es).q
    ∀ j < now.len.toNat,
      Disjoint (now.region slot) (now.region ((now.tail + UInt32.ofNat j) &&& now.mask))

/-- the queue before its first call -/
structure Fresh (n : Nat) (q : Queue) : Prop where
  sized : Sized n q
  head : q.head = 0
  tail : q.tail = 0

theorem Fresh.inv (h : Fresh n q) (hf : Fits n q) : Inv n ⟨q, .idle, .idle⟩ [] := by
  have hpos := Nat.two_pow_pos n
  have hmarks : marks q = ⟨0, 0⟩ := by
    unfold marks
    rw [h.head, h.tail]
    rfl
  refine ⟨h.sized, hf, ?_, trivial, trivial⟩
  rw [hmarks]
  exact ⟨hpos, hpos, (Nat.zero_mod _).symm, nofun⟩

/-- **A run.** What went in is what came out and what the queue holds. -/
theorem holds_run (h : Fresh n q) (hf : Fits n q) (es : List Event) :
    ∃ l, Inv n ((ring q).run es) l ∧ produced q es = consumed q es ++ l := by
  induction es using List.reverseRecOn with
  | nil => exact ⟨[], h.inv hf, rfl⟩
  | append_singleton es e ih =>
    obtain ⟨l, hl, hsplit⟩ := ih
    obtain ⟨l', hl', hmoved⟩ := (hl.step e).moved
    refine ⟨l', ?_, ?_⟩
    · rw [Machine.run_concat]
      exact hl'
    · unfold produced consumed
      rw [Machine.trace_concat, filterMap_append, filterMap_append, append_assoc]
      refine Eq.trans ?_ (congrArg _ hmoved)
      rw [← append_assoc]
      exact congrArg (· ++ _) hsplit

/-- **The queue is a bounded FIFO** when the offsets of its slots fit in 32 bits. -/
theorem Fresh.fifo (h : Fresh n q) (hf : Fits n q) : Fifo q := by
  have hcap := h.sized.capacity
  have hstored {es : List Event} {l : List (List UInt8)} (hsplit : produced q es =
      consumed q es ++ l) : stored q es = l.length := by
    unfold stored
    rw [hsplit, length_append, Nat.add_sub_cancel_left]
  refine ⟨fun es => ?_, fun es => ?_, fun es e hfull => ?_, fun es e slot hwrite => ?_⟩
  · obtain ⟨l, -, hsplit⟩ := holds_run h hf es
    exact ⟨l, hsplit.symm⟩
  · obtain ⟨l, hl, hsplit⟩ := holds_run h hf es
    have hfree := hl.holds.free
    rw [hstored hsplit, hcap]
    omega
  · obtain ⟨l, hl, hsplit⟩ := holds_run h hf es
    have hlen := (hl.step e).full hfull
    rw [hstored hsplit, hcap]
    omega
  · obtain ⟨l, hl, -⟩ := holds_run h hf es
    obtain ⟨hslot, hroom⟩ := hl.writes_eq hwrite
    intro now j hj
    rw [hl.len_eq] at hj
    have hlt : l.length < 2 ^ n := hl.holds.free
    have hindex : ((now.tail + UInt32.ofNat j) &&& now.mask).toNat =
        (now.tail.toNat + j) % 2 ^ n := by
      rw [toNat_and_mask hl.sized, UInt32.toNat_add, toNat_ofNat hl.sized (by omega)]
      exact Nat.mod_mod_of_dvd _ (Nat.pow_dvd_pow 2 (Nat.le_of_lt hl.sized.lt))
    rw [hslot]
    refine region_disjoint hl.fits hl.head_lt ?_ fun he => ?_
    · rw [hindex]
      exact Nat.mod_lt _ (Nat.two_pow_pos n)
    · have hhead : now.head.toNat = (now.tail.toNat + l.length) % 2 ^ n := hl.holds.head
      have heq := congrArg UInt32.toNat he
      rw [hindex, hhead] at heq
      exact absurd (Circular.add_mod_inj hlt (by omega) heq) (by omega)

end Spsc
end EkKor
