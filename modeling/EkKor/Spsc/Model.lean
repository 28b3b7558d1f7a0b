import EkKor.Lib.Runs
import EkKor.Types

/-!
# The queue of one producer and one consumer (`ekk_spsc.c`)

Each load or store of `head`, of `tail` and of a slot is one step.  A thread is at one of a few
places of the function that it runs; an event is the next step of one of the threads.

* `Queue`, `init`, `len`   the data, the initialisation and the queries;
* `Queue.load`, `Queue.copy`   the `memcpy` from and to a slot;
* `Producer`, `Consumer`   the places of `push`, `push_acquire`, `push_commit`, and of `pop`,
                           `pop_peek`, `pop_release`;
* `ring`                   the machine of both threads.
-/

namespace EkKor
namespace Spsc
open Runs (Machine)

/-! ## the queue -/

/-- `ekk_spsc_t`; the buffer by its bytes -/
structure Queue where
  head : UInt32
  tail : UInt32
  buffer : Nat → UInt8
  capacity : UInt32
  mask : UInt32
  itemSize : UInt32

/-- `is_power_of_2` -/
def isPowerOf2 (n : UInt32) : Bool := n != 0 && n &&& (n - 1) == 0

/-- `ekk_spsc_init`, for pointers that are not null -/
def init (buffer : Nat → UInt8) (capacity itemSize : UInt32) : Except Err Queue :=
  if capacity = 0 ∨ itemSize = 0 then .error .invalidArg
  else if !isPowerOf2 capacity then .error .invalidArg
  else
    .ok
      { buffer := fun k => if k < (capacity * itemSize).toNat then 0 else buffer k
        capacity := capacity
        mask := capacity - 1
        itemSize := itemSize
        head := 0
        tail := 0 }

namespace Queue

/-- `slot_ptr`: the offset of a slot, a product of 32 bits -/
def slotPtr (q : Queue) (index : UInt32) : Nat := (index * q.itemSize).toNat

def region (q : Queue) (index : UInt32) : Set Nat :=
  {k | q.slotPtr index ≤ k ∧ k < q.slotPtr index + q.itemSize.toNat}

def item (q : Queue) (bytes : Nat → UInt8) : List UInt8 := (List.range q.itemSize.toNat).map bytes

def load (q : Queue) (index : UInt32) : List UInt8 := q.item fun k => q.buffer (q.slotPtr index + k)

def copy (q : Queue) (index : UInt32) (bytes : Nat → UInt8) : Queue :=
  { q with
    buffer := fun k =>
      if q.slotPtr index ≤ k ∧ k < q.slotPtr index + q.itemSize.toNat then
        bytes (k - q.slotPtr index)
      else q.buffer k }

/-- `next_head`, and the next tail -/
def next (q : Queue) (index : UInt32) : UInt32 := (index + 1) &&& q.mask

/-- `ekk_spsc_len` -/
def len (q : Queue) : UInt32 := (q.head - q.tail) &&& q.mask

/-- `ekk_spsc_is_empty` -/
def isEmpty (q : Queue) : Bool := q.head == q.tail

/-- `ekk_spsc_is_full` -/
def isFull (q : Queue) : Bool := q.next q.head == q.tail

end Queue

/-! ## the threads -/

/-- what a caller sees: an item goes in or out of the queue, or its call fails -/
inductive Out where
  | produced (item : List UInt8)
  | full
  | consumed (item : List UInt8)
  | empty
  deriving DecidableEq

/-- where the producer is, with its local variables -/
inductive Producer where
  | idle
  /-- `push` has loaded the head -/
  | pushHead (bytes : Nat → UInt8) (head : UInt32)
  /-- `push` has loaded the tail, and there is room -/
  | pushRoom (bytes : Nat → UInt8) (head : UInt32)
  /-- `push` has copied the item -/
  | pushCopied (bytes : Nat → UInt8) (head : UInt32)
  /-- `push_acquire` has loaded the head -/
  | acquireHead (head : UInt32)
  /-- the caller of `push_acquire` has a slot -/
  | acquired (slot : UInt32)
  /-- `push_commit` has loaded the head -/
  | commitHead (head : UInt32)

/-- where the consumer is, with its local variables; `seen` is what was read last from the slot -/
inductive Consumer where
  | idle
  /-- `pop` has loaded the tail -/
  | popTail (tail : UInt32)
  /-- `pop` has loaded the head, and there is an item -/
  | popItem (tail : UInt32)
  /-- `pop` has copied the item -/
  | popCopied (tail : UInt32) (item : List UInt8)
  /-- `pop_peek` has loaded the tail -/
  | peekTail (tail : UInt32)
  /-- the caller of `pop_peek` has a slot -/
  | peeked (slot : UInt32) (seen : Option (List UInt8))
  /-- `pop_release` has loaded the tail -/
  | releaseTail (tail : UInt32) (seen : Option (List UInt8))

/-- the first step of a call, an access of the caller to the slot it has, or the next step of the
call that runs (`produce`, `consume`) -/
inductive Event where
  | push (bytes : Nat → UInt8)
  | acquire
  | fill (bytes : Nat → UInt8)
  | commit
  | produce
  | pop
  | peek
  | read
  | release
  | consume

def produce (q : Queue) : Producer → Event → Queue × Producer × List Out
  | .idle, .push bytes => (q, .pushHead bytes q.head, [])
  | .pushHead bytes head, .produce =>
    if q.next head = q.tail then (q, .idle, [.full]) else (q, .pushRoom bytes head, [])
  | .pushRoom bytes head, .produce => (q.copy head bytes, .pushCopied bytes head, [])
  | .pushCopied bytes head, .produce =>
    ({ q with head := q.next head }, .idle, [.produced (q.item bytes)])
  | .idle, .acquire => (q, .acquireHead q.head, [])
  | .acquireHead head, .produce =>
    if q.next head = q.tail then (q, .idle, [.full]) else (q, .acquired head, [])
  | .acquired slot, .fill bytes => (q.copy slot bytes, .acquired slot, [])
  | .acquired _, .commit => (q, .commitHead q.head, [])
  | .commitHead head, .produce =>
    ({ q with head := q.next head }, .idle, [.produced (q.load head)])
  | p, _ => (q, p, [])

def consume (q : Queue) : Consumer → Event → Queue × Consumer × List Out
  | .idle, .pop => (q, .popTail q.tail, [])
  | .popTail tail, .consume =>
    if tail = q.head then (q, .idle, [.empty]) else (q, .popItem tail, [])
  | .popItem tail, .consume => (q, .popCopied tail (q.load tail), [])
  | .popCopied tail item, .consume => ({ q with tail := q.next tail }, .idle, [.consumed item])
  | .idle, .peek => (q, .peekTail q.tail, [])
  | .peekTail tail, .consume =>
    if tail = q.head then (q, .idle, [.empty]) else (q, .peeked tail none, [])
  | .peeked slot _, .read => (q, .peeked slot (some (q.load slot)), [])
  | .peeked _ seen, .release => (q, .releaseTail q.tail seen, [])
  | .releaseTail tail seen, .consume =>
    -- a slot that was released unread counts with what it holds
    ({ q with tail := q.next tail }, .idle, [.consumed (seen.getD (q.load tail))])
  | c, _ => (q, c, [])

/-! ## the machine -/

structure State where
  q : Queue
  producer : Producer
  consumer : Consumer

def Event.isProducers : Event → Bool
  | .push _ | .acquire | .fill _ | .commit | .produce => true
  | _ => false

def step (s : State) (e : Event) : State × List Out :=
  if e.isProducers then
    let (q, producer, outs) := produce s.q s.producer e
    (⟨q, producer, s.consumer⟩, outs)
  else
    let (q, consumer, outs) := consume s.q s.consumer e
    (⟨q, s.producer, consumer⟩, outs)

/-- both threads in any order, from the queue after `ekk_spsc_init` -/
def ring (q : Queue) : Machine State Event Out := ⟨⟨q, .idle, .idle⟩, step⟩

def State.writes (s : State) : Event → Option UInt32
  | .produce =>
    match s.producer with
    | .pushRoom _ head => some head
    | _ => none
  | .fill _ =>
    match s.producer with
    | .acquired slot => some slot
    | _ => none
  | _ => none

def Out.produced? : Out → Option (List UInt8)
  | .produced item => some item
  | _ => none

def Out.consumed? : Out → Option (List UInt8)
  | .consumed item => some item
  | _ => none

def produced (q : Queue) (es : List Event) : List (List UInt8) :=
  ((ring q).trace es).filterMap Out.produced?

def consumed (q : Queue) (es : List Event) : List (List UInt8) :=
  ((ring q).trace es).filterMap Out.consumed?

def stored (q : Queue) (es : List Event) : Nat := (produced q es).length - (consumed q es).length

end Spsc
end EkKor
