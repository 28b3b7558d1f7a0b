import EkKor.Lib.Circular
import EkKor.Lib.Runs
import EkKor.Types

/-!
# Message queues and their clients

* `MsgQueue`   the queues of the cores;
* `Client`     a core that waits for a reply.
-/

/-!
# Message queues between cores (`msg_queue.c`)

Each core has a queue, into which any core sends.  Each load or store of `head`, `tail`, of the flag
`valid` of a slot and of its content is one step; a core makes the steps of one call after the other,
and the steps of different cores come in any order.

* `sendStep`, `recvStep`   the steps of a call;
* `msgQueueSend`, `msgQueueRecv`   a call whose steps come one right after the other;
* `targets`       the queues that a call of `msg_queue_send` sends to;
* `step`, `cores` the machine of all cores.
-/

namespace EkKor
namespace MsgQueue
open Circular (Marks)
open Runs (Machine)

/-- `MSG_QUEUE_SIZE` -/
abbrev msgQueueSize : Nat := 64

/-- `MSG_MAX_LEN` -/
abbrev msgMaxLen : Nat := 64

/-- `MAX_CORES` -/
abbrev maxCores : Nat := 4

/-- `MSG_BROADCAST` -/
abbrev msgBroadcast : Nat := 0xFF

/-! ## the queue -/

/-- the content of a slot; the length is that of the data -/
structure Message where
  senderId : ModuleId
  msgType : UInt8
  data : List UInt8
  deriving DecidableEq

/-- `msg_slot_t` -/
structure Slot where
  content : Message
  valid : Bool
  deriving DecidableEq

/-- `core_queue_t` -/
structure Queue where
  slots : Nat → Slot
  marks : Marks

/-- a queue that `msg_queue_init` has cleared -/
def Queue.zero : Queue := ⟨fun _ => ⟨⟨0, 0, []⟩, false⟩, ⟨0, 0⟩⟩

def Queue.store (q : Queue) (i : Nat) (msg : Message) : Queue :=
  { q with slots := Function.update q.slots i ⟨msg, (q.slots i).valid⟩ }

def Queue.setValid (q : Queue) (i : Nat) (valid : Bool) : Queue :=
  { q with slots := Function.update q.slots i ⟨(q.slots i).content, valid⟩ }

/-! ## calls -/

/-- the next step of a send to one queue, with its local variables -/
inductive SendAt where
  | loadHead
  | loadTail (head : Nat)
  | store (head : Nat)
  | setValid (head : Nat)
  | storeHead (head : Nat)
  deriving DecidableEq

/-- the next step of a receive -/
inductive RecvAt where
  | loadTail
  | loadHead (tail : Nat)
  | loadValid (tail : Nat)
  | load (tail : Nat)
  | clearValid (tail : Nat) (msg : Message)
  | storeTail (tail : Nat) (msg : Message)
  deriving DecidableEq

/-- a step of `msg_queue_send` to a queue: the next step, or whether it succeeded -/
def sendStep (q : Queue) (msg : Message) : SendAt → Queue × (SendAt ⊕ Bool)
  | .loadHead => (q, .inl (.loadTail q.marks.head))
  | .loadTail head =>
    if (head + 1) % msgQueueSize = q.marks.tail then (q, .inr false) else (q, .inl (.store head))
  | .store head => (q.store head msg, .inl (.setValid head))
  | .setValid head => (q.setValid head true, .inl (.storeHead head))
  | .storeHead head =>
    ({ q with marks := ⟨(head + 1) % msgQueueSize, q.marks.tail⟩ }, .inr true)

/-- a step of `msg_queue_recv`: the next step, or the message -/
def recvStep (q : Queue) : RecvAt → Queue × (RecvAt ⊕ Option Message)
  | .loadTail => (q, .inl (.loadHead q.marks.tail))
  | .loadHead tail => if tail = q.marks.head then (q, .inr none) else (q, .inl (.loadValid tail))
  | .loadValid tail =>
    if (q.slots tail).valid = true then (q, .inl (.load tail)) else (q, .inr none)
  | .load tail => (q, .inl (.clearValid tail (q.slots tail).content))
  | .clearValid tail msg => (q.setValid tail false, .inl (.storeTail tail msg))
  | .storeTail tail msg =>
    ({ q with marks := ⟨q.marks.head, (tail + 1) % msgQueueSize⟩ }, .inr (some msg))

def msgQueueSend (q : Queue) (msg : Message) : Queue × Bool :=
  let head := q.marks.head
  let nextHead := (head + 1) % msgQueueSize
  if nextHead = q.marks.tail then (q, false)
  else ({ (q.store head msg).setValid head true with marks := ⟨nextHead, q.marks.tail⟩ }, true)

def msgQueueRecv (q : Queue) : Queue × Option Message :=
  let tail := q.marks.tail
  if tail = q.marks.head then (q, none)
  else if (q.slots tail).valid = true then
    ({ q.setValid tail false with marks := ⟨q.marks.head, (tail + 1) % msgQueueSize⟩ },
      some (q.slots tail).content)
  else (q, none)

/-- the queues that `msg_queue_send` of a core sends to, one after the other -/
def targets (core dest : Nat) : List Nat :=
  if dest = msgBroadcast then (List.range maxCores).filter fun i => decide (i ≠ core) else [dest]

/-! ## the cores -/

/-- what a core does -/
inductive Place where
  | idle
  /-- a send to the queue `dest`; those of `rest` come next -/
  | send (msg : Message) (dest : Nat) (rest : List Nat) (point : SendAt)
  /-- a receive, with a buffer of `len` bytes -/
  | recv (len : Nat) (point : RecvAt)
  deriving DecidableEq

/-- what the callers see -/
inductive Out where
  | accepted (dest : Nat) (msg : Message)
  | rejected (dest : Nat) (msg : Message)
  /-- a message, of which the call copies the first `len` bytes -/
  | received (core : Nat) (msg : Message) (len : Nat)
  | empty (core : Nat)
  deriving DecidableEq

/-- all queues and all cores -/
structure System where
  queues : Nat → Queue
  cores : Nat → Place

/-- the call of a core with the next step of the call that runs -/
inductive Event where
  | send (core dest : Nat) (msg : Message)
  | recv (core len : Nat)
  | step (core : Nat)

def enter (msg : Message) : List Nat → Place × List Out
  | [] => (.idle, [])
  | dest :: rest =>
    if maxCores ≤ dest ∨ msgMaxLen < msg.data.length then
      let (place, outs) := enter msg rest
      (place, .rejected dest msg :: outs)
    else (.send msg dest rest .loadHead, [])

def System.setCore (s : System) (core : Nat) (place : Place) : System :=
  { s with cores := Function.update s.cores core place }

def System.setQueue (s : System) (dest : Nat) (q : Queue) : System :=
  { s with queues := Function.update s.queues dest q }

def step (s : System) : Event → System × List Out
  | .send core dest msg =>
    match s.cores core with
    | .idle =>
      let (place, outs) := enter msg (targets core dest)
      (s.setCore core place, outs)
    | _ => (s, [])
  | .recv core len =>
    match s.cores core with
    | .idle => (s.setCore core (.recv len .loadTail), [])
    | _ => (s, [])
  | .step core =>
    match s.cores core with
    | .idle => (s, [])
    | .send msg dest rest point =>
      match sendStep (s.queues dest) msg point with
      | (q, .inl point) => ((s.setQueue dest q).setCore core (.send msg dest rest point), [])
      | (q, .inr ok) =>
        let (place, outs) := enter msg rest
        ((s.setQueue dest q).setCore core place,
          (if ok = true then .accepted dest msg else .rejected dest msg) :: outs)
    | .recv len point =>
      match recvStep (s.queues core) point with
      | (q, .inl point) => ((s.setQueue core q).setCore core (.recv len point), [])
      | (q, .inr none) => ((s.setQueue core q).setCore core .idle, [.empty core])
      | (q, .inr (some msg)) => ((s.setQueue core q).setCore core .idle, [.received core msg len])

/-- the cores, after `msg_queue_init` -/
def cores : Machine System Event Out := ⟨⟨fun _ => .zero, fun _ => .idle⟩, step⟩

def accepted (dest : Nat) (outs : List Out) : List Message :=
  outs.filterMap fun out =>
    match out with
    | .accepted dest' msg => if dest' = dest then some msg else none
    | _ => none

def Message.cut (msg : Message) (len : Nat) : Message := { msg with data := msg.data.take len }

def received (core : Nat) (outs : List Out) : List Message :=
  outs.filterMap fun out =>
    match out with
    | .received core' msg len => if core' = core then some (msg.cut len) else none
    | _ => none

end MsgQueue
end EkKor

/-!
# Waiting for a reply (`ekk_fs_client.c`, `ekkdb_client.c`)

A core asks the server with a message and then looks at its own queue until the reply is there or a
second is over.  The queue is the one in which all other messages to the core arrive.

* `Waiting.matches`   the test of the loop;
* `Event`        what happens at the core, a call of the queue at a time;
* `step`, `client`   the core.
-/

namespace EkKor
namespace Client
open MsgQueue (Message Queue msgQueueSend msgQueueRecv msgMaxLen)
open Runs (Machine)

/-! ## requests -/

/-- which server: `fs_send_request` or `db_send_request` -/
inductive Service where
  | fs
  | db
  deriving DecidableEq

/-- `MSG_TYPE_FS_RESPONSE`, `MSG_TYPE_DB_RESPONSE` -/
def Service.response : Service → UInt8
  | .fs => 0x21
  | .db => 0x31

/-- the bytes of a response; those that no message has written are whatever they were -/
abbrev Buffer : Type := Nat → UInt8

/-- `sizeof(ekkfs_response_t)`, `sizeof(ekkdb_response_t)` -/
abbrev responseSize : Nat := 64

/-- the copy of `msg_queue_recv` to the buffer -/
def Buffer.copy (resp : Buffer) (msg : Message) : Buffer := fun i =>
  (msg.data.take responseSize).getD i (resp i)

/-- `resp->req_id` -/
def Buffer.reqId (resp : Buffer) : UInt16 := (resp 2).toUInt16 ||| (resp 3).toUInt16 <<< 8

/-- `resp->status` -/
def Buffer.status (resp : Buffer) : UInt8 := resp 0

/-- a call that waits -/
structure Waiting where
  service : Service
  reqId : UInt16
  resp : Buffer

def Waiting.matches (w : Waiting) (msg : Message) : Bool :=
  decide (msg.msgType = w.service.response ∧ (w.resp.copy msg).reqId = w.reqId)

/-! ## the core -/

/-- the queue of the core, the call that waits, `g_request_id` and `g_db_request_id` -/
structure State where
  queue : Queue
  waiting : Option Waiting
  requestId : Service → UInt16

/-- what happens at the core -/
inductive Event where
  /-- a core sends to this core -/
  | arrive (msg : Message)
  /-- the core receives by `msg_queue_recv` or `ekk_hal_recv`, with a buffer of `len` bytes -/
  | recv (len : Nat)
  /-- the core calls a function of the client; `sent` says whether the server's queue had room -/
  | request (service : Service) (sent : Bool) (resp : Buffer)
  /-- the loop looks at the queue -/
  | poll
  /-- the second is over -/
  | timeout
  /-- another core calls a function of the client -/
  | otherRequest (service : Service)

/-- what the callers see -/
inductive Out where
  | arrived (msg : Message)
  | refused (msg : Message)
  /-- a message, of which the call copies the first `len` bytes -/
  | received (msg : Message) (len : Nat)
  | empty
  /-- the call returns with the reply: zero, or the status as a negative number -/
  | replied (msg : Message) (result : Int)
  | ioError
  | timedOut
  deriving DecidableEq

def State.take (s : State) (service : Service) : State :=
  { s with requestId := Function.update s.requestId service (s.requestId service + 1) }

def result (resp : Buffer) : Int := if resp.status ≠ 0 then -(resp.status.toNat : Int) else 0

def step (s : State) : Event → State × List Out
  | .arrive msg =>
    if msgMaxLen < msg.data.length then (s, [.refused msg])
    else
      let (q, ok) := msgQueueSend s.queue msg
      ({ s with queue := q }, if ok = true then [.arrived msg] else [.refused msg])
  | .recv len =>
    match s.waiting with
    | none =>
      match msgQueueRecv s.queue with
      | (q, none) => ({ s with queue := q }, [.empty])
      | (q, some msg) => ({ s with queue := q }, [.received msg len])
    | some _ => (s, [])
  | .request service sent resp =>
    match s.waiting with
    | none =>
      if sent = true then
        ({ s.take service with waiting := some ⟨service, s.requestId service, resp⟩ }, [])
      else (s.take service, [.ioError])
    | some _ => (s, [])
  | .poll =>
    match s.waiting with
    | none => (s, [])
    | some w =>
      match msgQueueRecv s.queue with
      | (q, none) => ({ s with queue := q }, [])
      | (q, some msg) =>
        let resp := w.resp.copy msg
        if w.matches msg = true then
          ({ s with queue := q, waiting := none }, [.replied msg (result resp)])
        else ({ s with queue := q, waiting := some { w with resp := resp } }, [])
  | .timeout =>
    match s.waiting with
    | none => (s, [])
    | some _ => ({ s with waiting := none }, [.timedOut])
  | .otherRequest service => (s.take service, [])

/-- the core, after `msg_queue_init` -/
def client : Machine State Event Out := ⟨⟨.zero, none, fun _ => 1⟩, step⟩

def arrived (outs : List Out) : List Message :=
  outs.filterMap fun out =>
    match out with
    | .arrived msg => some msg
    | _ => none

def received (outs : List Out) : List Message :=
  outs.filterMap fun out =>
    match out with
    | .received msg _ => some msg
    | _ => none

def replies (outs : List Out) : List Message :=
  outs.filterMap fun out =>
    match out with
    | .replied msg _ => some msg
    | _ => none

end Client
end EkKor
