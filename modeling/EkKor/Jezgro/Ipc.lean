import EkKor.Lib.Packed
import EkKor.Lib.Runs
import EkKor.Types

/-!
# Messages between services (`jezgro_ipc.c`)

A service that waits in `jezgro_ipc_recv` or in `jezgro_ipc_call` makes one turn of its loop at a
time, and the other services run between the turns.

* `Msg`, `Queue`, `EndpointState`, `Ipc`     the data;
* `queuePush`, `queuePop`                    the queues;
* `internalSend`                             a message on its way into a queue;
* `recvTurn`, `callStep`                     a turn of the loops;
* `Op`, `ipc`                                the operations of the services.

The clocks that a turn reads are arguments of the operation.
-/

namespace EkKor
namespace Jezgro
namespace Ipc
open Runs (Machine)

/-! ## types -/

/-- `JEZGRO_IPC_QUEUE_DEPTH` -/
abbrev queueDepth : Nat := 16

/-- `JEZGRO_IPC_MAX_ENDPOINTS` -/
abbrev maxEndpoints : Nat := 16

/-- `sizeof(payload)` -/
abbrev payloadSize : Nat := 56

/-- `JEZGRO_IPC_WAIT_FOREVER` -/
abbrev waitForever : UInt32 := 0xFFFFFFFF

/-- `JEZGRO_EP_KERNEL` -/
abbrev epKernel : UInt8 := 0

/-- `JEZGRO_EP_BROADCAST` -/
abbrev epBroadcast : UInt8 := 0xFF

/-- `jezgro_ipc_msg_type_t` -/
inductive MsgType where
  | request
  | reply
  | notify
  | interrupt
  | shutdown
  | heartbeat
  deriving DecidableEq, Repr

/-- `jezgro_ipc_error_t` -/
inductive IpcErr where
  | timeout
  | invalid
  | full
  | empty
  | notFound
  | dead
  | denied
  deriving DecidableEq, Repr

/-- `jezgro_ipc_msg_t`, with its header; the payload has `payloadSize` bytes.  `supplied` is not in
the code: the bytes that the sender had for the payload -/
structure Msg where
  src : UInt8
  dst : UInt8
  type : MsgType
  flags : UInt8
  seq : UInt16
  len : UInt16
  payload : List UInt8
  supplied : UInt16
  deriving DecidableEq, Repr

/-- `jezgro_ipc_queue_t` -/
structure Queue where
  messages : Nat → Msg
  head : Nat
  tail : Nat
  count : Nat

/-- `jezgro_ipc_endpoint_state_t` -/
structure EndpointState where
  id : UInt8
  ownerService : UInt8
  active : Bool
  rxQueue : Queue
  seqCounter : UInt16
  waiting : Bool
  waitDeadline : UInt32

/-- `jezgro_ipc_stats_t` -/
structure Stats where
  messagesSent : UInt32
  messagesReceived : UInt32
  repliesSent : UInt32
  notificationsSent : UInt32
  timeouts : UInt32
  queueOverflows : UInt32
  deadServiceErrors : UInt32
  deriving DecidableEq, Repr

/-- the local variables of `jezgro_ipc_recv` in its loop -/
structure RecvWait where
  slot : Nat
  timeoutMs : UInt32
  deadline : UInt32
  deriving DecidableEq, Repr

/-- the arguments and local variables of `jezgro_ipc_call` in its loop, with those of the inner
`jezgro_ipc_recv`; `replySize` is what `*reply_len` holds, `hasReply` says that `reply` is not
null -/
structure CallWait where
  dst : UInt8
  seq : UInt16
  hasReply : Bool
  replySize : UInt16
  timeoutMs : UInt32
  deadline : UInt32
  inner : Option RecvWait
  deriving DecidableEq, Repr

/-- what a service is doing -/
inductive Wait where
  | idle
  | recv (w : RecvWait)
  | call (c : CallWait)
  deriving DecidableEq, Repr

/-- the variables of the file, and what the services are doing.  `stuck`: a call did not return -/
structure State where
  endpoints : Nat → EndpointState
  notifyCallback : Bool
  irqEndpoints : Nat → UInt8
  stats : Stats
  waits : UInt8 → Wait
  stuck : Bool

/-- what happens: the queue of a slot is new, a message enters a queue, a service gets a message of
a slot, the callback is called, `call` copies `copied` bytes of the reply and reports `replyLen`,
and the results -/
inductive Output where
  | fresh (slot : Nat)
  | pushed (slot : Nat) (msg : Msg)
  | handed (slot : Nat) (service : UInt8) (msg : Msg)
  | notified (src : UInt8) (payload : List UInt8) (len : UInt16)
  | replied (service : UInt8) (msg : Msg) (copied replyLen : UInt16)
  | result (service : UInt8) (res : Except IpcErr Unit)
  | registered (res : Except Err Unit)
  deriving DecidableEq, Repr

/-! ## queue operations -/

def zeroMsg : Msg := ⟨0, 0, .request, 0, 0, 0, List.replicate payloadSize 0, 0⟩

/-- `queue_init` -/
def queueInit (q : Queue) : Queue := { q with head := 0, tail := 0, count := 0 }

/-- `queue_full` -/
def Queue.full (q : Queue) : Bool := q.count ≥ queueDepth

/-- `queue_empty` -/
def Queue.empty (q : Queue) : Bool := q.count == 0

/-- `queue_push`, for a queue that is not full -/
def queuePush (q : Queue) (msg : Msg) : Queue where
  messages := Function.update q.messages q.head msg
  head := (q.head + 1) % queueDepth
  tail := q.tail
  count := q.count + 1

/-- `queue_pop` -/
def queuePop (q : Queue) : Option (Msg × Queue) :=
  if q.empty then none
  else some (q.messages q.tail, { q with tail := (q.tail + 1) % queueDepth, count := q.count - 1 })

/-! ## endpoint lookup -/

/-- `find_endpoint`, the slot -/
def findEndpoint (s : State) (ep : UInt8) : Option Nat :=
  (List.range maxEndpoints).find? fun i => (s.endpoints i).active && (s.endpoints i).id == ep

/-- `current_endpoint`, the slot -/
def currentEndpoint (s : State) (service : UInt8) : Option Nat :=
  (List.range maxEndpoints).find? fun i =>
    (s.endpoints i).active && (s.endpoints i).ownerService == service

def State.put (s : State) (i : Nat) (ep : EndpointState) : State :=
  { s with endpoints := Function.update s.endpoints i ep }

/-! ## endpoint management -/

/-- `jezgro_ipc_register_endpoint` -/
def registerEndpoint (s : State) (endpoint service : UInt8) : State × List Output :=
  if (findEndpoint s endpoint).isSome then (s, [.registered (.error .invalidArg)])
  else
    match (List.range maxEndpoints).find? fun i => !(s.endpoints i).active with
    | none => (s, [.registered (.error .limit)])
    | some i =>
      (s.put i
        { s.endpoints i with
          id := endpoint
          ownerService := service
          active := true
          seqCounter := 0
          waiting := false
          rxQueue := queueInit (s.endpoints i).rxQueue },
        [.fresh i, .registered (.ok ())])

/-- `jezgro_ipc_unregister_endpoint` -/
def unregisterEndpoint (s : State) (endpoint : UInt8) : State × List Output :=
  match findEndpoint s endpoint with
  | none => (s, [.registered (.error .notFound)])
  | some i => (s.put i { s.endpoints i with active := false }, [.registered (.ok ())])

/-! ## sending -/

def payloadOf (payload : Option (List UInt8)) (len : UInt16) : List UInt8 :=
  match payload with
  | none => List.replicate payloadSize 0
  | some bytes =>
    let copied := bytes.take (min len.toNat payloadSize)
    copied ++ List.replicate (payloadSize - copied.length) 0

/-- the message of `internal_send` -/
def message (src dst : UInt8) (type : MsgType) (seq : UInt16) (payload : Option (List UInt8))
    (len : UInt16) : Msg :=
  ⟨src, dst, type, 0, seq, len, payloadOf payload len, if payload.isSome then len else 0⟩

/-- `internal_send` to one endpoint; the message is in the queue exactly when the result is `ok` -/
def sendTo (s : State) (src dst : UInt8) (type : MsgType) (seq : UInt16)
    (payload : Option (List UInt8)) (len : UInt16) :
    Except IpcErr Unit × State × List Output :=
  match findEndpoint s dst with
  | none =>
    (.error .dead,
      { s with stats := { s.stats with deadServiceErrors := s.stats.deadServiceErrors + 1 } }, [])
  | some i =>
    if (s.endpoints i).rxQueue.full then
      (.error .full,
        { s with stats := { s.stats with queueOverflows := s.stats.queueOverflows + 1 } }, [])
    else
      let msg := message src dst type seq payload len
      (.ok (),
        { s.put i
            { s.endpoints i with
              rxQueue := queuePush (s.endpoints i).rxQueue msg
              waiting := false } with
          stats := { s.stats with messagesSent := s.stats.messagesSent + 1 } },
        [.pushed i msg])

/-- the loop of a broadcast.  A slot with the identifier of the broadcast, which
`jezgro_ipc_register_endpoint` lets in, makes the function call itself without end -/
def broadcast (src : UInt8) (type : MsgType) (seq : UInt16) (payload : Option (List UInt8))
    (len : UInt16) : State → List Nat → State × List Output
  | s, [] => (s, [])
  | s, i :: rest =>
    if (s.endpoints i).active && (s.endpoints i).id != src then
      if (s.endpoints i).id = epBroadcast then ({ s with stuck := true }, [])
      else
        let r := (sendTo s src (s.endpoints i).id type seq payload len).2
        let r' := broadcast src type seq payload len r.1 rest
        (r'.1, r.2 ++ r'.2)
    else broadcast src type seq payload len s rest

/-- `internal_send` -/
def internalSend (s : State) (src dst : UInt8) (type : MsgType) (seq : UInt16)
    (payload : Option (List UInt8)) (len : UInt16) :
    Except IpcErr Unit × State × List Output :=
  if dst = epBroadcast then
    (.ok (), broadcast src type seq payload len s (List.range maxEndpoints))
  else sendTo s src dst type seq payload len

/-- `src_ep->seq_counter++` -/
def State.nextSeq (s : State) (i : Nat) : State :=
  s.put i { s.endpoints i with seqCounter := (s.endpoints i).seqCounter + 1 }

def withResult (service : UInt8) (r : Except IpcErr Unit × State × List Output) :
    State × List Output :=
  (r.2.1, r.2.2 ++ if r.2.1.stuck then [] else [.result service r.1])

/-- `jezgro_ipc_send` -/
def send (s : State) (service dst : UInt8) (type : MsgType) (payload : Option (List UInt8))
    (len : UInt16) : State × List Output :=
  match currentEndpoint s service with
  | none => (s, [.result service (.error .invalid)])
  | some i =>
    withResult service (internalSend (s.nextSeq i) (s.endpoints i).id dst type
      (s.endpoints i).seqCounter payload len)

/-- `jezgro_ipc_reply` -/
def reply (s : State) (service : UInt8) (request : Msg) (payload : Option (List UInt8))
    (len : UInt16) : State × List Output :=
  match currentEndpoint s service with
  | none => (s, [.result service (.error .invalid)])
  | some i =>
    let s := { s with stats := { s.stats with repliesSent := s.stats.repliesSent + 1 } }
    withResult service (internalSend s (s.endpoints i).id request.src .reply request.seq
      payload len)

/-- `jezgro_ipc_notify`; the kernel may notify without an endpoint -/
def notify (s : State) (service dst : UInt8) (payload : Option (List UInt8)) (len : UInt16) :
    State × List Output :=
  let s := { s with stats := { s.stats with notificationsSent := s.stats.notificationsSent + 1 } }
  match currentEndpoint s service with
  | none => withResult service (internalSend s epKernel dst .notify 0 payload len)
  | some i =>
    withResult service (internalSend (s.nextSeq i) (s.endpoints i).id dst .notify
      (s.endpoints i).seqCounter payload len)

/-- the packed `irq_data` -/
def irqData : Packed (UInt32 × UInt64) := Packed.pair Packed.u32 Packed.u64

/-- `jezgro_ipc_forward_interrupt`; an interrupt without an endpoint is not forwarded -/
def forwardInterrupt (s : State) (irqNum : UInt32) (timestamp : UInt64) : State × List Output :=
  if irqNum ≥ 64 then (s, [.result epKernel (.error .invalid)])
  else if s.irqEndpoints irqNum.toNat = epKernel then (s, [.result epKernel (.ok ())])
  else
    withResult epKernel (internalSend s epKernel (s.irqEndpoints irqNum.toNat) .interrupt 0
      (some (irqData.encode (irqNum, timestamp))) 12)

/-- `jezgro_ipc_register_irq` -/
def registerIrq (s : State) (irqNum : UInt32) (endpoint : UInt8) : State × List Output :=
  if irqNum ≥ 64 then (s, [.registered (.error .invalidArg)])
  else if (findEndpoint s endpoint).isNone then (s, [.registered (.error .notFound)])
  else
    ({ s with irqEndpoints := Function.update s.irqEndpoints irqNum.toNat endpoint },
      [.registered (.ok ())])

/-! ## receiving -/

def State.setWait (s : State) (service : UInt8) (wait : Wait) : State :=
  { s with waits := Function.update s.waits service wait }

def State.popped (s : State) (i : Nat) (q : Queue) : State :=
  { s.put i { s.endpoints i with rxQueue := q } with
    stats := { s.stats with messagesReceived := s.stats.messagesReceived + 1 } }

def State.timedOut (s : State) : State :=
  { s with stats := { s.stats with timeouts := s.stats.timeouts + 1 } }

/-- `deadline`, of a wait that starts at `now` -/
def deadlineOf (timeoutMs now : UInt32) : UInt32 :=
  if timeoutMs = waitForever then 0xFFFFFFFF else now + timeoutMs

/-- `jezgro_ipc_recv`, up to its loop -/
def recv (s : State) (service : UInt8) (timeoutMs now : UInt32) : State × List Output :=
  match currentEndpoint s service with
  | none => (s, [.result service (.error .invalid)])
  | some i => (s.setWait service (.recv ⟨i, timeoutMs, deadlineOf timeoutMs now⟩), [])

/-- `jezgro_ipc_recv_nonblock` -/
def recvNonblock (s : State) (service : UInt8) : State × List Output :=
  match currentEndpoint s service with
  | none => (s, [.result service (.error .invalid)])
  | some i =>
    match queuePop (s.endpoints i).rxQueue with
    | none => (s, [.result service (.error .empty)])
    | some (msg, q) => (s.popped i q, [.handed i service msg, .result service (.ok ())])

/-- what a turn of the loop of `jezgro_ipc_recv` comes to -/
inductive Turn where
  | got (msg : Msg)
  | timeout
  | again
  deriving DecidableEq, Repr

/-- a turn of the loop of `jezgro_ipc_recv` -/
def recvTurn (s : State) (w : RecvWait) (now : UInt32) : Turn × State × List Output :=
  match queuePop (s.endpoints w.slot).rxQueue with
  | some (msg, q) =>
    (.got msg, s.popped w.slot q,
      if msg.type = .notify ∧ s.notifyCallback = true then [.notified msg.src msg.payload msg.len]
      else [])
  | none =>
    if w.timeoutMs ≠ waitForever ∧ now ≥ w.deadline then (.timeout, s.timedOut, [])
    else
      (.again,
        s.put w.slot { s.endpoints w.slot with waiting := true, waitDeadline := w.deadline }, [])

/-- `jezgro_ipc_recv` in its loop -/
def recvStep (s : State) (service : UInt8) (w : RecvWait) (now : UInt32) :
    State × List Output :=
  match recvTurn s w now with
  | (.got msg, s, out) =>
    (s.setWait service .idle, out ++ [.handed w.slot service msg, .result service (.ok ())])
  | (.timeout, s, out) =>
    (s.setWait service .idle, out ++ [.result service (.error .timeout)])
  | (.again, s, out) => (s, out)

/-! ## request and reply -/

/-- `jezgro_ipc_call`, up to its loop -/
def call (s : State) (service dst : UInt8) (request : Option (List UInt8)) (requestLen : UInt16)
    (hasReply : Bool) (replySize : UInt16) (timeoutMs now : UInt32) : State × List Output :=
  match currentEndpoint s service with
  | none => (s, [.result service (.error .invalid)])
  | some i =>
    match internalSend (s.nextSeq i) (s.endpoints i).id dst .request (s.endpoints i).seqCounter
      request requestLen with
    | (.error err, s, out) => (s, out ++ [.result service (.error err)])
    | (.ok (), s', out) =>
      (s'.setWait service (.call ⟨dst, (s.endpoints i).seqCounter, hasReply, replySize, timeoutMs,
        deadlineOf timeoutMs now, none⟩), out)

/-- the end of a turn of `jezgro_ipc_call`: the message that it took, if any, is gone -/
def callAgain (s : State) (service : UInt8) (c : CallWait) (now : UInt32) :
    State × List Output :=
  if c.timeoutMs ≠ waitForever ∧ now ≥ c.deadline then
    (s.timedOut.setWait service .idle, [.result service (.error .timeout)])
  else
    (s.setWait service (.call { c with timeoutMs := c.deadline - now, inner := none }), [])

def CallWait.isReply (c : CallWait) (msg : Msg) : Bool :=
  msg.type = .reply && msg.src == c.dst && msg.seq == c.seq

/-- `copy_len`, the bytes that `memcpy` reads from the payload of the reply -/
def CallWait.copyLen (c : CallWait) (msg : Msg) : UInt16 :=
  if c.hasReply then (if msg.len > c.replySize then c.replySize else msg.len) else 0

/-- a turn of the loop of `jezgro_ipc_call`, which starts the inner `jezgro_ipc_recv` or makes a
turn of it -/
def callStep (s : State) (service : UInt8) (c : CallWait) (now later : UInt32) :
    State × List Output :=
  match c.inner with
  | none =>
    match currentEndpoint s service with
    | none => callAgain s service c later
    | some i =>
      (s.setWait service (.call
        { c with inner := some ⟨i, c.timeoutMs, deadlineOf c.timeoutMs now⟩ }), [])
  | some w =>
    match recvTurn s w now with
    | (.got msg, s, out) =>
      if c.isReply msg then
        (s.setWait service .idle, out ++ [.handed w.slot service msg,
          .replied service msg (c.copyLen msg) msg.len, .result service (.ok ())])
      else
        let r := callAgain s service c later
        (r.1, out ++ r.2)
    | (.timeout, s, out) =>
      (s.setWait service .idle, out ++ [.result service (.error .timeout)])
    | (.again, s, out) => (s, out)

/-! ## operations -/

/-- the operations, and the turn of a service that waits; `now` and `later` are what it reads from
the clock -/
inductive Op where
  | registerEndpoint (endpoint service : UInt8)
  | unregisterEndpoint (endpoint : UInt8)
  | registerIrq (irqNum : UInt32) (endpoint : UInt8)
  | setNotifyCallback (installed : Bool)
  | send (service dst : UInt8) (type : MsgType) (payload : Option (List UInt8)) (len : UInt16)
  | reply (service : UInt8) (request : Msg) (payload : Option (List UInt8)) (len : UInt16)
  | notify (service dst : UInt8) (payload : Option (List UInt8)) (len : UInt16)
  | forwardInterrupt (irqNum : UInt32) (timestamp : UInt64)
  | recvNonblock (service : UInt8)
  | recv (service : UInt8) (timeoutMs now : UInt32)
  | call (service dst : UInt8) (request : Option (List UInt8)) (requestLen : UInt16)
    (hasReply : Bool) (replySize : UInt16) (timeoutMs now : UInt32)
  | turn (service : UInt8) (now later : UInt32)

def whenIdle (s : State) (service : UInt8) (r : State × List Output) : State × List Output :=
  if s.waits service = .idle then r else (s, [])

def step (s : State) (op : Op) : State × List Output :=
  if s.stuck then (s, [])
  else
    match op with
    | .registerEndpoint endpoint service => registerEndpoint s endpoint service
    | .unregisterEndpoint endpoint => unregisterEndpoint s endpoint
    | .registerIrq irqNum endpoint => registerIrq s irqNum endpoint
    | .setNotifyCallback installed => ({ s with notifyCallback := installed }, [])
    | .send service dst type payload len =>
      whenIdle s service (send s service dst type payload len)
    | .reply service request payload len =>
      whenIdle s service (reply s service request payload len)
    | .notify service dst payload len => whenIdle s service (notify s service dst payload len)
    | .forwardInterrupt irqNum timestamp => forwardInterrupt s irqNum timestamp
    | .recvNonblock service => whenIdle s service (recvNonblock s service)
    | .recv service timeoutMs now => whenIdle s service (recv s service timeoutMs now)
    | .call service dst request requestLen hasReply replySize timeoutMs now =>
      whenIdle s service
        (call s service dst request requestLen hasReply replySize timeoutMs now)
    | .turn service now later =>
      match s.waits service with
      | .idle => (s, [])
      | .recv w => recvStep s service w now
      | .call c => callStep s service c now later

/-- an endpoint after `memset` -/
def zeroEndpoint : EndpointState := ⟨0, 0, false, ⟨fun _ => zeroMsg, 0, 0, 0⟩, 0, false, 0⟩

/-- `jezgro_ipc_init` -/
def init : State :=
  (registerEndpoint
    { endpoints := fun _ => zeroEndpoint
      notifyCallback := false
      irqEndpoints := fun _ => epKernel
      stats := ⟨0, 0, 0, 0, 0, 0, 0⟩
      waits := fun _ => .idle
      stuck := false }
    epKernel 0).1

def ipc : Machine State Op Output := ⟨init, step⟩

end Ipc
end Jezgro
end EkKor
