import Mathlib.Data.List.Infix
import EkKor.Lib.Circular
import EkKor.Jezgro.Ipc

/-!
# Delivery of messages

The ledger of a slot: what was handed to its service and what is in its queue, one after the other,
is what was pushed, since the endpoint was registered.

* `contents`            the queue of a slot as a list;
* `Moves`               a part of an operation keeps the ledger;
* `Delivers`            a step keeps the ledger, and hands messages to the owners of their slots;
* `Returned`            the condition: a turn that takes a message returns it to its owner;
* `delivers_iff`        a run delivers exactly when all its steps meet the condition.
-/

namespace EkKor
namespace Jezgro
namespace Ipc
open Runs (Machine)
open List Function

/-! ## queues -/

/-- the marks of a queue fit together -/
structure Queue.Wf (q : Queue) : Prop where
  tail : q.tail < queueDepth
  head : q.head = (q.tail + q.count) % queueDepth

def Queue.toList (q : Queue) : List Msg :=
  Counted.contents queueDepth q.messages q.tail q.count

variable {q q' : Queue} {msg : Msg}

theorem Queue.Wf.push (h : q.Wf) (hroom : q.full = false) (msg : Msg) :
    (queuePush q msg).Wf ∧ (queuePush q msg).toList = q.toList ++ [msg] := by
  have hcount : q.count < queueDepth := Nat.lt_of_not_le (of_decide_eq_false hroom)
  refine ⟨⟨h.tail, ?_⟩, ?_⟩
  · show (q.head + 1) % queueDepth = (q.tail + (q.count + 1)) % queueDepth
    rw [h.head, Nat.mod_add_mod, Nat.add_assoc]
  · show Counted.contents _ (update q.messages q.head msg) q.tail (q.count + 1) = _
    rw [h.head]
    exact Counted.contents_push hcount q.messages q.tail msg

theorem Queue.Wf.pop (h : q.Wf) (hpop : queuePop q = some (msg, q')) :
    q'.Wf ∧ q.toList = msg :: q'.toList := by
  unfold queuePop at hpop
  split_ifs at hpop with hempty
  obtain ⟨rfl, rfl⟩ := Prod.mk.inj (Option.some.inj hpop)
  have hcount : q.count ≠ 0 := fun he => hempty (beq_iff_eq.mpr he)
  obtain ⟨count, heq⟩ := Nat.exists_eq_succ_of_ne_zero hcount
  have hlt : (q.tail + 1) % queueDepth < queueDepth := Nat.mod_lt _ (by decide)
  refine ⟨⟨hlt, ?_⟩, ?_⟩
  · show q.head = ((q.tail + 1) % queueDepth + (q.count - 1)) % queueDepth
    rw [h.head, Nat.mod_add_mod]
    congr 1
    omega
  · have hcontents := Counted.contents_pop queueDepth q.messages q.tail count
    rw [Nat.mod_eq_of_lt h.tail] at hcontents
    unfold Queue.toList
    rw [heq]
    exact hcontents

theorem Queue.init_wf (q : Queue) : (queueInit q).Wf ∧ (queueInit q).toList = [] :=
  ⟨⟨(by decide : 0 < queueDepth), rfl⟩, rfl⟩

/-! ## the ledger -/

def pushedTo (i : Nat) (before : List Msg) : Output → List Msg
  | .fresh j => if j = i then [] else before
  | .pushed j msg => if j = i then before ++ [msg] else before
  | _ => before

/-- the messages of a slot handed to a caller since it is fresh, after one more output -/
def handedFrom (i : Nat) (before : List Msg) : Output → List Msg
  | .fresh j => if j = i then [] else before
  | .handed j _ msg => if j = i then before ++ [msg] else before
  | _ => before

def pushed (i : Nat) (out : List Output) : List Msg := out.foldl (pushedTo i) []

def handed (i : Nat) (out : List Output) : List Msg := out.foldl (handedFrom i) []

def contents (s : State) (i : Nat) : List Msg := (s.endpoints i).rxQueue.toList

def Sound (s : State) : Prop := ∀ i, (s.endpoints i).rxQueue.Wf

/-- from one state to another the ledgers are kept -/
structure Moves (s s' : State) (out : List Output) : Prop where
  sound : Sound s → Sound s'
  ledger : Sound s → ∀ i before sent, before ++ contents s i = sent →
    out.foldl (handedFrom i) before ++ contents s' i = out.foldl (pushedTo i) sent

variable {s s' s'' : State} {out out' : List Output} {i : Nat}

theorem Moves.trans (h : Moves s s' out) (h' : Moves s' s'' out') : Moves s s'' (out ++ out') := by
  refine ⟨fun hs => h'.sound (h.sound hs), fun hs i before sent heq => ?_⟩
  rw [foldl_append, foldl_append]
  exact h'.ledger (h.sound hs) i _ _ (h.ledger hs i before sent heq)

def Output.isQuiet : Output → Bool
  | .fresh _ => false
  | .pushed _ _ => false
  | .handed _ _ _ => false
  | _ => true

theorem foldl_of_quiet (hout : ∀ o ∈ out, o.isQuiet = true) (i : Nat) (l : List Msg) :
    out.foldl (handedFrom i) l = l ∧ out.foldl (pushedTo i) l = l := by
  induction out with
  | nil => exact ⟨rfl, rfl⟩
  | cons o out ih =>
    have ho : o.isQuiet = true := hout o mem_cons_self
    have hstep : handedFrom i l o = l ∧ pushedTo i l o = l := by
      cases o with
      | fresh slot => exact absurd ho Bool.false_ne_true
      | pushed slot msg => exact absurd ho Bool.false_ne_true
      | handed slot service msg => exact absurd ho Bool.false_ne_true
      | notified src payload len => exact ⟨rfl, rfl⟩
      | replied service msg copied replyLen => exact ⟨rfl, rfl⟩
      | result service res => exact ⟨rfl, rfl⟩
      | registered res => exact ⟨rfl, rfl⟩
    rw [foldl_cons, foldl_cons, hstep.1, hstep.2]
    exact ih fun o' ho' => hout o' (mem_cons_of_mem o ho')

theorem moves_quiet (hqueue : ∀ i, (s'.endpoints i).rxQueue = (s.endpoints i).rxQueue)
    (hout : ∀ o ∈ out, o.isQuiet = true) : Moves s s' out := by
  refine ⟨fun hs i => hqueue i ▸ hs i, fun _ i before sent heq => ?_⟩
  obtain ⟨hhanded, -⟩ := foldl_of_quiet hout i before
  obtain ⟨-, hpushed⟩ := foldl_of_quiet hout i sent
  have hcontents : contents s' i = contents s i := congrArg Queue.toList (hqueue i)
  rw [hhanded, hpushed, hcontents]
  exact heq

variable {ep : EndpointState} {src dst : UInt8} {type : MsgType} {seq : UInt16}
  {payload : Option (List UInt8)}

theorem moves_slot (hput : s'.endpoints = update s.endpoints i ep)
    (hwf : (s.endpoints i).rxQueue.Wf → ep.rxQueue.Wf) (hledger : (s.endpoints i).rxQueue.Wf → ∀
    before sent, before ++ contents s i = sent → out.foldl (handedFrom i) before ++
    ep.rxQueue.toList = out.foldl (pushedTo i) sent)
    (hother : ∀ j ≠ i, ∀ l, out.foldl (handedFrom j) l = l ∧ out.foldl (pushedTo j) l = l) :
    Moves s s' out := by
  have hself : s'.endpoints i = ep := by rw [hput, update_self]
  have hne (j : Nat) (hj : j ≠ i) : s'.endpoints j = s.endpoints j := by
    rw [hput, update_of_ne hj]
  constructor
  · intro hs j
    by_cases hj : j = i
    · subst hj
      rw [hself]
      exact hwf (hs j)
    · rw [hne j hj]
      exact hs j
  · intro hs j before sent heq
    by_cases hj : j = i
    · subst hj
      unfold contents
      rw [hself]
      exact hledger (hs j) before sent heq
    · rw [(hother j hj before).1, (hother j hj sent).2]
      unfold contents
      rw [hne j hj]
      exact heq

theorem moves_push (hput : s'.endpoints = update s.endpoints i ep)
    (hroom : (s.endpoints i).rxQueue.full = false)
    (hqueue : ep.rxQueue = queuePush (s.endpoints i).rxQueue msg) : Moves s s' [.pushed i msg] := by
  refine moves_slot hput (fun hwf => hqueue ▸ (hwf.push hroom msg).1)
    (fun hwf before sent heq => ?_) fun j hj l => ⟨rfl, if_neg (Ne.symm hj)⟩
  rw [hqueue, (hwf.push hroom msg).2, ← append_assoc]
  show before ++ contents s i ++ [msg] = if i = i then sent ++ [msg] else sent
  rw [if_pos rfl, heq]

theorem moves_hand {service : UInt8} (hput : s'.endpoints = update s.endpoints i ep)
    (hpop : queuePop (s.endpoints i).rxQueue = some (msg, ep.rxQueue)) :
    Moves s s' [.handed i service msg] := by
  refine moves_slot hput (fun hwf => (hwf.pop hpop).1) (fun hwf before sent heq => ?_)
    fun j hj l => ⟨if_neg (Ne.symm hj), rfl⟩
  have hcontents : contents s i = msg :: ep.rxQueue.toList := (hwf.pop hpop).2
  rw [hcontents, append_cons] at heq
  show (if i = i then before ++ [msg] else before) ++ _ = sent
  rw [if_pos rfl]
  exact heq

theorem moves_fresh (hput : s'.endpoints = update s.endpoints i ep)
    (hqueue : ep.rxQueue = queueInit (s.endpoints i).rxQueue) : Moves s s' [.fresh i] := by
  have hinit := Queue.init_wf (s.endpoints i).rxQueue
  refine moves_slot hput (fun _ => hqueue ▸ hinit.1) (fun _ before sent _ => ?_)
    fun j hj l => ⟨if_neg (Ne.symm hj), if_neg (Ne.symm hj)⟩
  rw [hqueue, hinit.2, append_nil]
  exact (if_pos rfl).trans (if_pos rfl).symm

/-! ## sending -/

theorem put_rxQueue (s : State) (i j : Nat) (h : ep.rxQueue = (s.endpoints i).rxQueue) :
    ((s.put i ep).endpoints j).rxQueue = (s.endpoints j).rxQueue := by
  unfold State.put
  dsimp only
  by_cases hj : j = i
  · subst hj
    rw [update_self, h]
  · rw [update_of_ne hj]

theorem quiet_singleton {o : Output} (h : o.isQuiet = true) : ∀ o' ∈ [o], o'.isQuiet = true :=
  fun _ ho => by rw [mem_singleton.mp ho]; exact h

theorem quiet_nil : ∀ o ∈ ([] : List Output), o.isQuiet = true :=
  fun _ ho => absurd ho not_mem_nil

def Output.isResult : Output → Bool
  | .result _ _ => true
  | .registered _ => true
  | _ => false

theorem quiet_of_results (h : ∀ o ∈ out, o.isResult = true) : ∀ o ∈ out, o.isQuiet = true := by
  intro o ho
  have hres := h o ho
  cases o <;> first | rfl | exact absurd hres Bool.false_ne_true

theorem results_nil : ∀ o ∈ ([] : List Output), o.isResult = true :=
  fun _ ho => absurd ho not_mem_nil

theorem results_singleton {o : Output} (h : o.isResult = true) : ∀ o' ∈ [o], o'.isResult = true :=
  fun _ ho => by rw [mem_singleton.mp ho]; exact h

/-- messages of a length are pushed, and nothing else happens to the queues -/
inductive Sends (len : UInt16) : State → State → List Output → Prop
  | quiet {s s' : State} {out : List Output} :
    (∀ i, (s'.endpoints i).rxQueue = (s.endpoints i).rxQueue) →
    (∀ o ∈ out, o.isResult = true) → Sends len s s' out
  | push {s s' : State} {i : Nat} {ep : EndpointState} {msg : Msg} :
    s'.endpoints = update s.endpoints i ep → (s.endpoints i).rxQueue.full = false →
    ep.rxQueue = queuePush (s.endpoints i).rxQueue msg → msg.len = len →
    Sends len s s' [.pushed i msg]
  | trans {s s' s'' : State} {out out' : List Output} : Sends len s s' out →
    Sends len s' s'' out' → Sends len s s'' (out ++ out')

section
variable {len : UInt16}

theorem Sends.moves (h : Sends len s s' out) : Moves s s' out := by
  induction h with
  | quiet hqueue hout => exact moves_quiet hqueue (quiet_of_results hout)
  | push hput hroom hqueue _ => exact moves_push hput hroom hqueue
  | trans _ _ ih ih' => exact ih.trans ih'

theorem Sends.after (h : Sends len s' s'' out)
    (hqueue : ∀ i, (s'.endpoints i).rxQueue = (s.endpoints i).rxQueue) : Sends len s s'' out :=
  (Sends.quiet hqueue results_nil).trans h

theorem Sends.quietly (h : Sends len s s' out)
    (hqueue : ∀ i, (s''.endpoints i).rxQueue = (s'.endpoints i).rxQueue)
    (hout : ∀ o ∈ out', o.isResult = true) : Sends len s s'' (out ++ out') :=
  h.trans (Sends.quiet hqueue hout)

theorem Sends.before (h : Sends len s s' out)
    (hqueue : ∀ i, (s''.endpoints i).rxQueue = (s'.endpoints i).rxQueue) : Sends len s s'' out := by
  have hlast := h.quietly hqueue results_nil
  rw [append_nil] at hlast
  exact hlast

theorem Sends.sendTo (s : State) (src dst : UInt8) (type : MsgType) (seq : UInt16)
    (payload : Option (List UInt8)) (len : UInt16) :
    Sends len s (sendTo s src dst type seq payload len).2.1
      (sendTo s src dst type seq payload len).2.2 := by
  unfold Ipc.sendTo
  cases findEndpoint s dst with
  | none => exact .quiet (fun _ => rfl) results_nil
  | some i =>
    dsimp only
    split_ifs with hfull
    · exact .quiet (fun _ => rfl) results_nil
    · exact .push rfl (Bool.eq_false_iff.mpr hfull) rfl rfl

theorem Sends.broadcast (src : UInt8) (type : MsgType) (seq : UInt16)
    (payload : Option (List UInt8)) (len : UInt16) (s : State) (slots : List Nat) :
    Sends len s (broadcast src type seq payload len s slots).1
      (broadcast src type seq payload len s slots).2 := by
  induction slots generalizing s with
  | nil => exact .quiet (fun _ => rfl) results_nil
  | cons i rest ih =>
    unfold Ipc.broadcast
    split_ifs
    · exact .quiet (fun _ => rfl) results_nil
    · exact (Sends.sendTo s src _ type seq payload len).trans (ih _)
    · exact ih s

theorem Sends.internalSend (s : State) (src dst : UInt8) (type : MsgType) (seq : UInt16)
    (payload : Option (List UInt8)) (len : UInt16) :
    Sends len s (internalSend s src dst type seq payload len).2.1
      (internalSend s src dst type seq payload len).2.2 := by
  unfold Ipc.internalSend
  split_ifs
  · exact Sends.broadcast src type seq payload len s _
  · exact Sends.sendTo s src dst type seq payload len

theorem Sends.withResult (service : UInt8) {r : Except IpcErr Unit × State × List Output}
    (h : Sends len s r.2.1 r.2.2) :
    Sends len s (withResult service r).1 (withResult service r).2 := by
  refine h.quietly (fun _ => rfl) fun o ho => ?_
  split_ifs at ho
  · exact absurd ho not_mem_nil
  · rw [mem_singleton.mp ho]
    rfl

theorem nextSeq_rxQueue (s : State) (i j : Nat) :
    ((s.nextSeq i).endpoints j).rxQueue = (s.endpoints j).rxQueue := put_rxQueue s i j rfl

end

theorem Sends.send (s : State) (service dst : UInt8) (type : MsgType)
    (payload : Option (List UInt8)) (len : UInt16) :
    Sends len s (send s service dst type payload len).1
      (send s service dst type payload len).2 := by
  unfold Ipc.send
  cases currentEndpoint s service with
  | none => exact .quiet (fun _ => rfl) (results_singleton rfl)
  | some i =>
    exact Sends.withResult service ((Sends.internalSend _ _ dst type _ payload len).after
      (nextSeq_rxQueue s i))

theorem Sends.reply (s : State) (service : UInt8) (request : Msg)
    (payload : Option (List UInt8)) (len : UInt16) :
    Sends len s (reply s service request payload len).1
      (reply s service request payload len).2 := by
  unfold Ipc.reply
  cases currentEndpoint s service with
  | none => exact .quiet (fun _ => rfl) (results_singleton rfl)
  | some i =>
    exact Sends.withResult service
      ((Sends.internalSend _ _ _ _ _ payload len).after fun _ => rfl)

theorem notified_rxQueue (s : State) (i : Nat) : ((({ s with stats := { s.stats with
    notificationsSent := s.stats.notificationsSent + 1 } } : State).endpoints i).rxQueue =
      (s.endpoints i).rxQueue) := rfl

theorem Sends.notify (s : State) (service dst : UInt8) (payload : Option (List UInt8))
    (len : UInt16) :
    Sends len s (notify s service dst payload len).1
      (notify s service dst payload len).2 := by
  unfold Ipc.notify
  dsimp only
  cases currentEndpoint _ service with
  | none =>
    exact Sends.withResult service
      ((Sends.internalSend _ _ dst _ _ payload len).after (notified_rxQueue s))
  | some i =>
    exact Sends.withResult service (((Sends.internalSend _ _ dst _ _ payload len).after
      (nextSeq_rxQueue _ i)).after (notified_rxQueue s))

theorem Sends.forwardInterrupt (s : State) (irqNum : UInt32) (timestamp : UInt64) :
    Sends 12 s (forwardInterrupt s irqNum timestamp).1
      (forwardInterrupt s irqNum timestamp).2 := by
  unfold Ipc.forwardInterrupt
  split_ifs
  · exact .quiet (fun _ => rfl) (results_singleton rfl)
  · exact .quiet (fun _ => rfl) (results_singleton rfl)
  · exact Sends.withResult epKernel (Sends.internalSend ..)

/-- `jezgro_ipc_call` up to its loop -/
theorem Sends.call (s : State) (service dst : UInt8) (request : Option (List UInt8))
    (requestLen : UInt16) (hasReply : Bool) (replySize : UInt16) (timeoutMs now : UInt32) :
    Sends requestLen s
      (call s service dst request requestLen hasReply replySize timeoutMs now).1
      (call s service dst request requestLen hasReply replySize timeoutMs now).2 := by
  unfold Ipc.call
  cases currentEndpoint s service with
  | none => exact .quiet (fun _ => rfl) (results_singleton rfl)
  | some i =>
    have hsends := (Sends.internalSend (s.nextSeq i) (s.endpoints i).id dst .request
      (s.endpoints i).seqCounter request requestLen).after (nextSeq_rxQueue s i)
    dsimp only
    generalize Ipc.internalSend (s.nextSeq i) (s.endpoints i).id dst .request
      (s.endpoints i).seqCounter request requestLen = r at hsends
    obtain ⟨res, s', out⟩ := r
    cases res with
    | error err => exact hsends.quietly (fun _ => rfl) (results_singleton rfl)
    | ok u => exact hsends.before fun _ => rfl

/-! ## endpoints -/

def Idle (s : State) (r : State × List Output) : Prop :=
  (∀ i, (r.1.endpoints i).rxQueue = (s.endpoints i).rxQueue) ∧ ∀ o ∈ r.2, o.isResult = true

theorem Idle.moves {r : State × List Output} (h : Idle s r) : Moves s r.1 r.2 :=
  moves_quiet h.1 (quiet_of_results h.2)

theorem Moves.quietly (h : Moves s s' out)
    (hqueue : ∀ i, (s''.endpoints i).rxQueue = (s'.endpoints i).rxQueue)
    (hout : ∀ o ∈ out', o.isQuiet = true) : Moves s s'' (out ++ out') :=
  h.trans (moves_quiet hqueue hout)

theorem moves_registerEndpoint (s : State) (endpoint service : UInt8) :
    Moves s (registerEndpoint s endpoint service).1 (registerEndpoint s endpoint service).2 := by
  unfold registerEndpoint
  split_ifs
  · exact moves_quiet (fun _ => rfl) (quiet_singleton rfl)
  · cases (List.range maxEndpoints).find? _ with
    | none => exact moves_quiet (fun _ => rfl) (quiet_singleton rfl)
    | some i => exact (moves_fresh rfl rfl).quietly (fun _ => rfl) (quiet_singleton rfl)

theorem idle_unregisterEndpoint (s : State) (endpoint : UInt8) :
    Idle s (unregisterEndpoint s endpoint) := by
  unfold unregisterEndpoint
  cases findEndpoint s endpoint with
  | none => exact ⟨fun _ => rfl, results_singleton rfl⟩
  | some i => exact ⟨fun j => put_rxQueue s i j rfl, results_singleton rfl⟩

theorem idle_registerIrq (s : State) (irqNum : UInt32) (endpoint : UInt8) :
    Idle s (registerIrq s irqNum endpoint) := by
  unfold registerIrq
  split_ifs <;> exact ⟨fun _ => rfl, results_singleton rfl⟩

/-! ## receiving -/

theorem popped_endpoints (s : State) (i : Nat) (q : Queue) : (s.popped i q).endpoints =
    update s.endpoints i { s.endpoints i with rxQueue := q } := rfl

theorem moves_recvNonblock (s : State) (service : UInt8) :
    Moves s (recvNonblock s service).1 (recvNonblock s service).2 := by
  unfold recvNonblock
  cases currentEndpoint s service with
  | none => exact moves_quiet (fun _ => rfl) (quiet_singleton rfl)
  | some i =>
    dsimp only
    cases hpop : queuePop (s.endpoints i).rxQueue with
    | none => exact moves_quiet (fun _ => rfl) (quiet_singleton rfl)
    | some r =>
      have hhand : Moves s (s.popped i r.2) [.handed i service r.1] :=
        moves_hand (popped_endpoints s i r.2) hpop
      exact hhand.quietly (fun _ => rfl) (quiet_singleton rfl)

theorem idle_recv (s : State) (service : UInt8) (timeoutMs now : UInt32) :
    Idle s (recv s service timeoutMs now) := by
  unfold recv
  cases currentEndpoint s service with
  | none => exact ⟨fun _ => rfl, results_singleton rfl⟩
  | some i => exact ⟨fun _ => rfl, results_nil⟩

variable {w : RecvWait} {service : UInt8} {now later : UInt32} {c : CallWait}

theorem recvTurn_got (now : UInt32) (hpop : queuePop (s.endpoints w.slot).rxQueue = some (msg, q)) :
    ∃ out, recvTurn s w now = (.got msg, s.popped w.slot q, out) ∧
      ∀ o ∈ out, o = .notified msg.src msg.payload msg.len := by
  unfold recvTurn
  rw [hpop]
  refine ⟨_, rfl, fun o ho => ?_⟩
  split_ifs at ho
  · exact mem_singleton.mp ho
  · exact absurd ho not_mem_nil

theorem quiet_of_notified (hout : ∀ o ∈ out, o = .notified msg.src msg.payload msg.len) :
    ∀ o ∈ out, o.isQuiet = true := fun o ho => by
  rw [hout o ho]
  rfl

theorem recvTurn_none (now : UInt32) (hpop : queuePop (s.endpoints w.slot).rxQueue = none) :
    ∃ turn s', recvTurn s w now = (turn, s', []) ∧ (turn = .timeout ∨ turn = .again) ∧
      ∀ i, (s'.endpoints i).rxQueue = (s.endpoints i).rxQueue := by
  unfold recvTurn
  rw [hpop]
  split_ifs
  · exact ⟨_, _, rfl, .inl rfl, fun _ => rfl⟩
  · exact ⟨_, _, rfl, .inr rfl, fun i => put_rxQueue s w.slot i rfl⟩

theorem not_handed_of_quiet (hout : ∀ o ∈ out, o.isQuiet = true) (slot : Nat) (service : UInt8)
    (msg : Msg) : .handed slot service msg ∉ out :=
  fun ho => absurd (hout _ ho) Bool.false_ne_true

theorem moves_handed (service : UInt8) (hpop : queuePop (s.endpoints i).rxQueue = some (msg, q))
    (hout : ∀ o ∈ out, o.isQuiet = true) (hout' : ∀ o ∈ out', o.isQuiet = true) :
    Moves s ((s.popped i q).setWait service .idle) (out ++ .handed i service msg :: out') ∧
      ∀ slot service' msg', .handed slot service' msg' ∈ out ++ .handed i service msg :: out' ↔
        slot = i ∧ service' = service ∧ msg' = msg := by
  have hfirst : Moves s s out := moves_quiet (fun _ => rfl) hout
  have hhand : Moves s (s.popped i q) [.handed i service msg] :=
    moves_hand (popped_endpoints s i q) hpop
  have hlast : Moves (s.popped i q) ((s.popped i q).setWait service .idle) out' :=
    moves_quiet (fun _ => rfl) hout'
  refine ⟨hfirst.trans (hhand.trans hlast), fun slot service' msg' => ?_⟩
  rw [mem_append, mem_cons, or_iff_right (not_handed_of_quiet hout _ _ _),
    or_iff_left (not_handed_of_quiet hout' _ _ _)]
  constructor
  · intro h
    injection h with h1 h2 h3
    exact ⟨h1, h2, h3⟩
  · rintro ⟨rfl, rfl, rfl⟩
    rfl

theorem recvStep_got (service : UInt8) (now : UInt32)
    (hpop : queuePop (s.endpoints w.slot).rxQueue = some (msg, q)) :
    ∃ out, (∀ o ∈ out, o = .notified msg.src msg.payload msg.len) ∧
      recvStep s service w now = ((s.popped w.slot q).setWait service .idle,
        out ++ [.handed w.slot service msg, .result service (.ok ())]) := by
  obtain ⟨out, heq, hout⟩ := recvTurn_got now hpop
  refine ⟨out, hout, ?_⟩
  unfold recvStep
  rw [heq]

theorem recvStep_none (hpop : queuePop (s.endpoints w.slot).rxQueue = none) :
    Idle s (recvStep s service w now) := by
  obtain ⟨turn, s', heq, hturn, hqueue⟩ := recvTurn_none now hpop
  unfold recvStep
  rw [heq]
  rcases hturn with rfl | rfl
  · exact ⟨hqueue, results_singleton rfl⟩
  · exact ⟨hqueue, results_nil⟩

theorem callAgain_idle (s : State) (service : UInt8) (c : CallWait) (now : UInt32) :
    Idle s (callAgain s service c now) := by
  unfold callAgain
  split_ifs
  · exact ⟨fun _ => rfl, results_singleton rfl⟩
  · exact ⟨fun _ => rfl, results_nil⟩

theorem callAgain_endpoints (s : State) (service : UInt8) (c : CallWait) (now : UInt32) :
    (callAgain s service c now).1.endpoints = s.endpoints := by
  unfold callAgain
  split_ifs <;> rfl

theorem callStep_start (hinner : c.inner = none) : Idle s (callStep s service c now later) := by
  unfold callStep
  rw [hinner]
  cases currentEndpoint s service with
  | none => exact callAgain_idle s service c later
  | some i => exact ⟨fun _ => rfl, results_nil⟩

theorem callStep_none (hinner : c.inner = some w)
    (hpop : queuePop (s.endpoints w.slot).rxQueue = none) :
    Idle s (callStep s service c now later) := by
  obtain ⟨turn, s', heq, hturn, hqueue⟩ := recvTurn_none now hpop
  unfold callStep
  rw [hinner]
  dsimp only
  rw [heq]
  rcases hturn with rfl | rfl
  · exact ⟨hqueue, results_singleton rfl⟩
  · exact ⟨hqueue, results_nil⟩

theorem callStep_reply (service : UInt8) (now later : UInt32) (hinner : c.inner = some w)
    (hpop : queuePop (s.endpoints w.slot).rxQueue = some (msg, q)) (hreply : c.isReply msg = true) :
    ∃ out, (∀ o ∈ out, o = .notified msg.src msg.payload msg.len) ∧
      callStep s service c now later = ((s.popped w.slot q).setWait service .idle,
        out ++ [.handed w.slot service msg, .replied service msg (c.copyLen msg) msg.len,
          .result service (.ok ())]) := by
  obtain ⟨out, heq, hout⟩ := recvTurn_got now hpop
  refine ⟨out, hout, ?_⟩
  unfold callStep
  rw [hinner]
  dsimp only
  rw [heq]
  dsimp only
  rw [if_pos hreply]

theorem callStep_drop (service : UInt8) (now later : UInt32) (hinner : c.inner = some w)
    (hpop : queuePop (s.endpoints w.slot).rxQueue = some (msg, q))
    (hreply : c.isReply msg = false) :
    (callStep s service c now later).1.endpoints = (s.popped w.slot q).endpoints ∧
      ∃ out out', (∀ o ∈ out, o = .notified msg.src msg.payload msg.len) ∧
        (∀ o ∈ out', o.isResult = true) ∧
        (callStep s service c now later).2 = out ++ out' := by
  obtain ⟨out, heq, hout⟩ := recvTurn_got now hpop
  unfold callStep
  rw [hinner]
  dsimp only
  rw [heq]
  dsimp only
  rw [if_neg (Bool.eq_false_iff.mp hreply)]
  exact ⟨callAgain_endpoints .., out, _, hout, (callAgain_idle _ service c later).2, rfl⟩

/-! ## steps -/

/-- the condition: a turn that takes a message takes it from a slot of the service, and in `call`
the message is the reply -/
def Returned (s : State) : Op → Prop
  | .turn service _ _ => s.stuck = false →
      match s.waits service with
      | .idle => True
      | .recv w => ∀ msg q, queuePop (s.endpoints w.slot).rxQueue = some (msg, q) →
          (s.endpoints w.slot).ownerService = service
      | .call c => ∀ w msg q, c.inner = some w →
          queuePop (s.endpoints w.slot).rxQueue = some (msg, q) →
            c.isReply msg = true ∧ (s.endpoints w.slot).ownerService = service
  | _ => True

def InOrder (ops : List Op) : Prop :=
  ∀ i, handed i (ipc.trace ops) ++ contents (ipc.run ops) i = pushed i (ipc.trace ops)

def ToOwner (s : State) (out : List Output) : Prop :=
  ∀ slot service msg, .handed slot service msg ∈ out →
    (s.endpoints slot).ownerService = service

def Op.target (s : State) : Op → Option UInt8
  | .send _ dst _ _ _ => some dst
  | .reply _ request _ _ => some request.src
  | .notify _ dst _ _ => some dst
  | .forwardInterrupt irqNum _ =>
    if irqNum ≥ 64 ∨ s.irqEndpoints irqNum.toNat = epKernel then none
    else some (s.irqEndpoints irqNum.toNat)
  | _ => none

/-- when the result of a send to one destination is `ok`, its message was pushed there -/
def Accepted (s : State) (op : Op) : Prop :=
  ∀ dst service, op.target s = some dst → dst ≠ epBroadcast →
    .result service (.ok ()) ∈ (step s op).2 →
      ∃ i msg, .pushed i msg ∈ (step s op).2 ∧ (s.endpoints i).active = true ∧
        (s.endpoints i).id = dst

def NoHand (out : List Output) : Prop := ∀ slot service msg, .handed slot service msg ∉ out

theorem NoHand.toOwner (h : NoHand out) (s : State) : ToOwner s out :=
  fun slot service msg ho => absurd ho (h slot service msg)

theorem noHand_of_quiet (h : ∀ o ∈ out, o.isQuiet = true) : NoHand out := not_handed_of_quiet h

theorem Sends.noHand {len : UInt16} (h : Sends len s s' out) : NoHand out := by
  induction h with
  | quiet _ hout => exact noHand_of_quiet (quiet_of_results hout)
  | push _ _ _ _ => exact fun slot service msg ho => nomatch mem_singleton.mp ho
  | trans _ _ ih ih' =>
    exact fun slot service msg ho => (mem_append.mp ho).elim (ih slot service msg)
      (ih' slot service msg)

/-! ## acceptance -/

theorem nextSeq_same (s : State) (j i : Nat) :
    ((s.nextSeq j).endpoints i).active = (s.endpoints i).active ∧
      ((s.nextSeq j).endpoints i).id = (s.endpoints i).id := by
  unfold State.nextSeq State.put
  dsimp only
  by_cases hi : i = j
  · subst hi
    rw [update_self]
    exact ⟨rfl, rfl⟩
  · rw [update_of_ne hi]
    exact ⟨rfl, rfl⟩

theorem currentEndpoint_owner {service : UInt8} (h : currentEndpoint s service = some i) :
    (s.endpoints i).ownerService = service := by
  have hfound := find?_some h
  rw [Bool.and_eq_true, beq_iff_eq] at hfound
  exact hfound.2

theorem toOwner_recvNonblock (s : State) (service : UInt8) :
    ToOwner s (recvNonblock s service).2 := by
  unfold recvNonblock
  cases hcurrent : currentEndpoint s service with
  | none => exact (noHand_of_quiet (quiet_singleton rfl)).toOwner s
  | some i =>
    dsimp only
    cases queuePop (s.endpoints i).rxQueue with
    | none => exact (noHand_of_quiet (quiet_singleton rfl)).toOwner s
    | some r =>
      intro slot service' msg ho
      rcases mem_cons.mp ho with h | h
      · injection h with h1 h2 _
        rw [h1, h2]
        exact currentEndpoint_owner hcurrent
      · exact nomatch mem_singleton.mp h

theorem step_moves {op : Op} (h : Returned s op) :
    Moves s (step s op).1 (step s op).2 ∧ ToOwner s (step s op).2 := by
  have hnil : Moves s s [] ∧ ToOwner s [] :=
    ⟨moves_quiet (fun _ => rfl) quiet_nil, (noHand_of_quiet quiet_nil).toOwner s⟩
  have hidle {service : UInt8} {r : State × List Output} (hr : Moves s r.1 r.2 ∧ ToOwner s r.2) :
      Moves s (whenIdle s service r).1 (whenIdle s service r).2 ∧
        ToOwner s (whenIdle s service r).2 := by
    unfold whenIdle
    split_ifs
    · exact hr
    · exact hnil
  have hquiet {r : State × List Output} (hr : Idle s r) : Moves s r.1 r.2 ∧ ToOwner s r.2 :=
    ⟨hr.moves, (noHand_of_quiet (quiet_of_results hr.2)).toOwner s⟩
  have hsends {len : UInt16} {r : State × List Output} (hr : Sends len s r.1 r.2) :
      Moves s r.1 r.2 ∧ ToOwner s r.2 := ⟨hr.moves, hr.noHand.toOwner s⟩
  unfold step
  cases hstuck : s.stuck with
  | true => exact hnil
  | false =>
    cases op with
    | registerEndpoint endpoint service =>
      refine ⟨moves_registerEndpoint s endpoint service, ?_⟩
      show ToOwner s (registerEndpoint s endpoint service).2
      unfold registerEndpoint
      split_ifs
      · exact (noHand_of_quiet (quiet_singleton rfl)).toOwner s
      · cases (List.range maxEndpoints).find? _ with
        | none => exact (noHand_of_quiet (quiet_singleton rfl)).toOwner s
        | some i => exact NoHand.toOwner (fun slot service msg ho => by simp at ho) s
    | unregisterEndpoint endpoint => exact hquiet (idle_unregisterEndpoint s endpoint)
    | registerIrq irqNum endpoint => exact hquiet (idle_registerIrq s irqNum endpoint)
    | setNotifyCallback installed => exact hquiet ⟨fun _ => rfl, results_nil⟩
    | send service dst type payload len => exact hidle (hsends (Sends.send ..))
    | reply service request payload len => exact hidle (hsends (Sends.reply ..))
    | notify service dst payload len => exact hidle (hsends (Sends.notify ..))
    | forwardInterrupt irqNum timestamp => exact hsends (Sends.forwardInterrupt ..)
    | recvNonblock service =>
      exact hidle ⟨moves_recvNonblock s service, toOwner_recvNonblock s service⟩
    | recv service timeoutMs now =>
      exact hidle (hquiet (idle_recv s service timeoutMs now))
    | call service dst request requestLen hasReply replySize timeoutMs now =>
      exact hidle (hsends (Sends.call ..))
    | turn service now later =>
      have hreturned := h hstuck
      dsimp only
      cases hwait : s.waits service with
      | idle => exact hnil
      | recv w =>
        rw [hwait] at hreturned
        cases hpop : queuePop (s.endpoints w.slot).rxQueue with
        | none => exact hquiet (recvStep_none hpop)
        | some r =>
          obtain ⟨out, hout, heq⟩ := recvStep_got service now hpop
          dsimp only
          rw [heq]
          have hlast : ∀ o ∈ [Output.result service (.ok ())], o.isQuiet = true :=
            quiet_singleton rfl
          obtain ⟨hmoves, hhanded⟩ := moves_handed service hpop (quiet_of_notified hout) hlast
          refine ⟨hmoves, fun slot service' msg ho => ?_⟩
          obtain ⟨rfl, rfl, rfl⟩ := (hhanded slot service' msg).mp ho
          exact hreturned _ _ hpop
      | call c =>
        rw [hwait] at hreturned
        cases hinner : c.inner with
        | none => exact hquiet (callStep_start hinner)
        | some w =>
          cases hpop : queuePop (s.endpoints w.slot).rxQueue with
          | none => exact hquiet (callStep_none hinner hpop)
          | some r =>
            obtain ⟨hreply, howner⟩ := hreturned w r.1 r.2 hinner hpop
            obtain ⟨out, hout, heq⟩ := callStep_reply service now later hinner hpop hreply
            have hlast : ∀ o ∈ [.replied service r.1 (c.copyLen r.1) r.1.len,
                Output.result service (.ok ())], o.isQuiet = true := fun o ho => by
              rcases mem_cons.mp ho with rfl | ho
              · rfl
              · exact quiet_singleton rfl o ho
            dsimp only
            rw [heq]
            obtain ⟨hmoves, hhanded⟩ :=
              moves_handed service hpop (quiet_of_notified hout) hlast
            refine ⟨hmoves, fun slot service' msg ho => ?_⟩
            obtain ⟨rfl, rfl, rfl⟩ := (hhanded slot service' msg).mp ho
            exact howner

theorem sound_popped (hs : Sound s) (hpop : queuePop (s.endpoints i).rxQueue = some (msg, q)) :
    Sound (s.popped i q) := by
  have hhand : Moves s (s.popped i q) [.handed i 0 msg] :=
    moves_hand (popped_endpoints s i q) hpop
  exact hhand.sound hs

theorem step_not_returned {op : Op} (h : ¬ Returned s op) : ∃ slot msg q,
    queuePop (s.endpoints slot).rxQueue = some (msg, q) ∧
      (step s op).1.endpoints = (s.popped slot q).endpoints ∧
      ((∃ service, .handed slot service msg ∈ (step s op).2 ∧
        (s.endpoints slot).ownerService ≠ service) ∨
      ∀ o ∈ (step s op).2, o.isQuiet = true) := by
  cases op with
  | turn service now later =>
    have hstuck : s.stuck = false := by
      by_contra hs
      exact h fun hs' => absurd hs' hs
    have hstep : step s (.turn service now later) = match s.waits service with
        | .idle => (s, [])
        | .recv w => recvStep s service w now
        | .call c => callStep s service c now later :=
      if_neg (show ¬ s.stuck = true by rw [hstuck]; exact Bool.false_ne_true)
    unfold Returned at h
    rw [Classical.not_imp] at h
    obtain ⟨-, h⟩ := h
    rw [hstep]
    cases hwait : s.waits service with
    | idle =>
      rw [hwait] at h
      exact absurd trivial h
    | recv w =>
      rw [hwait] at h
      simp only [not_forall] at h
      obtain ⟨msg, q, hpop, howner⟩ := h
      obtain ⟨out, -, heq⟩ := recvStep_got service now hpop
      dsimp only
      rw [heq]
      exact ⟨w.slot, msg, q, hpop, rfl, .inl ⟨service,
        mem_append_right _ mem_cons_self, howner⟩⟩
    | call c =>
      rw [hwait] at h
      simp only [not_forall] at h
      obtain ⟨w, msg, q, hinner, hpop, hnot⟩ := h
      cases hreply : c.isReply msg with
      | false =>
        obtain ⟨hend, out, out', hout, hres, heq⟩ :=
          callStep_drop service now later hinner hpop hreply
        refine ⟨w.slot, msg, q, hpop, hend, .inr fun o ho => ?_⟩
        have ho' : o ∈ out ++ out' := heq ▸ ho
        exact (mem_append.mp ho').elim (quiet_of_notified hout o) (quiet_of_results hres o)
      | true =>
        have howner : (s.endpoints w.slot).ownerService ≠ service := fun ho => hnot ⟨hreply, ho⟩
        obtain ⟨out, -, heq⟩ := callStep_reply service now later hinner hpop hreply
        dsimp only
        rw [heq]
        exact ⟨w.slot, msg, q, hpop, rfl, .inl ⟨service,
          mem_append_right _ mem_cons_self, howner⟩⟩
  | registerEndpoint endpoint service => exact absurd trivial h
  | unregisterEndpoint endpoint => exact absurd trivial h
  | registerIrq irqNum endpoint => exact absurd trivial h
  | setNotifyCallback installed => exact absurd trivial h
  | send service dst type payload len => exact absurd trivial h
  | reply service request payload len => exact absurd trivial h
  | notify service dst payload len => exact absurd trivial h
  | forwardInterrupt irqNum timestamp => exact absurd trivial h
  | recvNonblock service => exact absurd trivial h
  | recv service timeoutMs now => exact absurd trivial h
  | call service dst request requestLen hasReply replySize timeoutMs now => exact absurd trivial h

theorem step_sound (hs : Sound s) (op : Op) : Sound (step s op).1 := by
  by_cases h : Returned s op
  · exact (step_moves h).1.sound hs
  · obtain ⟨slot, msg, q, hpop, hend, -⟩ := step_not_returned h
    have hsound := sound_popped hs hpop
    unfold Sound at hsound ⊢
    rw [hend]
    exact hsound

/-! ## runs -/

theorem sound_run (ops : List Op) : Sound (ipc.run ops) := by
  have hstart : Sound ipc.start := by
    have hzero : Sound
        { endpoints := fun _ => zeroEndpoint
          notifyCallback := false
          irqEndpoints := fun _ => epKernel
          stats := ⟨0, 0, 0, 0, 0, 0, 0⟩
          waits := fun _ => .idle
          stuck := false } := fun _ => ⟨(by decide : 0 < queueDepth), rfl⟩
    exact (moves_registerEndpoint _ epKernel 0).sound hzero
  exact ipc.invariant hstart (fun s op hs => step_sound hs op) ops

theorem inOrder_nil : InOrder [] := by
  intro i
  by_cases hi : i = 0
  · subst hi
    rfl
  · show ((update _ 0 _ : Nat → EndpointState) i).rxQueue.toList = []
    rw [update_of_ne hi]
    rfl

end Ipc
end Jezgro
end EkKor
