import EkKor.Jezgro.Delivery

/-!
# Lengths of messages

`internal_send` cuts what it copies to the size of the payload, but the message keeps the length
that it was given.

* `Short`            no message in a queue is longer than its payload;
* `Trustworthy`      a step leaves short messages, reads no further than the payload and reports
                     the bytes that it copied;
* `Bounded`          the condition: what a send is given and a queue takes is short, and the reply
                     fits into the buffer of the call;
* `trustworthy_iff`  the lengths of a run can be trusted exactly when all its steps meet it.
-/

namespace EkKor
namespace Jezgro
namespace Ipc
open Runs (Machine)
open List Function

variable {s s' : State} {out : List Output} {i : Nat}

/-! ## queued messages -/

def Short (s : State) : Prop := ∀ i, ∀ msg ∈ contents s i, msg.len.toNat ≤ payloadSize

theorem short_of_queues (h : Short s)
    (hqueue : ∀ i, (s'.endpoints i).rxQueue = (s.endpoints i).rxQueue) : Short s' := by
  intro i msg hmsg
  refine h i msg ?_
  unfold contents at hmsg ⊢
  rw [← hqueue i]
  exact hmsg

variable {msg : Msg} {q : Queue} (c : CallWait) {r : State × List Output} {out' : List Output}

theorem mem_contents_push {ep : EndpointState} (hs : Sound s)
    (hput : s'.endpoints = update s.endpoints i ep) (hroom : (s.endpoints i).rxQueue.full = false)
    (hqueue : ep.rxQueue = queuePush (s.endpoints i).rxQueue msg) (j : Nat) (m : Msg) :
    m ∈ contents s' j ↔ m ∈ contents s j ∨ j = i ∧ m = msg := by
  unfold contents
  rw [hput]
  by_cases hj : j = i
  · subst hj
    rw [update_self, hqueue, ((hs j).push hroom msg).2, mem_append,
      mem_singleton, and_iff_right rfl]
  · rw [update_of_ne hj]
    exact (or_iff_left fun h => hj h.1).symm

section
variable {len : UInt16}

theorem Sends.mem_contents (h : Sends len s s' out) (hs : Sound s) {j : Nat} {m : Msg}
    (hm : m ∈ contents s j) : m ∈ contents s' j := by
  induction h with
  | quiet hqueue _ =>
    unfold contents
    rw [hqueue j]
    exact hm
  | push hput hroom hqueue _ => exact (mem_contents_push hs hput hroom hqueue j m).mpr (.inl hm)
  | trans h _ ih ih' => exact ih' (h.moves.sound hs) (ih hs hm)

theorem Sends.len_eq (h : Sends len s s' out) (hs : Sound s) {j : Nat} {m : Msg}
    (hm : m ∈ contents s' j) : m ∈ contents s j ∨ m.len = len := by
  induction h with
  | quiet hqueue _ =>
    unfold contents at hm
    rw [hqueue j] at hm
    exact .inl hm
  | push hput hroom hqueue hlen =>
    rcases (mem_contents_push hs hput hroom hqueue j m).mp hm with hold | ⟨-, rfl⟩
    · exact .inl hold
    · exact .inr hlen
  | trans h _ ih ih' =>
    rcases ih' (h.moves.sound hs) hm with hmid | hlen
    · exact ih hs hmid
    · exact .inr hlen

theorem Sends.short (h : Sends len s s' out) (hs : Sound s) (hshort : Short s)
    (hlen : len.toNat ≤ payloadSize) : Short s' := by
  intro i msg hmsg
  rcases h.len_eq hs hmsg with hold | heq
  · exact hshort i msg hold
  · rw [heq]
    exact hlen

end

theorem short_popped (hs : Sound s) (hshort : Short s)
    (hpop : queuePop (s.endpoints i).rxQueue = some (msg, q)) : Short (s.popped i q) := by
  intro j m hm
  refine hshort j m ?_
  unfold contents at hm ⊢
  rw [popped_endpoints] at hm
  by_cases hj : j = i
  · subst hj
    rw [update_self] at hm
    rw [((hs j).pop hpop).2]
    exact mem_cons_of_mem _ hm
  · rw [update_of_ne hj] at hm
    exact hm

theorem len_of_pop (hs : Sound s) (hshort : Short s)
    (hpop : queuePop (s.endpoints i).rxQueue = some (msg, q)) : msg.len.toNat ≤ payloadSize := by
  refine hshort i msg ?_
  unfold contents
  rw [((hs i).pop hpop).2]
  exact mem_cons_self

/-! ## sends that a queue takes -/

def roomAt (s : State) (dst : UInt8) : Bool :=
  match findEndpoint s dst with
  | none => false
  | some i => !(s.endpoints i).rxQueue.full

/-- one of the endpoints of a broadcast has room, before the broadcast meets its own identifier -/
def roomInBroadcast (s : State) (src : UInt8) : List Nat → Bool
  | [] => false
  | i :: rest =>
    if (s.endpoints i).active && (s.endpoints i).id != src then
      if (s.endpoints i).id = epBroadcast then false
      else roomAt s (s.endpoints i).id || roomInBroadcast s src rest
    else roomInBroadcast s src rest

def takes (s : State) (src dst : UInt8) : Bool :=
  if dst = epBroadcast then roomInBroadcast s src (List.range maxEndpoints) else roomAt s dst

def Alike (s s' : State) : Prop := ∀ i, (s'.endpoints i).active = (s.endpoints i).active ∧
  (s'.endpoints i).id = (s.endpoints i).id ∧ (s'.endpoints i).rxQueue = (s.endpoints i).rxQueue

theorem alike_of_endpoints (h : s'.endpoints = s.endpoints) : Alike s s' := fun i => by
  rw [h]
  exact ⟨rfl, rfl, rfl⟩

theorem alike_nextSeq (s : State) (i : Nat) : Alike s (s.nextSeq i) := fun j =>
  ⟨(nextSeq_same s i j).1, (nextSeq_same s i j).2, nextSeq_rxQueue s i j⟩

theorem roomAt_congr (h : Alike s s') (dst : UInt8) : roomAt s' dst = roomAt s dst := by
  have hfind : findEndpoint s' dst = findEndpoint s dst := by
    refine congrArg (fun p => List.find? p (List.range maxEndpoints)) (funext fun i => ?_)
    rw [(h i).1, (h i).2.1]
  unfold roomAt
  rw [hfind]
  cases findEndpoint s dst with
  | none => rfl
  | some i =>
    dsimp only
    rw [(h i).2.2]

section
variable (src : UInt8) {dst : UInt8} (type : MsgType) (seq : UInt16)
  (payload : Option (List UInt8)) (len : UInt16)

theorem sendTo_refused (h : roomAt s dst = false) :
    (sendTo s src dst type seq payload len).2.1.endpoints = s.endpoints := by
  unfold roomAt at h
  unfold sendTo
  cases hfind : findEndpoint s dst with
  | none => rfl
  | some i =>
    rw [hfind] at h
    dsimp only at h ⊢
    rw [if_pos ((Bool.not_eq_false' _).mp h)]

theorem sendTo_taken (hs : Sound s) (h : roomAt s dst = true) :
    ∃ j, ∃ m ∈ contents (sendTo s src dst type seq payload len).2.1 j, m.len = len := by
  unfold roomAt at h
  unfold sendTo
  cases hfind : findEndpoint s dst with
  | none =>
    rw [hfind] at h
    exact absurd h Bool.false_ne_true
  | some i =>
    rw [hfind] at h
    have hroom : (s.endpoints i).rxQueue.full = false := (Bool.not_eq_true' _).mp h
    dsimp only
    rw [if_neg (Bool.eq_false_iff.mp hroom)]
    exact ⟨i, message src dst type seq payload len,
      (mem_contents_push hs rfl hroom rfl i _).mpr (.inr ⟨rfl, rfl⟩), rfl⟩

theorem roomInBroadcast_congr (h : Alike s s') (slots : List Nat) :
    roomInBroadcast s' src slots = roomInBroadcast s src slots := by
  induction slots with
  | nil => rfl
  | cons i rest ih =>
    unfold roomInBroadcast
    rw [(h i).1, (h i).2.1, roomAt_congr h, ih]

theorem broadcast_refused (s : State) {slots : List Nat} (h : roomInBroadcast s src slots = false) :
    (broadcast src type seq payload len s slots).1.endpoints = s.endpoints := by
  induction slots generalizing s with
  | nil => rfl
  | cons i rest ih =>
    unfold roomInBroadcast at h
    unfold broadcast
    split_ifs at h ⊢
    · rfl
    · rw [Bool.or_eq_false_iff] at h
      have hsame := sendTo_refused src type seq payload len h.1
      refine (ih _ ?_).trans hsame
      rw [roomInBroadcast_congr src (alike_of_endpoints hsame)]
      exact h.2
    · exact ih s h

theorem broadcast_taken {s : State} (hs : Sound s) {slots : List Nat}
    (h : roomInBroadcast s src slots = true) :
    ∃ j, ∃ m ∈ contents (broadcast src type seq payload len s slots).1 j, m.len = len := by
  induction slots generalizing s with
  | nil => exact absurd h Bool.false_ne_true
  | cons i rest ih =>
    unfold roomInBroadcast at h
    unfold broadcast
    split_ifs at h ⊢ with hactive hself
    · have hsend := Sends.sendTo s src (s.endpoints i).id type seq payload len
      have hs' := hsend.moves.sound hs
      by_cases hroom : roomAt s (s.endpoints i).id = true
      · obtain ⟨j, m, hm, hlen⟩ := sendTo_taken src type seq payload len hs hroom
        exact ⟨j, m, (Sends.broadcast src type seq payload len _ rest).mem_contents hs' hm, hlen⟩
      · have hroom' := Bool.not_eq_true _ ▸ hroom
        rw [hroom', Bool.false_or] at h
        refine ih hs' ?_
        rw [roomInBroadcast_congr src (alike_of_endpoints (sendTo_refused src type seq payload len hroom'))]
        exact h
    · exact ih hs h

theorem internalSend_taken (hs : Sound s) (h : takes s src dst = true) :
    ∃ j, ∃ m ∈ contents (internalSend s src dst type seq payload len).2.1 j, m.len = len := by
  unfold takes at h
  unfold internalSend
  split_ifs at h ⊢
  · exact broadcast_taken src type seq payload len hs h
  · exact sendTo_taken src type seq payload len hs h

theorem internalSend_refused (h : takes s src dst = false) :
    (internalSend s src dst type seq payload len).2.1.endpoints = s.endpoints := by
  unfold takes at h
  unfold internalSend
  split_ifs at h ⊢
  · exact broadcast_refused src type seq payload len s h
  · exact sendTo_refused src type seq payload len h

end

theorem takes_congr (h : Alike s s') (src dst : UInt8) : takes s' src dst = takes s src dst := by
  unfold takes
  rw [roomInBroadcast_congr src h, roomAt_congr h]

/-! ## operations -/

def Op.sends (s : State) : Op → Option (UInt8 × UInt8 × UInt16)
  | .send service dst _ _ len =>
    if s.waits service = .idle then
      (currentEndpoint s service).map fun i => ((s.endpoints i).id, dst, len)
    else none
  | .reply service request _ len =>
    if s.waits service = .idle then
      (currentEndpoint s service).map fun i => ((s.endpoints i).id, request.src, len)
    else none
  | .notify service dst _ len =>
    if s.waits service = .idle then
      match currentEndpoint s service with
      | none => some (epKernel, dst, len)
      | some i => some ((s.endpoints i).id, dst, len)
    else none
  | .call service dst _ requestLen _ _ _ _ =>
    if s.waits service = .idle then
      (currentEndpoint s service).map fun i => ((s.endpoints i).id, dst, requestLen)
    else none
  | _ => none

def CallWait.Fits (c : CallWait) (msg : Msg) : Prop :=
  msg.len = 0 ∨ c.hasReply = true ∧ msg.len ≤ c.replySize

/-- the condition: a message that some queue takes is short, and the reply that a call takes fits
into its buffer and is as long as the payload that its sender had -/
structure Bounded (s : State) (op : Op) : Prop where
  sent : s.stuck = false → ∀ src dst len, op.sends s = some (src, dst, len) →
    takes s src dst = true → len.toNat ≤ payloadSize
  reply : s.stuck = false → ∀ service now later c w msg q, op = .turn service now later →
    s.waits service = .call c → c.inner = some w →
      queuePop (s.endpoints w.slot).rxQueue = some (msg, q) → c.isReply msg = true →
        c.Fits msg ∧ msg.len = msg.supplied

/-- the callback and the calls read payloads only, and report what they copied and the sender had -/
structure Reads (out : List Output) : Prop where
  notified : ∀ src payload len, .notified src payload len ∈ out → len.toNat ≤ payloadSize
  replied : ∀ service msg copied replyLen, .replied service msg copied replyLen ∈ out →
    copied.toNat ≤ payloadSize ∧ replyLen = copied ∧ replyLen = msg.supplied

/-- a step leaves short messages, and reads and reports what is there -/
structure Trustworthy (s : State) (op : Op) : Prop where
  queued : Short (step s op).1
  reads : Reads (step s op).2

theorem CallWait.copyLen_eq_iff (msg : Msg) : msg.len = c.copyLen msg ↔ c.Fits msg := by
  unfold CallWait.copyLen CallWait.Fits
  cases c.hasReply with
  | false => simp
  | true =>
    rw [if_pos rfl, and_iff_right rfl]
    split_ifs with hlong
    · have hlt : c.replySize < msg.len := hlong
      refine iff_of_false (fun he => ?_) ?_
      · rw [he] at hlt
        exact UInt16.lt_irrefl _ hlt
      · rintro (hzero | hle)
        · rw [hzero] at hlt
          exact absurd hlt UInt16.not_lt_zero
        · exact UInt16.not_lt.mpr hle hlt
    · exact iff_of_true rfl (.inr (UInt16.not_lt.mp hlong))

theorem CallWait.copyLen_le (msg : Msg) : (c.copyLen msg).toNat ≤ msg.len.toNat := by
  unfold CallWait.copyLen
  split_ifs with hreply hlong
  · exact Nat.le_of_lt hlong
  · exact Nat.le_refl _
  · exact Nat.zero_le _

/-! ## steps -/

def Output.isRead : Output → Bool
  | .notified _ _ _ => true
  | .replied _ _ _ _ => true
  | _ => false

theorem reads_of_none (h : ∀ o ∈ out, o.isRead = false) : Reads out :=
  ⟨fun _ _ _ ho => absurd (h _ ho).symm Bool.false_ne_true,
    fun _ _ _ _ ho => absurd (h _ ho).symm Bool.false_ne_true⟩

theorem noRead_of_results (h : ∀ o ∈ out, o.isResult = true) : ∀ o ∈ out, o.isRead = false := by
  intro o ho
  have hres := h o ho
  cases o <;> first | rfl | exact absurd hres Bool.false_ne_true

theorem Sends.noRead {len : UInt16} (h : Sends len s s' out) : ∀ o ∈ out, o.isRead = false := by
  induction h with
  | quiet _ hout => exact noRead_of_results hout
  | push _ _ _ _ => exact fun o ho => by rw [mem_singleton.mp ho]; rfl
  | trans _ _ ih ih' => exact fun o ho => (mem_append.mp ho).elim (ih o) (ih' o)

def Op.isTurn : Op → Bool
  | .turn _ _ _ => true
  | _ => false

variable {op : Op}

theorem bounded_iff (hturn : op.isTurn = false) (hstuck : s.stuck = false) : Bounded s op ↔
    ∀ src dst len, op.sends s = some (src, dst, len) → takes s src dst = true →
      len.toNat ≤ payloadSize := by
  refine ⟨fun h => h.sent hstuck, fun h => ⟨fun _ => h, fun _ service now later c w msg q he => ?_⟩⟩
  rw [he] at hturn
  exact nomatch hturn

theorem trustworthy_of_none (hturn : op.isTurn = false) (hstuck : s.stuck = false)
    (hnone : op.sends s = none) (hshort : Short (step s op).1)
    (hreads : ∀ o ∈ (step s op).2, o.isRead = false) : Trustworthy s op ↔ Bounded s op := by
  refine iff_of_true ⟨hshort, reads_of_none hreads⟩ ((bounded_iff hturn hstuck).mpr ?_)
  intro src dst len h
  rw [hnone] at h
  exact nomatch h

/-- the queues are as after `internal_send` in a state that is like this one -/
def SendsFrom (s : State) (src dst : UInt8) (len : UInt16) (r : State × List Output) : Prop :=
  Sends len s r.1 r.2 ∧ ∃ s₁ type seq payload, Alike s s₁ ∧ ∀ i, (r.1.endpoints i).rxQueue =
    ((internalSend s₁ src dst type seq payload len).2.1.endpoints i).rxQueue

theorem trustworthy_of_sends (hturn : op.isTurn = false) (hstuck : s.stuck = false)
    (hs : Sound s) (hshort : Short s) {src dst : UInt8} {len : UInt16}
    (hsends : op.sends s = some (src, dst, len)) (hfrom : SendsFrom s src dst len (step s op)) :
    Trustworthy s op ↔ Bounded s op := by
  obtain ⟨hmoves, s₁, type, seq, payload, halike, hqueue⟩ := hfrom
  have hs₁ : Sound s₁ := fun i => (halike i).2.2 ▸ hs i
  rw [bounded_iff hturn hstuck]
  constructor
  · intro h src' dst' len' hsends' htakes
    obtain ⟨rfl, rfl, rfl⟩ : src = src' ∧ dst = dst' ∧ len = len' := by
      have heq := Option.some.inj (hsends.symm.trans hsends')
      exact ⟨congrArg Prod.fst heq, congrArg (·.2.1) heq, congrArg (·.2.2) heq⟩
    rw [← takes_congr halike] at htakes
    obtain ⟨j, m, hm, hlen⟩ := internalSend_taken src type seq payload len hs₁ htakes
    rw [← hlen]
    refine h.queued j m ?_
    unfold contents at hm ⊢
    rw [hqueue j]
    exact hm
  · intro h
    refine ⟨?_, reads_of_none hmoves.noRead⟩
    by_cases htakes : takes s src dst = true
    · exact hmoves.short hs hshort (h src dst len hsends htakes)
    · have hrefused := internalSend_refused src type seq payload len
        ((takes_congr halike src dst).trans (Bool.not_eq_true _ ▸ htakes))
      refine short_of_queues hshort fun i => ?_
      rw [hqueue i, hrefused]
      exact (halike i).2.2

section
variable {service : UInt8} (dst : UInt8) (payload : Option (List UInt8)) (len : UInt16)

theorem sendsFrom_send (hcurrent : currentEndpoint s service = some i) (type : MsgType) :
    SendsFrom s (s.endpoints i).id dst len (send s service dst type payload len) := by
  refine ⟨Sends.send .., s.nextSeq i, type, (s.endpoints i).seqCounter, payload,
    alike_nextSeq s i, fun j => ?_⟩
  unfold send
  rw [hcurrent]
  rfl

theorem sendsFrom_reply (hcurrent : currentEndpoint s service = some i) (request : Msg) :
    SendsFrom s (s.endpoints i).id request.src len (reply s service request payload len) := by
  refine ⟨Sends.reply .., { s with stats := { s.stats with
    repliesSent := s.stats.repliesSent + 1 } }, .reply, request.seq, payload,
    fun _ => ⟨rfl, rfl, rfl⟩, fun j => ?_⟩
  unfold reply
  rw [hcurrent]
  rfl

theorem sendsFrom_call (hcurrent : currentEndpoint s service = some i) (hasReply : Bool)
    (replySize : UInt16) (timeoutMs now : UInt32) :
    SendsFrom s (s.endpoints i).id dst len
      (call s service dst payload len hasReply replySize timeoutMs now) := by
  refine ⟨Sends.call .., s.nextSeq i, .request, (s.endpoints i).seqCounter, payload,
    alike_nextSeq s i, fun j => ?_⟩
  unfold call
  rw [hcurrent]
  dsimp only
  generalize internalSend (s.nextSeq i) (s.endpoints i).id dst .request
    (s.endpoints i).seqCounter payload len = r
  obtain ⟨res, s', out⟩ := r
  cases res <;> rfl

def State.notifying (s : State) : State :=
  { s with stats := { s.stats with notificationsSent := s.stats.notificationsSent + 1 } }

theorem sendsFrom_notify_some (hcurrent : currentEndpoint s service = some i) :
    SendsFrom s (s.endpoints i).id dst len (notify s service dst payload len) := by
  refine ⟨Sends.notify .., s.notifying.nextSeq i, .notify, (s.endpoints i).seqCounter, payload,
    alike_nextSeq s.notifying i, fun j => ?_⟩
  have hcurrent' : currentEndpoint s.notifying service = some i := hcurrent
  show (((match currentEndpoint s.notifying service with
    | none => _
    | some i => _ : State × List Output)).1.endpoints j).rxQueue = _
  rw [hcurrent']
  rfl

theorem sendsFrom_notify_none (hcurrent : currentEndpoint s service = none) :
    SendsFrom s epKernel dst len (notify s service dst payload len) := by
  refine ⟨Sends.notify .., s.notifying, .notify, 0, payload,
    fun _ => ⟨rfl, rfl, rfl⟩, fun j => ?_⟩
  have hcurrent' : currentEndpoint s.notifying service = none := hcurrent
  show (((match currentEndpoint s.notifying service with
    | none => _
    | some i => _ : State × List Output)).1.endpoints j).rxQueue = _
  rw [hcurrent']
  rfl

end

theorem trustworthy_whenIdle (hturn : op.isTurn = false) (hstuck : s.stuck = false) (hs : Sound s)
    (hshort : Short s) {service : UInt8} (hstep : step s op = whenIdle s service r)
    (hwaiting : s.waits service ≠ .idle → op.sends s = none) (hidle : s.waits service = .idle →
    (op.sends s = none ∧ Short r.1 ∧ ∀ o ∈ r.2, o.isRead = false) ∨ ∃ src dst len, op.sends s = some
    (src, dst, len) ∧ SendsFrom s src dst len r) : Trustworthy s op ↔ Bounded s op := by
  by_cases hwait : s.waits service = .idle
  · have hstep' : step s op = r := hstep.trans (if_pos hwait)
    rcases hidle hwait with ⟨hnone, hshort', hreads⟩ | ⟨src, dst, len, hsends, hfrom⟩
    · exact trustworthy_of_none hturn hstuck hnone (hstep' ▸ hshort') (hstep' ▸ hreads)
    · exact trustworthy_of_sends hturn hstuck hs hshort hsends (hstep' ▸ hfrom)
  · have hstep' : step s op = (s, []) := hstep.trans (if_neg hwait)
    exact trustworthy_of_none hturn hstuck (hwaiting hwait) (hstep' ▸ hshort)
      (hstep' ▸ noRead_of_results results_nil)

theorem Idle.short (h : Idle s r) (hshort : Short s) : Short r.1 ∧ ∀ o ∈ r.2, o.isRead = false :=
  ⟨short_of_queues hshort h.1, noRead_of_results h.2⟩

theorem idle_invalid (s : State) (service : UInt8) :
    Idle s (s, [.result service (.error .invalid)]) :=
  ⟨fun _ => rfl, results_singleton rfl⟩

theorem trustworthy_endpoint (hturn : op.isTurn = false) (hstuck : s.stuck = false) (hs : Sound s)
    (hshort : Short s) {service dst : UInt8} {len : UInt16}
    (hstep : step s op = whenIdle s service r) (hsends : op.sends s = if s.waits service = .idle
    then (currentEndpoint s service).map fun i => ((s.endpoints i).id, dst, len) else none)
    (hnone : currentEndpoint s service = none → Idle s r)
    (hsome : ∀ i, currentEndpoint s service = some i → SendsFrom s (s.endpoints i).id dst len r) :
    Trustworthy s op ↔ Bounded s op := by
  refine trustworthy_whenIdle hturn hstuck hs hshort hstep
    (fun hwait => hsends.trans (if_neg hwait)) fun hwait => ?_
  rw [hsends, if_pos hwait]
  cases hcurrent : currentEndpoint s service with
  | none => exact .inl ⟨rfl, (hnone hcurrent).short hshort⟩
  | some i => exact .inr ⟨_, _, _, rfl, hsome i hcurrent⟩

theorem short_registerEndpoint (hshort : Short s) (endpoint service : UInt8) :
    Short (registerEndpoint s endpoint service).1 ∧
      ∀ o ∈ (registerEndpoint s endpoint service).2, o.isRead = false := by
  unfold registerEndpoint
  split_ifs
  · exact ⟨hshort, noRead_of_results (results_singleton rfl)⟩
  · cases (List.range maxEndpoints).find? _ with
    | none => exact ⟨hshort, noRead_of_results (results_singleton rfl)⟩
    | some i =>
      refine ⟨fun j m hm => ?_, fun o ho => ?_⟩
      · unfold contents State.put at hm
        dsimp only at hm
        by_cases hj : j = i
        · subst hj
          rw [update_self] at hm
          exact absurd hm not_mem_nil
        · rw [update_of_ne hj] at hm
          exact hshort j m hm
      · rcases mem_cons.mp ho with rfl | ho
        · rfl
        · exact noRead_of_results (results_singleton rfl) o ho

theorem short_recvNonblock (hs : Sound s) (hshort : Short s) (service : UInt8) :
    Short (recvNonblock s service).1 ∧
      ∀ o ∈ (recvNonblock s service).2, o.isRead = false := by
  unfold recvNonblock
  cases currentEndpoint s service with
  | none => exact (idle_invalid s service).short hshort
  | some i =>
    dsimp only
    cases hpop : queuePop (s.endpoints i).rxQueue with
    | none => exact ⟨hshort, noRead_of_results (results_singleton rfl)⟩
    | some r =>
      refine ⟨short_popped hs hshort hpop, fun o ho => ?_⟩
      rcases mem_cons.mp ho with rfl | ho
      · rfl
      · exact noRead_of_results (results_singleton rfl) o ho

theorem short_forwardInterrupt (hs : Sound s) (hshort : Short s) (irqNum : UInt32)
    (timestamp : UInt64) : Short (forwardInterrupt s irqNum timestamp).1 ∧
      ∀ o ∈ (forwardInterrupt s irqNum timestamp).2, o.isRead = false :=
  ⟨(Sends.forwardInterrupt s irqNum timestamp).short hs hshort (by decide),
    (Sends.forwardInterrupt s irqNum timestamp).noRead⟩

theorem reads_of_notified (hlen : msg.len.toNat ≤ payloadSize)
    (hout : ∀ o ∈ out, o = .notified msg.src msg.payload msg.len) : Reads out := by
  constructor
  · intro src payload len ho
    injection hout _ ho with _ _ heq
    rw [heq]
    exact hlen
  · exact fun _ _ _ _ ho => nomatch hout _ ho

theorem Reads.append (h : Reads out) (h' : Reads out') : Reads (out ++ out') :=
  ⟨fun src payload len ho => (mem_append.mp ho).elim (h.notified src payload len)
      (h'.notified src payload len),
    fun service msg copied replyLen ho => (mem_append.mp ho).elim
      (h.replied service msg copied replyLen) (h'.replied service msg copied replyLen)⟩

theorem reads_replied_iff {slot : Nat} {service : UInt8} (hlen : msg.len.toNat ≤ payloadSize) :
    Reads [.handed slot service msg, .replied service msg (c.copyLen msg) msg.len,
      .result service (.ok ())] ↔ c.Fits msg ∧ msg.len = msg.supplied := by
  rw [← c.copyLen_eq_iff msg]
  constructor
  · intro h
    exact (h.replied service msg (c.copyLen msg) msg.len (by simp)).2
  · rintro ⟨heq, hsupplied⟩
    constructor
    · intro src payload len ho
      simp at ho
    · intro service' msg' copied replyLen ho
      simp only [mem_cons, reduceCtorEq, Output.replied.injEq, not_mem_nil, or_false,
        false_or] at ho
      obtain ⟨-, rfl, rfl, rfl⟩ := ho
      exact ⟨Nat.le_trans (c.copyLen_le msg') hlen, heq, hsupplied⟩

/-! ## turns -/

theorem Idle.trustworthy (h : Idle s r) (hshort : Short s) (hstep : step s op = r) :
    Trustworthy s op := by
  obtain ⟨hqueued, hreads⟩ := h.short hshort
  exact ⟨hstep ▸ hqueued, hstep ▸ reads_of_none hreads⟩

theorem trustworthy_got_iff (hs : Sound s) (hshort : Short s) {out : List Output} {s' : State}
    (hpop : queuePop (s.endpoints i).rxQueue = some (msg, q))
    (hout : ∀ o ∈ out, o = .notified msg.src msg.payload msg.len)
    (hstep : step s op = (s', out ++ out')) (hend : s'.endpoints = (s.popped i q).endpoints) :
    Trustworthy s op ↔ Reads out' := by
  have hqueued : Short (step s op).1 := by
    rw [hstep]
    exact short_of_queues (short_popped hs hshort hpop) fun j => by rw [hend]
  have hnotified := reads_of_notified (len_of_pop hs hshort hpop) hout
  constructor
  · intro h
    have hreads := h.reads
    rw [hstep] at hreads
    exact ⟨fun src payload len ho => hreads.notified src payload len (mem_append_right out ho),
      fun service msg copied replyLen ho =>
        hreads.replied service msg copied replyLen (mem_append_right out ho)⟩
  · intro h
    refine ⟨hqueued, ?_⟩
    rw [hstep]
    exact hnotified.append h

/-- a turn of `jezgro_ipc_recv` -/
theorem trustworthy_recvStep (hs : Sound s) (hshort : Short s) {service : UInt8} {w : RecvWait}
    {now : UInt32} (hstep : step s op = recvStep s service w now) : Trustworthy s op := by
  cases hpop : queuePop (s.endpoints w.slot).rxQueue with
  | none => exact (recvStep_none hpop).trustworthy hshort hstep
  | some r =>
    obtain ⟨out, hout, heq⟩ := recvStep_got service now hpop
    refine (trustworthy_got_iff hs hshort hpop hout (hstep.trans heq) rfl).mpr
      (reads_of_none fun o ho => ?_)
    rcases mem_cons.mp ho with rfl | ho
    · rfl
    · exact noRead_of_results (results_singleton rfl) o ho

/-- a turn of `jezgro_ipc_call` -/
theorem trustworthy_callStep_iff (hs : Sound s) (hshort : Short s) {service : UInt8}
    {c : CallWait} {now later : UInt32} (hstep : step s op = callStep s service c now later) :
    Trustworthy s op ↔ ∀ w msg q, c.inner = some w →
      queuePop (s.endpoints w.slot).rxQueue = some (msg, q) → c.isReply msg = true →
        c.Fits msg ∧ msg.len = msg.supplied := by
  cases hinner : c.inner with
  | none => exact iff_of_true ((callStep_start hinner).trustworthy hshort hstep) nofun
  | some w =>
    cases hpop : queuePop (s.endpoints w.slot).rxQueue with
    | none =>
      refine iff_of_true ((callStep_none hinner hpop).trustworthy hshort hstep) ?_
      rintro w' msg q hw hpop'
      rw [← Option.some.inj hw, hpop] at hpop'
      exact nomatch hpop'
    | some r =>
      obtain ⟨msg, q⟩ := r
      have honly : (∀ w' msg' q', some w = some w' →
          queuePop (s.endpoints w'.slot).rxQueue = some (msg', q') → c.isReply msg' = true →
            c.Fits msg' ∧ msg'.len = msg'.supplied) ↔
          (c.isReply msg = true → c.Fits msg ∧ msg.len = msg.supplied) := by
        refine ⟨fun h => h w msg q rfl hpop, ?_⟩
        rintro h w' msg' q' hw hpop'
        rw [← Option.some.inj hw, hpop] at hpop'
        obtain ⟨rfl, -⟩ := Prod.mk.inj (Option.some.inj hpop')
        exact h
      rw [honly]
      cases hreply : c.isReply msg with
      | false =>
        obtain ⟨hend, out, out', hout, hres, heq⟩ :=
          callStep_drop service now later hinner hpop hreply
        refine iff_of_true ?_ fun h => absurd h Bool.false_ne_true
        exact (trustworthy_got_iff hs hshort hpop hout (hstep.trans (Prod.ext rfl heq)) hend).mpr
          (reads_of_none (noRead_of_results hres))
      | true =>
        obtain ⟨out, hout, heq⟩ := callStep_reply service now later hinner hpop hreply
        refine ((trustworthy_got_iff hs hshort hpop hout (hstep.trans heq) rfl).trans ?_).trans
          (forall_prop_of_true rfl).symm
        exact reads_replied_iff c (len_of_pop hs hshort hpop)

theorem trustworthy_turn_iff (hs : Sound s) (hshort : Short s) (hstuck : s.stuck = false)
    (service : UInt8) (now later : UInt32) :
    Trustworthy s (.turn service now later) ↔ Bounded s (.turn service now later) := by
  have hrun : ¬ s.stuck = true := Bool.eq_false_iff.mp hstuck
  have hbounded : Bounded s (.turn service now later) ↔
      ∀ c w msg q, s.waits service = .call c → c.inner = some w →
        queuePop (s.endpoints w.slot).rxQueue = some (msg, q) → c.isReply msg = true →
          c.Fits msg ∧ msg.len = msg.supplied := by
    constructor
    · exact fun h c w msg q => h.reply hstuck service now later c w msg q rfl
    · intro h
      refine ⟨fun _ _ _ _ hsends => absurd hsends.symm (Option.some_ne_none _), fun _ service' now' later' c w msg q he => ?_⟩
      injection he with hservice _ _
      subst hservice
      exact h c w msg q
  rw [hbounded]
  cases hwait : s.waits service with
  | idle =>
    have hstep : step s (.turn service now later) = (s, []) := (if_neg hrun).trans (by dsimp only; rw [hwait])
    have hidle : Idle s (s, []) := ⟨fun _ => rfl, results_nil⟩
    exact iff_of_true (hidle.trustworthy hshort hstep) fun _ _ _ _ h => Wait.noConfusion h
  | recv w =>
    have hstep : step s (.turn service now later) = recvStep s service w now :=
      (if_neg hrun).trans (by dsimp only; rw [hwait])
    exact iff_of_true (trustworthy_recvStep hs hshort hstep) fun _ _ _ _ h => Wait.noConfusion h
  | call c =>
    have hstep : step s (.turn service now later) = callStep s service c now later :=
      (if_neg hrun).trans (by dsimp only; rw [hwait])
    rw [trustworthy_callStep_iff hs hshort hstep]
    refine ⟨?_, fun h w msg q => h c w msg q rfl⟩
    rintro h c' w msg q hc
    rw [← Wait.call.inj hc]
    exact h w msg q

/-! ## runs -/

/-- **Step.** From short messages, the lengths of a step can be trusted exactly under the
condition. -/
theorem trustworthy_step_iff (hs : Sound s) (hshort : Short s) (op : Op) :
    Trustworthy s op ↔ Bounded s op := by
  cases hstuck : s.stuck with
  | true =>
    have hstep : step s op = (s, []) := if_pos hstuck
    have hidle : Idle s (s, []) := ⟨fun _ => rfl, results_nil⟩
    refine iff_of_true (hidle.trustworthy hshort hstep) ⟨fun h => ?_, fun h => ?_⟩ <;>
      exact absurd (h.symm.trans hstuck) Bool.false_ne_true
  | false =>
    have hrun : ¬ s.stuck = true := Bool.eq_false_iff.mp hstuck
    have hnone {r : State × List Output} {op : Op} (hturn : op.isTurn = false)
        (hstep : step s op = r) (hsends : op.sends s = none)
        (h : Short r.1 ∧ ∀ o ∈ r.2, o.isRead = false) : Trustworthy s op ↔ Bounded s op :=
      trustworthy_of_none hturn hstuck hsends (hstep ▸ h.1) (hstep ▸ h.2)
    cases op with
    | registerEndpoint endpoint service =>
      exact hnone rfl (if_neg hrun) rfl (short_registerEndpoint hshort endpoint service)
    | unregisterEndpoint endpoint =>
      exact hnone rfl (if_neg hrun) rfl ((idle_unregisterEndpoint s endpoint).short hshort)
    | registerIrq irqNum endpoint =>
      exact hnone rfl (if_neg hrun) rfl ((idle_registerIrq s irqNum endpoint).short hshort)
    | setNotifyCallback installed =>
      exact hnone rfl (if_neg hrun) rfl
        ⟨short_of_queues hshort fun _ => rfl, noRead_of_results results_nil⟩
    | forwardInterrupt irqNum timestamp =>
      exact hnone rfl (if_neg hrun) rfl (short_forwardInterrupt hs hshort irqNum timestamp)
    | send service dst type payload len =>
      refine trustworthy_endpoint rfl hstuck hs hshort (if_neg hrun) rfl (fun hnone => ?_)
        fun i hcurrent => sendsFrom_send dst payload len hcurrent type
      unfold send
      rw [hnone]
      exact idle_invalid s service
    | reply service request payload len =>
      refine trustworthy_endpoint rfl hstuck hs hshort (if_neg hrun) rfl (fun hnone => ?_)
        fun i hcurrent => sendsFrom_reply payload len hcurrent request
      unfold reply
      rw [hnone]
      exact idle_invalid s service
    | notify service dst payload len =>
      refine trustworthy_whenIdle rfl hstuck hs hshort (if_neg hrun) (fun hwait => if_neg hwait)
        fun hwait => .inr ?_
      have hsends : (Op.notify service dst payload len).sends s = _ := if_pos hwait
      rw [hsends]
      cases hcurrent : currentEndpoint s service with
      | none => exact ⟨_, _, _, rfl, sendsFrom_notify_none dst payload len hcurrent⟩
      | some i => exact ⟨_, _, _, rfl, sendsFrom_notify_some dst payload len hcurrent⟩
    | recvNonblock service =>
      exact trustworthy_whenIdle rfl hstuck hs hshort (if_neg hrun) (fun _ => rfl) fun _ =>
        .inl ⟨rfl, short_recvNonblock hs hshort service⟩
    | recv service timeoutMs now =>
      exact trustworthy_whenIdle rfl hstuck hs hshort (if_neg hrun) (fun _ => rfl) fun _ =>
        .inl ⟨rfl, (idle_recv s service timeoutMs now).short hshort⟩
    | call service dst request requestLen hasReply replySize timeoutMs now =>
      refine trustworthy_endpoint rfl hstuck hs hshort (if_neg hrun) rfl (fun hnone => ?_)
        fun i hcurrent =>
          sendsFrom_call dst request requestLen hcurrent hasReply replySize timeoutMs now
      unfold call
      rw [hnone]
      exact idle_invalid s service
    | turn service now later => exact trustworthy_turn_iff hs hshort hstuck service now later

theorem short_init : Short init := by
  intro i msg hmsg
  have hempty := inOrder_nil i
  have hnil : contents init i = [] := hempty
  rw [hnil] at hmsg
  exact absurd hmsg not_mem_nil

/-- **Main.** The lengths of a run can be trusted exactly when all its steps meet the condition. -/
theorem trustworthy_iff (ops : List Op) :
    Runs.EveryStep (fun past op => Trustworthy (ipc.run past) op) ops ↔
      Runs.EveryStep (fun past op => Bounded (ipc.run past) op) ops := by
  refine Runs.everyStep_congr (fun past op hpast => ?_) ops
  refine trustworthy_step_iff (sound_run past) ?_ op
  refine Runs.history_induction (I := fun past => Short (ipc.run past)) short_init
    (fun past op _ h => ?_) past hpast
  rw [ipc.run_concat]
  exact h.queued

/-- service 1 sends 100 bytes to its own endpoint: the message keeps the length -/
theorem not_trustworthy_sendLong : ¬ Runs.EveryStep
    (fun past op => Trustworthy (ipc.run past) op)
      [.registerEndpoint 2 1, .send 1 2 .request (some (List.replicate 100 7)) 100] := by
  intro h
  have hshort := (h [.registerEndpoint 2 1] _ (prefix_refl _)).queued 1
  exact absurd hshort (by decide +kernel)

end Ipc
end Jezgro
end EkKor
