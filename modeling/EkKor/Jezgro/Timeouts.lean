import EkKor.Jezgro.Ipc

/-!
# Timeouts of the calls

The clock counts milliseconds and wraps at 32 bits.  A deadline is a sum of such numbers, and
`jezgro_ipc_call` gives the time that is left to the next `jezgro_ipc_recv`.

* `timed`             the operations in real time: the clock shows the time at which they are called;
* `Due`               the time that a service asked for has passed;
* `Honest`            a timeout comes when it is due, and never for a wait without an end;
* `InTime`            the condition on a step: no deadline wraps, and a call without an end goes
                      around only at time 0;
* `honest_of_inTime`  a run whose steps meet the condition is honest.
-/

namespace EkKor
namespace Jezgro
namespace Ipc
open Runs (Machine EveryStep)
open List Function

/-! ## real time -/

/-- `ekk_hal_time_ms` -/
def clock (time : Nat) : UInt32 := UInt32.ofNat time

def Op.at (op : Op) (now later : UInt32) : Op :=
  match op with
  | .recv service timeoutMs _ => .recv service timeoutMs now
  | .call service dst request requestLen hasReply replySize timeoutMs _ =>
    .call service dst request requestLen hasReply replySize timeoutMs now
  | .turn service _ _ => .turn service now later
  | op => op

def Op.starts : Op → Option (UInt8 × UInt32)
  | .recv service timeoutMs _ => some (service, timeoutMs)
  | .call service _ _ _ _ _ timeoutMs _ => some (service, timeoutMs)
  | _ => none

/-- the services, the time, and for each service when its last wait started and how long it wanted
to wait -/
structure Timed where
  ipc : State
  time : Nat
  since : UInt8 → Nat
  asked : UInt8 → UInt32

/-- an operation after some time, which takes some time between its two looks at the clock -/
structure Event where
  wait : Nat
  op : Op
  pause : Nat

def timedStep (s : Timed) (e : Event) : Timed × List Output :=
  let now := s.time + e.wait
  let later := now + e.pause
  let r := step s.ipc (e.op.at (clock now) (clock later))
  match e.op.starts with
  | some (service, timeoutMs) =>
    if s.ipc.waits service = .idle then
      (⟨r.1, later, update s.since service now,
        update s.asked service timeoutMs⟩, r.2)
    else (⟨r.1, later, s.since, s.asked⟩, r.2)
  | none => (⟨r.1, later, s.since, s.asked⟩, r.2)

def timed (time : Nat) : Machine Timed Event Output where
  start := ⟨init, time, fun _ => time, fun _ => waitForever⟩
  step := timedStep

/-! ## honest timeouts -/

def Due (since : Nat) (asked : UInt32) (time : Nat) : Prop :=
  asked ≠ waitForever ∧ since + asked.toNat ≤ time

def Honest (s : Timed) (e : Event) : Prop :=
  ∀ service, .result service (.error .timeout) ∈ (timedStep s e).2 →
    Due (s.since service) (s.asked service) (s.time + e.wait + e.pause)

def Fits (timeoutMs : UInt32) (now : Nat) : Prop :=
  timeoutMs = waitForever ∨ (clock now).toNat + timeoutMs.toNat < 2 ^ 32

/-- a turn of `jezgro_ipc_call` ends without a reply: the service has no endpoint any more, or it
gets another message -/
def GoesRound (s : State) (service : UInt8) (c : CallWait) : Prop :=
  match c.inner with
  | none => currentEndpoint s service = none
  | some w => ∃ msg q, queuePop (s.endpoints w.slot).rxQueue = some (msg, q) ∧
      c.isReply msg = false

def InTime (s : Timed) (e : Event) : Prop :=
  match e.op with
  | .recv _ timeoutMs _ => Fits timeoutMs (s.time + e.wait)
  | .call _ _ _ _ _ _ timeoutMs _ => Fits timeoutMs (s.time + e.wait)
  | .turn service _ _ =>
    ∀ c, s.ipc.waits service = .call c →
      (c.inner = none → currentEndpoint s.ipc service ≠ none →
        Fits c.timeoutMs (s.time + e.wait) ∨
          Due (s.since service) (s.asked service) (s.time + e.wait)) ∧
      (GoesRound s.ipc service c → s.asked service = waitForever →
        clock (s.time + e.wait + e.pause) = 0)
  | _ => True

/-! ## deadlines -/

theorem toNat_clock (time : Nat) : (clock time).toNat = time % 2 ^ 32 := UInt32.toNat_ofNat'

variable {time : Nat} {c : CallWait} {s' : State} (endpoint : UInt8)

theorem Due.mono {since : Nat} {asked : UInt32} {time' : Nat} (h : Due since asked time)
    (hle : time ≤ time') : Due since asked time' := ⟨h.1, Nat.le_trans h.2 hle⟩

/-- from `time` on, a check of the deadline that passes is honest -/
def Safe (time since : Nat) (asked timeoutMs deadline : UInt32) : Prop :=
  timeoutMs ≠ waitForever → ∀ t, time ≤ t → deadline ≤ clock t → Due since asked t

variable {since now : Nat} {asked timeoutMs deadline : UInt32}

theorem Safe.mono (h : Safe time since asked timeoutMs deadline) (hle : time ≤ now) :
    Safe now since asked timeoutMs deadline :=
  fun hfinite t ht => h hfinite t (Nat.le_trans hle ht)

theorem toNat_deadlineOf (hfits : Fits timeoutMs now) (hfinite : timeoutMs ≠ waitForever) :
    (deadlineOf timeoutMs (clock now)).toNat = now % 2 ^ 32 + timeoutMs.toNat := by
  have hlt := hfits.resolve_left hfinite
  unfold deadlineOf
  rw [if_neg hfinite, UInt32.toNat_add, Nat.mod_eq_of_lt hlt, toNat_clock]

theorem le_of_deadline (hfits : Fits timeoutMs now) (hfinite : timeoutMs ≠ waitForever) {t : Nat}
    (hnow : now ≤ t) (ht : deadlineOf timeoutMs (clock now) ≤ clock t) :
    now + timeoutMs.toNat ≤ t := by
  have hle := UInt32.le_iff_toNat_le.mp ht
  rw [toNat_deadlineOf hfits hfinite, toNat_clock] at hle
  by_contra hearly
  omega

theorem safe_start (hfits : Fits timeoutMs now)
    (hdue : timeoutMs ≠ waitForever → Due since asked (now + timeoutMs.toNat)) :
    Safe now since asked timeoutMs (deadlineOf timeoutMs (clock now)) :=
  fun hfinite _ hnow ht => (hdue hfinite).mono (le_of_deadline hfits hfinite hnow ht)

/-- what is left for the next `jezgro_ipc_recv` reaches the deadline -/
theorem rest_le (hfits : Fits asked since) (hfinite : asked ≠ waitForever) (hle : since ≤ now) :
    since + asked.toNat ≤ now + (deadlineOf asked (clock since) - clock now).toNat := by
  have hsince := Nat.div_add_mod since (2 ^ 32)
  have hnow := Nat.div_add_mod now (2 ^ 32)
  have hlt := hfits.resolve_left hfinite
  rw [UInt32.toNat_sub, toNat_deadlineOf hfits hfinite, toNat_clock]
  generalize since % 2 ^ 32 = s at *
  generalize now % 2 ^ 32 = n at *
  generalize asked.toNat = a at *
  by_cases hn : n ≤ s + a
  · omega
  · omega

/-! ## waits -/

/-- a wait in `jezgro_ipc_call`: the time that is left reaches its deadline -/
structure CallOk (time since : Nat) (asked : UInt32) (c : CallWait) : Prop where
  before : since ≤ time
  fits : Fits asked since
  deadline : c.deadline = deadlineOf asked (clock since)
  forever : asked = waitForever → c.timeoutMs = waitForever
  rest : asked ≠ waitForever → since + asked.toNat ≤ time + c.timeoutMs.toNat
  inner : ∀ w, c.inner = some w → Safe time since asked w.timeoutMs w.deadline

def WaitOk (time since : Nat) (asked : UInt32) : Wait → Prop
  | .idle => True
  | .recv w => Safe time since asked w.timeoutMs w.deadline
  | .call c => CallOk time since asked c

theorem CallOk.mono (h : CallOk time since asked c) (hle : time ≤ now) :
    CallOk now since asked c where
  before := Nat.le_trans h.before hle
  fits := h.fits
  deadline := h.deadline
  forever := h.forever
  rest hfinite := Nat.le_trans (h.rest hfinite) (Nat.add_le_add_right hle _)
  inner w hw := (h.inner w hw).mono hle

theorem WaitOk.mono {wait : Wait} (h : WaitOk time since asked wait) (hle : time ≤ now) :
    WaitOk now since asked wait := by
  cases wait with
  | idle => trivial
  | recv w => exact Safe.mono h hle
  | call c => exact CallOk.mono h hle

theorem CallOk.safe (h : CallOk time since asked c) :
    Safe time since asked c.timeoutMs c.deadline := by
  intro hfinite t ht hpassed
  have hasked : asked ≠ waitForever := fun he => hfinite (h.forever he)
  rw [h.deadline] at hpassed
  exact ⟨hasked, le_of_deadline h.fits hasked (Nat.le_trans h.before ht) hpassed⟩

/-- the inner `jezgro_ipc_recv` starts -/
theorem CallOk.start (h : CallOk time since asked c)
    (hstart : Fits c.timeoutMs time ∨ Due since asked time) (i : Nat) :
    CallOk time since asked
      { c with inner := some ⟨i, c.timeoutMs, deadlineOf c.timeoutMs (clock time)⟩ } where
  before := h.before
  fits := h.fits
  deadline := h.deadline
  forever := h.forever
  rest := h.rest
  inner w hw := by
    cases hw
    rcases hstart with hfits | hdue
    · refine safe_start hfits fun hfinite => ?_
      have hasked : asked ≠ waitForever := fun he => hfinite (h.forever he)
      exact ⟨hasked, h.rest hasked⟩
    · exact fun _ t ht _ => hdue.mono ht

theorem CallOk.again (h : CallOk time since asked c)
    (hforever : asked = waitForever → clock time = 0) :
    CallOk time since asked { c with timeoutMs := c.deadline - clock time, inner := none } where
  before := h.before
  fits := h.fits
  deadline := h.deadline
  forever he := by
    rw [h.deadline, hforever he, he, deadlineOf, if_pos rfl]
    rfl
  rest hfinite := by
    rw [h.deadline]
    exact rest_le h.fits hfinite h.before
  inner w hw := by cases hw

/-! ## operations -/

/-- a part of an operation of one service: what it does then, and its timeouts are due -/
structure PartOk (s : State) (service : UInt8) (time since : Nat) (asked : UInt32)
    (r : State × List Output) : Prop where
  waits : ∃ wait, r.1.waits = update s.waits service wait ∧ WaitOk time since asked wait
  due : ∀ service', .result service' (.error .timeout) ∈ r.2 →
    service' = service ∧ Due since asked time

/-- the start of a wait, which gives no timeout -/
structure StartOk (s : State) (service : UInt8) (now : Nat) (timeoutMs : UInt32)
    (r : State × List Output) : Prop where
  waits : ∃ wait, r.1.waits = update s.waits service wait ∧ WaitOk now now timeoutMs wait
  noTimeout : ∀ service', .result service' (.error .timeout) ∉ r.2

/-- an operation that starts no wait, and gives no timeout -/
structure Still (s : State) (r : State × List Output) : Prop where
  waits : r.1.waits = s.waits
  noTimeout : ∀ service, .result service (.error .timeout) ∉ r.2

variable {s : State} {service : UInt8} {r : State × List Output}

theorem ok_ne_timeout : (.ok () : Except IpcErr Unit) ≠ .error .timeout := by decide

theorem error_ne_timeout {err : IpcErr} (h : err ≠ .timeout) :
    (.error err : Except IpcErr Unit) ≠ .error .timeout := fun he => h (Except.error.inj he)

theorem still_quiet {res : Except IpcErr Unit} (hres : res ≠ .error .timeout) (service : UInt8) :
    Still s (s, [.result service res]) := by
  refine ⟨rfl, fun service' h => ?_⟩
  injection mem_singleton.mp h with _ he
  exact hres he.symm

theorem still_registered (res : Except Err Unit) (hwaits : s'.waits = s.waits) :
    Still s (s', [.registered res]) := by
  refine ⟨hwaits, fun service h => ?_⟩
  cases mem_singleton.mp h

/-- a send: it never times out -/
structure Sent (s : State) (r : Except IpcErr Unit × State × List Output) : Prop where
  res : r.1 ≠ .error .timeout
  still : Still s r.2

variable {src dst : UInt8} {type : MsgType} {seq : UInt16} {payload : Option (List UInt8)}
  {len : UInt16}

theorem sent_sendTo : Sent s (sendTo s src dst type seq payload len) := by
  unfold sendTo
  cases findEndpoint s dst with
  | none => exact ⟨error_ne_timeout (by decide), rfl, fun _ => not_mem_nil⟩
  | some i =>
    dsimp only
    split_ifs
    · exact ⟨error_ne_timeout (by decide), rfl, fun _ => not_mem_nil⟩
    · exact ⟨ok_ne_timeout, rfl, fun _ h => by cases mem_singleton.mp h⟩

theorem still_broadcast (slots : List Nat) :
    Still s (broadcast src type seq payload len s slots) := by
  induction slots generalizing s with
  | nil => exact ⟨rfl, fun _ => not_mem_nil⟩
  | cons i slots ih =>
    unfold broadcast
    split_ifs
    · exact ⟨rfl, fun _ => not_mem_nil⟩
    · have hsend :=
        (sent_sendTo : Sent s (sendTo s src (s.endpoints i).id type seq payload len)).still
      have hrest := ih (s := (sendTo s src (s.endpoints i).id type seq payload len).2.1)
      refine ⟨hrest.waits.trans hsend.waits, fun service h => ?_⟩
      rcases mem_append.mp h with h | h
      · exact hsend.noTimeout service h
      · exact hrest.noTimeout service h
    · exact ih

theorem sent_internalSend : Sent s (internalSend s src dst type seq payload len) := by
  unfold internalSend
  split_ifs
  · exact ⟨ok_ne_timeout, still_broadcast _⟩
  · exact sent_sendTo

theorem Sent.withResult {r : Except IpcErr Unit × State × List Output} (h : Sent s r)
    (service : UInt8) : Still s (withResult service r) := by
  refine ⟨h.still.waits, fun service' hmem => ?_⟩
  rcases mem_append.mp hmem with hmem | hmem
  · exact h.still.noTimeout service' hmem
  · split_ifs at hmem
    · exact absurd hmem not_mem_nil
    · injection mem_singleton.mp hmem with _ he
      exact h.res he.symm

theorem Still.of_waits {s₀ : State} (h : Still s₀ r) (hwaits : s₀.waits = s.waits) : Still s r :=
  ⟨h.waits.trans hwaits, h.noTimeout⟩

theorem still_whenIdle (h : Still s r) : Still s (whenIdle s service r) := by
  unfold whenIdle
  split_ifs
  · exact h
  · exact ⟨rfl, fun _ => not_mem_nil⟩

theorem still_send : Still s (send s service dst type payload len) := by
  unfold send
  cases currentEndpoint s service with
  | none => exact still_quiet (by decide) service
  | some i =>
    have hsent : Sent (s.nextSeq i) (internalSend (s.nextSeq i) (s.endpoints i).id dst type
      (s.endpoints i).seqCounter payload len) := sent_internalSend
    exact (hsent.withResult service).of_waits rfl

theorem still_reply (request : Msg) : Still s (reply s service request payload len) := by
  unfold reply
  cases currentEndpoint s service with
  | none => exact still_quiet (by decide) service
  | some i => exact (sent_internalSend.withResult service).of_waits rfl

theorem still_notify : Still s (notify s service dst payload len) := by
  unfold notify
  dsimp only
  cases currentEndpoint _ service with
  | none => exact (sent_internalSend.withResult service).of_waits rfl
  | some i => exact (sent_internalSend.withResult service).of_waits rfl

theorem still_forwardInterrupt (irqNum : UInt32) (timestamp : UInt64) :
    Still s (forwardInterrupt s irqNum timestamp) := by
  unfold forwardInterrupt
  split_ifs
  · exact still_quiet (by decide) epKernel
  · exact still_quiet (by decide) epKernel
  · exact sent_internalSend.withResult epKernel

theorem still_registerEndpoint : Still s (registerEndpoint s endpoint service) := by
  unfold registerEndpoint
  split_ifs
  · exact still_registered _ rfl
  · cases (List.range maxEndpoints).find? _ with
    | none => exact still_registered _ rfl
    | some i =>
      refine ⟨rfl, fun service' h => ?_⟩
      rcases mem_cons.mp h with h | h
      · cases h
      · cases mem_singleton.mp h

theorem still_unregisterEndpoint : Still s (unregisterEndpoint s endpoint) := by
  unfold unregisterEndpoint
  cases findEndpoint s endpoint with
  | none => exact still_registered _ rfl
  | some i => exact still_registered _ rfl

theorem still_registerIrq (irqNum : UInt32) (endpoint : UInt8) :
    Still s (registerIrq s irqNum endpoint) := by
  unfold registerIrq
  split_ifs <;> exact still_registered _ rfl

theorem still_recvNonblock : Still s (recvNonblock s service) := by
  unfold recvNonblock
  cases currentEndpoint s service with
  | none => exact still_quiet (by decide) service
  | some i =>
    dsimp only
    cases queuePop (s.endpoints i).rxQueue with
    | none => exact still_quiet (by decide) service
    | some p =>
      refine ⟨rfl, fun service' h => ?_⟩
      rcases mem_cons.mp h with h | h
      · cases h
      · injection mem_singleton.mp h with _ he
        cases he

/-! ## waiting -/

theorem Still.part (h : Still s r) (hwait : WaitOk time since asked (s.waits service)) :
    PartOk s service time since asked r :=
  ⟨⟨_, h.waits.trans (update_eq_self service s.waits).symm, hwait⟩,
    fun service' hmem => absurd hmem (h.noTimeout service')⟩

theorem part_setWait (s' : State) (hwaits : s'.waits = s.waits) (wait : Wait)
    (hwait : WaitOk time since asked wait) {out : List Output}
    (hout : ∀ service', .result service' (.error .timeout) ∉ out) :
    PartOk s service time since asked (s'.setWait service wait, out) :=
  ⟨⟨wait, by rw [← hwaits]; rfl, hwait⟩, fun service' hmem => absurd hmem (hout service')⟩

theorem part_timeout (s' : State) (hwaits : s'.waits = s.waits) (hdue : Due since asked time) :
    PartOk s service time since asked
      (s'.setWait service .idle, [.result service (.error .timeout)]) := by
  refine ⟨⟨.idle, by rw [← hwaits]; rfl, trivial⟩, fun service' hmem => ⟨?_, hdue⟩⟩
  injection mem_singleton.mp hmem

theorem Still.start (h : Still s r) (hidle : s.waits service = .idle) (now : Nat)
    (timeoutMs : UInt32) : StartOk s service now timeoutMs r := by
  refine ⟨⟨.idle, ?_, trivial⟩, h.noTimeout⟩
  rw [h.waits, ← hidle, update_eq_self]

theorem start_recv (hidle : s.waits service = .idle) (hfits : Fits timeoutMs now) :
    StartOk s service now timeoutMs (recv s service timeoutMs (clock now)) := by
  unfold recv
  cases currentEndpoint s service with
  | none => exact (still_quiet (error_ne_timeout (by decide)) service).start hidle now timeoutMs
  | some i =>
    refine ⟨⟨.recv _, rfl, ?_⟩, fun _ => not_mem_nil⟩
    exact safe_start hfits fun hfinite => ⟨hfinite, Nat.le_refl _⟩

theorem start_call (hidle : s.waits service = .idle) (hfits : Fits timeoutMs now)
    (request : Option (List UInt8)) (requestLen : UInt16) (hasReply : Bool) (replySize : UInt16) :
    StartOk s service now timeoutMs
      (call s service dst request requestLen hasReply replySize timeoutMs (clock now)) := by
  unfold call
  cases currentEndpoint s service with
  | none => exact (still_quiet (error_ne_timeout (by decide)) service).start hidle now timeoutMs
  | some i =>
    have hsent : Sent (s.nextSeq i) (internalSend (s.nextSeq i) (s.endpoints i).id dst .request
      (s.endpoints i).seqCounter request requestLen) := sent_internalSend
    dsimp only
    generalize internalSend (s.nextSeq i) (s.endpoints i).id dst .request
      (s.endpoints i).seqCounter request requestLen = sent at hsent
    obtain ⟨res, s', out⟩ := sent
    have hwaits : s'.waits = s.waits := hsent.still.waits
    cases res with
    | error err =>
      have hstill : Still s (s', out ++ [.result service (.error err)]) := by
        refine ⟨hwaits, fun service' hmem => ?_⟩
        rcases mem_append.mp hmem with hmem | hmem
        · exact hsent.still.noTimeout service' hmem
        · injection mem_singleton.mp hmem with _ he
          exact hsent.res he.symm
      exact hstill.start hidle now timeoutMs
    | ok _ =>
      refine ⟨⟨.call _, by rw [← hwaits]; rfl, ?_⟩, hsent.still.noTimeout⟩
      exact {
        before := Nat.le_refl _
        fits := hfits
        deadline := rfl
        forever := fun he => he
        rest := fun _ => Nat.le_refl _
        inner := fun _ hw => by cases hw }

/-- a turn of the loop of `jezgro_ipc_recv` -/
theorem recvTurn_cases (s : State) (w : RecvWait) (now : UInt32) :
    (∃ msg q out, queuePop (s.endpoints w.slot).rxQueue = some (msg, q) ∧
      recvTurn s w now = (.got msg, s.popped w.slot q, out) ∧
      ∀ service res, .result service res ∉ out) ∨
    (w.timeoutMs ≠ waitForever ∧ w.deadline ≤ now ∧
      recvTurn s w now = (.timeout, s.timedOut, [])) ∨
    ∃ s', s'.waits = s.waits ∧ recvTurn s w now = (.again, s', []) := by
  unfold recvTurn
  cases hpop : queuePop (s.endpoints w.slot).rxQueue with
  | none =>
    split_ifs with hpassed
    · exact .inr (.inl ⟨hpassed.1, hpassed.2, rfl⟩)
    · refine .inr (.inr ⟨s.put w.slot { s.endpoints w.slot with waiting := true, waitDeadline := w.deadline }, rfl, rfl⟩)
  | some p =>
    refine .inl ⟨p.1, p.2, _, rfl, rfl, fun service res hmem => ?_⟩
    split_ifs at hmem
    · cases mem_singleton.mp hmem
    · exact absurd hmem not_mem_nil

theorem part_recvStep {w : RecvWait} (hwait : s.waits service = .recv w)
    (hsafe : Safe time since asked w.timeoutMs w.deadline) {later : Nat} (hnow : time ≤ now)
    (hlater : now ≤ later) :
    PartOk s service later since asked (recvStep s service w (clock now)) := by
  unfold recvStep
  rcases recvTurn_cases s w (clock now) with ⟨msg, q, out, -, hturn, hout⟩ |
    ⟨hfinite, hpassed, hturn⟩ | ⟨s', hwaits, hturn⟩
  · rw [hturn]
    refine part_setWait (s := s) (s.popped w.slot q) rfl .idle trivial fun service' hmem => ?_
    rcases mem_append.mp hmem with hmem | hmem
    · exact hout service' _ hmem
    · rcases mem_cons.mp hmem with hmem | hmem
      · cases hmem
      · cases mem_singleton.mp hmem
  · rw [hturn]
    exact part_timeout s.timedOut rfl ((hsafe hfinite now hnow hpassed).mono hlater)
  · rw [hturn]
    have hstill : Still s (s', []) := ⟨hwaits, fun _ => not_mem_nil⟩
    refine hstill.part ?_
    rw [hwait]
    exact hsafe.mono (Nat.le_trans hnow hlater)

theorem part_callAgain (s' : State) (hwaits : s'.waits = s.waits)
    (hcall : CallOk time since asked c) (hforever : asked = waitForever → clock time = 0) :
    PartOk s service time since asked (callAgain s' service c (clock time)) := by
  unfold callAgain
  split_ifs with hpassed
  · exact part_timeout s'.timedOut hwaits
      (hcall.safe hpassed.1 time (Nat.le_refl _) hpassed.2)
  · exact part_setWait s' hwaits (.call _) (hcall.again hforever) fun _ => not_mem_nil

theorem PartOk.append {out : List Output} (h : PartOk s service time since asked r) (hr : s' = r.1)
    (hout : ∀ service res, .result service res ∉ out) :
    PartOk s service time since asked (s', out ++ r.2) := by
  subst hr
  refine ⟨h.waits, fun service' hmem => ?_⟩
  rcases mem_append.mp hmem with hmem | hmem
  · exact absurd hmem (hout service' _)
  · exact h.due service' hmem

theorem part_callStep (hwait : s.waits service = .call c) (hcall : CallOk time since asked c)
    {later : Nat} (hnow : time ≤ now) (hlater : now ≤ later) (hstart : c.inner = none →
    currentEndpoint s service ≠ none → Fits c.timeoutMs now ∨ Due since asked now)
    (hforever : GoesRound s service c → asked = waitForever → clock later = 0) :
    PartOk s service later since asked (callStep s service c (clock now) (clock later)) := by
  have hlate : CallOk later since asked c := hcall.mono (Nat.le_trans hnow hlater)
  unfold callStep
  unfold GoesRound at hforever
  cases hinner : c.inner with
  | none =>
    rw [hinner] at hforever
    cases hcurrent : currentEndpoint s service with
    | none => exact part_callAgain s rfl hlate (hforever hcurrent)
    | some i =>
      refine part_setWait s rfl (.call _) ?_ fun _ => not_mem_nil
      have hnone : currentEndpoint s service ≠ none := by
        rw [hcurrent]
        exact Option.some_ne_none i
      exact ((hcall.mono hnow).start (hstart hinner hnone) i).mono hlater
  | some w =>
    rw [hinner] at hforever
    dsimp only at hforever ⊢
    rcases recvTurn_cases s w (clock now) with ⟨msg, q, out, hpop, hturn, hout⟩ |
      ⟨hfinite, hpassed, hturn⟩ | ⟨s', hwaits, hturn⟩
    · rw [hturn]
      dsimp only
      split_ifs with hreply
      · refine part_setWait (s := s) (s.popped w.slot q) rfl .idle trivial fun service' hmem => ?_
        rcases mem_append.mp hmem with hmem | hmem
        · exact hout service' _ hmem
        · rcases mem_cons.mp hmem with hmem | hmem
          · cases hmem
          · rcases mem_cons.mp hmem with hmem | hmem
            · cases hmem
            · cases mem_singleton.mp hmem
      · have hagain : PartOk s service _ _ _ _ := part_callAgain (s.popped w.slot q) rfl hlate
          (hforever ⟨msg, q, hpop, Bool.eq_false_of_not_eq_true hreply⟩)
        exact hagain.append rfl hout
    · rw [hturn]
      exact part_timeout s.timedOut rfl (((hcall.inner w hinner) hfinite now hnow hpassed).mono hlater)
    · rw [hturn]
      have hstill : Still s (s', []) := ⟨hwaits, fun _ => not_mem_nil⟩
      refine hstill.part ?_
      rw [hwait]
      exact hlate

/-! ## steps -/

def Inv (s : Timed) : Prop :=
  ∀ service, WaitOk s.time (s.since service) (s.asked service) (s.ipc.waits service)

variable {s : Timed} {e : Event}

theorem inv_update (h : Inv s) {service : UInt8} {since : Nat} {asked : UInt32} {wait : Wait}
    (hwaits : s'.waits = update s.ipc.waits service wait) (hwait : WaitOk time since asked wait)
    (hle : s.time ≤ time) :
    Inv ⟨s', time, update s.since service since,
      update s.asked service asked⟩ := by
  intro service'
  dsimp only
  rw [hwaits]
  by_cases hs : service' = service
  · subst hs
    rw [update_self, update_self, update_self]
    exact hwait
  · rw [update_of_ne hs, update_of_ne hs, update_of_ne hs]
    exact (h service').mono hle

def Timed.after (s : Timed) (time : Nat) (r : State × List Output) : Timed × List Output :=
  (⟨r.1, time, s.since, s.asked⟩, r.2)

def StepOk (s : Timed) (time : Nat) (r : Timed × List Output) : Prop :=
  Inv r.1 ∧ ∀ service, .result service (.error .timeout) ∈ r.2 →
    Due (s.since service) (s.asked service) time

theorem stepOk_still (h : Inv s) {r : State × List Output} (hstill : Still s.ipc r)
    (hle : s.time ≤ time) : StepOk s time (s.after time r) := by
  refine ⟨fun service => ?_, fun service hmem => absurd hmem (hstill.noTimeout service)⟩
  have hwait := (h service).mono hle
  rwa [← hstill.waits] at hwait

theorem stepOk_part (h : Inv s) {service : UInt8} {r : State × List Output}
    (hpart : PartOk s.ipc service time (s.since service) (s.asked service) r) (hle : s.time ≤ time) :
    StepOk s time (s.after time r) := by
  obtain ⟨wait, hwaits, hwait⟩ := hpart.waits
  constructor
  · have hinv := inv_update h hwaits hwait hle
    rwa [update_eq_self, update_eq_self] at hinv
  · intro service' hmem
    obtain ⟨rfl, hdue⟩ := hpart.due service' hmem
    exact hdue

def Timed.started (s : Timed) (service : UInt8) (now : Nat) (timeoutMs : UInt32) (time : Nat)
    (r : State × List Output) : Timed × List Output :=
  if s.ipc.waits service = .idle then
    (⟨r.1, time, update s.since service now,
      update s.asked service timeoutMs⟩, r.2)
  else (⟨r.1, time, s.since, s.asked⟩, r.2)

theorem stepOk_start (h : Inv s) {service : UInt8} {r : State × List Output} {now : Nat}
    {timeoutMs : UInt32}
    (hidle : s.ipc.waits service = .idle → StartOk s.ipc service now timeoutMs r)
    (hnow : s.time ≤ now) (hle : now ≤ time) :
    StepOk s time (s.started service now timeoutMs time
      (if s.ipc.stuck = true then (s.ipc, []) else whenIdle s.ipc service r)) := by
  unfold Timed.started
  have hkeep : Still s.ipc (s.ipc, []) := ⟨rfl, fun _ => not_mem_nil⟩
  by_cases hwait : s.ipc.waits service = .idle
  · rw [if_pos hwait]
    have hr : StartOk s.ipc service now timeoutMs
        (if s.ipc.stuck = true then (s.ipc, []) else whenIdle s.ipc service r) := by
      split_ifs
      · exact hkeep.start hwait now timeoutMs
      · unfold whenIdle
        rw [if_pos hwait]
        exact hidle hwait
    obtain ⟨wait, hwaits, hok⟩ := hr.waits
    refine ⟨inv_update h hwaits (hok.mono hle) (Nat.le_trans hnow hle), fun service' hmem => ?_⟩
    exact absurd hmem (hr.noTimeout service')
  · rw [if_neg hwait]
    refine stepOk_still h ?_ (Nat.le_trans hnow hle)
    split_ifs
    · exact hkeep
    · unfold whenIdle
      rw [if_neg hwait]
      exact hkeep

/-- **Step.** A step that meets the condition is honest. -/
theorem inv_step (h : Inv s) (htime : InTime s e) :
    StepOk s (s.time + e.wait + e.pause) (timedStep s e) := by
  obtain ⟨wait, op, pause⟩ := e
  have hnow : s.time ≤ s.time + wait := Nat.le_add_right _ _
  have hlater : s.time + wait ≤ s.time + wait + pause := Nat.le_add_right _ _
  have hle := Nat.le_trans hnow hlater
  have hkeep : Still s.ipc (s.ipc, []) := ⟨rfl, fun _ => not_mem_nil⟩
  have hstill : ∀ {r : State × List Output}, Still s.ipc r → StepOk s (s.time + wait + pause)
      (s.after (s.time + wait + pause) (if s.ipc.stuck = true then (s.ipc, []) else r)) :=
    fun {r} hr => stepOk_still h (by split_ifs; exacts [hkeep, hr]) hle
  cases op with
  | registerEndpoint endpoint service => exact hstill (still_registerEndpoint endpoint)
  | unregisterEndpoint endpoint => exact hstill (still_unregisterEndpoint endpoint)
  | registerIrq irqNum endpoint => exact hstill (still_registerIrq irqNum endpoint)
  | setNotifyCallback installed => exact hstill ⟨rfl, fun _ => not_mem_nil⟩
  | send service dst type payload len => exact hstill (still_whenIdle still_send)
  | reply service request payload len => exact hstill (still_whenIdle (still_reply request))
  | notify service dst payload len => exact hstill (still_whenIdle still_notify)
  | forwardInterrupt irqNum timestamp => exact hstill (still_forwardInterrupt irqNum timestamp)
  | recvNonblock service => exact hstill (still_whenIdle still_recvNonblock)
  | recv service timeoutMs now =>
    exact stepOk_start h (fun hidle => start_recv hidle htime) hnow hlater
  | call service dst request requestLen hasReply replySize timeoutMs now =>
    exact stepOk_start h (fun hidle => start_call hidle htime request requestLen hasReply replySize)
      hnow hlater
  | turn service now later =>
    have hwait := h service
    have hturn : ∀ {r : State × List Output},
        PartOk s.ipc service (s.time + wait + pause) (s.since service) (s.asked service) r →
        StepOk s (s.time + wait + pause)
          (s.after (s.time + wait + pause) (if s.ipc.stuck = true then (s.ipc, []) else r)) := by
      intro r hr
      split_ifs
      · exact stepOk_still h hkeep hle
      · exact stepOk_part h hr hle
    have hstep : timedStep s ⟨wait, .turn service now later, pause⟩ =
        s.after (s.time + wait + pause) (if s.ipc.stuck = true then (s.ipc, []) else
          match s.ipc.waits service with
          | .idle => (s.ipc, [])
          | .recv w => recvStep s.ipc service w (clock (s.time + wait))
          | .call c => callStep s.ipc service c (clock (s.time + wait))
              (clock (s.time + wait + pause))) := rfl
    rw [hstep]
    cases hcase : s.ipc.waits service with
    | idle => exact hstill hkeep
    | recv w =>
      rw [hcase] at hwait
      exact hturn (part_recvStep hcase hwait hnow hlater)
    | call c =>
      rw [hcase] at hwait
      obtain ⟨hstart, hforever⟩ := htime c hcase
      exact hturn (part_callStep hcase hwait hnow hlater hstart hforever)

/-- **Main.** A run whose steps meet the condition is honest: a timeout comes only when the time
that was asked for has passed, and never for a wait without an end. -/
theorem honest_of_inTime (time : Nat) (es : List Event)
    (htime : EveryStep (fun es e => InTime ((timed time).run es) e) es) :
    EveryStep (fun es e => Honest ((timed time).run es) e) es := by
  have hinv : ∀ es, EveryStep (fun es e => InTime ((timed time).run es) e) es →
      Inv ((timed time).run es) := by
    refine Runs.history_induction ?_ fun es e h he => ?_
    · exact fun service => trivial
    · rw [Machine.run_concat]
      exact (inv_step h he).1
  intro pre e hpre
  exact (inv_step (hinv pre (htime.initial ((prefix_append _ _).trans hpre)))
    (htime pre e hpre)).2

/-- a service waits for two milliseconds, without a message -/
theorem honest_two : EveryStep (fun es e => Honest ((timed 5).run es) e)
    [⟨0, .recv 0 2 0, 0⟩, ⟨1, .turn 0 0 0, 0⟩, ⟨1, .turn 0 0 0, 0⟩] := by
  refine honest_of_inTime 5 _ ?_
  have hfirst : ((timed 5).run [⟨0, .recv 0 2 0, 0⟩]).ipc.waits 0 = .recv ⟨0, 2, 7⟩ := by decide
  have hsecond : ((timed 5).run [⟨0, .recv 0 2 0, 0⟩, ⟨1, .turn 0 0 0, 0⟩]).ipc.waits 0 =
      .recv ⟨0, 2, 7⟩ := by decide
  rw [Runs.everyStep_cons, Runs.everyStep_cons, Runs.everyStep_cons]
  refine ⟨.inr (by decide), fun c hc => ?_, fun c hc => ?_, Runs.everyStep_nil _⟩
  · cases hfirst.symm.trans hc
  · cases hsecond.symm.trans hc

def wrapping : List Event := [⟨0, .recv 0 2 0, 0⟩]

def endless : List Event :=
  [⟨0, .registerEndpoint 5 1, 0⟩, ⟨0, .call 0 5 none 0 true 56 waitForever 0, 0⟩,
    ⟨0, .send 1 0 .notify none 0, 0⟩, ⟨0, .turn 0 0 0, 0⟩, ⟨10, .turn 0 0 0, 0⟩,
    ⟨1, .turn 0 0 0, 0⟩]

/-- both get a timeout at once -/
theorem not_honest :
    ¬Honest ((timed 0xFFFFFFFF).run wrapping) ⟨0, .turn 0 0 0, 0⟩ ∧
      ¬Honest ((timed 0).run endless) ⟨0, .turn 0 0 0, 0⟩ := by
  constructor
  · intro h
    have hdue := h 0 (by decide)
    exact absurd hdue.2 (by decide)
  · intro h
    have hdue := h 0 (by decide)
    exact absurd hdue.1 (by decide)

end Ipc
end Jezgro
end EkKor
