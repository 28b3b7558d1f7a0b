import EkKor.Jezgro.Ipc
import Mathlib.Data.List.Nodup

/-!
# Broadcasts (`internal_send`)

A broadcast calls `internal_send` for every endpoint, and an endpoint may have been registered under
the identifier of the broadcast.

* `nestedSend`        the function, with a bound on the depth of its calls;
* `names`             the identifiers of the slots: only the registration changes them;
* `Distinct`          active slots have different identifiers, in every run;
* `Completes`             the function returns, and no endpoint gets a broadcast twice;
* `Endless`           a broadcast of another sender meets an endpoint of its own identifier;
* `completes_iff`         the function returns exactly if it does not.
-/

namespace EkKor
namespace Jezgro
namespace Ipc
open Runs (Machine)
open List Function

/-! ## the calls -/

abbrev Returns : Type := Option (Except IpcErr Unit × State × List Output)

def receives (s : State) (src : UInt8) (i : Nat) : Bool :=
  (s.endpoints i).active && (s.endpoints i).id != src

def sendEach (call : State → UInt8 → Returns) (src : UInt8) :
    State → List Nat → Option (State × List Output)
  | s, [] => some (s, [])
  | s, i :: rest =>
    if receives s src i then
      (call s (s.endpoints i).id).bind fun r =>
        (sendEach call src r.2.1 rest).map fun r' => (r'.1, r.2.2 ++ r'.2)
    else sendEach call src s rest

/-- `internal_send`, with at most `depth` calls inside each other -/
def nestedSend (src : UInt8) (type : MsgType) (seq : UInt16) (payload : Option (List UInt8))
    (len : UInt16) : Nat → State → UInt8 → Returns
  | 0, _, _ => none
  | depth + 1, s, dst =>
    if dst = epBroadcast then
      (sendEach (nestedSend src type seq payload len depth) src s (List.range maxEndpoints)).map
        fun r => (.ok (), r.1, r.2)
    else some (sendTo s src dst type seq payload len)

/-! ## identifiers -/

def names (s : State) (i : Nat) : Bool × UInt8 := ((s.endpoints i).active, (s.endpoints i).id)

variable {s s' : State} {src dst : UInt8} {type : MsgType} {seq : UInt16}
  {payload : Option (List UInt8)} {len : UInt16} {i : Nat} {l : List Nat}

theorem names_put (s : State) (i : Nat) (ep : EndpointState) :
    names (s.put i ep) = update (names s) i (ep.active, ep.id) := by
  funext j
  unfold names State.put
  dsimp only
  by_cases hj : j = i
  · subst hj
    rw [update_self, update_self]
  · rw [update_of_ne hj, update_of_ne hj]

theorem names_put_self {ep : EndpointState} (h : (ep.active, ep.id) = names s i) :
    names (s.put i ep) = names s := by
  rw [names_put, h, update_eq_self]

theorem names_sendTo (s : State) (src dst : UInt8) (type : MsgType) (seq : UInt16)
    (payload : Option (List UInt8)) (len : UInt16) :
    names (sendTo s src dst type seq payload len).2.1 = names s := by
  unfold sendTo
  cases findEndpoint s dst with
  | none => rfl
  | some i =>
    dsimp only
    split_ifs
    · rfl
    · exact names_put_self rfl

theorem names_broadcast (s : State) (l : List Nat) :
    names (broadcast src type seq payload len s l).1 = names s := by
  induction l generalizing s with
  | nil => rfl
  | cons i rest ih =>
    unfold broadcast
    split_ifs
    · rfl
    · exact (ih _).trans (names_sendTo ..)
    · exact ih s

theorem names_internalSend (s : State) (src dst : UInt8) (type : MsgType) (seq : UInt16)
    (payload : Option (List UInt8)) (len : UInt16) :
    names (internalSend s src dst type seq payload len).2.1 = names s := by
  unfold internalSend
  split_ifs
  · exact names_broadcast s _
  · exact names_sendTo ..

theorem names_nextSeq (s : State) (i : Nat) : names (s.nextSeq i) = names s := names_put_self rfl

theorem names_popped (s : State) (i : Nat) (q : Queue) : names (s.popped i q) = names s :=
  names_put_self (s := s) rfl

theorem names_send (s : State) (service dst : UInt8) (type : MsgType)
    (payload : Option (List UInt8)) (len : UInt16) :
    names (send s service dst type payload len).1 = names s := by
  unfold send
  cases currentEndpoint s service with
  | none => rfl
  | some i => exact (names_internalSend ..).trans (names_nextSeq s i)

theorem names_reply (s : State) (service : UInt8) (request : Msg)
    (payload : Option (List UInt8)) (len : UInt16) :
    names (reply s service request payload len).1 = names s := by
  unfold reply
  cases currentEndpoint s service with
  | none => rfl
  | some i => exact names_internalSend ..

theorem names_notify (s : State) (service dst : UInt8) (payload : Option (List UInt8))
    (len : UInt16) : names (notify s service dst payload len).1 = names s := by
  unfold notify
  dsimp only
  cases currentEndpoint _ service with
  | none => exact names_internalSend ..
  | some i => exact (names_internalSend ..).trans (names_nextSeq _ i)

theorem names_forwardInterrupt (s : State) (irqNum : UInt32) (timestamp : UInt64) :
    names (forwardInterrupt s irqNum timestamp).1 = names s := by
  unfold forwardInterrupt
  split_ifs
  · rfl
  · rfl
  · exact names_internalSend ..

theorem names_call (s : State) (service dst : UInt8) (request : Option (List UInt8))
    (requestLen : UInt16) (hasReply : Bool) (replySize : UInt16) (timeoutMs now : UInt32) :
    names (call s service dst request requestLen hasReply replySize timeoutMs now).1 = names s := by
  unfold call
  cases currentEndpoint s service with
  | none => rfl
  | some i =>
    have hsend := (names_internalSend (s.nextSeq i) (s.endpoints i).id dst .request
      (s.endpoints i).seqCounter request requestLen).trans (names_nextSeq s i)
    dsimp only
    generalize internalSend (s.nextSeq i) (s.endpoints i).id dst .request
      (s.endpoints i).seqCounter request requestLen = r at hsend
    obtain ⟨res, s', out⟩ := r
    cases res with
    | error err => exact hsend
    | ok u => exact hsend

theorem names_recv (s : State) (service : UInt8) (timeoutMs now : UInt32) :
    names (recv s service timeoutMs now).1 = names s := by
  unfold recv
  cases currentEndpoint s service with
  | none => rfl
  | some i => rfl

theorem names_recvNonblock (s : State) (service : UInt8) :
    names (recvNonblock s service).1 = names s := by
  unfold recvNonblock
  cases currentEndpoint s service with
  | none => rfl
  | some i =>
    dsimp only
    cases queuePop (s.endpoints i).rxQueue with
    | none => rfl
    | some r => exact names_popped s i r.2

theorem names_recvTurn (s : State) (w : RecvWait) (now : UInt32) :
    names (recvTurn s w now).2.1 = names s := by
  unfold recvTurn
  cases queuePop (s.endpoints w.slot).rxQueue with
  | some r => exact names_popped s w.slot r.2
  | none =>
    split_ifs
    · rfl
    · exact names_put_self rfl

theorem names_recvStep (s : State) (service : UInt8) (w : RecvWait) (now : UInt32) :
    names (recvStep s service w now).1 = names s := by
  have hturn := names_recvTurn s w now
  unfold recvStep
  generalize recvTurn s w now = r at hturn
  obtain ⟨turn, s', out⟩ := r
  cases turn with
  | got msg => exact hturn
  | timeout => exact hturn
  | again => exact hturn

theorem names_callAgain (s : State) (service : UInt8) (c : CallWait) (now : UInt32) :
    names (callAgain s service c now).1 = names s := by
  unfold callAgain
  split_ifs <;> rfl

theorem names_callStep (s : State) (service : UInt8) (c : CallWait) (now later : UInt32) :
    names (callStep s service c now later).1 = names s := by
  unfold callStep
  cases c.inner with
  | none =>
    cases currentEndpoint s service with
    | none => exact names_callAgain ..
    | some i => rfl
  | some w =>
    have hturn := names_recvTurn s w now
    dsimp only
    generalize recvTurn s w now = r at hturn
    obtain ⟨turn, s', out⟩ := r
    cases turn with
    | got msg =>
      dsimp only
      split_ifs
      · exact hturn
      · exact (names_callAgain ..).trans hturn
    | timeout => exact hturn
    | again => exact hturn

def Distinct (s : State) : Prop :=
  ∀ i < maxEndpoints, ∀ j < maxEndpoints, (s.endpoints i).active = true →
    (s.endpoints j).active = true → (s.endpoints i).id = (s.endpoints j).id → i = j

theorem Distinct.congr (h : Distinct s) (hnames : names s' = names s) : Distinct s' := by
  have hactive (i : Nat) : (s'.endpoints i).active = (s.endpoints i).active :=
    congrArg Prod.fst (congrFun hnames i)
  have hid (i : Nat) : (s'.endpoints i).id = (s.endpoints i).id :=
    congrArg Prod.snd (congrFun hnames i)
  intro i hi j hj
  rw [hactive, hactive, hid, hid]
  exact h i hi j hj

theorem id_ne_of_findEndpoint {endpoint : UInt8} (h : findEndpoint s endpoint = none)
    (hi : i < maxEndpoints) (hactive : (s.endpoints i).active = true) :
    (s.endpoints i).id ≠ endpoint := by
  intro hid
  have hnone := find?_eq_none.mp h i (mem_range.mpr hi)
  rw [hactive, hid, beq_self_eq_true] at hnone
  exact hnone rfl

theorem Distinct.register (h : Distinct s) (endpoint service : UInt8) :
    Distinct (registerEndpoint s endpoint service).1 := by
  unfold registerEndpoint
  cases hfound : findEndpoint s endpoint with
  | some i =>
    exact h
  | none =>
    rw [if_neg (by decide)]
    cases (List.range maxEndpoints).find? fun i => !(s.endpoints i).active with
    | none => exact h
    | some k =>
      intro i hi j hj
      unfold State.put
      dsimp only
      by_cases hik : i = k
      · by_cases hjk : j = k
        · exact fun _ _ _ => hik.trans hjk.symm
        · rw [hik, update_self, update_of_ne hjk]
          exact fun _ hactive hid => absurd hid.symm (id_ne_of_findEndpoint hfound hj hactive)
      · by_cases hjk : j = k
        · rw [hjk, update_self, update_of_ne hik]
          exact fun hactive _ hid => absurd hid (id_ne_of_findEndpoint hfound hi hactive)
        · rw [update_of_ne hik, update_of_ne hjk]
          exact h i hi j hj

theorem Distinct.unregister (h : Distinct s) (endpoint : UInt8) :
    Distinct (unregisterEndpoint s endpoint).1 := by
  unfold unregisterEndpoint
  cases findEndpoint s endpoint with
  | none => exact h
  | some k =>
    have hactive (i : Nat) (hi : ((s.put k { s.endpoints k with active := false }).endpoints
        i).active = true) :
        i ≠ k ∧ (s.put k { s.endpoints k with active := false }).endpoints i =
          s.endpoints i := by
      unfold State.put at hi ⊢
      dsimp only at hi ⊢
      by_cases hik : i = k
      · rw [hik, update_self] at hi
        exact absurd hi Bool.false_ne_true
      · exact ⟨hik, update_of_ne hik ..⟩
    intro i hi j hj hia hja
    obtain ⟨-, hisame⟩ := hactive i hia
    obtain ⟨-, hjsame⟩ := hactive j hja
    rw [hisame] at hia ⊢
    rw [hjsame] at hja ⊢
    exact h i hi j hj hia hja

theorem Distinct.step (h : Distinct s) (op : Op) : Distinct (step s op).1 := by
  have hidle {service : UInt8} {r : State × List Output} (hr : names r.1 = names s) :
      Distinct (whenIdle s service r).1 := by
    unfold whenIdle
    split_ifs
    · exact h.congr hr
    · exact h
  unfold Ipc.step
  split_ifs
  · exact h
  · cases op with
    | registerEndpoint endpoint service => exact h.register endpoint service
    | unregisterEndpoint endpoint => exact h.unregister endpoint
    | registerIrq irqNum endpoint =>
      dsimp only
      unfold registerIrq
      split_ifs <;> exact h
    | setNotifyCallback installed => exact h
    | send service dst type payload len => exact hidle (names_send ..)
    | reply service request payload len => exact hidle (names_reply ..)
    | notify service dst payload len => exact hidle (names_notify ..)
    | forwardInterrupt irqNum timestamp => exact h.congr (names_forwardInterrupt ..)
    | recvNonblock service => exact hidle (names_recvNonblock ..)
    | recv service timeoutMs now => exact hidle (names_recv ..)
    | call service dst request requestLen hasReply replySize timeoutMs now =>
      exact hidle (names_call ..)
    | turn service now later =>
      dsimp only
      cases s.waits service with
      | idle => exact h
      | recv w => exact h.congr (names_recvStep ..)
      | call c => exact h.congr (names_callStep ..)

theorem distinct_run (ops : List Op) : Distinct (ipc.run ops) := by
  refine ipc.invariant (I := Distinct) ?_ (fun s op h => h.step op) ops
  refine Distinct.register (fun i _ j _ hactive => ?_) epKernel 0
  exact absurd hactive Bool.false_ne_true

/-! ## a broadcast -/

def enqueues (i : Nat) (out : List Output) : Nat :=
  out.countP fun o => match o with
    | .pushed j _ => j == i
    | _ => false

/-- the function returns, and a broadcast has entered no queue twice and only the ones of active
endpoints that are not the sender -/
def Completes (s : State) (src dst : UInt8) (type : MsgType) (seq : UInt16)
    (payload : Option (List UInt8)) (len : UInt16) : Prop :=
  ∃ depth r, nestedSend src type seq payload len depth s dst = some r ∧
    (dst = epBroadcast → ∀ i,
      enqueues i r.2.2 ≤ if i < maxEndpoints ∧ receives s src i = true then 1 else 0)

def Endless (s : State) (src dst : UInt8) : Prop :=
  dst = epBroadcast ∧ ∃ i < maxEndpoints, receives s src i = true ∧
    (s.endpoints i).id = epBroadcast

theorem receives_congr (hnames : names s' = names s) (src : UInt8) :
    receives s' src = receives s src := by
  funext i
  exact congrArg (fun name : Bool × UInt8 => name.1 && name.2 != src) (congrFun hnames i)

theorem id_congr (hnames : names s' = names s) (i : Nat) :
    (s'.endpoints i).id = (s.endpoints i).id := congrArg Prod.snd (congrFun hnames i)

theorem broadcast_skip (h : ¬receives s src i = true) :
    broadcast src type seq payload len s (i :: l) = broadcast src type seq payload len s l :=
  if_neg h

theorem broadcast_self (h : receives s src i = true) (hid : (s.endpoints i).id = epBroadcast) :
    broadcast src type seq payload len s (i :: l) = ({ s with stuck := true }, []) :=
  (if_pos h).trans (if_pos hid)

theorem broadcast_send (h : receives s src i = true) (hid : (s.endpoints i).id ≠ epBroadcast) :
    broadcast src type seq payload len s (i :: l) =
      let r := (sendTo s src (s.endpoints i).id type seq payload len).2
      let r' := broadcast src type seq payload len r.1 l
      (r'.1, r.2 ++ r'.2) := (if_pos h).trans (if_neg hid)

theorem sendEach_eq (depth : Nat)
    (h : ∀ i ∈ l, receives s src i = true → (s.endpoints i).id ≠ epBroadcast) :
    sendEach (nestedSend src type seq payload len (depth + 1)) src s l =
      some (broadcast src type seq payload len s l) := by
  induction l generalizing s with
  | nil => rfl
  | cons i rest ih =>
    unfold sendEach
    by_cases hreceives : receives s src i = true
    · have hid := h i mem_cons_self hreceives
      have hnames := names_sendTo s src (s.endpoints i).id type seq payload len
      have hrest := ih (s := (sendTo s src (s.endpoints i).id type seq payload len).2.1)
        fun j hj => by
          rw [receives_congr hnames, id_congr hnames]
          exact h j (mem_cons_of_mem _ hj)
      have hcall : nestedSend src type seq payload len (depth + 1) s (s.endpoints i).id =
          some (sendTo s src (s.endpoints i).id type seq payload len) := if_neg hid
      rw [if_pos hreceives, broadcast_send hreceives hid, hcall, Option.bind_some, hrest]
      rfl
    · rw [if_neg hreceives, broadcast_skip hreceives]
      exact ih fun j hj => h j (mem_cons_of_mem _ hj)

/-- where the function returns, it does so without a deeper call, as `internalSend` -/
theorem nestedSend_eq (h : ¬Endless s src dst) :
    nestedSend src type seq payload len 2 s dst =
      some (internalSend s src dst type seq payload len) := by
  unfold nestedSend internalSend
  by_cases hdst : dst = epBroadcast
  · rw [if_pos hdst, if_pos hdst, sendEach_eq 0 fun i hi hreceives hid =>
      h ⟨hdst, i, mem_range.mp hi, hreceives, hid⟩]
    rfl
  · rw [if_neg hdst, if_neg hdst]

theorem sendEach_none (depth : Nat)
    (hcall : ∀ s', names s' = names s →
      nestedSend src type seq payload len depth s' epBroadcast = none)
    (h : ∃ i ∈ l, receives s src i = true ∧ (s.endpoints i).id = epBroadcast) :
    sendEach (nestedSend src type seq payload len depth) src s l = none := by
  induction l generalizing s with
  | nil =>
    obtain ⟨i, hi, -⟩ := h
    exact absurd hi not_mem_nil
  | cons i rest ih =>
    obtain ⟨j, hj, hreceives, hid⟩ := h
    unfold sendEach
    by_cases hi : receives s src i = true
    · rw [if_pos hi]
      by_cases hidi : (s.endpoints i).id = epBroadcast
      · rw [hidi, hcall s rfl, Option.bind_none]
      · have hrest : j ∈ rest := (mem_cons.mp hj).resolve_left fun he => hidi (he ▸ hid)
        cases depth with
        | zero => rfl
        | succ depth =>
          have hnames := names_sendTo s src (s.endpoints i).id type seq payload len
          have hsend : nestedSend src type seq payload len (depth + 1) s (s.endpoints i).id =
              some (sendTo s src (s.endpoints i).id type seq payload len) := if_neg hidi
          rw [hsend, Option.bind_some, ih (fun s' hs' => hcall s' (hs'.trans hnames))
            ⟨j, hrest, by rw [receives_congr hnames]; exact hreceives,
              (id_congr hnames j).trans hid⟩, Option.map_none]
    · rw [if_neg hi]
      exact ih hcall ⟨j, (mem_cons.mp hj).resolve_left fun he => hi (he ▸ hreceives),
        hreceives, hid⟩

theorem nestedSend_none (depth : Nat) (h : Endless s src dst) :
    nestedSend src type seq payload len depth s dst = none := by
  obtain ⟨rfl, i, hi, hreceives, hid⟩ := h
  induction depth generalizing s with
  | zero => rfl
  | succ depth ih =>
    unfold nestedSend
    rw [if_pos rfl, sendEach_none depth (fun s' hnames => ?_)
      ⟨i, mem_range.mpr hi, hreceives, hid⟩, Option.map_none]
    refine ih ?_ ((id_congr hnames i).trans hid)
    rw [receives_congr hnames]
    exact hreceives

/-! ## what is enqueued -/

theorem Distinct.find (h : Distinct s) (hi : i < maxEndpoints)
    (hactive : (s.endpoints i).active = true) : findEndpoint s (s.endpoints i).id = some i := by
  cases hfound : findEndpoint s (s.endpoints i).id with
  | none => exact absurd rfl (id_ne_of_findEndpoint hfound hi hactive)
  | some j =>
    have hmatch := find?_some hfound
    rw [Bool.and_eq_true, beq_iff_eq] at hmatch
    have hj := mem_range.mp (mem_of_find?_eq_some hfound)
    rw [h j hj i hi hmatch.1 hactive hmatch.2]

theorem enqueues_append (i : Nat) (out out' : List Output) :
    enqueues i (out ++ out') = enqueues i out + enqueues i out' := countP_append

theorem enqueues_sendTo (h : Distinct s) (hi : i < maxEndpoints)
    (hactive : (s.endpoints i).active = true) (j : Nat) :
    enqueues j (sendTo s src (s.endpoints i).id type seq payload len).2.2 ≤
      if j = i then 1 else 0 := by
  unfold sendTo
  rw [h.find hi hactive]
  dsimp only
  split_ifs with hfull hj hj
  · exact Nat.zero_le _
  · exact Nat.zero_le _
  · exact countP_le_length
  · refine Nat.le_of_eq (countP_eq_zero.mpr fun o ho => ?_)
    rw [mem_singleton.mp ho]
    exact fun heq => hj (beq_iff_eq.mp heq).symm

theorem enqueues_broadcast (h : Distinct s) (hnodup : l.Nodup) (hl : ∀ i ∈ l, i < maxEndpoints)
    (j : Nat) :
    enqueues j (broadcast src type seq payload len s l).2 ≤
      if j ∈ l ∧ receives s src j = true then 1 else 0 := by
  induction l generalizing s with
  | nil => exact Nat.zero_le _
  | cons i rest ih =>
    obtain ⟨hnew, hrest⟩ := nodup_cons.mp hnodup
    have hl' (k : Nat) (hk : k ∈ rest) : k < maxEndpoints := hl k (mem_cons_of_mem _ hk)
    by_cases hreceives : receives s src i = true
    · by_cases hid : (s.endpoints i).id = epBroadcast
      · rw [broadcast_self hreceives hid]
        exact Nat.zero_le _
      · have hnames := names_sendTo s src (s.endpoints i).id type seq payload len
        have hactive : (s.endpoints i).active = true := (Bool.and_eq_true_iff.mp hreceives).1
        have hfirst : enqueues j (sendTo s src (s.endpoints i).id type seq payload len).2.2 ≤
            if j = i then 1 else 0 :=
          enqueues_sendTo h (hl i mem_cons_self) hactive j
        have hothers := ih (h.congr hnames) hrest hl'
        rw [receives_congr hnames] at hothers
        rw [broadcast_send hreceives hid]
        rw [enqueues_append]
        -- the slot of this message is not among the later ones
        by_cases hj : j = i
        · subst hj
          rw [if_neg fun hmem => hnew hmem.1] at hothers
          rw [if_pos rfl] at hfirst
          rw [if_pos ⟨mem_cons_self, hreceives⟩]
          exact Nat.add_le_add hfirst hothers
        · rw [if_neg hj] at hfirst
          simp only [mem_cons, or_iff_right hj]
          exact Nat.le_trans (Nat.add_le_add hfirst hothers) (Nat.le_of_eq (Nat.zero_add _))
    · have hj : j ∈ i :: rest ∧ receives s src j = true ↔ j ∈ rest ∧ receives s src j = true := by
        refine and_congr_left fun hj => ?_
        rw [mem_cons, or_iff_right fun he : j = i => hreceives (he ▸ hj)]
      rw [broadcast_skip hreceives]
      simp only [hj]
      exact ih h hrest hl'

theorem not_completes_of_endless (h : Endless s src dst) : ¬Completes s src dst type seq payload len := by
  rintro ⟨depth, r, hreturns, -⟩
  rw [nestedSend_none depth h] at hreturns
  exact absurd hreturns.symm (Option.some_ne_none r)

/-- **A send.**  It returns, and a broadcast comes to each receiver at most once, exactly unless it
is a broadcast of another sender that meets an endpoint of its own identifier -/
theorem completes_iff (ops : List Op) (src dst : UInt8) (type : MsgType) (seq : UInt16)
    (payload : Option (List UInt8)) (len : UInt16) :
    Completes (ipc.run ops) src dst type seq payload len ↔ ¬Endless (ipc.run ops) src dst := by
  constructor
  · exact fun hcompletes hendless => not_completes_of_endless hendless hcompletes
  · intro hreturns
    refine ⟨2, _, nestedSend_eq hreturns, ?_⟩
    rintro rfl i
    have hcount : enqueues i (broadcast src type seq payload len (ipc.run ops)
        (List.range maxEndpoints)).2 ≤
          if i ∈ List.range maxEndpoints ∧ receives (ipc.run ops) src i = true then 1 else 0 :=
      enqueues_broadcast (distinct_run ops) nodup_range (fun i hi => mem_range.mp hi) i
    simp only [mem_range] at hcount
    exact hcount

/-- an endpoint is registered under the identifier of the broadcast, and the kernel broadcasts -/
theorem broadcast_endless :
    ¬Completes (ipc.run [.registerEndpoint epBroadcast 5]) epKernel epBroadcast .notify 0 none 0 :=
  not_completes_of_endless ⟨rfl, 1, by decide, rfl, rfl⟩

end Ipc
end Jezgro
end EkKor
