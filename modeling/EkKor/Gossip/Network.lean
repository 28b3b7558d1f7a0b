import Mathlib.Data.Finset.Insert
import EkKor.Gossip.Soundness

/-!
# Gossiping modules

The contexts of any number of modules and the network between them.

* `Net`, `NetEvent`       the modules and every packet sent so far; the calls of a module and the
                          deliveries;
* `NetGood`               the invariant of the network;
* `never_overstates`      while every merged summary is covered, a module has handed over every
                          event that its version vector counts;
* `summary_overstates`    two modules that read each other's summaries at the wrong positions.

A packet stays in `sent`, so it may be delivered late, out of order, many times or never.
-/

namespace EkKor
namespace Gossip
open Runs

/-! ## the network -/

structure Packet where
  dest : ModuleId
  msg : Msg
  deriving DecidableEq

structure Net where
  members : ModuleId → Member
  sent : List Packet

inductive NetEvent where
  /-- a module calls `ekk_gossip_add_neighbor` -/
  | addNeighbor (i : ModuleId) (id : ModuleId)
  | removeNeighbor (i : ModuleId) (id : ModuleId)
  | emit (i : ModuleId) (now : TimeUs) (eventType : UInt8) (payload : List UInt8)
  | tick (i : ModuleId) (now : TimeUs)
  /-- a packet reaches a module -/
  | deliver (p : Packet) (i : ModuleId)

def packets (out : List Out) : List Packet :=
  out.filterMap fun
    | .send dest msg => some ⟨dest, msg⟩
    | _ => none

namespace Net

def Reaches (s : Net) (p : Packet) (i : ModuleId) : Prop :=
  p ∈ s.sent ∧ (p.dest = i ∨ p.dest = broadcastId)

instance (s : Net) (p : Packet) (i : ModuleId) : Decidable (s.Reaches p i) :=
  inferInstanceAs (Decidable (_ ∧ _))

/-- the call an event stands for: only modules of `S` act, and only packets that were sent are
delivered -/
def callOf (S : Finset ModuleId) (s : Net) : NetEvent → Option (ModuleId × Call)
  | .addNeighbor i id => if i ∈ S then some (i, .addNeighbor id) else none
  | .removeNeighbor i id => if i ∈ S then some (i, .removeNeighbor id) else none
  | .emit i now eventType payload =>
    if i ∈ S then some (i, .emit now eventType payload) else none
  | .tick i now => if i ∈ S then some (i, .tick now) else none
  | .deliver p i => if i ∈ S ∧ s.Reaches p i then some (i, .handleMsg p.msg) else none

/-- the result of a call of module `i` -/
def act (s : Net) (i : ModuleId) (r : Ctx × List Out) : Net :=
  { members := Function.update s.members i ((s.members i).after r)
    sent := s.sent ++ packets r.2 }

/-- one event; a call that does not return would change nothing, but `call_returns` -/
def step (load : Load) (S : Finset ModuleId) (s : Net) (e : NetEvent) : Net × List Packet :=
  match s.callOf S e with
  | none => (s, [])
  | some (i, call) =>
    match call.run load (s.members i) with
    | none => (s, [])
    | some r => (s.act i r, packets r.2)

/-- the modules `S` with their contexts, and nothing on its way yet -/
def machine (load : Load) (S : Finset ModuleId) (nodes : ModuleId → Ctx) :
    Machine Net NetEvent Packet :=
  ⟨⟨fun i => ⟨nodes i, [], []⟩, []⟩, step load S⟩

end Net

/-- when the event delivers a gossip message, the summary in it is covered once the events in it
have been handled -/
def SummaryCovered (load : Load) (S : Finset ModuleId) (nodes : ModuleId → Ctx)
    (pre : List NetEvent) (e : NetEvent) : Prop :=
  match e with
  | .deliver ⟨dest, .gossip msg⟩ i =>
    i ∈ S → ((Net.machine load S nodes).run pre).Reaches ⟨dest, .gossip msg⟩ i →
      Covered (handleEvents (((Net.machine load S nodes).run pre).members i).ctx
        msg.sourceModule msg.seen).1 msg.vvSummary
  | _ => True

/-! ## the invariant of the network -/

/-- the events of modules of `S` with this mark have been handed over by their origin -/
def Net.Handed (S : Finset ModuleId) (s : Net) (o : ModuleId) (seq : UInt32) : Prop :=
  o ∈ S → Has (s.members o).handed o seq

structure NetGood (S : Finset ModuleId) (s : Net) : Prop where
  member : ∀ i ∈ S, Good (s.Handed S) i (s.members i)
  sent : ∀ p ∈ s.sent, (Out.send p.dest p.msg).Ok (s.Handed S)

variable {load : Load} {S : Finset ModuleId} {nodes : ModuleId → Ctx}

theorem netGood_start (hinit : ∀ i ∈ S, init i = .ok (nodes i)) :
    NetGood S (Net.machine load S nodes).start := by
  refine ⟨fun i hi => ?_, fun p hp => nomatch hp⟩
  have h := hinit i hi
  unfold init at h
  split_ifs at h
  have hctx := (Except.ok.inj h).symm
  show Good _ i ⟨nodes i, [], []⟩
  rw [hctx]
  refine ⟨rfl, ⟨⟨i, 0⟩, List.mem_singleton_self _, rfl⟩, fun b hb => ?_, fun o seq hpos hle => ?_,
    .inl ⟨?_, fun seq hhas => ?_⟩, fun e he => ?_, fun e he => ?_, fun e he => ?_⟩
  · cases hb
  · change seq ≤ (if i = o then 0 else 0) at hle
    rw [ite_self] at hle
    exact absurd (UInt32.lt_of_lt_of_le hpos hle) (UInt32.lt_irrefl 0)
  · show (1 : UInt32) = (if i = i then 0 else 0) + 1
    rw [ite_self]
    rfl
  · obtain ⟨e, he, _⟩ := hhas
    cases he
  · cases he
  · cases he
  · cases he

variable {s : Net} {i : ModuleId} {call : Call}

theorem callOf_inv {e : NetEvent} (h : s.callOf S e = some (i, call)) :
    i ∈ S ∧ ((∃ id, call = .addNeighbor id) ∨ (∃ id, call = .removeNeighbor id) ∨
      (∃ now eventType payload, call = .emit now eventType payload) ∨
      (∃ now, call = .tick now) ∨
      ∃ p, e = .deliver p i ∧ s.Reaches p i ∧ call = .handleMsg p.msg) := by
  cases e <;> unfold Net.callOf at h <;> dsimp only at h <;> split_ifs at h with hi
  all_goals obtain ⟨rfl, rfl⟩ := Prod.mk.inj (Option.some.inj h)
  · exact ⟨hi, .inl ⟨_, rfl⟩⟩
  · exact ⟨hi, .inr (.inl ⟨_, rfl⟩)⟩
  · exact ⟨hi, .inr (.inr (.inl ⟨_, _, _, rfl⟩))⟩
  · exact ⟨hi, .inr (.inr (.inr (.inl ⟨_, rfl⟩)))⟩
  · exact ⟨hi.1, .inr (.inr (.inr (.inr ⟨_, rfl, hi.2, rfl⟩)))⟩

theorem call_returns (h : NetGood S s) {e : NetEvent} (hcall : s.callOf S e = some (i, call)) :
    ∃ r, call.run load (s.members i) = some r := by
  obtain ⟨_, ⟨id, rfl⟩ | ⟨id, rfl⟩ | ⟨now, eventType, payload, rfl⟩ | ⟨now, rfl⟩ |
    ⟨p, _, hreach, rfl⟩⟩ := callOf_inv hcall
  · exact ⟨_, rfl⟩
  · exact ⟨_, rfl⟩
  · exact ⟨_, rfl⟩
  · exact ⟨_, rfl⟩
  · have hok := h.sent p hreach.1
    show ∃ r, handleMsg _ _ p.msg = some r
    cases hm : p.msg with
    | gossip msg => exact ⟨_, rfl⟩
    | ack => exact ⟨_, rfl⟩
    | request req =>
      rw [hm] at hok
      rw [handleMsg]
      split_ifs
      · refine answer_returns _ _ hok _ ?_
        have hlt := req.toSeq.toNat_lt
        omega
      · exact ⟨_, rfl⟩

theorem Net.act_self (s : Net) (i : ModuleId) (r : Ctx × List Out) :
    (s.act i r).members i = (s.members i).after r := Function.update_self ..

theorem Net.act_other (s : Net) {j : ModuleId} (h : j ≠ i) (r : Ctx × List Out) :
    (s.act i r).members j = s.members j := Function.update_of_ne h ..

theorem Net.handed_act {o : ModuleId} {seq : UInt32} (h : s.Handed S o seq) (i : ModuleId)
    (r : Ctx × List Out) : (s.act i r).Handed S o seq := by
  intro ho
  by_cases hoi : o = i
  · rw [hoi, Net.act_self]
    rw [hoi] at h ho
    exact has_append_left (h ho) _
  · rw [Net.act_other s hoi]
    exact h ho

theorem netGood_act (h : NetGood S s)
    (hload : ∀ stored o seq event, load stored o seq = some event → event ∈ stored) (hi : i ∈ S)
    (hcall : ∀ msg, call = .handleMsg msg → MsgGood (s.Handed S) (s.members i).ctx msg)
    {r : Ctx × List Out} (hr : call.run load (s.members i) = some r) : NetGood S (s.act i r) := by
  have hown (seq : UInt32) (hseq : Has ((s.members i).after r).handed i seq) :
      (s.act i r).Handed S i seq := by
    intro _
    rw [Net.act_self]
    exact hseq
  obtain ⟨hgood, hok⟩ := call_good (h.member i hi) (fun seq hseq => hseq hi) hload hcall hr
    (fun o seq hseq => Net.handed_act hseq i r) hown
  refine ⟨fun j hj => ?_, fun p hp => ?_⟩
  · by_cases hji : j = i
    · rw [hji, Net.act_self]
      exact hgood
    · rw [Net.act_other s hji]
      exact (h.member j hj).mono fun o seq hseq => Net.handed_act hseq i r
  · rcases List.mem_append.mp hp with hp | hp
    · have hsent := h.sent p hp
      obtain ⟨dest, msg⟩ := p
      cases msg with
      | gossip msg => exact fun e he => Net.handed_act (hsent e he) i r
      | ack => trivial
      | request req => exact hsent
    · obtain ⟨o, ho, heq⟩ := List.mem_filterMap.mp hp
      cases o with
      | send dest msg =>
        obtain rfl := Option.some.inj heq
        exact hok _ ho
      | store event => cases heq
      | onEvent event => cases heq

theorem netGood_run (hinit : ∀ i ∈ S, init i = .ok (nodes i))
    (hload : ∀ stored o seq event, load stored o seq = some event → event ∈ stored)
    (es : List NetEvent) (hes : EveryStep (SummaryCovered load S nodes) es) :
    NetGood S ((Net.machine load S nodes).run es) := by
  refine history_induction (I := fun es => NetGood S ((Net.machine load S nodes).run es))
    (netGood_start hinit) (fun pre e ih he => ?_) es hes
  rw [Machine.run_concat]
  show NetGood S (Net.step load S ((Net.machine load S nodes).run pre) e).1
  unfold SummaryCovered at he
  generalize (Net.machine load S nodes).run pre = s at ih he ⊢
  unfold Net.step
  cases hc : s.callOf S e with
  | none => exact ih
  | some x =>
    obtain ⟨i, call⟩ := x
    obtain ⟨r, hr⟩ : ∃ r, call.run load (s.members i) = some r := call_returns ih hc
    obtain ⟨hi, hcases⟩ := callOf_inv hc
    dsimp only
    rw [hr]
    refine netGood_act ih hload hi (fun msg hmsg => ?_) hr
    obtain ⟨id, rfl⟩ | ⟨id, rfl⟩ | ⟨now, eventType, payload, rfl⟩ | ⟨now, rfl⟩ |
      ⟨⟨dest, msg'⟩, rfl, hreach, rfl⟩ := hcases
    · cases hmsg
    · cases hmsg
    · cases hmsg
    · cases hmsg
    · obtain rfl := Call.handleMsg.inj hmsg
      have hsent := ih.sent _ hreach.1
      cases msg' with
      | gossip msg => exact ⟨hsent, he hi hreach⟩
      | ack => trivial
      | request req => trivial

/-- **Main.** In every run of any modules, with any neighbors, any losses, repetitions and orders
of the messages, in which each summary that is merged is covered, a module has handed over every
event that its version vector counts. -/
theorem never_overstates (hinit : ∀ i ∈ S, init i = .ok (nodes i))
    (hload : ∀ stored o seq event, load stored o seq = some event → event ∈ stored)
    (es : List NetEvent) (hes : EveryStep (SummaryCovered load S nodes) es) :
    ∀ i ∈ S, Sound (((Net.machine load S nodes).run es).members i).ctx.vv
      (((Net.machine load S nodes).run es).members i).handed :=
  fun i hi => ((netGood_run hinit hload es hes).member i hi).sound

/-- a context as `ekk_gossip_init` makes it -/
def freshNode (i : ModuleId) : Ctx :=
  { myId := i
    vv := [⟨i, 0⟩]
    localSequence := 1
    neighbors := []
    pendingEvents := []
    bufferedEvents := []
    lastGossipTick := 0
    lastSync := 0
    stats := ⟨0, 0, 0, 0, 0, 0⟩ }

def loadStored : Load := fun stored o seq =>
  stored.find? fun e => e.originId = o ∧ e.originSeq = seq

theorem loadStored_mem (stored : List EventV2) (o : ModuleId) (seq : UInt32) (event : EventV2)
    (h : loadStored stored o seq = some event) : event ∈ stored :=
  List.mem_of_find?_eq_some h

/-- the message of module `i` with the events `seqs` of its own -/
def messageOf (i : ModuleId) (summary : VvSummary) (seqs : List UInt32) : Msg :=
  .gossip
    { sourceModule := i
      eventCount := UInt8.ofNat seqs.length
      vvSummary := summary
      events := seqs.map (eventOf i) }

/-- module 2 emits three events; the second message arrives first, and the request for the missing
events is answered -/
def gapFilled : List NetEvent :=
  [.addNeighbor 1 2, .addNeighbor 2 1, .emit 2 0 0x80 [], .emit 2 0 0x80 [], .emit 2 0 0x80 [],
    .tick 2 10000, .deliver ⟨1, messageOf 2 (Vector.replicate 7 0) [3]⟩ 1,
    .deliver ⟨2, .request ⟨1, 2, 1, 2⟩⟩ 2, .deliver ⟨1, messageOf 2 (Vector.replicate 7 0) [1]⟩ 1,
    .deliver ⟨1, messageOf 2 (Vector.replicate 7 0) [2]⟩ 1]

/-- the run with the filled gap -/
theorem never_overstates_gap :
    Sound (((Net.machine loadStored {1, 2} freshNode).run gapFilled).members 1).ctx.vv
      (((Net.machine loadStored {1, 2} freshNode).run gapFilled).members 1).handed := by
  have hinit (i : ModuleId) (hi : i ∈ ({1, 2} : Finset ModuleId)) :
      init i = .ok (freshNode i) := by
    rcases Finset.mem_insert.mp hi with rfl | hi
    · rfl
    · rw [Finset.mem_singleton.mp hi]
      rfl
  refine never_overstates hinit loadStored_mem gapFilled ?_ 1 (by decide)
  refine (everyStep_cons _ _ _).mpr ⟨trivial, (everyStep_cons _ _ _).mpr ⟨trivial,
    (everyStep_cons _ _ _).mpr ⟨trivial, (everyStep_cons _ _ _).mpr ⟨trivial,
    (everyStep_cons _ _ _).mpr ⟨trivial, (everyStep_cons _ _ _).mpr ⟨trivial,
    (everyStep_cons _ _ _).mpr ⟨fun _ _ => ?_, (everyStep_cons _ _ _).mpr ⟨trivial,
    (everyStep_cons _ _ _).mpr ⟨fun _ _ => ?_, (everyStep_cons _ _ _).mpr ⟨fun _ _ => ?_,
    everyStep_nil _⟩⟩⟩⟩⟩⟩⟩⟩⟩⟩
  · decide +kernel
  · decide +kernel
  · decide +kernel

def crossed : List NetEvent :=
  [.addNeighbor 1 2, .addNeighbor 2 1, .emit 2 0 0x80 [], .emit 2 0 0x80 [], .tick 2 10000,
    .deliver ⟨1, messageOf 2 (Vector.replicate 7 0) [1, 2]⟩ 1, .emit 1 0 0x80 [], .tick 1 10000,
    .deliver ⟨2, messageOf 1 #v[2, 0, 0, 0, 0, 0, 0] [1]⟩ 2]

/-- module 2 reads the byte that counts its own events as the entry of module 1: its version vector
counts an event 1, 2 that it never got -/
theorem summary_overstates : ∃ es,
    vvGet (((Net.machine loadStored {1, 2} freshNode).run es).members 2).ctx.vv 1 = 2 ∧
      ¬ Has (((Net.machine loadStored {1, 2} freshNode).run es).members 2).handed 1 2 ∧
      ¬ Sound (((Net.machine loadStored {1, 2} freshNode).run es).members 2).ctx.vv
        (((Net.machine loadStored {1, 2} freshNode).run es).members 2).handed := by
  have hget : vvGet (((Net.machine loadStored {1, 2} freshNode).run crossed).members 2).ctx.vv 1 =
      2 := by decide +kernel
  have hhas : ¬ Has (((Net.machine loadStored {1, 2} freshNode).run crossed).members 2).handed 1 2
      := by
    unfold Has
    decide +kernel
  refine ⟨crossed, hget, hhas, fun hsound => hhas (hsound 1 2 (by decide) ?_)⟩
  rw [hget]
  exact UInt32.le_refl 2

end Gossip
end EkKor
