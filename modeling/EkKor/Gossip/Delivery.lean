import EkKor.Lib.Runs
import EkKor.Gossip.Vector

/-!
# What a context hands to the application

The events that `ekk_gossip_handle_event` passes to `ekk_gossip_on_event` depend on the version
vector and the reorder buffer only.

* `Delivery`, `Delivery.receive`   that part of a context, and what one event does to it;
* `handleEvent_delivery`           the context's event handler is `receive` on that part;
* `HandedOver`                     for each origin the events handed over are 1, 2, ..., k, and k is
                                   the entry of the version vector;
* `exactly_once_iff`               a run keeps that exactly when each first event of an origin finds
                                   room in the version vector;
* `ninth_origin`                   the ninth origin: its first event is handed over twice.
-/

namespace EkKor
namespace Gossip
open Runs
open List hiding Vector

/-! ## the delivery part of a context -/

/-- the events of an output that go to `ekk_gossip_on_event` -/
def delivered (out : List Out) : List EventV2 :=
  out.filterMap fun
    | .onEvent event => some event
    | _ => none

theorem delivered_append (out out' : List Out) :
    delivered (out ++ out') = delivered out ++ delivered out' := filterMap_append

/-- the part of a context that decides what is handed over -/
structure Delivery where
  vv : VersionVector
  buffered : List EventV2
  deriving DecidableEq

def Ctx.delivery (ctx : Ctx) : Delivery := ⟨ctx.vv, ctx.bufferedEvents⟩

def Delivery.receive (d : Delivery) (event : EventV2) : Delivery × List EventV2 :=
  let knownSeq := vvGet d.vv event.originId
  if event.originSeq ≤ knownSeq then (d, [])
  else if event.originSeq > knownSeq + 1 then
    ({ d with
        buffered := if d.buffered.length < maxBuffered then d.buffered ++ [event]
          else d.buffered }, [])
  else
    let (vv, kept, out) := drain (vvPut d.vv event.originId event.originSeq) d.buffered
    (⟨vv, kept⟩, event :: delivered out)

/-! ## sending does not deliver -/

/-- `ctx'` is `ctx` but for the number of events sent -/
def SameButSent (ctx ctx' : Ctx) : Prop :=
  ∃ sent, ctx' = { ctx with stats := { ctx.stats with eventsSent := sent } }

theorem SameButSent.refl (ctx : Ctx) : SameButSent ctx ctx := ⟨ctx.stats.eventsSent, rfl⟩

theorem SameButSent.trans {ctx₁ ctx₂ ctx₃ : Ctx} (h : SameButSent ctx₁ ctx₂)
    (h' : SameButSent ctx₂ ctx₃) : SameButSent ctx₁ ctx₃ := by
  obtain ⟨sent, rfl⟩ := h
  obtain ⟨sent', rfl⟩ := h'
  exact ⟨sent', rfl⟩

theorem sendGossipToNeighbor_spec (ctx : Ctx) (id : ModuleId) (events : List EventV2) :
    SameButSent ctx (sendGossipToNeighbor ctx id events).1 ∧
      delivered (sendGossipToNeighbor ctx id events).2 = [] := by
  unfold sendGossipToNeighbor
  split_ifs
  · exact ⟨.refl ctx, rfl⟩
  · exact ⟨⟨_, rfl⟩, rfl⟩

theorem sendAll_spec (ctx : Ctx) (sends : List (ModuleId × List EventV2)) :
    SameButSent ctx (sendAll ctx sends).1 ∧ delivered (sendAll ctx sends).2 = [] := by
  induction sends generalizing ctx with
  | nil => exact ⟨.refl ctx, rfl⟩
  | cons send rest ih =>
    obtain ⟨h1, h2⟩ := sendGossipToNeighbor_spec ctx send.1 send.2
    obtain ⟨h3, h4⟩ := ih (sendGossipToNeighbor ctx send.1 send.2).1
    refine ⟨h1.trans h3, ?_⟩
    show delivered ((sendGossipToNeighbor ctx send.1 send.2).2 ++
      (sendAll (sendGossipToNeighbor ctx send.1 send.2).1 rest).2) = []
    rw [delivered_append, h2, h4]
    rfl

theorem forward_spec (ctx : Ctx) (event : EventV2) (sender : ModuleId) :
    SameButSent ctx (forward ctx event sender).1 ∧
      delivered (forward ctx event sender).2 = [] := by
  unfold forward
  split_ifs
  · exact sendAll_spec _ _
  · exact ⟨.refl ctx, rfl⟩

/-- the context that `ekk_gossip_handle_event` forwards from -/
def accepting (ctx : Ctx) (event : EventV2) : Ctx :=
  let ctx := { ctx with
    stats := { ctx.stats with eventsReceived := ctx.stats.eventsReceived + 1 } }
  let ctx :=
    if event.hopCount ≥ maxHops then
      { ctx with stats := { ctx.stats with ttlExpired := ctx.stats.ttlExpired + 1 } }
    else ctx
  { ctx with vv := vvPut ctx.vv event.originId event.originSeq }

theorem accepting_delivery (ctx : Ctx) (event : EventV2) :
    (accepting ctx event).vv = vvPut ctx.vv event.originId event.originSeq ∧
      (accepting ctx event).bufferedEvents = ctx.bufferedEvents := by
  unfold accepting
  split_ifs <;> exact ⟨rfl, rfl⟩

variable {ctx : Ctx} {event : EventV2} {vv : VersionVector} {events : List EventV2} {d : Delivery}

theorem handleEvent_known (sender : ModuleId) (h : event.originSeq ≤ vvGet ctx.vv event.originId) :
    handleEvent ctx event sender =
      (.error .alreadyExists,
        { ctx with
          stats := { ctx.stats with
            eventsReceived := ctx.stats.eventsReceived + 1
            duplicates := ctx.stats.duplicates + 1 } }, []) := by
  unfold handleEvent
  rw [if_pos h]

theorem handleEvent_early (sender : ModuleId) (h : ¬ event.originSeq ≤ vvGet ctx.vv event.originId)
    (h' : event.originSeq > vvGet ctx.vv event.originId + 1) :
    handleEvent ctx event sender =
      (.error .notFound,
        { ctx with
          stats := { ctx.stats with
            eventsReceived := ctx.stats.eventsReceived + 1
            gapsDetected := ctx.stats.gapsDetected + 1 }
          bufferedEvents :=
            if ctx.bufferedEvents.length < maxBuffered then ctx.bufferedEvents ++ [event]
            else ctx.bufferedEvents },
        [.send sender (.request
          { requester := ctx.myId
            targetOrigin := event.originId
            fromSeq := vvGet ctx.vv event.originId + 1
            toSeq := event.originSeq - 1 })]) := by
  unfold handleEvent
  rw [if_neg h, if_pos h']

theorem handleEvent_next (sender : ModuleId) (h : ¬ event.originSeq ≤ vvGet ctx.vv event.originId)
    (h' : ¬ event.originSeq > vvGet ctx.vv event.originId + 1) :
    ∃ sent, handleEvent ctx event sender =
      (.ok (),
        { accepting ctx event with
          vv := (drain (vvPut ctx.vv event.originId event.originSeq) ctx.bufferedEvents).1
          bufferedEvents :=
            (drain (vvPut ctx.vv event.originId event.originSeq) ctx.bufferedEvents).2.1
          stats := { (accepting ctx event).stats with eventsSent := sent } },
        [.store event, .onEvent event] ++ (forward (accepting ctx event) event sender).2 ++
          (drain (vvPut ctx.vv event.originId event.originSeq) ctx.bufferedEvents).2.2) := by
  obtain ⟨hvv, hbuffered⟩ := accepting_delivery ctx event
  obtain ⟨sent, hforward⟩ := (forward_spec (accepting ctx event) event sender).1
  refine ⟨sent, ?_⟩
  have heq : handleEvent ctx event sender =
      (.ok (),
        { (forward (accepting ctx event) event sender).1 with
          vv := (drain (forward (accepting ctx event) event sender).1.vv
            (forward (accepting ctx event) event sender).1.bufferedEvents).1
          bufferedEvents := (drain (forward (accepting ctx event) event sender).1.vv
            (forward (accepting ctx event) event sender).1.bufferedEvents).2.1 },
        [.store event, .onEvent event] ++ (forward (accepting ctx event) event sender).2 ++
          (drain (forward (accepting ctx event) event sender).1.vv
            (forward (accepting ctx event) event sender).1.bufferedEvents).2.2) := by
    unfold handleEvent
    rw [if_neg h, if_neg h']
    rfl
  rw [heq, hforward]
  rw [hvv, hbuffered]

/-- the event handler of a context does `receive` on its delivery part -/
theorem handleEvent_delivery (ctx : Ctx) (event : EventV2) (sender : ModuleId) :
    ((handleEvent ctx event sender).2.1.delivery, delivered (handleEvent ctx event sender).2.2) =
      ctx.delivery.receive event := by
  unfold Delivery.receive
  dsimp only [Ctx.delivery]
  by_cases h : event.originSeq ≤ vvGet ctx.vv event.originId
  · rw [handleEvent_known sender h, if_pos h]
    rfl
  · by_cases h' : event.originSeq > vvGet ctx.vv event.originId + 1
    · rw [handleEvent_early sender h h', if_neg h, if_pos h']
      rfl
    · obtain ⟨sent, heq⟩ := handleEvent_next sender h h'
      rw [heq, if_neg h, if_neg h', delivered_append, delivered_append,
        (forward_spec (accepting ctx event) event sender).2]
      rfl

/-! ## in order, exactly once -/

/-- the sequences of the events of origin `m` in `events` -/
def seqsOf (m : ModuleId) (events : List EventV2) : List Nat :=
  (events.filter fun e => e.originId = m).map fun e => e.originSeq.toNat

theorem seqsOf_append (m : ModuleId) (events events' : List EventV2) :
    seqsOf m (events ++ events') = seqsOf m events ++ seqsOf m events' := by
  rw [seqsOf, filter_append, map_append]
  rfl

theorem seqsOf_cons_self (event : EventV2) (events : List EventV2) :
    seqsOf event.originId (event :: events) =
      event.originSeq.toNat :: seqsOf event.originId events := by
  rw [seqsOf, filter_cons_of_pos (by exact decide_eq_true rfl), map_cons]
  rfl

def HandedOver (vv : VersionVector) (events : List EventV2) : Prop :=
  ∀ m, seqsOf m events = range' 1 (vvGet vv m).toNat

theorem next_toNat {known seq : UInt32} (hnext : seq = known + 1) (hpos : 0 < seq) :
    seq.toNat = known.toNat + 1 := by
  have hpos' : 0 < seq.toNat := UInt32.lt_iff_toNat_lt.mp hpos
  have hlt := known.toNat_lt
  rw [hnext, UInt32.toNat_add] at hpos' ⊢
  show (known.toNat + 1) % 2 ^ 32 = known.toNat + 1
  change 0 < (known.toNat + 1) % 2 ^ 32 at hpos'
  omega

theorem handedOver_put (h : HandedOver vv events)
    (hnext : event.originSeq = vvGet vv event.originId + 1) (hpos : 0 < event.originSeq)
    (hroom : HasRoom vv event.originId) :
    HandedOver (vvPut vv event.originId event.originSeq) (events ++ [event]) := by
  intro m
  rw [seqsOf_append, h m, vvGet_vvPut hroom]
  by_cases hm : m = event.originId
  · rw [if_pos hm, hm, seqsOf_cons_self, next_toNat hnext hpos, range'_1_concat,
      Nat.add_comm 1]
    rfl
  · have hnone : seqsOf m [event] = [] := by
      rw [seqsOf, filter_cons_of_neg (by simpa using Ne.symm hm)]
      rfl
    rw [if_neg hm, hnone, append_nil]

theorem handedOver_drain (h : HandedOver vv events) {buffered : List EventV2}
    (hwait : ∀ b ∈ buffered, 1 < b.originSeq) :
    HandedOver (drain vv buffered).1 (events ++ delivered (drain vv buffered).2.2) := by
  induction buffered generalizing vv events with
  | nil =>
    show HandedOver vv (events ++ [])
    rw [append_nil]
    exact h
  | cons b rest ih =>
    have hrest := fun b' hb' => hwait b' (mem_cons_of_mem b hb')
    rw [drain]
    split_ifs with hnext
    · have hroom : HasRoom vv b.originId := hasRoom_of_pos (by grind)
      have hput := ih (handedOver_put h hnext (by grind) hroom) hrest
      rw [append_assoc] at hput
      exact hput
    · exact ih h hrest

theorem drain_sublist (vv : VersionVector) (buffered : List EventV2) :
    List.Sublist (drain vv buffered).2.1 buffered := by
  induction buffered generalizing vv with
  | nil => exact List.Sublist.slnil
  | cons b rest ih =>
    rw [drain]
    split_ifs
    · exact (ih _).cons b
    · exact (ih _).cons_cons b

theorem receive_waiting (h : ∀ b ∈ d.buffered, 1 < b.originSeq) (event : EventV2) :
    ∀ b ∈ (d.receive event).1.buffered, 1 < b.originSeq := by
  intro b hb
  unfold Delivery.receive at hb
  dsimp only at hb
  split_ifs at hb with hdup hgap hfull
  · exact h b hb
  · rcases mem_append.mp hb with hb | hb
    · exact h b hb
    · grind
  · exact h b hb
  · exact h b ((drain_sublist _ _).subset hb)

theorem handedOver_receive (h : HandedOver d.vv events) (hwait : ∀ b ∈ d.buffered, 1 < b.originSeq)
    (hroom : event.originSeq = 1 → HasRoom d.vv event.originId) :
    HandedOver (d.receive event).1.vv (events ++ (d.receive event).2) := by
  unfold Delivery.receive
  dsimp only
  split_ifs with hdup hgap
  · rw [append_nil]
    exact h
  · rw [append_nil]
    exact h
  · rw [append_nil]
    exact h
  · have hnext : event.originSeq = vvGet d.vv event.originId + 1 := by grind
    have hroom' : HasRoom d.vv event.originId := by
      by_cases hone : event.originSeq = 1
      · exact hroom hone
      · exact hasRoom_of_pos (by grind)
    have hput := handedOver_drain (handedOver_put h hnext (by grind) hroom') hwait
    rw [append_assoc] at hput
    exact hput

/-! ## an origin without room -/

theorem noRoom_drain {m : ModuleId} (h : ¬ HasRoom vv m) (buffered : List EventV2) :
    ¬ HasRoom (drain vv buffered).1 m := by
  induction buffered generalizing vv with
  | nil => exact h
  | cons b rest ih =>
    rw [drain]
    split_ifs
    · exact ih (noRoom_vvPut h _ _)
    · exact ih h

theorem handedOver_receive_noRoom (hone : event.originSeq = 1) (hno : ¬ HasRoom d.vv event.originId) :
    ¬ HandedOver (d.receive event).1.vv (events ++ (d.receive event).2) := by
  intro h
  have hzero := vvGet_noRoom hno
  have hreceive : d.receive event =
      (⟨(drain d.vv d.buffered).1, (drain d.vv d.buffered).2.1⟩,
        event :: delivered (drain d.vv d.buffered).2.2) := by
    unfold Delivery.receive
    rw [hzero, hone, if_neg (by decide), if_neg (by decide), vvPut_noRoom hno]
  have hevent := h event.originId
  rw [hreceive] at hevent
  rw [vvGet_noRoom (noRoom_drain hno d.buffered), seqsOf_append] at hevent
  have hnil := (append_eq_nil_iff.mp hevent).2
  rw [seqsOf_cons_self] at hnil
  exact absurd hnil (cons_ne_nil _ _)

/-! ## runs -/

def receiver (start : Ctx) : Machine Ctx (EventV2 × ModuleId) Out :=
  ⟨start, fun ctx x => (handleEvent ctx x.1 x.2).2⟩

/-- a context that has received nothing -/
structure Fresh (ctx : Ctx) : Prop where
  vv : ctx.vv = [⟨ctx.myId, 0⟩]
  buffered : ctx.bufferedEvents = []

theorem init_fresh {myId : ModuleId} (h : init myId = .ok ctx) : Fresh ctx := by
  unfold init at h
  split at h
  · cases h
  · cases h
    exact ⟨rfl, rfl⟩

theorem addNeighbor_fresh (h : Fresh ctx) (id : ModuleId) : Fresh (addNeighbor ctx id).2 := by
  unfold addNeighbor
  split_ifs
  · exact h
  · exact h
  · exact h
  · exact ⟨h.vv, h.buffered⟩

variable {start : Ctx}

theorem receiver_concat (es : List (EventV2 × ModuleId)) (x : EventV2 × ModuleId) :
    ((receiver start).run (es ++ [x])).delivery =
        (((receiver start).run es).delivery.receive x.1).1 ∧
      delivered ((receiver start).trace (es ++ [x])) =
        delivered ((receiver start).trace es) ++
          (((receiver start).run es).delivery.receive x.1).2 := by
  have h := handleEvent_delivery ((receiver start).run es) x.1 x.2
  rw [Machine.run_concat, Machine.trace_concat, delivered_append, ← h]
  exact ⟨rfl, rfl⟩

theorem receiver_waiting (hfresh : Fresh start) (es : List (EventV2 × ModuleId)) :
    ∀ b ∈ ((receiver start).run es).delivery.buffered, 1 < b.originSeq := by
  induction es using List.reverseRecOn with
  | nil =>
    intro b hb
    rw [show ((receiver start).run []).delivery.buffered = [] from hfresh.buffered] at hb
    cases hb
  | append_singleton es x ih =>
    rw [(receiver_concat es x).1]
    exact receive_waiting ih x.1

/-- after the run, of each origin exactly the events 1, 2, ..., k have been handed over, in that
order, and k is its entry in the version vector -/
def ExactlyOnce (start : Ctx) (es : List (EventV2 × ModuleId)) : Prop :=
  HandedOver ((receiver start).run es).vv (delivered ((receiver start).trace es))

theorem exactlyOnce_nil (hfresh : Fresh start) : ExactlyOnce start [] := by
  intro m
  show seqsOf m [] = range' 1 (vvGet start.vv m).toNat
  rw [hfresh.vv, vvGet]
  split_ifs <;> rfl

theorem exactlyOnce_concat (es : List (EventV2 × ModuleId)) (x : EventV2 × ModuleId) :
    ExactlyOnce start (es ++ [x]) ↔
      HandedOver (((receiver start).run es).delivery.receive x.1).1.vv
        (delivered ((receiver start).trace es) ++
          (((receiver start).run es).delivery.receive x.1).2) := by
  obtain ⟨h1, h2⟩ := @receiver_concat start es x
  rw [ExactlyOnce, ← h1, ← h2]
  rfl

/-- the event that arrives is not the first of an origin that the version vector has no room for -/
def RoomForFirst (start : Ctx) (pre : List (EventV2 × ModuleId)) (x : EventV2 × ModuleId) : Prop :=
  x.1.originSeq = 1 → HasRoom ((receiver start).run pre).vv x.1.originId

theorem exactlyOnce_run (hfresh : Fresh start) (es : List (EventV2 × ModuleId))
    (hroom : EveryStep (RoomForFirst start) es) : ExactlyOnce start es := by
  refine history_induction (exactlyOnce_nil hfresh) (fun pre x ih hx => ?_) es hroom
  exact (exactlyOnce_concat pre x).mpr
    (handedOver_receive (d := ((receiver start).run pre).delivery) ih
      (receiver_waiting hfresh pre) hx)

/-- **Main.** Over every run of received events, of any origins in any order and with any
repetitions, each origin's events are handed over in order and once, as the version vector says,
exactly when every first event of an origin finds room in the vector. -/
theorem exactly_once_iff (hfresh : Fresh start) (es : List (EventV2 × ModuleId)) :
    (∀ es', es' <+: es → ExactlyOnce start es') ↔ EveryStep (RoomForFirst start) es := by
  constructor
  · intro h pre x hp hone
    by_contra hno
    exact handedOver_receive_noRoom hone hno ((exactlyOnce_concat pre x).mp (h _ hp))
  · intro hroom es' hp
    exact exactlyOnce_run hfresh es' (hroom.initial hp)

/-- an event with number `seq` of origin `m` -/
def eventOf (m : ModuleId) (seq : UInt32) : EventV2 :=
  { sequence := seq
    timestampUs := 0
    eventType := 0x80
    flags := 0
    originId := m
    hopCount := 0
    originSeq := seq
    payload := Vector.replicate 20 0 }

/-- two origins, out of order and with repetitions -/
theorem exactly_once_iff_two : ∃ start, init 1 = .ok start ∧ ∀ es', es' <+:
    [(eventOf 2 2, 2), (eventOf 3 1, 3), (eventOf 2 1, 2), (eventOf 2 1, 3), (eventOf 3 2, 3)] →
    ExactlyOnce start es' := by
  refine ⟨_, rfl, (exactly_once_iff (init_fresh (show init 1 = .ok _ from rfl)) _).mpr ?_⟩
  refine (everyStep_cons _ _ _).mpr ⟨?_, (everyStep_cons _ _ _).mpr ⟨?_,
    (everyStep_cons _ _ _).mpr ⟨?_, (everyStep_cons _ _ _).mpr ⟨?_,
    (everyStep_cons _ _ _).mpr ⟨?_, everyStep_nil _⟩⟩⟩⟩⟩ <;> unfold RoomForFirst <;> decide

/-- after seven other origins the version vector is full, and a repeated first event of origin 9 is
handed over each time -/
theorem ninth_origin : ∃ start es, init 1 = .ok start ∧
    seqsOf 9 (delivered ((receiver start).trace es)) = [1, 1] ∧
    vvGet ((receiver start).run es).vv 9 = 0 ∧ ¬ ExactlyOnce start es := by
  refine ⟨_, [(eventOf 2 1, 2), (eventOf 3 1, 2), (eventOf 4 1, 2), (eventOf 5 1, 2),
    (eventOf 6 1, 2), (eventOf 7 1, 2), (eventOf 8 1, 2), (eventOf 9 1, 2), (eventOf 9 1, 3)], rfl,
    by decide, by decide, fun h => ?_⟩
  exact absurd (h 9) (by decide)

end Gossip
end EkKor
