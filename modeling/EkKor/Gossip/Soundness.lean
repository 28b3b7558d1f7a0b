import EkKor.Gossip.Calls

/-!
# A module counts what it has handed over

* `Member`, `Call`   a module with all that it has stored and handed over, and its calls;
* `Sound`            every event that a version vector counts has been handed over;
* `Good`             the invariant of a module;
* `call_good`        every call keeps it, when the summary that it merges is covered.
-/

namespace EkKor
namespace Gossip
open List hiding Vector

/-! ## a module and its calls -/

/-- a module: its context, the events it has stored and the events it has handed over -/
structure Member where
  ctx : Ctx
  stored : List EventV2
  handed : List EventV2

/-- the calls of a module -/
inductive Call where
  | addNeighbor (id : ModuleId)
  | removeNeighbor (id : ModuleId)
  | emit (now : TimeUs) (eventType : UInt8) (payload : List UInt8)
  | tick (now : TimeUs)
  | handleMsg (msg : Msg)

/-- the events of an output that go to `ekk_gossip_store_event` -/
def storedBy (out : List Out) : List EventV2 :=
  out.filterMap fun
    | .store event => some event
    | _ => none

/-- what `ekk_gossip_load_event` finds among the stored events -/
abbrev Load := List EventV2 → ModuleId → UInt32 → Option EventV2

/-- one call; `none` when it does not return -/
def Call.run (load : Load) (m : Member) : Call → Option (Ctx × List Out)
  | .addNeighbor id => some ((Gossip.addNeighbor m.ctx id).2, [])
  | .removeNeighbor id => some ((Gossip.removeNeighbor m.ctx id).2, [])
  | .emit now eventType payload => some (Gossip.emit m.ctx now eventType payload).2
  | .tick now => some (Gossip.tick m.ctx now)
  | .handleMsg msg => Gossip.handleMsg (load m.stored) m.ctx msg

def Member.after (m : Member) (r : Ctx × List Out) : Member :=
  { ctx := r.1
    stored := m.stored ++ storedBy r.2
    handed := m.handed ++ delivered r.2 }

/-! ## the property -/

/-- an event of origin `o` with the number `seq` is among the events -/
def Has (events : List EventV2) (o : ModuleId) (seq : UInt32) : Prop :=
  ∃ e ∈ events, e.originId = o ∧ e.originSeq = seq

def Sound (vv : VersionVector) (events : List EventV2) : Prop :=
  ∀ o seq, 0 < seq → seq ≤ vvGet vv o → Has events o seq

variable {Q : ModuleId → UInt32 → Prop}

/-! ## the invariant of a module -/

variable {events events' : List EventV2} {seq : UInt32} {vv : VersionVector} {event : EventV2}
  {d : Delivery} {i : ModuleId} {Q' : ModuleId → UInt32 → Prop} {r : Ctx × List Out}

theorem Has.mono {o : ModuleId} (h : Has events o seq) (hsub : events ⊆ events') :
    Has events' o seq := by
  obtain ⟨e, he, hmark⟩ := h
  exact ⟨e, hsub he, hmark⟩

theorem has_append_left {o : ModuleId} (h : Has events o seq) (events' : List EventV2) :
    Has (events ++ events') o seq :=
  h.mono (subset_append_left events events')

theorem Sound.append (h : Sound vv events) (events' : List EventV2) :
    Sound vv (events ++ events') :=
  fun o seq h1 h2 => has_append_left (h o seq h1 h2) events'

theorem le_succ_cases {known : UInt32} (h : seq ≤ known + 1) : seq ≤ known ∨ seq = known + 1 := by
  grind

theorem sound_put (h : Sound vv events) (hnext : event.originSeq = vvGet vv event.originId + 1) :
    Sound (vvPut vv event.originId event.originSeq) (events ++ [event]) := by
  by_cases hroom : HasRoom vv event.originId
  · intro o seq hpos hle
    rw [vvGet_vvPut hroom] at hle
    split_ifs at hle with ho
    · rw [hnext] at hle
      rcases le_succ_cases hle with hle | heq
      · rw [ho]
        exact has_append_left (h event.originId seq hpos hle) [event]
      · exact ⟨event, mem_append_right events (mem_singleton_self event), ho.symm,
          hnext.trans heq.symm⟩
    · exact has_append_left (h o seq hpos hle) [event]
  · rw [vvPut_noRoom hroom]
    exact h.append [event]

theorem sound_drain (h : Sound vv events) (buffered : List EventV2) :
    Sound (drain vv buffered).1 (events ++ delivered (drain vv buffered).2.2) := by
  induction buffered generalizing vv events with
  | nil => exact h.append _
  | cons b rest ih =>
    rw [drain]
    split_ifs with hnext
    · have hput := ih (sound_put h hnext)
      rw [append_assoc] at hput
      exact hput
    · exact ih h

theorem sound_receive (h : Sound d.vv events) (event : EventV2) :
    Sound (d.receive event).1.vv (events ++ (d.receive event).2) := by
  unfold Delivery.receive
  dsimp only
  split_ifs with hknown hearly
  · exact h.append []
  · exact h.append []
  · exact h.append []
  · have hnext : event.originSeq = vvGet d.vv event.originId + 1 := by grind
    have hdrain := sound_drain (sound_put h hnext) d.buffered
    rw [append_assoc] at hdrain
    exact hdrain

/-- events of origin `i` that are not beyond its entry leave the entry as it is -/
theorem vvGet_drain {buffered : List EventV2} (hwait : ∀ b ∈ buffered, 1 < b.originSeq)
    (hold : ∀ b ∈ buffered, b.originId = i → b.originSeq ≤ vvGet vv i) :
    vvGet (drain vv buffered).1 i = vvGet vv i := by
  induction buffered generalizing vv with
  | nil => rfl
  | cons b rest ih =>
    have hwait' := fun b' hb' => hwait b' (mem_cons_of_mem b hb')
    have hold' := fun b' hb' => hold b' (mem_cons_of_mem b hb')
    rw [drain]
    split_ifs with hnext
    · have hne : i ≠ b.originId := by
        rintro rfl
        grind
      have hsame := vvGet_vvPut_of_ne vv b.originSeq hne
      rw [ih hwait' (by rw [hsame]; exact hold'), hsame]
    · exact ih hwait' hold'

theorem vvGet_receive (hwait : ∀ b ∈ d.buffered, 1 < b.originSeq)
    (hold : ∀ b ∈ d.buffered, b.originId = i → b.originSeq ≤ vvGet d.vv i)
    (hevent : event.originId = i → event.originSeq ≤ vvGet d.vv i) :
    vvGet (d.receive event).1.vv i = vvGet d.vv i := by
  unfold Delivery.receive
  dsimp only
  split_ifs with hknown hearly
  · rfl
  · rfl
  · rfl
  · have hne : i ≠ event.originId := by
      rintro rfl
      exact hknown (hevent rfl)
    have hsame := vvGet_vvPut_of_ne d.vv event.originSeq hne
    rw [vvGet_drain hwait (by rw [hsame]; exact hold), hsame]

theorem hasEntry_vvPut (h : ∃ entry ∈ vv, entry.moduleId = i) (m : ModuleId) (seq : UInt32) :
    ∃ entry ∈ vvPut vv m seq, entry.moduleId = i := by
  obtain ⟨entry, hentry, hid⟩ := h
  rcases vvPut_cases vv m seq with ⟨vv', hw, heq⟩ | ⟨_, _, heq⟩ | ⟨_, heq⟩
  · have hmem : i ∈ vv'.map VvEntry.moduleId := by
      rw [(vvWrite_some hw).2, ← hid]
      exact mem_map_of_mem hentry
    rw [heq]
    exact mem_map.mp hmem
  · rw [heq]
    exact ⟨entry, mem_append_left _ hentry, hid⟩
  · rw [heq]
    exact ⟨entry, hentry, hid⟩

theorem hasEntry_drain (h : ∃ entry ∈ vv, entry.moduleId = i) (buffered : List EventV2) :
    ∃ entry ∈ (drain vv buffered).1, entry.moduleId = i := by
  induction buffered generalizing vv with
  | nil => exact h
  | cons b rest ih =>
    rw [drain]
    split_ifs
    · exact ih (hasEntry_vvPut h _ _)
    · exact ih h

theorem hasEntry_receive (h : ∃ entry ∈ d.vv, entry.moduleId = i) (event : EventV2) :
    ∃ entry ∈ (d.receive event).1.vv, entry.moduleId = i := by
  unfold Delivery.receive
  dsimp only
  split_ifs
  · exact h
  · exact h
  · exact h
  · exact hasEntry_drain (hasEntry_vvPut h _ _) d.buffered

/-- the own events of module `i`: the next local number is one above the own entry, and no event
above the entry has been handed over; or all numbers have been used -/
def OwnNumbers (i : ModuleId) (m : Member) : Prop :=
  (m.ctx.localSequence = vvGet m.ctx.vv i + 1 ∧
      ∀ seq, Has m.handed i seq → seq ≤ vvGet m.ctx.vv i) ∨
    ∀ seq, 0 < seq → Has m.handed i seq

/-- the invariant of module `i`: the events it holds have the property `Q` -/
structure Good (Q : ModuleId → UInt32 → Prop) (i : ModuleId) (m : Member) : Prop where
  myId : m.ctx.myId = i
  entry : ∃ entry ∈ m.ctx.vv, entry.moduleId = i
  waiting : ∀ b ∈ m.ctx.bufferedEvents, 1 < b.originSeq
  sound : Sound m.ctx.vv m.handed
  own : OwnNumbers i m
  pending : AllMarked Q m.ctx.pendingEvents
  buffered : AllMarked Q m.ctx.bufferedEvents
  stored : AllMarked Q m.stored

theorem Good.mono {m : Member} (h : Good Q i m) (hQ : ∀ o seq, Q o seq → Q' o seq) :
    Good Q' i m :=
  ⟨h.myId, h.entry, h.waiting, h.sound, h.own, fun e he => hQ _ _ (h.pending e he),
    fun e he => hQ _ _ (h.buffered e he), fun e he => hQ _ _ (h.stored e he)⟩

/-! ## every call keeps the invariant -/

theorem storedBy_append (out out' : List Out) :
    storedBy (out ++ out') = storedBy out ++ storedBy out' := filterMap_append

theorem storedBy_marked {out : List Out} (h : AllOk Q out) : AllMarked Q (storedBy out) := by
  intro e he
  obtain ⟨o, ho, heq⟩ := mem_filterMap.mp he
  have hok := h o ho
  cases o with
  | send dest msg => cases heq
  | store event =>
    obtain rfl := Option.some.inj heq
    exact hok
  | onEvent event => cases heq

theorem delivered_marked {out : List Out} (h : AllOk Q out) : AllMarked Q (delivered out) := by
  intro e he
  obtain ⟨o, ho, heq⟩ := mem_filterMap.mp he
  have hok := h o ho
  cases o with
  | send dest msg => cases heq
  | store event => cases heq
  | onEvent event =>
    obtain rfl := Option.some.inj heq
    exact hok

theorem AllMarked.append (h : AllMarked Q events) (h' : AllMarked Q events') :
    AllMarked Q (events ++ events') := by
  intro e he
  rcases mem_append.mp he with he | he
  · exact h e he
  · exact h' e he

theorem Member.after_after (m : Member) (r r' : Ctx × List Out) :
    (m.after r).after r' = m.after (r'.1, r.2 ++ r'.2) := by
  unfold Member.after
  rw [storedBy_append, delivered_append, append_assoc, append_assoc]

variable {m : Member}

theorem quiet_good (h : Good Q i m) (hquiet : Quiet m.ctx r.1 r.2) (hok : AllOk Q r.2) :
    Good Q i (m.after r) := by
  have hhanded : (m.after r).handed = m.handed := by
    show m.handed ++ delivered r.2 = m.handed
    rw [hquiet.delivered, append_nil]
  constructor
  · exact hquiet.myId.trans h.myId
  · show ∃ entry ∈ r.1.vv, entry.moduleId = i
    rw [hquiet.vv]
    exact h.entry
  · show ∀ b ∈ r.1.bufferedEvents, 1 < b.originSeq
    rw [hquiet.buffered]
    exact h.waiting
  · show Sound r.1.vv (m.after r).handed
    rw [hquiet.vv, hhanded]
    exact h.sound
  · unfold OwnNumbers
    rw [hhanded]
    show (r.1.localSequence = vvGet r.1.vv i + 1 ∧ ∀ seq, _ → seq ≤ vvGet r.1.vv i) ∨ _
    rw [hquiet.vv, hquiet.localSequence]
    exact h.own
  · exact fun e he => h.pending e (hquiet.pending he)
  · show AllMarked Q r.1.bufferedEvents
    rw [hquiet.buffered]
    exact h.buffered
  · exact h.stored.append (storedBy_marked hok)

theorem handleEvent_local (ctx : Ctx) (event : EventV2) (sender : ModuleId) :
    (handleEvent ctx event sender).2.1.myId = ctx.myId ∧
      (handleEvent ctx event sender).2.1.localSequence = ctx.localSequence ∧
      (handleEvent ctx event sender).2.1.pendingEvents = ctx.pendingEvents := by
  by_cases hknown : event.originSeq ≤ vvGet ctx.vv event.originId
  · rw [handleEvent_known sender hknown]
    exact ⟨rfl, rfl, rfl⟩
  · by_cases hearly : event.originSeq > vvGet ctx.vv event.originId + 1
    · rw [handleEvent_early sender hknown hearly]
      exact ⟨rfl, rfl, rfl⟩
    · obtain ⟨sent, heq⟩ := handleEvent_next sender hknown hearly
      rw [heq]
      unfold accepting
      split_ifs <;> exact ⟨rfl, rfl, rfl⟩

/-- a received event; an event of origin `i` has been handed over by `i` itself -/
theorem handleEvent_good (h : Good Q i m) (hown : ∀ seq, Q i seq → Has m.handed i seq)
    (sender : ModuleId) (hevent : Q event.originId event.originSeq) :
    Good Q i (m.after (handleEvent m.ctx event sender).2) := by
  obtain ⟨hok, hbuffered⟩ := handleEvent_ok sender h.buffered hevent
  obtain ⟨hid, hlocal, hpending⟩ := handleEvent_local m.ctx event sender
  obtain ⟨hdelivery, hout⟩ := Prod.mk.inj (handleEvent_delivery m.ctx event sender)
  have hvv := congrArg Delivery.vv hdelivery
  have hbuf := congrArg Delivery.buffered hdelivery
  change (handleEvent m.ctx event sender).2.1.vv = _ at hvv
  change (handleEvent m.ctx event sender).2.1.bufferedEvents = _ at hbuf
  constructor
  · exact hid.trans h.myId
  · show ∃ entry ∈ (handleEvent m.ctx event sender).2.1.vv, entry.moduleId = i
    rw [hvv]
    exact hasEntry_receive h.entry event
  · show ∀ b ∈ (handleEvent m.ctx event sender).2.1.bufferedEvents, 1 < b.originSeq
    rw [hbuf]
    exact receive_waiting h.waiting event
  · show Sound (handleEvent m.ctx event sender).2.1.vv (m.handed ++ _)
    rw [hvv, hout]
    exact sound_receive h.sound event
  · rcases h.own with ⟨hseq, hmax⟩ | hall
    · have hsame : vvGet (handleEvent m.ctx event sender).2.1.vv i = vvGet m.ctx.vv i := by
        rw [hvv]
        refine vvGet_receive h.waiting (fun b hb hb' => ?_) fun hevent' => ?_
        · have hmark := h.buffered b hb
          rw [hb'] at hmark
          exact hmax _ (hown _ hmark)
        · rw [hevent'] at hevent
          exact hmax _ (hown _ hevent)
      left
      show (handleEvent m.ctx event sender).2.1.localSequence =
          vvGet (handleEvent m.ctx event sender).2.1.vv i + 1 ∧
        ∀ seq, _ → seq ≤ vvGet (handleEvent m.ctx event sender).2.1.vv i
      rw [hsame, hlocal]
      refine ⟨hseq, fun seq hhas => ?_⟩
      obtain ⟨e, he, ho, hs⟩ := hhas
      rcases mem_append.mp he with he | he
      · exact hmax seq ⟨e, he, ho, hs⟩
      · have hmark := delivered_marked hok e he
        rw [ho, hs] at hmark
        exact hmax seq (hown seq hmark)
    · exact .inr fun seq hpos => has_append_left (hall seq hpos) _
  · show AllMarked Q (handleEvent m.ctx event sender).2.1.pendingEvents
    rw [hpending]
    exact h.pending
  · exact hbuffered
  · exact h.stored.append (storedBy_marked hok)

theorem handleEvents_good (h : Good Q i m) (hown : ∀ seq, Q i seq → Has m.handed i seq)
    (sender : ModuleId) (hevents : AllMarked Q events) :
    Good Q i (m.after (handleEvents m.ctx sender events)) := by
  induction events generalizing m with
  | nil => exact quiet_good h (.refl m.ctx) allOk_nil
  | cons event rest ih =>
    have hfirst := handleEvent_good h hown sender (hevents event mem_cons_self)
    have hrest := ih hfirst (fun seq hseq => has_append_left (hown seq hseq) _)
      fun e he => hevents e (mem_cons_of_mem event he)
    rw [Member.after_after] at hrest
    exact hrest

theorem emit_good (h : Good Q i m) (now : TimeUs) (eventType : UInt8) (payload : List UInt8)
    (hQ : ∀ o seq, Q o seq → Q' o seq)
    (hown : ∀ seq, Has (m.after (emit m.ctx now eventType payload).2).handed i seq → Q' i seq) :
    Good Q' i (m.after (emit m.ctx now eventType payload).2) ∧
      AllOk Q' (emit m.ctx now eventType payload).2.2 := by
  unfold emit at hown ⊢
  split_ifs at hown ⊢ with hlong hfull
  · exact ⟨quiet_good (h.mono hQ) (.refl m.ctx) allOk_nil, allOk_nil⟩
  · exact ⟨quiet_good (h.mono hQ) (.refl m.ctx) allOk_nil, allOk_nil⟩
  · generalize hevent : ({
      sequence := m.ctx.localSequence, timestampUs := now.toUInt32, eventType := eventType,
      flags := 0, originId := m.ctx.myId, hopCount := 0, originSeq := m.ctx.localSequence,
      payload := Vector.ofFn fun k => payload.getD k.val 0 } : EventV2) = event at hown ⊢
    have ho : event.originId = i := by
      rw [← hevent]
      exact h.myId
    have hs : event.originSeq = m.ctx.localSequence := by
      rw [← hevent]
    have hmark : Q' event.originId event.originSeq := by
      rw [ho]
      exact hown _ ⟨event, mem_append_right _ (mem_singleton_self event), ho, rfl⟩
    have hget (o : ModuleId) : vvGet (vvIncrement m.ctx.vv m.ctx.myId) o =
        if o = i then vvGet m.ctx.vv i + 1 else vvGet m.ctx.vv o := by
      unfold vvIncrement
      rw [vvGet_vvPut (.inl (by rw [h.myId]; exact h.entry)), h.myId]
    have hok : AllOk Q' [.onEvent event, .store event] := by
      intro o ho'
      rcases mem_cons.mp ho' with rfl | ho'
      · exact hmark
      · rw [mem_singleton.mp ho']
        exact hmark
    have hnew : Has (m.handed ++ [event]) i m.ctx.localSequence :=
      ⟨event, mem_append_right _ (mem_singleton_self event), ho, hs⟩
    have hold {o : ModuleId} {seq : UInt32} (hh : Has m.handed o seq) :
        Has (m.handed ++ [event]) o seq := has_append_left hh [event]
    have hgood := h.mono hQ
    refine ⟨⟨h.myId, hasEntry_vvPut h.entry _ _, h.waiting, ?_, ?_,
      hgood.pending.append fun e he => ?_, hgood.buffered,
      hgood.stored.append (storedBy_marked hok)⟩, hok⟩
    · intro o seq hpos hle
      change seq ≤ vvGet (vvIncrement m.ctx.vv m.ctx.myId) o at hle
      rw [hget] at hle
      split_ifs at hle with hoi
      · rw [hoi]
        rcases le_succ_cases hle with hle | heq
        · exact hold (h.sound i seq hpos hle)
        · rcases h.own with ⟨hseq, _⟩ | hall
          · rw [heq, ← hseq]
            exact hnew
          · exact hold (hall seq hpos)
      · exact hold (h.sound o seq hpos hle)
    · show (m.ctx.localSequence + 1 = vvGet (vvIncrement m.ctx.vv m.ctx.myId) i + 1 ∧
        ∀ seq, Has (m.handed ++ [event]) i seq → seq ≤ vvGet (vvIncrement m.ctx.vv m.ctx.myId) i) ∨
        ∀ seq, 0 < seq → Has (m.handed ++ [event]) i seq
      rw [hget, if_pos rfl]
      rcases h.own with ⟨hseq, hmax⟩ | hall
      · by_cases hlast : vvGet m.ctx.vv i = 0xFFFFFFFF
        · -- the number that comes next is 0: all numbers have been used
          right
          intro seq hpos
          refine hold (h.sound i seq hpos ?_)
          grind
        · left
          refine ⟨by rw [hseq], fun seq hhas => ?_⟩
          obtain ⟨e, he, heo, hes⟩ := hhas
          rcases mem_append.mp he with he | he
          · have hle := hmax seq ⟨e, he, heo, hes⟩
            grind
          · rw [mem_singleton.mp he, hs, hseq] at hes
            rw [hes]
            exact UInt32.le_refl _
      · exact .inr fun seq hpos => hold (hall seq hpos)
    · rw [mem_singleton.mp he]
      exact hmark

variable {load : Load}

def GossipMsg.seen (msg : GossipMsg) : List EventV2 :=
  msg.events.take (min msg.eventCount.toNat batchSize)

/-- the events of a packet are marked, and when it is a gossip message its summary is covered -/
def MsgGood (Q : ModuleId → UInt32 → Prop) (ctx : Ctx) (msg : Msg) : Prop :=
  match msg with
  | .gossip msg => AllMarked Q msg.events ∧
      Covered (handleEvents ctx msg.sourceModule msg.seen).1 msg.vvSummary
  | _ => True

theorem handleMsg_good (h : Good Q i m) (hown : ∀ seq, Q i seq → Has m.handed i seq)
    (hload : ∀ stored o seq event, load stored o seq = some event → event ∈ stored) {msg : Msg}
    (hmsg : MsgGood Q m.ctx msg) (hr : handleMsg (load m.stored) m.ctx msg = some r) :
    Good Q i (m.after r) ∧ AllOk Q r.2 := by
  cases msg with
  | gossip msg =>
    obtain ⟨hmarked, hcovered⟩ := hmsg
    have hseen : AllMarked Q msg.seen := fun e he => hmarked e (take_subset _ _ he)
    obtain ⟨hok, _⟩ := handleEvents_ok msg.sourceModule h.buffered hseen
    obtain rfl := Option.some.inj hr
    show Good Q i (m.after (mergeSummary (handleEvents m.ctx msg.sourceModule msg.seen).1
      msg.vvSummary, _)) ∧ _
    rw [mergeSummary_eq hcovered]
    exact ⟨handleEvents_good h hown msg.sourceModule hseen, hok⟩
  | ack =>
    obtain rfl := Option.some.inj hr
    exact ⟨quiet_good h (.refl m.ctx) allOk_nil, allOk_nil⟩
  | request req =>
    rw [handleMsg] at hr
    split_ifs at hr
    · obtain ⟨hquiet, hok⟩ := answer_quiet (Q := Q) hr fun o seq event hl =>
        h.stored event (hload _ _ _ _ hl)
      exact ⟨quiet_good h hquiet hok, hok⟩
    · obtain rfl := Option.some.inj hr
      exact ⟨quiet_good h (.refl m.ctx) allOk_nil, allOk_nil⟩

theorem call_good (h : Good Q i m) (hown : ∀ seq, Q i seq → Has m.handed i seq)
    (hload : ∀ stored o seq event, load stored o seq = some event → event ∈ stored) {call : Call}
    (hcall : ∀ msg, call = .handleMsg msg → MsgGood Q m.ctx msg) (hr : call.run load m = some r)
    (hQ : ∀ o seq, Q o seq → Q' o seq) (hown' : ∀ seq, Has (m.after r).handed i seq → Q' i seq) :
    Good Q' i (m.after r) ∧ AllOk Q' r.2 := by
  have hgood := h.mono hQ
  cases call with
  | addNeighbor id =>
    obtain rfl := Option.some.inj hr
    exact ⟨quiet_good hgood (addNeighbor_quiet m.ctx id) allOk_nil, allOk_nil⟩
  | removeNeighbor id =>
    obtain rfl := Option.some.inj hr
    exact ⟨quiet_good hgood (removeNeighbor_quiet m.ctx id) allOk_nil, allOk_nil⟩
  | emit now eventType payload =>
    obtain rfl := Option.some.inj hr
    exact emit_good h now eventType payload hQ hown'
  | tick now =>
    obtain rfl := Option.some.inj hr
    have hok := tick_ok now hgood.pending
    exact ⟨quiet_good hgood (tick_quiet m.ctx now) hok, hok⟩
  | handleMsg msg =>
    obtain ⟨h1, h2⟩ := handleMsg_good h hown hload (hcall msg rfl) hr
    refine ⟨h1.mono hQ, fun o ho => ?_⟩
    have hok := h2 o ho
    cases o with
    | send dest msg =>
      cases msg with
      | gossip msg => exact fun e he => hQ _ _ (hok e he)
      | ack => trivial
      | request req => exact hok
    | store event => exact hQ _ _ hok
    | onEvent event => exact hQ _ _ hok

end Gossip
end EkKor
