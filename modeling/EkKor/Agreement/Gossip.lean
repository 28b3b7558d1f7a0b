import EkKor.Rust.Gossip
import EkKor.Gossip.Delivery

/-!
# The two gossip engines

`ekk_gossip_handle_event` and `GossipContext::handle_event` on the same events.

* `SameGossip`              equal version vectors, buffers and counters;
* `GossipAgrees`            an event gets the same code from both and leaves them the same;
* `handleEvent_agrees`      one event;
* `gossip_agree_iff`        from fresh contexts every event agrees: always without overflow checks,
                            with them exactly in the runs of fewer than 2^32 events;
* `gossip_counter_panics`   2^32 duplicates with overflow checks.
-/

namespace EkKor
namespace Agreement
open Runs Gossip List
open Rust (GossipContext succU32)

/-! ## version vectors -/

theorem get_eq (vv : VersionVector) (m : ModuleId) :
    (Rust.VersionVector.mk vv).get m = vvGet vv m := by
  induction vv with
  | nil => rfl
  | cons entry rest ih =>
    rw [vvGet, ← ih]
    unfold Rust.VersionVector.get
    split_ifs with h
    · rw [show (entry :: rest).find? (fun e => e.moduleId = m) = some entry by simp [h]]
    · rw [show (entry :: rest).find? (fun e => e.moduleId = m) =
        rest.find? fun e => e.moduleId = m by simp [h]]

theorem write_eq (vv : VersionVector) (m : ModuleId) (seq : UInt32) :
    ((vv.findIdx? fun entry => entry.moduleId = m).map fun i =>
      vv.modify i fun entry => { entry with sequence := seq }) = vvWrite vv m seq := by
  induction vv with
  | nil => rfl
  | cons entry rest ih =>
    rw [vvWrite, ← ih, findIdx?_cons]
    by_cases h : entry.moduleId = m
    · rw [if_pos h, if_pos (decide_eq_true h)]
      rfl
    · rw [if_neg h, if_neg (by simpa using h), Option.map_map, Option.map_map]
      rfl

theorem put_eq (vv : VersionVector) (m : ModuleId) (seq : UInt32) :
    (Rust.VersionVector.mk vv).put m seq = ⟨vvPut vv m seq⟩ := by
  unfold Rust.VersionVector.put Rust.VersionVector.set vvPut vvSet
  rw [← write_eq]
  cases vv.findIdx? fun entry => entry.moduleId = m with
  | some i => rfl
  | none =>
    split_ifs <;> rfl

/-! ## additions that fit -/

theorem succU32_of_lt (checks : Bool) {n : UInt32} (h : checks = true → n < 0xFFFFFFFF) :
    succU32 checks n = some (n + 1) := by
  unfold succU32
  cases checks with
  | false => rfl
  | true =>
    have hne : n ≠ 0xFFFFFFFF := by
      rintro rfl
      exact absurd (h rfl) (by decide)
    rw [if_neg (by simpa using hne)]

def BelowLast (vv : VersionVector) : Prop := ∀ m, vvGet vv m < 0xFFFFFFFF

variable {vv : VersionVector} {buffered : List EventV2} {c : Ctx} {event : EventV2}
  {pre : List (EventV2 × ModuleId)}

theorem belowLast_vvPut (h : BelowLast vv) (m : ModuleId) {seq : UInt32} (hseq : seq < 0xFFFFFFFF) :
    BelowLast (vvPut vv m seq) := by
  intro m'
  by_cases hroom : HasRoom vv m
  · rw [vvGet_vvPut hroom]
    split_ifs
    · exact hseq
    · exact h m'
  · rw [vvPut_noRoom hroom]
    exact h m'

theorem processBuffered_eq (checks : Bool) (h : BelowLast vv)
    (hbuf : ∀ b ∈ buffered, b.originSeq < 0xFFFFFFFF) :
    GossipContext.processBuffered checks ⟨vv⟩ buffered =
        some (⟨(drain vv buffered).1⟩, (drain vv buffered).2.1) ∧
      BelowLast (drain vv buffered).1 := by
  induction buffered generalizing vv with
  | nil => exact ⟨rfl, h⟩
  | cons b rest ih =>
    have hb := hbuf b mem_cons_self
    have hrest := fun b' hb' => hbuf b' (mem_cons_of_mem b hb')
    rw [GossipContext.processBuffered, get_eq, succU32_of_lt checks fun _ => h b.originId,
      Option.bind_some, put_eq, drain]
    split_ifs with hnext
    · exact ih (belowLast_vvPut h b.originId hb) hrest
    · obtain ⟨h1, h2⟩ := ih h hrest
      rw [h1]
      exact ⟨rfl, h2⟩

/-! ## one event -/

/-- equal version vectors, buffered events and counters -/
structure SameGossip (c : Ctx) (r : GossipContext) : Prop where
  vv : r.vv = ⟨c.vv⟩
  buffered : r.bufferedEvents = c.bufferedEvents
  received : r.stats.eventsReceived = c.stats.eventsReceived
  duplicates : r.stats.duplicates = c.stats.duplicates
  gaps : r.stats.gapsDetected = c.stats.gapsDetected
  ttlExpired : r.stats.ttlExpired = c.stats.ttlExpired

/-- no sequence of the context is the last one -/
structure SeqsBelow (c : Ctx) : Prop where
  vv : BelowLast c.vv
  buffered : ∀ b ∈ c.bufferedEvents, b.originSeq < 0xFFFFFFFF

/-- no counter that the event handler raises is at its end -/
structure CountersBelow (stats : Stats) : Prop where
  received : stats.eventsReceived < 0xFFFFFFFF
  duplicates : stats.duplicates < 0xFFFFFFFF
  gaps : stats.gapsDetected < 0xFFFFFFFF
  ttlExpired : stats.ttlExpired < 0xFFFFFFFF

theorem accept_agrees (checks : Bool) {r : GossipContext} (hvv : r.vv = ⟨c.vv⟩)
    (hbuffered : r.bufferedEvents = c.bufferedEvents)
    (hreceived : r.stats.eventsReceived = c.stats.eventsReceived + 1)
    (hduplicates : r.stats.duplicates = c.stats.duplicates)
    (hgaps : r.stats.gapsDetected = c.stats.gapsDetected)
    (httlExpired : r.stats.ttlExpired = c.stats.ttlExpired) (hbelow : SeqsBelow c)
    (hseq : event.originSeq < 0xFFFFFFFF) (hcount : checks = true → CountersBelow c.stats)
    (sent : UInt32) :
    ∃ r', GossipContext.accept checks r event = some r' ∧
      SameGossip
        { accepting c event with
          vv := (drain (vvPut c.vv event.originId event.originSeq) c.bufferedEvents).1
          bufferedEvents :=
            (drain (vvPut c.vv event.originId event.originSeq) c.bufferedEvents).2.1
          stats := { (accepting c event).stats with eventsSent := sent } } r' := by
  obtain ⟨hdrain, _⟩ := processBuffered_eq checks
    (belowLast_vvPut hbelow.vv event.originId hseq) hbelow.buffered
  have httl : (if event.hopCount ≥ Rust.gossipMaxHops then succU32 checks r.stats.ttlExpired
      else some r.stats.ttlExpired) = some (accepting c event).stats.ttlExpired := by
    rw [httlExpired]
    unfold accepting
    split_ifs
    · exact succU32_of_lt checks fun hc => (hcount hc).ttlExpired
    · rfl
  have hcounters : (accepting c event).stats.eventsReceived = c.stats.eventsReceived + 1 ∧
      (accepting c event).stats.duplicates = c.stats.duplicates ∧
      (accepting c event).stats.gapsDetected = c.stats.gapsDetected := by
    unfold accepting
    split_ifs <;> exact ⟨rfl, rfl, rfl⟩
  unfold GossipContext.accept GossipContext.processBufferedEvents
  rw [httl, Option.bind_some, hvv, hbuffered, put_eq, hdrain]
  exact ⟨_, rfl, ⟨rfl, rfl, hreceived.trans hcounters.1.symm,
    hduplicates.trans hcounters.2.1.symm, hgaps.trans hcounters.2.2.symm, rfl⟩⟩

theorem handleEvent_agrees (checks : Bool) {r : GossipContext} (sender : ModuleId)
    (h : SameGossip c r) (hbelow : SeqsBelow c) (hseq : event.originSeq < 0xFFFFFFFF)
    (hcount : checks = true → CountersBelow c.stats) :
    ∃ r', r.handleEvent checks event sender = some ((handleEvent c event sender).1, r') ∧
      SameGossip (handleEvent c event sender).2.1 r' := by
  obtain ⟨myId, vv, localSequence, neighbors, pendingEvents, bufferedEvents, lastGossipTick,
    lastSync, sent₀, received, duplicates, gapsDetected, gapsFilled, ttlExpired⟩ := r
  obtain ⟨rfl, rfl, rfl, rfl, rfl, rfl⟩ := h
  unfold GossipContext.handleEvent
  dsimp only
  rw [succU32_of_lt checks fun hc => (hcount hc).received, Option.bind_some, get_eq,
    succU32_of_lt checks fun hc => (hcount hc).duplicates,
    succU32_of_lt checks fun hc => (hcount hc).gaps]
  by_cases hknown : event.originSeq ≤ vvGet c.vv event.originId
  · rw [handleEvent_known sender hknown, if_pos hknown]
    exact ⟨_, rfl, ⟨rfl, rfl, rfl, rfl, rfl, rfl⟩⟩
  · rw [if_neg hknown, succU32_of_lt checks fun _ => hbelow.vv event.originId, Option.bind_some]
    by_cases hearly : event.originSeq > vvGet c.vv event.originId + 1
    · rw [handleEvent_early sender hknown hearly, if_pos hearly]
      exact ⟨_, rfl, ⟨rfl, rfl, rfl, rfl, rfl, rfl⟩⟩
    · obtain ⟨sent, heq⟩ := handleEvent_next sender hknown hearly
      rw [heq, if_neg hearly]
      obtain ⟨r', hr', hsame⟩ := accept_agrees checks
        (r := ⟨myId, ⟨c.vv⟩, localSequence, neighbors, pendingEvents, c.bufferedEvents,
          lastGossipTick, lastSync, ⟨sent₀, c.stats.eventsReceived + 1, c.stats.duplicates,
            c.stats.gapsDetected, gapsFilled, c.stats.ttlExpired⟩⟩)
        rfl rfl rfl rfl rfl rfl hbelow hseq hcount sent
      rw [hr']
      exact ⟨r', rfl, hsame⟩

/-! ## what one event keeps -/

theorem belowLast_drain (h : BelowLast vv) (hbuf : ∀ b ∈ buffered, b.originSeq < 0xFFFFFFFF) :
    BelowLast (drain vv buffered).1 :=
  (processBuffered_eq false h hbuf).2

theorem handleEvent_seqsBelow (sender : ModuleId) (h : SeqsBelow c)
    (hseq : event.originSeq < 0xFFFFFFFF) : SeqsBelow (handleEvent c event sender).2.1 := by
  by_cases hknown : event.originSeq ≤ vvGet c.vv event.originId
  · rw [handleEvent_known sender hknown]
    exact ⟨h.vv, h.buffered⟩
  · by_cases hearly : event.originSeq > vvGet c.vv event.originId + 1
    · rw [handleEvent_early sender hknown hearly]
      refine ⟨h.vv, fun b hb => ?_⟩
      split_ifs at hb
      · rcases mem_append.mp hb with hb | hb
        · exact h.buffered b hb
        · rw [mem_singleton.mp hb]
          exact hseq
      · exact h.buffered b hb
    · obtain ⟨sent, heq⟩ := handleEvent_next sender hknown hearly
      rw [heq]
      exact ⟨belowLast_drain (belowLast_vvPut h.vv event.originId hseq) h.buffered,
        fun b hb => h.buffered b ((drain_sublist _ _).subset hb)⟩

/-- after `n` events: all of them are counted, and no other counter is higher -/
structure Counted (n : Nat) (stats : Stats) : Prop where
  received : stats.eventsReceived = UInt32.ofNat n
  duplicates : stats.duplicates.toNat ≤ n
  gaps : stats.gapsDetected.toNat ≤ n
  ttlExpired : stats.ttlExpired.toNat ≤ n

theorem toNat_succ_le {x : UInt32} {n : Nat} (h : x.toNat ≤ n) : (x + 1).toNat ≤ n + 1 := by
  show (x.toNat + 1) % 2 ^ 32 ≤ n + 1
  omega

theorem handleEvent_counted {n : Nat} (event : EventV2) (sender : ModuleId) (h : Counted n c.stats) :
    Counted (n + 1) (handleEvent c event sender).2.1.stats := by
  have hreceived : c.stats.eventsReceived + 1 = UInt32.ofNat (n + 1) := by
    rw [h.received, UInt32.ofNat_add]
    rfl
  have hduplicates := Nat.le_succ_of_le h.duplicates
  have hgaps := Nat.le_succ_of_le h.gaps
  have httl := Nat.le_succ_of_le h.ttlExpired
  by_cases hknown : event.originSeq ≤ vvGet c.vv event.originId
  · rw [handleEvent_known sender hknown]
    exact ⟨hreceived, toNat_succ_le h.duplicates, hgaps, httl⟩
  · by_cases hearly : event.originSeq > vvGet c.vv event.originId + 1
    · rw [handleEvent_early sender hknown hearly]
      exact ⟨hreceived, hduplicates, toNat_succ_le h.gaps, httl⟩
    · obtain ⟨sent, heq⟩ := handleEvent_next sender hknown hearly
      rw [heq]
      unfold accepting
      split_ifs
      · exact ⟨hreceived, hduplicates, hgaps, toNat_succ_le h.ttlExpired⟩
      · exact ⟨hreceived, hduplicates, hgaps, httl⟩

theorem Counted.below {n : Nat} {stats : Stats} (h : Counted n stats) (hn : n < 2 ^ 32 - 1) :
    CountersBelow stats := by
  have hreceived : stats.eventsReceived.toNat = n := by
    rw [h.received]
    exact Nat.mod_eq_of_lt (by omega)
  have hlast : (0xFFFFFFFF : UInt32).toNat = 2 ^ 32 - 1 := rfl
  refine ⟨?_, ?_, ?_, ?_⟩ <;> rw [UInt32.lt_iff_toNat_lt, hlast]
  · omega
  · exact Nat.lt_of_le_of_lt h.duplicates hn
  · exact Nat.lt_of_le_of_lt h.gaps hn
  · exact Nat.lt_of_le_of_lt h.ttlExpired hn

/-! ## runs -/

/-- the context of the Rust engine after the events, `none` when one of them made it panic -/
def rustRun (checks : Bool) (myId : ModuleId) (es : List (EventV2 × ModuleId)) :
    Option GossipContext :=
  es.foldlM (fun r x => (r.handleEvent checks x.1 x.2).map Prod.snd) (GossipContext.new myId)

theorem rustRun_concat (checks : Bool) (myId : ModuleId) (es : List (EventV2 × ModuleId))
    (x : EventV2 × ModuleId) :
    rustRun checks myId (es ++ [x]) =
      (rustRun checks myId es).bind fun r => (r.handleEvent checks x.1 x.2).map Prod.snd := by
  unfold rustRun
  rw [foldlM_append]
  simp only [foldlM_cons, foldlM_nil, bind_pure]
  rfl

/-- after the events `pre` the event of `x` gets the same code from both engines and leaves them
the same -/
def GossipAgrees (checks : Bool) (start : Ctx) (pre : List (EventV2 × ModuleId))
    (x : EventV2 × ModuleId) : Prop :=
  ∃ r r', rustRun checks start.myId pre = some r ∧
    r.handleEvent checks x.1 x.2 =
      some ((handleEvent ((receiver start).run pre) x.1 x.2).1, r') ∧
    SameGossip (handleEvent ((receiver start).run pre) x.1 x.2).2.1 r'

/-- the engines are the same after the events, and so far nothing is near its end -/
structure GossipInStep (checks : Bool) (start : Ctx) (es : List (EventV2 × ModuleId)) : Prop where
  same : ∃ r, rustRun checks start.myId es = some r ∧ SameGossip ((receiver start).run es) r
  seqs : SeqsBelow ((receiver start).run es)
  counted : Counted es.length ((receiver start).run es).stats

/-- one more event, not the last sequence and, with overflow checks, not the 2^32-th event -/
def Countable (checks : Bool) (pre : List (EventV2 × ModuleId)) (x : EventV2 × ModuleId) : Prop :=
  x.1.originSeq < 0xFFFFFFFF ∧ (checks = true → pre.length < 2 ^ 32 - 1)

variable {checks : Bool} {myId : ModuleId} {start : Ctx}

theorem gossipInStep_nil (h : init myId = .ok start) : GossipInStep checks start [] := by
  unfold init at h
  split_ifs at h
  obtain rfl := Except.ok.inj h
  refine ⟨⟨_, rfl, ⟨rfl, rfl, rfl, rfl, rfl, rfl⟩⟩, ⟨fun m => ?_, fun b hb => ?_⟩,
    ⟨rfl, Nat.le_refl 0, Nat.le_refl 0, Nat.le_refl 0⟩⟩
  · show (if myId = m then 0 else 0 : UInt32) < 0xFFFFFFFF
    rw [ite_self]
    decide
  · cases hb

theorem gossipInStep_agrees (h : GossipInStep checks start pre) {x : EventV2 × ModuleId}
    (hx : Countable checks pre x) : GossipAgrees checks start pre x := by
  obtain ⟨r, hr, hsame⟩ := h.same
  obtain ⟨r', hr', hsame'⟩ := handleEvent_agrees checks x.2 hsame h.seqs hx.1
    fun hc => h.counted.below (hx.2 hc)
  exact ⟨r, r', hr, hr', hsame'⟩

theorem gossipInStep_run (h : init myId = .ok start) (es : List (EventV2 × ModuleId))
    (hes : EveryStep (Countable checks) es) : GossipInStep checks start es := by
  refine history_induction (gossipInStep_nil h) (fun pre x ih hx => ?_) es hes
  obtain ⟨r, r', hr, hr', hsame⟩ := gossipInStep_agrees ih hx
  refine ⟨⟨r', ?_, ?_⟩, ?_, ?_⟩
  · rw [rustRun_concat, hr, Option.bind_some, hr']
    rfl
  · rw [Machine.run_concat]
    exact hsame
  · rw [Machine.run_concat]
    exact handleEvent_seqsBelow x.2 ih.seqs hx.1
  · rw [Machine.run_concat, length_append]
    exact handleEvent_counted x.1 x.2 ih.counted

theorem countable_of_length {es : List (EventV2 × ModuleId)}
    (hseq : ∀ x ∈ es, x.1.originSeq < 0xFFFFFFFF) (hlen : checks = true → es.length < 2 ^ 32) :
    EveryStep (Countable checks) es := by
  intro pre x hp
  refine ⟨hseq x (hp.subset (mem_append_right pre (mem_singleton_self x))), fun hc => ?_⟩
  have hle := hp.length_le
  rw [length_append, length_singleton] at hle
  have hlt := hlen hc
  omega

theorem rust_panics (h : init myId = .ok start) (hlen : pre.length = 2 ^ 32 - 1)
    (hseq : ∀ x ∈ pre, x.1.originSeq < 0xFFFFFFFF) :
    ∃ r, rustRun true start.myId pre = some r ∧
      ∀ x : EventV2 × ModuleId, r.handleEvent true x.1 x.2 = none := by
  have hstep : GossipInStep true start pre :=
    gossipInStep_run h pre (countable_of_length hseq fun _ => by omega)
  obtain ⟨r, hr, hsame⟩ := hstep.same
  refine ⟨r, hr, fun x => ?_⟩
  have hlast : r.stats.eventsReceived = 0xFFFFFFFF := by
    rw [hsame.received, hstep.counted.received, hlen]
    rfl
  unfold GossipContext.handleEvent
  rw [hlast]
  rfl

/-- **Main.** On every sequence of received events, none with the last sequence, the engines give
the same codes and stay the same, event by event: in every case without overflow checks, and with
them exactly while fewer than 2^32 events are received. -/
theorem gossip_agree_iff (h : init myId = .ok start) (es : List (EventV2 × ModuleId))
    (hseq : ∀ x ∈ es, x.1.originSeq < 0xFFFFFFFF) :
    EveryStep (GossipAgrees checks start) es ↔ (checks = true → es.length < 2 ^ 32) := by
  constructor
  · intro hagree hc
    by_contra hlong
    have hsplit : es.take (2 ^ 32 - 1) ++ [es[2 ^ 32 - 1]] <+: es := by
      rw [take_append_getElem]
      exact take_prefix _ es
    have hlen : (es.take (2 ^ 32 - 1)).length = 2 ^ 32 - 1 := by
      rw [length_take]
      omega
    obtain ⟨r, hr, hpanic⟩ := rust_panics h hlen fun x hx => hseq x (take_subset _ es hx)
    obtain ⟨r₁, r', hr₁, hr', _⟩ := hagree _ _ hsplit
    rw [hc] at hr₁ hr'
    rw [hr, Option.some_inj] at hr₁
    rw [← hr₁, hpanic] at hr'
    cases hr'
  · intro hlen pre x hp
    have hall := countable_of_length hseq hlen
    exact gossipInStep_agrees (gossipInStep_run h pre (hall.initial ((prefix_append pre [x]).trans hp)))
      (hall pre x hp)

/-- events of two origins, with a gap and a repetition, in a build with overflow checks -/
theorem gossip_agree_iff_two : ∃ start, init 1 = .ok start ∧ EveryStep (GossipAgrees true start)
    [(eventOf 2 2, 2), (eventOf 3 1, 3), (eventOf 2 1, 2), (eventOf 2 1, 3)] :=
  ⟨_, rfl, (gossip_agree_iff (show init 1 = .ok _ from rfl) _ (by decide)).mpr
    fun _ => by decide⟩

/-- 2^32 copies of one event: with overflow checks the Rust engine panics at the last one, where
the C engine counts it as one more duplicate -/
theorem gossip_counter_panics : ∃ start, init 1 = .ok start ∧
    (∀ x ∈ List.replicate (2 ^ 32) (eventOf 2 1, (2 : ModuleId)), x.1.originSeq < 0xFFFFFFFF) ∧
    rustRun true 1 (List.replicate (2 ^ 32) (eventOf 2 1, 2)) = none ∧
    ¬ EveryStep (GossipAgrees true start) (List.replicate (2 ^ 32) (eventOf 2 1, 2)) := by
  have hseq (n : Nat) : ∀ x ∈ List.replicate n (eventOf 2 1, (2 : ModuleId)),
      x.1.originSeq < 0xFFFFFFFF := by
    intro x hx
    rw [eq_of_mem_replicate hx]
    decide
  have hsplit : List.replicate (2 ^ 32) (eventOf 2 1, (2 : ModuleId)) =
      List.replicate (2 ^ 32 - 1) (eventOf 2 1, 2) ++ [(eventOf 2 1, 2)] :=
    replicate_succ'
  obtain ⟨r, hr, hpanic⟩ := rust_panics (show init 1 = .ok _ from rfl)
    (length_replicate (n := 2 ^ 32 - 1)) (hseq _)
  refine ⟨_, rfl, hseq _, ?_, fun hagree => ?_⟩
  · rw [hsplit, rustRun_concat, hr, Option.bind_some, hpanic (eventOf 2 1, 2)]
    rfl
  · rw [hsplit] at hagree
    obtain ⟨r₁, r', hr₁, hr', _⟩ := ((everyStep_concat _ _ _).mp hagree).2
    rw [hr, Option.some_inj] at hr₁
    rw [← hr₁, hpanic (eventOf 2 1, 2)] at hr'
    cases hr'

end Agreement
end EkKor
