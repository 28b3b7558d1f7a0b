import EkKor.Module.Model
import EkKor.Module.Election
import EkKor.Module.Detector

/-!
# The life of a module

Runs of one module that was initialised: messages and callbacks are moments, each with the topology
before it and after it.

* `Op`, `life`        the calls, with the moments as outputs;
* `Sound`             what holds in every state: a sane topology and a heartbeat engine in order;
* `Moves`             all that a moment can do with the known modules;
* `receive_moves`, `callback_moves`, `finish_frame`   what the phases of a tick do.
-/

namespace EkKor
namespace Module
open Runs List
open EkKor.Topology (ids)

/-! ## moments -/

/-- what reaches the topology: a message that is processed, or a callback of phase 2 -/
inductive Event where
  | received (message : Message)
  | called (out : Heartbeat.Out)

structure Moment where
  event : Event
  before : Topology
  after : Topology

def moments {ι : Type} (step : Statics × Module → ι → (Statics × Module) × List Out)
    (event : ι → Event) : Statics × Module → List ι → List Moment
  | _, [] => []
  | s, i :: is =>
    ⟨event i, s.2.topology, (step s i).1.2.topology⟩ :: moments step event (step s i).1 is

def heard (s : Statics × Module) (now : TimeUs) (rxs : List Rx) : Statics × Module :=
  (processRxMessages now (s.1, counted s.2)).run (rxs.take maxMessages)

def beaten (s : Statics × Module) (now : TimeUs) (rxs : List Rx) (hal : Hal) : Statics × Module :=
  (callbacks hal.callback (beat now hal (heard s now rxs)).1).run (beat now hal (heard s now rxs)).2

variable {s : Statics × Module} {cb : Heartbeat.Callbacks} {hb : Heartbeat}
  (time : ModuleId → TimeUs)

theorem tick_idle (h : Idle s.2) (now : TimeUs) (rxs : List Rx) (hal : Hal) :
    tick s now rxs hal = (s, []) := if_pos h

theorem tick_running (h : ¬Idle s.2) (now : TimeUs) (rxs : List Rx) (hal : Hal) :
    (tick s now rxs hal).1 = (finish now hal (beaten s now rxs hal)).1 := by
  unfold tick beaten heard
  rw [if_neg h]

def tickMoments (s : Statics × Module) (now : TimeUs) (rxs : List Rx) (hal : Hal) : List Moment :=
  if Idle s.2 then []
  else
    moments (receive now) (fun rx => .received rx.message) (s.1, counted s.2)
        (rxs.take maxMessages) ++
      moments (callback hal.callback) .called (beat now hal (heard s now rxs)).1
        (beat now hal (heard s now rxs)).2

theorem tickMoments_running (h : ¬Idle s.2) (now : TimeUs) (rxs : List Rx) (hal : Hal) :
    tickMoments s now rxs hal =
      moments (receive now) (fun rx => .received rx.message) (s.1, counted s.2)
          (rxs.take maxMessages) ++
        moments (callback hal.callback) .called (beat now hal (heard s now rxs)).1
          (beat now hal (heard s now rxs)).2 := if_neg h

/-! ## runs -/

inductive Op where
  | start (time : TimeUs)
  | stop
  | tick (now : TimeUs) (rxs : List Rx) (hal : Hal)

def sampleTick (now : TimeUs) (messages : List Message) : Op :=
  .tick now (messages.map fun m => ⟨m, now⟩)
    ⟨fun _ => now, .ok (), now, fun _ => now, now, now, now, now⟩

theorem start_topology (mod : Module) (time : TimeUs) :
    (start mod time).2.topology = mod.topology := by
  unfold start
  split_ifs <;> rfl

def watch (s : Statics × Module) : Op → (Statics × Module) × List Moment
  | .start time => ((s.1, (start s.2 time).2), [])
  | .stop => ((s.1, stop s.2), [])
  | .tick now rxs hal => ((tick s now rxs hal).1, tickMoments s now rxs hal)

def life (s : Statics × Module) : Machine (Statics × Module) Op Moment := ⟨s, watch⟩

/-! ## what holds in every state -/

def Counted (hb : Heartbeat) : Prop :=
  ∀ n ∈ hb.neighbors, n.health = .suspect ∨ n.health = .dead → n.missedCount ≠ 0

structure Sound (s : Statics × Module) : Prop where
  topology : Topology.Sane s.1.topology s.2.topology
  records : Heartbeat.Sound s.1.heartbeat
  counted : Counted s.1.heartbeat

theorem Sound.congr {s' : Statics × Module} (h : Sound s) (hstatics : s'.1 = s.1)
    (htopology : s'.2.topology = s.2.topology) : Sound s' := by
  refine ⟨?_, ?_, ?_⟩
  · rw [hstatics, htopology]
    exact h.topology
  · rw [hstatics]
    exact h.records
  · rw [hstatics]
    exact h.counted

def Moves (before after : Topology) : Event → Prop
  | .received (.heartbeat senderId _) =>
    ∀ id ∈ after.allKnown, id = senderId ∨ id ∈ before.allKnown
  | .received (.discovery senderId _) =>
    ∀ id ∈ after.allKnown, id = senderId ∨ id ∈ before.allKnown
  | .received _ => after = before
  | .called (.dead id) =>
    after.allKnown ⊆ before.allKnown ∧ (id ∈ ids before → id ∉ after.allKnown)
  | .called (.alive _) => False
  | .called _ => after = before

variable (now : TimeUs)

theorem init_sound {g g' : Statics} {mod mod' : Module} {id : ModuleId}
    {position : Topology.Position} (h : init g mod id position = (.ok (), g', mod')) :
    Sound (g', mod') ∧ g'.heartbeat.neighbors = [] := by
  unfold init at h
  by_cases hid : id = invalidModuleId
  · rw [if_pos hid] at h
    cases h
  rw [if_neg hid] at h
  have htopology : Topology.init id position none = .ok _ := if_neg hid
  have hconsensus : Consensus.init id none = .ok _ := if_neg hid
  have hheartbeat : Heartbeat.init id none = .ok _ := if_neg hid
  rw [htopology, hconsensus, hheartbeat] at h
  cases h
  exact ⟨⟨Topology.init_sane htopology _, Heartbeat.setCallbacks_sound hheartbeat _,
    fun n hn => absurd hn not_mem_nil⟩, rfl⟩

/-! ## the heartbeat engine -/

theorem countMissed_pos (config : Heartbeat.Config) (n : Heartbeat.Neighbor)
    (h : n.missedCount ≠ 0) : (Heartbeat.countMissed config now n).missedCount ≠ 0 := by
  intro hzero
  have hcount := Heartbeat.countMissed_toNat config now n
  rw [hzero] at hcount
  have hpos : n.missedCount.toNat ≠ 0 := fun he => h (UInt8.toNat_inj.mp he)
  have hle := Nat.le_max_left n.missedCount.toNat
    (min 255 (Heartbeat.missedBeats config now n).toNat)
  rw [← hcount] at hle
  exact hpos (Nat.le_zero.mp hle)

theorem alive_of_call {id id' : ModuleId} {h : Health} (hcall : .alive id' ∈ cb.call id h) :
    h = .alive := by
  cases h with
  | unknown => exact absurd hcall not_mem_nil
  | alive => rfl
  | suspect =>
    dsimp only [Heartbeat.Callbacks.call] at hcall
    split_ifs at hcall
    · cases mem_singleton.mp hcall
    · exact absurd hcall not_mem_nil
  | dead =>
    dsimp only [Heartbeat.Callbacks.call] at hcall
    split_ifs at hcall
    · cases mem_singleton.mp hcall
    · exact absurd hcall not_mem_nil

theorem check_counted {config : Heartbeat.Config} {n : Heartbeat.Neighbor}
    (h : n.health = .suspect ∨ n.health = .dead → n.missedCount ≠ 0) :
    ((Heartbeat.checkNeighbor config cb now n).1.health = .suspect ∨
        (Heartbeat.checkNeighbor config cb now n).1.health = .dead →
      (Heartbeat.checkNeighbor config cb now n).1.missedCount ≠ 0) ∧
    ∀ id, .alive id ∉ (Heartbeat.checkNeighbor config cb now n).2 := by
  unfold Heartbeat.checkNeighbor
  by_cases hunknown : n.health = .unknown
  · rw [if_pos hunknown]
    exact ⟨h, fun id hid => absurd hid not_mem_nil⟩
  rw [if_neg hunknown]
  dsimp only
  have hhealth := (Heartbeat.countMissed_frame config now n).2
  unfold Heartbeat.setNeighborHealth Heartbeat.healthOf
  by_cases hzero : (Heartbeat.countMissed config now n).missedCount = 0
  · -- then nothing was missed before, and the neighbor was alive
    have halive : n.health = .alive := by
      have hnone : ¬n.missedCount ≠ 0 := fun hpos => countMissed_pos now config n hpos hzero
      cases hn : n.health with
      | unknown => exact absurd hn hunknown
      | alive => rfl
      | suspect => exact absurd (h (.inl hn)) hnone
      | dead => exact absurd (h (.inr hn)) hnone
    rw [if_pos hzero, if_pos (hhealth.trans halive)]
    refine ⟨fun hbad => ?_, fun id hid => absurd hid not_mem_nil⟩
    rw [hhealth, halive] at hbad
    rcases hbad with hbad | hbad <;> cases hbad
  · refine ⟨fun _ => ?_, fun id hid => ?_⟩
    · split_ifs <;> exact hzero
    · split_ifs at hid
      · exact absurd hid not_mem_nil
      · cases alive_of_call (h := .suspect) hid
      · exact absurd hid not_mem_nil
      · cases alive_of_call (h := .dead) hid

theorem tick_counted (h : Counted hb) (sent : Except Err Unit) (time : TimeUs) :
    Counted (Heartbeat.tick hb now sent time).2.1 ∧
      ∀ id, .alive id ∉ (Heartbeat.tick hb now sent time).2.2 := by
  have hneighbors : ∀ m ∈ hb.neighbors.map fun n =>
      (Heartbeat.checkNeighbor hb.config hb.callbacks now n).1,
      m.health = .suspect ∨ m.health = .dead → m.missedCount ≠ 0 := by
    intro m hm
    obtain ⟨n, hn, rfl⟩ := mem_map.mp hm
    exact (check_counted now (h n hn)).1
  have houts (id : ModuleId) : .alive id ∉ hb.neighbors.flatMap fun n =>
      (Heartbeat.checkNeighbor hb.config hb.callbacks now n).2 := by
    intro hmem
    obtain ⟨n, hn, hid⟩ := mem_flatMap.mp hmem
    exact (check_counted now (h n hn)).2 id hid
  unfold Heartbeat.tick
  dsimp only
  split_ifs
  · refine ⟨hneighbors, fun id hid => ?_⟩
    rcases mem_append.mp hid with hid | hid
    · exact houts id hid
    · cases mem_singleton.mp hid
  · exact ⟨hneighbors, houts⟩

theorem received_counted (h : Counted hb) (senderId : ModuleId) (sequence : UInt8) :
    Counted (Heartbeat.received hb senderId sequence now).2.1 := by
  unfold Heartbeat.received
  by_cases hinvalid : senderId = invalidModuleId
  · rw [if_pos hinvalid]
    exact h
  rw [if_neg hinvalid]
  cases Heartbeat.findNeighborIndex hb senderId with
  | none => exact h
  | some idx =>
    dsimp only
    cases hb.neighbors[idx]? with
    | none => exact h
    | some n =>
      intro m hm hbad
      rcases mem_or_eq_of_mem_set hm with hm | rfl
      · exact h m hm hbad
      · rw [Heartbeat.setNeighborHealth_health] at hbad
        rcases hbad with hbad | hbad <;> cases hbad

theorem received_outs (hb : Heartbeat) (senderId : ModuleId) (sequence : UInt8) :
    ∀ out ∈ (Heartbeat.received hb senderId sequence now).2.2, out = .alive senderId := by
  unfold Heartbeat.received
  by_cases hinvalid : senderId = invalidModuleId
  · rw [if_pos hinvalid]
    exact fun out hout => absurd hout not_mem_nil
  rw [if_neg hinvalid]
  cases hi : Heartbeat.findNeighborIndex hb senderId with
  | none => exact fun out hout => absurd hout not_mem_nil
  | some idx =>
    obtain ⟨n, hn, hlookup⟩ := Keyed.index_eq_some hi
    have hid : n.id = senderId := (Keyed.mem_of_lookup hlookup).2
    dsimp only
    rw [hn]
    intro out hout
    dsimp only at hout
    unfold Heartbeat.setNeighborHealth at hout
    split_ifs at hout
    · exact absurd hout not_mem_nil
    · dsimp only [Heartbeat.Callbacks.call] at hout
      split_ifs at hout
      · rw [mem_singleton.mp hout]
        exact congrArg Heartbeat.Out.alive hid
      · exact absurd hout not_mem_nil

theorem add_counted (h : Counted hb) (id : ModuleId) : Counted (Heartbeat.addNeighbor hb id).2 := by
  unfold Heartbeat.addNeighbor
  by_cases hinvalid : id = invalidModuleId
  · rw [if_pos hinvalid]
    exact h
  rw [if_neg hinvalid]
  cases Heartbeat.findNeighborIndex hb id with
  | some _ => exact h
  | none =>
    split_ifs
    · exact h
    · intro m hm hbad
      rcases mem_append.mp hm with hm | hm
      · exact h m hm hbad
      · rw [mem_singleton.mp hm] at hbad
        rcases hbad with hbad | hbad <;> cases hbad

/-! ## the topology -/

theorem callback_heartbeat (s : Statics × Module) (out : Heartbeat.Out) :
    (callback time s out).1.1.heartbeat = s.1.heartbeat := by
  cases out <;> rfl

theorem callbacks_heartbeat (s : Statics × Module) (outs : List Heartbeat.Out) :
    ((callbacks time s).run outs).1.heartbeat = s.1.heartbeat := by
  induction outs using List.reverseRecOn with
  | nil => rfl
  | append_singleton outs out ih =>
    rw [Machine.run_concat]
    exact (callback_heartbeat ..).trans ih

theorem callbacks_alive {senderId : ModuleId} {outs : List Heartbeat.Out}
    (hs : Topology.Sane s.1.topology s.2.topology) (houts : ∀ out ∈ outs, out = .alive senderId) :
    Topology.Sane ((callbacks time s).run outs).1.topology ((callbacks time s).run outs).2.topology ∧
      ∀ id ∈ ((callbacks time s).run outs).2.topology.allKnown,
        id = senderId ∨ id ∈ s.2.topology.allKnown := by
  induction outs using List.reverseRecOn with
  | nil => exact ⟨hs, fun id hid => .inr hid⟩
  | append_singleton outs out ih =>
    obtain ⟨hsane, hgrow⟩ := ih fun o ho => houts o (mem_append_left _ ho)
    obtain rfl := houts out (mem_append_right _ mem_cons_self)
    rw [Machine.run_concat]
    obtain ⟨hsane', hgrow'⟩ := Topology.discovered hsane senderId ⟨0, 0, 0⟩ (time senderId)
    exact ⟨hsane', fun id hid => (hgrow' id hid).elim .inl (hgrow id)⟩

/-- **A message.** -/
theorem receive_moves (hs : Sound s) (rx : Rx) :
    Sound (receive now s rx).1 ∧
      Moves s.2.topology (receive now s rx).1.2.topology (.received rx.message) := by
  obtain ⟨message, time⟩ := rx
  cases message with
  | heartbeat senderId sequence =>
    obtain ⟨hsound, -⟩ := Heartbeat.received_eq hs.records senderId sequence now
    have hcounted := received_counted now hs.counted senderId sequence
    have houts := received_outs now s.1.heartbeat senderId sequence
    have hcalled := callbacks_heartbeat (fun _ => time)
      ({ s.1 with heartbeat := (Heartbeat.received s.1.heartbeat senderId sequence now).2.1 }, s.2)
      (Heartbeat.received s.1.heartbeat senderId sequence now).2.2
    obtain ⟨hsane, hgrow⟩ := callbacks_alive (s :=
      ({ s.1 with heartbeat := (Heartbeat.received s.1.heartbeat senderId sequence now).2.1 }, s.2))
      (fun _ => time) hs.topology houts
    exact ⟨⟨hsane, hcalled ▸ hsound, hcalled ▸ hcounted⟩, hgrow⟩
  | discovery senderId position =>
    obtain ⟨hsane, hgrow⟩ := Topology.discovered hs.topology senderId position time
    exact ⟨⟨hsane, (Heartbeat.addNeighbor_eq hs.records senderId).1, add_counted hs.counted senderId⟩,
      hgrow⟩
  | proposal => exact ⟨⟨hs.topology, hs.records, hs.counted⟩, rfl⟩
  | vote => exact ⟨⟨hs.topology, hs.records, hs.counted⟩, rfl⟩
  | field => exact ⟨hs, rfl⟩
  | other => exact ⟨hs, rfl⟩

/-- **A callback of phase 2.** -/
theorem callback_moves (hs : Sound s) (time : ModuleId → TimeUs) (out : Heartbeat.Out)
    (hout : ∀ id, out ≠ .alive id) :
    Sound (callback time s out).1 ∧
      Moves s.2.topology (callback time s out).1.2.topology (.called out) := by
  cases out with
  | alive id => exact absurd rfl (hout id)
  | suspect id => exact ⟨hs, rfl⟩
  | dead id =>
    obtain ⟨hsane, hmoves⟩ := Topology.lost hs.topology id (time id)
    exact ⟨⟨hsane, hs.records, hs.counted⟩, hmoves⟩
  | broadcast => exact ⟨hs, rfl⟩

theorem beat_sound (hs : Sound s) (hal : Hal) :
    Sound (beat now hal s).1 ∧ (beat now hal s).1.2.topology = s.2.topology ∧
      ∀ id, .alive id ∉ (beat now hal s).2 := by
  obtain ⟨hcounted, halive⟩ := tick_counted now hs.counted hal.sent hal.sendTime
  obtain ⟨hsound, -⟩ := Heartbeat.tick_eq hs.records now hal.sent hal.sendTime
  exact ⟨⟨hs.topology, hsound, hcounted⟩, rfl, halive⟩

theorem schedule_frame (hal : Hal) (s : Statics × Module) :
    (schedule now hal s).1.1 = s.1 ∧ (schedule now hal s).1.2.topology = s.2.topology := by
  unfold schedule runTask
  dsimp only
  split_ifs
  · split
    · exact ⟨rfl, rfl⟩
    · split_ifs <;> exact ⟨rfl, rfl⟩
  · exact ⟨rfl, rfl⟩

theorem publishField_frame (hal : Hal) (s : Statics × Module) :
    (publishField now hal s).1.heartbeat = s.1.heartbeat ∧
      (publishField now hal s).1.topology = s.1.topology ∧
      (publishField now hal s).2.topology = s.2.topology := by
  unfold publishField
  dsimp only
  split <;> exact ⟨rfl, rfl, rfl⟩

theorem finish_frame (hs : Sound s) (hal : Hal) :
    Sound (finish now hal s).1 ∧ (finish now hal s).1.1.heartbeat = s.1.heartbeat ∧
      (finish now hal s).1.2.topology.neighbors = s.2.topology.neighbors ∧
      (finish now hal s).1.2.topology.allKnown = s.2.topology.allKnown := by
  have hsane := Topology.tick_sane hs.topology now
  obtain ⟨hneighbors, hall, -⟩ := Topology.tick_frame s.1.topology s.2.topology now
  obtain ⟨hstatics, htopology⟩ := schedule_frame now hal
    (updateConsensus now (sampleFields hal (updateTopology now s).1)).1
  obtain ⟨hheartbeat, hshared, htopology'⟩ := publishField_frame now hal
    (schedule now hal (updateConsensus now (sampleFields hal (updateTopology now s).1)).1).1
  rw [hstatics] at hheartbeat hshared
  rw [htopology] at htopology'
  have hfinal : (finish now hal s).1.2.topology =
      (Topology.tick s.1.topology s.2.topology now).2.1 := htopology'
  have hfinalShared : (finish now hal s).1.1.topology =
      (Topology.tick s.1.topology s.2.topology now).1 := hshared
  have hfinalBeat : (finish now hal s).1.1.heartbeat = s.1.heartbeat := hheartbeat
  refine ⟨⟨?_, ?_, ?_⟩, hfinalBeat, ?_, ?_⟩
  · rw [hfinal, hfinalShared]
    exact hsane
  · rw [hfinalBeat]
    exact hs.records
  · rw [hfinalBeat]
    exact hs.counted
  · rw [hfinal, hneighbors]
  · rw [hfinal, hall]

end Module
end EkKor
