import EkKor.Module.Life

/-!
# The health of the neighbors

The topology keeps a health of its own for each neighbor, which nothing sets after the election.

* `Heard`            a heartbeat was processed after a discovery message;
* `Noted`            what the heartbeat engine knows about a module, in terms of the messages;
* `Mirrored`         the two healths are the same, and the field of the neighbor is aggregated
                     when it should be;
* `mirrored_iff`     this is so exactly for the neighbors that were not heard.
-/

namespace EkKor
namespace Module
open Runs List

/-! ## messages -/

def Event.message? : Event → Option Message
  | .received message => some message
  | .called _ => none

def processed (h : List Moment) : List Message := h.filterMap fun m => m.event.message?

def Heard (id : ModuleId) (ms : List Message) : Prop :=
  ∃ position sequence, [.discovery id position, .heartbeat id sequence].Sublist ms

variable {id : ModuleId} {ms : List Message} {o : Option Heartbeat.Neighbor}

theorem heard_concat (id : ModuleId) (ms : List Message) (m : Message) :
    Heard id (ms ++ [m]) ↔
      Heard id ms ∨ (∃ sequence, m = .heartbeat id sequence) ∧
        ∃ position, .discovery id position ∈ ms := by
  constructor
  · rintro ⟨position, sequence, hsub⟩
    obtain ⟨l₁, l₂, heq, hl₁, hl₂⟩ := sublist_append_iff.mp hsub
    rcases eq_nil_or_concat l₂ with rfl | ⟨l, last, rfl⟩
    · rw [append_nil] at heq
      exact .inl ⟨position, sequence, heq ▸ hl₁⟩
    · have hlen := hl₂.length_le
      rw [concat_eq_append, length_append, length_singleton, length_singleton]
        at hlen
      obtain rfl : l = [] := length_eq_zero_iff.mp (by omega)
      obtain ⟨rfl, hlast⟩ := append_inj' (show [_] ++ [_] = l₁ ++ [last] from heq) rfl
      obtain rfl := singleton_inj.mp hlast
      exact .inr ⟨⟨sequence, (mem_singleton.mp (hl₂.subset mem_cons_self)).symm⟩,
        position, hl₁.subset mem_cons_self⟩
  · rintro (⟨position, sequence, hsub⟩ | ⟨⟨sequence, rfl⟩, position, hmem⟩)
    · exact ⟨position, sequence, hsub.trans (sublist_append_left ..)⟩
    · exact ⟨position, sequence,
        (singleton_sublist.mpr hmem).append (List.Sublist.refl [_])⟩

/-! ## the heartbeat engine -/

/-- what the engine knows about a module -/
structure Noted (id : ModuleId) (ms : List Message) (o : Option Heartbeat.Neighbor) : Prop where
  tracked : o.isSome = true ↔ ∃ position, .discovery id position ∈ ms
  heard : (∃ n, o = some n ∧ n.health ≠ .unknown) ↔ Heard id ms

theorem noted_nil (id : ModuleId) : Noted id [] none where
  tracked := ⟨fun h => Bool.noConfusion h, fun ⟨_, h⟩ => absurd h not_mem_nil⟩
  heard := ⟨fun ⟨_, h, _⟩ => absurd h (by simp), fun ⟨_, _, h⟩ => absurd h (by simp)⟩

theorem Noted.other (h : Noted id ms o) {m : Message} (hd : ∀ position, m ≠ .discovery id position)
    (hh : ∀ sequence, m ≠ .heartbeat id sequence) : Noted id (ms ++ [m]) o where
  tracked := by
    rw [h.tracked]
    refine exists_congr fun position => ?_
    rw [mem_append, mem_singleton]
    exact ⟨.inl, fun hor => hor.resolve_right fun he => hd position he.symm⟩
  heard := by
    rw [h.heard, heard_concat]
    exact ⟨.inl, fun hor => hor.resolve_right fun hlast => hlast.1.elim hh⟩

theorem Noted.discovery (h : Noted id ms o) (position : Topology.Position) :
    Noted id (ms ++ [.discovery id position]) (some (o.getD (Heartbeat.newNeighbor id))) where
  tracked := ⟨fun _ => ⟨position, mem_append_right _ mem_cons_self⟩, fun _ => rfl⟩
  heard := by
    rw [heard_concat, ← h.heard]
    constructor
    · rintro ⟨n, hn, hhealth⟩
      cases o with
      | none =>
        obtain rfl := Option.some.inj hn
        exact absurd rfl hhealth
      | some n' => exact .inl ⟨n, hn, hhealth⟩
    · rintro (⟨n, rfl, hhealth⟩ | ⟨⟨_, he⟩, _⟩)
      · exact ⟨n, rfl, hhealth⟩
      · cases he

variable {f : Heartbeat.Neighbor → Heartbeat.Neighbor}

theorem Noted.heartbeat (h : Noted id ms o) (sequence : UInt8) (hf : ∀ n, (f n).health ≠ .unknown) :
    Noted id (ms ++ [.heartbeat id sequence]) (o.map f) where
  tracked := by
    rw [Option.isSome_map, h.tracked]
    refine exists_congr fun position => ?_
    rw [mem_append, mem_singleton]
    exact ⟨.inl, fun hor => hor.resolve_right fun he => nomatch he⟩
  heard := by
    rw [heard_concat, ← h.tracked]
    constructor
    · rintro ⟨n, hn, -⟩
      refine .inr ⟨⟨sequence, rfl⟩, ?_⟩
      rw [← Option.isSome_map (f := f), hn]
      rfl
    · rintro (hbefore | ⟨-, hsome⟩)
      · obtain ⟨n, rfl, -⟩ := h.heard.mpr hbefore
        exact ⟨f n, rfl, hf n⟩
      · obtain ⟨n, rfl⟩ := Option.isSome_iff_exists.mp hsome
        exact ⟨f n, rfl, hf n⟩

theorem Noted.tick (h : Noted id ms o) (hf : ∀ n, (f n).health = .unknown ↔ n.health = .unknown) :
    Noted id ms (o.map f) where
  tracked := by rw [Option.isSome_map, h.tracked]
  heard := by
    rw [← h.heard]
    cases o with
    | none =>
      constructor
      · rintro ⟨n, hn, -⟩
        cases hn
      · rintro ⟨n, hn, -⟩
        cases hn
    | some m =>
      constructor
      · rintro ⟨n, hn, hhealth⟩
        obtain rfl := Option.some.inj hn
        exact ⟨m, rfl, fun hm => hhealth ((hf m).mpr hm)⟩
      · rintro ⟨n, hn, hhealth⟩
        obtain rfl := Option.some.inj hn
        exact ⟨f m, rfl, fun hm => hhealth ((hf m).mp hm)⟩

theorem check_unknown (config : Heartbeat.Config) (cb : Heartbeat.Callbacks) (now : TimeUs)
    (n : Heartbeat.Neighbor) :
    (Heartbeat.checkNeighbor config cb now n).1.health = .unknown ↔ n.health = .unknown := by
  unfold Heartbeat.checkNeighbor
  split_ifs with h
  · exact ⟨fun _ => h, fun _ => h⟩
  · rw [Heartbeat.setNeighborHealth_health, Heartbeat.healthOf_eq]
    have hne := Heartbeat.healthAt_ne_unknown config
      (Heartbeat.countMissed config now n).missedCount.toNat
    exact ⟨fun hbad => absurd hbad hne, fun hbad => absurd hbad h⟩

/-! ## the loops of a tick -/

variable {s s' : Statics × Module} {h : List Moment}

def Informed (h : List Moment) (s : Statics × Module) : Prop :=
  ∀ id, id ≠ invalidModuleId → Noted id (processed h) (Heartbeat.find s.1.heartbeat id)

theorem Informed.congr (hi : Informed h s) (hs : s'.1.heartbeat = s.1.heartbeat) :
    Informed h s' := fun id hid => hs ▸ hi id hid

theorem processed_concat (h : List Moment) (message : Message) (before after : Topology) :
    processed (h ++ [⟨.received message, before, after⟩]) = processed h ++ [message] := by
  unfold processed
  rw [filterMap_append]
  rfl

theorem processed_called (h : List Moment) (time : ModuleId → TimeUs) (s : Statics × Module)
    (outs : List Heartbeat.Out) :
    processed (h ++ moments (callback time) .called s outs) = processed h := by
  unfold processed
  rw [filterMap_append]
  refine append_right_eq_self.mpr (filterMap_eq_nil_iff.mpr ?_)
  induction outs generalizing s with
  | nil => exact fun m hm => absurd hm not_mem_nil
  | cons out outs ih =>
    intro m hm
    rcases mem_cons.mp hm with rfl | hm
    · rfl
    · exact ih _ m hm

/-- **A message.** -/
theorem Informed.receive (hi : Informed h s) (hs : Sound s) (now : TimeUs) (rx : Rx) (before after : Topology) :
    Informed (h ++ [⟨.received rx.message, before, after⟩]) (receive now s rx).1 := by
  obtain ⟨message, time⟩ := rx
  intro id hid
  rw [processed_concat]
  cases message with
  | heartbeat senderId sequence =>
    have hcalled := callbacks_heartbeat (fun _ => time)
      ({ s.1 with heartbeat := (Heartbeat.received s.1.heartbeat senderId sequence now).2.1 }, s.2)
      (Heartbeat.received s.1.heartbeat senderId sequence now).2.2
    obtain ⟨-, -, -, hview⟩ := Heartbeat.received_eq hs.records senderId sequence now
    have hfind := (hview id).1
    rw [show (Module.receive now s ⟨.heartbeat senderId sequence, time⟩).1.1.heartbeat = _ from
      hcalled]
    rw [hfind]
    unfold Heartbeat.act
    by_cases hsender : senderId = id
    · subst hsender
      have hnoted := (hi senderId hid).heartbeat sequence
        (f := fun n => (Heartbeat.setNeighborHealth s.1.heartbeat.callbacks
          (Heartbeat.hear s.1.heartbeat.config n sequence now) .alive).1)
        fun n => by
          rw [Heartbeat.setNeighborHealth_health]
          exact fun he => Health.noConfusion he
      cases hold : Heartbeat.find s.1.heartbeat senderId with
      | none =>
        rw [hold] at hnoted
        exact hnoted
      | some n =>
        rw [hold] at hnoted
        dsimp only
        rw [if_pos rfl]
        exact hnoted
    · have hnoted := (hi id hid).other (m := .heartbeat senderId sequence)
        (fun _ he => nomatch he) fun _ he => hsender (Message.heartbeat.inj he).1
      cases hold : Heartbeat.find s.1.heartbeat id with
      | none =>
        rw [hold] at hnoted
        exact hnoted
      | some n =>
        rw [hold] at hnoted
        dsimp only
        rw [if_neg hsender]
        exact hnoted
  | discovery senderId position =>
    obtain ⟨-, -, -, hfind⟩ := Heartbeat.addNeighbor_eq hs.records senderId
    show Noted id _ (Heartbeat.find (Heartbeat.addNeighbor s.1.heartbeat senderId).2 id)
    rw [hfind]
    by_cases hsender : senderId = id
    · subst hsender
      rw [if_pos ⟨rfl, hid⟩]
      exact (hi senderId hid).discovery position
    · rw [if_neg fun hboth => hsender hboth.1]
      exact (hi id hid).other (fun _ he => hsender (Message.discovery.inj he).1)
        fun _ he => nomatch he
  | proposal => exact (hi id hid).other (fun _ he => nomatch he) fun _ he => nomatch he
  | vote => exact (hi id hid).other (fun _ he => nomatch he) fun _ he => nomatch he
  | field => exact (hi id hid).other (fun _ he => nomatch he) fun _ he => nomatch he
  | other => exact (hi id hid).other (fun _ he => nomatch he) fun _ he => nomatch he

theorem Informed.messages (hi : Informed h s) (hs : Sound s) (now : TimeUs) (rxs : List Rx) :
    Informed (h ++ moments (Module.receive now) (fun rx => .received rx.message) s rxs)
      ((processRxMessages now s).run rxs) ∧ Sound ((processRxMessages now s).run rxs) := by
  induction rxs generalizing h s with
  | nil =>
    rw [show moments (Module.receive now) (fun rx => .received rx.message) s [] = [] from rfl,
      append_nil]
    exact ⟨hi, hs⟩
  | cons rx rxs ih =>
    have hnext := ih (hi.receive hs now rx s.2.topology (Module.receive now s rx).1.2.topology)
      (receive_moves now hs rx).1
    rw [append_assoc] at hnext
    exact hnext

theorem callbacks_sound (hs : Sound s) (time : ModuleId → TimeUs) (outs : List Heartbeat.Out)
    (houts : ∀ id, .alive id ∉ outs) : Sound ((callbacks time s).run outs) := by
  induction outs using List.reverseRecOn with
  | nil => exact hs
  | append_singleton outs out ih =>
    rw [Machine.run_concat]
    exact (callback_moves (ih fun id hid => houts id (mem_append_left _ hid)) time out
      fun id he => houts id (mem_append_right _ (mem_singleton.mpr he.symm))).1

/-- **A tick.** -/
theorem Informed.tick (hi : Informed h s) (hs : Sound s) (now : TimeUs) (rxs : List Rx) (hal : Hal) :
    Informed (h ++ tickMoments s now rxs hal) (tick s now rxs hal).1 ∧
      Sound (tick s now rxs hal).1 := by
  by_cases hidle : Idle s.2
  · rw [tick_idle hidle, show tickMoments s now rxs hal = [] from if_pos hidle, append_nil]
    exact ⟨hi, hs⟩
  rw [tick_running hidle, tickMoments_running hidle, ← append_assoc]
  have hheard : Informed _ (heard s now rxs) ∧ Sound (heard s now rxs) :=
    Informed.messages (s := (s.1, counted s.2)) (hi.congr rfl) (hs.congr rfl rfl) now
      (rxs.take maxMessages)
  obtain ⟨hbeat, -, halive⟩ := beat_sound now hheard.2 hal
  have hbeaten : Sound (beaten s now rxs hal) := callbacks_sound hbeat hal.callback _ halive
  have hengine : (beaten s now rxs hal).1.heartbeat =
      (Heartbeat.tick (heard s now rxs).1.heartbeat now hal.sent hal.sendTime).2.1 :=
    callbacks_heartbeat ..
  obtain ⟨hfinal, hheartbeat, -⟩ := finish_frame now hbeaten hal
  refine ⟨fun id hid => ?_, hfinal⟩
  obtain ⟨-, -, -, hview⟩ := Heartbeat.tick_eq hheard.2.records now hal.sent hal.sendTime
  rw [processed_called, hheartbeat, hengine, (hview id).1]
  have hnoted := (hheard.1 id hid).tick fun n =>
    check_unknown (heard s now rxs).1.heartbeat.config (heard s now rxs).1.heartbeat.callbacks now n
  cases hold : Heartbeat.find (heard s now rxs).1.heartbeat id with
  | none =>
    rw [hold] at hnoted
    exact hnoted
  | some n =>
    rw [hold] at hnoted
    exact hnoted

/-! ## runs -/

theorem informed_of_runs (hs : Sound s) (hnone : s.1.heartbeat.neighbors = []) (ops : List Op) :
    Informed ((life s).trace ops) ((life s).run ops) ∧ Sound ((life s).run ops) := by
  induction ops using List.reverseRecOn with
  | nil =>
    refine ⟨fun id _ => ?_, hs⟩
    rw [show Heartbeat.find ((life s).run []).1.heartbeat id = none from
      Keyed.lookup_eq_none.mpr (hnone ▸ not_mem_nil)]
    exact noted_nil id
  | append_singleton ops op ih =>
    rw [Machine.trace_concat, Machine.run_concat]
    obtain ⟨hi, hsound⟩ := ih
    cases op with
    | start time =>
      rw [show (life s).outs ((life s).run ops) (.start time) = [] from rfl, append_nil]
      exact ⟨hi.congr rfl, hsound.congr rfl (start_topology _ time)⟩
    | stop =>
      rw [show (life s).outs ((life s).run ops) .stop = [] from rfl, append_nil]
      exact ⟨hi.congr rfl, hsound.congr rfl rfl⟩
    | tick now rxs hal => exact hi.tick hsound now rxs hal

/-- the health of a neighbor is the one of the engine, and its field is aggregated if it is alive or
suspect and the field is fresh -/
def Mirrored (s : Statics × Module) (n : Topology.Neighbor) : Prop :=
  n.health = Heartbeat.getHealth s.1.heartbeat n.id ∧
    ∀ region clock, n ∈ (Field.sampled region clock s.2.topology.neighbors).map Prod.fst ↔
      (Heartbeat.getHealth s.1.heartbeat n.id = .alive ∨
        Heartbeat.getHealth s.1.heartbeat n.id = .suspect) ∧
      Field.Fresh region n.id (clock n.id)

theorem Noted.health (h : Noted id ms o) :
    (o.map Heartbeat.Neighbor.health).getD .unknown = .unknown ↔ ¬Heard id ms := by
  rw [← h.heard]
  cases o with
  | none =>
    refine ⟨fun _ => ?_, fun _ => rfl⟩
    rintro ⟨n, hn, -⟩
    cases hn
  | some m =>
    constructor
    · rintro hunknown ⟨n, hn, hhealth⟩
      obtain rfl := Option.some.inj hn
      exact hhealth hunknown
    · intro hnot
      by_contra hhealth
      exact hnot ⟨m, rfl, hhealth⟩

/-- **Main.** After every tick the topology has the health of the engine exactly for the neighbors of
which no heartbeat was processed after a discovery message. -/
theorem mirrored_iff {g g' : Statics} {mod mod' : Module} {id : ModuleId}
    {position : Topology.Position} (hinit : init g mod id position = (.ok (), g', mod'))
    (ops : List Op) (n : Topology.Neighbor)
    (hn : n ∈ ((life (g', mod')).run ops).2.topology.neighbors) :
    Mirrored ((life (g', mod')).run ops) n ↔
      ¬Heard n.id (processed ((life (g', mod')).trace ops)) := by
  obtain ⟨hi, hs⟩ := informed_of_runs (init_sound hinit).1 (init_sound hinit).2 ops
  obtain ⟨pos, hknown⟩ := hs.topology.known
  have hvalid : n.id ≠ invalidModuleId := fun he => hknown.valid (he ▸ hs.topology.elected n hn)
  have hunknown := hs.topology.unknown n hn
  have hhealth := (hi n.id hvalid).health
  rw [← hs.records.getHealth_eq] at hhealth
  rw [← hhealth]
  unfold Mirrored
  rw [hunknown]
  refine ⟨fun h => h.1.symm, fun h => ⟨h.symm, fun region clock => ?_⟩⟩
  rw [Field.mem_sampled, hunknown, h]
  constructor
  · rintro ⟨-, hbad | hbad, -⟩ <;> cases hbad
  · rintro ⟨hbad | hbad, -⟩ <;> cases hbad

/-- a neighbor that was not heard -/
theorem mirrored_sample : ∃ g mod, init Statics.zero zero 10 ⟨0, 0, 0⟩ = (.ok (), g, mod) ∧
    Mirrored ((life (g, mod)).run [.start 0, sampleTick 0 [.discovery 11 ⟨0, 0, 0⟩]])
      ⟨11, .unknown, 0, Field.zero, 1, 0⟩ := by
  have hinit : init Statics.zero zero 10 ⟨0, 0, 0⟩ = (.ok (), _, _) := rfl
  refine ⟨_, _, hinit, (mirrored_iff hinit _ _ (by decide)).mpr ?_⟩
  rintro ⟨position, sequence, hsub⟩
  have hlen : 2 ≤ 1 := hsub.length_le
  exact absurd hlen (by decide)

/-- module 11 is alive for the engine, and its health in the topology is still unknown -/
theorem never_mirrored : ∃ g mod, init Statics.zero zero 10 ⟨0, 0, 0⟩ = (.ok (), g, mod) ∧
    ∃ n ∈ ((life (g, mod)).run [.start 0,
        sampleTick 0 [.discovery 11 ⟨0, 0, 0⟩, .heartbeat 11 0]]).2.topology.neighbors,
      ¬Mirrored ((life (g, mod)).run [.start 0,
        sampleTick 0 [.discovery 11 ⟨0, 0, 0⟩, .heartbeat 11 0]]) n := by
  refine ⟨_, _, rfl, ⟨11, .unknown, 0, Field.zero, 1, 0⟩, by decide, fun h => ?_⟩
  exact absurd h.1 (by decide)

end Module
end EkKor
