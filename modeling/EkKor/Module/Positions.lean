import EkKor.Module.Life
import EkKor.Module.Twin

/-!
# The positions of the known modules

* `Change`, `story`    what reaches the topology in a run, with the state before it and after it;
* `last`               the position in the last discovery message of each module;
* `Recorded`           the recorded positions are these;
* `Faithful`           they are after a change, which moves no other module, and an election does
                       not depend on anything else;
* `Harmless`           the condition: a heartbeat that makes a module alive comes from one whose last
                       position is 0;
* `positions_iff`      all changes are faithful exactly if all are harmless.
-/

namespace EkKor
open List Function
namespace Topology

variable {g : Shared} {topo : Topology} {pos : ModuleId → Position} {id : ModuleId}

/-! ## one call -/

/-- the recorded positions are the ones of `last` -/
def Placed (last : ModuleId → Option Position) (topo : Topology) (positions : Nat → Position) :
    Prop :=
  ∀ i id, topo.allKnown[i]? = some id → last id = some (positions i)

theorem Known.placed_iff (h : Known g topo pos) (last : ModuleId → Option Position) :
    Placed last topo g.knownPositions ↔ ∀ id ∈ topo.allKnown, last id = some (pos id) := by
  constructor
  · intro hplaced id hid
    obtain ⟨i, hi⟩ := mem_iff_getElem?.mp hid
    rw [hplaced i id hi, h.placed i id hi]
  · intro hall i id hi
    rw [hall id (mem_of_getElem? hi), h.placed i id hi]

theorem Known.discovery (h : Known g topo pos) (hvalid : id ≠ invalidModuleId)
    (hself : id ≠ topo.myId) (p : Position) (time : TimeUs) :
    Known (onDiscovery g topo id p time).2.1 (onDiscovery g topo id p time).2.2.1
        (update pos id p) ∧
      (onDiscovery g topo id p time).2.2.1.allKnown =
        if id ∈ topo.allKnown then topo.allKnown else topo.allKnown ++ [id] := by
  obtain ⟨g', topo', hadd, hk, htopo⟩ := h.add hvalid hself p
  have hall : topo'.allKnown = if id ∈ topo.allKnown then topo.allKnown
      else topo.allKnown ++ [id] := by rw [htopo]
  unfold onDiscovery
  rw [if_neg hvalid, if_neg hself, hadd]
  dsimp only
  split_ifs at hall ⊢
  all_goals first
    | exact ⟨(reelect_nearest hk time).1, (reelect_frame g' topo' time).1.trans hall⟩
    | exact ⟨hk, hall⟩

theorem Known.lost (h : Known g topo pos) (id : ModuleId) (time : TimeUs) :
    Known (onNeighborLost g topo id time).2.1 (onNeighborLost g topo id time).2.2.1 pos ∧
      (onNeighborLost g topo id time).2.2.1.allKnown ⊆ topo.allKnown := by
  unfold onNeighborLost
  by_cases hinvalid : id = invalidModuleId
  · rw [if_pos hinvalid]
    exact ⟨h, List.Subset.refl _⟩
  rw [if_neg hinvalid]
  cases findNeighborIndex topo id with
  | none => exact ⟨h, List.Subset.refl _⟩
  | some idx =>
    obtain ⟨hk, -⟩ := h.remove id
    have hless : Known (removeFromKnown g topo id).1
        { (removeFromKnown g topo id).2 with
          neighbors := (removeFromKnown g topo id).2.neighbors.eraseIdx idx } pos :=
      ⟨hk.nodup, hk.others, hk.valid, hk.placed⟩
    have hframe := (reelect_frame (removeFromKnown g topo id).1
      { (removeFromKnown g topo id).2 with
        neighbors := (removeFromKnown g topo id).2.neighbors.eraseIdx idx } time).1
    exact ⟨(reelect_nearest hless time).1,
      fun a ha => (h.not_mem_remove id).1 (hframe ▸ ha)⟩

theorem Placed.reelect {last : ModuleId → Option Position} {g' : Shared}
    (h : Placed last topo g.knownPositions) (h' : Placed last topo g'.knownPositions)
    (time : TimeUs) : (reelect g topo time).1 = (reelect g' topo time).1 := by
  refine reelect_agree (fun i hi => ?_) time
  have hsome := getElem?_eq_getElem hi
  exact Option.some.inj ((h i _ hsome).symm.trans (h' i _ hsome))

end Topology

namespace Module
open Runs
open EkKor.Topology (Position Placed Known reelect)

/-! ## changes -/

/-- what reaches the topology, with the state before it and after it -/
structure Change where
  event : Event
  before : Statics × Module
  after : Statics × Module

def changes {ι : Type} (step : Statics × Module → ι → (Statics × Module) × List Out)
    (event : ι → Event) : Statics × Module → List ι → List Change
  | _, [] => []
  | s, i :: is => ⟨event i, s, (step s i).1⟩ :: changes step event (step s i).1 is

def tickChanges (s : Statics × Module) (now : TimeUs) (rxs : List Rx) (hal : Hal) : List Change :=
  if Idle s.2 then []
  else
    changes (receive now) (fun rx => .received rx.message) (s.1, counted s.2)
        (rxs.take maxMessages) ++
      changes (callback hal.callback) .called (beat now hal (heard s now rxs)).1
        (beat now hal (heard s now rxs)).2

def follow (s : Statics × Module) : Op → (Statics × Module) × List Change
  | .start time => ((s.1, (start s.2 time).2), [])
  | .stop => ((s.1, stop s.2), [])
  | .tick now rxs hal => ((tick s now rxs hal).1, tickChanges s now rxs hal)

def story (s : Statics × Module) : Machine (Statics × Module) Op Change := ⟨s, follow⟩

/-- the module after `ekk_module_init`, with another configuration of its topology -/
def configured (mod : Module) (config : Topology.Config) : Module :=
  { mod with topology := { mod.topology with config := config } }

/-! ## the condition -/

variable {s s' : Statics × Module} {h : List Change} {c : Change}

def lastStep (last : ModuleId → Option Position) (c : Change) : ModuleId → Option Position :=
  match c.event with
  | .received (.discovery senderId position) => update last senderId (some position)
  | _ => last

def last (h : List Change) : ModuleId → Option Position := h.foldl lastStep fun _ => none

theorem last_concat (h : List Change) (c : Change) : last (h ++ [c]) = lastStep (last h) c :=
  foldl_concat ..

def Recorded (h : List Change) (s : Statics × Module) : Prop :=
  Placed (last h) s.2.topology s.1.topology.knownPositions

/-- a change leaves the positions of the last discovery messages, it moves no module but the sender
of one, and an election depends on no other positions -/
structure Faithful (h : List Change) (c : Change) : Prop where
  recorded : Recorded (h ++ [c]) c.after
  kept : ∀ id, (∀ p, c.event ≠ .received (.discovery id p)) → ∀ i j,
    c.before.2.topology.allKnown[i]? = some id → c.after.2.topology.allKnown[j]? = some id →
    c.after.1.topology.knownPositions j = c.before.1.topology.knownPositions i
  elected : ∀ positions, Placed (last (h ++ [c])) c.after.2.topology positions → ∀ time,
    (reelect { c.after.1.topology with knownPositions := positions } c.after.2.topology time).1 =
      (reelect c.after.1.topology c.after.2.topology time).1

def Revives (s : Statics × Module) (id : ModuleId) : Prop :=
  ∃ n ∈ Heartbeat.find s.1.heartbeat id, n.health ≠ .alive

instance (s : Statics × Module) (id : ModuleId) : Decidable (Revives s id) :=
  inferInstanceAs (Decidable (∃ n ∈ _, _))

/-- a heartbeat that makes another module alive comes from one whose last position is 0 -/
def Harmless (h : List Change) (c : Change) : Prop :=
  match c.event with
  | .received (.heartbeat senderId _) =>
    Revives c.before senderId → senderId ≠ c.before.2.topology.myId →
      last h senderId = some ⟨0, 0, 0⟩
  | _ => True

instance (h : List Change) : (c : Change) → Decidable (Harmless h c)
  | ⟨.received (.heartbeat _ _), _, _⟩ => inferInstanceAs (Decidable (_ → _ → _))
  | ⟨.received (.discovery _ _), _, _⟩ => inferInstanceAs (Decidable True)
  | ⟨.received (.proposal _ _ _ _ _), _, _⟩ => inferInstanceAs (Decidable True)
  | ⟨.received (.vote _ _ _), _, _⟩ => inferInstanceAs (Decidable True)
  | ⟨.received .field, _, _⟩ => inferInstanceAs (Decidable True)
  | ⟨.received .other, _, _⟩ => inferInstanceAs (Decidable True)
  | ⟨.called _, _, _⟩ => inferInstanceAs (Decidable True)

/-! ## one change -/

/-- what holds in every state -/
structure Ready (s : Statics × Module) : Prop where
  sound : Sound s
  calls : s.1.heartbeat.callbacks.alive = true

theorem received_alive (hs : Ready s) (senderId : ModuleId) (sequence : UInt8) (now : TimeUs) :
    (Heartbeat.received s.1.heartbeat senderId sequence now).2.2 =
      if Revives s senderId then [.alive senderId] else [] := by
  obtain ⟨-, -, -, hview⟩ := Heartbeat.received_eq hs.sound.records senderId sequence now
  have houts := (hview senderId).2
  have hall : (Heartbeat.received s.1.heartbeat senderId sequence now).2.2.filter
      (Heartbeat.about senderId) = (Heartbeat.received s.1.heartbeat senderId sequence now).2.2 := by
    refine filter_eq_self.mpr fun out hout => ?_
    rw [received_outs now s.1.heartbeat senderId sequence out hout]
    exact decide_eq_true rfl
  rw [← hall, houts]
  unfold Heartbeat.act
  by_cases hrevives : Revives s senderId
  · rw [if_pos hrevives]
    obtain ⟨n, hn, hother⟩ := hrevives
    rw [Option.mem_def.mp hn]
    dsimp only
    rw [if_pos rfl]
    unfold Heartbeat.setNeighborHealth
    rw [if_neg (show ¬(Heartbeat.hear _ n sequence now).health = .alive from hother)]
    show (if s.1.heartbeat.callbacks.alive = true then [Heartbeat.Out.alive n.id] else []) = _
    rw [if_pos hs.calls, (Keyed.mem_of_lookup hn).2]
  · rw [if_neg hrevives]
    cases hfind : Heartbeat.find s.1.heartbeat senderId with
    | none => rfl
    | some n =>
      have halive : n.health = .alive := by
        by_contra hother
        exact hrevives ⟨n, hfind, hother⟩
      dsimp only
      rw [if_pos rfl]
      unfold Heartbeat.setNeighborHealth
      rw [if_pos (show (Heartbeat.hear _ n sequence now).health = .alive from halive)]

theorem Recorded.known (hs : Ready s) (h' : Recorded h s) :
    ∃ pos, Known s.1.topology s.2.topology pos ∧
      ∀ id ∈ s.2.topology.allKnown, last h id = some (pos id) := by
  obtain ⟨pos, hk⟩ := hs.sound.topology.known
  exact ⟨pos, hk, (hk.placed_iff _).mp h'⟩

variable {h' : List Change} {id : ModuleId} (now : TimeUs)

theorem Recorded.of_eq (hall : s'.2.topology.allKnown = s.2.topology.allKnown)
    (hpos : s'.1.topology.knownPositions = s.1.topology.knownPositions) (hlast : last h' = last h) :
    Recorded h' s' ↔ Recorded h s := by
  unfold Recorded Placed
  rw [hall, hpos, hlast]

theorem alive_recorded (hs : Ready s) (hrecorded : Recorded h s) (hvalid : id ≠ invalidModuleId)
    (hself : id ≠ s.2.topology.myId) (time : TimeUs) (hlast : last h' = last h) :
    Recorded h' (onNeighborAlive s id time).1 ↔ last h id = some ⟨0, 0, 0⟩ := by
  obtain ⟨pos, hk, hpos⟩ := hrecorded.known hs
  obtain ⟨hk', hall⟩ := hk.discovery hvalid hself ⟨0, 0, 0⟩ time
  have hmem : id ∈ (Topology.onDiscovery s.1.topology s.2.topology id ⟨0, 0, 0⟩
      time).2.2.1.allKnown := by
    rw [hall]
    split_ifs with hin
    · exact hin
    · exact mem_append_right _ mem_cons_self
  unfold Recorded
  rw [hlast]
  refine (hk'.placed_iff _).trans ⟨fun hplaced => ?_, fun hzero a ha => ?_⟩
  · rw [hplaced id hmem, update_self]
  · by_cases hsame : a = id
    · rw [hsame, hzero, update_self]
    · rw [update_of_ne hsame]
      rw [hall] at ha
      split_ifs at ha
      · exact hpos a ha
      · exact hpos a ((mem_append.mp ha).resolve_right fun he =>
          hsame (mem_singleton.mp he))

theorem discovery_recorded (hs : Ready s) (hrecorded : Recorded h s) (id : ModuleId) (p : Position)
    (time : TimeUs) {last' : ModuleId → Option Position}
    (hlast : last' = update (last h) id (some p)) :
    Placed last' (Topology.onDiscovery s.1.topology s.2.topology id p time).2.2.1
      (Topology.onDiscovery s.1.topology s.2.topology id p time).2.1.knownPositions := by
  obtain ⟨pos, hk, hpos⟩ := hrecorded.known hs
  have hignored (hnot : id ∉ s.2.topology.allKnown) :
      Placed last' s.2.topology s.1.topology.knownPositions := by
    refine (hk.placed_iff _).mpr fun a ha => ?_
    rw [hlast, update_of_ne fun he : a = id => hnot (he ▸ ha)]
    exact hpos a ha
  by_cases hvalid : id = invalidModuleId
  · unfold Topology.onDiscovery
    rw [if_pos hvalid]
    exact hignored (hvalid ▸ hk.valid)
  by_cases hself : id = s.2.topology.myId
  · unfold Topology.onDiscovery
    rw [if_neg hvalid, if_pos hself]
    exact hignored (hself ▸ hk.others)
  obtain ⟨hk', hall⟩ := hk.discovery hvalid hself p time
  refine (hk'.placed_iff _).mpr fun a ha => ?_
  rw [hlast]
  by_cases hsame : a = id
  · rw [hsame, update_self, update_self]
  · rw [update_of_ne hsame, update_of_ne hsame]
    rw [hall] at ha
    split_ifs at ha
    · exact hpos a ha
    · exact hpos a ((mem_append.mp ha).resolve_right fun he =>
        hsame (mem_singleton.mp he))

/-- **A heartbeat.** -/
theorem heartbeat_recorded (hs : Ready s) (hrecorded : Recorded h s) (senderId : ModuleId)
    (sequence : UInt8) (time : TimeUs) (hlast : last h' = last h) :
    Recorded h' (receive now s ⟨.heartbeat senderId sequence, time⟩).1 ↔
      (Revives s senderId → senderId ≠ s.2.topology.myId →
        last h senderId = some ⟨0, 0, 0⟩) := by
  have houts := received_alive hs senderId sequence now
  have hafter : (receive now s ⟨.heartbeat senderId sequence, time⟩).1 =
      (callbacks (fun _ => time) ({ s.1 with
        heartbeat := (Heartbeat.received s.1.heartbeat senderId sequence now).2.1 }, s.2)).run
        (if Revives s senderId then [.alive senderId] else []) := by
    rw [← houts]
    rfl
  rw [hafter]
  by_cases hrevives : Revives s senderId
  · have hvalid : senderId ≠ invalidModuleId := by
      rintro rfl
      obtain ⟨n, hn, -⟩ := hrevives
      rw [hs.sound.records.find_invalid] at hn
      cases hn
    rw [if_pos hrevives]
    by_cases hself : senderId = s.2.topology.myId
    · refine iff_of_true ?_ fun _ hother => absurd hself hother
      refine (Recorded.of_eq ?_ ?_ hlast).mpr hrecorded
      · show (Topology.onDiscovery s.1.topology s.2.topology senderId _ time).2.2.1.allKnown = _
        unfold Topology.onDiscovery
        rw [if_neg hvalid, if_pos hself]
      · show (Topology.onDiscovery s.1.topology s.2.topology senderId _ time).2.1.knownPositions = _
        unfold Topology.onDiscovery
        rw [if_neg hvalid, if_pos hself]
    · exact (alive_recorded hs hrecorded hvalid hself time hlast).trans
        ⟨fun hzero _ _ => hzero, fun hcond => hcond hrevives hself⟩
  · rw [if_neg hrevives]
    exact iff_of_true ((Recorded.of_eq rfl rfl hlast).mpr hrecorded)
      fun hcond => absurd hcond hrevives

/-- **A message.** -/
theorem receive_recorded (hs : Ready s) (rx : Rx) :
    Ready (receive now s rx).1 ∧
      (Recorded h s → (Recorded (h ++ [⟨.received rx.message, s, (receive now s rx).1⟩])
          (receive now s rx).1 ↔ Harmless h ⟨.received rx.message, s, (receive now s rx).1⟩)) := by
  have hsound := (receive_moves now hs.sound rx).1
  obtain ⟨message, time⟩ := rx
  cases message with
  | heartbeat senderId sequence =>
    obtain ⟨-, -, hcb, -⟩ := Heartbeat.received_eq hs.sound.records senderId sequence now
    have hbeat := callbacks_heartbeat (fun _ => time)
      ({ s.1 with heartbeat := (Heartbeat.received s.1.heartbeat senderId sequence now).2.1 }, s.2)
      (Heartbeat.received s.1.heartbeat senderId sequence now).2.2
    refine ⟨⟨hsound, ?_⟩, fun hrecorded => ?_⟩
    · exact (congrArg (fun hb => hb.callbacks.alive) hbeat).trans
        ((congrArg Heartbeat.Callbacks.alive hcb).trans hs.calls)
    · exact heartbeat_recorded now hs hrecorded senderId sequence time (last_concat ..)
  | discovery senderId position =>
    obtain ⟨-, -, hcb, -⟩ := Heartbeat.addNeighbor_eq hs.sound.records senderId
    refine ⟨⟨hsound, (congrArg Heartbeat.Callbacks.alive hcb).trans hs.calls⟩,
      fun hrecorded => iff_of_true ?_ trivial⟩
    exact discovery_recorded hs hrecorded senderId position time (last_concat ..)
  | proposal => exact ⟨⟨hsound, hs.calls⟩, fun hrecorded => iff_of_true
      ((Recorded.of_eq rfl rfl (last_concat ..)).mpr hrecorded) trivial⟩
  | vote => exact ⟨⟨hsound, hs.calls⟩, fun hrecorded => iff_of_true
      ((Recorded.of_eq rfl rfl (last_concat ..)).mpr hrecorded) trivial⟩
  | field => exact ⟨⟨hsound, hs.calls⟩, fun hrecorded => iff_of_true
      ((Recorded.of_eq rfl rfl (last_concat ..)).mpr hrecorded) trivial⟩
  | other => exact ⟨⟨hsound, hs.calls⟩, fun hrecorded => iff_of_true
      ((Recorded.of_eq rfl rfl (last_concat ..)).mpr hrecorded) trivial⟩

/-- **A callback of phase 2.** -/
theorem callback_recorded (hs : Ready s) (time : ModuleId → TimeUs) (out : Heartbeat.Out)
    (hout : ∀ id, out ≠ .alive id) :
    Ready (callback time s out).1 ∧
      (Recorded h s → (Recorded (h ++ [⟨.called out, s, (callback time s out).1⟩])
          (callback time s out).1 ↔ Harmless h ⟨.called out, s, (callback time s out).1⟩)) := by
  have hsound := (callback_moves hs.sound time out hout).1
  cases out with
  | alive id => exact absurd rfl (hout id)
  | suspect id => exact ⟨⟨hsound, hs.calls⟩, fun hrecorded => iff_of_true
      ((Recorded.of_eq rfl rfl (last_concat ..)).mpr hrecorded) trivial⟩
  | dead id =>
    refine ⟨⟨hsound, hs.calls⟩, fun hrecorded => iff_of_true ?_ trivial⟩
    obtain ⟨pos, hk, hpos⟩ := hrecorded.known hs
    obtain ⟨hk', hsub⟩ := hk.lost id (time id)
    unfold Recorded
    rw [last_concat]
    exact (hk'.placed_iff _).mpr fun a ha => hpos a (hsub ha)
  | broadcast => exact ⟨⟨hsound, hs.calls⟩, fun hrecorded => iff_of_true
      ((Recorded.of_eq rfl rfl (last_concat ..)).mpr hrecorded) trivial⟩

theorem lastStep_other (hother : ∀ p, c.event ≠ .received (.discovery id p))
    (last : ModuleId → Option Position) : lastStep last c id = last id := by
  obtain ⟨event, before, after⟩ := c
  cases event with
  | called out => rfl
  | received message =>
    cases message with
    | discovery senderId position =>
      exact update_of_ne (fun hsame : id = senderId => hother position (hsame ▸ rfl)) ..
    | heartbeat => rfl
    | proposal => rfl
    | vote => rfl
    | field => rfl
    | other => rfl

theorem faithful_of_recorded (hbefore : Recorded h c.before)
    (hafter : Recorded (h ++ [c]) c.after) : Faithful h c := by
  refine ⟨hafter, fun id hother i j hi hj => ?_, fun positions hplaced time => ?_⟩
  · have hold := hbefore i id hi
    have hnew := hafter j id hj
    have hlast : last (h ++ [c]) id = last h id := by
      rw [last_concat]
      exact lastStep_other hother _
    exact Option.some.inj (hnew.symm.trans (hlast.trans hold))
  · exact Topology.Placed.reelect (g := { c.after.1.topology with knownPositions := positions })
      hplaced hafter time

/-! ## runs -/

/-- the changes so far are faithful exactly if they are harmless, and then the positions are right -/
structure Told (h : List Change) (s : Statics × Module) : Prop where
  ready : Ready s
  every : EveryStep Faithful h ↔ EveryStep Harmless h
  recorded : EveryStep Harmless h → Recorded h s

/-- **One change.** -/
theorem Told.change (ht : Told h s) {event : Event} (hready : Ready s')
    (hiff : Recorded h s → (Recorded (h ++ [⟨event, s, s'⟩]) s' ↔ Harmless h ⟨event, s, s'⟩)) :
    Told (h ++ [⟨event, s, s'⟩]) s' := by
  refine ⟨hready, ?_, fun hsteps => ?_⟩
  · rw [everyStep_concat, everyStep_concat]
    constructor
    · rintro ⟨hbefore, hlast⟩
      have hsteps := ht.every.mp hbefore
      exact ⟨hsteps, (hiff (ht.recorded hsteps)).mp hlast.recorded⟩
    · rintro ⟨hsteps, hlast⟩
      have hrecorded := ht.recorded hsteps
      exact ⟨ht.every.mpr hsteps, faithful_of_recorded hrecorded ((hiff hrecorded).mpr hlast)⟩
  · obtain ⟨hbefore, hlast⟩ := (everyStep_concat ..).mp hsteps
    exact (hiff (ht.recorded hbefore)).mpr hlast

theorem Told.congr (ht : Told h s) (hready : Ready s')
    (hall : s'.2.topology.allKnown = s.2.topology.allKnown)
    (hpos : s'.1.topology.knownPositions = s.1.topology.knownPositions) : Told h s' :=
  ⟨hready, ht.every, fun hsteps => (Recorded.of_eq hall hpos rfl).mpr (ht.recorded hsteps)⟩

theorem Told.loop {ι : Type} {step : Statics × Module → ι → (Statics × Module) × List Out}
    {event : ι → Event} {is : List ι} (ht : Told h s)
    (hstep : ∀ i ∈ is, ∀ s h, Ready s → Ready (step s i).1 ∧
      (Recorded h s → (Recorded (h ++ [⟨event i, s, (step s i).1⟩]) (step s i).1 ↔
        Harmless h ⟨event i, s, (step s i).1⟩))) :
    Told (h ++ changes step event s is) (is.foldl (fun s i => (step s i).1) s) := by
  induction is generalizing h s with
  | nil =>
    rw [show changes step event s [] = [] from rfl, append_nil]
    exact ht
  | cons i is ih =>
    obtain ⟨hready, hiff⟩ := hstep i mem_cons_self s h ht.ready
    have hnext : Told (h ++ [⟨event i, s, (step s i).1⟩]) (step s i).1 := ht.change hready hiff
    have hlater := ih hnext fun j hj => hstep j (mem_cons_of_mem i hj)
    rw [append_assoc] at hlater
    exact hlater

theorem beat_ready (hs : Ready s) (hal : Hal) :
    Ready (beat now hal s).1 ∧ ∀ id, .alive id ∉ (beat now hal s).2 := by
  obtain ⟨hsound, -, halive⟩ := beat_sound now hs.sound hal
  obtain ⟨-, -, hcb, -⟩ := Heartbeat.tick_eq hs.sound.records now hal.sent hal.sendTime
  exact ⟨⟨hsound, (congrArg Heartbeat.Callbacks.alive hcb).trans hs.calls⟩, halive⟩

theorem finish_ready (hs : Ready s) (hal : Hal) :
    Ready (finish now hal s).1 ∧
      (finish now hal s).1.2.topology.allKnown = s.2.topology.allKnown ∧
      (finish now hal s).1.1.topology.knownPositions = s.1.topology.knownPositions := by
  obtain ⟨hsound, hheartbeat, -, hall⟩ := finish_frame now hs.sound hal
  have hstatics := (schedule_frame now hal
    (updateConsensus now (sampleFields hal (updateTopology now s).1)).1).1
  have hshared := (publishField_frame now hal
    (schedule now hal (updateConsensus now (sampleFields hal (updateTopology now s).1)).1).1).2.1
  have htick := (Topology.tick_frame s.1.topology s.2.topology now).2.2.2
  refine ⟨⟨hsound, ?_⟩, hall, ?_⟩
  · rw [hheartbeat]
    exact hs.calls
  · refine (congrArg Topology.Shared.knownPositions hshared).trans ?_
    rw [hstatics]
    exact htick

/-- **A tick.** -/
theorem Told.tick (ht : Told h s) (now : TimeUs) (rxs : List Rx) (hal : Hal) :
    Told (h ++ tickChanges s now rxs hal) (tick s now rxs hal).1 := by
  by_cases hidle : Idle s.2
  · rw [tick_idle hidle, show tickChanges s now rxs hal = [] from if_pos hidle, append_nil]
    exact ht
  rw [tick_running hidle, show tickChanges s now rxs hal = _ from if_neg hidle]
  have hcounted : Told h (s.1, counted s.2) :=
    ht.congr ⟨ht.ready.sound.congr rfl rfl, ht.ready.calls⟩ rfl rfl
  have hheard : Told _ (heard s now rxs) :=
    hcounted.loop fun rx _ _ _ hs => receive_recorded now hs rx
  obtain ⟨hready, halive⟩ := beat_ready now hheard.ready hal
  have hbeat := hheard.congr hready rfl rfl
  have hbeaten : Told (h ++ _ ++ _) (beaten s now rxs hal) :=
    hbeat.loop fun out hout _ _ hs => callback_recorded hs hal.callback out
      fun id he => halive id (he ▸ hout)
  rw [append_assoc] at hbeaten
  obtain ⟨hfinal, hall, hpos⟩ := finish_ready now hbeaten.ready hal
  exact hbeaten.congr hfinal hall hpos

theorem told_of_runs (ht : Told [] s) (ops : List Op) :
    Told ((story s).trace ops) ((story s).run ops) := by
  induction ops using List.reverseRecOn with
  | nil => exact ht
  | append_singleton ops op ih =>
    rw [Machine.trace_concat, Machine.run_concat]
    cases op with
    | start time =>
      have htopology := start_topology ((story s).run ops).2 time
      rw [show (story s).outs ((story s).run ops) (.start time) = [] from rfl, append_nil]
      exact ih.congr ⟨ih.ready.sound.congr rfl htopology, ih.ready.calls⟩
        (congrArg Topology.allKnown htopology) rfl
    | stop =>
      rw [show (story s).outs ((story s).run ops) .stop = [] from rfl, append_nil]
      exact ih.congr ⟨ih.ready.sound.congr rfl rfl, ih.ready.calls⟩ rfl rfl
    | tick now rxs hal => exact ih.tick now rxs hal

theorem init_told {g g' : Statics} {mod mod' : Module} {position : Position}
    (hinit : init g mod id position = (.ok (), g', mod')) (config : Topology.Config) :
    Told [] (g', configured mod' config) := by
  obtain ⟨⟨⟨⟨pos, hk⟩, helected, hunknown⟩, hrecords, hcounted⟩, -⟩ := init_sound hinit
  have hempty : g'.heartbeat.callbacks.alive = true ∧ mod'.topology.allKnown = [] := by
    unfold init at hinit
    by_cases hid : id = invalidModuleId
    · rw [if_pos hid] at hinit
      cases hinit
    rw [if_neg hid, show Topology.init id position none = .ok _ from if_neg hid,
      show Consensus.init id none = .ok _ from if_neg hid,
      show Heartbeat.init id none = .ok _ from if_neg hid] at hinit
    cases hinit
    exact ⟨rfl, rfl⟩
  have hsound : Sound (g', configured mod' config) :=
    ⟨⟨⟨pos, hk.nodup, hk.others, hk.valid, hk.placed⟩, helected, hunknown⟩, hrecords, hcounted⟩
  refine ⟨⟨hsound, hempty.1⟩, iff_of_true (everyStep_nil _) (everyStep_nil _),
    fun _ i a hi => ?_⟩
  have hall : (configured mod' config).topology.allKnown = [] := hempty.2
  rw [hall] at hi
  cases hi

/-- **The positions of the known modules.**  In a run of a module, all changes are faithful exactly if
all are harmless, and then the positions are right in every state -/
theorem positions_iff {g g' : Statics} {mod mod' : Module} {id : ModuleId} {position : Position}
    (hinit : init g mod id position = (.ok (), g', mod')) (config : Topology.Config)
    (ops : List Op) :
    (EveryStep Faithful ((story (g', configured mod' config)).trace ops) ∧
        ∀ pre, pre <+: ops → Recorded ((story (g', configured mod' config)).trace pre)
          ((story (g', configured mod' config)).run pre)) ↔
      EveryStep Harmless ((story (g', configured mod' config)).trace ops) := by
  have hinit' := init_told hinit config
  have htold := told_of_runs hinit' ops
  refine ⟨fun h => htold.every.mp h.1, fun h => ⟨htold.every.mpr h, fun pre hpre => ?_⟩⟩
  exact (told_of_runs hinit' pre).recorded
    (h.initial ((story (g', configured mod' config)).trace_initial hpre))

/-- a module that is alive when it moves -/
theorem positions_sample : ∃ g mod, init Statics.zero zero 10 ⟨0, 0, 0⟩ = (.ok (), g, mod) ∧
    Recorded ((story (g, configured mod .default)).trace [.start 0, sampleTick 0
        [.discovery 11 ⟨0, 0, 0⟩, .heartbeat 11 0, .discovery 11 ⟨5, 0, 0⟩, .heartbeat 11 1]])
      ((story (g, configured mod .default)).run [.start 0, sampleTick 0
        [.discovery 11 ⟨0, 0, 0⟩, .heartbeat 11 0, .discovery 11 ⟨5, 0, 0⟩, .heartbeat 11 1]]) := by
  have hinit : init Statics.zero zero 10 ⟨0, 0, 0⟩ = (.ok (), _, _) := rfl
  refine ⟨_, _, hinit, ((positions_iff hinit .default _).mpr ?_).2 _ (prefix_refl _)⟩
  rw [everyStep_iff]
  decide

def farRun : List Op :=
  [.start 0, sampleTick 0 [.discovery 12 ⟨0, 0, 0⟩, .discovery 11 ⟨1, 0, 0⟩, .heartbeat 11 0]]

/-- a heartbeat moves module 11, and then it is elected instead of module 12 -/
theorem heartbeat_moves : ∃ g mod, init Statics.zero zero 10 ⟨0, 0, 0⟩ = (.ok (), g, mod) ∧
    last ((story (g, configured mod .default)).trace farRun) 11 = some ⟨1, 0, 0⟩ ∧
    ((story (g, configured mod .default)).run farRun).2.topology.allKnown = [12, 11] ∧
    ((story (g, configured mod .default)).run farRun).1.topology.knownPositions 1 = ⟨0, 0, 0⟩ ∧
    ¬Recorded ((story (g, configured mod .default)).trace farRun)
      ((story (g, configured mod .default)).run farRun) ∧
    ∃ s, (story (g, configured mod ⟨1, .physical, 1000000, 0, 1⟩)).run farRun = s ∧
      Topology.ids (reelect s.1.topology s.2.topology 0).1 = [11] ∧
      Topology.ids (reelect { s.1.topology with
        knownPositions := fun i => if i = 1 then ⟨1, 0, 0⟩ else ⟨0, 0, 0⟩ } s.2.topology 0).1 =
          [12] := by
  refine ⟨_, _, rfl, by decide, by decide, by decide, fun h => ?_, _, rfl, by decide, by decide⟩
  exact absurd (h 1 11 (by decide)) (by decide)

end Module
end EkKor
