import EkKor.Module.Life

/-!
# Dead modules are not elected

* `declared`         a module was declared dead, and no message of it was processed since;
* `CleanlyLost`      a module that is declared dead is a neighbor, or it is not known;
* `Buried`           the invariant: a module that was declared dead is not known;
* `dead_not_elected` it is not a neighbor then, if all modules are lost cleanly.
-/

namespace EkKor
namespace Module
open Runs List
open EkKor.Topology (ids)

/-! ## dead modules -/

def declaredStep (d : ModuleId) (declared : Bool) (m : Moment) : Bool :=
  match m.event with
  | .received (.heartbeat senderId _) => if senderId = d then false else declared
  | .received (.discovery senderId _) => if senderId = d then false else declared
  | .received _ => declared
  | .called (.dead id) => if id = d then true else declared
  | .called _ => declared

/-- the module was declared dead, and no heartbeat and no discovery message of it was processed
since -/
def declared (d : ModuleId) (h : List Moment) : Bool := h.foldl (declaredStep d) false

theorem declared_concat (d : ModuleId) (h : List Moment) (m : Moment) :
    declared d (h ++ [m]) = declaredStep d (declared d h) m := foldl_concat ..

def Event.dead? : Event → Option ModuleId
  | .called (.dead d) => some d
  | _ => none

def CleanlyLost (m : Moment) : Prop :=
  ∀ d ∈ m.event.dead?, d ∈ ids m.before ∨ d ∉ m.before.allKnown

instance decidableCleanlyLost (m : Moment) : Decidable (CleanlyLost m) :=
  inferInstanceAs (Decidable (∀ d ∈ m.event.dead?, _))

def Unelected (h : List Moment) (m : Moment) : Prop :=
  ∀ d, declared d (h ++ [m]) = true → d ∉ ids m.after

/-! ## the invariant -/

variable {s s' : Statics × Module} {h : List Moment} {m : Moment}

/-- no dead module is known -/
structure Buried (h : List Moment) (s : Statics × Module) : Prop where
  sound : Sound s
  gone : ∀ d, declared d h = true → d ∉ s.2.topology.allKnown
  every : EveryStep Unelected h

/-- **One moment.** -/
theorem Buried.moment (hb : Buried h s) (hbefore : m.before = s.2.topology)
    (hafter : m.after = s'.2.topology) (hs : Sound s') (hmoves : Moves m.before m.after m.event)
    (hclean : CleanlyLost m) : Buried (h ++ [m]) s' := by
  have hgone (d : ModuleId) (hd : declared d (h ++ [m]) = true) : d ∉ m.after.allKnown := by
    rw [declared_concat] at hd
    unfold declaredStep at hd
    have hstill (hold : declared d h = true) : d ∉ m.before.allKnown := hbefore ▸ hb.gone d hold
    have hheard {senderId : ModuleId}
        (hd : (if senderId = d then false else declared d h) = true)
        (hgrow : ∀ id ∈ m.after.allKnown, id = senderId ∨ id ∈ m.before.allKnown) :
        d ∉ m.after.allKnown := by
      split_ifs at hd with hsender
      exact fun hmem => (hgrow d hmem).elim (fun he => hsender he.symm) (hstill hd)
    cases hevent : m.event with
    | received message =>
      rw [hevent] at hd hmoves
      cases message with
      | heartbeat senderId sequence => exact hheard hd hmoves
      | discovery senderId position => exact hheard hd hmoves
      | proposal => exact hmoves ▸ hstill hd
      | vote => exact hmoves ▸ hstill hd
      | field => exact hmoves ▸ hstill hd
      | other => exact hmoves ▸ hstill hd
    | called out =>
      rw [hevent] at hd hmoves
      cases out with
      | alive id => exact hmoves.elim
      | suspect id => exact hmoves ▸ hstill hd
      | broadcast => exact hmoves ▸ hstill hd
      | dead id =>
        obtain ⟨hsub, hlost⟩ := hmoves
        dsimp only at hd
        split_ifs at hd with hid
        · subst hid
          rcases hclean id (hevent ▸ rfl) with hneighbor | hunknown
          · exact hlost hneighbor
          · exact fun hmem => hunknown (hsub hmem)
        · exact fun hmem => hstill hd (hsub hmem)
  refine ⟨hs, fun d hd => hafter ▸ hgone d hd, (everyStep_concat ..).mpr ⟨hb.every, ?_⟩⟩
  intro d hd hmem
  rw [hafter] at hmem
  exact hgone d hd (hafter ▸ hs.topology.of_ids hmem)

theorem Buried.loop {ι : Type} {step : Statics × Module → ι → (Statics × Module) × List Out}
    {event : ι → Event} {is : List ι} (hb : Buried h s)
    (hstep : ∀ i ∈ is, ∀ s, Sound s →
      Sound (step s i).1 ∧ Moves s.2.topology (step s i).1.2.topology (event i))
    (hclean : ∀ m ∈ moments step event s is, CleanlyLost m) :
    Buried (h ++ moments step event s is) (is.foldl (fun s i => (step s i).1) s) := by
  induction is generalizing h s with
  | nil =>
    rw [show moments step event s [] = [] from rfl, append_nil]
    exact hb
  | cons i is ih =>
    obtain ⟨hsound, hmoves⟩ := hstep i mem_cons_self s hb.sound
    have hnext := hb.moment (m := ⟨event i, s.2.topology, (step s i).1.2.topology⟩) rfl rfl hsound
      hmoves (hclean _ mem_cons_self)
    have hlater := ih hnext (fun j hj => hstep j (mem_cons_of_mem i hj))
      fun m hm => hclean m (mem_cons_of_mem _ hm)
    rw [append_assoc] at hlater
    exact hlater

theorem Buried.congr (hb : Buried h s) (hs : Sound s')
    (hall : s'.2.topology.allKnown = s.2.topology.allKnown) : Buried h s' :=
  ⟨hs, fun d hd => hall ▸ hb.gone d hd, hb.every⟩

/-- **A tick.** -/
theorem Buried.tick (hb : Buried h s) (now : TimeUs) (rxs : List Rx) (hal : Hal)
    (hclean : ∀ m ∈ tickMoments s now rxs hal, CleanlyLost m) :
    Buried (h ++ tickMoments s now rxs hal) (tick s now rxs hal).1 := by
  by_cases hidle : Idle s.2
  · rw [tick_idle hidle, show tickMoments s now rxs hal = [] from if_pos hidle, append_nil]
    exact hb
  rw [tickMoments_running hidle] at hclean ⊢
  rw [tick_running hidle]
  have hcounted : Buried h (s.1, counted s.2) := hb.congr (hb.sound.congr rfl rfl) rfl
  have hheard : Buried _ (heard s now rxs) :=
    hcounted.loop (fun rx _ s hs => receive_moves now hs rx)
      fun m hm => hclean m (mem_append_left _ hm)
  obtain ⟨hsound, htopology, halive⟩ := beat_sound now hheard.sound hal
  have hbeat := hheard.congr hsound (congrArg Topology.allKnown htopology)
  have hbeaten : Buried _ (beaten s now rxs hal) :=
    hbeat.loop (fun out hout s hs => callback_moves hs hal.callback out fun id he =>
      halive id (he ▸ hout)) fun m hm => hclean m (mem_append_right _ hm)
  rw [append_assoc] at hbeaten
  obtain ⟨hfinal, -, -, hall⟩ := finish_frame now hbeaten.sound hal
  exact hbeaten.congr hfinal hall

/-! ## runs -/

theorem buried_of_runs (hs : Sound s) {ops : List Op}
    (hclean : ∀ m ∈ (life s).trace ops, CleanlyLost m) :
    Buried ((life s).trace ops) ((life s).run ops) := by
  induction ops using List.reverseRecOn with
  | nil => exact ⟨hs, fun d hd => Bool.noConfusion hd, everyStep_nil _⟩
  | append_singleton ops op ih =>
    rw [Machine.trace_concat] at hclean ⊢
    rw [Machine.run_concat]
    have hb := ih fun m hm => hclean m (mem_append_left _ hm)
    have hlast : ∀ m ∈ (life s).outs ((life s).run ops) op, CleanlyLost m :=
      fun m hm => hclean m (mem_append_right _ hm)
    cases op with
    | start time =>
      have htopology := start_topology ((life s).run ops).2 time
      rw [show (life s).outs ((life s).run ops) (.start time) = [] from rfl, append_nil]
      exact hb.congr (hb.sound.congr rfl htopology) (congrArg Topology.allKnown htopology)
    | stop =>
      rw [show (life s).outs ((life s).run ops) .stop = [] from rfl, append_nil]
      exact hb.congr (hb.sound.congr rfl rfl) rfl
    | tick now rxs hal => exact hb.tick now rxs hal hlast

/-- **Main.** A module that was declared dead is no neighbor until it is heard again, after each
message, after each callback and after each call, if every module that is declared dead is a
neighbor, or not known, at that moment. -/
theorem dead_not_elected {g g' : Statics} {mod mod' : Module} {id : ModuleId}
    {position : Topology.Position} (hinit : init g mod id position = (.ok (), g', mod'))
    (ops : List Op) (hclean : ∀ m ∈ (life (g', mod')).trace ops, CleanlyLost m) :
    EveryStep Unelected ((life (g', mod')).trace ops) ∧
      ∀ pre, pre <+: ops → ∀ d, declared d ((life (g', mod')).trace pre) = true →
        d ∉ ids ((life (g', mod')).run pre).2.topology := by
  have hs := (init_sound hinit).1
  refine ⟨(buried_of_runs hs hclean).every, fun pre hpre d hd hmem => ?_⟩
  have hearlier : ∀ m ∈ (life (g', mod')).trace pre, CleanlyLost m := fun m hm =>
    hclean m (((life (g', mod')).trace_initial hpre).subset hm)
  have hb := buried_of_runs hs hearlier
  exact hb.gone d hd (hb.sound.topology.of_ids hmem)

/-- a neighbor that becomes silent -/
theorem dead_not_elected_sample : ∃ g mod,
    init Statics.zero zero 10 ⟨0, 0, 0⟩ = (.ok (), g, mod) ∧
    declared 11 ((life (g, mod)).trace [.start 0,
      sampleTick 0 [.discovery 11 ⟨0, 0, 0⟩, .heartbeat 11 0], sampleTick 60000 []]) = true ∧
    11 ∉ ids ((life (g, mod)).run [.start 0,
      sampleTick 0 [.discovery 11 ⟨0, 0, 0⟩, .heartbeat 11 0], sampleTick 60000 []]).2.topology := by
  have hinit : init Statics.zero zero 10 ⟨0, 0, 0⟩ = (.ok (), _, _) := rfl
  exact ⟨_, _, hinit, by decide,
    (dead_not_elected hinit _ (by decide +kernel)).2 _ (prefix_refl _) 11 (by decide)⟩

/-- module 18 is known and no neighbor when it is declared dead, and it is elected when neighbor 11
is lost -/
theorem dead_elected : ∃ g mod,
    init Statics.zero zero 10 ⟨0, 0, 0⟩ = (.ok (), g, mod) ∧
    ∃ ops, declared 18 ((life (g, mod)).trace ops) = true ∧
      18 ∈ ids ((life (g, mod)).run ops).2.topology := by
  refine ⟨_, _, rfl, [.start 0,
    sampleTick 0 ([11, 12, 13, 14, 15, 16, 17, 18].map (.discovery · ⟨0, 0, 0⟩) ++ [.heartbeat 18 0]),
    sampleTick 30000 [.heartbeat 11 0], sampleTick 60000 [], sampleTick 90000 []], ?_, ?_⟩
  · decide
  · decide

end Module
end EkKor
