import EkKor.Module.Model

/-!
# What a module sees of the process

* `Agree`     the positions that its topology uses;
* `Related`   two runs of it.
-/

/-!
# What the topologies of a process share

The positions of the known modules are one array for all topologies.  Of two such arrays that agree
on the places a topology uses, it does not see the difference.

* `Agree n g g'`     the arrays agree on the first `n` places;
* `reelect_agree`, `onDiscovery_agree`, `onNeighborLost_agree`, `tick_agree`   the calls.
-/

namespace EkKor
open Function
namespace Topology

/-- the positions agree on the first `n` places -/
def Agree (n : Nat) (g g' : Shared) : Prop :=
  ∀ i, i < n → g.knownPositions i = g'.knownPositions i

variable {g g' : Shared} {topo topo' : Topology}

theorem reelect_agree (h : Agree topo.allKnown.length g g') (time : TimeUs) :
    (reelect g topo time).1 = (reelect g' topo time).1 := by
  have hentries : entries g topo = entries g' topo := by
    refine List.map_congr_left fun known hmem => ?_
    have hlt := (List.mem_zipIdx' (List.mem_filter.mp hmem).1).1
    unfold entryAt
    rw [h _ hlt]
  unfold reelect
  rw [hentries]
  split_ifs <;> rfl

theorem reelect_length (g : Shared) (topo : Topology) (time : TimeUs) :
    (reelect g topo time).1.allKnown.length = topo.allKnown.length := by
  unfold reelect
  split_ifs <;> rfl

/-- the two results of `add_to_known` -/
theorem addToKnown_agree (h : Agree topo.allKnown.length g g') (id : ModuleId) (p : Position) :
    (addToKnown g topo id p = none ∧ addToKnown g' topo id p = none) ∨
      ∃ g₁ g₁' topo', addToKnown g topo id p = some (g₁, topo') ∧
        addToKnown g' topo id p = some (g₁', topo') ∧ Agree topo'.allKnown.length g₁ g₁' := by
  unfold addToKnown
  cases findKnownIndex topo id with
  | some idx =>
    refine .inr ⟨_, _, _, rfl, rfl, fun i hi => ?_⟩
    dsimp only
    by_cases hsame : i = idx
    · rw [hsame, update_self, update_self]
    · rw [update_of_ne hsame, update_of_ne hsame, h i hi]
  | none =>
    by_cases hfull : topo.allKnown.length ≥ maxModules
    · exact .inl ⟨if_pos hfull, if_pos hfull⟩
    · refine .inr ⟨_, _, _, if_neg hfull, if_neg hfull, fun i hi => ?_⟩
      dsimp only at hi ⊢
      rw [List.length_append, List.length_singleton] at hi
      by_cases hlast : i = topo.allKnown.length
      · rw [hlast, update_self, update_self]
      · rw [update_of_ne hlast, update_of_ne hlast, h i (by omega)]

theorem removeFromKnown_agree (h : Agree topo.allKnown.length g g') (id : ModuleId) :
    (removeFromKnown g topo id).2 = (removeFromKnown g' topo id).2 ∧
      Agree (removeFromKnown g topo id).2.allKnown.length (removeFromKnown g topo id).1
        (removeFromKnown g' topo id).1 := by
  unfold removeFromKnown
  cases findKnownIndex topo id with
  | none => exact ⟨rfl, h⟩
  | some idx =>
    refine ⟨rfl, fun i hi => ?_⟩
    have hle := (List.eraseIdx_sublist topo.allKnown idx).length_le
    dsimp only at hi ⊢
    split_ifs with hmoved
    · exact h (i + 1) hmoved.2
    · exact h i (by omega)

/-- **A discovery message.** -/
theorem onDiscovery_agree (h : Agree topo.allKnown.length g g') (htopo : topo = topo')
    (id : ModuleId) (p : Position) (time : TimeUs) :
    (onDiscovery g topo id p time).2.2.1 = (onDiscovery g' topo' id p time).2.2.1 ∧
      Agree (onDiscovery g topo id p time).2.2.1.allKnown.length
        (onDiscovery g topo id p time).2.1 (onDiscovery g' topo' id p time).2.1 := by
  subst htopo
  unfold onDiscovery
  by_cases hinvalid : id = invalidModuleId
  · rw [if_pos hinvalid, if_pos hinvalid]
    exact ⟨rfl, h⟩
  by_cases hself : id = topo.myId
  · rw [if_neg hinvalid, if_neg hinvalid, if_pos hself, if_pos hself]
    exact ⟨rfl, h⟩
  rw [if_neg hinvalid, if_neg hinvalid, if_neg hself, if_neg hself]
  rcases addToKnown_agree h id p with ⟨hnone, hnone'⟩ | ⟨g₁, g₁', topo', hsome, hsome', hagree⟩
  · rw [hnone, hnone']
    exact ⟨rfl, h⟩
  · rw [hsome, hsome']
    dsimp only
    split_ifs with hroom
    · refine ⟨reelect_agree hagree time, ?_⟩
      rw [reelect_length]
      exact hagree
    · exact ⟨rfl, hagree⟩

/-- **A neighbor that is lost.** -/
theorem onNeighborLost_agree (h : Agree topo.allKnown.length g g') (htopo : topo = topo')
    (id : ModuleId) (time : TimeUs) :
    (onNeighborLost g topo id time).2.2.1 = (onNeighborLost g' topo' id time).2.2.1 ∧
      Agree (onNeighborLost g topo id time).2.2.1.allKnown.length
        (onNeighborLost g topo id time).2.1 (onNeighborLost g' topo' id time).2.1 := by
  subst htopo
  unfold onNeighborLost
  by_cases hinvalid : id = invalidModuleId
  · rw [if_pos hinvalid, if_pos hinvalid]
    exact ⟨rfl, h⟩
  rw [if_neg hinvalid, if_neg hinvalid]
  cases findNeighborIndex topo id with
  | none => exact ⟨rfl, h⟩
  | some idx =>
    obtain ⟨hsame, hagree⟩ := removeFromKnown_agree h id
    dsimp only
    rw [← hsame]
    have hless : Agree ({ (removeFromKnown g topo id).2 with
        neighbors := (removeFromKnown g topo id).2.neighbors.eraseIdx idx } :
        Topology).allKnown.length (removeFromKnown g topo id).1 (removeFromKnown g' topo id).1 :=
      hagree
    refine ⟨reelect_agree hless time, ?_⟩
    rw [reelect_length]
    exact hagree

theorem tick_agree (h : Agree topo.allKnown.length g g') (htopo : topo = topo') (now : TimeUs) :
    (tick g topo now).2.1 = (tick g' topo' now).2.1 ∧
      Agree (tick g topo now).2.1.allKnown.length (tick g topo now).1 (tick g' topo' now).1 := by
  subst htopo
  unfold tick sendDiscovery
  by_cases hperiod : now - topo.lastDiscovery ≥ topo.config.discoveryPeriod
  · dsimp only
    split_ifs <;> exact ⟨rfl, h⟩
  · dsimp only
    split_ifs <;> exact ⟨rfl, h⟩

end Topology
end EkKor

/-!
# Two runs of one module

What a module does depends on the variables of the process only by the heartbeat engine and the
positions of the modules it knows.

* `Alike`       two modules are the same but for their fields, gradients and counters;
* `Related`     so are two states of a module with the variables of the process;
* `tick_related`, `init_related`   the calls keep this.
-/

namespace EkKor
namespace Module
open Runs Function

/-- two modules that do the same: the parts that decide what a module does -/
structure Alike (mod mod' : Module) : Prop where
  state : mod.state = mod'.state
  topology : mod.topology = mod'.topology
  consensus : mod.consensus = mod'.consensus
  tasks : mod.tasks = mod'.tasks
  capabilities : mod.capabilities = mod'.capabilities

theorem Alike.symm {mod mod' : Module} (h : Alike mod mod') : Alike mod' mod :=
  ⟨h.state.symm, h.topology.symm, h.consensus.symm, h.tasks.symm, h.capabilities.symm⟩

theorem Alike.trans {mod mod' mod'' : Module} (h : Alike mod mod') (h' : Alike mod' mod'') :
    Alike mod mod'' :=
  ⟨h.state.trans h'.state, h.topology.trans h'.topology, h.consensus.trans h'.consensus,
    h.tasks.trans h'.tasks, h.capabilities.trans h'.capabilities⟩

/-- the module does not see the difference -/
structure Related (s s' : Statics × Module) : Prop where
  alike : Alike s.2 s'.2
  heartbeat : s.1.heartbeat = s'.1.heartbeat
  positions : Topology.Agree s.2.topology.allKnown.length s.1.topology s'.1.topology

variable {s s' : Statics × Module} (now : TimeUs) (hal : Hal)

/-! ## messages and callbacks -/

theorem onNeighborAlive_related (h : Related s s') (id : ModuleId) (time : TimeUs) :
    Related (onNeighborAlive s id time).1 (onNeighborAlive s' id time).1 := by
  obtain ⟨⟨hstate, htopology, hconsensus, htasks, hcaps⟩, hheartbeat, hpositions⟩ := h
  obtain ⟨hsame, hagree⟩ := Topology.onDiscovery_agree hpositions htopology id ⟨0, 0, 0⟩ time
  exact ⟨⟨hstate, hsame, hconsensus, htasks, hcaps⟩, hheartbeat, hagree⟩

theorem onNeighborDead_related (h : Related s s') (id : ModuleId) (time : TimeUs) :
    Related (onNeighborDead s id time).1 (onNeighborDead s' id time).1 := by
  obtain ⟨⟨hstate, htopology, hconsensus, htasks, hcaps⟩, hheartbeat, hpositions⟩ := h
  obtain ⟨hsame, hagree⟩ := Topology.onNeighborLost_agree hpositions htopology id time
  exact ⟨⟨hstate, hsame, hconsensus, htasks, hcaps⟩, hheartbeat, hagree⟩

theorem callback_related (h : Related s s') (time : ModuleId → TimeUs) (out : Heartbeat.Out) :
    Related (callback time s out).1 (callback time s' out).1 := by
  cases out with
  | alive id => exact onNeighborAlive_related h id (time id)
  | suspect id => exact h
  | dead id => exact onNeighborDead_related h id (time id)
  | broadcast => exact h

theorem callbacks_related (h : Related s s') (time : ModuleId → TimeUs)
    (outs : List Heartbeat.Out) :
    Related ((callbacks time s).run outs) ((callbacks time s').run outs) :=
  Machine.run_related (callbacks time s) h outs fun out _ _ _ h => callback_related h time out

theorem receive_related (h : Related s s') (rx : Rx) :
    Related (receive now s rx).1 (receive now s' rx).1 := by
  obtain ⟨message, time⟩ := rx
  cases message with
  | heartbeat senderId sequence =>
    have hbeat : Related
        ({ s.1 with heartbeat := (Heartbeat.received s.1.heartbeat senderId sequence now).2.1 },
          s.2)
        ({ s'.1 with heartbeat := (Heartbeat.received s'.1.heartbeat senderId sequence now).2.1 },
          s'.2) :=
      ⟨h.alike, by rw [h.heartbeat], h.positions⟩
    have hcalled := callbacks_related hbeat (fun _ => time)
      (Heartbeat.received s.1.heartbeat senderId sequence now).2.2
    have houts : (Heartbeat.received s.1.heartbeat senderId sequence now).2.2 =
        (Heartbeat.received s'.1.heartbeat senderId sequence now).2.2 := by rw [h.heartbeat]
    rw [show (receive now s' ⟨.heartbeat senderId sequence, time⟩).1 =
      (callbacks (fun _ => time) ({ s'.1 with
        heartbeat := (Heartbeat.received s'.1.heartbeat senderId sequence now).2.1 }, s'.2)).run
        (Heartbeat.received s'.1.heartbeat senderId sequence now).2.2 from rfl, ← houts]
    exact hcalled
  | discovery senderId position =>
    obtain ⟨⟨hstate, htopology, hconsensus, htasks, hcaps⟩, hheartbeat, hpositions⟩ := h
    obtain ⟨hsame, hagree⟩ := Topology.onDiscovery_agree hpositions htopology senderId position time
    refine ⟨⟨hstate, hsame, hconsensus, htasks, hcaps⟩, ?_, hagree⟩
    show (Heartbeat.addNeighbor s.1.heartbeat senderId).2 =
      (Heartbeat.addNeighbor s'.1.heartbeat senderId).2
    rw [hheartbeat]
  | proposal proposerId ballotId type data threshold =>
    refine ⟨⟨h.alike.state, h.alike.topology, ?_, h.alike.tasks, h.alike.capabilities⟩,
      h.heartbeat, h.positions⟩
    show (Consensus.onProposal s.2.consensus (some onConsensusDecide) proposerId ballotId type data
        threshold time).2.1 =
      (Consensus.onProposal s'.2.consensus (some onConsensusDecide) proposerId ballotId type data
        threshold time).2.1
    rw [h.alike.consensus]
  | vote voterId ballotId vote =>
    refine ⟨⟨h.alike.state, h.alike.topology, ?_, h.alike.tasks, h.alike.capabilities⟩,
      h.heartbeat, h.positions⟩
    show (Consensus.onVote s.2.consensus voterId ballotId vote time).2.1 =
      (Consensus.onVote s'.2.consensus voterId ballotId vote time).2.1
    rw [h.alike.consensus]
  | field => exact h
  | other => exact h

theorem beat_related (h : Related s s') :
    Related (beat now hal s).1 (beat now hal s').1 ∧ (beat now hal s).2 = (beat now hal s').2 := by
  have htick : Heartbeat.tick s.1.heartbeat now hal.sent hal.sendTime =
      Heartbeat.tick s'.1.heartbeat now hal.sent hal.sendTime := by rw [h.heartbeat]
  refine ⟨⟨⟨h.alike.state, h.alike.topology, h.alike.consensus, h.alike.tasks,
    h.alike.capabilities⟩, ?_, h.positions⟩, ?_⟩
  · exact congrArg (fun r => r.2.1) htick
  · exact congrArg (fun r => r.2.2) htick

/-! ## the end of a tick -/

theorem updateTopology_related (h : Related s s') :
    Related (updateTopology now s).1 (updateTopology now s').1 := by
  obtain ⟨⟨hstate, htopology, hconsensus, htasks, hcaps⟩, hheartbeat, hpositions⟩ := h
  obtain ⟨hsame, hagree⟩ := Topology.tick_agree hpositions htopology now
  exact ⟨⟨hstate, hsame, hconsensus, htasks, hcaps⟩, hheartbeat, hagree⟩

theorem sampleFields_related (h : Related s s') :
    Related (sampleFields hal s) (sampleFields hal s') :=
  ⟨⟨h.alike.state, h.alike.topology, h.alike.consensus, h.alike.tasks, h.alike.capabilities⟩,
    h.heartbeat, h.positions⟩

theorem updateConsensus_related (h : Related s s') :
    Related (updateConsensus now s).1 (updateConsensus now s').1 := by
  refine ⟨⟨h.alike.state, h.alike.topology, ?_, h.alike.tasks, h.alike.capabilities⟩,
    h.heartbeat, h.positions⟩
  show (Consensus.tick s.2.consensus now).2.1 = (Consensus.tick s'.2.consensus now).2.1
  rw [h.alike.consensus]

theorem runTask_alike {mod mod' : Module} (h : Alike mod mod') (taskId : UInt8) :
    Alike (runTask now hal mod taskId).1 (runTask now hal mod' taskId).1 := by
  unfold runTask
  rw [← h.tasks]
  cases mod.tasks[taskId.toNat]? with
  | none => exact h
  | some task =>
    dsimp only
    by_cases hready : task.state ≠ .ready
    · rw [if_pos hready, if_pos hready]
      exact h
    · rw [if_neg hready, if_neg hready]
      exact ⟨h.state, h.topology, h.consensus, rfl, h.capabilities⟩

theorem runTask_topology (mod : Module) (taskId : UInt8) :
    (runTask now hal mod taskId).1.topology = mod.topology := by
  unfold runTask
  cases mod.tasks[taskId.toNat]? with
  | none => rfl
  | some task =>
    dsimp only
    split_ifs <;> rfl

theorem schedule_related (h : Related s s') :
    Related (schedule now hal s).1 (schedule now hal s').1 := by
  have hselect : selectTask s.2 hal.select = selectTask s'.2 hal.select := by
    unfold selectTask
    rw [h.alike.tasks, h.alike.capabilities]
  unfold schedule
  rw [← hselect, ← h.alike.tasks]
  dsimp only
  split_ifs
  · refine ⟨runTask_alike now hal h.alike _, h.heartbeat, ?_⟩
    rw [runTask_topology]
    exact h.positions
  · exact h

theorem publishField_alike (s : Statics × Module) :
    Alike (publishField now hal s).2 s.2 ∧
      (publishField now hal s).1.heartbeat = s.1.heartbeat ∧
      (publishField now hal s).1.topology = s.1.topology := by
  unfold publishField
  dsimp only
  split <;> exact ⟨⟨rfl, rfl, rfl, rfl, rfl⟩, rfl, rfl⟩

theorem publishField_related (h : Related s s') :
    Related (publishField now hal s) (publishField now hal s') := by
  obtain ⟨halike, hheartbeat, hshared⟩ := publishField_alike now hal s
  obtain ⟨halike', hheartbeat', hshared'⟩ := publishField_alike now hal s'
  refine ⟨(halike.trans h.alike).trans halike'.symm, ?_, ?_⟩
  · rw [hheartbeat, hheartbeat', h.heartbeat]
  · rw [halike.topology, hshared, hshared']
    exact h.positions

theorem updateModuleState_alike {mod mod' : Module} (h : Alike mod mod') :
    Alike (updateModuleState mod).1 (updateModuleState mod').1 := by
  refine ⟨?_, h.topology, h.consensus, h.tasks, h.capabilities⟩
  show nextState _ _ mod.state = nextState _ _ mod'.state
  rw [h.topology, h.state]

theorem finish_related (h : Related s s') : Related (finish now hal s).1 (finish now hal s').1 := by
  have hconsensus := updateConsensus_related now
    (sampleFields_related hal (updateTopology_related now h))
  have hpublished := publishField_related now hal (schedule_related now hal hconsensus)
  have hupdated := updateModuleState_alike hpublished.alike
  exact ⟨⟨hupdated.state, hupdated.topology, hupdated.consensus, hupdated.tasks,
    hupdated.capabilities⟩, hpublished.heartbeat, hpublished.positions⟩

/-! ## the calls -/

/-- **A tick.** -/
theorem tick_related (h : Related s s') (rxs : List Rx) :
    Related (tick s now rxs hal).1 (tick s' now rxs hal).1 := by
  have hidle : Idle s.2 ↔ Idle s'.2 := by
    unfold Idle
    rw [h.alike.state]
  unfold tick
  by_cases hs : Idle s.2
  · rw [if_pos hs, if_pos (hidle.mp hs)]
    exact h
  · rw [if_neg hs, if_neg fun hs' => hs (hidle.mpr hs')]
    have hcounted : Related (s.1, counted s.2) (s'.1, counted s'.2) :=
      ⟨⟨h.alike.state, h.alike.topology, h.alike.consensus, h.alike.tasks, h.alike.capabilities⟩,
        h.heartbeat, h.positions⟩
    have hheard := Machine.run_related (processRxMessages now (s.1, counted s.2))
      (N := processRxMessages now (s'.1, counted s'.2)) hcounted (rxs.take maxMessages)
      fun rx _ _ _ h => receive_related now h rx
    obtain ⟨hbeat, houts⟩ := beat_related now hal hheard
    have hcalled := callbacks_related hbeat hal.callback
      (beat now hal ((processRxMessages now (s.1, counted s.2)).run (rxs.take maxMessages))).2
    dsimp only
    rw [← houts]
    exact finish_related now hal hcalled

theorem start_related (h : Related s s') (time : TimeUs) :
    Related (s.1, (start s.2 time).2) (s'.1, (start s'.2 time).2) := by
  have hstart (mod : Module) : (start mod time).2.topology = mod.topology ∧
      (start mod time).2.consensus = mod.consensus ∧ (start mod time).2.tasks = mod.tasks ∧
      (start mod time).2.capabilities = mod.capabilities ∧
      (start mod time).2.state = if mod.state = .init then .discovering else mod.state := by
    unfold start
    by_cases hinit : mod.state = .init
    · rw [if_neg (not_not.mpr hinit), if_pos hinit]
      exact ⟨rfl, rfl, rfl, rfl, rfl⟩
    · rw [if_pos hinit, if_neg hinit]
      exact ⟨rfl, rfl, rfl, rfl, rfl⟩
  obtain ⟨htopology, hconsensus, htasks, hcaps, hstate⟩ := hstart s.2
  obtain ⟨htopology', hconsensus', htasks', hcaps', hstate'⟩ := hstart s'.2
  refine ⟨⟨?_, ?_, ?_, ?_, ?_⟩, h.heartbeat, ?_⟩
  · rw [hstate, hstate', h.alike.state]
  · rw [htopology, htopology', h.alike.topology]
  · rw [hconsensus, hconsensus', h.alike.consensus]
  · rw [htasks, htasks', h.alike.tasks]
  · rw [hcaps, hcaps', h.alike.capabilities]
  · rw [htopology]
    exact h.positions

end Module
end EkKor
