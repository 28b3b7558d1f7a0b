import EkKor.Lib.Runs
import EkKor.Consensus.Model
import EkKor.Module.Field

/-!
# Modules (`ekk_module.c`)

`Statics` is what the process keeps outside its modules, the one heartbeat engine among it.  A
callback acts on `g_current_module`, which is the module whose tick runs.

* `Task`, `Module`, `Statics`, `Message`   the data;
* `receive`, `callback`   a message, and a callback of the heartbeat engine;
* `init`, `start`, `stop`, `tick`   the API; the phases of a tick have their own definitions.

`Hal` is what the HAL returns in a tick.
-/

namespace EkKor
namespace Module

/-! ## data -/

/-- `ekk_module_state_t` -/
inductive State where
  | init
  | discovering
  | active
  | degraded
  | isolated
  | reforming
  | shutdown
  deriving DecidableEq, Repr

/-- `ekk_task_state_t` -/
inductive TaskState where
  | idle
  | ready
  | running
  | blocked
  deriving DecidableEq, Repr

/-- `ekk_internal_task_t`; `critical` is the one of its deadline -/
structure Task where
  id : UInt8
  state : TaskState
  priority : UInt8
  period : TimeUs
  nextRun : TimeUs
  runCount : UInt32
  totalRuntime : TimeUs
  hasDeadline : Bool
  critical : Bool
  requiredCaps : UInt16
  deriving DecidableEq, Repr

end Module

/-- `ekk_module_t` -/
structure Module where
  id : ModuleId
  state : Module.State
  myField : Field
  neighborAggregate : Field
  gradients : Vector Int32 6
  topology : Topology
  consensus : Consensus
  tasks : List Module.Task
  activeTask : UInt8
  lastTick : TimeUs
  tickPeriod : TimeUs
  ticksTotal : UInt32
  fieldUpdates : UInt32
  topologyChanges : UInt32
  consensusRounds : UInt32
  capabilities : UInt16

namespace Module
open Runs

/-- the variables of the process: `g_heartbeat`, the ones of the topology and `g_field_region` -/
structure Statics where
  heartbeat : Heartbeat
  topology : Topology.Shared
  region : Option Field.Region

/-- the zeros of `memset` -/
def zero : Module where
  id := 0
  state := .init
  myField := Field.zero
  neighborAggregate := Field.zero
  gradients := Vector.replicate 6 0
  topology := ⟨0, ⟨0, 0, 0⟩, [], [], 0, 0, ⟨0, .logical, 0, 0, 0⟩⟩
  consensus := ⟨0, [], [], 0, ⟨0, 0, false⟩⟩
  tasks := []
  activeTask := 0
  lastTick := 0
  tickPeriod := 0
  ticksTotal := 0
  fieldUpdates := 0
  topologyChanges := 0
  consensusRounds := 0
  capabilities := 0

def Statics.zero : Statics where
  heartbeat := ⟨0, [], 0, 0, ⟨0, 0, false, false⟩, ⟨false, false, false⟩⟩
  topology := Topology.Shared.zero
  region := none

/-- what `ekk_hal_recv` returns -/
inductive Message where
  | heartbeat (senderId : ModuleId) (sequence : UInt8)
  | discovery (senderId : ModuleId) (position : Topology.Position)
  | proposal (proposerId : ModuleId) (ballotId : BallotId) (type : Consensus.ProposalType)
      (data : UInt32) (threshold : Fixed)
  | vote (voterId : ModuleId) (ballotId : BallotId) (vote : VoteValue)
  | field
  | other

/-- a message, and the value of `ekk_hal_time_us` while it is processed -/
structure Rx where
  message : Message
  time : TimeUs

/-- what is sent, and the calls of the callbacks and of a task -/
inductive Out where
  | heartbeat (out : Heartbeat.Out)
  | topology (out : Topology.Out)
  | consensus (out : Consensus.Out)
  | neighborFound (id : ModuleId)
  | neighborLost (id : ModuleId)
  | stateChange (old new : State)
  | run (taskId : UInt8)

/-- the values of `ekk_hal_time_us` at the places of a tick that read it, and the result of
`ekk_hal_broadcast` for the heartbeat -/
structure Hal where
  callback : ModuleId → TimeUs
  sent : Except Err Unit
  sendTime : TimeUs
  sample : ModuleId → TimeUs
  select : TimeUs
  start : TimeUs
  stop : TimeUs
  publish : TimeUs

/-! ## initialisation -/

/-- `ekk_module_init` -/
def init (g : Statics) (mod : Module) (id : ModuleId) (position : Topology.Position) :
    Except Err Unit × Statics × Module :=
  if id = invalidModuleId then (.error .invalidArg, g, mod)
  else
    let mod := { zero with id := id, state := .init, activeTask := 0xFF, tickPeriod := 1000 }
    match Topology.init id position none with
    | .error err => (.error err, g, mod)
    | .ok topology =>
      let mod := { mod with topology := topology }
      match Consensus.init id none with
      | .error err => (.error err, g, mod)
      | .ok consensus =>
        let mod := { mod with consensus := consensus }
        match Heartbeat.init id none with
        | .error err => (.error err, g, mod)
        | .ok heartbeat =>
          (.ok (), { g with heartbeat := heartbeat.setCallbacks ⟨true, true, true⟩ },
            { mod with myField := { Field.zero with source := id } })

/-- `ekk_module_start`; `time` is the value of `ekk_hal_time_us` -/
def start (mod : Module) (time : TimeUs) : Except Err Unit × Module :=
  if mod.state ≠ .init then (.error .busy, mod)
  else (.ok (), { mod with state := .discovering, lastTick := time })

/-- `ekk_module_stop` -/
def stop (mod : Module) : Module := { mod with state := .shutdown }

/-! ## callbacks -/

/-- `on_neighbor_alive_cb` -/
def onNeighborAlive (s : Statics × Module) (id : ModuleId) (time : TimeUs) :
    (Statics × Module) × List Out :=
  let (_, shared, topology, outs) :=
    Topology.onDiscovery s.1.topology s.2.topology id ⟨0, 0, 0⟩ time
  (({ s.1 with topology := shared }, { s.2 with topology := topology }),
    outs.map .topology ++ [.neighborFound id])

/-- `on_neighbor_dead_cb` -/
def onNeighborDead (s : Statics × Module) (id : ModuleId) (time : TimeUs) :
    (Statics × Module) × List Out :=
  let (_, shared, topology, outs) := Topology.onNeighborLost s.1.topology s.2.topology id time
  (({ s.1 with topology := shared }, { s.2 with topology := topology }),
    outs.map .topology ++ [.neighborLost id])

/-- the callbacks of the heartbeat engine; `on_neighbor_suspect_cb` does nothing -/
def callback (time : ModuleId → TimeUs) (s : Statics × Module) :
    Heartbeat.Out → (Statics × Module) × List Out
  | .alive id => onNeighborAlive s id (time id)
  | .suspect _ => (s, [])
  | .dead id => onNeighborDead s id (time id)
  | .broadcast senderId sequence neighborCount =>
    (s, [.heartbeat (.broadcast senderId sequence neighborCount)])

def callbacks (time : ModuleId → TimeUs) (s : Statics × Module) :
    Machine (Statics × Module) Heartbeat.Out Out := ⟨s, callback time⟩

/-- `on_consensus_decide_cb` with the default `ekk_module_decide_vote` -/
def onConsensusDecide (_ : Consensus) (_ : Consensus.Ballot) : VoteValue := .yes

/-! ## the phases of a tick -/

/-- a message in `process_rx_messages` -/
def receive (now : TimeUs) (s : Statics × Module) (rx : Rx) : (Statics × Module) × List Out :=
  match rx.message with
  | .heartbeat senderId sequence =>
    let (_, heartbeat, outs) := Heartbeat.received s.1.heartbeat senderId sequence now
    let called := callbacks (fun _ => rx.time) ({ s.1 with heartbeat := heartbeat }, s.2)
    (called.run outs, called.trace outs)
  | .discovery senderId position =>
    let (_, shared, topology, outs) :=
      Topology.onDiscovery s.1.topology s.2.topology senderId position rx.time
    let (_, heartbeat) := Heartbeat.addNeighbor s.1.heartbeat senderId
    (({ s.1 with topology := shared, heartbeat := heartbeat }, { s.2 with topology := topology }),
      outs.map .topology)
  | .proposal proposerId ballotId type data threshold =>
    let (_, consensus, outs) :=
      Consensus.onProposal s.2.consensus (some onConsensusDecide) proposerId ballotId type data
        threshold rx.time
    ((s.1, { s.2 with consensus := consensus }), outs.map .consensus)
  | .vote voterId ballotId vote =>
    let (_, consensus, outs) :=
      Consensus.onVote s.2.consensus voterId ballotId vote rx.time
    ((s.1, { s.2 with consensus := consensus }), outs.map .consensus)
  | .field => (s, [])
  | .other => (s, [])

abbrev maxMessages : Nat := 16

/-- `process_rx_messages` -/
def processRxMessages (now : TimeUs) (s : Statics × Module) : Machine (Statics × Module) Rx Out :=
  ⟨s, receive now⟩

def beat (now : TimeUs) (hal : Hal) (s : Statics × Module) :
    (Statics × Module) × List Heartbeat.Out :=
  let (changes, heartbeat, outs) := Heartbeat.tick s.1.heartbeat now hal.sent hal.sendTime
  (({ s.1 with heartbeat := heartbeat },
    { s.2 with
      topologyChanges :=
        if changes > 0 then s.2.topologyChanges + 1 else s.2.topologyChanges }), outs)

/-- phase 3; `ekk_topology_tick` always returns false -/
def updateTopology (now : TimeUs) (s : Statics × Module) : (Statics × Module) × List Out :=
  let (shared, topology, outs) := Topology.tick s.1.topology s.2.topology now
  (({ s.1 with topology := shared }, { s.2 with topology := topology }), outs.map .topology)

def sampleFields (hal : Hal) (s : Statics × Module) : Statics × Module :=
  let aggregate := Field.sampleNeighbors s.1.region hal.sample s.2.topology.neighbors
  (s.1,
    { s.2 with
      neighborAggregate := aggregate
      gradients := Field.gradientAll s.2.myField aggregate })

def updateConsensus (now : TimeUs) (s : Statics × Module) : (Statics × Module) × List Out :=
  let (changes, consensus, outs) := Consensus.tick s.2.consensus now
  ((s.1,
    { s.2 with
      consensus := consensus
      consensusRounds :=
        if changes > 0 then s.2.consensusRounds + 1 else s.2.consensusRounds }),
    outs.map .consensus)

/-! ## tasks -/

/-- `ekk_can_perform` -/
def canPerform (caps need : UInt16) : Bool := caps &&& need == need

/-- the best task of the loop of `ekk_module_select_task` -/
structure Choice where
  task : UInt8
  priority : UInt8
  critical : Bool

/-- what the loop of `ekk_module_select_task` does with a task -/
def consider (capabilities : UInt16) (now : TimeUs) (best : Choice) (task : Task) : Choice :=
  if task.state ≠ .ready then best
  else if task.period > 0 ∧ task.nextRun > now then best
  else if task.requiredCaps ≠ 0 ∧ canPerform capabilities task.requiredCaps = false then best
  else
    let critical := task.hasDeadline && task.critical
    if critical = true ∧ best.critical = false then ⟨task.id, task.priority, critical⟩
    else if critical = best.critical ∧ task.priority < best.priority then
      ⟨task.id, task.priority, critical⟩
    else best

/-- `ekk_module_select_task`, the default; `now` is the value of `ekk_hal_time_us` -/
def selectTask (mod : Module) (now : TimeUs) : UInt8 :=
  (mod.tasks.foldl (consider mod.capabilities now) ⟨0xFF, 0xFF, false⟩).task

/-- `run_task`; the task runs at the time `hal.start` and until `hal.stop` -/
def runTask (now : TimeUs) (hal : Hal) (mod : Module) (taskId : UInt8) : Module × List Out :=
  match mod.tasks[taskId.toNat]? with
  | none => (mod, [])
  | some task =>
    if task.state ≠ .ready then (mod, [])
    else
      let task :=
        { task with
          totalRuntime := task.totalRuntime + (hal.stop - hal.start)
          runCount := task.runCount + 1
          state := if task.period > 0 then .ready else .idle
          nextRun := if task.period > 0 then now + task.period else task.nextRun }
      ({ mod with tasks := mod.tasks.set taskId.toNat task, activeTask := 0xFF }, [.run taskId])

def schedule (now : TimeUs) (hal : Hal) (s : Statics × Module) : (Statics × Module) × List Out :=
  let taskToRun := selectTask s.2 hal.select
  if taskToRun.toNat < s.2.tasks.length then
    let (mod, outs) := runTask now hal s.2 taskToRun
    ((s.1, mod), outs)
  else (s, [])

/-! ## the end of a tick -/

def publishField (now : TimeUs) (hal : Hal) (s : Statics × Module) : Statics × Module :=
  let mod := { s.2 with myField := { s.2.myField with timestamp := now } }
  let (published, region) := Field.publish s.1.region mod.id mod.myField hal.publish
  ({ s.1 with region := region },
    match published with
    | .ok () => { mod with fieldUpdates := mod.fieldUpdates + 1 }
    | .error _ => mod)

/-- the state that `update_module_state` finds -/
def nextState (neighborCount minNeighbors : Nat) : State → State
  | .init => .init
  | .discovering => if neighborCount ≥ minNeighbors then .active else .discovering
  | .active =>
    if neighborCount = 0 then .isolated
    else if neighborCount < minNeighbors then .degraded
    else .active
  | .degraded =>
    if neighborCount = 0 then .isolated
    else if neighborCount ≥ minNeighbors then .active
    else .degraded
  | .isolated =>
    if neighborCount ≥ minNeighbors then .active
    else if neighborCount > 0 then .degraded
    else .isolated
  | .reforming =>
    if neighborCount ≥ minNeighbors then .active
    else if neighborCount > 0 then .degraded
    else .isolated
  | .shutdown => .shutdown

/-- `update_module_state` -/
def updateModuleState (mod : Module) : Module × List Out :=
  let newState := nextState mod.topology.neighbors.length mod.topology.config.minNeighbors.toNat
    mod.state
  ({ mod with state := newState },
    if newState ≠ mod.state then [.stateChange mod.state newState] else [])

/-! ## the tick -/

def finish (now : TimeUs) (hal : Hal) (s : Statics × Module) : (Statics × Module) × List Out :=
  let topology := updateTopology now s
  let consensus := updateConsensus now (sampleFields hal topology.1)
  let task := schedule now hal consensus.1
  let published := publishField now hal task.1
  let updated := updateModuleState published.2
  ((published.1, { updated.1 with lastTick := now }),
    topology.2 ++ consensus.2 ++ task.2 ++ updated.2)

def Idle (mod : Module) : Prop := mod.state = .init ∨ mod.state = .shutdown

instance decidableIdle (mod : Module) : Decidable (Idle mod) := inferInstanceAs (Decidable (_ ∨ _))

def counted (mod : Module) : Module := { mod with ticksTotal := mod.ticksTotal + 1 }

/-- `ekk_module_tick`; `rxs` is what can be received -/
def tick (s : Statics × Module) (now : TimeUs) (rxs : List Rx) (hal : Hal) :
    (Statics × Module) × List Out :=
  if Idle s.2 then (s, [])
  else
    let process := processRxMessages now (s.1, counted s.2)
    let beaten := beat now hal (process.run (rxs.take maxMessages))
    let called := callbacks hal.callback beaten.1
    let finished := finish now hal (called.run beaten.2)
    (finished.1,
      process.trace (rxs.take maxMessages) ++ called.trace beaten.2 ++ finished.2)

end Module
end EkKor
