import EkKor.Module.Twin
import EkKor.Module.Election

/-!
# Two modules of one process

The modules have the variables of the process in common, the heartbeat engine among them.

* `Process`, `Op`, `process`   two modules, and the calls on them in any order;
* `View`, `history`   what is compared: what module A is after each call on it;
* `Undisturbed`       since A was initialised, B was not initialised and no tick of B ran;
* `independent_of_undisturbed`   then A does not depend on the calls on B.
-/

namespace EkKor
open Runs

/-- the variables of a process and two modules -/
structure Process where
  statics : Module.Statics
  a : Module
  b : Module

namespace Process
open EkKor.Module (Statics Rx Hal Idle Alike Related)

/-! ## runs -/

/-- the calls on a module; a tick comes with the frames that it receives -/
inductive Call where
  | init (id : ModuleId) (position : Topology.Position)
  | start (time : TimeUs)
  | tick (now : TimeUs) (rxs : List Rx) (hal : Hal)

def perform (s : Statics × Module) : Call → Statics × Module
  | .init id position => (Module.init s.1 s.2 id position).2
  | .start time => (s.1, (Module.start s.2 time).2)
  | .tick now rxs hal => (Module.tick s now rxs hal).1

inductive Op where
  | a (call : Call)
  | b (call : Call)

def Op.isA : Op → Bool
  | .a _ => true
  | .b _ => false

/-- a module as it is compared -/
structure View where
  topology : Topology
  health : ModuleId → Health
  consensus : Consensus
  tasks : List Module.Task
  state : Module.State

def view (s : Statics × Module) : View where
  topology := s.2.topology
  health := Heartbeat.getHealth s.1.heartbeat
  consensus := s.2.consensus
  tasks := s.2.tasks
  state := s.2.state

def step (p : Process) : Op → Process × List View
  | .a call =>
    let s := perform (p.statics, p.a) call
    ({ p with statics := s.1, a := s.2 }, [view s])
  | .b call =>
    let s := perform (p.statics, p.b) call
    ({ p with statics := s.1, b := s.2 }, [])

def process (p : Process) : Machine Process Op View := ⟨p, step⟩

def history (p : Process) (ops : List Op) : List View := (process p).trace ops

def Independent (p : Process) (ops : List Op) : Prop :=
  history p ops = history p (ops.filter Op.isA)

/-! ## the condition -/

def mark (p : Process) (disturbed : Bool) : Op → Bool
  | .a (.init id _) => if id = invalidModuleId then disturbed else false
  | .a _ => disturbed
  | .b (.init id _) => if id = invalidModuleId then disturbed else true
  | .b (.start _) => disturbed
  | .b (.tick ..) => if Idle p.b then disturbed else true

def disturbed (p : Process) : List Op → Bool → Bool
  | [], d => d
  | op :: ops, d => disturbed (step p op).1 ops (mark p d op)

def Undisturbed (p : Process) (pre : List Op) : Op → Prop
  | .a (.init id _) => id = invalidModuleId → disturbed p pre false = false
  | .a _ => disturbed p pre false = false
  | .b _ => True

variable {p : Process} {ops : List Op}

theorem disturbed_concat (p : Process) (ops : List Op) (op : Op) (d : Bool) :
    disturbed p (ops ++ [op]) d = mark ((process p).run ops) (disturbed p ops d) op := by
  induction ops generalizing p d with
  | nil => rfl
  | cons first ops ih => exact ih (step p first).1 (mark p d first)

/-! ## the calls -/

theorem init_invalid (s : Statics × Module) {id : ModuleId} (h : id = invalidModuleId)
    (position : Topology.Position) : perform s (.init id position) = s := by
  show (Module.init s.1 s.2 id position).2 = s
  unfold Module.init
  rw [if_pos h]

theorem init_related (s s' : Statics × Module) {id : ModuleId} (h : id ≠ invalidModuleId)
    (position : Topology.Position) :
    Related (perform s (.init id position)) (perform s' (.init id position)) := by
  have htopology : Topology.init id position none = .ok _ := if_neg h
  have hconsensus : Consensus.init id none = .ok _ := if_neg h
  have hheartbeat : Heartbeat.init id none = .ok _ := if_neg h
  show Related (Module.init s.1 s.2 id position).2 (Module.init s'.1 s'.2 id position).2
  unfold Module.init
  rw [if_neg h, if_neg h, htopology, hconsensus, hheartbeat]
  exact ⟨⟨rfl, rfl, rfl, rfl, rfl⟩, rfl, fun i hi => absurd hi (Nat.not_lt_zero i)⟩

variable {s s' : Statics × Module} {call : Call}

theorem perform_related (h : Related s s') (call : Call) :
    Related (perform s call) (perform s' call) := by
  cases call with
  | init id position =>
    by_cases hid : id = invalidModuleId
    · rw [init_invalid s hid, init_invalid s' hid]
      exact h
    · exact init_related s s' hid position
  | start time => exact Module.start_related h time
  | tick now rxs hal => exact Module.tick_related now hal h rxs

theorem view_related (h : Related s s') : view s = view s' := by
  unfold view
  rw [h.alike.topology, h.heartbeat, h.alike.consensus, h.alike.tasks, h.alike.state]

theorem statics_of_mark (h : mark p false (.b call) = false) :
    (step p (.b call)).1.statics = p.statics := by
  cases call with
  | init id position =>
    change (if id = invalidModuleId then false else true) = false at h
    split_ifs at h with hid
    show (perform (p.statics, p.b) (.init id position)).1 = _
    rw [init_invalid _ hid]
  | start time => rfl
  | tick now rxs hal =>
    change (if Idle p.b then false else true) = false at h
    split_ifs at h with hidle
    show (Module.tick (p.statics, p.b) now rxs hal).1.1 = _
    unfold Module.tick
    rw [if_pos hidle]

theorem mark_of_b {d : Bool} (h : mark p d (.b call) = false) : d = false := by
  cases call with
  | init id position =>
    change (if id = invalidModuleId then d else true) = false at h
    split_ifs at h
    exact h
  | start time => exact h
  | tick now rxs hal =>
    change (if Idle p.b then d else true) = false at h
    split_ifs at h
    exact h

/-! ## independence -/

/-- what is kept: module A is the same, and what it needs of the variables, unless it is disturbed -/
structure Twins (p : Process) (ops : List Op) : Prop where
  history : Independent p ops
  related : disturbed p ops false = false →
    Related (((process p).run ops).statics, ((process p).run ops).a)
      (((process p).run (ops.filter Op.isA)).statics, ((process p).run (ops.filter Op.isA)).a)

/-- **A call on A.** -/
theorem Twins.onA (h : Twins p ops) (hrelated : Related (perform (((process p).run ops).statics,
    ((process p).run ops).a) call) (perform (((process p).run (ops.filter Op.isA)).statics,
    ((process p).run (ops.filter Op.isA)).a) call)) : Twins p (ops ++ [.a call]) := by
  have hfilter : (ops ++ [Op.a call]).filter Op.isA = ops.filter Op.isA ++ [.a call] := by
    rw [List.filter_append]
    rfl
  have hviews : (process p).outs ((process p).run ops) (.a call) =
      (process p).outs ((process p).run (ops.filter Op.isA)) (.a call) :=
    congrArg (fun v => [v]) (view_related hrelated)
  refine ⟨?_, fun _ => ?_⟩
  · show (process p).trace _ = (process p).trace _
    rw [hfilter, Machine.trace_concat, Machine.trace_concat, hviews]
    exact congrArg (· ++ _) h.history
  · rw [hfilter, Machine.run_concat, Machine.run_concat]
    exact hrelated

/-- **A call on B.** -/
theorem Twins.onB (h : Twins p ops) (call : Call) : Twins p (ops ++ [.b call]) := by
  have hfilter : (ops ++ [Op.b call]).filter Op.isA = ops.filter Op.isA := by
    rw [List.filter_append]
    exact List.append_nil _
  refine ⟨?_, fun hd => ?_⟩
  · show (process p).trace _ = (process p).trace _
    rw [hfilter, Machine.trace_concat]
    exact (List.append_nil _).trans h.history
  · rw [disturbed_concat] at hd
    have hbefore := mark_of_b hd
    rw [hbefore] at hd
    have hrelated := h.related hbefore
    rw [hfilter, Machine.run_concat]
    have hstatics : ((process p).next ((process p).run ops) (.b call)).statics =
        ((process p).run ops).statics := statics_of_mark hd
    rw [hstatics]
    exact hrelated

/-- **Main.** Module A is as in the run without the calls on B, if no call on A comes after B was
initialised or a tick of B ran, before A is initialised again. -/
theorem independent_of_undisturbed (p : Process) (ops : List Op)
    (h : EveryStep (Undisturbed p) ops) : Independent p ops := by
  suffices htwins : Twins p ops from htwins.history
  refine history_induction ?_ (fun ops op htwins hcall => ?_) ops h
  · exact ⟨rfl, fun _ => ⟨⟨rfl, rfl, rfl, rfl, rfl⟩, rfl, fun _ _ => rfl⟩⟩
  · cases op with
    | b call => exact htwins.onB call
    | a call =>
      cases call with
      | init id position =>
        by_cases hid : id = invalidModuleId
        · exact htwins.onA (perform_related (htwins.related (hcall hid)) _)
        · exact htwins.onA (init_related _ _ hid position)
      | start time => exact htwins.onA (perform_related (htwins.related hcall) _)
      | tick now rxs hal => exact htwins.onA (perform_related (htwins.related hcall) _)

def fresh : Process := ⟨Statics.zero, Module.zero, Module.zero⟩

def sampleTick (now : TimeUs) (messages : List Module.Message) : Call :=
  .tick now (messages.map fun m => ⟨m, now⟩)
    ⟨fun _ => now, .ok (), now, fun _ => now, now, now, now, now⟩

/-- B is initialised first and does not run -/
theorem independent_sample : Independent fresh
    [.b (.init 20 ⟨0, 0, 0⟩), .a (.init 10 ⟨0, 0, 0⟩), .a (.start 0), .b (.start 0),
      .a (sampleTick 0 [.discovery 11 ⟨0, 0, 0⟩, .heartbeat 11 0])] := by
  refine independent_of_undisturbed _ _ ?_
  rw [everyStep_cons, everyStep_cons, everyStep_cons, everyStep_cons, everyStep_cons]
  exact ⟨trivial, fun h => absurd h (by decide), rfl, trivial, rfl, everyStep_nil _⟩

/-- the initialisation of B empties the heartbeat engine of A -/
theorem dependent : ∃ ops, (∀ pre ∈ ops.inits,
      20 ∉ Topology.ids ((process fresh).run pre).a.topology ∧
      10 ∉ Topology.ids ((process fresh).run pre).b.topology) ∧
    ¬Independent fresh ops := by
  refine ⟨[.a (.init 10 ⟨0, 0, 0⟩), .a (.start 0),
    .a (sampleTick 0 [.discovery 11 ⟨0, 0, 0⟩, .heartbeat 11 0]), .b (.init 20 ⟨0, 0, 0⟩),
    .a (sampleTick 10000 [])], by decide, fun h => ?_⟩
  exact absurd (congrArg (fun views => views.map fun v => v.health 11) h) (by decide)

end Process
end EkKor
