import EkKor.Agreement.Steps

/-!
# The two engines over a run

* `cEngine`, `rustEngine`   fresh engines with equal timeouts after a list of calls;
* `Agrees`            a call gets the same answer from both, and afterwards
                      `ekk_consensus_get_result` and `get_result` are the same for every id;
* `engines_agree`     in a run whose calls are all `Compatible`, every call `Agrees`;
* `engines_differ`    a ballot that runs out of time.
-/

namespace EkKor
namespace Agreement
open Runs

def cConfig (config : Rust.Config) : Consensus.Config :=
  { voteTimeout := config.voteTimeout
    inhibitDuration := config.inhibitDuration
    allowSelfVote := false }

section
variable (checks : Bool) (decision : Consensus.Decision)
  (onDecide : Option (Rust.Ballot → VoteValue)) (myId : ModuleId) (config : Rust.Config)

def cEngine (es : List Call) : Consensus :=
  (Consensus.machine decision (Consensus.fresh myId (cConfig config))).run (es.map Call.c)

/-- the Rust engine after the calls; `none` if one of them panicked -/
def rustEngine (es : List Call) : Option Rust.Consensus :=
  es.foldlM (fun r e => (rustStep checks onDecide r e).map Prod.snd)
    (Rust.Consensus.new myId (some config))

/-- after `pre`, the call `e` gets the same answer from both engines, and afterwards both have the
same result for every id -/
def Agrees (pre : List Call) (e : Call) : Prop :=
  ∃ r r', rustEngine checks onDecide myId config pre = some r ∧
    rustStep checks onDecide r e = some (reply decision (cEngine decision myId config pre) e, r') ∧
    ∀ id, r'.getResult id
      = Consensus.getResult (cEngine decision myId config (pre ++ [e])) id

theorem cEngine_concat (es : List Call) (e : Call) : cEngine decision myId config (es ++ [e])
    = (Consensus.step decision (cEngine decision myId config es) e.c).1 := by
  unfold cEngine
  rw [List.map_append, List.map_singleton, Machine.run_concat]
  rfl

theorem cEngine_myId (es : List Call) : (cEngine decision myId config es).myId = myId :=
  Consensus.run_myId decision _ _

theorem rustEngine_concat (es : List Call) (e : Call) :
    rustEngine checks onDecide myId config (es ++ [e])
      = (rustEngine checks onDecide myId config es).bind fun r =>
          (rustStep checks onDecide r e).map Prod.snd := by
  unfold rustEngine
  rw [List.foldlM_append]
  refine congrArg (Option.bind _) (funext fun r => ?_)
  exact Option.bind_fun_some _

theorem fresh_same : Same (Consensus.fresh myId (cConfig config))
    (Rust.Consensus.new myId (some config)) :=
  ⟨rfl, rfl, rfl, rfl, rfl⟩

theorem fresh_sound : (Rust.Consensus.new myId (some config)).Sound checks :=
  ⟨show (1 : BallotId) ≠ 0 by decide, fun _ hb => nomatch hb⟩

variable {checks decision onDecide myId config}

theorem engines_same {es : List Call} (hvalid : ∀ e ∈ es, e.Valid myId)
    (hes : EveryStep (fun pre e => ∀ r ∈ rustEngine checks onDecide myId config pre,
      Compatible checks (cEngine decision myId config pre) r e) es) :
    ∃ r, rustEngine checks onDecide myId config es = some r ∧
      Same (cEngine decision myId config es) r ∧ r.Sound checks := by
  induction es using List.reverseRecOn with
  | nil => exact ⟨_, rfl, fresh_same myId config, fresh_sound checks myId config⟩
  | append_singleton es e ih =>
    obtain ⟨hold, hc⟩ := (everyStep_concat _ es e).mp hes
    obtain ⟨r, hr, hsame, hsound⟩ :=
      ih (fun a ha => hvalid a (List.mem_append_left _ ha)) hold
    have he : e.Valid (cEngine decision myId config es).myId := by
      rw [cEngine_myId]
      exact hvalid e List.mem_concat_self
    obtain ⟨r', hs, hsame', hsound'⟩ :=
      step_agrees hsame hsound he (hc r hr) decision onDecide
    refine ⟨r', ?_, by rw [cEngine_concat]; exact hsame', hsound'⟩
    rw [rustEngine_concat, hr, Option.bind_some, hs]
    rfl

/-- **The engines agree.**  In every run of fresh engines with valid calls that are all
`Compatible`: no call panics, every call gets the same answer from both, and after every call the
results are the same for every id. -/
theorem engines_agree {es : List Call} (hvalid : ∀ e ∈ es, e.Valid myId)
    (hes : EveryStep (fun pre e => ∀ r ∈ rustEngine checks onDecide myId config pre,
      Compatible checks (cEngine decision myId config pre) r e) es) :
    EveryStep (Agrees checks decision onDecide myId config) es := by
  intro pre e hp
  have hmem : ∀ a ∈ pre ++ [e], a.Valid myId := fun a ha => hvalid a (hp.subset ha)
  obtain ⟨hold, hc⟩ := (everyStep_concat _ pre e).mp (hes.initial hp)
  obtain ⟨r, hr, hsame, hsound⟩ :=
    engines_same (fun a ha => hmem a (List.mem_append_left _ ha)) hold
  have he : e.Valid (cEngine decision myId config pre).myId := by
    rw [cEngine_myId]
    exact hmem e List.mem_concat_self
  obtain ⟨r', hs, hsame', hsound'⟩ := step_agrees hsame hsound he (hc r hr) decision onDecide
  refine ⟨r, r', hr, hs, fun id => ?_⟩
  rw [cEngine_concat]
  exact hsame'.getResult hsound' id

end

/-- module 1 proposes, hears of a proposal of module 2, gets a vote, inhibits, and ticks before the
deadlines -/
theorem engines_agree_two : EveryStep (Agrees true none none 1 Rust.Config.default)
    [.propose .shutdown 0 43909 0, .onProposal 2 9 .powerLimit 5 32768 10, .onVote 2 1 .yes 20,
      .inhibit 9 30, .tick 100] := by
  refine engines_agree (by decide) ((everyStep_concat _ [_, _, _, _] _).mpr
    ⟨(everyStep_concat _ [_, _, _] _).mpr ⟨(everyStep_concat _ [_, _] _).mpr
      ⟨(everyStep_concat _ [_] _).mpr ⟨(everyStep_concat _ [] _).mpr
        ⟨everyStep_nil _, ?_⟩, ?_⟩, ?_⟩, ?_⟩, ?_⟩) <;> decide

/-- **Different results.**  Nobody votes: at the deadline the Rust engine times the ballot out, the
C engine drops it. -/
theorem engines_differ : ¬ EveryStep (Agrees true none none 1 Rust.Config.default)
    [.propose .shutdown 0 43909 0, .tick 50000] := by
  intro h
  obtain ⟨r, r', hr, hs, hres⟩ :=
    h [.propose .shutdown 0 43909 0] (.tick 50000) (List.prefix_refl _)
  have hone := hres 1
  obtain rfl := Option.some.inj hr
  obtain rfl := (Prod.mk.inj (Option.some.inj hs)).2
  exact absurd hone (by decide)

end Agreement
end EkKor
