import EkKor.Raft.Node

/-!
# Crashes and the persisted vote

A module with `persist_term` and `restore_term` callbacks on a durable cell, installed after
every `ekk_raft_init`.  It may crash between any two calls; it then starts again with the same
sequence, and the cell survives.

* `Device`        the module and its cell, `boot` the start sequence;
* `CrashSafe`     terms never go down and all votes of one term are for one candidate;
* `KeepsVote`     the call does not drop the vote of the current term;
* `crash_safe`    a run in which every call keeps the vote, and every crash finds a module in
                  term 0 that has not voted, is crash safe;
* `crash_revotes` otherwise a crash forgets the term and the vote: `ekk_raft_init` clears the
                  restore callback before it looks for it.
-/

namespace EkKor
namespace Raft
open Runs List

/-! ## a module with a durable cell -/

/-- `cell` is the term and vote in flash -/
structure Device where
  raft : Ctx
  partition : Option Partition.Ctx
  cell : UInt32 × ModuleId

/-- `mem` is whatever the memory of the context holds after the crash -/
inductive DeviceEvent where
  | handler (h : Handler)
  | partition (e : Partition.Event)
  | crash (mem : Ctx)

/-- `ekk_raft_init`, then `ekk_raft_set_persistence`; the restore callback would return `cell` -/
def boot (mem : Ctx) (myId : ModuleId) (totalModules : UInt8) (cell : UInt32 × ModuleId) : Ctx :=
  match init mem myId totalModules (some cell) with
  | .ok ctx => setPersistence ctx true true
  | .error _ => mem

/-- the cell after the calls of `persist_term` among the effects `out` -/
def written (cell : UInt32 × ModuleId) (out : List Out) : UInt32 × ModuleId :=
  out.foldl (fun cell o => match o with
    | .persistTerm term votedFor => (term, votedFor)
    | _ => cell) cell

def Device.step (myId : ModuleId) (totalModules : UInt8) (s : Device) :
    DeviceEvent → Device × List Out
  | .handler h =>
    let r := h.call s.raft s.partition
    ({ s with raft := r.1, cell := written s.cell r.2 }, r.2)
  | .partition e => ({ s with partition := s.partition.map fun p => Partition.next p e }, [])
  | .crash mem => ({ s with raft := boot mem myId totalModules s.cell }, [])

def Device.machine (mem : Ctx) (myId : ModuleId) (totalModules : UInt8)
    (partitionCtx : Option Partition.Ctx) (cell : UInt32 × ModuleId) :
    Machine Device DeviceEvent Out :=
  ⟨⟨boot mem myId totalModules cell, partitionCtx, cell⟩, Device.step myId totalModules⟩

/-- terms never go down, and all votes handed out in one term are for one candidate -/
structure CrashSafe (M : Machine Device DeviceEvent Out) (es : List DeviceEvent) : Prop where
  terms : EveryStep (fun pre e =>
    (M.run pre).raft.currentTerm ≤ (M.run (pre ++ [e])).raft.currentTerm) es
  single : ∀ T c c', (T, c) ∈ votes (M.trace es) → (T, c') ∈ votes (M.trace es) → c = c'

/-! ## calls that keep the vote -/

/-- the call does not make a candidate or a leader a follower of its own term (that clears the
vote), does not start an election in the last 32-bit term, and is no request of module id 0 -/
def KeepsVote (ctx : Ctx) (partitionCtx : Option Partition.Ctx) : Handler → Prop
  | .tick now => ¬ TickStepsDown ctx partitionCtx now ∧
      (StartsElection ctx partitionCtx now → ctx.currentTerm ≠ 0xFFFFFFFF)
  | .onHeartbeat _ term _ => ¬ HeartbeatStepsDown ctx term
  | .onVoteRequest candidateId _ _ => candidateId ≠ invalidModuleId
  | .onVoteResponse _ _ _ _ => True
  | .stepDown _ => ctx.state ≠ .leader

/-- what a call may do to the term and the vote: the term does not go down, a vote given in the
term stays, and votes handed out are the recorded vote of the term -/
structure VoteStep (c c' : Core) (given : List (UInt32 × ModuleId)) : Prop where
  term : c.currentTerm ≤ c'.currentTerm
  kept : c'.currentTerm = c.currentTerm → c.votedFor ≠ invalidModuleId → c'.votedFor = c.votedFor
  given : ∀ T v, (T, v) ∈ given →
    T = c'.currentTerm ∧ v = c'.votedFor ∧ v ≠ invalidModuleId

variable {c c' : Core}

namespace VoteStep

theorem idle (c : Core) (ht : c'.currentTerm = c.currentTerm) (hv : c'.votedFor = c.votedFor) :
    VoteStep c c' [] where
  term := by
    rw [ht]
    exact UInt32.le_refl _
  kept _ _ := hv
  given _ _ h := absurd h not_mem_nil

theorem follow (c : Core) {term : UInt32} (h : term > c.currentTerm) :
    VoteStep c (c.follow term) [] where
  term := UInt32.le_of_lt h
  kept he _ := absurd he.symm (UInt32.ne_of_lt h)
  given _ _ h := absurd h not_mem_nil

theorem campaign (c : Core) (hid : c.myId ≠ invalidModuleId) (h : c.currentTerm ≠ 0xFFFFFFFF) :
    VoteStep c c.campaign [(c.currentTerm + 1, c.myId)] where
  term := by
    show c.currentTerm ≤ c.currentTerm + 1
    grind
  kept he _ := by
    have he' : c.currentTerm + 1 = c.currentTerm := he
    grind
  given T v hm := by
    obtain ⟨rfl, rfl⟩ := Prod.mk.inj (mem_singleton.mp hm)
    exact ⟨rfl, rfl, hid⟩

theorem grant (h : VoteStep c c' []) {candidateId : ModuleId} (hne : candidateId ≠ invalidModuleId)
    (hv : c'.votedFor = invalidModuleId ∨ c'.votedFor = candidateId) :
    VoteStep c (c'.grant candidateId) [(c'.currentTerm, candidateId)] where
  term := h.term
  kept he hc := by
    have hk := h.kept he hc
    rcases hv with h0 | h1
    · exact absurd (hk.symm.trans h0) hc
    · exact h1.symm.trans hk
  given T v hm := by
    obtain ⟨rfl, rfl⟩ := Prod.mk.inj (mem_singleton.mp hm)
    exact ⟨rfl, rfl, hne⟩

end VoteStep

theorem KeepsVote.not_stepsDown {ctx : Ctx} {partitionCtx : Option Partition.Ctx} {h : Handler}
    (hk : KeepsVote ctx partitionCtx h) : ¬ h.StepsDown ctx partitionCtx := by
  cases h with
  | tick now => exact hk.1
  | onHeartbeat leaderId term now => exact hk
  | onVoteRequest candidateId term now => exact id
  | onVoteResponse voterId term voteGranted now => exact id
  | stepDown now => exact hk

/-- **A call that keeps the vote is a `VoteStep`.** -/
theorem Handler.call_voteStep {ctx : Ctx} {partitionCtx : Option Partition.Ctx} {h : Handler}
    (hid : ctx.myId ≠ invalidModuleId) (hk : KeepsVote ctx partitionCtx h) :
    VoteStep ctx.core (h.call ctx partitionCtx).1.core (votes (h.call ctx partitionCtx).2) := by
  have he := h.call_effect ctx partitionCtx
  generalize (h.call ctx partitionCtx).1.core = c', votes (h.call ctx partitionCtx).2 = vs at he ⊢
  cases he with
  | idle => exact .idle _ rfl rfl
  | adopt _ term ht => exact .follow ctx.core ht
  | stepDown _ hs => exact absurd hs hk.not_stepsDown
  | campaign now hs => exact .campaign ctx.core hid (hk.2 hs)
  | promote now hp => exact .idle _ rfl rfl
  | count voterId term voteGranted now hc hn => exact .idle _ rfl rfl
  | decide voterId term voteGranted now hd => exact .idle _ rfl rfl
  | grant candidateId term now c hc ht hv hg =>
    have hA : VoteStep ctx.core c [] := by
      rcases hc with rfl | ⟨hlt, rfl⟩
      · exact .idle _ rfl rfl
      · exact .follow ctx.core hlt
    rw [ht]
    exact hA.grant hk hv

/-! ## runs -/

section
variable (mem : Ctx) (myId : ModuleId) (totalModules : UInt8)
  (partitionCtx : Option Partition.Ctx) (cell : UInt32 × ModuleId)

theorem boot_core (h1 : myId ≠ invalidModuleId) (h2 : totalModules ≠ 0) :
    (boot mem myId totalModules cell).core = (fresh myId totalModules).core := by
  unfold boot
  rw [init_fresh mem (some cell) h1 h2]
  rfl

/-- the event keeps the vote; a crash may only hit a module in term 0 that has not voted -/
def Keeps (s : Device) : DeviceEvent → Prop
  | .handler h => KeepsVote s.raft s.partition h
  | .partition _ => True
  | .crash _ => s.raft.currentTerm = 0 ∧ s.raft.votedFor = invalidModuleId

/-- the votes `vs` handed out so far are the votes of past terms and the recorded vote of the
current term, one candidate a term -/
structure Discipline (c : Core) (vs : List (UInt32 × ModuleId)) : Prop where
  named : c.myId = myId
  recorded : ∀ T v, (T, v) ∈ vs →
    v ≠ invalidModuleId ∧ (T < c.currentTerm ∨ T = c.currentTerm ∧ v = c.votedFor)
  single : ∀ T v v', (T, v) ∈ vs → (T, v') ∈ vs → v = v'

variable {myId}

variable {vs : List (UInt32 × ModuleId)}

theorem Discipline.step {given : List (UInt32 × ModuleId)} (h : Discipline myId c vs)
    (hs : VoteStep c c' given) (hid : c'.myId = c.myId) : Discipline myId c' (vs ++ given) := by
  have hrec : ∀ T v, (T, v) ∈ vs →
      v ≠ invalidModuleId ∧ (T < c'.currentTerm ∨ T = c'.currentTerm ∧ v = c'.votedFor) := by
    intro T v hv
    obtain ⟨hne, hlt | ⟨hT, hvote⟩⟩ := h.recorded T v hv
    · exact ⟨hne, Or.inl (UInt32.lt_of_lt_of_le hlt hs.term)⟩
    · refine ⟨hne, ?_⟩
      rcases UInt32.lt_or_eq_of_le hs.term with hlt | heq
      · exact Or.inl (by rw [hT]; exact hlt)
      · refine Or.inr ⟨hT.trans heq, ?_⟩
        rw [hs.kept heq.symm (by rw [← hvote]; exact hne)]
        exact hvote
  -- an old vote of the term of a new one is the recorded vote, as the new one is
  have hmix : ∀ T v v', (T, v) ∈ vs → (T, v') ∈ given → v = v' := by
    intro T v v' hv hv'
    obtain ⟨hT, hvote, -⟩ := hs.given T v' hv'
    rcases (hrec T v hv).2 with hlt | ⟨-, hold⟩
    · rw [hT] at hlt
      exact absurd hlt (UInt32.lt_irrefl _)
    · rw [hold, hvote]
  refine ⟨hid.trans h.named, fun T v hv => ?_, fun T v v' hv hv' => ?_⟩
  · rcases mem_append.mp hv with hv | hv
    · exact hrec T v hv
    · obtain ⟨hT, hvote, hne⟩ := hs.given T v hv
      exact ⟨hne, Or.inr ⟨hT, hvote⟩⟩
  · rcases mem_append.mp hv with hv | hv <;> rcases mem_append.mp hv' with hv' | hv'
    · exact h.single T v v' hv hv'
    · exact hmix T v v' hv hv'
    · exact (hmix T v' v hv' hv).symm
    · rw [(hs.given T v hv).2.1, (hs.given T v' hv').2.1]

theorem Discipline.crash (h : Discipline myId c vs) (hterm : c.currentTerm = 0)
    (hvote : c.votedFor = invalidModuleId) : vs = [] := by
  cases vs with
  | nil => rfl
  | cons tv vs =>
    exfalso
    obtain ⟨T, v⟩ := tv
    obtain ⟨hne, hlt | ⟨-, hv⟩⟩ := h.recorded T v mem_cons_self
    · rw [hterm] at hlt
      exact absurd hlt (UInt32.not_lt_zero)
    · exact hne (hv.trans hvote)

theorem Device.step_discipline (h1 : myId ≠ invalidModuleId) (h2 : totalModules ≠ 0) {s : Device}
    {e : DeviceEvent} (h : Discipline myId s.raft.core vs) (hk : Keeps s e) :
    s.raft.currentTerm ≤ (s.step myId totalModules e).1.raft.currentTerm ∧
      Discipline myId (s.step myId totalModules e).1.raft.core
        (vs ++ votes (s.step myId totalModules e).2) := by
  cases e with
  | handler hd =>
    have hid : s.raft.myId ≠ invalidModuleId := by
      rw [show s.raft.myId = myId from h.named]
      exact h1
    have hs := Handler.call_voteStep hid hk
    exact ⟨hs.term, h.step hs (hd.call_fixed s.raft s.partition).1⟩
  | partition e =>
    refine ⟨UInt32.le_refl _, ?_⟩
    show Discipline myId s.raft.core (vs ++ [])
    rw [append_nil]
    exact h
  | crash mem =>
    obtain ⟨hterm, hvote⟩ := hk
    have hc : (s.step myId totalModules (.crash mem)).1.raft.core
        = (fresh myId totalModules).core := boot_core mem myId totalModules s.cell h1 h2
    have hnil := h.crash hterm hvote
    refine ⟨?_, ?_⟩
    · rw [hterm]
      exact UInt32.zero_le
    · rw [hc, hnil]
      exact ⟨rfl, fun _ _ hm => absurd hm not_mem_nil,
        fun _ _ _ hm => absurd hm not_mem_nil⟩

/-- **Crash safety.**  If every call keeps the vote of its term, and every crash hits a module
that is still in term 0 and has not voted, then the term never goes down and all votes of one
term are for one candidate. -/
theorem crash_safe (h1 : myId ≠ invalidModuleId) (h2 : totalModules ≠ 0) (es : List DeviceEvent)
    (hes : EveryStep (fun pre e =>
      Keeps ((Device.machine mem myId totalModules partitionCtx cell).run pre) e) es) :
    CrashSafe (Device.machine mem myId totalModules partitionCtx cell) es := by
  let M := Device.machine mem myId totalModules partitionCtx cell
  have hD : ∀ es, EveryStep (fun pre e => Keeps (M.run pre) e) es →
      Discipline myId (M.run es).raft.core (votes (M.trace es)) := by
    refine history_induction ?_ ?_
    · show Discipline myId (boot mem myId totalModules cell).core []
      rw [boot_core mem myId totalModules cell h1 h2]
      exact ⟨rfl, fun _ _ hm => absurd hm not_mem_nil,
        fun _ _ _ hm => absurd hm not_mem_nil⟩
    · intro es e ih hk
      rw [Machine.run_concat, Machine.trace_concat, votes_append]
      exact (Device.step_discipline totalModules h1 h2 ih hk).2
  refine ⟨fun pre e hp => ?_, (hD es hes).single⟩
  have hpre : pre <+: es := (prefix_append pre [e]).trans hp
  show _ ≤ (M.run (pre ++ [e])).raft.currentTerm
  rw [Machine.run_concat]
  exact (Device.step_discipline totalModules h1 h2 (hD pre (hes.initial hpre)) (hes pre e hp)).1

end

/-- a crash before the first vote, then two requests of module 2 in term 5 -/
theorem crash_safe_two_requests :
    CrashSafe (Device.machine (fresh 1 3) 1 3 none (0, 0))
      [.crash (fresh 1 3), .handler (.onVoteRequest 2 5 1000),
        .handler (.onVoteRequest 2 5 2000)] := by
  apply crash_safe (fresh 1 3) 3 none (0, 0) (by decide) (by decide)
  rw [show ([.crash (fresh 1 3), .handler (.onVoteRequest 2 5 1000),
    .handler (.onVoteRequest 2 5 2000)] : List DeviceEvent) = [] ++ [.crash (fresh 1 3)]
      ++ [.handler (.onVoteRequest 2 5 1000)] ++ [.handler (.onVoteRequest 2 5 2000)] from rfl,
    everyStep_concat, everyStep_concat, everyStep_concat]
  exact ⟨⟨⟨everyStep_nil _, ⟨rfl, rfl⟩⟩, show (2 : ModuleId) ≠ 0 by decide⟩,
    show (2 : ModuleId) ≠ 0 by decide⟩

/-- module 1 votes for module 2 in term 5, crashes, and votes for module 3 in term 5 -/
theorem crash_revotes :
    ¬ CrashSafe (Device.machine (fresh 1 3) 1 3 none (0, 0))
      [.handler (.onVoteRequest 2 5 1000), .crash (fresh 1 3),
        .handler (.onVoteRequest 3 5 2000)] :=
  fun h => absurd (h.single 5 2 3 (by decide) (by decide)) (by decide)

end Raft
end EkKor
