import EkKor.Raft.Node

/-!
# What a leader may rely on

* `quorum_evidence`   the votes in its tally;
* `respects_iff`      the state of its partition context.
-/

/-!
# Quorum evidence: what a leader has in its tally

`quorum_evidence`: in every run of one module, whenever it is leader, `votes_received` is the
number of true entries of `vote_granted`, it is a majority, and each true entry other than its
own comes from a granted response of the leader's term that arrived while the module was a
candidate in that term.
-/

namespace EkKor
namespace Raft
open Runs

/-- in the run `es` a granted response of `v` for the term `T` was delivered while the module was
a candidate in that term -/
def Delivered (start : Node) (es : List Event) (v : ModuleId) (T : UInt32) : Prop :=
  ∃ pre now, pre ++ [.handler (.onVoteResponse v T true now)] <+: es ∧
    ((Node.machine start).run pre).raft.state = .candidate ∧
    ((Node.machine start).run pre).raft.currentTerm = T

theorem Delivered.concat {start : Node} {es : List Event} {v : ModuleId} {T : UInt32}
    (h : Delivered start es v T) (e : Event) : Delivered start (es ++ [e]) v T := by
  obtain ⟨pre, now, hp, hs, hT⟩ := h
  exact ⟨pre, now, hp.trans (List.prefix_append es [e]), hs, hT⟩

theorem Node.step_core (s : Node) (e : Event) :
    (s.step e).1.raft.core = s.raft.core ∨
      ∃ h, e = .handler h ∧ (s.step e).1.raft.core = (h.call s.raft s.partition).1.core := by
  cases e with
  | handler h => exact Or.inr ⟨h, rfl, rfl⟩
  | setPersistence persist restore => exact Or.inl rfl
  | setCallbacks onLeader onFollower onLost => exact Or.inl rfl
  | partition e => exact Or.inl rfl

variable (start : Node)

theorem run_tally (h0 : start.raft.core.Tally) (es : List Event) :
    ((Node.machine start).run es).raft.core.Tally := by
  refine (Node.machine start).invariant (I := fun s => s.raft.core.Tally) h0 ?_ es
  intro s e hs
  show (s.step e).1.raft.core.Tally
  rcases Node.step_core s e with heq | ⟨h, -, heq⟩
  · rw [heq]; exact hs
  · rw [heq]; exact h.call_tally hs s.partition

theorem run_fixed (es : List Event) :
    ((Node.machine start).run es).raft.core.myId = start.raft.core.myId ∧
      ((Node.machine start).run es).raft.core.votesNeeded = start.raft.core.votesNeeded := by
  refine (Node.machine start).invariant (I := fun s => s.raft.core.myId = start.raft.core.myId ∧
    s.raft.core.votesNeeded = start.raft.core.votesNeeded) ⟨rfl, rfl⟩ ?_ es
  intro s e hs
  show (s.step e).1.raft.core.myId = _ ∧ (s.step e).1.raft.core.votesNeeded = _
  rcases Node.step_core s e with heq | ⟨h, -, heq⟩
  · rw [heq]; exact hs
  · obtain ⟨h1, h2⟩ := h.call_fixed s.raft s.partition
    rw [heq, h1, h2]
    exact hs

theorem run_backed (h0 : start.raft.core.Backed (Delivered start [])) (es : List Event) :
    ((Node.machine start).run es).raft.core.Backed (Delivered start es) := by
  induction es using List.reverseRecOn with
  | nil => exact h0
  | append_singleton es e ih =>
    rw [Machine.run_concat]
    show (Node.step _ e).1.raft.core.Backed _
    have hold : Core.Backed (Delivered start (es ++ [e])) _ := ih.mono fun v T h => h.concat e
    rcases Node.step_core ((Node.machine start).run es) e with heq | ⟨h, he, heq⟩
    · rw [heq]; exact hold
    · rw [heq]
      refine h.call_backed hold _ fun v T now hh hs hT => ?_
      subst hh
      exact ⟨es, now, by rw [he], hs, hT⟩

/-- **Quorum evidence.**  After `ekk_raft_init` with `total_modules = N`, in every run of handler
calls, partition calls and callback changes: whenever the module is leader, its tally is exact, a
majority, and backed by the responses that were delivered to it as a candidate of that term. -/
theorem quorum_evidence (mem ctx : Ctx) (myId : ModuleId) (totalModules : UInt8)
    (restored : Option (UInt32 × ModuleId)) (h : init mem myId totalModules restored = .ok ctx)
    (partitionCtx : Option Partition.Ctx) (es : List Event)
    (hleader : ((Node.machine ⟨ctx, partitionCtx⟩).run es).raft.state = .leader) :
    let c := ((Node.machine ⟨ctx, partitionCtx⟩).run es).raft.core
    c.votesReceived.toNat = c.granted.card ∧
      totalModules.toNat / 2 + 1 ≤ c.votesReceived.toNat ∧
      ∀ v, c.voteGranted v = true → v ≠ myId →
        Delivered ⟨ctx, partitionCtx⟩ es v c.currentTerm := by
  obtain ⟨-, -, rfl⟩ := init_inv h
  have hT := run_tally ⟨fresh myId totalModules, partitionCtx⟩ (fresh_tally _ _) es
  obtain ⟨hid, hneed⟩ := run_fixed ⟨fresh myId totalModules, partitionCtx⟩ es
  have hB := run_backed ⟨fresh myId totalModules, partitionCtx⟩ (fun hs => absurd rfl hs) es
  have hne : ((Node.machine ⟨fresh myId totalModules, partitionCtx⟩).run es).raft.state
      ≠ .follower := by
    rw [hleader]
    exact State.noConfusion
  refine ⟨hT.counted hne, ?_, fun v hv hvne => hB hne v hv (by rw [hid]; exact hvne)⟩
  have hr := UInt8.le_iff_toNat_le.mp (hT.reached hleader)
  rw [hneed] at hr
  rw [← majority_toNat]
  exact hr

/-- three modules: module 1 starts an election and wins it with the vote of module 2 -/
theorem quorum_evidence_three :
    (3 : UInt8).toNat / 2 + 1 ≤ ((Node.machine ⟨fresh 1 3, none⟩).run
      [.handler (.tick 1), .handler (.tick 1000000),
        .handler (.onVoteResponse 2 1 true 1000100)]).raft.votesReceived.toNat :=
  (quorum_evidence (fresh 1 3) (fresh 1 3) 1 3 none
    (init_fresh (fresh 1 3) none (by decide) (by decide)) none
    [.handler (.tick 1), .handler (.tick 1000000), .handler (.onVoteResponse 2 1 true 1000100)]
    (by decide)).2.1

end Raft
end EkKor

/-!
# Leadership and the partition state

The raft calls of a module and the calls on its partition context, in any order, with
re-initialisations in between.

* `Respects`       no leadership, no election and no vote against the partition context;
* `MayPromote`     the state before a call does not let it finish an election that the partition
                   context no longer allows;
* `respects_iff`   a run respects the partition context exactly when each of its calls meets
                   `MayPromote`: starting an election and voting are checked by the code, winning
                   an election is not;
* `minority_leader`   a module that becomes leader while it suspects a partition.
-/

namespace EkKor
namespace Raft
open Runs

/-- a call on a module: (re-)initialisation with the same partition context, or an event -/
inductive ApiCall where
  | init (myId : ModuleId) (totalModules : UInt8) (restored : Option (UInt32 × ModuleId))
  | event (e : Event)
  deriving DecidableEq, Repr

def Node.apiStep (s : Node) : ApiCall → Node × List Out
  | .init myId totalModules restored =>
    ({ s with raft := (Raft.init s.raft myId totalModules restored).toOption.getD s.raft }, [])
  | .event e => s.step e

def Node.apiMachine (start : Node) : Machine Node ApiCall Out := ⟨start, Node.apiStep⟩

/-- what one call may do, given the partition context `p` at that moment -/
structure Respects (s : Node) (c : ApiCall) (p : Partition.Ctx) : Prop where
  leader : s.raft.state ≠ .leader → (s.apiStep c).1.raft.state = .leader →
    Partition.canElect p = true
  election : ∀ term candidateId,
    Out.broadcast (.requestVote term candidateId) ∈ (s.apiStep c).2 → Partition.canElect p = true
  vote : ∀ candidateId term now, c = .event (.handler (.onVoteRequest candidateId term now)) →
    (onVoteRequest s.raft s.partition candidateId term now).1 = true →
    Partition.canVote p = true

/-- the call does not complete an election while the partition context forbids elections: it is
not the tick of a candidate that has its majority, nor the response that completes one -/
def MayPromote (s : Node) (c : ApiCall) (p : Partition.Ctx) : Prop :=
  match c with
  | .event (.handler (.tick _)) => TickPromotes s.raft → Partition.canElect p = true
  | .event (.handler (.onVoteResponse voterId term voteGranted _)) =>
    Decides s.raft voterId term voteGranted → Partition.canElect p = true
  | _ => True

/-! ## who broadcasts a REQUEST_VOTE -/

theorem becomeFollower_broadcast (ctx : Ctx) (term : UInt32) (now : TimeUs) (m : Msg) :
    Out.broadcast m ∉ (becomeFollower ctx term now).2 := by
  unfold becomeFollower persist
  dsimp only
  split_ifs <;> simp

theorem onVoteRequest_broadcast (ctx : Ctx) (partitionCtx : Option Partition.Ctx)
    (candidateId : ModuleId) (term : UInt32) (now : TimeUs) (m : Msg) :
    Out.broadcast m ∉ (onVoteRequest ctx partitionCtx candidateId term now).2.2 := by
  intro h
  rcases List.mem_append.mp h with h | h
  · unfold adoptTerm at h
    split at h
    · exact becomeFollower_broadcast ctx term now m h
    · cases h
  · unfold answerRequest persist at h
    dsimp only at h
    split_ifs at h <;> simp at h

variable {ctx : Ctx} {term : UInt32} {candidateId : ModuleId} {partitionCtx : Option Partition.Ctx}

theorem mem_votes_of_requestVote {out : List Out}
    (h : Out.broadcast (.requestVote term candidateId) ∈ out) :
    (term, candidateId) ∈ votes out :=
  List.mem_filterMap.mpr ⟨_, h, rfl⟩

theorem Handler.requestVote_startsElection {h : Handler}
    (hm : Out.broadcast (.requestVote term candidateId) ∈ (h.call ctx partitionCtx).2) :
    canStartElection partitionCtx = true := by
  have hv := mem_votes_of_requestVote hm
  have he := h.call_effect ctx partitionCtx
  generalize (h.call ctx partitionCtx).1.core = c', votes (h.call ctx partitionCtx).2 = vs
    at he hv
  cases he with
  | campaign now hs => exact hs.2
  | grant candidateId term now =>
    exact absurd hm (onVoteRequest_broadcast ctx partitionCtx candidateId term now _)
  | _ => cases hv

/-! ## who becomes leader -/

theorem Handler.becomes_leader {h : Handler} (h0 : ctx.state ≠ .leader)
    (h1 : (h.call ctx partitionCtx).1.state = .leader) :
    (∃ now, h = .tick now ∧ TickPromotes ctx) ∨
      ∃ voterId term voteGranted now, h = .onVoteResponse voterId term voteGranted now ∧
        Decides ctx voterId term voteGranted := by
  have h1' : (h.call ctx partitionCtx).1.core.state = .leader := h1
  have he := h.call_effect ctx partitionCtx
  generalize (h.call ctx partitionCtx).1.core = c', votes (h.call ctx partitionCtx).2 = vs
    at he h1'
  cases he with
  | promote now hp => exact Or.inl ⟨now, rfl, hp⟩
  | decide voterId term voteGranted now hd =>
    exact Or.inr ⟨voterId, term, voteGranted, now, rfl, hd⟩
  | grant candidateId term now c hc =>
    rcases hc with rfl | ⟨-, rfl⟩
    · exact absurd h1' h0
    · cases h1'
  | idle => exact absurd h1' h0
  | count => exact absurd h1' h0
  | adopt => cases h1'
  | stepDown => cases h1'
  | campaign => cases h1'

theorem tick_promotes (h : TickPromotes ctx) (partitionCtx : Option Partition.Ctx) (now : TimeUs) :
    (tick ctx partitionCtx now).1.state = .leader := by
  show (tick ctx partitionCtx now).1.core.state = .leader
  rw [tick_core, if_pos h]
  rfl

theorem onVoteResponse_decides {voterId : ModuleId} {voteGranted : Bool}
    (h : Decides ctx voterId term voteGranted) (now : TimeUs) :
    (onVoteResponse ctx voterId term voteGranted now).1.state = .leader := by
  show (onVoteResponse ctx voterId term voteGranted now).1.core.state = .leader
  rw [onVoteResponse_core, if_pos h]
  rfl

/-! ## one call -/

theorem Respects.mayPromote {s : Node} {c : ApiCall} {p : Partition.Ctx} (h : Respects s c p) :
    MayPromote s c p := by
  unfold MayPromote
  split
  next now =>
    intro hp
    refine h.leader ?_ (tick_promotes hp s.partition now)
    rw [hp.2.1]
    exact State.noConfusion
  next voterId term voteGranted now =>
    intro hd
    refine h.leader ?_ (onVoteResponse_decides hd now)
    rw [hd.1.1]
    exact State.noConfusion
  next => trivial

theorem MayPromote.respects {s : Node} {c : ApiCall} {p : Partition.Ctx}
    (hs : s.partition = some p) (h : MayPromote s c p) : Respects s c p where
  leader h0 h1 := by
    cases c with
    | init myId totalModules restored =>
      exfalso
      have h1' : ((init s.raft myId totalModules restored).toOption.getD s.raft).state
          = .leader := h1
      cases hi : init s.raft myId totalModules restored with
      | error err =>
        rw [hi] at h1'
        exact h0 h1'
      | ok ctx =>
        rw [hi, show ctx = _ from (init_inv hi).2.2] at h1'
        cases h1'
    | event e =>
      cases e with
      | handler hd =>
        rcases Handler.becomes_leader h0 h1 with ⟨now, rfl, hp⟩ | ⟨v, t, g, now, rfl, hd⟩
        · exact h hp
        · exact h hd
      | setPersistence persist restore => exact absurd h1 h0
      | setCallbacks onLeader onFollower onLost => exact absurd h1 h0
      | partition e => exact absurd h1 h0
  election term candidateId hm := by
    cases c with
    | init myId totalModules restored => cases hm
    | event e =>
      cases e with
      | handler hd =>
        have hc := Handler.requestVote_startsElection hm
        rw [hs] at hc
        exact hc
      | setPersistence persist restore => cases hm
      | setCallbacks onLeader onFollower onLost => cases hm
      | partition e => cases hm
  vote candidateId term now _ hg := (mayVoteFor_spec hg).2.2 p hs

/-! ## runs -/

/-- **Leadership against the partition context.**  For every module initialised with a partition
context and every interleaving of calls: no call makes it leader or starts an election while
`ekk_partition_can_elect` is false, and no vote is granted while `ekk_partition_can_vote` is
false, if and only if no call completes an election while `ekk_partition_can_elect` is false. -/
theorem respects_iff (raft : Ctx) (p0 : Partition.Ctx) (cs : List ApiCall) :
    EveryStep (fun pre c => ∃ p, ((Node.apiMachine ⟨raft, some p0⟩).run pre).partition = some p ∧
        Respects ((Node.apiMachine ⟨raft, some p0⟩).run pre) c p) cs ↔
      EveryStep (fun pre c => ∃ p, ((Node.apiMachine ⟨raft, some p0⟩).run pre).partition = some p ∧
        MayPromote ((Node.apiMachine ⟨raft, some p0⟩).run pre) c p) cs := by
  constructor
  · intro h
    exact h.mono fun pre c ⟨p, hp, hr⟩ => ⟨p, hp, hr.mayPromote⟩
  · intro h
    exact h.mono fun pre c ⟨p, hp, hm⟩ => ⟨p, hp, hm.respects hp⟩

/-- module 1 of 3 starts an election, loses sight of the others, suspects a partition, and then
becomes leader with a vote that was still on its way -/
theorem minority_leader : ∃ p0, Partition.init 3 = .ok p0 ∧
    ¬ EveryStep (fun pre c =>
        ∃ p, ((Node.apiMachine ⟨fresh 1 3, some p0⟩).run pre).partition = some p ∧
          Respects ((Node.apiMachine ⟨fresh 1 3, some p0⟩).run pre) c p)
      [.event (.handler (.tick 1)), .event (.handler (.tick 1000000)),
        .event (.partition (.visibilityChange 1)), .event (.partition (.tick 1000000)),
        .event (.handler (.onVoteResponse 2 1 true 1000001))] := by
  refine ⟨_, rfl, fun h => ?_⟩
  obtain ⟨p, hp, hr⟩ := h
    [.event (.handler (.tick 1)), .event (.handler (.tick 1000000)),
      .event (.partition (.visibilityChange 1)), .event (.partition (.tick 1000000))]
    (.event (.handler (.onVoteResponse 2 1 true 1000001))) (List.prefix_refl _)
  have hyes := hr.leader (by decide) (by decide)
  have hno := congrArg (Option.map Partition.canElect) hp
  rw [Option.map_some, hyes] at hno
  exact absurd hno (by decide)

end Raft
end EkKor
