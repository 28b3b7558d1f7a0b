import EkKor.Raft.Model

/-!
# What one raft call can do

The election logic lives in a few fields of the context, its `Core`; the rest is timing and
callbacks.  Every handler changes the core in one of five ways:

* `Core.follow`     become a follower at a term, with the vote cleared;
* `Core.campaign`   start an election at the next term;
* `Core.win`        become leader;
* `Core.count`      record a vote;
* `Core.grant`      give the vote to a candidate.

`tick_core`, `onHeartbeat_core`, `onVoteRequest_core`, `onVoteResponse_core` and `stepDown_core`
say exactly when, and the `_votes` lemmas which votes the call hands out.
-/

namespace EkKor
namespace Raft

/-! ## the core of a context -/

/-- the fields of a context that decide elections -/
structure Core where
  myId : ModuleId
  currentTerm : UInt32
  votedFor : ModuleId
  state : State
  votesReceived : UInt8
  votesNeeded : UInt8
  voteGranted : ModuleId → Bool

def Ctx.core (ctx : Ctx) : Core :=
  { myId := ctx.myId
    currentTerm := ctx.currentTerm
    votedFor := ctx.votedFor
    state := ctx.state
    votesReceived := ctx.votesReceived
    votesNeeded := ctx.votesNeeded
    voteGranted := ctx.voteGranted }

namespace Core

def follow (c : Core) (term : UInt32) : Core :=
  { c with state := .follower, currentTerm := term, votedFor := invalidModuleId }

def campaign (c : Core) : Core :=
  { c with
    state := .candidate
    currentTerm := c.currentTerm + 1
    votedFor := c.myId
    votesReceived := 1
    voteGranted := Function.update (fun _ => false) c.myId true }

def win (c : Core) : Core := { c with state := .leader }

def count (c : Core) (voterId : ModuleId) : Core :=
  { c with
    voteGranted := Function.update c.voteGranted voterId true
    votesReceived := c.votesReceived + 1 }

def grant (c : Core) (candidateId : ModuleId) : Core := { c with votedFor := candidateId }

end Core

/-- a vote handed to the outside: the term and the candidate it is for.  The broadcast of a
REQUEST_VOTE is the candidate's vote for itself. -/
def Out.vote : Out → Option (UInt32 × ModuleId)
  | .send dest (.voteResponse term _ true) => some (term, dest)
  | .broadcast (.requestVote term candidateId) => some (term, candidateId)
  | _ => none

def votes (out : List Out) : List (UInt32 × ModuleId) := out.filterMap Out.vote

theorem votes_append (a b : List Out) : votes (a ++ b) = votes a ++ votes b :=
  List.filterMap_append

theorem andThen_votes (r : Ctx × List Out) (f : Ctx → Ctx × List Out) :
    votes (andThen r f).2 = votes r.2 ++ votes (f r.1).2 :=
  votes_append _ _

/-! ## the internal transitions -/

@[simp] theorem resetElectionTimer_core (ctx : Ctx) (now : TimeUs) :
    (resetElectionTimer ctx now).core = ctx.core := rfl

theorem persist_votes (ctx : Ctx) : votes (persist ctx) = [] := by
  unfold persist
  split <;> rfl

theorem becomeFollower_core (ctx : Ctx) (term : UInt32) (now : TimeUs) :
    (becomeFollower ctx term now).1.core = ctx.core.follow term := rfl

theorem becomeFollower_votes (ctx : Ctx) (term : UInt32) (now : TimeUs) :
    votes (becomeFollower ctx term now).2 = [] := by
  unfold becomeFollower
  rw [votes_append, persist_votes]
  split <;> rfl

theorem becomeCandidate_core (ctx : Ctx) (now : TimeUs) :
    (becomeCandidate ctx now).1.core = ctx.core.campaign := rfl

theorem becomeCandidate_votes (ctx : Ctx) (now : TimeUs) :
    votes (becomeCandidate ctx now).2 = [(ctx.currentTerm + 1, ctx.myId)] := by
  unfold becomeCandidate
  rw [votes_append, persist_votes]
  rfl

theorem becomeLeader_core (ctx : Ctx) (now : TimeUs) :
    (becomeLeader ctx now).1.core = ctx.core.win := rfl

theorem becomeLeader_votes (ctx : Ctx) (now : TimeUs) : votes (becomeLeader ctx now).2 = [] := by
  show votes (_ :: _) = []
  split <;> rfl

/-! ## step down -/

theorem stepDown_core (ctx : Ctx) (now : TimeUs) :
    (stepDown ctx now).1.core
      = if ctx.state = .leader then ctx.core.follow ctx.currentTerm else ctx.core := by
  unfold stepDown
  split
  · exact becomeFollower_core ctx ctx.currentTerm now
  · rfl

theorem stepDown_votes (ctx : Ctx) (now : TimeUs) : votes (stepDown ctx now).2 = [] := by
  unfold stepDown
  split
  · exact becomeFollower_votes ctx ctx.currentTerm now
  · rfl

/-! ## tick -/

section
variable (ctx : Ctx) (partitionCtx : Option Partition.Ctx) (now : TimeUs)

def TickPromotes : Prop :=
  ctx.lastHeartbeat ≠ 0 ∧ ctx.state = .candidate ∧ ctx.votesReceived ≥ ctx.votesNeeded

def ElectionDue : Prop :=
  ctx.lastHeartbeat ≠ 0 ∧ now - ctx.lastHeartbeat ≥ ctx.electionTimeout ∧
    (ctx.state = .follower ∨ ctx.state = .candidate ∧ ¬ ctx.votesReceived ≥ ctx.votesNeeded)

def StartsElection : Prop :=
  ElectionDue ctx now ∧ canStartElection partitionCtx = true

def TickStepsDown : Prop :=
  ctx.lastHeartbeat ≠ 0 ∧
    (ctx.state = .candidate ∧ ¬ ctx.votesReceived ≥ ctx.votesNeeded ∧
        (if now - ctx.lastHeartbeat ≥ ctx.electionTimeout then canStartElection partitionCtx = false
          else now - ctx.electionStart ≥ electionMaxUs) ∨
      ctx.state = .leader ∧ canStartElection partitionCtx = false)

instance : Decidable (TickPromotes ctx) := inferInstanceAs (Decidable (_ ∧ _))
instance : Decidable (ElectionDue ctx now) := inferInstanceAs (Decidable (_ ∧ _))
instance : Decidable (StartsElection ctx partitionCtx now) := inferInstanceAs (Decidable (_ ∧ _))
instance : Decidable (TickStepsDown ctx partitionCtx now) := inferInstanceAs (Decidable (_ ∧ _))

end

theorem sendHeartbeat_core (ctx : Ctx) (elapsed now : TimeUs) :
    (sendHeartbeat ctx elapsed now).1.core = ctx.core := by
  unfold sendHeartbeat
  split <;> rfl

theorem sendHeartbeat_votes (ctx : Ctx) (elapsed now : TimeUs) :
    votes (sendHeartbeat ctx elapsed now).2 = [] := by
  unfold sendHeartbeat
  split <;> rfl

theorem tickLeader_core (ctx : Ctx) (partitionCtx : Option Partition.Ctx) (elapsed now : TimeUs)
    (h : ctx.state = .leader) :
    (tickLeader ctx partitionCtx elapsed now).1.core
      = if canStartElection partitionCtx = false then ctx.core.follow ctx.currentTerm
        else ctx.core := by
  have hc := sendHeartbeat_core ctx elapsed now
  have hl : (sendHeartbeat ctx elapsed now).1.state = .leader :=
    (congrArg Core.state hc).trans h
  have ht : (sendHeartbeat ctx elapsed now).1.currentTerm = ctx.currentTerm :=
    congrArg Core.currentTerm hc
  cases partitionCtx with
  | none => exact hc
  | some p =>
    show (if Partition.canElect p = false then stepDown _ now else (_, [])).1.core
      = if Partition.canElect p = false then _ else _
    by_cases hp : Partition.canElect p = false
    · rw [if_pos hp, if_pos hp, stepDown_core, if_pos hl, hc, ht]
    · rw [if_neg hp, if_neg hp]
      exact hc

theorem tickLeader_votes (ctx : Ctx) (partitionCtx : Option Partition.Ctx) (elapsed now : TimeUs) :
    votes (tickLeader ctx partitionCtx elapsed now).2 = [] := by
  unfold tickLeader
  rw [andThen_votes, sendHeartbeat_votes, List.nil_append]
  cases partitionCtx with
  | none => rfl
  | some p =>
    show votes (if Partition.canElect p = false then stepDown _ now else (_, [])).2 = []
    split
    · exact stepDown_votes _ now
    · rfl

theorem tick_core (ctx : Ctx) (partitionCtx : Option Partition.Ctx) (now : TimeUs) :
    (tick ctx partitionCtx now).1.core
      = if TickPromotes ctx then ctx.core.win
        else if StartsElection ctx partitionCtx now then ctx.core.campaign
        else if TickStepsDown ctx partitionCtx now then ctx.core.follow ctx.currentTerm
        else ctx.core := by
  unfold tick
  by_cases h0 : ctx.lastHeartbeat = 0
  · simp [h0, TickPromotes, StartsElection, ElectionDue, TickStepsDown]
  · cases hs : ctx.state with
    | follower =>
      by_cases hd : now - ctx.lastHeartbeat ≥ ctx.electionTimeout <;>
        by_cases hc : canStartElection partitionCtx = true <;>
        simp [h0, hs, hd, hc, TickPromotes, StartsElection, ElectionDue, TickStepsDown,
          becomeCandidate_core]
    | candidate =>
      by_cases hv : ctx.votesReceived ≥ ctx.votesNeeded
      · simp [h0, hs, hv, TickPromotes, becomeLeader_core]
      · by_cases hd : now - ctx.lastHeartbeat ≥ ctx.electionTimeout <;>
          by_cases hc : canStartElection partitionCtx = true <;>
          by_cases hm : now - ctx.electionStart ≥ electionMaxUs <;>
          simp [h0, hs, hv, hd, hc, hm, TickPromotes, StartsElection, ElectionDue, TickStepsDown,
            becomeCandidate_core, becomeFollower_core]
    | leader =>
      simp [h0, hs, TickPromotes, StartsElection, ElectionDue, TickStepsDown, tickLeader_core]

theorem tick_votes (ctx : Ctx) (partitionCtx : Option Partition.Ctx) (now : TimeUs) :
    votes (tick ctx partitionCtx now).2
      = if StartsElection ctx partitionCtx now then [(ctx.currentTerm + 1, ctx.myId)] else [] := by
  unfold tick
  by_cases h0 : ctx.lastHeartbeat = 0
  · simp [h0, StartsElection, ElectionDue, votes]
  · cases hs : ctx.state with
    | follower =>
      by_cases hd : now - ctx.lastHeartbeat ≥ ctx.electionTimeout <;>
        by_cases hc : canStartElection partitionCtx = true <;>
        simp [h0, hs, hd, hc, StartsElection, ElectionDue, becomeCandidate_votes] <;> rfl
    | candidate =>
      by_cases hv : ctx.votesReceived ≥ ctx.votesNeeded
      · simp [h0, hs, hv, StartsElection, ElectionDue, becomeLeader_votes]
      · by_cases hd : now - ctx.lastHeartbeat ≥ ctx.electionTimeout <;>
          by_cases hc : canStartElection partitionCtx = true <;>
          by_cases hm : now - ctx.electionStart ≥ electionMaxUs <;>
          simp [h0, hs, hv, hd, hc, hm, StartsElection, ElectionDue, becomeCandidate_votes,
            becomeFollower_votes] <;> rfl
    | leader =>
      simp [h0, hs, StartsElection, ElectionDue, tickLeader_votes]

/-! ## heartbeat -/

theorem adoptTerm_core (ctx : Ctx) (term : UInt32) (now : TimeUs) :
    (adoptTerm ctx term now).1.core
      = if term > ctx.currentTerm then ctx.core.follow term else ctx.core := by
  unfold adoptTerm
  split
  · exact becomeFollower_core ctx term now
  · rfl

theorem adoptTerm_votes (ctx : Ctx) (term : UInt32) (now : TimeUs) :
    votes (adoptTerm ctx term now).2 = [] := by
  unfold adoptTerm
  split
  · exact becomeFollower_votes ctx term now
  · rfl

theorem acceptLeader_core (ctx : Ctx) (leaderId : ModuleId) (term : UInt32) (now : TimeUs) :
    (acceptLeader ctx leaderId term now).1.core
      = if term ≥ ctx.currentTerm ∧ ctx.state ≠ .follower then ctx.core.follow term
        else ctx.core := by
  unfold acceptLeader
  by_cases ht : term ≥ ctx.currentTerm
  · rw [if_pos ht]
    by_cases hs : ctx.state = .follower
    · have hno : ¬ (term ≥ ctx.currentTerm ∧ ctx.state ≠ .follower) := fun h => h.2 hs
      rw [if_neg hno]
      rw [if_neg (not_not_intro hs)]
      rfl
    · rw [if_pos (show term ≥ ctx.currentTerm ∧ ctx.state ≠ .follower from ⟨ht, hs⟩)]
      rw [if_pos hs]
      rfl
  · rw [if_neg ht, if_neg (fun h => ht h.1)]

theorem acceptLeader_votes (ctx : Ctx) (leaderId : ModuleId) (term : UInt32) (now : TimeUs) :
    votes (acceptLeader ctx leaderId term now).2 = [] := by
  unfold acceptLeader
  split
  · dsimp only
    split
    · rw [andThen_votes, becomeFollower_votes]
      split <;> rfl
    · rfl
  · rfl

def HeartbeatStepsDown (ctx : Ctx) (term : UInt32) : Prop :=
  term = ctx.currentTerm ∧ ctx.state ≠ .follower

instance (ctx : Ctx) (term : UInt32) : Decidable (HeartbeatStepsDown ctx term) :=
  inferInstanceAs (Decidable (_ ∧ _))

theorem onHeartbeat_core (ctx : Ctx) (leaderId : ModuleId) (term : UInt32) (now : TimeUs) :
    (onHeartbeat ctx leaderId term now).1.core
      = if term > ctx.currentTerm ∨ HeartbeatStepsDown ctx term then ctx.core.follow term
        else ctx.core := by
  have hA := adoptTerm_core ctx term now
  show (acceptLeader (adoptTerm ctx term now).1 leaderId term now).1.core = _
  rw [acceptLeader_core, hA]
  by_cases ht : term > ctx.currentTerm
  · have hs : (adoptTerm ctx term now).1.state = .follower := by
      rw [if_pos ht] at hA
      exact congrArg Core.state hA
    rw [if_neg (fun h => h.2 hs), if_pos ht, if_pos (Or.inl ht)]
  · rw [if_neg ht] at hA ⊢
    have hs : (adoptTerm ctx term now).1.state = ctx.state := congrArg Core.state hA
    have hc : (adoptTerm ctx term now).1.currentTerm = ctx.currentTerm :=
      congrArg Core.currentTerm hA
    rw [hs, hc]
    have hiff : (term ≥ ctx.currentTerm ∧ ctx.state ≠ .follower) ↔
        (term > ctx.currentTerm ∨ HeartbeatStepsDown ctx term) := by
      have hle : term ≥ ctx.currentTerm ↔ term = ctx.currentTerm := by grind
      rw [hle, or_iff_right ht]
      rfl
    simp only [hiff]

theorem onHeartbeat_votes (ctx : Ctx) (leaderId : ModuleId) (term : UInt32) (now : TimeUs) :
    votes (onHeartbeat ctx leaderId term now).2 = [] := by
  unfold onHeartbeat
  rw [andThen_votes, adoptTerm_votes, acceptLeader_votes]
  rfl

/-! ## vote request -/

theorem answerRequest_core (ctx : Ctx) (partitionCtx : Option Partition.Ctx)
    (candidateId : ModuleId) (term : UInt32) (now : TimeUs) :
    (answerRequest ctx partitionCtx candidateId term now).1.core
      = if mayVoteFor ctx partitionCtx candidateId term then ctx.core.grant candidateId
        else ctx.core := by
  unfold answerRequest
  split <;> rfl

theorem answerRequest_votes (ctx : Ctx) (partitionCtx : Option Partition.Ctx)
    (candidateId : ModuleId) (term : UInt32) (now : TimeUs) :
    votes (answerRequest ctx partitionCtx candidateId term now).2
      = if mayVoteFor ctx partitionCtx candidateId term then [(ctx.currentTerm, candidateId)]
        else [] := by
  unfold answerRequest
  split
  · rw [votes_append, persist_votes]
    rfl
  · rfl

theorem mayVoteFor_spec {ctx : Ctx} {partitionCtx : Option Partition.Ctx} {candidateId : ModuleId}
    {term : UInt32} (h : mayVoteFor ctx partitionCtx candidateId term = true) :
    term = ctx.currentTerm ∧ (ctx.votedFor = invalidModuleId ∨ ctx.votedFor = candidateId) ∧
      ∀ p, partitionCtx = some p → Partition.canVote p = true := by
  obtain ⟨h1, h2⟩ := Bool.and_eq_true_iff.mp h
  obtain ⟨h3, h4⟩ := Bool.and_eq_true_iff.mp h2
  refine ⟨of_decide_eq_true h1, of_decide_eq_true h3, fun p hp => ?_⟩
  rw [hp] at h4
  exact h4

theorem onVoteRequest_core (ctx : Ctx) (partitionCtx : Option Partition.Ctx)
    (candidateId : ModuleId) (term : UInt32) (now : TimeUs) :
    (onVoteRequest ctx partitionCtx candidateId term now).2.1.core
      = if (onVoteRequest ctx partitionCtx candidateId term now).1 then
          (adoptTerm ctx term now).1.core.grant candidateId
        else (adoptTerm ctx term now).1.core :=
  answerRequest_core _ _ _ _ _

theorem onVoteRequest_votes (ctx : Ctx) (partitionCtx : Option Partition.Ctx)
    (candidateId : ModuleId) (term : UInt32) (now : TimeUs) :
    votes (onVoteRequest ctx partitionCtx candidateId term now).2.2
      = if (onVoteRequest ctx partitionCtx candidateId term now).1 then [(term, candidateId)]
        else [] := by
  unfold onVoteRequest
  rw [andThen_votes, adoptTerm_votes, answerRequest_votes, List.nil_append]
  split
  next h => exact congrArg (fun t => [(t, candidateId)]) (mayVoteFor_spec h).1.symm
  next => rfl

/-! ## vote response -/

def Counts (ctx : Ctx) (voterId : ModuleId) (term : UInt32) (voteGranted : Bool) : Prop :=
  ctx.state = .candidate ∧ term = ctx.currentTerm ∧ voteGranted = true ∧
    ctx.voteGranted voterId = false

instance (ctx : Ctx) (voterId : ModuleId) (term : UInt32) (voteGranted : Bool) :
    Decidable (Counts ctx voterId term voteGranted) := inferInstanceAs (Decidable (_ ∧ _))

def Decides (ctx : Ctx) (voterId : ModuleId) (term : UInt32) (voteGranted : Bool) : Prop :=
  Counts ctx voterId term voteGranted ∧ ctx.votesReceived + 1 ≥ ctx.votesNeeded

instance (ctx : Ctx) (voterId : ModuleId) (term : UInt32) (voteGranted : Bool) :
    Decidable (Decides ctx voterId term voteGranted) := inferInstanceAs (Decidable (_ ∧ _))

theorem onVoteResponse_core (ctx : Ctx) (voterId : ModuleId) (term : UInt32) (voteGranted : Bool)
    (now : TimeUs) :
    (onVoteResponse ctx voterId term voteGranted now).1.core
      = if Decides ctx voterId term voteGranted then (ctx.core.count voterId).win
        else if Counts ctx voterId term voteGranted then ctx.core.count voterId
        else ctx.core := by
  unfold onVoteResponse
  by_cases h1 : ctx.state ≠ .candidate ∨ term ≠ ctx.currentTerm
  · have hc : ¬ Counts ctx voterId term voteGranted := fun h =>
      h1.elim (fun h' => h' h.1) (fun h' => h' h.2.1)
    rw [if_pos h1, if_neg (fun h => hc h.1), if_neg hc]
  · have hs : ctx.state = .candidate := by simpa using fun h => h1 (Or.inl h)
    have ht : term = ctx.currentTerm := by simpa using fun h => h1 (Or.inr h)
    have hnot : ¬ term > ctx.currentTerm := by rw [ht]; exact UInt32.lt_irrefl _
    rw [if_neg h1, if_neg hnot]
    by_cases hv : voteGranted = true ∧ ctx.voteGranted voterId = false
    · have hc : Counts ctx voterId term voteGranted := ⟨hs, ht, hv.1, hv.2⟩
      rw [if_pos hv]
      by_cases hd : ctx.votesReceived + 1 ≥ ctx.votesNeeded
      · rw [if_pos hd, if_pos ⟨hc, hd⟩]
        rfl
      · rw [if_neg hd, if_neg (fun h => hd h.2), if_pos hc]
        rfl
    · have hc : ¬ Counts ctx voterId term voteGranted := fun h => hv h.2.2
      rw [if_neg hv, if_neg (fun h => hc h.1), if_neg hc]

theorem onVoteResponse_votes (ctx : Ctx) (voterId : ModuleId) (term : UInt32) (voteGranted : Bool)
    (now : TimeUs) : votes (onVoteResponse ctx voterId term voteGranted now).2 = [] := by
  unfold onVoteResponse
  split
  · rfl
  · split
    · exact becomeFollower_votes ctx term now
    · split
      · dsimp only
        split
        · exact becomeLeader_votes _ now
        · rfl
      · rfl

end Raft
end EkKor
