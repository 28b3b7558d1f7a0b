import EkKor.Partition.Model

/-!
# Leader election (`ekk_raft.c`)

The raft context of one module and its handlers.  A handler returns the new context and what it
does to the outside, in order: messages handed to the HAL and the application callbacks.

* `Ctx`, `Msg`, `Out`   the context, the three raft messages, the effects;
* `becomeFollower`, `becomeCandidate`, `becomeLeader`   the internal transitions;
* `init`, `tick`, `onHeartbeat`, `onVoteRequest`, `onVoteResponse`, `stepDown`   the API.

A callback field says whether the callback is installed.  The partition context a module was
initialised with is shared with the `ekk_partition_*` calls, so a handler takes what
`partition_ctx` points to at the time of the call (`none` for `NULL`).
-/

namespace EkKor
namespace Raft

abbrev electionTimeoutMinUs : UInt32 := 150000
abbrev electionTimeoutMaxUs : UInt32 := 300000
abbrev heartbeatIntervalUs : TimeUs := 50000
abbrev electionMaxUs : TimeUs := 400000

/-- `ekk_raft_state_t` -/
inductive State where
  | follower
  | candidate
  | leader
  deriving DecidableEq, Repr

/-- the raft messages (`ekk_raft_heartbeat_msg_t` and so on) -/
inductive Msg where
  | heartbeat (term : UInt32) (leaderId : ModuleId)
  | requestVote (term : UInt32) (candidateId : ModuleId)
  | voteResponse (term : UInt32) (voterId : ModuleId) (voteGranted : Bool)
  deriving DecidableEq, Repr

/-- what a handler does to the outside -/
inductive Out where
  | broadcast (m : Msg)
  | send (dest : ModuleId) (m : Msg)
  | persistTerm (term : UInt32) (votedFor : ModuleId)
  | onBecomeLeader
  | onBecomeFollower (leader : ModuleId)
  | onLeaderLost
  deriving DecidableEq, Repr

/-- `ekk_raft_ctx_t`; `voteGranted` is the array indexed by the voter's id -/
structure Ctx where
  myId : ModuleId
  currentTerm : UInt32
  votedFor : ModuleId
  state : State
  currentLeader : ModuleId
  electionTimeout : TimeUs
  lastHeartbeat : TimeUs
  electionStart : TimeUs
  votesReceived : UInt8
  votesNeeded : UInt8
  totalVoters : UInt8
  voteGranted : ModuleId → Bool
  onBecomeLeader : Bool
  onBecomeFollower : Bool
  onLeaderLost : Bool
  persistTerm : Bool
  restoreTerm : Bool
  randState : UInt32

def andThen (r : Ctx × List Out) (f : Ctx → Ctx × List Out) : Ctx × List Out :=
  ((f r.1).1, r.2 ++ (f r.1).2)

/-! ## internal helpers -/

/-- `raft_rand`: xorshift32 -/
def raftRand (ctx : Ctx) : UInt32 × Ctx :=
  let x := ctx.randState
  let x := x ^^^ (x <<< 13)
  let x := x ^^^ (x >>> 17)
  let x := x ^^^ (x <<< 5)
  (x, { ctx with randState := x })

/-- `raft_random_timeout` -/
def randomTimeout (ctx : Ctx) : TimeUs × Ctx :=
  let range := electionTimeoutMaxUs - electionTimeoutMinUs
  let (x, ctx) := raftRand ctx
  ((electionTimeoutMinUs + x % range).toUInt64, ctx)

/-- `raft_reset_election_timer` -/
def resetElectionTimer (ctx : Ctx) (now : TimeUs) : Ctx :=
  let (timeout, ctx) := randomTimeout ctx
  { ctx with electionTimeout := timeout, lastHeartbeat := now }

/-- the call of `persist_term`, if the callback is installed -/
def persist (ctx : Ctx) : List Out :=
  if ctx.persistTerm then [.persistTerm ctx.currentTerm ctx.votedFor] else []

/-- `raft_become_follower` -/
def becomeFollower (ctx : Ctx) (term : UInt32) (now : TimeUs) : Ctx × List Out :=
  let wasLeader := ctx.state = .leader
  let ctx := { ctx with state := .follower, currentTerm := term, votedFor := invalidModuleId }
  let ctx := resetElectionTimer ctx now
  (ctx, persist ctx ++ if wasLeader ∧ ctx.onLeaderLost then [.onLeaderLost] else [])

/-- `raft_become_candidate` -/
def becomeCandidate (ctx : Ctx) (now : TimeUs) : Ctx × List Out :=
  let ctx :=
    { ctx with
      state := .candidate
      currentTerm := ctx.currentTerm + 1
      votedFor := ctx.myId
      electionStart := now
      votesReceived := 1
      voteGranted := Function.update (fun _ => false) ctx.myId true }
  let persisted := persist ctx
  let ctx := resetElectionTimer ctx now
  (ctx, persisted ++ [.broadcast (.requestVote ctx.currentTerm ctx.myId)])

/-- `raft_become_leader` -/
def becomeLeader (ctx : Ctx) (now : TimeUs) : Ctx × List Out :=
  let ctx := { ctx with state := .leader, currentLeader := ctx.myId, lastHeartbeat := now }
  (ctx, .broadcast (.heartbeat ctx.currentTerm ctx.myId) ::
    if ctx.onBecomeLeader then [.onBecomeLeader] else [])

/-- `raft_can_start_election` -/
def canStartElection (partitionCtx : Option Partition.Ctx) : Bool :=
  match partitionCtx with
  | some p => Partition.canElect p
  | none => true

/-! ## the API -/

/-- `ekk_raft_init` on the memory `ctx`; `restored` is what the `restore_term` callback would
return (`none` for a failure) -/
def init (ctx : Ctx) (myId : ModuleId) (totalModules : UInt8)
    (restored : Option (UInt32 × ModuleId)) : Except Err Ctx :=
  if myId = invalidModuleId ∨ totalModules = 0 then .error .invalidArg
  else
    let ctx :=
      { ctx with
        myId := myId
        currentTerm := 0
        votedFor := invalidModuleId
        state := .follower
        currentLeader := invalidModuleId
        electionTimeout := 0
        lastHeartbeat := 0
        electionStart := 0
        votesReceived := 0
        votesNeeded := totalModules / 2 + 1
        totalVoters := totalModules
        voteGranted := fun _ => false
        onBecomeLeader := false
        onBecomeFollower := false
        onLeaderLost := false
        persistTerm := false
        restoreTerm := false
        randState := myId.toUInt32 * 1103515245 + 12345 }
    .ok
      (if ctx.restoreTerm then
        match restored with
        | some (term, vote) => { ctx with currentTerm := term, votedFor := vote }
        | none => ctx
      else ctx)

/-- `ekk_raft_step_down` -/
def stepDown (ctx : Ctx) (now : TimeUs) : Ctx × List Out :=
  if ctx.state = .leader then becomeFollower ctx ctx.currentTerm now else (ctx, [])

def sendHeartbeat (ctx : Ctx) (elapsed now : TimeUs) : Ctx × List Out :=
  if elapsed ≥ heartbeatIntervalUs then
    ({ ctx with lastHeartbeat := now }, [.broadcast (.heartbeat ctx.currentTerm ctx.myId)])
  else (ctx, [])

/-- the `EKK_RAFT_LEADER` case of `ekk_raft_tick` -/
def tickLeader (ctx : Ctx) (partitionCtx : Option Partition.Ctx) (elapsed now : TimeUs) :
    Ctx × List Out :=
  andThen (sendHeartbeat ctx elapsed now) fun ctx =>
    match partitionCtx with
    | some p => if Partition.canElect p = false then stepDown ctx now else (ctx, [])
    | none => (ctx, [])

/-- `ekk_raft_tick` -/
def tick (ctx : Ctx) (partitionCtx : Option Partition.Ctx) (now : TimeUs) : Ctx × List Out :=
  if ctx.lastHeartbeat = 0 then (resetElectionTimer ctx now, [])
  else
    let elapsed := now - ctx.lastHeartbeat
    match ctx.state with
    | .follower =>
      if elapsed ≥ ctx.electionTimeout then
        if canStartElection partitionCtx then becomeCandidate ctx now
        else (resetElectionTimer ctx now, [])
      else (ctx, [])
    | .candidate =>
      if ctx.votesReceived ≥ ctx.votesNeeded then becomeLeader ctx now
      else if elapsed ≥ ctx.electionTimeout then
        if canStartElection partitionCtx then becomeCandidate ctx now
        else becomeFollower ctx ctx.currentTerm now
      else if now - ctx.electionStart ≥ electionMaxUs then
        becomeFollower ctx ctx.currentTerm now
      else (ctx, [])
    | .leader => tickLeader ctx partitionCtx elapsed now

/-- the first step of the request and heartbeat handlers: a higher term makes a follower -/
def adoptTerm (ctx : Ctx) (term : UInt32) (now : TimeUs) : Ctx × List Out :=
  if term > ctx.currentTerm then becomeFollower ctx term now else (ctx, [])

/-- the second step of `ekk_raft_on_heartbeat`: the heartbeat of a current or new leader -/
def acceptLeader (ctx : Ctx) (leaderId : ModuleId) (term : UInt32) (now : TimeUs) :
    Ctx × List Out :=
  if term ≥ ctx.currentTerm then
    let ctx := { ctx with currentLeader := leaderId }
    if ctx.state ≠ .follower then
      andThen (becomeFollower ctx term now) fun ctx =>
        (ctx, if ctx.onBecomeFollower then [.onBecomeFollower leaderId] else [])
    else (resetElectionTimer ctx now, [])
  else (ctx, [])

/-- `ekk_raft_on_heartbeat` -/
def onHeartbeat (ctx : Ctx) (leaderId : ModuleId) (term : UInt32) (now : TimeUs) :
    Ctx × List Out :=
  andThen (adoptTerm ctx term now) fun ctx => acceptLeader ctx leaderId term now

/-- the conditions of `ekk_raft_on_vote_request` for granting a vote: the term is the current
one, the vote is free or already the candidate's, the partition allows voting -/
def mayVoteFor (ctx : Ctx) (partitionCtx : Option Partition.Ctx) (candidateId : ModuleId)
    (term : UInt32) : Bool :=
  decide (term = ctx.currentTerm) &&
    (decide (ctx.votedFor = invalidModuleId ∨ ctx.votedFor = candidateId) &&
      match partitionCtx with
      | some p => Partition.canVote p
      | none => true)

/-- the second step of `ekk_raft_on_vote_request`: vote, and answer the candidate -/
def answerRequest (ctx : Ctx) (partitionCtx : Option Partition.Ctx) (candidateId : ModuleId)
    (term : UInt32) (now : TimeUs) : Ctx × List Out :=
  if mayVoteFor ctx partitionCtx candidateId term then
    let ctx := { ctx with votedFor := candidateId }
    (resetElectionTimer ctx now,
      persist ctx ++ [.send candidateId (.voteResponse ctx.currentTerm ctx.myId true)])
  else (ctx, [.send candidateId (.voteResponse ctx.currentTerm ctx.myId false)])

/-- `ekk_raft_on_vote_request`; the `Bool` is its return value -/
def onVoteRequest (ctx : Ctx) (partitionCtx : Option Partition.Ctx) (candidateId : ModuleId)
    (term : UInt32) (now : TimeUs) : Bool × Ctx × List Out :=
  (mayVoteFor (adoptTerm ctx term now).1 partitionCtx candidateId term,
    andThen (adoptTerm ctx term now) fun ctx =>
      answerRequest ctx partitionCtx candidateId term now)

/-- `ekk_raft_on_vote_response`; its second test, for a higher term, is never reached -/
def onVoteResponse (ctx : Ctx) (voterId : ModuleId) (term : UInt32) (voteGranted : Bool)
    (now : TimeUs) : Ctx × List Out :=
  if ctx.state ≠ .candidate ∨ term ≠ ctx.currentTerm then (ctx, [])
  else if term > ctx.currentTerm then becomeFollower ctx term now
  else if voteGranted ∧ ctx.voteGranted voterId = false then
    let ctx :=
      { ctx with
        voteGranted := Function.update ctx.voteGranted voterId true
        votesReceived := ctx.votesReceived + 1 }
    if ctx.votesReceived ≥ ctx.votesNeeded then becomeLeader ctx now else (ctx, [])
  else (ctx, [])

/-- `ekk_raft_get_leader` -/
def getLeader (ctx : Ctx) : ModuleId := ctx.currentLeader

/-- `ekk_raft_set_persistence` -/
def setPersistence (ctx : Ctx) (persist restore : Bool) : Ctx :=
  { ctx with persistTerm := persist, restoreTerm := restore }

/-- `ekk_raft_set_callbacks` -/
def setCallbacks (ctx : Ctx) (onLeader onFollower onLost : Bool) : Ctx :=
  { ctx with onBecomeLeader := onLeader, onBecomeFollower := onFollower, onLeaderLost := onLost }

end Raft
end EkKor
