import EkKor.Types
import Mathlib.Data.Fintype.Pi

/-!
# Threshold consensus (`ekk_consensus.c`)

The consensus engine of one module.  The ballot table and the inhibition list are lists: an array
with its count.  A function returns its error code or value, the new engine and what it does to
the outside, in order.

* `Ballot`, `Inhibition`, `Consensus`   the data;
* `evaluateBallot`, `finalizeBallot`, `cleanupCompletedBallots`   the internal helpers;
* `init`, `propose`, `vote`, `inhibit`, `onVote`, `onProposal`, `getResult`, `tick`   the API.

`now` is the value of `ekk_hal_time_us` during the call, and the argument of `tick`.
-/

namespace EkKor
namespace Consensus

/-! ## data -/

/-- `ekk_proposal_type_t` -/
inductive ProposalType where
  | modeChange
  | powerLimit
  | shutdown
  | reformation
  | quarantine
  | custom0
  | custom1
  | custom2
  | custom3
  deriving DecidableEq, Repr

/-- `ekk_consensus_config_t` -/
structure Config where
  voteTimeout : TimeUs
  inhibitDuration : TimeUs
  allowSelfVote : Bool
  deriving DecidableEq, Repr

/-- `EKK_CONSENSUS_CONFIG_DEFAULT` -/
def Config.default : Config :=
  { voteTimeout := voteTimeoutUs, inhibitDuration := 100000, allowSelfVote := true }

/-- `ekk_ballot_t` -/
structure Ballot where
  id : BallotId
  type : ProposalType
  proposer : ModuleId
  proposalData : UInt32
  threshold : Fixed
  deadline : TimeUs
  votes : Fin kNeighbors → VoteValue
  voteCount : UInt8
  yesCount : UInt8
  noCount : UInt8
  result : VoteResult
  completed : Bool
  deriving DecidableEq

/-- an entry of the arrays `inhibited` and `inhibit_until` -/
structure Inhibition where
  ballotId : BallotId
  inhibitUntil : TimeUs
  deriving DecidableEq, Repr

/-- `ekk_vote_msg_t` and `ekk_proposal_msg_t` as they are sent, and the completion callback with
the slot of the ballot -/
inductive Out where
  | sendVote (dest voterId : ModuleId) (ballotId : BallotId) (vote : VoteValue)
      (timestamp : UInt32)
  | broadcastProposal (proposerId : ModuleId) (ballotId : BallotId) (type : ProposalType)
      (data : UInt32) (threshold : Fixed)
  | complete (slot : Nat) (ballot : Ballot) (result : VoteResult)
  deriving DecidableEq

end Consensus

/-- `ekk_consensus_t` -/
structure Consensus where
  myId : ModuleId
  ballots : List Consensus.Ballot
  inhibited : List Consensus.Inhibition
  nextBallotId : BallotId
  config : Consensus.Config
  deriving DecidableEq

namespace Consensus

/-! ## internal helpers -/

/-- `find_ballot_index` -/
def findBallotIndex (cons : Consensus) (id : BallotId) : Option Nat :=
  cons.ballots.findIdx? fun b => b.id == id

/-- the slot `find_ballot_index` returns, with the ballot in it -/
def findBallot (cons : Consensus) (id : BallotId) : Option (Nat × Ballot) :=
  (findBallotIndex cons id).bind fun idx => (cons.ballots[idx]?).map fun b => (idx, b)

/-- `is_inhibited` -/
def isInhibited (cons : Consensus) (ballotId : BallotId) (now : TimeUs) : Bool :=
  cons.inhibited.any fun e => e.ballotId == ballotId && decide (e.inhibitUntil > now)

/-- `allocate_ballot_slot` -/
def allocateBallotSlot (cons : Consensus) : Option Nat :=
  if cons.ballots.length ≥ maxBallots then none else some cons.ballots.length

/-- `(votes << 16) / count`, 0 for no votes; it fits the 32 bits of `ekk_fixed_t`, because `votes`
is below 2^8 or at most `count + 2^8` -/
def ratio (votes count : Nat) : Fixed :=
  if count > 0 then ((votes * 65536 / count : Nat) : Int) else 0

/-- `evaluate_ballot` -/
def evaluateBallot (ballot : Ballot) (neighborCount : Nat) : VoteResult :=
  if ballot.completed then ballot.result
  else
    let totalVotes := ballot.voteCount.toNat
    let yesVotes := ballot.yesCount.toNat
    if totalVotes < neighborCount then
      let remaining := neighborCount - totalVotes
      if ratio (yesVotes + remaining) neighborCount < ballot.threshold then .rejected
      else if ratio yesVotes neighborCount ≥ ballot.threshold then .approved
      else .pending
    else if ratio yesVotes neighborCount ≥ ballot.threshold then .approved
    else .rejected

/-- the ballot after `finalize_ballot` -/
def finalizeBallot (ballot : Ballot) (result : VoteResult) : Ballot :=
  { ballot with result := result, completed := true }

/-- `finalize_ballot`, if there is a result -/
def settle (ballot : Ballot) : Option VoteResult → Ballot
  | some result => finalizeBallot ballot result
  | none => ballot

/-- the completion callback of `settle` -/
def completion (slot : Nat) (ballot : Ballot) : Option VoteResult → List Out
  | some result => [.complete slot (finalizeBallot ballot result) result]
  | none => []

/-- `cleanup_completed_ballots` -/
def cleanupCompletedBallots (ballots : List Ballot) : List Ballot :=
  ballots.filter fun b => !b.completed

/-- `send_vote` -/
def sendVote (cons : Consensus) (dest : ModuleId) (ballotId : BallotId) (vote : VoteValue)
    (now : TimeUs) : Out :=
  .sendVote dest cons.myId ballotId vote now.toUInt32

/-- the ballot that `ekk_consensus_propose` and `ekk_consensus_on_proposal` store first -/
def newBallot (cons : Consensus) (id : BallotId) (type : ProposalType) (proposer : ModuleId)
    (data : UInt32) (threshold : Fixed) (now : TimeUs) : Ballot :=
  { id := id
    type := type
    proposer := proposer
    proposalData := data
    threshold := threshold
    deadline := now + cons.config.voteTimeout
    votes := fun _ => .abstain
    voteCount := 0
    yesCount := 0
    noCount := 0
    result := .pending
    completed := false }

/-! ## initialisation -/

/-- `ekk_consensus_init` -/
def init (myId : ModuleId) (config : Option Config) : Except Err Consensus :=
  if myId = invalidModuleId then .error .invalidArg
  else
    .ok
      { myId := myId
        ballots := []
        inhibited := []
        nextBallotId := 1
        config := config.getD Config.default }

/-! ## proposals -/

def selfVote (cons : Consensus) (ballot : Ballot) : Ballot :=
  if cons.config.allowSelfVote then
    { ballot with
      votes := Function.update ballot.votes 0 .yes
      voteCount := 1
      yesCount := 1 }
  else ballot

/-- `ekk_consensus_propose`; the id is its output parameter -/
def propose (cons : Consensus) (type : ProposalType) (data : UInt32) (threshold : Fixed)
    (now : TimeUs) : Except Err BallotId × Consensus × List Out :=
  match allocateBallotSlot cons with
  | none => (.error .busy, cons, [])
  | some _ =>
    let ballot := newBallot cons cons.nextBallotId type cons.myId data threshold now
    (.ok ballot.id,
      { cons with
        ballots := cons.ballots ++ [selfVote cons ballot]
        nextBallotId := cons.nextBallotId + 1 },
      [.broadcastProposal cons.myId ballot.id type data threshold])

/-! ## votes -/

/-- `ekk_consensus_vote`; `sent` is the result of `ekk_hal_send` -/
def vote (cons : Consensus) (ballotId : BallotId) (value : VoteValue) (now : TimeUs)
    (sent : Except Err Unit) : Except Err Unit × List Out :=
  if ballotId = invalidBallotId then (.error .invalidArg, [])
  else
    match findBallot cons ballotId with
    | none => (.error .notFound, [])
    | some (_, ballot) =>
      if ballot.completed then (.error .busy, [])
      else (sent, [sendVote cons ballot.proposer ballotId value now])

/-- `voter_id % EKK_K_NEIGHBORS` -/
def voterSlot (voterId : ModuleId) : Fin kNeighbors :=
  ⟨voterId.toNat % kNeighbors, Nat.mod_lt _ (by decide)⟩

def recordVote (ballot : Ballot) (voterId : ModuleId) (value : VoteValue) : Ballot :=
  { ballot with
    votes := Function.update ballot.votes (voterSlot voterId) value
    voteCount := ballot.voteCount + 1
    yesCount := if value = .yes then ballot.yesCount + 1 else ballot.yesCount
    noCount := if value = .no then ballot.noCount + 1 else ballot.noCount }

/-- the result `ekk_consensus_on_vote` finalises a ballot with after a vote, if any -/
def early (ballot : Ballot) : Option VoteResult :=
  if evaluateBallot ballot kNeighbors ≠ .pending then some (evaluateBallot ballot kNeighbors)
  else none

def addInhibition (cons : Consensus) (ballotId : BallotId) (now : TimeUs) : List Inhibition :=
  if cons.inhibited.length < maxBallots then
    cons.inhibited ++ [⟨ballotId, now + cons.config.inhibitDuration⟩]
  else cons.inhibited

/-- `ekk_consensus_on_vote` -/
def onVote (cons : Consensus) (voterId : ModuleId) (ballotId : BallotId) (value : VoteValue)
    (now : TimeUs) : Except Err Unit × Consensus × List Out :=
  if voterId = invalidModuleId ∨ ballotId = invalidBallotId then (.error .invalidArg, cons, [])
  else if value = .inhibit then
    let cons := { cons with inhibited := addInhibition cons ballotId now }
    match findBallot cons ballotId with
    | none => (.ok (), cons, [])
    | some (idx, ballot) =>
      if ballot.completed then (.ok (), cons, [])
      else
        (.ok (), { cons with ballots := cons.ballots.set idx (settle ballot (some .cancelled)) },
          completion idx ballot (some .cancelled))
  else
    match findBallot cons ballotId with
    | none => (.error .notFound, cons, [])
    | some (idx, ballot) =>
      if ballot.proposer ≠ cons.myId then (.error .invalidArg, cons, [])
      else if ballot.completed then (.ok (), cons, [])
      else if ballot.votes (voterSlot voterId) ≠ .abstain then (.ok (), cons, [])
      else
        let ballot := recordVote ballot voterId value
        (.ok (), { cons with ballots := cons.ballots.set idx (settle ballot (early ballot)) },
          completion idx ballot (early ballot))

/-! ## inhibition -/

/-- the inhibition list after `ekk_consensus_inhibit` of a new id: the oldest entry of a full list
makes room -/
def pushInhibition (cons : Consensus) (ballotId : BallotId) (now : TimeUs) : List Inhibition :=
  (if cons.inhibited.length ≥ maxBallots then cons.inhibited.drop 1 else cons.inhibited) ++
    [⟨ballotId, now + cons.config.inhibitDuration⟩]

/-- `ekk_consensus_inhibit` -/
def inhibit (cons : Consensus) (ballotId : BallotId) (now : TimeUs) :
    Except Err Unit × Consensus × List Out :=
  if ballotId = invalidBallotId then (.error .invalidArg, cons, [])
  else
    match cons.inhibited.findIdx? fun e => e.ballotId == ballotId with
    | some i =>
      (.ok (),
        { cons with
          inhibited := cons.inhibited.modify i fun e =>
            { e with inhibitUntil := now + cons.config.inhibitDuration } }, [])
    | none =>
      let cons := { cons with inhibited := pushInhibition cons ballotId now }
      match findBallot cons ballotId with
      | none => (.ok (), cons, [sendVote cons broadcastId ballotId .inhibit now])
      | some (idx, ballot) =>
        (.ok (), { cons with ballots := cons.ballots.set idx (settle ballot (some .cancelled)) },
          completion idx ballot (some .cancelled) ++
            [sendVote cons broadcastId ballotId .inhibit now])

/-! ## proposals of other modules -/

/-- `ekk_consensus_on_proposal`; `decision` is the installed decision callback -/
def onProposal (cons : Consensus) (decision : Option (Consensus → Ballot → VoteValue))
    (proposerId : ModuleId) (ballotId : BallotId) (type : ProposalType) (data : UInt32)
    (threshold : Fixed) (now : TimeUs) : Except Err Unit × Consensus × List Out :=
  if proposerId = invalidModuleId ∨ ballotId = invalidBallotId then (.error .invalidArg, cons, [])
  else if proposerId = cons.myId then (.ok (), cons, [])
  else if isInhibited cons ballotId now then
    (.error .inhibited, cons, [sendVote cons proposerId ballotId .inhibit now])
  else
    match findBallot cons ballotId with
    | some _ => (.ok (), cons, [])
    | none =>
      match allocateBallotSlot cons with
      | none => (.error .busy, cons, [sendVote cons proposerId ballotId .no now])
      | some _ =>
        let ballot := newBallot cons ballotId type proposerId data threshold now
        let cons := { cons with ballots := cons.ballots ++ [ballot] }
        let myVote :=
          match decision with
          | some decide => decide cons ballot
          | none => .yes
        (.ok (), cons, [sendVote cons proposerId ballotId myVote now])

/-! ## results and time -/

/-- `ekk_consensus_get_result` -/
def getResult (cons : Consensus) (ballotId : BallotId) : VoteResult :=
  if ballotId = invalidBallotId then .pending
  else
    match findBallot cons ballotId with
    | none => .pending
    | some (_, ballot) => ballot.result

/-- the result `ekk_consensus_tick` finalises a ballot with, if any -/
def expiry (cons : Consensus) (now : TimeUs) (ballot : Ballot) : Option VoteResult :=
  if ballot.completed then none
  else if isInhibited cons ballot.id now then some .cancelled
  else if now ≥ ballot.deadline then
    let result := evaluateBallot ballot ballot.voteCount.toNat
    some (if result = .pending then .timeout else result)
  else none

def completedCount (cons : Consensus) (now : TimeUs) : Nat :=
  cons.ballots.countP fun b => (expiry cons now b).isSome

/-- `ekk_consensus_tick` -/
def tick (cons : Consensus) (now : TimeUs) : Nat × Consensus × List Out :=
  let ballots := cons.ballots.map fun b => settle b (expiry cons now b)
  (completedCount cons now,
    { cons with
      ballots := if completedCount cons now > 0 then cleanupCompletedBallots ballots else ballots
      inhibited := cons.inhibited.filter fun e => decide (e.inhibitUntil > now) },
    cons.ballots.zipIdx.flatMap fun (b, slot) => completion slot b (expiry cons now b))

end Consensus
end EkKor
