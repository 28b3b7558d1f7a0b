import EkKor.Types
import EkKor.Lib.Pruning
import Mathlib.Data.Fintype.Pi

/-!
# Threshold consensus in Rust (`consensus.rs`)

The second engine of the repository.  `Vec<_, MAX_BALLOTS>` is a list that `push` does not let
grow beyond its capacity.

* `Ballot`, `Inhibition`, `Consensus`   the data;
* `Ballot.recordVoteFrom`, `Ballot.checkThreshold`   the votes of a ballot;
* `Consensus.propose`, `inhibit`, `onVote`, `onProposal`, `getResult`, `tick`   the engine.

A function returns `none` when it panics.  With `checks` (the overflow checks of a debug build) an
addition that does not fit its type panics, without them (a release build) it wraps.
-/

namespace EkKor
namespace Rust
open Pruning

/-! ## data -/

/-- `ProposalType` -/
inductive ProposalType where
  | modeChange
  | powerLimit
  | shutdown
  | reformation
  | custom0
  | custom1
  | custom2
  | custom3
  deriving DecidableEq, Repr

/-- `ConsensusConfig` -/
structure Config where
  voteTimeout : TimeUs
  inhibitDuration : TimeUs
  deriving DecidableEq, Repr

/-- `ConsensusConfig::default` -/
def Config.default : Config := { voteTimeout := voteTimeoutUs, inhibitDuration := 100000 }

/-- `Ballot` -/
structure Ballot where
  id : BallotId
  proposalType : ProposalType
  proposer : ModuleId
  data : UInt32
  threshold : Fixed
  deadline : TimeUs
  votes : Fin kNeighbors → VoteValue
  voteCount : UInt8
  yesCount : UInt8
  noCount : UInt8
  result : VoteResult
  completed : Bool
  deriving DecidableEq

/-- `Inhibition` -/
structure Inhibition where
  ballotId : BallotId
  untilUs : TimeUs
  deriving DecidableEq, Repr

/-- a call of the completion callback -/
inductive Out where
  | complete (ballot : Ballot) (result : VoteResult)
  deriving DecidableEq

/-- `Consensus` -/
structure Consensus where
  myId : ModuleId
  ballots : List Ballot
  inhibited : List Inhibition
  nextBallotId : BallotId
  config : Config
  deriving DecidableEq

/-! ## arithmetic and vectors -/

section
variable (checks : Bool)

/-- `now + duration` -/
def addTime (now duration : TimeUs) : Option TimeUs :=
  if checks && decide (2 ^ 64 ≤ now.toNat + duration.toNat) then none else some (now + duration)

/-- `count += 1` -/
def bump (count : UInt8) : Option UInt8 :=
  if checks && decide (count = 255) then none else some (count + 1)

end

/-- `Vec::push` -/
def push {α : Type} (l : List α) (a : α) : Option (List α) :=
  if l.length < maxBallots then some (l ++ [a]) else none

/-! ## ballots -/

namespace Ballot

/-- `Ballot::new` -/
def new (id : BallotId) (proposalType : ProposalType) (proposer : ModuleId) (data : UInt32)
    (threshold : Fixed) (deadline : TimeUs) : Ballot :=
  { id := id
    proposalType := proposalType
    proposer := proposer
    data := data
    threshold := threshold
    deadline := deadline
    votes := fun _ => .abstain
    voteCount := 0
    yesCount := 0
    noCount := 0
    result := .pending
    completed := false }

theorem slot_lt (voterId : ModuleId) : voterId.toNat % kNeighbors < kNeighbors :=
  Nat.mod_lt _ (by decide)

/-- `(voter_id as usize) % K_NEIGHBORS` -/
def slot (voterId : ModuleId) : Fin kNeighbors := ⟨voterId.toNat % kNeighbors, slot_lt voterId⟩

def store (b : Ballot) (voterId : ModuleId) (vote : VoteValue) (voteCount : UInt8) : Ballot :=
  { b with votes := Function.update b.votes (slot voterId) vote, voteCount := voteCount }

/-- `record_vote_from` -/
def recordVoteFrom (checks : Bool) (b : Ballot) (voterId : ModuleId) (vote : VoteValue) :
    Option (Bool × Ballot) :=
  if b.votes (slot voterId) ≠ .abstain then some (false, b)
  else
    (bump checks b.voteCount).bind fun voteCount =>
      let b := b.store voterId vote voteCount
      match vote with
      | .yes => (bump checks b.yesCount).map fun n => (true, { b with yesCount := n })
      | .no => (bump checks b.noCount).map fun n => (true, { b with noCount := n })
      | .inhibit => some (true, { b with result := .cancelled, completed := true })
      | .abstain => some (true, b)

/-- `yes_count as f32 / total_voters as f32` as a Q16.16 number, 0 for no voters -/
def yesRatio (b : Ballot) (totalVoters : UInt8) : Fixed :=
  if totalVoters > 0 then ((b.yesCount.toNat * 65536 / totalVoters.toNat : Nat) : Int) else 0

/-- `check_threshold` -/
def checkThreshold (b : Ballot) (totalVoters : UInt8) : Ballot :=
  if b.completed then b
  else if b.yesRatio totalVoters ≥ b.threshold then
    { b with result := .approved, completed := true }
  else if b.voteCount ≥ totalVoters then { b with result := .rejected, completed := true }
  else b

/-- the ballot as `inhibit` leaves it -/
def cancel (b : Ballot) : Ballot := { b with result := .cancelled, completed := true }

def due (b : Ballot) (now : TimeUs) : Bool := !b.completed && decide (now ≥ b.deadline)

/-- the ballot after the loop of `tick` over the deadlines -/
def expire (b : Ballot) (now : TimeUs) : Ballot :=
  if b.due now then { b with result := .timeout, completed := true } else b

end Ballot

/-! ## the engine -/

namespace Consensus

/-- `Consensus::new` -/
def new (myId : ModuleId) (config : Option Config) : Consensus :=
  { myId := myId
    ballots := []
    inhibited := []
    nextBallotId := 1
    config := config.getD Config.default }

def findBallot (cons : Consensus) (ballotId : BallotId) : Option (Nat × Ballot) :=
  (cons.ballots.findIdx? fun b => b.id == ballotId).bind fun pos =>
    (cons.ballots[pos]?).map fun b => (pos, b)

/-- `is_inhibited` -/
def isInhibited (cons : Consensus) (ballotId : BallotId) : Bool :=
  cons.inhibited.any fun i => i.ballotId == ballotId

/-- the id after `ballot_id`: 0 is left out -/
def succId (ballotId : BallotId) : BallotId :=
  if ballotId + 1 = invalidBallotId then 1 else ballotId + 1

/-- `propose` -/
def propose (checks : Bool) (cons : Consensus) (proposalType : ProposalType) (data : UInt32)
    (threshold : Fixed) (now : TimeUs) : Option (Except Err BallotId × Consensus) :=
  if cons.ballots.length ≥ maxBallots then some (.error .busy, cons)
  else
    let ballotId := cons.nextBallotId
    let cons := { cons with nextBallotId := succId ballotId }
    (addTime checks now cons.config.voteTimeout).map fun deadline =>
      match push cons.ballots
        (Ballot.new ballotId proposalType cons.myId data threshold deadline) with
      | none => (.error .noMemory, cons)
      | some ballots => (.ok ballotId, { cons with ballots := ballots })

/-- `inhibit` -/
def inhibit (checks : Bool) (cons : Consensus) (ballotId : BallotId) (now : TimeUs) :
    Option (Except Err Unit × Consensus) :=
  (addTime checks now cons.config.inhibitDuration).map fun untilUs =>
    match push cons.inhibited ⟨ballotId, untilUs⟩ with
    | none => (.error .noMemory, cons)
    | some inhibited =>
      let cons := { cons with inhibited := inhibited }
      match findBallot cons ballotId with
      | none => (.ok (), cons)
      | some (pos, ballot) => (.ok (), { cons with ballots := cons.ballots.set pos ballot.cancel })

/-- `on_vote` -/
def onVote (checks : Bool) (cons : Consensus) (voterId : ModuleId) (ballotId : BallotId)
    (vote : VoteValue) (totalVoters : UInt8) : Option (Except Err Unit × Consensus × List Out) :=
  match findBallot cons ballotId with
  | none => some (.error .notFound, cons, [])
  | some (pos, ballot) =>
    (ballot.recordVoteFrom checks voterId vote).map fun (recorded, ballot) =>
      if recorded then
        let ballot := ballot.checkThreshold totalVoters
        (.ok (), { cons with ballots := cons.ballots.set pos ballot },
          if ballot.completed then [.complete ballot ballot.result] else [])
      else (.ok (), cons, [])

/-- `on_proposal`; `onDecide` is the installed decision callback -/
def onProposal (checks : Bool) (cons : Consensus) (onDecide : Option (Ballot → VoteValue))
    (proposerId : ModuleId) (ballotId : BallotId) (proposalType : ProposalType) (data : UInt32)
    (threshold : Fixed) (now : TimeUs) : Option (Except Err VoteValue × Consensus) :=
  if isInhibited cons ballotId then some (.error .inhibited, cons)
  else
    (addTime checks now cons.config.voteTimeout).map fun deadline =>
      let ballot := Ballot.new ballotId proposalType proposerId data threshold deadline
      -- a full vector drops the ballot without an error
      let cons := { cons with ballots := (push cons.ballots ballot).getD cons.ballots }
      match onDecide with
      | some decide => (.ok (decide ballot), cons)
      | none => (.ok .yes, cons)

/-- `get_result` -/
def getResult (cons : Consensus) (ballotId : BallotId) : VoteResult :=
  match findBallot cons ballotId with
  | none => .pending
  | some (_, ballot) => ballot.result

/-- the last loop of `tick`: the oldest completed ballots go until half the table is free; each
round removes one, so the length of the table is enough fuel (`prune_done`) -/
def retire (ballots : List Ballot) : List Ballot :=
  prune Ballot.completed (maxBallots / 2) ballots.length ballots

/-- `tick` -/
def tick (cons : Consensus) (now : TimeUs) : Nat × Consensus × List Out :=
  (cons.ballots.countP fun b => b.due now,
    { cons with
      ballots := retire (cons.ballots.map fun b => b.expire now)
      inhibited := cons.inhibited.filter fun i => decide (i.untilUs > now) },
    (cons.ballots.filter fun b => b.due now).map fun b => .complete (b.expire now) .timeout)

end Consensus
end Rust
end EkKor
