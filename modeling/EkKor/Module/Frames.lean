import EkKor.Lib.Packed
import EkKor.Module.Model

/-!
# Frames (`process_rx_messages`)

The one buffer that all frames of a call are read into, and the messages that it is taken for.  A
frame can hold any bytes, so that the ballots have bytes where the other modules have enumerations.

* `Frame`, `Node`      a frame, and the part of a module that messages change;
* `onProposal`, `onVote`   the functions of `ekk_consensus.c`, for all bytes;
* `read`, `handle`, `step`   a frame is read behind the others, and taken for a message;
* `handle_encode`      for the bytes of a message this is what `receive` does.
-/

namespace EkKor
namespace Frames
open EkKor.Module (Statics Message maxMessages)
open Function

/-! ## data -/

/-- what `ekk_hal_recv` returns, at most 64 bytes, and the value of `ekk_hal_time_us` while the frame
is processed -/
structure Frame where
  sender : ModuleId
  msgType : UInt8
  data : List UInt8
  fits : data.length ≤ 64
  time : TimeUs

/-- `ekk_ballot_t` -/
structure Ballot where
  id : BallotId
  type : UInt8
  proposer : ModuleId
  proposalData : UInt32
  threshold : Fixed
  deadline : TimeUs
  votes : Fin kNeighbors → UInt8
  voteCount : UInt8
  yesCount : UInt8
  noCount : UInt8
  result : VoteResult
  completed : Bool
  deriving DecidableEq

/-- `ekk_consensus_t` -/
structure Consensus where
  myId : ModuleId
  ballots : List Ballot
  inhibited : List Consensus.Inhibition
  nextBallotId : BallotId
  config : Consensus.Config
  deriving DecidableEq

/-- the variables of the process, and the parts of a module that messages change -/
structure Node where
  statics : Statics
  topology : Topology
  consensus : Consensus

/-! ## ballots (`ekk_consensus.c`) -/

def Ballot.tally (ballot : Ballot) : Consensus.Ballot where
  id := ballot.id
  type := .modeChange
  proposer := ballot.proposer
  proposalData := ballot.proposalData
  threshold := ballot.threshold
  deadline := ballot.deadline
  votes := fun _ => .abstain
  voteCount := ballot.voteCount
  yesCount := ballot.yesCount
  noCount := ballot.noCount
  result := ballot.result
  completed := ballot.completed

/-- `find_ballot_index`, with the ballot -/
def findBallot (cons : Consensus) (id : BallotId) : Option (Nat × Ballot) :=
  (cons.ballots.findIdx? fun b => b.id == id).bind fun idx =>
    (cons.ballots[idx]?).map fun b => (idx, b)

/-- `finalize_ballot`, if there is a result -/
def settle (ballot : Ballot) : Option VoteResult → Ballot
  | some result => { ballot with result := result, completed := true }
  | none => ballot

def recordVote (ballot : Ballot) (voterId : ModuleId) (vote : UInt8) : Ballot :=
  { ballot with
    votes := update ballot.votes (Consensus.voterSlot voterId) vote
    voteCount := ballot.voteCount + 1
    yesCount := if vote = 1 then ballot.yesCount + 1 else ballot.yesCount
    noCount := if vote = 2 then ballot.noCount + 1 else ballot.noCount }

def cancel (cons : Consensus) (ballotId : BallotId) : Consensus :=
  match findBallot cons ballotId with
  | none => cons
  | some (idx, ballot) =>
    if ballot.completed then cons
    else { cons with ballots := cons.ballots.set idx (settle ballot (some .cancelled)) }

/-- `ekk_consensus_on_vote` -/
def onVote (cons : Consensus) (voterId : ModuleId) (ballotId : BallotId) (vote : UInt8)
    (now : TimeUs) : Consensus :=
  if voterId = invalidModuleId ∨ ballotId = invalidBallotId then cons
  else if vote = 3 then
    let inhibited :=
      if cons.inhibited.length < maxBallots then
        cons.inhibited ++ [⟨ballotId, now + cons.config.inhibitDuration⟩]
      else cons.inhibited
    cancel { cons with inhibited := inhibited } ballotId
  else
    match findBallot cons ballotId with
    | none => cons
    | some (idx, ballot) =>
      if ballot.proposer ≠ cons.myId then cons
      else if ballot.completed then cons
      else if ballot.votes (Consensus.voterSlot voterId) ≠ 0 then cons
      else
        let ballot := recordVote ballot voterId vote
        { cons with
          ballots := cons.ballots.set idx (settle ballot (Consensus.early ballot.tally)) }

/-- `ekk_consensus_on_proposal`; the vote that it sends is left out -/
def onProposal (cons : Consensus) (proposerId : ModuleId) (ballotId : BallotId) (type : UInt8)
    (data : UInt32) (threshold : Fixed) (now : TimeUs) : Consensus :=
  if proposerId = invalidModuleId ∨ ballotId = invalidBallotId then cons
  else if proposerId = cons.myId then cons
  else if cons.inhibited.any fun e => e.ballotId == ballotId && decide (e.inhibitUntil > now) then
    cons
  else
    match findBallot cons ballotId with
    | some _ => cons
    | none =>
      if cons.ballots.length ≥ maxBallots then cons
      else
        { cons with
          ballots := cons.ballots ++
            [{ id := ballotId
               type := type
               proposer := proposerId
               proposalData := data
               threshold := threshold
               deadline := now + cons.config.voteTimeout
               votes := fun _ => 0
               voteCount := 0
               yesCount := 0
               noCount := 0
               result := .pending
               completed := false }] }

/-! ## messages -/

/-- the fields of a message that are used; `other` has none -/
inductive Fields where
  | heartbeat (senderId : ModuleId) (sequence : UInt8)
  | discovery (senderId : ModuleId) (position : Topology.Position)
  | proposal (proposerId : ModuleId) (ballotId : BallotId) (type : UInt8) (data : UInt32)
      (threshold : Int32)
  | vote (voterId : ModuleId) (ballotId : BallotId) (vote : UInt8)
  | other

abbrev Buffer := Nat → UInt8

def half (buffer : Buffer) (i : Nat) : UInt16 :=
  UInt16.ofNat ((buffer i).toNat + 256 * (buffer (i + 1)).toNat)

def word (buffer : Buffer) (i : Nat) : UInt32 :=
  LittleEndian.word (buffer i) (buffer (i + 1)) (buffer (i + 2)) (buffer (i + 3))

/-- the casts of the buffer, for the values of `ekk_msg_type_t` -/
def read (msgType : UInt8) (buffer : Buffer) : Fields :=
  if msgType = 1 then .heartbeat (buffer 1) (buffer 2)
  else if msgType = 2 then
    .discovery (buffer 1)
      ⟨(half buffer 2).toInt16, (half buffer 4).toInt16, (half buffer 6).toInt16⟩
  else if msgType = 4 then
    .proposal (buffer 1) (half buffer 2) (buffer 4) (word buffer 5) (word buffer 9).toInt32
  else if msgType = 5 then .vote (buffer 1) (half buffer 2) (buffer 4)
  else .other

/-- `sizeof` of the message structures; a field message and an unknown one have none -/
def messageSize (msgType : UInt8) : Nat :=
  if msgType = 1 then 8
  else if msgType = 2 then 12
  else if msgType = 4 then 13
  else if msgType = 5 then 9
  else 0

def fill (buffer : Buffer) (data : List UInt8) : Buffer := fun i => data.getD i (buffer i)

/-! ## what a message does -/

/-- `ekk_topology_on_discovery`, for the topology of the node -/
def onDiscovery (n : Node) (id : ModuleId) (position : Topology.Position) (time : TimeUs) : Node :=
  let (_, shared, topology, _) :=
    Topology.onDiscovery n.statics.topology n.topology id position time
  { n with statics := { n.statics with topology := shared }, topology := topology }

def callback (time : TimeUs) (n : Node) : Heartbeat.Out → Node
  | .alive id => onDiscovery n id ⟨0, 0, 0⟩ time
  | .suspect _ => n
  | .dead id =>
    let (_, shared, topology, _) :=
      Topology.onNeighborLost n.statics.topology n.topology id time
    { n with statics := { n.statics with topology := shared }, topology := topology }
  | .broadcast .. => n

def handle (now : TimeUs) (n : Node) (fields : Fields) (time : TimeUs) : Node :=
  match fields with
  | .heartbeat senderId sequence =>
    let (_, heartbeat, outs) := Heartbeat.received n.statics.heartbeat senderId sequence now
    outs.foldl (callback time) { n with statics := { n.statics with heartbeat := heartbeat } }
  | .discovery senderId position =>
    let n := onDiscovery n senderId position time
    { n with
      statics :=
        { n.statics with heartbeat := (Heartbeat.addNeighbor n.statics.heartbeat senderId).2 } }
  | .proposal proposerId ballotId type data threshold =>
    { n with
      consensus :=
        onProposal n.consensus proposerId ballotId type data threshold.toInt time }
  | .vote voterId ballotId vote =>
    { n with consensus := onVote n.consensus voterId ballotId vote time }
  | .other => n

def step (now : TimeUs) (p : Node × Buffer) (f : Frame) : Node × Buffer :=
  let buffer := fill p.2 f.data
  (handle now p.1 (read f.msgType buffer) f.time, buffer)

/-- `process_rx_messages`; `buffer` is what is on the stack -/
def processRxMessages (now : TimeUs) (n : Node) (buffer : Buffer) (frames : List Frame) : Node :=
  ((frames.take maxMessages).foldl (step now) (n, buffer)).1

/-! ## the messages of `receive` -/

/-- the values of `ekk_vote_value_t` -/
def voteByte : VoteValue → UInt8
  | .abstain => 0
  | .yes => 1
  | .no => 2
  | .inhibit => 3

/-- the values of `ekk_proposal_type_t` -/
def typeByte : Consensus.ProposalType → UInt8
  | .modeChange => 0
  | .powerLimit => 1
  | .shutdown => 2
  | .reformation => 3
  | .quarantine => 4
  | .custom0 => 16
  | .custom1 => 17
  | .custom2 => 18
  | .custom3 => 19

def encodeBallot (b : Consensus.Ballot) : Ballot where
  id := b.id
  type := typeByte b.type
  proposer := b.proposer
  proposalData := b.proposalData
  threshold := b.threshold
  deadline := b.deadline
  votes := fun i => voteByte (b.votes i)
  voteCount := b.voteCount
  yesCount := b.yesCount
  noCount := b.noCount
  result := b.result
  completed := b.completed

def encodeConsensus (cons : EkKor.Consensus) : Consensus where
  myId := cons.myId
  ballots := cons.ballots.map encodeBallot
  inhibited := cons.inhibited
  nextBallotId := cons.nextBallotId
  config := cons.config

def encode (s : Statics × Module) : Node where
  statics := s.1
  topology := s.2.topology
  consensus := encodeConsensus s.2.consensus

variable {s : Statics × Module} {cons : EkKor.Consensus}

theorem voteByte_inj {v w : VoteValue} : voteByte v = voteByte w ↔ v = w := by
  cases v <;> cases w <;> decide

variable (b : Consensus.Ballot)

theorem settle_encode (result : Option VoteResult) :
    settle (encodeBallot b) result = encodeBallot (Consensus.settle b result) := by
  cases result <;> rfl

theorem findBallot_encode (id : BallotId) : findBallot (encodeConsensus cons) id =
    (Consensus.findBallot cons id).map fun found => (found.1, encodeBallot found.2) := by
  unfold findBallot Consensus.findBallot Consensus.findBallotIndex encodeConsensus
  rw [List.findIdx?_map]
  show Option.bind (cons.ballots.findIdx? fun b => b.id == id) _ = _
  cases cons.ballots.findIdx? fun b => b.id == id with
  | none => rfl
  | some idx =>
    show (((cons.ballots.map encodeBallot)[idx]?).map fun b => (idx, b)) =
      (((cons.ballots[idx]?).map fun b => (idx, b)).map fun found => (found.1, encodeBallot found.2))
    rw [List.getElem?_map, Option.map_map, Option.map_map]
    rfl

theorem set_encode (idx : Nat) :
    (cons.ballots.map encodeBallot).set idx (encodeBallot b) =
      (cons.ballots.set idx b).map encodeBallot := List.map_set.symm

theorem recordVote_encode (voterId : ModuleId) (vote : VoteValue) :
    recordVote (encodeBallot b) voterId (voteByte vote) =
      encodeBallot (Consensus.recordVote b voterId vote) := by
  have hvotes : update (fun i => voteByte (b.votes i)) (Consensus.voterSlot voterId)
      (voteByte vote) = fun i => voteByte (update b.votes (Consensus.voterSlot voterId)
        vote i) := by
    funext i
    by_cases hi : i = Consensus.voterSlot voterId
    · rw [hi, update_self, update_self]
    · rw [update_of_ne hi, update_of_ne hi]
  have hyes : voteByte vote = 1 ↔ vote = .yes := voteByte_inj (w := .yes)
  have hno : voteByte vote = 2 ↔ vote = .no := voteByte_inj (w := .no)
  unfold recordVote Consensus.recordVote encodeBallot
  rw [hvotes]
  simp only [hyes, hno]

theorem early_encode : Consensus.early (encodeBallot b).tally = Consensus.early b := rfl

theorem cancel_encode (ballotId : BallotId) : cancel (encodeConsensus cons) ballotId =
    encodeConsensus (match Consensus.findBallot cons ballotId with
      | none => cons
      | some (idx, ballot) =>
        if ballot.completed then cons
        else { cons with
          ballots := cons.ballots.set idx (Consensus.settle ballot (some .cancelled)) }) := by
  unfold cancel
  rw [findBallot_encode]
  cases Consensus.findBallot cons ballotId with
  | none => rfl
  | some found =>
    obtain ⟨idx, ballot⟩ := found
    show (if ballot.completed = true then _ else _) = encodeConsensus (if _ then _ else _)
    split_ifs
    · rfl
    · rw [settle_encode]
      exact congrArg (fun bs => { encodeConsensus cons with ballots := bs }) (set_encode _ idx)

/-- **A vote.** -/
theorem onVote_encode (voterId : ModuleId) (ballotId : BallotId) (vote : VoteValue)
    (now : TimeUs) : onVote (encodeConsensus cons) voterId ballotId (voteByte vote) now =
      encodeConsensus (Consensus.onVote cons voterId ballotId vote now).2.1 := by
  have hinhibit : voteByte vote = 3 ↔ vote = .inhibit := voteByte_inj (w := .inhibit)
  have habstain (v : VoteValue) : voteByte v = 0 ↔ v = .abstain := voteByte_inj (w := .abstain)
  unfold onVote Consensus.onVote
  by_cases hinvalid : voterId = invalidModuleId ∨ ballotId = invalidBallotId
  · rw [if_pos hinvalid, if_pos hinvalid]
  rw [if_neg hinvalid, if_neg hinvalid]
  by_cases hvote : vote = .inhibit
  · rw [if_pos (hinhibit.mpr hvote), if_pos hvote]
    let inhibiting := { cons with inhibited := Consensus.addInhibition cons ballotId now }
    have hcancel := @cancel_encode inhibiting ballotId
    refine hcancel.trans ?_
    dsimp only
    cases Consensus.findBallot inhibiting ballotId with
    | none => rfl
    | some found =>
      dsimp only
      split_ifs <;> rfl
  · rw [if_neg (mt hinhibit.mp hvote), if_neg hvote, findBallot_encode]
    cases Consensus.findBallot cons ballotId with
    | none => rfl
    | some found =>
      obtain ⟨idx, ballot⟩ := found
      show (if ballot.proposer ≠ cons.myId then _ else if ballot.completed = true then _ else
        if voteByte (ballot.votes (Consensus.voterSlot voterId)) ≠ 0 then _ else _) = _
      dsimp only
      by_cases hproposer : ballot.proposer ≠ cons.myId
      · rw [if_pos hproposer, if_pos hproposer]
      rw [if_neg hproposer, if_neg hproposer]
      by_cases hcompleted : ballot.completed = true
      · rw [if_pos hcompleted, if_pos hcompleted]
      rw [if_neg hcompleted, if_neg hcompleted]
      by_cases hslot : ballot.votes (Consensus.voterSlot voterId) ≠ .abstain
      · rw [if_pos hslot, if_pos (mt (habstain _).mp hslot)]
      · rw [if_neg hslot, if_neg (fun h => h ((habstain _).mpr (not_not.mp hslot))),
          recordVote_encode, early_encode, settle_encode]
        exact congrArg (fun bs => { encodeConsensus cons with ballots := bs }) (set_encode _ idx)

/-- **A proposal.** -/
theorem onProposal_encode (decision : Option (EkKor.Consensus → Consensus.Ballot → VoteValue))
    (proposerId : ModuleId) (ballotId : BallotId) (type : Consensus.ProposalType) (data : UInt32)
    (threshold : Fixed) (now : TimeUs) :
    onProposal (encodeConsensus cons) proposerId ballotId (typeByte type) data threshold now =
      encodeConsensus
        (Consensus.onProposal cons decision proposerId ballotId type data threshold now).2.1 := by
  unfold onProposal Consensus.onProposal
  by_cases hinvalid : proposerId = invalidModuleId ∨ ballotId = invalidBallotId
  · rw [if_pos hinvalid, if_pos hinvalid]
  rw [if_neg hinvalid, if_neg hinvalid]
  by_cases hself : proposerId = cons.myId
  · rw [if_pos hself, if_pos (show proposerId = (encodeConsensus cons).myId from hself)]
  rw [if_neg hself, if_neg (show ¬proposerId = (encodeConsensus cons).myId from hself)]
  have hany : ((encodeConsensus cons).inhibited.any fun e =>
      e.ballotId == ballotId && decide (e.inhibitUntil > now)) =
        Consensus.isInhibited cons ballotId now := rfl
  rw [hany]
  by_cases hinhibited : Consensus.isInhibited cons ballotId now = true
  · rw [if_pos hinhibited, if_pos hinhibited]
  rw [if_neg hinhibited, if_neg hinhibited, findBallot_encode]
  cases Consensus.findBallot cons ballotId with
  | some found => rfl
  | none =>
    unfold Consensus.allocateBallotSlot
    have hlength : (encodeConsensus cons).ballots.length = cons.ballots.length := List.length_map _
    rw [hlength]
    split_ifs
    · rfl
    · have hballots : (cons.ballots ++
          [Consensus.newBallot cons ballotId type proposerId data threshold now]).map encodeBallot =
            cons.ballots.map encodeBallot ++
              [encodeBallot (Consensus.newBallot cons ballotId type proposerId data threshold now)] :=
        List.map_append
      exact congrArg (fun bs => { encodeConsensus cons with ballots := bs }) hballots.symm

/-! ### the switch -/

/-- the fields of a message of `receive`; it has a threshold of 32 bits -/
inductive Encodes : Message → Fields → Prop
  | heartbeat (senderId : ModuleId) (sequence : UInt8) :
      Encodes (.heartbeat senderId sequence) (.heartbeat senderId sequence)
  | discovery (senderId : ModuleId) (position : Topology.Position) :
      Encodes (.discovery senderId position) (.discovery senderId position)
  | proposal (proposerId : ModuleId) (ballotId : BallotId) (type : Consensus.ProposalType)
      (data : UInt32) (threshold : Int32) :
      Encodes (.proposal proposerId ballotId type data threshold.toInt)
        (.proposal proposerId ballotId (typeByte type) data threshold)
  | vote (voterId : ModuleId) (ballotId : BallotId) (vote : VoteValue) :
      Encodes (.vote voterId ballotId vote) (.vote voterId ballotId (voteByte vote))
  | field : Encodes .field .other
  | other : Encodes .other .other

theorem callback_encode (time : TimeUs) (out : Heartbeat.Out) :
    callback time (encode s) out = encode (Module.callback (fun _ => time) s out).1 := by
  cases out <;> rfl

theorem callbacks_encode (time : TimeUs) (outs : List Heartbeat.Out) :
    outs.foldl (callback time) (encode s) =
      encode ((Module.callbacks (fun _ => time) s).run outs) := by
  induction outs using List.reverseRecOn with
  | nil => rfl
  | append_singleton outs out ih =>
    rw [List.foldl_concat, ih, Runs.Machine.run_concat]
    exact callback_encode time out

/-- **A message.**  For the fields of a message this is what `receive` does -/
theorem handle_encode (now : TimeUs) {message : Message} {fields : Fields}
    (h : Encodes message fields) (time : TimeUs) :
    handle now (encode s) fields time = encode (Module.receive now s ⟨message, time⟩).1 := by
  cases h with
  | heartbeat senderId sequence =>
    exact callbacks_encode (s := ({ s.1 with
      heartbeat := (Heartbeat.received s.1.heartbeat senderId sequence now).2.1 }, s.2)) time
      (Heartbeat.received s.1.heartbeat senderId sequence now).2.2
  | discovery senderId position => rfl
  | proposal proposerId ballotId type data threshold =>
    exact congrArg (fun cons => { encode s with consensus := cons })
      (onProposal_encode (some Module.onConsensusDecide) proposerId ballotId type data
        threshold.toInt time)
  | vote voterId ballotId vote =>
    exact congrArg (fun cons => { encode s with consensus := cons })
      (onVote_encode voterId ballotId vote time)
  | field => rfl
  | other => rfl

end Frames
end EkKor
