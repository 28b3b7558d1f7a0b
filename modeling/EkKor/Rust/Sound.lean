import EkKor.Rust.Model
import EkKor.Lib.Positions

/-!
# What holds of the Rust engine

* `Ballot.recorded`   the ballot after a vote that `record_vote_from` records;
* `Ballot.Sound`      an id that is not 0, fewer than `K` votes while it is open, and counters that
                      cannot overflow before `vote_count` does;
* `Consensus.Sound`   the same for all ballots, and the next id is not 0; every call keeps it;
* `propose_refused_iff`   when a proposal after a tick is refused.
-/

namespace EkKor
namespace Rust
open Pruning Positions

/-! ## arithmetic -/

/-- `now + duration` does not panic -/
def Fits (checks : Bool) (now duration : TimeUs) : Prop :=
  checks = true → now.toNat + duration.toNat < 2 ^ 64

instance (checks : Bool) (now duration : TimeUs) : Decidable (Fits checks now duration) :=
  inferInstanceAs (Decidable (_ → _))

theorem addTime_eq {checks : Bool} {now duration : TimeUs} (h : Fits checks now duration) :
    addTime checks now duration = some (now + duration) := by
  unfold addTime
  rw [if_neg]
  intro hc
  rw [Bool.and_eq_true, decide_eq_true_eq] at hc
  exact absurd (h hc.1) (Nat.not_lt.mpr hc.2)

theorem bump_eq {checks : Bool} {count : UInt8} (h : checks = true → count ≠ 255) :
    bump checks count = some (count + 1) := by
  unfold bump
  rw [if_neg]
  intro hc
  rw [Bool.and_eq_true, decide_eq_true_eq] at hc
  exact h hc.1 hc.2

theorem bump_inv {checks : Bool} {count n : UInt8} (h : bump checks count = some n) :
    n = count + 1 ∧ (checks = true → count ≠ 255) := by
  unfold bump at h
  split at h
  next => cases h
  next hc =>
    refine ⟨(Option.some.inj h).symm, fun h1 h2 => hc ?_⟩
    rw [h1, h2]
    rfl

/-! ## a vote -/

namespace Ballot

/-- the ballot after a vote that `record_vote_from` records -/
def recorded (b : Ballot) (voterId : ModuleId) (vote : VoteValue) : Ballot :=
  { b with
    votes := Function.update b.votes (slot voterId) vote
    voteCount := b.voteCount + 1
    yesCount := if vote = .yes then b.yesCount + 1 else b.yesCount
    noCount := if vote = .no then b.noCount + 1 else b.noCount
    result := if vote = .inhibit then .cancelled else b.result
    completed := if vote = .inhibit then true else b.completed }

/-- an id, fewer than `K` votes while the ballot is open, counters below `vote_count` -/
structure Sound (checks : Bool) (b : Ballot) : Prop where
  id : b.id ≠ invalidBallotId
  few : b.completed = false → b.voteCount < 7
  counted : checks = true → b.yesCount ≤ b.voteCount ∧ b.noCount ≤ b.voteCount

variable {checks : Bool} {b : Ballot}

theorem recordVoteFrom_duplicate {voterId : ModuleId} (h : b.votes (slot voterId) ≠ .abstain)
    (vote : VoteValue) : b.recordVoteFrom checks voterId vote = some (false, b) := by
  unfold recordVoteFrom
  rw [if_pos h]

theorem recordVoteFrom_new {voterId : ModuleId} (h : b.votes (slot voterId) = .abstain)
    (hb : b.Sound checks) (hc : checks = true → b.voteCount ≠ 255) (vote : VoteValue) :
    b.recordVoteFrom checks voterId vote = some (true, b.recorded voterId vote) := by
  -- a counter at its limit would have `vote_count` at the limit too
  have hlim : ∀ n : UInt8, n ≤ b.voteCount → b.voteCount ≠ 255 → n ≠ 255 := by grind
  unfold recordVoteFrom
  rw [if_neg (not_not_intro h), bump_eq hc, Option.bind_some]
  cases vote with
  | abstain => rfl
  | inhibit => rfl
  | yes =>
    show (bump checks b.yesCount).map _ = _
    rw [bump_eq fun h1 => hlim _ (hb.counted h1).1 (hc h1)]
    rfl
  | no =>
    show (bump checks b.noCount).map _ = _
    rw [bump_eq fun h1 => hlim _ (hb.counted h1).2 (hc h1)]
    rfl

theorem recordVoteFrom_inv {voterId : ModuleId} {vote : VoteValue} {b' : Ballot} {x : Bool}
    (h : b.recordVoteFrom checks voterId vote = some (x, b')) :
    (b.votes (slot voterId) ≠ .abstain ∧ x = false) ∨
      (b.votes (slot voterId) = .abstain ∧ x = true ∧ b' = b.recorded voterId vote ∧
        (checks = true → b.voteCount ≠ 255)) := by
  by_cases hslot : b.votes (slot voterId) = .abstain
  · unfold recordVoteFrom at h
    rw [if_neg (not_not_intro hslot)] at h
    obtain ⟨n, hn, h⟩ := Option.bind_eq_some_iff.mp h
    obtain ⟨rfl, hc⟩ := bump_inv hn
    have hstored : x = true ∧ b' = b.recorded voterId vote := by
      cases vote with
      | abstain => exact (Prod.mk.inj (Option.some.inj h)).imp Eq.symm Eq.symm
      | inhibit => exact (Prod.mk.inj (Option.some.inj h)).imp Eq.symm Eq.symm
      | yes =>
        obtain ⟨m, hm, h⟩ := Option.map_eq_some_iff.mp h
        obtain ⟨rfl, -⟩ := bump_inv hm
        exact (Prod.mk.inj h).imp Eq.symm Eq.symm
      | no =>
        obtain ⟨m, hm, h⟩ := Option.map_eq_some_iff.mp h
        obtain ⟨rfl, -⟩ := bump_inv hm
        exact (Prod.mk.inj h).imp Eq.symm Eq.symm
    exact Or.inr ⟨hslot, hstored.1, hstored.2, hc⟩
  · rw [recordVoteFrom_duplicate hslot] at h
    exact Or.inl ⟨hslot, (Prod.mk.inj (Option.some.inj h)).1.symm⟩

/-! ## sound ballots -/

theorem new_sound {id : BallotId} (h : id ≠ invalidBallotId) (proposalType : ProposalType)
    (proposer : ModuleId) (data : UInt32) (threshold : Fixed) (deadline : TimeUs) :
    (new id proposalType proposer data threshold deadline).Sound checks :=
  ⟨h, fun _ => show (0 : UInt8) < 7 by decide,
    fun _ => show (0 : UInt8) ≤ 0 ∧ (0 : UInt8) ≤ 0 by decide⟩

theorem Sound.cancel (h : b.Sound checks) : b.cancel.Sound checks :=
  ⟨h.id, fun hc => Bool.noConfusion hc, h.counted⟩

theorem Sound.expire (h : b.Sound checks) (now : TimeUs) : (b.expire now).Sound checks := by
  unfold Ballot.expire
  split
  · exact ⟨h.id, fun hc => Bool.noConfusion hc, h.counted⟩
  · exact h

/-- a recorded vote, checked against the threshold with `K` voters -/
theorem Sound.vote (h : b.Sound checks) {voterId : ModuleId} (vote : VoteValue)
    (hc : checks = true → b.voteCount ≠ 255) :
    ((b.recorded voterId vote).checkThreshold 7).Sound checks := by
  have hcount : checks = true → (b.recorded voterId vote).yesCount ≤
      (b.recorded voterId vote).voteCount ∧ (b.recorded voterId vote).noCount ≤
      (b.recorded voterId vote).voteCount := by
    intro h1
    have h2 := h.counted h1
    show (if vote = .yes then b.yesCount + 1 else b.yesCount) ≤ b.voteCount + 1 ∧
      (if vote = .no then b.noCount + 1 else b.noCount) ≤ b.voteCount + 1
    grind
  unfold checkThreshold
  split
  next hd => exact ⟨h.id, fun hf => Bool.noConfusion (hd.symm.trans hf), hcount⟩
  next =>
    split
    next => exact ⟨h.id, fun hf => Bool.noConfusion hf, hcount⟩
    next =>
      split
      next => exact ⟨h.id, fun hf => Bool.noConfusion hf, hcount⟩
      next hlt => exact ⟨h.id, fun _ => UInt8.not_le.mp hlt, hcount⟩

theorem expire_open (b : Ballot) (now : TimeUs) :
    (!(b.expire now).completed) = (!b.completed && decide (now < b.deadline)) := by
  unfold expire due
  by_cases h : now < b.deadline
  · rw [decide_eq_false (UInt64.not_le.mpr h), Bool.and_false, if_neg Bool.false_ne_true,
      decide_eq_true h, Bool.and_true]
  · rw [decide_eq_true (UInt64.not_lt.mp h), decide_eq_false h, Bool.and_true, Bool.and_false]
    cases hc : b.completed
    · rfl
    · rw [if_neg (by decide), hc]; rfl

end Ballot

/-! ## sound engines -/

namespace Consensus

structure Sound (checks : Bool) (cons : Consensus) : Prop where
  next : cons.nextBallotId ≠ invalidBallotId
  ballots : ∀ b ∈ cons.ballots, b.Sound checks

theorem succId_ne (id : BallotId) : succId id ≠ invalidBallotId := by
  unfold succId
  split
  next => decide
  next h => exact h

theorem findBallot_eq_some {cons : Consensus} {id : BallotId} {k : Nat} {b : Ballot} :
    findBallot cons id = some (k, b) ↔
      (cons.ballots.findIdx? fun b => b.id == id) = some k ∧ cons.ballots[k]? = some b :=
  findIdx?_entry

theorem findBallot_mem {cons : Consensus} {id : BallotId} {k : Nat} {b : Ballot}
    (h : findBallot cons id = some (k, b)) : b ∈ cons.ballots :=
  List.mem_of_getElem? (findBallot_eq_some.mp h).2

theorem push_eq {α : Type} {l : List α} (h : l.length < maxBallots) (a : α) :
    push l a = some (l ++ [a]) := by
  unfold push
  rw [if_pos h]

theorem push_full {α : Type} {l : List α} (h : ¬ l.length < maxBallots) (a : α) :
    push l a = none := by
  unfold push
  rw [if_neg h]

theorem mem_push {α : Type} {l : List α} {a b : α} (h : b ∈ (push l a).getD l) : b ∈ l ∨ b = a := by
  by_cases hl : l.length < maxBallots
  · rw [push_eq hl] at h
    exact (List.mem_append.mp h).imp_right List.mem_singleton.mp
  · rw [push_full hl] at h
    exact Or.inl h

variable {checks : Bool} {cons cons' : Consensus}

/-! ## calls that do not fail -/

theorem propose_ok {now : TimeUs} (hl : cons.ballots.length < maxBallots)
    (hfit : Fits checks now cons.config.voteTimeout) (proposalType : ProposalType) (data : UInt32)
    (threshold : Fixed) :
    propose checks cons proposalType data threshold now
      = some (.ok cons.nextBallotId,
          { cons with
            ballots := cons.ballots ++ [Ballot.new cons.nextBallotId proposalType cons.myId data
              threshold (now + cons.config.voteTimeout)]
            nextBallotId := succId cons.nextBallotId }) := by
  unfold propose
  rw [if_neg (Nat.not_le.mpr hl)]
  dsimp only
  rw [addTime_eq hfit, Option.map_some, push_eq hl]

theorem onProposal_ok {ballotId : BallotId} {now : TimeUs} (hi : isInhibited cons ballotId = false)
    (hfit : Fits checks now cons.config.voteTimeout) (onDecide : Option (Ballot → VoteValue))
    (proposerId : ModuleId) (proposalType : ProposalType) (data : UInt32) (threshold : Fixed) :
    ∃ x, onProposal checks cons onDecide proposerId ballotId proposalType data threshold now
      = some (.ok x,
          { cons with
            ballots := (push cons.ballots (Ballot.new ballotId proposalType proposerId data
              threshold (now + cons.config.voteTimeout))).getD cons.ballots }) := by
  unfold onProposal
  rw [hi, if_neg Bool.false_ne_true, addTime_eq hfit, Option.map_some]
  cases onDecide with
  | none => exact ⟨.yes, rfl⟩
  | some decide => exact ⟨_, rfl⟩

def inhibitedWith (cons : Consensus) (ballotId : BallotId) (untilUs : TimeUs) : Consensus :=
  { cons with
    inhibited := cons.inhibited ++ [⟨ballotId, untilUs⟩]
    ballots := (findBallot cons ballotId).elim cons.ballots fun (pos, ballot) =>
      cons.ballots.set pos ballot.cancel }

theorem inhibit_ok {ballotId : BallotId} {now : TimeUs} (hl : cons.inhibited.length < maxBallots)
    (hfit : Fits checks now cons.config.inhibitDuration) :
    inhibit checks cons ballotId now
      = some (.ok (), cons.inhibitedWith ballotId (now + cons.config.inhibitDuration)) := by
  have hsame : findBallot { cons with inhibited := cons.inhibited ++
      [⟨ballotId, now + cons.config.inhibitDuration⟩] } ballotId = findBallot cons ballotId := rfl
  unfold inhibit inhibitedWith
  rw [addTime_eq hfit, Option.map_some, push_eq hl]
  dsimp only
  rw [hsame]
  cases findBallot cons ballotId with
  | none => rfl
  | some x => rfl

/-! ## every call keeps it -/

theorem Sound.set (h : cons.Sound checks) {b : Ballot} (hb : b.Sound checks) (k : Nat) :
    ∀ a ∈ cons.ballots.set k b, a.Sound checks := fun a ha => by
  rcases List.mem_or_eq_of_mem_set ha with ha | rfl
  · exact h.ballots a ha
  · exact hb

theorem propose_sound (h : cons.Sound checks) {proposalType : ProposalType} {data : UInt32}
    {threshold : Fixed} {now : TimeUs} {reply : Except Err BallotId}
    (hs : propose checks cons proposalType data threshold now = some (reply, cons')) :
    cons'.Sound checks := by
  unfold propose at hs
  split at hs
  next =>
    obtain ⟨-, rfl⟩ := Prod.mk.inj (Option.some.inj hs)
    exact h
  next hl =>
    obtain ⟨deadline, -, hs⟩ := Option.map_eq_some_iff.mp hs
    rw [push_eq (Nat.lt_of_not_le hl)] at hs
    obtain ⟨-, rfl⟩ := Prod.mk.inj hs
    refine ⟨succId_ne _, fun b hb => ?_⟩
    rcases List.mem_append.mp hb with hb | hb
    · exact h.ballots b hb
    · rw [List.mem_singleton.mp hb]
      exact Ballot.new_sound h.next proposalType _ data threshold deadline

theorem inhibit_sound (h : cons.Sound checks) {ballotId : BallotId} {now : TimeUs}
    {reply : Except Err Unit} (hs : inhibit checks cons ballotId now = some (reply, cons')) :
    cons'.Sound checks := by
  obtain ⟨untilUs, -, hs⟩ := Option.map_eq_some_iff.mp hs
  split at hs
  next =>
    obtain ⟨-, rfl⟩ := Prod.mk.inj hs
    exact h
  next inhibited _ =>
    dsimp only at hs
    split at hs
    next =>
      obtain ⟨-, rfl⟩ := Prod.mk.inj hs
      exact ⟨h.next, h.ballots⟩
    next pos ballot hf =>
      obtain ⟨-, rfl⟩ := Prod.mk.inj hs
      have hb : ballot ∈ cons.ballots := findBallot_mem hf
      exact ⟨h.next, h.set (h.ballots ballot hb).cancel pos⟩

theorem onVote_inv {voterId : ModuleId} {ballotId : BallotId} {vote : VoteValue} {pos : Nat}
    {b : Ballot} (hf : findBallot cons ballotId = some (pos, b)) {totalVoters : UInt8}
    {reply : Except Err Unit} {outs : List Out}
    (hs : onVote checks cons voterId ballotId vote totalVoters = some (reply, cons', outs)) :
    reply = .ok () ∧ ((b.votes (Ballot.slot voterId) ≠ .abstain ∧ cons' = cons) ∨
      (b.votes (Ballot.slot voterId) = .abstain ∧ (checks = true → b.voteCount ≠ 255) ∧
        cons' = { cons with
          ballots := cons.ballots.set pos
            ((b.recorded voterId vote).checkThreshold totalVoters) })) := by
  unfold onVote at hs
  rw [hf] at hs
  obtain ⟨⟨recorded, b'⟩, hr, hs⟩ := Option.map_eq_some_iff.mp hs
  rcases Ballot.recordVoteFrom_inv hr with ⟨hslot, rfl⟩ | ⟨hslot, rfl, rfl, hc⟩
  · obtain ⟨h1, h2⟩ := Prod.mk.inj hs
    exact ⟨h1.symm, Or.inl ⟨hslot, (Prod.mk.inj h2).1.symm⟩⟩
  · obtain ⟨h1, h2⟩ := Prod.mk.inj hs
    exact ⟨h1.symm, Or.inr ⟨hslot, hc, (Prod.mk.inj h2).1.symm⟩⟩

theorem onVote_sound (h : cons.Sound checks) {voterId : ModuleId} {ballotId : BallotId}
    {vote : VoteValue} {reply : Except Err Unit} {outs : List Out}
    (hs : onVote checks cons voterId ballotId vote 7 = some (reply, cons', outs)) :
    cons'.Sound checks := by
  cases hf : findBallot cons ballotId with
  | none =>
    unfold onVote at hs
    rw [hf] at hs
    obtain ⟨-, hs⟩ := Prod.mk.inj (Option.some.inj hs)
    rw [← (Prod.mk.inj hs).1]
    exact h
  | some x =>
    obtain ⟨-, ⟨-, rfl⟩ | ⟨-, hc, rfl⟩⟩ := onVote_inv (b := x.2) hf hs
    · exact h
    · exact ⟨h.next, h.set ((h.ballots x.2 (findBallot_mem hf)).vote vote hc) x.1⟩

theorem onProposal_sound (h : cons.Sound checks) {onDecide : Option (Ballot → VoteValue)}
    {proposerId : ModuleId} {ballotId : BallotId} (hid : ballotId ≠ invalidBallotId)
    {proposalType : ProposalType} {data : UInt32} {threshold : Fixed} {now : TimeUs}
    {reply : Except Err VoteValue}
    (hs : onProposal checks cons onDecide proposerId ballotId proposalType data threshold now
      = some (reply, cons')) : cons'.Sound checks := by
  unfold onProposal at hs
  split at hs
  next =>
    obtain ⟨-, rfl⟩ := Prod.mk.inj (Option.some.inj hs)
    exact h
  next =>
    obtain ⟨deadline, -, hs⟩ := Option.map_eq_some_iff.mp hs
    have hall : ∀ b ∈ (push cons.ballots (Ballot.new ballotId proposalType proposerId data
        threshold deadline)).getD cons.ballots, b.Sound checks := fun b hb => by
      rcases mem_push hb with hb | rfl
      · exact h.ballots b hb
      · exact Ballot.new_sound hid proposalType proposerId data threshold deadline
    cases onDecide with
    | some decide =>
      rw [← (Prod.mk.inj hs).2]
      exact ⟨h.next, hall⟩
    | none =>
      rw [← (Prod.mk.inj hs).2]
      exact ⟨h.next, hall⟩

theorem tick_sound (h : cons.Sound checks) (now : TimeUs) : (tick cons now).2.1.Sound checks := by
  refine ⟨h.next, fun b hb => ?_⟩
  have hmem : b ∈ cons.ballots.map fun b => b.expire now := (prune_sublist _ _ _ _).subset hb
  obtain ⟨a, ha, rfl⟩ := List.mem_map.mp hmem
  exact (h.ballots a ha).expire now

theorem retire_full (ballots : List Ballot) : maxBallots ≤ (retire ballots).length ↔
    maxBallots ≤ (ballots.filter fun b => !b.completed).length := by
  have hdone : (retire ballots).length ≤ maxBallots / 2 ∨
      (retire ballots).any Ballot.completed = false := prune_done (Nat.le_refl _)
  have hsub : (retire ballots).Sublist ballots := prune_sublist _ _ _ _
  by_cases h : maxBallots / 2 ≤ (ballots.filter fun b => !b.completed).length
  · rw [retire, prune_eq_filter (Nat.le_refl _) h]
  · refine iff_of_false (fun hfull => ?_) (by omega)
    rcases hdone with hroom | hopen
    · omega
    · -- only open ballots are left, and they were in the table before
      have hle := (hsub.filter fun b => !b.completed).length_le
      rw [filter_eq_self_of_any hopen] at hle
      omega

/-- **Room after a tick**: a proposal is refused exactly when the table held four undecided ballots
before the tick whose deadlines were still to come. -/
theorem propose_refused_iff (checks : Bool) (cons : Consensus) (now : TimeUs)
    (proposalType : ProposalType) (data : UInt32) (threshold : Fixed) (later : TimeUs) :
    (∃ e cons', propose checks (tick cons now).2.1 proposalType data threshold later =
        some (.error e, cons')) ↔
      maxBallots ≤ cons.ballots.countP fun b => !b.completed && decide (now < b.deadline) := by
  have hopen : (fun b : Ballot => !b.completed && decide (now < b.deadline)) =
      (fun b : Ballot => !b.completed) ∘ fun b => b.expire now :=
    funext fun b => (b.expire_open now).symm
  rw [hopen, ← List.countP_map, List.countP_eq_length_filter, ← retire_full]
  show _ ↔ maxBallots ≤ (tick cons now).2.1.ballots.length
  unfold propose
  split
  next h => exact iff_of_true ⟨.busy, _, rfl⟩ h
  next h =>
    refine iff_of_false (fun ⟨e, cons', hs⟩ => ?_) h
    obtain ⟨deadline, -, hs⟩ := Option.map_eq_some_iff.mp hs
    rw [push_eq (Nat.lt_of_not_le h)] at hs
    cases hs

end Consensus
end Rust
end EkKor
