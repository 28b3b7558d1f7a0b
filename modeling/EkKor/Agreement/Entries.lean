import EkKor.Consensus.History
import EkKor.Rust.Sound

/-!
# One table, two engines

* `Entry`     a ballot as both engines see it: the votes count only while it is open;
* `entry`, `rustEntry`   the ballots of the C and of the Rust engine as entries;
* `Same`      the two engines have the same table, the same counter and the same settings;
* `Same.found`, `Same.missed`   they find the same ballot for an id, or both find none;
* `Same.getResult`   they give the same result for every id.

The inhibition lists are not part of it: the engines fill them in different ways.
-/

namespace EkKor
open List

def Rust.ProposalType.c : Rust.ProposalType → Consensus.ProposalType
  | .modeChange => .modeChange
  | .powerLimit => .powerLimit
  | .shutdown => .shutdown
  | .reformation => .reformation
  | .custom0 => .custom0
  | .custom1 => .custom1
  | .custom2 => .custom2
  | .custom3 => .custom3

namespace Agreement

/-! ## entries -/

/-- the votes of an open ballot -/
structure Poll where
  votes : Fin kNeighbors → VoteValue
  voteCount : UInt8
  yesCount : UInt8
  noCount : UInt8

/-- a ballot; a completed one has no poll -/
structure Entry where
  id : BallotId
  type : Consensus.ProposalType
  proposer : ModuleId
  data : UInt32
  threshold : Fixed
  deadline : TimeUs
  result : VoteResult
  poll : Option Poll

def Entry.due (now : TimeUs) (e : Entry) : Bool := e.poll.isSome && decide (now ≥ e.deadline)

def Entry.alive (now : TimeUs) (e : Entry) : Bool := e.poll.isSome && !e.due now

def entry (b : Consensus.Ballot) : Entry :=
  { id := b.id
    type := b.type
    proposer := b.proposer
    data := b.proposalData
    threshold := b.threshold
    deadline := b.deadline
    result := b.result
    poll := if b.completed then none else some ⟨b.votes, b.voteCount, b.yesCount, b.noCount⟩ }

def rustEntry (b : Rust.Ballot) : Entry :=
  { id := b.id
    type := b.proposalType.c
    proposer := b.proposer
    data := b.data
    threshold := b.threshold
    deadline := b.deadline
    result := b.result
    poll := if b.completed then none else some ⟨b.votes, b.voteCount, b.yesCount, b.noCount⟩ }

variable (now : TimeUs)

section
variable {b : Consensus.Ballot} {b' : Rust.Ballot}

theorem poll_isSome (b : Consensus.Ballot) : (entry b).poll.isSome = !b.completed := by
  unfold entry
  cases b.completed <;> rfl

theorem rustPoll_isSome (b : Rust.Ballot) : (rustEntry b).poll.isSome = !b.completed := by
  unfold rustEntry
  cases b.completed <;> rfl

theorem entry_due (b : Consensus.Ballot) :
    (entry b).due now = (!b.completed && decide (now ≥ b.deadline)) := by
  rw [Entry.due, poll_isSome]
  rfl

theorem entry_alive (b : Consensus.Ballot) :
    (entry b).alive now = (!b.completed && !(entry b).due now) := by
  rw [Entry.alive, poll_isSome]

theorem rustEntry_due (b : Rust.Ballot) : (rustEntry b).due now = b.due now := by
  rw [Entry.due, rustPoll_isSome]
  rfl

theorem rustEntry_alive (b : Rust.Ballot) :
    (rustEntry b).alive now = (!b.completed && !b.due now) := by
  rw [Entry.alive, rustPoll_isSome, rustEntry_due]

theorem entry_completed (h : rustEntry b' = entry b) : b'.completed = b.completed := by
  have hp : (rustEntry b').poll.isSome = (entry b).poll.isSome := by rw [h]
  rw [poll_isSome, rustPoll_isSome] at hp
  exact Bool.not_inj hp

theorem entry_poll (h : rustEntry b' = entry b) (ho : b.completed = false) :
    b'.votes = b.votes ∧ b'.voteCount = b.voteCount ∧ b'.yesCount = b.yesCount ∧
      b'.noCount = b.noCount := by
  have hp := congrArg Entry.poll h
  unfold rustEntry entry at hp
  rw [entry_completed h, ho, if_neg Bool.false_ne_true, if_neg Bool.false_ne_true] at hp
  injection Option.some.inj hp with h1 h2 h3 h4
  exact ⟨h1, h2, h3, h4⟩

end

/-! ## engines -/

/-- the two engines have the same table, the same counter and the same settings -/
structure Same (c : Consensus) (r : Rust.Consensus) : Prop where
  myId : r.myId = c.myId
  voteTimeout : r.config.voteTimeout = c.config.voteTimeout
  noSelfVote : c.config.allowSelfVote = false
  next : r.nextBallotId = c.nextBallotId
  table : r.ballots.map rustEntry = c.ballots.map entry

namespace Same

variable {c : Consensus} {r : Rust.Consensus} (h : Same c r)
include h

theorem length : r.ballots.length = c.ballots.length := by
  have hl := congrArg List.length h.table
  rw [length_map, length_map] at hl
  exact hl

theorem index (id : BallotId) : (r.ballots.findIdx? fun b => b.id == id)
    = Consensus.findBallotIndex c id := by
  have ht := congrArg (List.findIdx? fun e => e.id == id) h.table
  rw [findIdx?_map, findIdx?_map] at ht
  exact ht

theorem getElem? (k : Nat) : (r.ballots[k]?).map rustEntry = (c.ballots[k]?).map entry := by
  rw [← getElem?_map, ← getElem?_map, h.table]

variable {b : Consensus.Ballot} {b' : Rust.Ballot}

theorem mem_rust (hb' : b' ∈ r.ballots) : ∃ b ∈ c.ballots, entry b = rustEntry b' := by
  have hmem : rustEntry b' ∈ r.ballots.map rustEntry := mem_map_of_mem hb'
  rw [h.table] at hmem
  exact mem_map.mp hmem

theorem alive :
    (r.ballots.filter fun b => (rustEntry b).alive now).map rustEntry
      = (c.ballots.filter fun b => (entry b).alive now).map entry := by
  have h1 := filter_map (f := rustEntry) (p := Entry.alive now) (l := r.ballots)
  have h2 := filter_map (f := entry) (p := Entry.alive now) (l := c.ballots)
  rw [h.table] at h1
  exact h1.symm.trans h2

theorem found {id : BallotId} {k : Nat} (hf : Consensus.findBallot c id = some (k, b)) :
    ∃ b', Rust.Consensus.findBallot r id = some (k, b') ∧ rustEntry b' = entry b := by
  obtain ⟨hk, hb⟩ := Consensus.findBallot_eq_some.mp hf
  have hg := h.getElem? k
  rw [hb] at hg
  obtain ⟨b', hb', he⟩ := Option.map_eq_some_iff.mp hg
  exact ⟨b', Rust.Consensus.findBallot_eq_some.mpr ⟨(h.index id).trans hk, hb'⟩, he⟩

theorem missed {id : BallotId} (hf : Consensus.findBallot c id = none) :
    Rust.Consensus.findBallot r id = none := by
  unfold Rust.Consensus.findBallot
  rw [h.index, Consensus.findBallot_eq_none.mp hf]
  rfl

theorem table_set {k : Nat} (he : rustEntry b' = entry b) :
    (r.ballots.set k b').map rustEntry = (c.ballots.set k b).map entry := by
  rw [map_set, map_set, h.table, he]

theorem table_concat (he : rustEntry b' = entry b) :
    (r.ballots ++ [b']).map rustEntry = (c.ballots ++ [b]).map entry := by
  rw [map_append, map_append, h.table, map_singleton, map_singleton, he]

/-- **The same results**, for every id. -/
theorem getResult {checks : Bool} (hr : r.Sound checks) (id : BallotId) :
    Rust.Consensus.getResult r id = Consensus.getResult c id := by
  unfold Rust.Consensus.getResult Consensus.getResult
  cases hf : Consensus.findBallot c id with
  | none =>
    rw [h.missed hf, ite_self]
  | some x =>
    obtain ⟨b', hb', he⟩ := h.found (k := x.1) (b := x.2) hf
    have hid : id ≠ invalidBallotId := by
      obtain ⟨hk, hmem⟩ := Rust.Consensus.findBallot_eq_some.mp hb'
      obtain ⟨hlt, hp, -⟩ := findIdx?_eq_some_iff_getElem.mp hk
      rw [← beq_iff_eq.mp hp]
      exact (hr.ballots _ (getElem_mem hlt)).id
    rw [hb', if_neg hid]
    exact congrArg Entry.result he

end Same
end Agreement
end EkKor
