import EkKor.Agreement.Entries

/-!
# One call in both engines

* `Call`, `Reply`     the calls both engines have, and what they answer;
* `reply`, `rustStep`   the C engine and the Rust engine on such a call;
* `Compatible`        the condition on the two engines under which the call does not come to a
                      rule in which they differ;
* `step_agrees`       then they answer the same and have the same table afterwards.
-/

namespace EkKor
namespace Agreement
open List

/-! ## calls and answers -/

inductive Call where
  | propose (type : Rust.ProposalType) (data : UInt32) (threshold : Fixed) (now : TimeUs)
  | inhibit (ballotId : BallotId) (now : TimeUs)
  | onVote (voterId : ModuleId) (ballotId : BallotId) (value : VoteValue) (now : TimeUs)
  | onProposal (proposerId : ModuleId) (ballotId : BallotId) (type : Rust.ProposalType)
      (data : UInt32) (threshold : Fixed) (now : TimeUs)
  | tick (now : TimeUs)
  deriving DecidableEq, Repr

def Call.c : Call → Consensus.Call
  | .propose type data threshold now => .propose type.c data threshold now
  | .inhibit ballotId now => .inhibit ballotId now
  | .onVote voterId ballotId value now => .onVote voterId ballotId value now
  | .onProposal proposerId ballotId type data threshold now =>
    .onProposal proposerId ballotId type.c data threshold now
  | .tick now => .tick now

def Call.Valid (myId : ModuleId) : Call → Prop
  | .propose _ _ _ _ => True
  | .inhibit ballotId _ => ballotId ≠ invalidBallotId
  | .onVote voterId ballotId _ _ => voterId ≠ invalidModuleId ∧ ballotId ≠ invalidBallotId
  | .onProposal proposerId ballotId _ _ _ _ => proposerId ≠ myId ∧ ballotId ≠ invalidBallotId
  | .tick _ => True

instance (myId : ModuleId) (e : Call) : Decidable (e.Valid myId) :=
  match e with
  | .propose _ _ _ _ => inferInstanceAs (Decidable True)
  | .inhibit _ _ => inferInstanceAs (Decidable (_ ≠ _))
  | .onVote _ _ _ _ => inferInstanceAs (Decidable (_ ∧ _))
  | .onProposal _ _ _ _ _ _ => inferInstanceAs (Decidable (_ ∧ _))
  | .tick _ => inferInstanceAs (Decidable True)

inductive Reply where
  | done (result : Except Err Unit)
  | proposed (result : Except Err BallotId)
  | ticked (completed : Nat)
  deriving Repr

def reply (decision : Consensus.Decision) (c : Consensus) : Call → Reply
  | .propose type data threshold now => .proposed (Consensus.propose c type.c data threshold now).1
  | .inhibit ballotId now => .done (Consensus.inhibit c ballotId now).1
  | .onVote voterId ballotId value now => .done (Consensus.onVote c voterId ballotId value now).1
  | .onProposal proposerId ballotId type data threshold now =>
    .done (Consensus.onProposal c decision proposerId ballotId type.c data threshold now).1
  | .tick now => .ticked (Consensus.tick c now).1

/-- what the Rust engine answers, and the engine afterwards; `none` is a panic -/
def rustStep (checks : Bool) (onDecide : Option (Rust.Ballot → VoteValue)) (r : Rust.Consensus) :
    Call → Option (Reply × Rust.Consensus)
  | .propose type data threshold now =>
    (r.propose checks type data threshold now).map fun (x, r) => (.proposed x, r)
  | .inhibit ballotId now => (r.inhibit checks ballotId now).map fun (x, r) => (.done x, r)
  | .onVote voterId ballotId value _ =>
    (r.onVote checks voterId ballotId value 7).map fun (x, r, _) => (.done x, r)
  | .onProposal proposerId ballotId type data threshold now =>
    (r.onProposal checks onDecide proposerId ballotId type data threshold now).map fun (x, r) =>
      (.done (x.map fun _ => ()), r)
  | .tick now => some (.ticked (r.tick now).1, (r.tick now).2.1)

/-! ## the condition -/

/-- with the votes that are still out the ballot can reach its threshold, or no vote is out -/
def Hopeful (b : Consensus.Ballot) : Prop :=
  b.voteCount.toNat < kNeighbors → b.threshold ≤
    Consensus.ratio (b.yesCount.toNat + (kNeighbors - b.voteCount.toNat)) kNeighbors

def CountFits (checks : Bool) (b : Rust.Ballot) : Prop := checks = true → b.voteCount ≠ 255

instance (b : Consensus.Ballot) : Decidable (Hopeful b) := inferInstanceAs (Decidable (_ → _))
instance (checks : Bool) (b : Rust.Ballot) : Decidable (CountFits checks b) :=
  inferInstanceAs (Decidable (_ → _))

section
variable (checks : Bool) (c : Consensus) (r : Rust.Consensus)

/-- a YES, NO or ABSTAIN vote: the ballot is an own one, and the vote does not make the threshold
unreachable; a completed ballot that still records it can count it -/
def VoteAgrees (voterId : ModuleId) (ballotId : BallotId) (value : VoteValue) : Prop :=
  (∀ x ∈ Consensus.findBallot c ballotId, x.2.proposer = c.myId ∧ (x.2.completed = false →
    x.2.votes (Consensus.voterSlot voterId) = .abstain →
    Hopeful (Consensus.recordVote x.2 voterId value))) ∧
  ∀ x ∈ r.findBallot ballotId, x.2.completed = true →
    x.2.votes (Rust.Ballot.slot voterId) = .abstain → CountFits checks x.2

/-- an INHIBIT vote: the ballot is there, and it is either open or already cancelled, with the
slot of the voter empty, or completed, with the slot taken -/
def InhibitVoteAgrees (voterId : ModuleId) (ballotId : BallotId) : Prop :=
  ∃ x ∈ r.findBallot ballotId,
    if x.2.votes (Rust.Ballot.slot voterId) = .abstain then
      CountFits checks x.2 ∧ (x.2.completed = true → x.2.result = .cancelled)
    else x.2.completed = true

/-- an inhibition: the Rust list has room, and an id that the C list has already (also with an
expired entry) is not the one of a ballot that is not cancelled -/
def InhibitAgrees (ballotId : BallotId) (now : TimeUs) : Prop :=
  r.inhibited.length < maxBallots ∧ Rust.Fits checks now r.config.inhibitDuration ∧
    (Consensus.Unlisted c ballotId ∨ ∀ x ∈ Consensus.findBallot c ballotId,
      x.2.completed = true ∧ x.2.result = .cancelled)

/-- a proposal of another module: both lists inhibit it or neither does, and if not, then it is
new and there is room, or it is known and there is none -/
def ProposalAgrees (proposerId : ModuleId) (ballotId : BallotId) (now : TimeUs) : Prop :=
  proposerId ≠ invalidModuleId ∧
    Consensus.isInhibited c ballotId now = r.isInhibited ballotId ∧
    (Consensus.isInhibited c ballotId now = false →
      Rust.Fits checks now c.config.voteTimeout ∧
        (Consensus.findBallot c ballotId = none ↔ c.ballots.length < maxBallots))

/-- a tick: no open ballot is inhibited before its deadline; if one is past its deadline, then two
stay open; if none is, then the table is at most half full or all ballots are open -/
def TickAgrees (now : TimeUs) : Prop :=
  (∀ b ∈ c.ballots, b.completed = false → Consensus.isInhibited c b.id now = true →
    now ≥ b.deadline) ∧
  if ∃ b ∈ c.ballots, b.completed = false ∧ now ≥ b.deadline then
    maxBallots / 2 ≤ (c.ballots.filter fun b => (entry b).alive now).length
  else c.ballots.length ≤ maxBallots / 2 ∨ ∀ b ∈ c.ballots, b.completed = false

def Compatible : Call → Prop
  | .propose _ _ _ now => c.ballots.length < maxBallots →
      c.nextBallotId ≠ 65535 ∧ Rust.Fits checks now c.config.voteTimeout
  | .inhibit ballotId now => InhibitAgrees checks c r ballotId now
  | .onVote voterId ballotId value _ =>
    if value = .inhibit then InhibitVoteAgrees checks r voterId ballotId
    else VoteAgrees checks c r voterId ballotId value
  | .onProposal proposerId ballotId _ _ _ now => ProposalAgrees checks c r proposerId ballotId now
  | .tick now => TickAgrees c now

instance (voterId : ModuleId) (ballotId : BallotId) (value : VoteValue) :
    Decidable (VoteAgrees checks c r voterId ballotId value) := inferInstanceAs (Decidable (_ ∧ _))
instance (voterId : ModuleId) (ballotId : BallotId) :
    Decidable (InhibitVoteAgrees checks r voterId ballotId) :=
  inferInstanceAs (Decidable (∃ x ∈ r.findBallot ballotId, _))
instance (ballotId : BallotId) (now : TimeUs) : Decidable (InhibitAgrees checks c r ballotId now) :=
  inferInstanceAs (Decidable (_ ∧ _))
instance (proposerId : ModuleId) (ballotId : BallotId) (now : TimeUs) :
    Decidable (ProposalAgrees checks c r proposerId ballotId now) :=
  inferInstanceAs (Decidable (_ ∧ _))
instance (now : TimeUs) : Decidable (TickAgrees c now) := inferInstanceAs (Decidable (_ ∧ _))

instance (e : Call) : Decidable (Compatible checks c r e) :=
  match e with
  | .propose _ _ _ _ => inferInstanceAs (Decidable (_ → _))
  | .inhibit _ _ => inferInstanceAs (Decidable (InhibitAgrees _ _ _ _ _))
  | .onVote voterId ballotId value _ => inferInstanceAs (Decidable
      (if value = .inhibit then InhibitVoteAgrees checks r voterId ballotId
        else VoteAgrees checks c r voterId ballotId value))
  | .onProposal _ _ _ _ _ _ => inferInstanceAs (Decidable (ProposalAgrees _ _ _ _ _ _))
  | .tick _ => inferInstanceAs (Decidable (TickAgrees _ _))

end

/-! ## ballots -/

theorem early_hopeful {b : Consensus.Ballot} (hb : b.completed = false) (hope : Hopeful b) :
    Consensus.early b = if Consensus.ratio b.yesCount.toNat kNeighbors ≥ b.threshold then
      some .approved else if b.voteCount ≥ 7 then some .rejected else none := by
  have hlim : b.voteCount ≥ 7 ↔ ¬ b.voteCount.toNat < kNeighbors :=
    UInt8.le_iff_toNat_le.trans Nat.not_lt.symm
  unfold Consensus.early Consensus.evaluateBallot
  rw [hb, if_neg Bool.false_ne_true]
  by_cases hlt : b.voteCount.toNat < kNeighbors
  · rw [if_pos hlt, if_neg (Int.not_lt.mpr (hope hlt)), if_neg (fun h => hlim.mp h hlt)]
    by_cases hr : Consensus.ratio b.yesCount.toNat kNeighbors ≥ b.threshold
    · rw [if_pos hr, if_pos hr]
      rfl
    · rw [if_neg hr, if_neg hr]
      rfl
  · rw [if_neg hlt, if_pos (hlim.mpr hlt)]
    by_cases hr : Consensus.ratio b.yesCount.toNat kNeighbors ≥ b.threshold
    · rw [if_pos hr, if_pos hr]
      rfl
    · rw [if_neg hr, if_neg hr]
      rfl

variable {value : VoteValue}

section
variable {b : Consensus.Ballot} {b' : Rust.Ballot} (h : rustEntry b' = entry b)
include h

theorem entry_closed (result : VoteResult) :
    rustEntry { b' with result := result, completed := true }
      = entry (Consensus.finalizeBallot b result) := by
  show ({ rustEntry b' with result := result, poll := none } : Entry)
    = { entry b with result := result, poll := none }
  rw [h]

theorem entry_late (hb : b.completed = true) (voterId : ModuleId) (hv : value ≠ .inhibit) :
    rustEntry ((b'.recorded voterId value).checkThreshold 7) = entry b := by
  have hd : (b'.recorded voterId value).completed = true := by
    show (if value = .inhibit then true else b'.completed) = true
    rw [if_neg hv, entry_completed h, hb]
  unfold Rust.Ballot.checkThreshold
  rw [if_pos hd, ← h]
  unfold rustEntry
  rw [hd, entry_completed h, hb]
  show Entry.mk _ _ _ _ _ _ (if value = .inhibit then .cancelled else b'.result) _ = _
  rw [if_neg hv]
  rfl

theorem entry_recorded (hb : b.completed = false) (voterId : ModuleId) (hv : value ≠ .inhibit) :
    rustEntry (b'.recorded voterId value) = entry (Consensus.recordVote b voterId value) := by
  obtain ⟨h1, h2, h3, h4⟩ := entry_poll h hb
  have hb' := (entry_completed h).trans hb
  injection h with hid htype hproposer hdata hthreshold hdeadline hresult
  unfold rustEntry entry Rust.Ballot.recorded Consensus.recordVote
  rw [if_neg hv, if_neg hv, h1, h2, h3, h4, hb', hb, hid, htype, hproposer, hdata, hthreshold,
    hdeadline, hresult]
  rfl

theorem entry_checked (hb : b.completed = false) (hope : Hopeful b) :
    rustEntry (b'.checkThreshold 7) = entry (Consensus.settle b (Consensus.early b)) := by
  obtain ⟨-, hcount, hyes, -⟩ := entry_poll h hb
  have hthr : b'.threshold = b.threshold := congrArg Entry.threshold h
  have hratio : b'.yesRatio 7 = Consensus.ratio b.yesCount.toNat kNeighbors := by
    unfold Rust.Ballot.yesRatio Consensus.ratio
    rw [if_pos (by decide), if_pos (by decide), hyes]
    rfl
  have hb' : ¬ b'.completed = true := by
    rw [entry_completed h, hb]
    exact Bool.false_ne_true
  unfold Rust.Ballot.checkThreshold
  rw [early_hopeful hb hope, if_neg hb']
  by_cases hr : Consensus.ratio b.yesCount.toNat kNeighbors ≥ b.threshold
  · rw [if_pos (by rw [hratio, hthr]; exact hr), if_pos hr]
    exact entry_closed h .approved
  · rw [if_neg (by rw [hratio, hthr]; exact hr), if_neg hr]
    by_cases hlast : b.voteCount ≥ 7
    · rw [if_pos (by rw [hcount]; exact hlast), if_pos hlast]
      exact entry_closed h .rejected
    · rw [if_neg (by rw [hcount]; exact hlast), if_neg hlast]
      exact h

end

theorem entry_new (c : Consensus) (id : BallotId) (type : Rust.ProposalType) (proposer : ModuleId)
    (data : UInt32) (threshold : Fixed) (now : TimeUs) :
    rustEntry (Rust.Ballot.new id type proposer data threshold (now + c.config.voteTimeout))
      = entry (Consensus.newBallot c id type.c proposer data threshold now) := rfl

theorem finalizeBallot_self {b : Consensus.Ballot} (h : b.completed = true) :
    Consensus.finalizeBallot b b.result = b := by
  cases b
  cases h
  rfl

/-! ## deadlines -/

section
variable {c : Consensus} {now : TimeUs}

theorem expiry_due_iff (hinh : ∀ b ∈ c.ballots, b.completed = false →
      Consensus.isInhibited c b.id now = true → now ≥ b.deadline) :
    ∀ b ∈ c.ballots, (Consensus.expiry c now b).isSome = (entry b).due now := by
  intro b hb
  rw [entry_due]
  unfold Consensus.expiry
  by_cases hd : b.completed = true
  · rw [if_pos hd, hd]
    rfl
  · have ho : b.completed = false := Bool.not_eq_true _ ▸ hd
    rw [if_neg hd, ho, Bool.not_false, Bool.true_and]
    by_cases hi : Consensus.isInhibited c b.id now = true
    · rw [if_pos hi, decide_eq_true (hinh b hb ho hi)]
      rfl
    · rw [if_neg hi]
      by_cases ht : now ≥ b.deadline
      · rw [if_pos ht, decide_eq_true ht]
        rfl
      · rw [if_neg ht, decide_eq_false ht]
        rfl

theorem cleanup_alive (hdue : ∀ b ∈ c.ballots,
      (Consensus.expiry c now b).isSome = (entry b).due now) :
    Consensus.cleanupCompletedBallots
        (c.ballots.map fun b => Consensus.settle b (Consensus.expiry c now b))
      = c.ballots.filter fun b => (entry b).alive now := by
  refine Positions.filter_map_kept (fun b hb => ?_) fun b hb ha => ?_
  · rw [entry_alive, ← hdue b hb]
    cases Consensus.expiry c now b with
    | none => exact (Bool.and_true _).symm
    | some res => exact (Bool.and_false _).symm
  · rw [entry_alive, ← hdue b hb, Bool.and_eq_true, Bool.not_eq_true'] at ha
    have hnone : Consensus.expiry c now b = none := by
      cases he : Consensus.expiry c now b with
      | none => rfl
      | some res =>
        rw [he] at ha
        exact Bool.noConfusion ha.2
    rw [hnone]
    rfl

theorem tick_c_past (hdue : ∀ b ∈ c.ballots,
      (Consensus.expiry c now b).isSome = (entry b).due now)
    (hd : ∃ b ∈ c.ballots, b.completed = false ∧ now ≥ b.deadline) :
    (Consensus.tick c now).2.1.ballots = c.ballots.filter fun b => (entry b).alive now := by
  have hpos : Consensus.completedCount c now > 0 := by
    obtain ⟨b, hb, ho, ht⟩ := hd
    refine countP_pos_iff.mpr ⟨b, hb, ?_⟩
    rw [hdue b hb, entry_due, ho, decide_eq_true ht]
    rfl
  show (if Consensus.completedCount c now > 0 then _ else _ : List Consensus.Ballot) = _
  rw [if_pos hpos, cleanup_alive hdue]

theorem not_due (hd : ¬ ∃ b ∈ c.ballots, b.completed = false ∧ now ≥ b.deadline) :
    ∀ b ∈ c.ballots, (entry b).due now = false := fun b hb => by
  rw [entry_due, Bool.and_eq_false_iff, Bool.not_eq_false', decide_eq_false_iff_not]
  by_contra hcon
  obtain ⟨h1, h2⟩ := not_or.mp hcon
  exact hd ⟨b, hb, Bool.not_eq_true _ ▸ h1, not_not.mp h2⟩

theorem tick_c_before (hdue : ∀ b ∈ c.ballots,
      (Consensus.expiry c now b).isSome = (entry b).due now)
    (hd : ¬ ∃ b ∈ c.ballots, b.completed = false ∧ now ≥ b.deadline) :
    (Consensus.tick c now).2.1.ballots = c.ballots := by
  have hnone : ∀ b ∈ c.ballots, Consensus.expiry c now b = none := fun b hb => by
    have hs := hdue b hb
    rw [not_due hd b hb, Option.isSome_eq_false_iff, Option.isNone_iff_eq_none] at hs
    exact hs
  have hzero : ¬ Consensus.completedCount c now > 0 := by
    intro hpos
    obtain ⟨b, hb, hs⟩ := countP_pos_iff.mp hpos
    rw [hnone b hb] at hs
    cases hs
  show (if Consensus.completedCount c now > 0 then _ else _ : List Consensus.Ballot) = _
  rw [if_neg hzero]
  refine (map_congr_left fun b hb => ?_).trans (map_id _)
  rw [hnone b hb]
  rfl

theorem expire_alive (ballots : List Rust.Ballot) (now : TimeUs) :
    (ballots.map fun b => b.expire now).filter (fun b => !b.completed)
      = ballots.filter fun b => (rustEntry b).alive now := by
  refine Positions.filter_map_kept (fun b _ => ?_) fun b _ ha => ?_
  · rw [rustEntry_alive]
    unfold Rust.Ballot.expire
    split
    next hd =>
      rw [hd, Bool.not_true, Bool.and_false]
    next hd =>
      rw [Bool.not_eq_true] at hd
      rw [hd, Bool.not_false, Bool.and_true]
  · rw [rustEntry_alive, Bool.and_eq_true, Bool.not_eq_true', Bool.not_eq_true'] at ha
    unfold Rust.Ballot.expire
    rw [ha.2, if_neg Bool.false_ne_true]

end

/-! ## proposals -/

section
variable {checks : Bool} {c : Consensus} {r : Rust.Consensus} (h : Same c r)
include h

variable {now : TimeUs} {ballotId : BallotId} {voterId : ModuleId}

theorem propose_agrees (hc : c.ballots.length < maxBallots → c.nextBallotId ≠ 65535 ∧ Rust.Fits
    checks now c.config.voteTimeout) (type : Rust.ProposalType) (data : UInt32) (threshold : Fixed) :
    ∃ r', r.propose checks type data threshold now
        = some ((Consensus.propose c type.c data threshold now).1, r') ∧
      Same (Consensus.propose c type.c data threshold now).2.1 r' := by
  by_cases hl : c.ballots.length < maxBallots
  · obtain ⟨hn, hfit⟩ := hc hl
    have hsucc : Rust.Consensus.succId c.nextBallotId = c.nextBallotId + 1 := by
      unfold Rust.Consensus.succId
      rw [if_neg]
      intro h0
      exact hn (by grind)
    have hself : Consensus.selfVote c (Consensus.newBallot c c.nextBallotId type.c c.myId data
        threshold now) = Consensus.newBallot c c.nextBallotId type.c c.myId data threshold now := by
      unfold Consensus.selfVote
      rw [h.noSelfVote, if_neg Bool.false_ne_true]
    rw [Consensus.propose_ok hl, hself, Rust.Consensus.propose_ok (by rw [h.length]; exact hl)
      (by rw [h.voteTimeout]; exact hfit), h.next, h.myId, h.voteTimeout, hsucc]
    exact ⟨_, rfl, rfl, h.voteTimeout, h.noSelfVote, rfl,
      h.table_concat (entry_new c _ type _ _ _ _)⟩
  · unfold Rust.Consensus.propose
    rw [if_pos (by rw [h.length]; exact Nat.le_of_not_lt hl),
      Consensus.propose_busy (Nat.le_of_not_lt hl)]
    exact ⟨r, rfl, h⟩

theorem onProposal_agrees {proposerId : ModuleId} (hself : proposerId ≠ c.myId)
    (hid : ballotId ≠ invalidBallotId) (hc : ProposalAgrees checks c r proposerId ballotId now)
    (decision : Consensus.Decision) (onDecide : Option (Rust.Ballot → VoteValue))
    (type : Rust.ProposalType) (data : UInt32) (threshold : Fixed) :
    ∃ x r', r.onProposal checks onDecide proposerId ballotId type data threshold now
        = some (x, r') ∧ (x.map fun _ => ()) =
          (Consensus.onProposal c decision proposerId ballotId type.c data threshold now).1 ∧
      Same (Consensus.onProposal c decision proposerId ballotId type.c data threshold now).2.1
        r' := by
  obtain ⟨hp, hinh, hrest⟩ := hc
  by_cases hi : Consensus.isInhibited c ballotId now = true
  · unfold Rust.Consensus.onProposal Consensus.onProposal
    rw [if_neg (not_or.mpr ⟨hp, hid⟩), if_neg hself, ← hinh, hi, if_pos rfl, if_pos rfl]
    exact ⟨_, r, rfl, rfl, h⟩
  · rw [Bool.not_eq_true] at hi
    obtain ⟨hfit, hroom⟩ := hrest hi
    obtain ⟨x, hx⟩ := Rust.Consensus.onProposal_ok (hinh.symm.trans hi)
      (by rw [h.voteTimeout]; exact hfit) onDecide proposerId type data threshold
    rw [hx, h.voteTimeout]
    by_cases hl : c.ballots.length < maxBallots
    · have hacc : Consensus.Accepts c proposerId ballotId now :=
        ⟨hp, hid, hself, hi, Consensus.findBallot_eq_none.mp (hroom.mpr hl), hl⟩
      obtain ⟨value, hv⟩ := Consensus.onProposal_accepted hacc decision type.c data threshold
      rw [hv, Rust.Consensus.push_eq (by rw [h.length]; exact hl)]
      exact ⟨_, _, rfl, rfl, h.myId, h.voteTimeout, h.noSelfVote, h.next,
        h.table_concat (entry_new c _ type _ _ _ _)⟩
    · -- both tables are full, and the C engine has the ballot already
      obtain ⟨y, hy⟩ := Option.ne_none_iff_exists'.mp fun hf => hl (hroom.mp hf)
      unfold Consensus.onProposal
      rw [if_neg (not_or.mpr ⟨hp, hid⟩), if_neg hself, hi, if_neg Bool.false_ne_true, hy,
        Rust.Consensus.push_full (by rw [h.length]; exact hl)]
      exact ⟨_, _, rfl, rfl, h.myId, h.voteTimeout, h.noSelfVote, h.next, h.table⟩

/-! ## inhibitions -/

theorem inhibit_agrees (hid : ballotId ≠ invalidBallotId)
    (hc : InhibitAgrees checks c r ballotId now) :
    ∃ r', r.inhibit checks ballotId now = some ((Consensus.inhibit c ballotId now).1, r') ∧
      Same (Consensus.inhibit c ballotId now).2.1 r' := by
  obtain ⟨hroom, hfit, hknown⟩ := hc
  rw [Rust.Consensus.inhibit_ok hroom hfit]
  unfold Consensus.inhibit
  rw [if_neg hid]
  cases hl : c.inhibited.findIdx? fun e => e.ballotId == ballotId with
  | some i =>
    -- the C engine leaves the ballot as it is, which is then cancelled already
    have hdone := hknown.resolve_left fun hun => nomatch hun.symm.trans hl
    refine ⟨_, rfl, h.myId, h.voteTimeout, h.noSelfVote, h.next, ?_⟩
    unfold Rust.Consensus.inhibitedWith
    cases hf : Consensus.findBallot c ballotId with
    | none =>
      rw [h.missed hf]
      exact h.table
    | some x =>
      obtain ⟨b', hb', he⟩ := h.found (k := x.1) (b := x.2) hf
      obtain ⟨hcomp, hres⟩ := hdone x hf
      have hfix := finalizeBallot_self hcomp
      have hset : c.ballots.set x.1 x.2 = c.ballots :=
        Positions.set_same (Consensus.findBallot_eq_some.mp hf).2
      rw [hres] at hfix
      rw [hb']
      exact (h.table_set (entry_closed he .cancelled)).trans (by rw [hfix, hset])
  | none =>
    have hsame : Consensus.findBallot
        { c with inhibited := Consensus.pushInhibition c ballotId now } ballotId
      = Consensus.findBallot c ballotId := rfl
    dsimp only
    rw [hsame]
    unfold Rust.Consensus.inhibitedWith
    cases hf : Consensus.findBallot c ballotId with
    | none =>
      rw [h.missed hf]
      exact ⟨_, rfl, h.myId, h.voteTimeout, h.noSelfVote, h.next, h.table⟩
    | some x =>
      obtain ⟨b', hb', he⟩ := h.found (k := x.1) (b := x.2) hf
      rw [hb']
      exact ⟨_, rfl, h.myId, h.voteTimeout, h.noSelfVote, h.next,
        h.table_set (entry_closed he .cancelled)⟩

/-! ## votes -/

theorem onVote_agrees (hr : r.Sound checks)
    (hvalid : voterId ≠ invalidModuleId ∧ ballotId ≠ invalidBallotId) (hv : value ≠ .inhibit)
    (hc : VoteAgrees checks c r voterId ballotId value) (now : TimeUs) :
    ∃ r' outs, r.onVote checks voterId ballotId value 7
        = some ((Consensus.onVote c voterId ballotId value now).1, r', outs) ∧
      Same (Consensus.onVote c voterId ballotId value now).2.1 r' := by
  unfold Rust.Consensus.onVote Consensus.onVote
  rw [if_neg (not_or.mpr hvalid), if_neg hv]
  cases hf : Consensus.findBallot c ballotId with
  | none =>
    rw [h.missed hf]
    exact ⟨r, _, rfl, h⟩
  | some x =>
    obtain ⟨k, b⟩ := x
    obtain ⟨b', hb', he⟩ := h.found hf
    have hsound := hr.ballots b' (Rust.Consensus.findBallot_mem hb')
    obtain ⟨hown, hhope⟩ := hc.1 (k, b) hf
    have hcount := hc.2 (k, b') hb'
    dsimp only at hown hhope hcount ⊢
    rw [hb', if_neg (not_not_intro hown)]
    dsimp only
    by_cases hd : b.completed = true
    · rw [if_pos hd]
      by_cases hslot : b'.votes (Rust.Ballot.slot voterId) = .abstain
      · have hlate := entry_late he hd voterId hv
        rw [Rust.Ballot.recordVoteFrom_new hslot hsound
          (hcount ((entry_completed he).trans hd) hslot)]
        refine ⟨_, _, rfl, h.myId, h.voteTimeout, h.noSelfVote, h.next, ?_⟩
        exact (h.table_set hlate).trans
          (by rw [Positions.set_same (Consensus.findBallot_eq_some.mp hf).2])
      · rw [Rust.Ballot.recordVoteFrom_duplicate hslot]
        exact ⟨r, _, rfl, h⟩
    · have ho : b.completed = false := Bool.not_eq_true _ ▸ hd
      have hvotes : b'.votes = b.votes := (entry_poll he ho).1
      rw [if_neg hd]
      by_cases hslot : b.votes (Consensus.voterSlot voterId) = .abstain
      · have hslot' : b'.votes (Rust.Ballot.slot voterId) = .abstain := by
          rw [hvotes]
          exact hslot
        have hfew := hsound.few ((entry_completed he).trans ho)
        rw [if_neg (not_not_intro hslot), Rust.Ballot.recordVoteFrom_new hslot' hsound
          (fun _ h255 => absurd hfew (by rw [h255]; decide))]
        refine ⟨_, _, rfl, h.myId, h.voteTimeout, h.noSelfVote, h.next, ?_⟩
        exact h.table_set (entry_checked (entry_recorded he ho voterId hv) ho (hhope ho hslot))
      · have hslot' : b'.votes (Rust.Ballot.slot voterId) ≠ .abstain := by
          rw [hvotes]
          exact hslot
        rw [if_pos hslot, Rust.Ballot.recordVoteFrom_duplicate hslot']
        exact ⟨r, _, rfl, h⟩

theorem onVote_inhibit_agrees (hr : r.Sound checks)
    (hvalid : voterId ≠ invalidModuleId ∧ ballotId ≠ invalidBallotId)
    (hc : InhibitVoteAgrees checks r voterId ballotId) (now : TimeUs) :
    ∃ r' outs, r.onVote checks voterId ballotId .inhibit 7
        = some ((Consensus.onVote c voterId ballotId .inhibit now).1, r', outs) ∧
      Same (Consensus.onVote c voterId ballotId .inhibit now).2.1 r' := by
  obtain ⟨⟨k, b'⟩, hb', hslot⟩ := hc
  have hsound := hr.ballots b' (Rust.Consensus.findBallot_mem hb')
  have hsame : Consensus.findBallot { c with inhibited := Consensus.addInhibition c ballotId now }
    ballotId = Consensus.findBallot c ballotId := rfl
  unfold Rust.Consensus.onVote Consensus.onVote
  rw [if_neg (not_or.mpr hvalid), if_pos rfl, hb']
  dsimp only at hslot ⊢
  rw [hsame]
  cases hf : Consensus.findBallot c ballotId with
  | none => exact nomatch (h.missed hf).symm.trans hb'
  | some x =>
    obtain ⟨j, b⟩ := x
    obtain ⟨b₁, hb₁, he⟩ := h.found hf
    obtain ⟨rfl, rfl⟩ := Prod.mk.inj (Option.some.inj (hb'.symm.trans hb₁))
    dsimp only
    have hcancel : rustEntry ((b'.recorded voterId .inhibit).checkThreshold 7)
        = entry (Consensus.finalizeBallot b .cancelled) := entry_closed he .cancelled
    by_cases hs : b'.votes (Rust.Ballot.slot voterId) = .abstain
    · rw [if_pos hs] at hslot
      rw [Rust.Ballot.recordVoteFrom_new hs hsound hslot.1]
      by_cases hd : b.completed = true
      · -- the C engine ignores the vote, the Rust engine cancels a cancelled ballot
        have hres : b.result = .cancelled :=
          (congrArg Entry.result he).symm.trans (hslot.2 ((entry_completed he).trans hd))
        have hfix := finalizeBallot_self hd
        rw [hres] at hfix
        rw [if_pos hd]
        refine ⟨_, _, rfl, h.myId, h.voteTimeout, h.noSelfVote, h.next, ?_⟩
        exact (h.table_set hcancel).trans
          (by rw [hfix, Positions.set_same (Consensus.findBallot_eq_some.mp hf).2])
      · rw [if_neg hd]
        exact ⟨_, _, rfl, h.myId, h.voteTimeout, h.noSelfVote, h.next, h.table_set hcancel⟩
    · rw [if_neg hs] at hslot
      rw [Rust.Ballot.recordVoteFrom_duplicate hs,
        if_pos ((entry_completed he).symm.trans hslot)]
      exact ⟨r, _, rfl, h.myId, h.voteTimeout, h.noSelfVote, h.next, h.table⟩

/-! ## the tick -/

theorem tick_count (hdue : ∀ b ∈ c.ballots, (Consensus.expiry c now b).isSome = (entry b).due now) :
    (r.tick now).1 = (Consensus.tick c now).1 := by
  have hr : (fun b : Rust.Ballot => b.due now) = Entry.due now ∘ rustEntry :=
    funext fun b => (rustEntry_due now b).symm
  show (r.ballots.countP fun b => b.due now)
    = c.ballots.countP fun b => (Consensus.expiry c now b).isSome
  rw [hr, ← countP_map, h.table, countP_map]
  refine countP_congr fun b hb => ?_
  rw [hdue b hb]
  rfl

theorem expire_before (hd : ¬ ∃ b ∈ c.ballots, b.completed = false ∧ now ≥ b.deadline) :
    r.ballots.map (fun b => b.expire now) = r.ballots := by
  refine (map_congr_left fun b' hb' => ?_).trans (map_id _)
  obtain ⟨b, hb, he⟩ := h.mem_rust hb'
  unfold Rust.Ballot.expire
  rw [← rustEntry_due, ← he, not_due hd b hb, if_neg Bool.false_ne_true]
  rfl

theorem tick_past (hdue : ∀ b ∈ c.ballots, (Consensus.expiry c now b).isSome = (entry b).due now)
    (hd : ∃ b ∈ c.ballots, b.completed = false ∧ now ≥ b.deadline)
    (halive : maxBallots / 2 ≤ (c.ballots.filter fun b => (entry b).alive now).length) :
    (r.tick now).2.1.ballots.map rustEntry = (Consensus.tick c now).2.1.ballots.map entry := by
  have hlen : maxBallots / 2
      ≤ ((r.ballots.map fun b => b.expire now).filter fun b => !b.completed).length := by
    have hl := congrArg List.length (h.alive now)
    rw [length_map, length_map] at hl
    rw [expire_alive, hl]
    exact halive
  show (Rust.Consensus.retire (r.ballots.map fun b => b.expire now)).map rustEntry = _
  rw [tick_c_past hdue hd, ← h.alive now, ← expire_alive, Rust.Consensus.retire,
    Pruning.prune_eq_filter (Nat.le_refl _) hlen]

theorem tick_before (hdue : ∀ b ∈ c.ballots, (Consensus.expiry c now b).isSome = (entry b).due now)
    (hd : ¬ ∃ b ∈ c.ballots, b.completed = false ∧ now ≥ b.deadline)
    (hkeep : c.ballots.length ≤ maxBallots / 2 ∨ ∀ b ∈ c.ballots, b.completed = false) :
    (r.tick now).2.1.ballots.map rustEntry = (Consensus.tick c now).2.1.ballots.map entry := by
  have hprune : r.ballots.length ≤ maxBallots / 2 ∨
      r.ballots.any Rust.Ballot.completed = false := by
    rw [h.length]
    refine hkeep.imp_right fun hopen => any_eq_false.mpr fun b' hb' => ?_
    obtain ⟨b, hb, he⟩ := h.mem_rust hb'
    rw [entry_completed he.symm, hopen b hb]
    exact Bool.false_ne_true
  show (Rust.Consensus.retire (r.ballots.map fun b => b.expire now)).map rustEntry = _
  rw [tick_c_before hdue hd, expire_before h hd, Rust.Consensus.retire,
    Pruning.prune_eq_self hprune, h.table]

theorem tick_agrees (hc : TickAgrees c now) :
    (r.tick now).1 = (Consensus.tick c now).1 ∧
      Same (Consensus.tick c now).2.1 (r.tick now).2.1 := by
  obtain ⟨hinh, hrest⟩ := hc
  have hdue := expiry_due_iff hinh
  refine ⟨tick_count h hdue, h.myId, h.voteTimeout, h.noSelfVote, h.next, ?_⟩
  by_cases hd : ∃ b ∈ c.ballots, b.completed = false ∧ now ≥ b.deadline
  · rw [if_pos hd] at hrest
    exact tick_past h hdue hd hrest
  · rw [if_neg hd] at hrest
    exact tick_before h hdue hd hrest

/-- **One call.**  Engines with the same table, and a call that does not come to a rule in which
they differ: the Rust engine does not panic, both answer the same, and the tables are the same
again. -/
theorem step_agrees (hr : r.Sound checks) {e : Call} (hvalid : e.Valid c.myId)
    (hc : Compatible checks c r e) (decision : Consensus.Decision)
    (onDecide : Option (Rust.Ballot → VoteValue)) :
    ∃ r', rustStep checks onDecide r e = some (reply decision c e, r') ∧
      Same (Consensus.step decision c e.c).1 r' ∧ r'.Sound checks := by
  cases e with
  | propose type data threshold now =>
    obtain ⟨r', hs, hsame⟩ := propose_agrees h hc type data threshold
    exact ⟨r', by rw [rustStep, hs]; rfl, hsame, Rust.Consensus.propose_sound hr hs⟩
  | inhibit ballotId now =>
    obtain ⟨r', hs, hsame⟩ := inhibit_agrees h hvalid hc
    exact ⟨r', by rw [rustStep, hs]; rfl, hsame, Rust.Consensus.inhibit_sound hr hs⟩
  | onVote voterId ballotId value now =>
    rw [Compatible] at hc
    by_cases hv : value = .inhibit
    · subst hv
      obtain ⟨r', outs, hs, hsame⟩ := onVote_inhibit_agrees h hr hvalid hc now
      exact ⟨r', by rw [rustStep, hs]; rfl, hsame, Rust.Consensus.onVote_sound hr hs⟩
    · rw [if_neg hv] at hc
      obtain ⟨r', outs, hs, hsame⟩ := onVote_agrees h hr hvalid hv hc now
      exact ⟨r', by rw [rustStep, hs]; rfl, hsame, Rust.Consensus.onVote_sound hr hs⟩
  | onProposal proposerId ballotId type data threshold now =>
    obtain ⟨x, r', hs, hx, hsame⟩ :=
      onProposal_agrees h hvalid.1 hvalid.2 hc decision onDecide type data threshold
    refine ⟨r', ?_, hsame, Rust.Consensus.onProposal_sound hr hvalid.2 hs⟩
    rw [rustStep, hs, reply, ← hx]
    rfl
  | tick now =>
    obtain ⟨hcount, hsame⟩ := tick_agrees h hc
    exact ⟨_, by rw [rustStep, hcount]; rfl, hsame, Rust.Consensus.tick_sound hr now⟩

end

end Agreement
end EkKor
