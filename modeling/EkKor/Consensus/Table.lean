import EkKor.Consensus.Model
import EkKor.Lib.Positions
import EkKor.Lib.Runs

/-!
# The ballot table, slot by slot

* `Call`, `machine`   the calls of one engine, one after the other;
* `heard`, `verdict`  what a call does to the ballot in one slot: a vote it records, a result it
                      finalises the ballot with; `touched` is the ballot afterwards;
* `born`, `cleans`    the ballot a call adds to the table, and whether it removes the completed
                      ones;
* `step_ballots`      the table after a call, in these terms;
* `moves`             the slot of a ballot after a call, `slotAfter` after a list of calls.
-/

namespace EkKor
namespace Consensus
open Runs Positions List

/-! ## calls -/

inductive Call where
  | propose (type : ProposalType) (data : UInt32) (threshold : Fixed) (now : TimeUs)
  | inhibit (ballotId : BallotId) (now : TimeUs)
  | onVote (voterId : ModuleId) (ballotId : BallotId) (value : VoteValue) (now : TimeUs)
  | onProposal (proposerId : ModuleId) (ballotId : BallotId) (type : ProposalType) (data : UInt32)
      (threshold : Fixed) (now : TimeUs)
  | tick (now : TimeUs)
  deriving DecidableEq, Repr

abbrev Decision := Option (Consensus → Ballot → VoteValue)

def step (decision : Decision) (cons : Consensus) : Call → Consensus × List Out
  | .propose type data threshold now => (propose cons type data threshold now).2
  | .inhibit ballotId now => (inhibit cons ballotId now).2
  | .onVote voterId ballotId value now => (onVote cons voterId ballotId value now).2
  | .onProposal proposerId ballotId type data threshold now =>
    (onProposal cons decision proposerId ballotId type data threshold now).2
  | .tick now => (tick cons now).2

def machine (decision : Decision) (start : Consensus) : Machine Consensus Call Out :=
  ⟨start, step decision⟩

/-- the engine `ekk_consensus_init` leaves -/
def fresh (myId : ModuleId) (config : Config) : Consensus :=
  { myId := myId, ballots := [], inhibited := [], nextBallotId := 1, config := config }

theorem init_fresh {myId : ModuleId} (h : myId ≠ invalidModuleId) (config : Option Config) :
    init myId config = .ok (fresh myId (config.getD Config.default)) := by
  unfold init
  rw [if_neg h]
  rfl

/-! ## finding a ballot -/

variable {id ballotId : BallotId} {c : Call} {now : TimeUs} {proposerId voterId : ModuleId}
  {decision : Decision}

theorem findBallot_eq_some {cons : Consensus} {k : Nat} {b : Ballot} :
    findBallot cons id = some (k, b) ↔
      findBallotIndex cons id = some k ∧ cons.ballots[k]? = some b :=
  findIdx?_entry

theorem findBallotIndex_spec {cons : Consensus} {k : Nat} (h : findBallotIndex cons id = some k) :
    ∃ b, cons.ballots[k]? = some b ∧ b.id = id := by
  obtain ⟨hk, hid, -⟩ := findIdx?_eq_some_iff_getElem.mp h
  exact ⟨_, getElem?_eq_getElem hk, beq_iff_eq.mp hid⟩

theorem findBallot_eq_none {cons : Consensus} :
    findBallot cons id = none ↔ findBallotIndex cons id = none := by
  cases h : findBallotIndex cons id with
  | none => simp [findBallot, h]
  | some k =>
    obtain ⟨b, hb, -⟩ := findBallotIndex_spec h
    simp [findBallot_eq_some.mpr ⟨h, hb⟩]

/-! ## evaluating a ballot -/

theorem evaluateBallot_full {b : Ballot} {n : Nat} (hb : b.completed = false)
    (hn : n ≤ b.voteCount.toNat) : evaluateBallot b n
      = if ratio b.yesCount.toNat n ≥ b.threshold then .approved else .rejected := by
  unfold evaluateBallot
  rw [hb, if_neg Bool.false_ne_true]
  rw [if_neg (Nat.not_lt.mpr hn)]

theorem evaluateBallot_full_ne {b : Ballot} {n : Nat} (hb : b.completed = false)
    (hn : n ≤ b.voteCount.toNat) : evaluateBallot b n ≠ .pending := by
  rw [evaluateBallot_full hb hn]
  split <;> exact VoteResult.noConfusion

theorem evaluateBallot_approved {b : Ballot} {n : Nat} (hb : b.completed = false)
    (h : evaluateBallot b n = .approved) : b.threshold ≤ ratio b.yesCount.toNat n := by
  unfold evaluateBallot at h
  rw [hb, if_neg Bool.false_ne_true] at h
  dsimp only at h
  split_ifs at h with h1 h2 h3 h4
  · exact h3
  · exact h4

/-! ## what a call does to one slot -/

section
variable (cons : Consensus) (k : Nat) (b : Ballot)

/-- the vote call reaches the ballot `b` in slot `k`, which is still open -/
def Reaches (voterId : ModuleId) (ballotId : BallotId) : Prop :=
  voterId ≠ invalidModuleId ∧ ballotId ≠ invalidBallotId ∧
    findBallotIndex cons ballotId = some k ∧ b.completed = false

/-- the vote call records its vote in the ballot `b` in slot `k` -/
def Records (voterId : ModuleId) (ballotId : BallotId) (value : VoteValue) : Prop :=
  Reaches cons k b voterId ballotId ∧ value ≠ .inhibit ∧ b.proposer = cons.myId ∧
    b.votes (voterSlot voterId) = .abstain

def Unlisted (ballotId : BallotId) : Prop :=
  (cons.inhibited.findIdx? fun e => e.ballotId == ballotId) = none

/-- `ekk_consensus_inhibit` finalises the ballot in slot `k` -/
def Cancels (ballotId : BallotId) : Prop :=
  ballotId ≠ invalidBallotId ∧ Unlisted cons ballotId ∧ findBallotIndex cons ballotId = some k

instance (voterId : ModuleId) (ballotId : BallotId) :
    Decidable (Reaches cons k b voterId ballotId) := inferInstanceAs (Decidable (_ ∧ _))
instance (voterId : ModuleId) (ballotId : BallotId) (value : VoteValue) :
    Decidable (Records cons k b voterId ballotId value) := inferInstanceAs (Decidable (_ ∧ _))
instance (ballotId : BallotId) : Decidable (Unlisted cons ballotId) :=
  inferInstanceAs (Decidable (_ = _))
instance (ballotId : BallotId) : Decidable (Cancels cons k ballotId) :=
  inferInstanceAs (Decidable (_ ∧ _))

/-- the ballot `b` of slot `k` with the vote the call records, if it records one -/
def heard : Call → Ballot
  | .onVote voterId ballotId value _ =>
    if Records cons k b voterId ballotId value then recordVote b voterId value else b
  | _ => b

/-- the result the call finalises the ballot `b` of slot `k` with, if any -/
def verdict : Call → Option VoteResult
  | .onVote voterId ballotId value _ =>
    if value = .inhibit then if Reaches cons k b voterId ballotId then some .cancelled else none
    else if Records cons k b voterId ballotId value then early (recordVote b voterId value)
    else none
  | .inhibit ballotId _ => if Cancels cons k ballotId then some .cancelled else none
  | .tick now => expiry cons now b
  | _ => none

def touched (c : Call) : Ballot := settle (heard cons k b c) (verdict cons k b c)

end

def updated (cons : Consensus) (c : Call) : List Ballot :=
  cons.ballots.mapIdx fun k b => touched cons k b c

def cleans (cons : Consensus) : Call → Bool
  | .tick now => decide (completedCount cons now > 0)
  | _ => false

def Accepts (cons : Consensus) (proposerId : ModuleId) (ballotId : BallotId) (now : TimeUs) :
    Prop :=
  proposerId ≠ invalidModuleId ∧ ballotId ≠ invalidBallotId ∧ proposerId ≠ cons.myId ∧
    isInhibited cons ballotId now = false ∧ findBallotIndex cons ballotId = none ∧
    cons.ballots.length < maxBallots

instance (cons : Consensus) (proposerId : ModuleId) (ballotId : BallotId) (now : TimeUs) :
    Decidable (Accepts cons proposerId ballotId now) := inferInstanceAs (Decidable (_ ∧ _))

def born (cons : Consensus) : Call → List Ballot
  | .propose type data threshold now =>
    if cons.ballots.length < maxBallots then
      [selfVote cons (newBallot cons cons.nextBallotId type cons.myId data threshold now)]
    else []
  | .onProposal proposerId ballotId type data threshold now =>
    if Accepts cons proposerId ballotId now then
      [newBallot cons ballotId type proposerId data threshold now]
    else []
  | _ => []

/-! ## the table after a call -/

/-- the completion callback for the ballot in slot `k` -/
def Out.completesAt (k : Nat) : Out → Bool
  | .complete slot _ _ => slot == k
  | _ => false

theorem touched_idle {cons : Consensus} {k : Nat} {b : Ballot} (hh : heard cons k b c = b)
    (hv : verdict cons k b c = none) : touched cons k b c = b := by
  unfold touched
  rw [hh, hv]
  rfl

theorem updated_eq_self {cons : Consensus}
    (h : ∀ k b, cons.ballots[k]? = some b → touched cons k b c = b) :
    updated cons c = cons.ballots :=
  mapIdx_eq_self h

theorem updated_eq_set {cons : Consensus} {k : Nat} {b : Ballot} (hb : cons.ballots[k]? = some b)
    (h : ∀ j b', cons.ballots[j]? = some b' → j ≠ k → touched cons j b' c = b') :
    updated cons c = cons.ballots.set k (touched cons k b c) :=
  mapIdx_eq_set hb h

theorem propose_busy {cons : Consensus} (h : maxBallots ≤ cons.ballots.length)
    (type : ProposalType) (data : UInt32) (threshold : Fixed) (now : TimeUs) :
    propose cons type data threshold now = (.error .busy, cons, []) := by
  unfold propose allocateBallotSlot
  rw [if_pos h]

theorem propose_ok {cons : Consensus} (h : cons.ballots.length < maxBallots)
    (type : ProposalType) (data : UInt32) (threshold : Fixed) (now : TimeUs) :
    propose cons type data threshold now
      = (.ok cons.nextBallotId,
          { cons with
            ballots := cons.ballots ++
              [selfVote cons (newBallot cons cons.nextBallotId type cons.myId data threshold now)]
            nextBallotId := cons.nextBallotId + 1 },
          [.broadcastProposal cons.myId cons.nextBallotId type data threshold]) := by
  unfold propose allocateBallotSlot
  rw [if_neg (Nat.not_le.mpr h)]
  rfl

theorem propose_ok_iff {cons : Consensus} {type : ProposalType} {data : UInt32} {threshold : Fixed} :
    (∃ id, (propose cons type data threshold now).1 = .ok id) ↔
      cons.ballots.length < maxBallots := by
  constructor
  · rintro ⟨id, h⟩
    by_contra hl
    rw [propose_busy (Nat.le_of_not_lt hl)] at h
    cases h
  · intro hl
    rw [propose_ok hl]
    exact ⟨_, rfl⟩

theorem propose_ballots (cons : Consensus) (type : ProposalType) (data : UInt32)
    (threshold : Fixed) (now : TimeUs) :
    (propose cons type data threshold now).2.1.ballots
      = cons.ballots ++ born cons (.propose type data threshold now) := by
  rw [born]
  by_cases h : cons.ballots.length < maxBallots
  · rw [propose_ok h, if_pos h]
  · rw [propose_busy (Nat.le_of_not_lt h), if_neg h, append_nil]

theorem onProposal_accepted {cons : Consensus} (h : Accepts cons proposerId ballotId now)
    (decision : Decision) (type : ProposalType) (data : UInt32) (threshold : Fixed) :
    ∃ value, onProposal cons decision proposerId ballotId type data threshold now
      = (.ok (),
          { cons with
            ballots := cons.ballots ++
              [newBallot cons ballotId type proposerId data threshold now] },
          [sendVote cons proposerId ballotId value now]) := by
  obtain ⟨h1, h2, h3, h4, h5, h6⟩ := h
  unfold onProposal allocateBallotSlot
  rw [if_neg (not_or.mpr ⟨h1, h2⟩), if_neg h3, h4, if_neg Bool.false_ne_true,
    findBallot_eq_none.mpr h5, if_neg (Nat.not_le.mpr h6)]
  exact ⟨_, rfl⟩

theorem onProposal_refused {cons : Consensus} (h : ¬ Accepts cons proposerId ballotId now)
    (decision : Decision) (type : ProposalType) (data : UInt32) (threshold : Fixed) :
    (onProposal cons decision proposerId ballotId type data threshold now).2.1 = cons := by
  unfold onProposal
  split
  next => rfl
  next h1 =>
    split
    next => rfl
    next h2 =>
      split
      next => rfl
      next h3 =>
        split
        next => rfl
        next h4 =>
          unfold allocateBallotSlot
          by_cases h5 : cons.ballots.length ≥ maxBallots
          · rw [if_pos h5]
          · refine absurd ⟨fun h => h1 (Or.inl h), fun h => h1 (Or.inr h), h2,
              Bool.eq_false_of_not_eq_true h3, findBallot_eq_none.mp h4,
              Nat.lt_of_not_le h5⟩ h

theorem onProposal_ballots (cons : Consensus) (decision : Decision) (proposerId : ModuleId)
    (ballotId : BallotId) (type : ProposalType) (data : UInt32) (threshold : Fixed)
    (now : TimeUs) :
    (onProposal cons decision proposerId ballotId type data threshold now).2.1.ballots
      = cons.ballots ++ born cons (.onProposal proposerId ballotId type data threshold now) := by
  rw [born]
  by_cases h : Accepts cons proposerId ballotId now
  · obtain ⟨value, hv⟩ := onProposal_accepted h decision type data threshold
    rw [hv, if_pos h]
  · rw [onProposal_refused h, if_neg h, append_nil]

theorem inhibit_idle {cons : Consensus} {k : Nat} {b : Ballot} (h : ¬ Cancels cons k ballotId)
    (now : TimeUs) : verdict cons k b (.inhibit ballotId now) = none := by
  rw [verdict, if_neg h]

/-- the effect of `ekk_consensus_inhibit` on the table and on the callbacks -/
theorem inhibit_cancels {cons : Consensus} {k : Nat} {b : Ballot} (h : Cancels cons k ballotId)
    (hb : cons.ballots[k]? = some b) (now : TimeUs) :
    (inhibit cons ballotId now).2.1.ballots
        = cons.ballots.set k (touched cons k b (.inhibit ballotId now)) ∧
      (inhibit cons ballotId now).2.2
        = completion k b (verdict cons k b (.inhibit ballotId now)) ++
          [sendVote cons broadcastId ballotId .inhibit now] := by
  obtain ⟨h0, hl, hk⟩ := h
  have hfound : findBallot { cons with inhibited := pushInhibition cons ballotId now } ballotId
    = some (k, b) := findBallot_eq_some.mpr ⟨hk, hb⟩
  have hl' : (cons.inhibited.findIdx? fun e => e.ballotId == ballotId) = none := hl
  unfold inhibit touched
  rw [if_neg h0, hl', verdict, if_pos ⟨h0, hl, hk⟩]
  dsimp only
  rw [hfound]
  exact ⟨rfl, rfl⟩

theorem inhibit_missed {cons : Consensus} (h : ∀ k, ¬ Cancels cons k ballotId) (now : TimeUs) :
    (inhibit cons ballotId now).2.1.ballots = cons.ballots ∧
      ∀ k, (inhibit cons ballotId now).2.2.filter (Out.completesAt k) = [] := by
  unfold inhibit
  by_cases h0 : ballotId = invalidBallotId
  · rw [if_pos h0]
    exact ⟨rfl, fun _ => rfl⟩
  rw [if_neg h0]
  split
  next i hl => exact ⟨rfl, fun _ => rfl⟩
  next hl =>
    dsimp only
    split
    next hf => exact ⟨rfl, fun _ => rfl⟩
    next k b hf =>
      obtain ⟨hk, -⟩ : findBallotIndex cons ballotId = some k ∧ cons.ballots[k]? = some b :=
        findBallot_eq_some.mp hf
      exact absurd ⟨h0, hl, hk⟩ (h k)

theorem onVote_idle {cons : Consensus} {k : Nat} {b : Ballot}
    (h : ¬ Reaches cons k b voterId ballotId) (value : VoteValue) (now : TimeUs) :
    heard cons k b (.onVote voterId ballotId value now) = b ∧
      verdict cons k b (.onVote voterId ballotId value now) = none := by
  have hno : ¬ Records cons k b voterId ballotId value := fun hr => h hr.1
  refine ⟨if_neg hno, ?_⟩
  rw [verdict, if_neg h, if_neg hno, ite_self]

theorem onVote_untouched {cons : Consensus} {k : Nat} {b : Ballot}
    (h : ¬ Reaches cons k b voterId ballotId) (value : VoteValue) (now : TimeUs) :
    touched cons k b (.onVote voterId ballotId value now) = b :=
  touched_idle (onVote_idle h value now).1 (onVote_idle h value now).2

/-- the effect of `ekk_consensus_on_vote` on the table and on the callbacks -/
theorem onVote_found {cons : Consensus} {k : Nat} {b : Ballot} (hv0 : voterId ≠ invalidModuleId)
    (hi0 : ballotId ≠ invalidBallotId) (hk : findBallotIndex cons ballotId = some k)
    (hb : cons.ballots[k]? = some b) (value : VoteValue) (now : TimeUs) :
    (onVote cons voterId ballotId value now).2.1.ballots
        = cons.ballots.set k (touched cons k b (.onVote voterId ballotId value now)) ∧
      (onVote cons voterId ballotId value now).2.2
        = completion k (heard cons k b (.onVote voterId ballotId value now))
            (verdict cons k b (.onVote voterId ballotId value now)) := by
  have hfound : findBallot cons ballotId = some (k, b) := findBallot_eq_some.mpr ⟨hk, hb⟩
  have hfound' : findBallot { cons with inhibited := addInhibition cons ballotId now } ballotId
    = some (k, b) := hfound
  have hself : cons.ballots.set k b = cons.ballots := set_same hb
  unfold onVote
  rw [if_neg (not_or.mpr ⟨hv0, hi0⟩)]
  dsimp only
  rw [hfound, hfound']
  dsimp only
  by_cases hc : b.completed = true
  · have hr : ¬ Reaches cons k b voterId ballotId :=
      fun h => Bool.noConfusion (hc.symm.trans h.2.2.2)
    obtain ⟨h1, h2⟩ := onVote_idle hr value now
    rw [touched_idle h1 h2, h1, h2, hself]
    split_ifs <;> exact ⟨rfl, rfl⟩
  · have hreach : Reaches cons k b voterId ballotId :=
      ⟨hv0, hi0, hk, Bool.eq_false_of_not_eq_true hc⟩
    rw [touched, verdict, heard, if_pos hreach]
    by_cases hval : value = .inhibit
    · rw [if_neg (fun h => h.2.1 hval : ¬ Records cons k b voterId ballotId value), if_pos hval,
        if_pos hval, if_neg hc]
      exact ⟨rfl, rfl⟩
    · rw [if_neg hval, if_neg hval]
      by_cases hrec : Records cons k b voterId ballotId value
      · rw [if_pos hrec, if_pos hrec, if_neg (not_not_intro hrec.2.2.1), if_neg hc,
          if_neg (not_not_intro hrec.2.2.2)]
        exact ⟨rfl, rfl⟩
      · split_ifs with hp hslot
        · exact ⟨hself.symm, rfl⟩
        · exact ⟨hself.symm, rfl⟩
        · exact absurd ⟨hreach, hval, not_not.mp hp, not_not.mp hslot⟩ hrec

theorem onVote_missed {cons : Consensus} (h : voterId = invalidModuleId ∨ ballotId = invalidBallotId
    ∨ findBallotIndex cons ballotId = none) (value : VoteValue) (now : TimeUs) :
    (onVote cons voterId ballotId value now).2.1.ballots = cons.ballots ∧
      (onVote cons voterId ballotId value now).2.2 = [] := by
  unfold onVote
  by_cases h0 : voterId = invalidModuleId ∨ ballotId = invalidBallotId
  · rw [if_pos h0]
    exact ⟨rfl, rfl⟩
  · have hf : findBallotIndex cons ballotId = none := by
      rcases h with h | h | h
      · exact absurd (Or.inl h) h0
      · exact absurd (Or.inr h) h0
      · exact h
    have hnone : findBallot cons ballotId = none := findBallot_eq_none.mpr hf
    have hnone' : findBallot { cons with inhibited := addInhibition cons ballotId now } ballotId
      = none := hnone
    rw [if_neg h0]
    dsimp only
    rw [hnone, hnone']
    split <;> exact ⟨rfl, rfl⟩

theorem onVote_ballots (cons : Consensus) (voterId : ModuleId) (ballotId : BallotId)
    (value : VoteValue) (now : TimeUs) :
    (onVote cons voterId ballotId value now).2.1.ballots
      = updated cons (.onVote voterId ballotId value now) := by
  by_cases h : voterId = invalidModuleId ∨ ballotId = invalidBallotId ∨
      findBallotIndex cons ballotId = none
  · rw [(onVote_missed h value now).1]
    refine (updated_eq_self fun k b _ => onVote_untouched (fun hr => ?_) value now).symm
    rcases h with h | h | h
    · exact hr.1 h
    · exact hr.2.1 h
    · exact nomatch h.symm.trans hr.2.2.1
  · obtain ⟨hv0, h⟩ := not_or.mp h
    obtain ⟨hi0, hne⟩ := not_or.mp h
    obtain ⟨k, hk⟩ := Option.ne_none_iff_exists'.mp hne
    obtain ⟨b, hb, -⟩ := findBallotIndex_spec hk
    rw [(onVote_found hv0 hi0 hk hb value now).1]
    exact (updated_eq_set hb fun j b' _ hj => onVote_untouched
      (fun hr => hj (Option.some.inj (hr.2.2.1.symm.trans hk))) value now).symm

theorem inhibit_ballots (cons : Consensus) (ballotId : BallotId) (now : TimeUs) :
    (inhibit cons ballotId now).2.1.ballots = updated cons (.inhibit ballotId now) := by
  by_cases h : ∃ k, Cancels cons k ballotId
  · obtain ⟨k, hc⟩ := h
    obtain ⟨b, hb, -⟩ := findBallotIndex_spec hc.2.2
    rw [(inhibit_cancels hc hb now).1]
    refine (updated_eq_set hb fun j b' _ hj => touched_idle rfl (inhibit_idle ?_ now)).symm
    exact fun h' => hj (Option.some.inj (h'.2.2.symm.trans hc.2.2))
  · rw [(inhibit_missed (not_exists.mp h) now).1]
    exact (updated_eq_self fun k b _ =>
      touched_idle rfl (inhibit_idle (fun h' => h ⟨k, h'⟩) now)).symm

theorem tick_ballots (cons : Consensus) (now : TimeUs) :
    (tick cons now).2.1.ballots
      = if cleans cons (.tick now) then cleanupCompletedBallots (updated cons (.tick now))
        else updated cons (.tick now) := by
  have hmap : cons.ballots.map (fun b => settle b (expiry cons now b))
      = updated cons (.tick now) := by
    apply ext_getElem?
    intro k
    rw [updated, getElem?_map, getElem?_mapIdx]
    rfl
  unfold tick cleans
  rw [hmap]
  simp only [decide_eq_true_eq]

/-- **The table after a call.** -/
theorem step_ballots (decision : Decision) (cons : Consensus) (c : Call) :
    (step decision cons c).1.ballots
      = (if cleans cons c then cleanupCompletedBallots (updated cons c) else updated cons c)
        ++ born cons c := by
  have hsame : ∀ c, (∀ k b, touched cons k b c = b) → updated cons c = cons.ballots :=
    fun c h => updated_eq_self fun k b _ => h k b
  cases c with
  | propose type data threshold now =>
    rw [hsame _ fun k b => touched_idle rfl rfl]
    exact propose_ballots cons type data threshold now
  | inhibit ballotId now =>
    show (inhibit cons ballotId now).2.1.ballots = updated cons (.inhibit ballotId now) ++ []
    rw [append_nil]
    exact inhibit_ballots cons ballotId now
  | onVote voterId ballotId value now =>
    show (onVote cons voterId ballotId value now).2.1.ballots = updated cons _ ++ []
    rw [append_nil]
    exact onVote_ballots cons voterId ballotId value now
  | onProposal proposerId ballotId type data threshold now =>
    rw [hsame _ fun k b => touched_idle rfl rfl]
    exact onProposal_ballots cons decision proposerId ballotId type data threshold now
  | tick now =>
    show (tick cons now).2.1.ballots = _ ++ []
    rw [append_nil]
    exact tick_ballots cons now

theorem step_ballots_all {cons : Consensus} {Q : Ballot → Prop} (h : ∀ b ∈ cons.ballots, Q b)
    (ht : ∀ k b, Q b → Q (touched cons k b c)) (hborn : ∀ b ∈ born cons c, Q b) :
    ∀ b ∈ (step decision cons c).1.ballots, Q b := by
  have hupd : ∀ b ∈ updated cons c, Q b := by
    intro b hb
    obtain ⟨k, hk⟩ := mem_iff_getElem?.mp hb
    rw [updated, getElem?_mapIdx] at hk
    obtain ⟨a, ha, rfl⟩ := Option.map_eq_some_iff.mp hk
    exact ht k a (h a (mem_of_getElem? ha))
  intro b hb
  rw [step_ballots] at hb
  rcases mem_append.mp hb with hb | hb
  · split at hb
    · exact hupd b (mem_filter.mp hb).1
    · exact hupd b hb
  · exact hborn b hb

/-! ## the callbacks of a call -/

theorem completion_filter (k j : Nat) (b : Ballot) (v : Option VoteResult) :
    (completion j b v).filter (Out.completesAt k) = if j = k then completion j b v else [] := by
  cases v with
  | none =>
    split <;> rfl
  | some r =>
    rw [completion]
    by_cases h : j = k
    · simp [Out.completesAt, h]
    · simp [Out.completesAt, h]

section
variable (cons : Consensus) (k : Nat)

/-- the callback for the ballot in slot `k` when the call finalises it -/
def reported (c : Call) : List Out :=
  (cons.ballots[k]?).elim [] fun b => completion k (heard cons k b c) (verdict cons k b c)

variable {cons k}

theorem reported_none (h : ∀ b, verdict cons k b c = none) : reported cons k c = [] := by
  unfold reported
  cases cons.ballots[k]? with
  | none => rfl
  | some b =>
    rw [Option.elim_some, h b]
    rfl

variable (cons k)

theorem propose_completesAt (type : ProposalType) (data : UInt32) (threshold : Fixed)
    (now : TimeUs) :
    (propose cons type data threshold now).2.2.filter (Out.completesAt k) = [] := by
  by_cases hl : cons.ballots.length < maxBallots
  · rw [propose_ok hl]
    rfl
  · rw [propose_busy (Nat.le_of_not_lt hl)]
    rfl

theorem inhibit_completesAt (ballotId : BallotId) (now : TimeUs) :
    (inhibit cons ballotId now).2.2.filter (Out.completesAt k)
      = reported cons k (.inhibit ballotId now) := by
  by_cases h : ∃ j, Cancels cons j ballotId
  · obtain ⟨j, hc⟩ := h
    obtain ⟨b, hb, -⟩ := findBallotIndex_spec hc.2.2
    have hsent : [sendVote cons broadcastId ballotId .inhibit now].filter (Out.completesAt k)
      = [] := rfl
    rw [(inhibit_cancels hc hb now).2, filter_append, completion_filter, hsent,
      append_nil]
    by_cases hj : j = k
    · subst hj
      rw [if_pos rfl, reported, hb]
      rfl
    · rw [if_neg hj]
      exact (reported_none fun b' => inhibit_idle
        (fun h' => hj (Option.some.inj (hc.2.2.symm.trans h'.2.2))) now).symm
  · rw [(inhibit_missed (not_exists.mp h) now).2]
    exact (reported_none fun b => inhibit_idle (fun h' => h ⟨k, h'⟩) now).symm

theorem onVote_completesAt (voterId : ModuleId) (ballotId : BallotId) (value : VoteValue)
    (now : TimeUs) :
    (onVote cons voterId ballotId value now).2.2.filter (Out.completesAt k)
      = reported cons k (.onVote voterId ballotId value now) := by
  by_cases h : voterId = invalidModuleId ∨ ballotId = invalidBallotId ∨
      findBallotIndex cons ballotId = none
  · rw [(onVote_missed h value now).2]
    refine (reported_none fun b => (onVote_idle (fun hr => ?_) value now).2).symm
    rcases h with h | h | h
    · exact hr.1 h
    · exact hr.2.1 h
    · exact nomatch h.symm.trans hr.2.2.1
  · obtain ⟨hv0, h⟩ := not_or.mp h
    obtain ⟨hi0, hne⟩ := not_or.mp h
    obtain ⟨j, hj⟩ := Option.ne_none_iff_exists'.mp hne
    obtain ⟨b, hb, -⟩ := findBallotIndex_spec hj
    rw [(onVote_found hv0 hi0 hj hb value now).2, completion_filter]
    by_cases hjk : j = k
    · subst hjk
      rw [if_pos rfl, reported, hb, Option.elim_some]
    · rw [if_neg hjk]
      exact (reported_none fun b' => (onVote_idle
        (fun hr => hjk (Option.some.inj (hj.symm.trans hr.2.2.1))) value now).2).symm

theorem onProposal_completesAt (decision : Decision) (proposerId : ModuleId) (ballotId : BallotId)
    (type : ProposalType) (data : UInt32) (threshold : Fixed) (now : TimeUs) :
    (onProposal cons decision proposerId ballotId type data threshold now).2.2.filter
      (Out.completesAt k) = [] := by
  unfold onProposal
  split_ifs
  · rfl
  · rfl
  · rfl
  · split
    · rfl
    · split <;> rfl

/-- **The callbacks of a call**, slot by slot: one for each ballot it finalises. -/
theorem step_completesAt (decision : Decision) (c : Call) :
    (step decision cons c).2.filter (Out.completesAt k) = reported cons k c := by
  cases c with
  | propose type data threshold now =>
    exact (propose_completesAt cons k type data threshold now).trans
      (reported_none fun _ => rfl).symm
  | inhibit ballotId now => exact inhibit_completesAt cons k ballotId now
  | onVote voterId ballotId value now => exact onVote_completesAt cons k voterId ballotId value now
  | onProposal proposerId ballotId type data threshold now =>
    exact (onProposal_completesAt cons k decision proposerId ballotId type data threshold now).trans
      (reported_none fun _ => rfl).symm
  | tick now =>
    exact filter_flatMap_zipIdx (f := fun b k => completion k b (expiry cons now b))
      (fun b j => completion_filter k j b _) cons.ballots

end

theorem complete_mem_step {cons : Consensus} {k : Nat} {b' : Ballot} {r : VoteResult} :
    Out.complete k b' r ∈ (step decision cons c).2 ↔
      ∃ b, cons.ballots[k]? = some b ∧ verdict cons k b c = some r ∧
        b' = finalizeBallot (heard cons k b c) r := by
  have hfilter : Out.complete k b' r ∈ (step decision cons c).2 ↔
      Out.complete k b' r ∈ (step decision cons c).2.filter (Out.completesAt k) := by
    rw [mem_filter]
    exact ⟨fun h => ⟨h, beq_self_eq_true k⟩, fun h => h.1⟩
  rw [hfilter, step_completesAt, reported]
  constructor
  · intro h
    cases hb : cons.ballots[k]? with
    | none =>
      rw [hb] at h
      cases h
    | some b =>
      rw [hb, Option.elim_some] at h
      cases hv : verdict cons k b c with
      | none =>
        rw [hv] at h
        cases h
      | some r' =>
        rw [hv] at h
        obtain ⟨-, hb', hr⟩ := Out.complete.inj (mem_singleton.mp h)
        subst hr
        exact ⟨b, rfl, hv, hb'⟩
  · rintro ⟨b, hb, hv, rfl⟩
    rw [hb, Option.elim_some, hv]
    exact mem_singleton.mpr rfl

end Consensus
end EkKor
