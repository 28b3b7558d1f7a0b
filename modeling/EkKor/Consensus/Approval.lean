import EkKor.Consensus.Table
import Mathlib.Tactic.Linarith

/-!
# Completed and approved ballots

* `slots_freed_iff`   the slots of completed ballots;
* `approval_iff`      the support of approved ballots.
-/

/-!
# Slots that completed ballots hold

* `slots_freed_iff`   when all ballots are completed or past their deadline, a proposal after the
                      tick succeeds exactly if there was room before the tick or a ballot was still
                      pending: the tick cleans up only if it completes a ballot itself;
* `slots_stuck`       four ballots decided early keep the engine busy.
-/

namespace EkKor
namespace Consensus
open Runs

theorem expiry_due (cons : Consensus) {now : TimeUs} {b : Ballot} (hb : b.completed = false)
    (hd : now ≥ b.deadline) : (expiry cons now b).isSome = true := by
  unfold expiry
  rw [hb, if_neg Bool.false_ne_true, if_pos hd]
  split <;> rfl

theorem updated_done {cons : Consensus} {now : TimeUs}
    (h : ∀ b ∈ cons.ballots, b.completed = true ∨ now ≥ b.deadline) {b : Ballot}
    (hb : b ∈ updated cons (.tick now)) : b.completed = true := by
  obtain ⟨k, hk⟩ := List.mem_iff_getElem?.mp hb
  rw [updated, List.getElem?_mapIdx] at hk
  obtain ⟨a, ha, rfl⟩ := Option.map_eq_some_iff.mp hk
  show (settle a (expiry cons now a)).completed = true
  cases hv : expiry cons now a with
  | some r => rfl
  | none =>
    rcases h a (List.mem_of_getElem? ha) with hc | hd
    · exact hc
    · cases hc : a.completed with
      | true => exact hc
      | false =>
        have hs := expiry_due cons hc hd
        rw [hv] at hs
        cases hs

theorem tick_length {cons : Consensus} {now : TimeUs}
    (h : ∀ b ∈ cons.ballots, b.completed = true ∨ now ≥ b.deadline) :
    (tick cons now).2.1.ballots.length
      = if ∃ b ∈ cons.ballots, b.completed = false then 0 else cons.ballots.length := by
  rw [tick_ballots]
  by_cases ho : ∃ b ∈ cons.ballots, b.completed = false
  · obtain ⟨b, hb, hc⟩ := ho
    have hdue : now ≥ b.deadline :=
      (h b hb).resolve_left fun ht => Bool.noConfusion (hc.symm.trans ht)
    have hcount : completedCount cons now > 0 :=
      List.countP_pos_iff.mpr ⟨b, hb, expiry_due cons hc hdue⟩
    have hclean : cleans cons (.tick now) = true := decide_eq_true hcount
    have hnil : cleanupCompletedBallots (updated cons (.tick now)) = [] :=
      List.filter_eq_nil_iff.mpr fun a ha => by rw [updated_done h ha]; exact Bool.false_ne_true
    rw [if_pos hclean, hnil, if_pos ⟨b, hb, hc⟩]
    rfl
  · have hnone : completedCount cons now = 0 := by
      refine List.countP_eq_zero.mpr fun b hb hs => ?_
      have hc : b.completed = true := by
        by_contra hc
        exact ho ⟨b, hb, Bool.eq_false_of_not_eq_true hc⟩
      unfold expiry at hs
      rw [if_pos hc] at hs
      cases hs
    have hclean : cleans cons (.tick now) = false := by
      rw [cleans, hnone]
      rfl
    rw [hclean, if_neg Bool.false_ne_true, if_neg ho, updated, List.length_mapIdx]

/-- **Slots after a tick.**  In every engine state in which each ballot is completed or past its
deadline at the time of the tick. -/
theorem slots_freed_iff (cons : Consensus) (now : TimeUs)
    (h : ∀ b ∈ cons.ballots, b.completed = true ∨ now ≥ b.deadline) (type : ProposalType)
    (data : UInt32) (threshold : Fixed) (later : TimeUs) :
    (∃ id, (propose (tick cons now).2.1 type data threshold later).1 = .ok id) ↔
      cons.ballots.length < maxBallots ∨ ∃ b ∈ cons.ballots, b.completed = false := by
  rw [propose_ok_iff, tick_length h]
  by_cases ho : ∃ b ∈ cons.ballots, b.completed = false
  · rw [if_pos ho]
    exact ⟨fun _ => Or.inr ho, fun _ => by decide⟩
  · rw [if_neg ho]
    exact ⟨Or.inl, fun h => h.resolve_right ho⟩

/-- a table with one ballot past its deadline -/
theorem slots_freed_one :
    (∃ id, (propose (tick ((machine none (fresh 1 Config.default)).run
        [.propose .shutdown 0 43909 0]) 50000).2.1 .modeChange 1 43909 60000).1 = .ok id) ↔
      ((machine none (fresh 1 Config.default)).run
          [.propose .shutdown 0 43909 0]).ballots.length < maxBallots ∨
        ∃ b ∈ ((machine none (fresh 1 Config.default)).run
          [.propose .shutdown 0 43909 0]).ballots, b.completed = false :=
  slots_freed_iff _ 50000 (by decide) .modeChange 1 43909 60000

/-- four ballots, each approved by an early vote of module 2; the tick past their deadlines does
nothing, and the next proposal finds no room -/
theorem slots_stuck :
    (∀ b ∈ ((machine none (fresh 1 Config.default)).run
        [.propose .shutdown 0 6554 0, .propose .shutdown 1 6554 0, .propose .shutdown 2 6554 0,
          .propose .shutdown 3 6554 0, .onVote 2 1 .yes 100, .onVote 2 2 .yes 100,
          .onVote 2 3 .yes 100, .onVote 2 4 .yes 100]).ballots,
      b.completed = true ∧ (100000 : TimeUs) ≥ b.deadline) ∧
    (propose (tick ((machine none (fresh 1 Config.default)).run
        [.propose .shutdown 0 6554 0, .propose .shutdown 1 6554 0, .propose .shutdown 2 6554 0,
          .propose .shutdown 3 6554 0, .onVote 2 1 .yes 100, .onVote 2 2 .yes 100,
          .onVote 2 3 .yes 100, .onVote 2 4 .yes 100]) 100000).2.1
      .modeChange 4 6554 100000).1 = .error .busy := by
  decide

end Consensus
end EkKor

/-!
# Approval and the threshold

* `Supported`       the YES votes of a ballot reach its threshold among all `K` neighbours;
* `FewVotesFail`    a tick that evaluates a ballot with the votes received so far does not find
                    the threshold reached among these only;
* `approval_iff`    a run approves own ballots with support only, if and only if its ticks meet
                    `FewVotesFail`;
* `one_vote_approves`   at the deadline one YES vote approves.
-/

namespace EkKor
namespace Consensus
open Runs

/-- `yes_count * 2^16 / K ≥ threshold` -/
def Supported (b : Ballot) : Prop := b.threshold * kNeighbors ≤ b.yesCount.toNat * fixedOne

instance (b : Ballot) : Decidable (Supported b) := inferInstanceAs (Decidable (_ ≤ _))

/-- the division of `evaluate_ballot` rounds down, which does not matter for a whole threshold -/
theorem supported_iff {b : Ballot} :
    Supported b ↔ b.threshold ≤ ratio b.yesCount.toNat kNeighbors := by
  unfold Supported ratio
  rw [if_pos (by decide), Int.natCast_ediv, Int.le_ediv_iff_mul_le (by decide)]
  exact Iff.rfl

section
variable (cons : Consensus)

/-- every approval the call reports for an own ballot with a positive threshold has support -/
def ApprovesSupported (outs : List Out) : Prop :=
  ∀ slot b, Out.complete slot b .approved ∈ outs → b.proposer = cons.myId → 0 < b.threshold →
    Supported b

/-- the tick finds no pending own ballot, not inhibited and past its deadline, whose YES votes
reach the threshold among the votes received but not among `K` -/
def FewVotesFail : Call → Prop
  | .tick now => ∀ b ∈ cons.ballots, b.proposer = cons.myId → 0 < b.threshold →
      b.completed = false → isInhibited cons b.id now = false → now ≥ b.deadline →
      b.threshold ≤ ratio b.yesCount.toNat b.voteCount.toNat → Supported b
  | _ => True

end

theorem expiry_approved {cons : Consensus} {now : TimeUs} {b : Ballot} :
    expiry cons now b = some .approved ↔ b.completed = false ∧
      isInhibited cons b.id now = false ∧ now ≥ b.deadline ∧
      b.threshold ≤ ratio b.yesCount.toNat b.voteCount.toNat := by
  unfold expiry
  by_cases hc : b.completed = true
  · rw [if_pos hc]
    exact ⟨fun h => (nomatch h), fun h => Bool.noConfusion (hc.symm.trans h.1)⟩
  by_cases hi : isInhibited cons b.id now = true
  · rw [if_neg hc, if_pos hi]
    exact ⟨fun h => VoteResult.noConfusion (Option.some.inj h),
      fun h => Bool.noConfusion (hi.symm.trans h.2.1)⟩
  by_cases hd : now ≥ b.deadline
  · have hopen : b.completed = false := Bool.eq_false_of_not_eq_true hc
    rw [if_neg hc, if_neg hi, if_pos hd]
    dsimp only
    rw [if_neg (evaluateBallot_full_ne hopen (Nat.le_refl _)),
      evaluateBallot_full hopen (Nat.le_refl _)]
    refine ⟨fun h => ⟨hopen, Bool.eq_false_of_not_eq_true hi, hd, ?_⟩, fun h => if_pos h.2.2.2 ▸ ?_⟩
    · split at h
      next hr => exact hr
      next => cases h
    · rfl
  · rw [if_neg hc, if_neg hi, if_neg hd]
    exact ⟨fun h => (nomatch h), fun h => absurd h.2.2.1 hd⟩

/-- **One call.** -/
theorem step_approves_iff (decision : Decision) (cons : Consensus) (c : Call) :
    ApprovesSupported cons (step decision cons c).2 ↔ FewVotesFail cons c := by
  cases c with
  | tick now =>
    constructor
    · intro h b hb hp ht hc hi hd hr
      obtain ⟨k, hk⟩ := List.mem_iff_getElem?.mp hb
      refine h k (finalizeBallot b .approved) (complete_mem_step.mpr ⟨b, hk, ?_, rfl⟩) hp ht
      exact expiry_approved.mpr ⟨hc, hi, hd, hr⟩
    · intro h slot b' hb' hp ht
      obtain ⟨b, hk, hv, rfl⟩ := complete_mem_step.mp hb'
      obtain ⟨hc, hi, hd, hr⟩ := expiry_approved.mp hv
      exact h b (List.mem_of_getElem? hk) hp ht hc hi hd hr
  | onVote voterId ballotId value now =>
    refine ⟨fun _ => trivial, fun _ slot b' hb' _ _ => ?_⟩
    obtain ⟨b, hk, hv, rfl⟩ := complete_mem_step.mp hb'
    rw [verdict] at hv
    split at hv
    next => split at hv <;> cases hv
    next =>
      split at hv
      next hrec =>
        rw [heard, if_pos hrec]
        unfold early at hv
        split at hv
        next =>
          have hr := evaluateBallot_approved (b := recordVote b voterId value) hrec.1.2.2.2
            (Option.some.inj hv)
          exact supported_iff.mpr hr
        next => cases hv
      next => cases hv
  | inhibit ballotId now =>
    refine ⟨fun _ => trivial, fun _ slot b' hb' _ _ => ?_⟩
    obtain ⟨b, hk, hv, rfl⟩ := complete_mem_step.mp hb'
    rw [verdict] at hv
    split at hv <;> cases hv
  | propose type data threshold now =>
    refine ⟨fun _ => trivial, fun _ slot b' hb' _ _ => ?_⟩
    obtain ⟨b, hk, hv, rfl⟩ := complete_mem_step.mp hb'
    cases hv
  | onProposal proposerId ballotId type data threshold now =>
    refine ⟨fun _ => trivial, fun _ slot b' hb' _ _ => ?_⟩
    obtain ⟨b, hk, hv, rfl⟩ := complete_mem_step.mp hb'
    cases hv

/-- **Approval needs the threshold.**  In every run, from any engine: every approval of an own
ballot with a positive threshold has support if and only if every tick meets `FewVotesFail`. -/
theorem approval_iff (decision : Decision) (start : Consensus) (es : List Call) :
    EveryStep (fun pre c => ApprovesSupported ((machine decision start).run pre)
        ((machine decision start).outs ((machine decision start).run pre) c)) es ↔
      EveryStep (fun pre c => FewVotesFail ((machine decision start).run pre) c) es :=
  ⟨fun h => h.mono fun _ c hc => (step_approves_iff decision _ c).mp hc,
    fun h => h.mono fun _ c hc => (step_approves_iff decision _ c).mpr hc⟩

/-- module 1 asks for a supermajority (0.67) and gets no vote but its own; the tick at the
deadline approves -/
theorem one_vote_approves : ¬ EveryStep (fun pre c =>
      ApprovesSupported ((machine none (fresh 1 Config.default)).run pre)
        ((machine none (fresh 1 Config.default)).outs
          ((machine none (fresh 1 Config.default)).run pre) c))
    [.propose .shutdown 0 43909 0, .tick 50000] := by
  intro h
  have h' := h [.propose .shutdown 0 43909 0] (.tick 50000) (List.prefix_refl _)
  have hs := h' 0 _ (List.mem_singleton.mpr rfl) (by decide) (by decide)
  exact absurd hs (by decide)

end Consensus
end EkKor
