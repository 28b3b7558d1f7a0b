import EkKor.Consensus.Results
import EkKor.Consensus.Tally

/-!
# Early decisions

`ekk_consensus_on_vote` evaluates a ballot before all votes are in.  Here the missing votes are
added in every possible way and the ballot is evaluated again.

* `recordAll`       the votes are recorded one after the other;
* `Completes`       as many votes as are missing, each YES, NO or ABSTAIN;
* `EarlySound`      a decision is the decision after every completion, and a pending ballot can
                    still end both ways;
* `Counted`         the counters of the ballot fit together and it is not finalised with PENDING
                    (`run_counted`: the second half holds in every run);
* `early_sound_iff` every such ballot decides early correctly if and only if there are at most
                    255 neighbors, which is what `vote_count` can hold.
-/

namespace EkKor
namespace Consensus
open Runs

/-! ## adding votes -/

def recordAll (ballot : Ballot) (votes : List (ModuleId × VoteValue)) : Ballot :=
  votes.foldl (fun b v => recordVote b v.1 v.2) ballot

/-- the votes that are missing among `neighborCount`, each YES, NO or ABSTAIN -/
def Completes (ballot : Ballot) (neighborCount : Nat) (votes : List (ModuleId × VoteValue)) :
    Prop :=
  votes.length = neighborCount - ballot.voteCount.toNat ∧ ∀ v ∈ votes, v.2 ≠ .inhibit

/-- all missing votes are `value` -/
def filled (ballot : Ballot) (neighborCount : Nat) (value : VoteValue) :
    List (ModuleId × VoteValue) :=
  List.replicate (neighborCount - ballot.voteCount.toNat) (1, value)

/-- what `evaluate_ballot` says before the missing votes agrees with what it says after them -/
structure EarlySound (ballot : Ballot) (neighborCount : Nat) : Prop where
  decided : ∀ result, result = .approved ∨ result = .rejected →
    evaluateBallot ballot neighborCount = result → ∀ votes, Completes ballot neighborCount votes →
      evaluateBallot (recordAll ballot votes) neighborCount = result
  mayApprove : evaluateBallot ballot neighborCount = .pending →
    ∃ votes, Completes ballot neighborCount votes ∧
      evaluateBallot (recordAll ballot votes) neighborCount = .approved
  mayReject : evaluateBallot ballot neighborCount = .pending →
    ∃ votes, Completes ballot neighborCount votes ∧
      evaluateBallot (recordAll ballot votes) neighborCount = .rejected

/-- YES and NO votes are votes, and the ballot is not finalised with PENDING -/
structure Counted (ballot : Ballot) : Prop where
  votes : ballot.yesCount.toNat + ballot.noCount.toNat ≤ ballot.voteCount.toNat
  result : ballot.completed = true → ballot.result ≠ .pending

/-- `finalize_ballot` is never called with PENDING -/
theorem run_counted (decision : Decision) (myId : ModuleId) (config : Config) (es : List Call) :
    ∀ b ∈ ((machine decision (fresh myId config)).run es).ballots,
      b.yesCount.toNat + b.noCount.toNat ≤ b.voteCount.toNat → Counted b :=
  fun b hb hv => ⟨hv, (run_settled decision myId config es b hb).mp⟩

section
variable (ballot : Ballot) (votes : List (ModuleId × VoteValue))

theorem recordAll_frame : (recordAll ballot votes).completed = ballot.completed ∧
    (recordAll ballot votes).result = ballot.result ∧
    (recordAll ballot votes).threshold = ballot.threshold := by
  induction votes generalizing ballot with
  | nil => exact ⟨rfl, rfl, rfl⟩
  | cons v votes ih => exact ih (recordVote ballot v.1 v.2)

theorem recordAll_voteCount (h : ballot.voteCount.toNat + votes.length ≤ 255) :
    (recordAll ballot votes).voteCount.toNat = ballot.voteCount.toNat + votes.length := by
  induction votes generalizing ballot with
  | nil => rfl
  | cons v votes ih =>
    rw [List.length_cons] at h ⊢
    have hone : (recordVote ballot v.1 v.2).voteCount.toNat = ballot.voteCount.toNat + 1 :=
      toNat_succ (by omega)
    have hrest := ih (recordVote ballot v.1 v.2) (by omega)
    show (recordAll (recordVote ballot v.1 v.2) votes).voteCount.toNat = _
    omega

theorem recordVote_yesCount (v : ModuleId × VoteValue) (h : ballot.yesCount.toNat < 255) :
    (recordVote ballot v.1 v.2).yesCount.toNat
      = ballot.yesCount.toNat + if v.2 = .yes then 1 else 0 := by
  show (if v.2 = .yes then ballot.yesCount + 1 else ballot.yesCount).toNat = _
  split
  next => exact toNat_succ h
  next => rfl

theorem recordAll_yesCount (h : ballot.yesCount.toNat + votes.length ≤ 255) :
    (recordAll ballot votes).yesCount.toNat
      = ballot.yesCount.toNat + votes.countP fun v => v.2 = .yes := by
  induction votes generalizing ballot with
  | nil => rfl
  | cons v votes ih =>
    rw [List.length_cons] at h
    have hone := recordVote_yesCount ballot v (by omega)
    have hrest := ih (recordVote ballot v.1 v.2) (by split at hone <;> omega)
    show (recordAll (recordVote ballot v.1 v.2) votes).yesCount.toNat = _
    rw [hrest, hone, List.countP_cons]
    simp only [decide_eq_true_eq]
    omega

end

/-! ## the ratio -/

theorem ratio_mono {votes votes' : Nat} (count : Nat) (h : votes ≤ votes') :
    ratio votes count ≤ ratio votes' count := by
  unfold ratio
  split
  next => exact Int.ofNat_le.mpr (Nat.div_le_div_right (Nat.mul_le_mul_right 65536 h))
  next => exact Int.le_refl 0

theorem ratio_lt_one {votes count : Nat} (h : votes < count) : ratio votes count < 65536 := by
  unfold ratio
  rw [if_pos (Nat.zero_lt_of_lt h)]
  refine Int.ofNat_lt.mpr ((Nat.div_lt_iff_lt_mul (Nat.zero_lt_of_lt h)).mpr ?_)
  rw [Nat.mul_comm]
  exact Nat.mul_lt_mul_of_pos_left h (by decide)

/-! ## before and after the missing votes -/

theorem evaluateBallot_early {b : Ballot} {n : Nat} (hb : b.completed = false)
    (hn : b.voteCount.toNat < n) : evaluateBallot b n
      = if ratio (b.yesCount.toNat + (n - b.voteCount.toNat)) n < b.threshold then .rejected
        else if ratio b.yesCount.toNat n ≥ b.threshold then .approved
        else .pending := by
  unfold evaluateBallot
  rw [hb, if_neg Bool.false_ne_true]
  rw [if_pos hn]

section
variable {ballot : Ballot} {n : Nat} {votes : List (ModuleId × VoteValue)}

theorem evaluateBallot_recordAll (ho : ballot.completed = false) (hn : n ≤ 255)
    (hv : ballot.yesCount.toNat ≤ ballot.voteCount.toNat) (hmiss : ballot.voteCount.toNat < n)
    (hc : Completes ballot n votes) :
    evaluateBallot (recordAll ballot votes) n
      = if ratio (ballot.yesCount.toNat + votes.countP fun v => v.2 = .yes) n ≥ ballot.threshold
        then .approved else .rejected := by
  have hlen := hc.1
  obtain ⟨hdone, -, hthreshold⟩ := recordAll_frame ballot votes
  have hcount := recordAll_voteCount ballot votes (by omega)
  have hyes := recordAll_yesCount ballot votes (by omega)
  rw [evaluateBallot_full (hdone.trans ho) (by omega), hyes, hthreshold]

theorem completes_filled (value : VoteValue) (h : value ≠ .inhibit) :
    Completes ballot n (filled ballot n value) :=
  ⟨List.length_replicate, fun v hv => by rw [List.eq_of_mem_replicate hv]; exact h⟩

theorem early_sound_open (ho : ballot.completed = false) (hn : n ≤ 255)
    (hv : ballot.yesCount.toNat ≤ ballot.voteCount.toNat) (hmiss : ballot.voteCount.toNat < n) :
    EarlySound ballot n := by
  have hearly := evaluateBallot_early ho hmiss
  have hafter := fun votes (hc : Completes ballot n votes) =>
    evaluateBallot_recordAll ho hn hv hmiss hc
  refine ⟨?_, fun hpend => ?_, fun hpend => ?_⟩
  · rintro result hr heval votes hc
    have hmost : votes.countP (fun v => v.2 = .yes) ≤ n - ballot.voteCount.toNat :=
      hc.1 ▸ List.countP_le_length
    have hup := ratio_mono n (Nat.add_le_add_left hmost ballot.yesCount.toNat)
    have hlow := ratio_mono n
      (Nat.le_add_right ballot.yesCount.toNat (votes.countP fun v => v.2 = .yes))
    rw [hafter votes hc, ← heval, hearly]
    by_cases hrej : ratio (ballot.yesCount.toNat + (n - ballot.voteCount.toNat)) n
        < ballot.threshold
    · rw [if_pos hrej, if_neg (not_le_of_gt (lt_of_le_of_lt hup hrej))]
    · by_cases happ : ratio ballot.yesCount.toNat n ≥ ballot.threshold
      · rw [if_neg hrej, if_pos happ, if_pos (le_trans happ hlow)]
      · rw [hearly, if_neg hrej, if_neg happ] at heval
        rcases hr with rfl | rfl <;> cases heval
  · refine ⟨_, completes_filled .yes VoteValue.noConfusion, ?_⟩
    rw [hearly] at hpend
    split at hpend
    next => cases hpend
    next hrej =>
      have hall : (filled ballot n .yes).countP (fun v => v.2 = .yes)
          = n - ballot.voteCount.toNat := List.countP_replicate
      rw [hafter _ (completes_filled .yes VoteValue.noConfusion), hall,
        if_pos (Int.not_lt.mp hrej)]
  · refine ⟨_, completes_filled .no VoteValue.noConfusion, ?_⟩
    rw [hearly] at hpend
    split at hpend
    next => cases hpend
    next =>
      split at hpend
      next => cases hpend
      next happ =>
        have hnone : (filled ballot n .no).countP (fun v => v.2 = .yes) = 0 :=
          List.countP_replicate
        rw [hafter _ (completes_filled .no VoteValue.noConfusion), hnone, Nat.add_zero,
          if_neg happ]

theorem early_sound_completed (hd : ballot.completed = true) (hr : ballot.result ≠ .pending) :
    EarlySound ballot n := by
  have hkeep : ∀ b : Ballot, b.completed = true → evaluateBallot b n = b.result := fun b hb => by
    unfold evaluateBallot
    rw [if_pos hb]
  refine ⟨fun result _ heval votes _ => ?_, fun hpend => ?_, fun hpend => ?_⟩
  · obtain ⟨hdone, hresult, -⟩ := recordAll_frame ballot votes
    rw [hkeep _ (hdone.trans hd), hresult, ← hkeep ballot hd]
    exact heval
  · exact absurd (hkeep ballot hd ▸ hpend) hr
  · exact absurd (hkeep ballot hd ▸ hpend) hr

end

/-! ## the result -/

def unanimous : Ballot :=
  { id := 1
    type := .modeChange
    proposer := 1
    proposalData := 0
    threshold := 65536
    deadline := 50000
    votes := fun _ => .abstain
    voteCount := 0
    yesCount := 0
    noCount := 0
    result := .pending
    completed := false }

theorem unanimous_wraps {n : Nat} (hn : 255 < n) : ¬ EarlySound unanimous n := by
  intro h
  have hpend : evaluateBallot unanimous n = .pending := by
    have hfull : ratio n n = 65536 := by
      unfold ratio
      rw [if_pos (by omega), Nat.mul_div_cancel_left _ (by omega)]
      rfl
    have hnone : ratio 0 n = 0 := by
      unfold ratio
      rw [if_pos (by omega), Nat.zero_mul, Nat.zero_div]
      rfl
    rw [evaluateBallot_early rfl (show 0 < n by omega)]
    show (if ratio (0 + (n - 0)) n < 65536 then VoteResult.rejected
      else if ratio 0 n ≥ 65536 then VoteResult.approved else VoteResult.pending) = _
    rw [Nat.zero_add, Nat.sub_zero, hfull, hnone]
    decide
  obtain ⟨votes, -, happ⟩ := h.mayApprove hpend
  obtain ⟨hdone, -, hthreshold⟩ := recordAll_frame unanimous votes
  have hreach := evaluateBallot_approved hdone happ
  rw [hthreshold] at hreach
  have hfew : (recordAll unanimous votes).yesCount.toNat < n :=
    lt_of_lt_of_le (recordAll unanimous votes).yesCount.toNat_lt hn
  exact absurd hreach (Int.not_le.mpr (ratio_lt_one hfew))

/-- **Early decisions.**  For any number of neighbors: every ballot that misses votes decides
early correctly if and only if the number fits into `vote_count`. -/
theorem early_sound_iff (n : Nat) :
    (∀ ballot : Ballot, Counted ballot → ballot.voteCount.toNat < n → EarlySound ballot n) ↔
      n ≤ 255 := by
  constructor
  · intro h
    by_contra hn
    have hcounted : Counted unanimous := ⟨by decide, fun hd => Bool.noConfusion hd⟩
    exact unanimous_wraps (Nat.lt_of_not_le hn) (h unanimous hcounted (by
      show 0 < n
      omega))
  · intro hn ballot hb hmiss
    cases hc : ballot.completed with
    | true => exact early_sound_completed hc (hb.result hc)
    | false => exact early_sound_open hc hn (le_trans (Nat.le_add_right _ _) hb.votes) hmiss

/-- a ballot without votes among 256 neighbors cannot be approved any more when all say YES; and
a ballot that is finalised with PENDING ends neither way -/
theorem early_unsound :
    (unanimous.yesCount.toNat + unanimous.noCount.toNat ≤ unanimous.voteCount.toNat ∧
      unanimous.voteCount.toNat < 256 ∧ ¬ EarlySound unanimous 256) ∧
    ¬ EarlySound { unanimous with completed := true } 7 := by
  refine ⟨⟨by decide, by decide, unanimous_wraps (by decide)⟩, fun h => ?_⟩
  obtain ⟨votes, -, happ⟩ := h.mayApprove rfl
  obtain ⟨hdone, hresult, -⟩ := recordAll_frame { unanimous with completed := true } votes
  unfold evaluateBallot at happ
  rw [if_pos hdone, hresult] at happ
  cases happ

end Consensus
end EkKor
