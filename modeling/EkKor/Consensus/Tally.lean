import EkKor.Consensus.History
import EkKor.Lib.Quorum

/-!
# The tally of a ballot

A ballot is followed from the proposal on.  `cast` lists the YES, NO and ABSTAIN votes delivered
for its id, the vote of the proposer for itself first.

* `Exact`           the counters of a ballot count the first vote of every voter;
* `Fair`            the call records a vote exactly if its voter has not voted yet;
* `tally_exact_iff` the counters of a pending ballot were exact after every call if and only if
                    every call was fair;
* `tally_wrong`     voters share slots, also with the proposer, and a slot with an ABSTAIN vote
                    counts as empty.
-/

namespace EkKor
namespace Consensus
open Runs FirstVotes

/-! ## exact counters -/

/-- `vote_count`, `yes_count` and `no_count` are right for the votes `vs` -/
structure Exact (b : Ballot) (vs : List (ModuleId × VoteValue)) : Prop where
  voters : b.voteCount.toNat = (voters vs).card
  yes : b.yesCount.toNat = (firstVoters vs .yes).card
  no : b.noCount.toNat = (firstVoters vs .no).card
  bound : b.voteCount.toNat ≤ kNeighbors

theorem toNat_succ {n : UInt8} (h : n.toNat < 255) : (n + 1).toNat = n.toNat + 1 := by
  show (n.toNat + 1) % 256 = _
  omega

theorem recordVote_voteCount {b : Ballot} (hb : b.voteCount.toNat < kNeighbors) (m : ModuleId)
    (x : VoteValue) : (recordVote b m x).voteCount.toNat = b.voteCount.toNat + 1 :=
  toNat_succ (lt_trans hb (by decide))

namespace Exact
variable {b : Ballot} {vs : List (ModuleId × VoteValue)} {m : ModuleId} {x : VoteValue}

theorem again (h : Exact b vs) (hm : m ∈ FirstVotes.voters vs) : Exact b (vs ++ [(m, x)]) where
  voters := by rw [voters_again hm]; exact h.voters
  yes := by rw [firstVoters_again hm]; exact h.yes
  no := by rw [firstVoters_again hm]; exact h.no
  bound := h.bound

theorem record (h : Exact b vs) (hm : m ∉ FirstVotes.voters vs)
    (hb : b.voteCount.toNat < kNeighbors) : Exact (recordVote b m x) (vs ++ [(m, x)]) := by
  have hle : ∀ y, (firstVoters vs y).card < 255 := fun y =>
    lt_of_le_of_lt (Finset.card_le_card firstVoters_subset)
      (lt_trans (h.voters ▸ hb) (by decide))
  refine ⟨?_, ?_, ?_, ?_⟩
  · rw [recordVote_voteCount hb, card_voters_new hm, h.voters]
  · rw [card_firstVoters_new hm, ← h.yes]
    show (if x = .yes then b.yesCount + 1 else b.yesCount).toNat = _
    split
    · exact toNat_succ (h.yes ▸ hle .yes)
    · rfl
  · rw [card_firstVoters_new hm, ← h.no]
    show (if x = .no then b.noCount + 1 else b.noCount).toNat = _
    split
    · exact toNat_succ (h.no ▸ hle .no)
    · rfl
  · rw [recordVote_voteCount hb]
    exact hb

theorem record_iff (h : Exact b vs) (hb : b.voteCount.toNat < kNeighbors) :
    Exact (recordVote b m x) (vs ++ [(m, x)]) ↔ m ∉ FirstVotes.voters vs := by
  refine ⟨fun h' hm => ?_, fun hm => h.record hm hb⟩
  have hv := h'.voters
  rw [voters_again hm, recordVote_voteCount hb, h.voters] at hv
  omega

theorem skip_iff (h : Exact b vs) : Exact b (vs ++ [(m, x)]) ↔ m ∈ FirstVotes.voters vs := by
  refine ⟨fun h' => ?_, h.again⟩
  by_contra hm
  have hv := h'.voters
  rw [card_voters_new hm, h.voters] at hv
  omega

end Exact

/-! ## the votes delivered -/

/-- the vote for the ballot `id` that the call delivers -/
def Call.vote (id : BallotId) : Call → Option (ModuleId × VoteValue)
  | .onVote voterId ballotId value _ =>
    if ballotId = id ∧ voterId ≠ invalidModuleId ∧ value ≠ .inhibit then some (voterId, value)
    else none
  | _ => none

/-- all votes for the ballot `id` of `cons`; the proposer votes first, if it may -/
def cast (cons : Consensus) (id : BallotId) (es : List Call) : List (ModuleId × VoteValue) :=
  (if cons.config.allowSelfVote then [(cons.myId, .yes)] else []) ++ es.filterMap (Call.vote id)

theorem cast_concat (cons : Consensus) (id : BallotId) (es : List Call) (c : Call) :
    cast cons id (es ++ [c]) = cast cons id es ++ (Call.vote id c).toList := by
  unfold cast
  cases h : Call.vote id c <;> simp [h]

/-- the call records a vote for the ballot `b` in slot `k` exactly if its voter is not among the
voters of `vs` -/
def FairCall (cons : Consensus) (k : Nat) (b : Ballot) (vs : List (ModuleId × VoteValue)) :
    Call → Prop
  | .onVote voterId ballotId value _ => ballotId = b.id → voterId ≠ invalidModuleId →
      value ≠ .inhibit → (Records cons k b voterId ballotId value ↔ voterId ∉ voters vs)
  | _ => True

/-! ## one call -/

theorem early_none {b : Ballot} (hb : b.completed = false) (h : early b = none) :
    b.voteCount.toNat < kNeighbors := by
  by_contra hlt
  unfold early at h
  rw [if_pos (evaluateBallot_full_ne hb (Nat.le_of_not_lt hlt))] at h
  cases h

theorem touched_room {cons : Consensus} {k : Nat} {b : Ballot} {c : Call}
    (h : (touched cons k b c).completed = false) (hb : b.voteCount.toNat < kNeighbors) :
    (touched cons k b c).voteCount.toNat < kNeighbors := by
  obtain ⟨ho, hv, ht⟩ := touched_open h
  rw [ht]
  rcases heard_cases cons k b c with hh | ⟨voterId, ballotId, value, now, rfl, hr, hh⟩
  · rw [hh]
    exact hb
  · rw [hh]
    rw [verdict, if_neg hr.2.1, if_pos hr] at hv
    exact early_none ho hv

/-- **One call** keeps the counters of an open ballot exact if and only if it is fair. -/
theorem touched_exact_iff {cons : Consensus} {k : Nat} {b : Ballot} {c : Call}
    {vs : List (ModuleId × VoteValue)} (hb : cons.ballots[k]? = some b)
    (h : (touched cons k b c).completed = false) (hroom : b.voteCount.toNat < kNeighbors)
    (hex : Exact b vs) :
    Exact (touched cons k b c) (vs ++ (Call.vote b.id c).toList) ↔ FairCall cons k b vs c := by
  obtain ⟨ho, hv, ht⟩ := touched_open h
  rw [ht]
  cases c with
  | onVote voterId ballotId value now =>
    by_cases hc : ballotId = b.id ∧ voterId ≠ invalidModuleId ∧ value ≠ .inhibit
    · have hfair : FairCall cons k b vs (.onVote voterId ballotId value now) ↔
          (Records cons k b voterId ballotId value ↔ voterId ∉ voters vs) :=
        ⟨fun h => h hc.1 hc.2.1 hc.2.2, fun h _ _ _ => h⟩
      rw [hfair, Call.vote, if_pos hc, heard]
      by_cases hr : Records cons k b voterId ballotId value
      · rw [if_pos hr, Option.toList_some, hex.record_iff hroom]
        exact ⟨fun h => ⟨fun _ => h, fun _ => hr⟩, fun h => h.mp hr⟩
      · rw [if_neg hr, Option.toList_some, hex.skip_iff]
        exact ⟨fun h => ⟨fun h' => absurd h' hr, fun h' => absurd h h'⟩,
          fun h => not_not.mp fun h' => hr (h.mpr h')⟩
    · have hr : ¬ Records cons k b voterId ballotId value := fun hr => by
        obtain ⟨b', hb', hid⟩ := findBallotIndex_spec hr.1.2.2.1
        rw [← Option.some.inj (hb.symm.trans hb')] at hid
        exact hc ⟨hid.symm, hr.1.1, hr.2.1⟩
      rw [Call.vote, if_neg hc, heard, if_neg hr, Option.toList_none, List.append_nil]
      exact ⟨fun _ h1 h2 h3 => absurd ⟨h1, h2, h3⟩ hc, fun _ => hex⟩
  | _ =>
    refine ⟨fun _ => trivial, fun _ => ?_⟩
    show Exact b (vs ++ [])
    rw [List.append_nil]
    exact hex

/-! ## a proposal and what follows -/

section
variable (decision : Decision) (cons : Consensus) (type : ProposalType) (data : UInt32)
  (threshold : Fixed) (now : TimeUs)

/-- the counters of the ballot proposed by the call are exact after the calls `es` -/
def ExactAfter (id : BallotId) (es : List Call) : Prop :=
  ∃ k b, slotAfter decision (propose cons type data threshold now).2.1 cons.ballots.length es
      = some k ∧
    ((machine decision (propose cons type data threshold now).2.1).run es).ballots[k]? = some b ∧
    Exact b (cast cons id es)

/-- the call after `es` is fair to the ballot -/
def Fair (id : BallotId) (es : List Call) (c : Call) : Prop :=
  ∀ k b, slotAfter decision (propose cons type data threshold now).2.1 cons.ballots.length es
      = some k →
    ((machine decision (propose cons type data threshold now).2.1).run es).ballots[k]? = some b →
    FairCall ((machine decision (propose cons type data threshold now).2.1).run es) k b
      (cast cons id es) c

theorem selfVote_exact (id : BallotId) (b : Ballot) (hv : b.voteCount = 0) (hy : b.yesCount = 0)
    (hn : b.noCount = 0) : Exact (selfVote cons b) (cast cons id []) := by
  unfold selfVote cast
  by_cases h : cons.config.allowSelfVote = true
  · rw [if_pos h, if_pos h]
    have hnew : cons.myId ∉ voters ([] : List (ModuleId × VoteValue)) := by simp [voters]
    have hyes := card_firstVoters_new (x := VoteValue.yes) (y := .yes) hnew
    have hno := card_firstVoters_new (x := VoteValue.yes) (y := .no) hnew
    refine ⟨(card_voters_new hnew).symm, hyes.symm, ?_, (by decide : (1 : UInt8).toNat ≤ 7)⟩
    rw [hn]
    exact hno.symm
  · rw [if_neg h, if_neg h]
    exact ⟨by rw [hv]; rfl, by rw [hy]; rfl, by rw [hn]; rfl, by rw [hv]; decide⟩

theorem selfVote_room (b : Ballot) (hv : b.voteCount = 0) :
    (selfVote cons b).voteCount.toNat < kNeighbors := by
  unfold selfVote
  split
  · exact (by decide : (1 : UInt8).toNat < kNeighbors)
  · rw [hv]
    decide

theorem selfVote_id (b : Ballot) : (selfVote cons b).id = b.id := by
  unfold selfVote
  split <;> rfl

theorem proposed_life {id : BallotId} (hp : (propose cons type data threshold now).1 = .ok id)
    (es : List Call) {j : Nat} {a : Ballot}
    (hj : slotAfter decision (propose cons type data threshold now).2.1 cons.ballots.length es
      = some j)
    (ha : ((machine decision (propose cons type data threshold now).2.1).run es).ballots[j]?
      = some a) : a.id = id ∧ (a.completed = false → a.voteCount.toNat < kNeighbors) := by
  obtain ⟨-, hborn, -⟩ := propose_born hp
  obtain ⟨a', ha', hI⟩ := slotAfter_induction hborn
    (I := fun _ _ a => a.id = id ∧ (a.completed = false → a.voteCount.toNat < kNeighbors))
    ⟨selfVote_id cons _, fun _ => selfVote_room cons _ rfl⟩
    (fun es c j j' a _ _ _ hI => ⟨(touched_id _ j a c).trans hI.1,
      fun ho => touched_room ho (hI.2 (touched_open ho).1)⟩) hj
  rw [Option.some.inj (ha.symm.trans ha')]
  exact hI

/-- **Tally exactness.**  The ballot of a successful proposal, in any later state in which it is
pending: its counters were exact after every call since the proposal if and only if every call
was fair to it. -/
theorem tally_exact_iff {id : BallotId} (hp : (propose cons type data threshold now).1 = .ok id)
    (es : List Call) {k : Nat} {b : Ballot}
    (hk : slotAfter decision (propose cons type data threshold now).2.1 cons.ballots.length es
      = some k)
    (hb : ((machine decision (propose cons type data threshold now).2.1).run es).ballots[k]?
      = some b)
    (hpend : b.completed = false) :
    (∀ es', es' <+: es → ExactAfter decision cons type data threshold now id es') ↔
      EveryStep (Fair decision cons type data threshold now id) es := by
  obtain ⟨-, hborn, -⟩ := propose_born hp
  let M := machine decision (propose cons type data threshold now).2.1
  induction es using List.reverseRecOn generalizing k b with
  | nil =>
    refine ⟨fun _ => everyStep_nil _, fun _ es' hes' => ?_⟩
    rw [List.prefix_nil.mp hes']
    exact ⟨_, _, rfl, hborn, selfVote_exact cons id _ rfl rfl rfl⟩
  | append_singleton es c ih =>
    obtain ⟨j, hj, hm⟩ := slotAfter_inv hk
    obtain ⟨a, ha⟩ := slotAfter_ballot hborn hj
    have hba : b = touched (M.run es) j a c := by
      have hstep := step_moves decision ha hm
      rw [Machine.run_concat] at hb
      exact Option.some.inj (hb.symm.trans hstep)
    rw [hba] at hpend
    obtain ⟨hid, hroom⟩ := proposed_life decision cons type data threshold now hp es hj ha
    have hopen := (touched_open hpend).1
    have hih := ih hj ha hopen
    have hvote : cast cons id (es ++ [c]) = cast cons id es ++ (Call.vote a.id c).toList := by
      rw [cast_concat, hid]
    rw [everyStep_concat]
    constructor
    · intro h
      have hold : ∀ es', es' <+: es → ExactAfter decision cons type data threshold now id es' :=
        fun es' hes' => h es' (hes'.trans (List.prefix_append es [c]))
      refine ⟨hih.mp hold, fun j' a' hj' ha' => ?_⟩
      obtain rfl := Option.some.inj (hj.symm.trans hj')
      obtain rfl := Option.some.inj (ha.symm.trans ha')
      obtain ⟨i, a₁, hi, ha₁, hex⟩ := hold es (List.prefix_refl es)
      obtain rfl := Option.some.inj (hj.symm.trans hi)
      obtain rfl := Option.some.inj (ha.symm.trans ha₁)
      obtain ⟨i', b', hi', hb', hex'⟩ := h (es ++ [c]) (List.prefix_refl _)
      obtain rfl := Option.some.inj (hk.symm.trans hi')
      obtain rfl := Option.some.inj (hb.symm.trans hb')
      rw [hvote, hba] at hex'
      exact (touched_exact_iff ha hpend (hroom hopen) hex).mp hex'
    · rintro ⟨hsteps, hfair⟩ es' hes'
      have hold := hih.mpr hsteps
      rcases List.prefix_concat_iff.mp hes' with rfl | hpre
      · obtain ⟨i, a₁, hi, ha₁, hex⟩ := hold es (List.prefix_refl es)
        obtain rfl := Option.some.inj (hj.symm.trans hi)
        obtain rfl := Option.some.inj (ha.symm.trans ha₁)
        refine ⟨k, b, hk, hb, ?_⟩
        rw [hvote, hba]
        exact (touched_exact_iff ha hpend (hroom hopen) hex).mpr (hfair j a hj ha)
      · exact hold es' hpre

end

/-- module 1 with the default configuration asks for a majority; module 2 votes -/
theorem tally_exact_vote :
    (∀ es', es' <+: [.onVote 2 1 .yes 100] → ExactAfter none (fresh 1 Config.default) .modeChange 0
        32768 0 1 es') ↔
      EveryStep (Fair none (fresh 1 Config.default) .modeChange 0 32768 0 1)
        [.onVote 2 1 .yes 100] :=
  tally_exact_iff none (fresh 1 Config.default) .modeChange 0 32768 0 (by decide)
    [.onVote 2 1 .yes 100] (k := 0) (by decide) rfl (by decide)

/-- module 7 shares slot 0 with the vote of the proposer, so its vote is lost; a second ABSTAIN of
module 2 counts again.  Both ballots are pending. -/
theorem tally_wrong :
    (¬ ExactAfter none (fresh 1 Config.default) .modeChange 0 32768 0 1
        [.onVote 7 1 .yes 100] ∧
      getResult ((machine none (propose (fresh 1 Config.default) .modeChange 0 32768 0).2.1).run
        [.onVote 7 1 .yes 100]) 1 = .pending) ∧
    (¬ ExactAfter none (fresh 1 Config.default) .modeChange 0 32768 0 1
        [.onVote 2 1 .abstain 100, .onVote 2 1 .abstain 200] ∧
      getResult ((machine none (propose (fresh 1 Config.default) .modeChange 0 32768 0).2.1).run
        [.onVote 2 1 .abstain 100, .onVote 2 1 .abstain 200]) 1 = .pending) := by
  refine ⟨⟨?_, by decide⟩, ?_, by decide⟩
  · rintro ⟨k, b, hk, hb, hex⟩
    obtain rfl : k = 0 := Option.some.inj (hk.symm.trans (by decide))
    have hcount := congrArg (Option.map Ballot.voteCount) hb
    have hone : some (1 : UInt8) = some b.voteCount := hcount
    have hv := hex.voters
    rw [← Option.some.inj hone] at hv
    exact absurd hv (by decide)
  · rintro ⟨k, b, hk, hb, hex⟩
    obtain rfl : k = 0 := Option.some.inj (hk.symm.trans (by decide))
    have hcount := congrArg (Option.map Ballot.voteCount) hb
    have hthree : some (3 : UInt8) = some b.voteCount := hcount
    have hv := hex.voters
    rw [← Option.some.inj hthree] at hv
    exact absurd hv (by decide)

end Consensus
end EkKor
