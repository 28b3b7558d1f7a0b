import EkKor.Consensus.History

/-!
# Results are final

* `fires`           how often the completion callback is called for a ballot;
* `ReportedOnce`, `Unchanged`, `Readable`   the callback comes once, the result stays, and
                    `ekk_consensus_get_result` does not forget it;
* `NoReinhibit`     `ekk_consensus_inhibit` does not meet a completed ballot;
* `NoLoss`          the tick finds no ballot to complete (what it completes it also removes);
* `results_final`   the first two hold in runs that meet `NoReinhibit`; after a ballot is completed
                    its result can be read as long as the calls meet `NoLoss`;
* `results_lost`    runs in which each of the three fails.
-/

namespace EkKor
namespace Consensus
open Runs

/-! ## the statements -/

/-- the calls of the completion callback for the ballot in slot `k` of `cons` during the calls -/
def fires (decision : Decision) (cons : Consensus) (k : Nat) : List Call → Nat
  | [] => 0
  | c :: es => ((step decision cons c).2.filter (Out.completesAt k)).length +
      ((moves cons c k).map fun k' => fires decision (step decision cons c).1 k' es).getD 0

section
variable (decision : Decision) (start : Consensus) (es : List Call)

def ReportedOnce : Prop :=
  ∀ pre post, pre ++ post = es → ∀ k b, ((machine decision start).run pre).ballots[k]? = some b →
    fires decision ((machine decision start).run pre) k post ≤ 1

def Unchanged : Prop :=
  ∀ pre post, pre ++ post = es → ∀ k b, ((machine decision start).run pre).ballots[k]? = some b →
    b.result ≠ .pending → ∀ k' b',
    slotAfter decision ((machine decision start).run pre) k post = some k' →
    ((machine decision ((machine decision start).run pre)).run post).ballots[k']? = some b' →
    b'.result = b.result

/-- the calls `mid` do not reuse the id of a ballot of `cons` -/
def NotReused (cons : Consensus) (id : BallotId) (mid : List Call) : Prop :=
  EveryStep (fun past c => ∀ b ∈ born ((machine decision cons).run past) c, b.id ≠ id) mid

/-- a ballot that the call `c` after `pre` completes can be read after the calls `mid` -/
def ReadableAfter (pre : List Call) (c : Call) (mid : List Call) : Prop :=
  ∀ k b, ((machine decision start).run pre).ballots[k]? = some b →
    (∃ b' r, Out.complete k b' r ∈ (step decision ((machine decision start).run pre) c).2) →
    NotReused decision (step decision ((machine decision start).run pre) c).1 b.id mid →
    getResult ((machine decision ((machine decision start).run pre)).run (c :: mid)) b.id ≠ .pending

def Readable : Prop :=
  ∀ pre c mid, pre ++ c :: mid = es → ReadableAfter decision start pre c mid

end

/-- `ekk_consensus_inhibit` does not finalise a completed ballot again -/
def NoReinhibit (cons : Consensus) : Call → Prop
  | .inhibit ballotId _ => ∀ k b, Cancels cons k ballotId → cons.ballots[k]? = some b →
      b.completed = false
  | _ => True

def NoLoss (cons : Consensus) : Call → Prop
  | .tick now => ∀ b ∈ cons.ballots, b.completed = false →
      isInhibited cons b.id now = false ∧ ¬ now ≥ b.deadline
  | _ => True

/-! ## one call -/

variable {cons : Consensus} {now : TimeUs} {b : Ballot} {r : VoteResult} {k : Nat} {c : Call}

theorem expiry_completed (h : b.completed = true) : expiry cons now b = none := by
  unfold expiry
  rw [if_pos h]

theorem early_ne_pending (h : early b = some r) : r ≠ .pending := by
  unfold early at h
  split at h
  next hne =>
    rw [← Option.some.inj h]
    exact hne
  next => cases h

theorem expiry_ne_pending (h : expiry cons now b = some r) : r ≠ .pending := by
  unfold expiry at h
  split at h
  next => cases h
  next =>
    split at h
    next =>
      rw [← Option.some.inj h]
      exact VoteResult.noConfusion
    next =>
      split at h
      next =>
        rw [← Option.some.inj h]
        split
        next => exact VoteResult.noConfusion
        next hne => exact hne
      next => cases h

theorem verdict_ne_pending (h : verdict cons k b c = some r) : r ≠ .pending := by
  cases c with
  | propose type data threshold now => cases h
  | onProposal proposerId ballotId type data threshold now => cases h
  | tick now => exact expiry_ne_pending h
  | inhibit ballotId now =>
    rw [verdict] at h
    split at h
    next =>
      rw [← Option.some.inj h]
      exact VoteResult.noConfusion
    next => cases h
  | onVote voterId ballotId value now =>
    rw [verdict] at h
    split at h
    next =>
      split at h
      next =>
        rw [← Option.some.inj h]
        exact VoteResult.noConfusion
      next => cases h
    next =>
      split at h
      next => exact early_ne_pending h
      next => cases h

theorem heard_completed (h : b.completed = true) (c : Call) : heard cons k b c = b := by
  rcases heard_cases cons k b c with hh | ⟨_, _, _, _, -, hr, -⟩
  · exact hh
  · exact Bool.noConfusion (h.symm.trans hr.1.2.2.2)

theorem verdict_completed (hb : cons.ballots[k]? = some b) (h : b.completed = true)
    (hc : NoReinhibit cons c) : verdict cons k b c = none := by
  cases c with
  | propose type data threshold now => rfl
  | onProposal proposerId ballotId type data threshold now => rfl
  | tick now => exact expiry_completed h
  | inhibit ballotId now =>
    exact if_neg fun hcan => Bool.noConfusion (h.symm.trans (hc k b hcan hb))
  | onVote voterId ballotId value now =>
    exact (onVote_idle (fun hr => Bool.noConfusion (h.symm.trans hr.2.2.2)) value now).2

theorem touched_result (h : b.completed = true) (hr : b.result ≠ .pending) :
    (touched cons k b c).completed = true ∧ (touched cons k b c).result ≠ .pending := by
  rw [touched, heard_completed h]
  cases hv : verdict cons k b c with
  | none => exact ⟨h, hr⟩
  | some r => exact ⟨rfl, verdict_ne_pending hv⟩

theorem completion_length (k : Nat) (b : Ballot) (v : Option VoteResult) :
    (completion k b v).length = if v = none then 0 else 1 := by
  cases v <;> rfl

/-! ## reported once, unchanged -/

theorem fires_le (decision : Decision) (cons : Consensus) (es : List Call)
    (hes : EveryStep (fun pre c => NoReinhibit ((machine decision cons).run pre) c) es)
    (hb : cons.ballots[k]? = some b) :
    fires decision cons k es ≤ 1 ∧ (b.completed = true → fires decision cons k es = 0) := by
  induction es generalizing cons k b with
  | nil => exact ⟨Nat.zero_le 1, fun _ => rfl⟩
  | cons c es ih =>
    obtain ⟨hc, hrest⟩ := (everyStep_cons _ c es).mp hes
    have hcall : ((step decision cons c).2.filter (Out.completesAt k)).length
        = if verdict cons k b c = none then 0 else 1 := by
      rw [step_completesAt, reported, hb, Option.elim_some, completion_length]
    have hlater : ((moves cons c k).map fun k' =>
          fires decision (step decision cons c).1 k' es).getD 0 ≤ 1 ∧
        ((touched cons k b c).completed = true → ((moves cons c k).map fun k' =>
          fires decision (step decision cons c).1 k' es).getD 0 = 0) := by
      cases hm : moves cons c k with
      | none => exact ⟨Nat.zero_le 1, fun _ => rfl⟩
      | some k' => exact ih (step decision cons c).1 hrest (step_moves decision hb hm)
    unfold fires
    rw [hcall]
    cases hv : verdict cons k b c with
    | none =>
      rw [if_pos rfl, Nat.zero_add]
      refine ⟨hlater.1, fun hd => hlater.2 ?_⟩
      rw [touched, hv, heard_completed hd]
      exact hd
    | some r =>
      have hdone : (touched cons k b c).completed = true := by
        rw [touched, hv]
        rfl
      rw [if_neg (Option.some_ne_none r), hlater.2 hdone]
      refine ⟨Nat.le_refl 1, fun hd => ?_⟩
      rw [verdict_completed hb hd hc] at hv
      cases hv

theorem completed_stays (decision : Decision) (cons : Consensus) (es : List Call)
    (hes : EveryStep (fun pre c => NoReinhibit ((machine decision cons).run pre) c) es)
    (hb : cons.ballots[k]? = some b) (hd : b.completed = true) {k' : Nat} {b' : Ballot}
    (hk : slotAfter decision cons k es = some k')
    (hb' : ((machine decision cons).run es).ballots[k']? = some b') : b' = b := by
  induction es using List.reverseRecOn generalizing k' b' with
  | nil =>
    rw [← Option.some.inj hk] at hb'
    exact Option.some.inj (hb'.symm.trans hb)
  | append_singleton es c ih =>
    obtain ⟨hold, hc⟩ := (everyStep_concat _ es c).mp hes
    obtain ⟨j, hj, hm⟩ := slotAfter_inv hk
    obtain ⟨a, ha⟩ := slotAfter_ballot hb hj
    have hab := ih hold hj ha
    rw [Machine.run_concat] at hb'
    have hstep := Option.some.inj (hb'.symm.trans (step_moves decision ha hm))
    rw [hstep, touched_idle (by rw [hab]; exact heard_completed hd c)
      (verdict_completed ha (by rw [hab]; exact hd) hc), hab]

def Settled (cons : Consensus) : Prop :=
  ∀ b ∈ cons.ballots, b.completed = true ↔ b.result ≠ .pending

theorem touched_settled (c : Call) (h : b.completed = true ↔ b.result ≠ .pending) :
    (touched cons k b c).completed = true ↔ (touched cons k b c).result ≠ .pending := by
  unfold touched
  cases hv : verdict cons k b c with
  | some r => exact ⟨fun _ => verdict_ne_pending hv, fun _ => rfl⟩
  | none =>
    rcases heard_cases cons k b c with hh | ⟨_, _, _, _, -, -, hh⟩ <;> rw [hh] <;> exact h

theorem born_settled (h : b ∈ born cons c) : b.completed = true ↔ b.result ≠ .pending := by
  have hopen : b.completed = false ∧ b.result = .pending := by
    cases c with
    | propose type data threshold now =>
      rw [born] at h
      split at h
      next =>
        rw [List.mem_singleton.mp h]
        unfold selfVote
        split <;> exact ⟨rfl, rfl⟩
      next => cases h
    | onProposal proposerId ballotId type data threshold now =>
      rw [born] at h
      split at h
      next =>
        rw [List.mem_singleton.mp h]
        exact ⟨rfl, rfl⟩
      next => cases h
    | _ => cases h
  rw [hopen.1, hopen.2]
  exact ⟨fun h => Bool.noConfusion h, fun h => absurd rfl h⟩

theorem run_settled (decision : Decision) (myId : ModuleId) (config : Config) (es : List Call) :
    Settled ((machine decision (fresh myId config)).run es) := by
  refine (machine decision (fresh myId config)).invariant (I := Settled)
    (fun b hb => nomatch hb) ?_ es
  exact fun cons c hs => step_ballots_all hs (fun k b => touched_settled c) fun b => born_settled

/-! ## readable -/

theorem NoLoss.expiry_none (h : NoLoss cons (.tick now)) (hb : b ∈ cons.ballots) :
    expiry cons now b = none := by
  cases hc : b.completed with
  | true => exact expiry_completed hc
  | false =>
    obtain ⟨h1, h2⟩ := h b hb hc
    unfold expiry
    rw [hc, h1, if_neg Bool.false_ne_true, if_neg Bool.false_ne_true, if_neg h2]

/-- a call that meets `NoLoss` removes no ballot -/
theorem NoLoss.moves (h : NoLoss cons c) (k : Nat) : moves cons c k = some k := by
  have hclean : cleans cons c = false := by
    cases c with
    | tick now =>
      have hzero : completedCount cons now = 0 :=
        List.countP_eq_zero.mpr fun b hb => by rw [h.expiry_none hb]; exact Bool.false_ne_true
      rw [cleans, hzero]
      rfl
    | _ => rfl
  unfold Consensus.moves
  rw [hclean, if_neg Bool.false_ne_true]

theorem NoLoss.found (h : NoLoss cons c) (hb : cons.ballots[k]? = some b)
    (hv : verdict cons k b c = some r) :
    findBallotIndex cons b.id = some k ∧ b.id ≠ invalidBallotId := by
  have hid : ∀ {id}, findBallotIndex cons id = some k → id = b.id := fun hf => by
    obtain ⟨b', hb', he⟩ := findBallotIndex_spec hf
    rw [Option.some.inj (hb.symm.trans hb')]
    exact he.symm
  cases c with
  | propose type data threshold now => cases hv
  | onProposal proposerId ballotId type data threshold now => cases hv
  | tick now =>
    have hv' : expiry cons now b = some r := hv
    rw [h.expiry_none (List.mem_of_getElem? hb)] at hv'
    cases hv'
  | inhibit ballotId now =>
    rw [verdict] at hv
    split at hv
    next hc =>
      rw [← hid hc.2.2]
      exact ⟨hc.2.2, hc.1⟩
    next => cases hv
  | onVote voterId ballotId value now =>
    by_cases hr : Reaches cons k b voterId ballotId
    · rw [← hid hr.2.2.1]
      exact ⟨hr.2.2.1, hr.2.1⟩
    · rw [(onVote_idle hr value now).2] at hv
      cases hv

theorem readable_after (decision : Decision) (cons : Consensus) (es : List Call)
    (hes : EveryStep (fun pre c => NoLoss ((machine decision cons).run pre) c) es) {id : BallotId}
    (hid : id ≠ invalidBallotId) (hf : findBallotIndex cons id = some k)
    (hb : cons.ballots[k]? = some b) (hd : b.completed = true) (hr : b.result ≠ .pending) :
    getResult ((machine decision cons).run es) id ≠ .pending := by
  have hlife : ∃ b', findBallotIndex ((machine decision cons).run es) id = some k ∧
      ((machine decision cons).run es).ballots[k]? = some b' ∧ b'.completed = true ∧
      b'.result ≠ .pending := by
    refine history_induction (P := fun pre c => NoLoss ((machine decision cons).run pre) c)
      (I := fun es => ∃ b', findBallotIndex ((machine decision cons).run es) id = some k ∧
        ((machine decision cons).run es).ballots[k]? = some b' ∧ b'.completed = true ∧
        b'.result ≠ .pending) ⟨b, hf, hb, hd, hr⟩ ?_ es hes
    rintro es c ⟨a, hfa, ha, hda, hra⟩ hc
    rw [Machine.run_concat]
    exact ⟨_, findBallotIndex_moves hfa (hc.moves k), step_moves decision ha (hc.moves k),
      touched_result hda hra⟩
  obtain ⟨b', hf', hb', -, hr'⟩ := hlife
  unfold getResult
  rw [if_neg hid, findBallot_eq_some.mpr ⟨hf', hb'⟩]
  exact hr'

/-! ## runs -/

theorem run_suffix {decision : Decision} {start : Consensus} {P : Consensus → Call → Prop}
    {pre post : List Call}
    (h : EveryStep (fun past c => P ((machine decision start).run past) c) (pre ++ post)) :
    EveryStep (fun past c => P ((machine decision ((machine decision start).run pre)).run past) c)
      post :=
  h.suffix.mono fun past c hc => by
    rw [Machine.run_append] at hc
    exact hc

/-- **Results are final.**  In every run of a fresh engine: if `ekk_consensus_inhibit` never meets
a completed ballot, then the completion callback comes at most once for each ballot and a result
never changes; and a completed ballot can be read as long as, from the completing call on, no tick
finds a ballot to complete. -/
theorem results_final (decision : Decision) (myId : ModuleId) (config : Config)
    (es : List Call) :
    (EveryStep (fun pre c =>
        NoReinhibit ((machine decision (fresh myId config)).run pre) c) es →
      ReportedOnce decision (fresh myId config) es ∧ Unchanged decision (fresh myId config) es) ∧
    ∀ pre c mid, pre ++ c :: mid = es →
      EveryStep (fun past c' => NoLoss ((machine decision
        ((machine decision (fresh myId config)).run pre)).run past) c') (c :: mid) →
      ReadableAfter decision (fresh myId config) pre c mid := by
  refine ⟨fun hes => ⟨?_, ?_⟩, ?_⟩
  · rintro pre post rfl k b hb
    exact (fires_le decision _ post (run_suffix hes) hb).1
  · rintro pre post rfl k b hb hr k' b' hk hb'
    have hd := (run_settled decision myId config pre b (List.mem_of_getElem? hb)).mpr hr
    rw [completed_stays decision _ post (run_suffix hes) hb hd hk hb']
  · rintro pre c mid - hloss k b hb ⟨b', r, hmem⟩ -
    obtain ⟨a, ha, hv, -⟩ := complete_mem_step.mp hmem
    obtain rfl := Option.some.inj (hb.symm.trans ha)
    obtain ⟨hc, hrest⟩ := (everyStep_cons _ c mid).mp hloss
    obtain ⟨hf, hid⟩ := NoLoss.found hc hb hv
    have hstep := step_moves decision hb (NoLoss.moves hc k)
    refine readable_after decision _ mid hrest hid (findBallotIndex_moves hf (NoLoss.moves hc k))
      hstep ?_ ?_
    · rw [touched, hv]
      rfl
    · rw [touched, hv]
      exact verdict_ne_pending hv

/-- a run without inhibitions: both parts -/
theorem results_final_vote :
    ReportedOnce none (fresh 1 Config.default)
        ([] ++ [.propose .shutdown 0 6554 0] ++ [.onVote 2 1 .yes 100]) ∧
      ReadableAfter none (fresh 1 Config.default) [.propose .shutdown 0 6554 0]
        (.onVote 2 1 .yes 100) [] := by
  have h := results_final none 1 Config.default
    ([] ++ [.propose .shutdown 0 6554 0] ++ [.onVote 2 1 .yes 100])
  refine ⟨(h.1 ?_).1, h.2 _ _ _ rfl ?_⟩
  · rw [everyStep_concat, everyStep_concat]
    exact ⟨⟨everyStep_nil _, trivial⟩, trivial⟩
  · exact (everyStep_cons _ _ _).mpr ⟨trivial, everyStep_nil _⟩

/-- the tick at the deadline removes the ballot it completes; `ekk_consensus_inhibit` cancels an
approved ballot and reports it again -/
theorem results_lost :
    ¬ Readable none (fresh 1 Config.default) [.propose .shutdown 0 43909 0, .tick 50000] ∧
    ¬ ReportedOnce none (fresh 1 Config.default)
      [.propose .shutdown 0 6554 0, .onVote 2 1 .yes 100, .inhibit 1 200] ∧
    ¬ Unchanged none (fresh 1 Config.default)
      [.propose .shutdown 0 6554 0, .onVote 2 1 .yes 100, .inhibit 1 200] := by
  refine ⟨fun h => ?_, fun h => ?_, fun h => ?_⟩
  · exact h [.propose .shutdown 0 43909 0] (.tick 50000) [] rfl 0 _ rfl
      ⟨_, _, List.mem_singleton.mpr rfl⟩ (everyStep_nil _) (by decide)
  · have hf := h [.propose .shutdown 0 6554 0] [.onVote 2 1 .yes 100, .inhibit 1 200] rfl 0 _ rfl
    exact absurd hf (by decide)
  · have hr := h [.propose .shutdown 0 6554 0, .onVote 2 1 .yes 100] [.inhibit 1 200] rfl 0 _ rfl
      (by decide) 0 _ (by decide) rfl
    exact absurd hr (by decide)

end Consensus
end EkKor
