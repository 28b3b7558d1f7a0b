import EkKor.Consensus.Table

/-!
# The life of a ballot

A ballot has no name of its own: ids repeat, and the slots move.  It is followed from slot to
slot.

* `moves`       the slot of a ballot after a call, `none` if the call removes it;
* `slotAfter`   the same for a list of calls;
* `slotAfter_induction`   what holds of a ballot in its first slot, and stays true in every call,
                holds wherever it is later;
* `findBallotIndex_moves`   the first ballot with an id stays the first.
-/

namespace EkKor
namespace Consensus
open Runs Positions

/-! ## what never changes -/

@[simp] theorem settle_id (b : Ballot) (v : Option VoteResult) : (settle b v).id = b.id := by
  cases v <;> rfl

@[simp] theorem settle_proposer (b : Ballot) (v : Option VoteResult) :
    (settle b v).proposer = b.proposer := by
  cases v <;> rfl

theorem heard_cases (cons : Consensus) (k : Nat) (b : Ballot) (c : Call) :
    heard cons k b c = b ∨ ∃ voterId ballotId value now, c = .onVote voterId ballotId value now ∧
      Records cons k b voterId ballotId value ∧ heard cons k b c = recordVote b voterId value := by
  cases c with
  | onVote voterId ballotId value now =>
    rw [heard]
    by_cases h : Records cons k b voterId ballotId value
    · rw [if_pos h]
      exact Or.inr ⟨voterId, ballotId, value, now, rfl, h, rfl⟩
    · rw [if_neg h]
      exact Or.inl rfl
  | _ => exact Or.inl rfl

@[simp] theorem touched_id (cons : Consensus) (k : Nat) (b : Ballot) (c : Call) :
    (touched cons k b c).id = b.id := by
  rw [touched, settle_id]
  rcases heard_cases cons k b c with h | ⟨_, _, _, _, -, -, h⟩ <;> rw [h]
  rfl

@[simp] theorem touched_proposer (cons : Consensus) (k : Nat) (b : Ballot) (c : Call) :
    (touched cons k b c).proposer = b.proposer := by
  rw [touched, settle_proposer]
  rcases heard_cases cons k b c with h | ⟨_, _, _, _, -, -, h⟩ <;> rw [h]
  rfl

variable {b : Ballot} {cons : Consensus} {k k' : Nat} {c : Call} {decision : Decision}
  {es : List Call}

theorem touched_open (h : (touched cons k b c).completed = false) :
    b.completed = false ∧ verdict cons k b c = none ∧ touched cons k b c = heard cons k b c := by
  unfold touched at h ⊢
  cases hv : verdict cons k b c with
  | some r =>
    rw [hv] at h
    exact Bool.noConfusion h
  | none =>
    rw [hv] at h
    refine ⟨?_, rfl, rfl⟩
    rcases heard_cases cons k b c with hh | ⟨_, _, _, _, -, hr, -⟩
    · rw [hh] at h
      exact h
    · exact hr.1.2.2.2

def numbers (cons : Consensus) : Call → Bool
  | .propose _ _ _ _ => decide (cons.ballots.length < maxBallots)
  | _ => false

theorem step_frame (decision : Decision) (cons : Consensus) (c : Call) :
    (step decision cons c).1.myId = cons.myId ∧ (step decision cons c).1.config = cons.config ∧
      (step decision cons c).1.nextBallotId
        = if numbers cons c then cons.nextBallotId + 1 else cons.nextBallotId := by
  cases c with
  | propose type data threshold now =>
    show (propose cons type data threshold now).2.1.myId = _ ∧
      (propose cons type data threshold now).2.1.config = _ ∧
      (propose cons type data threshold now).2.1.nextBallotId
        = if decide (cons.ballots.length < maxBallots) then _ else _
    by_cases h : cons.ballots.length < maxBallots
    · rw [propose_ok h, if_pos (decide_eq_true h)]
      exact ⟨rfl, rfl, rfl⟩
    · rw [propose_busy (Nat.le_of_not_lt h), decide_eq_false h]
      exact ⟨rfl, rfl, rfl⟩
  | inhibit ballotId now =>
    show (inhibit cons ballotId now).2.1.myId = _ ∧ (inhibit cons ballotId now).2.1.config = _ ∧
      (inhibit cons ballotId now).2.1.nextBallotId = cons.nextBallotId
    unfold inhibit
    split
    · exact ⟨rfl, rfl, rfl⟩
    · split
      · exact ⟨rfl, rfl, rfl⟩
      · dsimp only
        split <;> exact ⟨rfl, rfl, rfl⟩
  | onVote voterId ballotId value now =>
    show (onVote cons voterId ballotId value now).2.1.myId = _ ∧
      (onVote cons voterId ballotId value now).2.1.config = _ ∧
      (onVote cons voterId ballotId value now).2.1.nextBallotId = cons.nextBallotId
    unfold onVote
    split
    · exact ⟨rfl, rfl, rfl⟩
    · split
      · dsimp only
        split
        · exact ⟨rfl, rfl, rfl⟩
        · split <;> exact ⟨rfl, rfl, rfl⟩
      · split
        · exact ⟨rfl, rfl, rfl⟩
        · split_ifs <;> exact ⟨rfl, rfl, rfl⟩
  | onProposal proposerId ballotId type data threshold now =>
    show (onProposal cons decision proposerId ballotId type data threshold now).2.1.myId = _ ∧
      (onProposal cons decision proposerId ballotId type data threshold now).2.1.config = _ ∧
      (onProposal cons decision proposerId ballotId type data threshold now).2.1.nextBallotId
        = cons.nextBallotId
    by_cases h : Accepts cons proposerId ballotId now
    · obtain ⟨value, hv⟩ := onProposal_accepted h decision type data threshold
      rw [hv]
      exact ⟨rfl, rfl, rfl⟩
    · rw [onProposal_refused h]
      exact ⟨rfl, rfl, rfl⟩
  | tick now => exact ⟨rfl, rfl, rfl⟩

theorem run_myId (decision : Decision) (cons : Consensus) (es : List Call) :
    ((machine decision cons).run es).myId = cons.myId :=
  (machine decision cons).invariant (I := fun s => s.myId = cons.myId) rfl
    (fun s c hs => (step_frame decision s c).1.trans hs) es

/-! ## from slot to slot -/

def isOpen (b : Ballot) : Bool := !b.completed

theorem isOpen_iff : isOpen b = true ↔ b.completed = false := by
  unfold isOpen
  cases b.completed <;> decide

/-- where the call takes the ballot in slot `k` -/
def moves (cons : Consensus) (c : Call) (k : Nat) : Option Nat :=
  if cleans cons c then
    if ((updated cons c)[k]?).any isOpen then some (rank isOpen (updated cons c) k) else none
  else some k

/-- where the calls take the ballot in slot `k` of `cons` -/
def slotAfter (decision : Decision) (cons : Consensus) (k : Nat) : List Call → Option Nat
  | [] => some k
  | c :: es => (moves cons c k).bind fun k' => slotAfter decision (step decision cons c).1 k' es

theorem updated_getElem? (hb : cons.ballots[k]? = some b) (c : Call) :
    (updated cons c)[k]? = some (touched cons k b c) := by
  rw [updated, List.getElem?_mapIdx, hb]
  rfl

/-- a call that removes ballots leaves the ballot in slot `k` only if it is open -/
theorem moves_cleans (hb : cons.ballots[k]? = some b) (hm : moves cons c k = some k')
    (hc : cleans cons c = true) :
    (touched cons k b c).completed = false ∧ k' = rank isOpen (updated cons c) k := by
  rw [moves, if_pos hc, updated_getElem? hb] at hm
  split at hm
  next ho => exact ⟨isOpen_iff.mp ho, (Option.some.inj hm).symm⟩
  next => cases hm

theorem moves_stays (hm : moves cons c k = some k') (hc : cleans cons c = false) : k' = k := by
  rw [moves, hc, if_neg Bool.false_ne_true] at hm
  exact (Option.some.inj hm).symm

theorem step_moves (decision : Decision) (hb : cons.ballots[k]? = some b)
    (hm : moves cons c k = some k') :
    (step decision cons c).1.ballots[k']? = some (touched cons k b c) := by
  have hu := updated_getElem? hb c
  have hget : ∀ {l l' : List Ballot} {j : Nat} {a : Ballot}, l[j]? = some a →
      (l ++ l')[j]? = some a := fun h => by
    rw [List.getElem?_append_left (List.getElem?_eq_some_iff.mp h).1]
    exact h
  rw [step_ballots]
  by_cases hc : cleans cons c = true
  · obtain ⟨ho, rfl⟩ := moves_cleans hb hm hc
    rw [if_pos hc]
    exact hget (getElem?_filter_rank hu (isOpen_iff.mpr ho))
  · rw [Bool.not_eq_true] at hc
    rw [moves_stays hm hc, hc, if_neg Bool.false_ne_true]
    exact hget hu

theorem slotAfter_concat (decision : Decision) (cons : Consensus) (k : Nat) (es : List Call)
    (c : Call) : slotAfter decision cons k (es ++ [c])
      = (slotAfter decision cons k es).bind (moves ((machine decision cons).run es) c) := by
  induction es generalizing cons k with
  | nil =>
    show (moves cons c k).bind some = (some k).bind (moves cons c)
    cases h : moves cons c k with
    | none => exact h.symm
    | some k' => exact h.symm
  | cons e es ih =>
    show (moves cons e k).bind _ = ((moves cons e k).bind _).bind _
    cases moves cons e k with
    | none => rfl
    | some k' => exact ih (step decision cons e).1 k'

theorem slotAfter_inv (h : slotAfter decision cons k (es ++ [c]) = some k') :
    ∃ j, slotAfter decision cons k es = some j ∧
      moves ((machine decision cons).run es) c j = some k' := by
  rw [slotAfter_concat] at h
  exact Option.bind_eq_some_iff.mp h

/-- **What stays true of a ballot** in every call is true of it wherever it is. -/
theorem slotAfter_induction (hb : cons.ballots[k]? = some b) {I : List Call → Nat → Ballot → Prop}
    (h0 : I [] k b) (hstep : ∀ es c j j' a, slotAfter decision cons k es = some j → ((machine
    decision cons).run es).ballots[j]? = some a → moves ((machine decision cons).run es) c j = some
    j' → I es j a → I (es ++ [c]) j' (touched ((machine decision cons).run es) j a c))
    (h : slotAfter decision cons k es = some k') :
    ∃ b', ((machine decision cons).run es).ballots[k']? = some b' ∧ I es k' b' := by
  induction es using List.reverseRecOn generalizing k' with
  | nil =>
    rw [← Option.some.inj h]
    exact ⟨b, hb, h0⟩
  | append_singleton es c ih =>
    obtain ⟨j, hj, hm⟩ := slotAfter_inv h
    obtain ⟨a, ha, hI⟩ := ih hj
    refine ⟨_, ?_, hstep es c j k' a hj ha hm hI⟩
    rw [Machine.run_concat]
    exact step_moves decision ha hm

theorem slotAfter_ballot (hb : cons.ballots[k]? = some b)
    (h : slotAfter decision cons k es = some k') :
    ∃ b', ((machine decision cons).run es).ballots[k']? = some b' := by
  obtain ⟨b', hb', -⟩ := slotAfter_induction hb (I := fun _ _ _ => True) trivial
    (fun _ _ _ _ _ _ _ _ _ => trivial) h
  exact ⟨b', hb'⟩

/-- the ballot that `ekk_consensus_propose` stores -/
theorem propose_born {type : ProposalType} {data : UInt32} {threshold : Fixed} {now : TimeUs}
    {id : BallotId} (h : (propose cons type data threshold now).1 = .ok id) :
    id = cons.nextBallotId ∧
      (propose cons type data threshold now).2.1.ballots[cons.ballots.length]?
        = some (selfVote cons (newBallot cons id type cons.myId data threshold now)) ∧
      (propose cons type data threshold now).2.1.myId = cons.myId := by
  by_cases hl : cons.ballots.length < maxBallots
  · rw [propose_ok hl] at h ⊢
    obtain rfl := Except.ok.inj h
    exact ⟨rfl, List.getElem?_concat_length, rfl⟩
  · rw [propose_busy (Nat.le_of_not_lt hl)] at h
    cases h

/-! ## the first ballot with an id -/

theorem findBallotIndex_moves {id : BallotId} (h : findBallotIndex cons id = some k)
    (hm : moves cons c k = some k') : findBallotIndex (step decision cons c).1 id = some k' := by
  obtain ⟨b, hb, -⟩ := findBallotIndex_spec h
  have hu : (updated cons c).findIdx? (fun b => b.id == id) = some k := by
    have hmap : (updated cons c).map Ballot.id = cons.ballots.map Ballot.id := by
      apply List.ext_getElem?
      intro j
      rw [updated, List.getElem?_map, List.getElem?_map, List.getElem?_mapIdx]
      cases cons.ballots[j]? with
      | none => rfl
      | some a => exact congrArg some (touched_id cons j a c)
    have hidx : ∀ l : List Ballot, l.findIdx? (fun b => b.id == id)
        = (l.map Ballot.id).findIdx? (· == id) := fun l => by
      rw [List.findIdx?_map]
      rfl
    rw [hidx, hmap, ← hidx]
    exact h
  unfold findBallotIndex
  rw [step_ballots, List.findIdx?_append]
  by_cases hc : cleans cons c = true
  · obtain ⟨ho, rfl⟩ := moves_cleans hb hm hc
    rw [if_pos hc]
    rw [show cleanupCompletedBallots (updated cons c) = (updated cons c).filter isOpen from rfl,
      findIdx?_filter_rank hu (updated_getElem? hb c) (isOpen_iff.mpr ho)]
    rfl
  · rw [Bool.not_eq_true] at hc
    rw [moves_stays hm hc, hc, if_neg Bool.false_ne_true, hu]
    rfl

end Consensus
end EkKor
