import EkKor.Consensus.History
import Mathlib.Data.Finset.Card
import Mathlib.Data.Finset.Insert

/-!
# Inhibitions

An INHIBIT is accepted from the module itself or as a vote.  It is to hold for
`inhibit_duration`, unless four other ballots are inhibited in the meantime.

* `Call.inhibits`   the ballot whose INHIBIT the call accepts;
* `others`, `since` the other ballots that calls inhibit, all of them and since the last INHIBIT of
                    the ballot;
* `Keeps`           an INHIBIT vote finds room, an eviction drops an entry that is not needed any
                    more, and no vote approves an inhibited ballot;
* `Honoured`        while an INHIBIT is to hold, proposals of the ballot are refused and it is not
                    approved;
* `inhibited_length`    the list never has more than four entries;
* `inhibition_honoured` in a run that meets `Keeps` each INHIBIT is honoured;
* `inhibition_lost` runs in which it is not.
-/

namespace EkKor
namespace Consensus
open Runs List

/-! ## calls -/

def Call.time : Call → TimeUs
  | .propose _ _ _ now => now
  | .inhibit _ now => now
  | .onVote _ _ _ now => now
  | .onProposal _ _ _ _ _ now => now
  | .tick now => now

def InOrder (es : List Call) : Prop := (es.map Call.time).Pairwise (· ≤ ·)

instance (es : List Call) : Decidable (InOrder es) := inferInstanceAs (Decidable (List.Pairwise _ _))

def Call.inhibits : Call → Option BallotId
  | .inhibit ballotId _ => if ballotId ≠ invalidBallotId then some ballotId else none
  | .onVote voterId ballotId value _ =>
    if voterId ≠ invalidModuleId ∧ ballotId ≠ invalidBallotId ∧ value = .inhibit then some ballotId
    else none
  | _ => none

variable {ballotId : BallotId} {now : TimeUs} {c : Call}

theorem onVote_accepts_iff {voterId : ModuleId} {value : VoteValue} :
    Call.inhibits (.onVote voterId ballotId value now) = some ballotId ↔
      voterId ≠ invalidModuleId ∧ ballotId ≠ invalidBallotId ∧ value = .inhibit := by
  rw [Call.inhibits]
  split
  next h => exact iff_of_true rfl h
  next h => exact iff_of_false (fun h => nomatch h) h

def others (id : BallotId) (es : List Call) : Finset BallotId :=
  (es.filterMap Call.inhibits).toFinset.erase id

/-- the other ballots that are inhibited by the calls since the last INHIBIT of the ballot -/
def since (id : BallotId) (es : List Call) : Finset BallotId :=
  es.foldl (fun seen c =>
    match c.inhibits with
    | some other => if other = id then ∅ else insert other seen
    | none => seen) ∅

/-! ## the condition -/

def InTime (cons : Consensus) (now : TimeUs) : Prop :=
  now.toNat + cons.config.inhibitDuration.toNat < 2 ^ 64

instance (cons : Consensus) (now : TimeUs) : Decidable (InTime cons now) :=
  inferInstanceAs (Decidable (_ < _))

/-- the oldest entry can be dropped for `ballotId`: it has expired, a later entry for the same
ballot lasts as long, or its ballot is outnumbered -/
def Dispensable (pre : List Call) (ballotId : BallotId) (now : TimeUs) (oldest : Inhibition)
    (rest : List Inhibition) : Prop :=
  oldest.inhibitUntil ≤ now ∨
  (∃ e ∈ rest, e.ballotId = oldest.ballotId ∧ oldest.inhibitUntil ≤ e.inhibitUntil) ∨
  maxBallots ≤ (insert ballotId (since oldest.ballotId pre)).card

def FindsRoom (cons : Consensus) (ballotId : BallotId) (now : TimeUs) : Prop :=
  cons.inhibited.length < maxBallots ∨
  ∃ e ∈ cons.inhibited, e.ballotId = ballotId ∧
    now.toNat + cons.config.inhibitDuration.toNat ≤ e.inhibitUntil.toNat

def NotDecisive (cons : Consensus) (voterId : ModuleId) (ballotId : BallotId) (value : VoteValue)
    (now : TimeUs) : Prop :=
  isInhibited cons ballotId now = true → ∀ k b, cons.ballots[k]? = some b →
    Records cons k b voterId ballotId value →
    evaluateBallot (recordVote b voterId value) kNeighbors ≠ .approved

/-- what an engine asks of a call after the calls `pre` -/
def Keeps (pre : List Call) (cons : Consensus) : Call → Prop
  | .inhibit ballotId now => InTime cons now ∧
      (Unlisted cons ballotId → maxBallots ≤ cons.inhibited.length →
        ∀ oldest rest, cons.inhibited = oldest :: rest → Dispensable pre ballotId now oldest rest)
  | .onVote voterId ballotId value now =>
    if value = .inhibit then InTime cons now ∧ FindsRoom cons ballotId now
    else NotDecisive cons voterId ballotId value now
  | _ => True

/-! ## the property -/

section
variable (decision : Decision) (start : Consensus) (es : List Call)

/-- for the time of an accepted INHIBIT, while fewer than four other ballots are inhibited: a
proposal from another module is refused, and no ballot with the id is approved -/
def Honoured : Prop :=
  ∀ pre c mid, pre ++ c :: mid <+: es → ∀ id, c.inhibits = some id →
    (others id mid).card < maxBallots → ∀ now, (∀ e ∈ c :: mid, e.time ≤ now) →
    now.toNat < c.time.toNat + start.config.inhibitDuration.toNat →
    (∀ proposerId type data threshold, proposerId ≠ invalidModuleId → proposerId ≠ start.myId →
      (onProposal ((machine decision start).run (pre ++ c :: mid)) decision proposerId id type data
        threshold now).1 = .error .inhibited) ∧
    ∀ d, (pre ++ c :: mid) ++ [d] <+: es → d.time = now → ∀ slot b,
      Out.complete slot b .approved ∈
        (machine decision start).outs ((machine decision start).run (pre ++ c :: mid)) d →
      b.id ≠ id

end

/-! ## the list after a call -/

def inhibitedAfter (cons : Consensus) : Call → List Inhibition
  | .inhibit ballotId now =>
    if ballotId = invalidBallotId then cons.inhibited
    else
      match cons.inhibited.findIdx? fun e => e.ballotId == ballotId with
      | some i => cons.inhibited.modify i fun e =>
          { e with inhibitUntil := now + cons.config.inhibitDuration }
      | none => pushInhibition cons ballotId now
  | .onVote voterId ballotId value now =>
    if Call.inhibits (.onVote voterId ballotId value now) = some ballotId then
      addInhibition cons ballotId now
    else cons.inhibited
  | .tick now => cons.inhibited.filter fun e => decide (e.inhibitUntil > now)
  | _ => cons.inhibited

theorem onVote_inhibited (cons : Consensus) (voterId : ModuleId) (ballotId : BallotId)
    (value : VoteValue) (now : TimeUs) :
    (onVote cons voterId ballotId value now).2.1.inhibited
      = inhibitedAfter cons (.onVote voterId ballotId value now) := by
  rw [inhibitedAfter]
  unfold onVote
  by_cases h : voterId = invalidModuleId ∨ ballotId = invalidBallotId
  · rw [if_pos h, if_neg fun hh => h.elim (onVote_accepts_iff.mp hh).1 (onVote_accepts_iff.mp hh).2.1]
  · obtain ⟨hvoter, hballot⟩ := not_or.mp h
    rw [if_neg h]
    by_cases hval : value = .inhibit
    · rw [if_pos hval, if_pos (onVote_accepts_iff.mpr ⟨hvoter, hballot, hval⟩)]
      dsimp only
      split
      next => rfl
      next => split <;> rfl
    · rw [if_neg hval, if_neg fun hh => hval (onVote_accepts_iff.mp hh).2.2]
      split
      next => rfl
      next => split_ifs <;> rfl

theorem inhibit_inhibited (cons : Consensus) (ballotId : BallotId) (now : TimeUs) :
    (inhibit cons ballotId now).2.1.inhibited = inhibitedAfter cons (.inhibit ballotId now) := by
  rw [inhibitedAfter]
  unfold inhibit
  by_cases h : ballotId = invalidBallotId
  · rw [if_pos h, if_pos h]
  · rw [if_neg h, if_neg h]
    cases cons.inhibited.findIdx? fun e => e.ballotId == ballotId with
    | some i => rfl
    | none =>
      dsimp only
      split <;> rfl

/-- **The inhibition list after a call.** -/
theorem step_inhibited (decision : Decision) (cons : Consensus) (c : Call) :
    (step decision cons c).1.inhibited = inhibitedAfter cons c := by
  cases c with
  | propose type data threshold now =>
    show (propose cons type data threshold now).2.1.inhibited = cons.inhibited
    by_cases h : cons.ballots.length < maxBallots
    · rw [propose_ok h]
    · rw [propose_busy (Nat.le_of_not_lt h)]
  | inhibit ballotId now => exact inhibit_inhibited cons ballotId now
  | onVote voterId ballotId value now => exact onVote_inhibited cons voterId ballotId value now
  | onProposal proposerId ballotId type data threshold now =>
    show (onProposal cons decision proposerId ballotId type data threshold now).2.1.inhibited
      = cons.inhibited
    by_cases h : Accepts cons proposerId ballotId now
    · obtain ⟨value, hv⟩ := onProposal_accepted h decision type data threshold
      rw [hv]
    · rw [onProposal_refused h]
  | tick now => rfl

theorem inhibitedAfter_length {cons : Consensus} (h : cons.inhibited.length ≤ maxBallots)
    (c : Call) : (inhibitedAfter cons c).length ≤ maxBallots := by
  cases c with
  | propose type data threshold now => exact h
  | onProposal proposerId ballotId type data threshold now => exact h
  | tick now => exact le_trans (length_filter_le _ _) h
  | onVote voterId ballotId value now =>
    rw [inhibitedAfter]
    split
    next =>
      unfold addInhibition
      split
      next hroom =>
        rw [length_append, length_singleton]
        exact hroom
      next => exact h
    next => exact h
  | inhibit ballotId now =>
    rw [inhibitedAfter]
    split
    next => exact h
    next =>
      split
      next =>
        rw [length_modify]
        exact h
      next =>
        unfold pushInhibition
        rw [length_append, length_singleton]
        have hpos : 0 < maxBallots := by decide
        split
        next hfull =>
          rw [length_drop]
          omega
        next hroom => omega

/-- **The list never overflows.** -/
theorem inhibited_length (decision : Decision) (myId : ModuleId) (config : Config)
    (es : List Call) :
    ((machine decision (fresh myId config)).run es).inhibited.length ≤ maxBallots := by
  refine (machine decision (fresh myId config)).invariant
    (I := fun cons => cons.inhibited.length ≤ maxBallots) (Nat.zero_le _) (fun cons c h => ?_) es
  show (step decision cons c).1.inhibited.length ≤ maxBallots
  rw [step_inhibited]
  exact inhibitedAfter_length h c

/-! ## covered ballots -/

/-- an entry for the ballot lasts until `stop` -/
def Covered (cons : Consensus) (id : BallotId) (stop : Nat) : Prop :=
  ∃ e ∈ cons.inhibited, e.ballotId = id ∧ stop ≤ e.inhibitUntil.toNat

theorem Covered.isInhibited {cons : Consensus} {id : BallotId} {stop : Nat}
    (h : Covered cons id stop) (hnow : now.toNat < stop) : isInhibited cons id now = true := by
  obtain ⟨e, he, hid, huntil⟩ := h
  refine any_eq_true.mpr ⟨e, he, ?_⟩
  rw [hid, beq_self_eq_true, Bool.true_and, decide_eq_true_eq]
  exact UInt64.lt_iff_toNat_lt.mpr (lt_of_lt_of_le hnow huntil)

theorem InTime.toNat {cons : Consensus} (h : InTime cons now) :
    (now + cons.config.inhibitDuration).toNat = now.toNat + cons.config.inhibitDuration.toNat := by
  exact Nat.mod_eq_of_lt h

section
variable {pre : List Call} {cons : Consensus} {id : BallotId} {stop : Nat}

theorem mem_pushInhibition (ballotId : BallotId) (now : TimeUs) :
    ⟨ballotId, now + cons.config.inhibitDuration⟩ ∈ pushInhibition cons ballotId now :=
  mem_append_right _ (mem_singleton_self _)

theorem mem_modify {l : List Inhibition} {i : Nat} {f : Inhibition → Inhibition} {e : Inhibition}
    (h : e ∈ l) : e ∈ l.modify i f ∨ (l[i]? = some e ∧ f e ∈ l.modify i f) := by
  obtain ⟨j, hj⟩ := mem_iff_getElem?.mp h
  have hget : (l.modify i f)[j]? = some (if i = j then f e else e) := by
    rw [getElem?_modify, hj]
    split <;> rfl
  by_cases hij : i = j
  · rw [if_pos hij] at hget
    exact .inr ⟨hij ▸ hj, mem_of_getElem? hget⟩
  · rw [if_neg hij] at hget
    exact .inl (mem_of_getElem? hget)

theorem Keeps.covers (h : Keeps pre cons c) (hid : c.inhibits = some id) (decision : Decision) :
    Covered (step decision cons c).1 id
      (c.time.toNat + cons.config.inhibitDuration.toNat) := by
  unfold Covered
  rw [step_inhibited]
  cases c with
  | propose type data threshold now => cases hid
  | onProposal proposerId ballotId type data threshold now => cases hid
  | tick now => cases hid
  | inhibit ballotId now =>
    obtain ⟨htime, -⟩ := h
    rw [Call.inhibits] at hid
    split at hid
    next hvalid =>
      obtain rfl := Option.some.inj hid
      rw [inhibitedAfter, if_neg hvalid]
      split
      next i hi =>
        -- the first entry of the ballot gets the new end
        obtain ⟨hlt, hfound, -⟩ := findIdx?_eq_some_iff_getElem.mp hi
        refine ⟨{ cons.inhibited[i] with
          inhibitUntil := now + cons.config.inhibitDuration }, ?_, beq_iff_eq.mp hfound, ?_⟩
        · rcases mem_modify (i := i) (f := fun e : Inhibition =>
              { e with inhibitUntil := now + cons.config.inhibitDuration })
              (getElem_mem hlt) with hmem | ⟨-, hmem⟩
          · have hget : (cons.inhibited.modify i fun e =>
                { e with inhibitUntil := now + cons.config.inhibitDuration })[i]?
                = some { cons.inhibited[i] with
                    inhibitUntil := now + cons.config.inhibitDuration } := by
              rw [getElem?_modify, getElem?_eq_getElem hlt]
              simp
            exact mem_of_getElem? hget
          · exact hmem
        · exact ge_of_eq htime.toNat
      next => exact ⟨_, mem_pushInhibition ballotId now, rfl, ge_of_eq htime.toNat⟩
    next => cases hid
  | onVote voterId ballotId value now =>
    have haccept := hid
    rw [Call.inhibits] at hid
    split at hid
    next hvalid =>
      obtain rfl := Option.some.inj hid
      rw [Keeps, if_pos hvalid.2.2] at h
      obtain ⟨htime, hroom⟩ := h
      rw [inhibitedAfter, if_pos haccept]
      unfold addInhibition
      by_cases hlt : cons.inhibited.length < maxBallots
      · rw [if_pos hlt]
        exact ⟨_, mem_append_right _ (mem_singleton_self _), rfl, ge_of_eq htime.toNat⟩
      · rw [if_neg hlt]
        obtain ⟨e, he, heid, hlong⟩ := hroom.resolve_left hlt
        exact ⟨e, he, heid, hlong⟩
    next => cases hid

theorem Keeps.stays_covered (h : Keeps pre cons c) (hcov : Covered cons id stop)
    (htime : c.time.toNat < stop) (hlong : stop ≤ c.time.toNat + cons.config.inhibitDuration.toNat)
    (hfew : ∀ ballotId now, c = .inhibit ballotId now → ballotId ≠ invalidBallotId → Unlisted cons
    ballotId → (insert ballotId (since id pre)).card < maxBallots) (decision : Decision) :
    Covered (step decision cons c).1 id stop := by
  obtain ⟨e, he, hid, huntil⟩ := hcov
  unfold Covered
  rw [step_inhibited]
  cases c with
  | propose type data threshold now => exact ⟨e, he, hid, huntil⟩
  | onProposal proposerId ballotId type data threshold now => exact ⟨e, he, hid, huntil⟩
  | tick now =>
    refine ⟨e, mem_filter.mpr ⟨he, decide_eq_true ?_⟩, hid, huntil⟩
    exact UInt64.lt_iff_toNat_lt.mpr (lt_of_lt_of_le htime huntil)
  | onVote voterId ballotId value now =>
    rw [inhibitedAfter]
    split
    next =>
      unfold addInhibition
      split
      next => exact ⟨e, mem_append_left _ he, hid, huntil⟩
      next => exact ⟨e, he, hid, huntil⟩
    next => exact ⟨e, he, hid, huntil⟩
  | inhibit ballotId now =>
    obtain ⟨hintime, hdrop⟩ := h
    rw [inhibitedAfter]
    split
    next => exact ⟨e, he, hid, huntil⟩
    next hvalid =>
      split
      next i hi =>
        rcases mem_modify (i := i) (f := fun e : Inhibition =>
            { e with inhibitUntil := now + cons.config.inhibitDuration }) he with hmem | ⟨-, hmem⟩
        · exact ⟨e, hmem, hid, huntil⟩
        · refine ⟨_, hmem, hid, ?_⟩
          rw [hintime.toNat]
          exact hlong
      next hnone =>
        unfold pushInhibition
        split
        next hfull =>
          cases hlist : cons.inhibited with
          | nil =>
            rw [hlist] at he
            cases he
          | cons oldest rest =>
            rw [hlist] at he
            rcases mem_cons.mp he with rfl | hrest
            · -- the entry is the oldest one, so it is repeated or outnumbered
              rcases hdrop hnone hfull e rest hlist with hexpired | ⟨e', he', hid', hlast⟩ | hmany
              · have hle := UInt64.le_iff_toNat_le.mp hexpired
                exact absurd (lt_of_lt_of_le htime huntil) (Nat.not_lt.mpr hle)
              · exact ⟨e', mem_append_left _ he', hid'.trans hid,
                  le_trans huntil (UInt64.le_iff_toNat_le.mp hlast)⟩
              · rw [hid] at hmany
                exact absurd (hfew ballotId now rfl hvalid hnone) (Nat.not_lt.mpr hmany)
            · exact ⟨e, mem_append_left _ hrest, hid, huntil⟩
        next => exact ⟨e, mem_append_left _ he, hid, huntil⟩

end

/-! ## runs -/

theorem since_concat (id : BallotId) (es : List Call) (c : Call) :
    since id (es ++ [c]) = match c.inhibits with
      | some other => if other = id then ∅ else insert other (since id es)
      | none => since id es := by
  rw [since, foldl_concat]
  rfl

theorem others_concat (id : BallotId) (es : List Call) (c : Call) :
    others id (es ++ [c]) = match c.inhibits with
      | some other => if other = id then others id es else insert other (others id es)
      | none => others id es := by
  unfold others
  rw [filterMap_append, toFinset_append]
  cases h : c.inhibits with
  | none => simp [h]
  | some other =>
    have hone : [c].filterMap Call.inhibits = [other] := by simp [h]
    rw [hone]
    dsimp only
    split_ifs with heq
    · subst heq
      simp
    · ext x
      by_cases hx : x = other
      · subst hx
        simp [heq]
      · simp [hx]

theorem since_subset {id : BallotId} (hc : c.inhibits = some id) (pre mid : List Call) :
    since id (pre ++ c :: mid) ⊆ others id mid := by
  induction mid using List.reverseRecOn with
  | nil =>
    rw [since_concat, hc]
    dsimp only
    rw [if_pos rfl]
    exact Finset.empty_subset _
  | append_singleton mid d ih =>
    rw [show pre ++ c :: (mid ++ [d]) = (pre ++ c :: mid) ++ [d] by simp, since_concat,
      others_concat]
    cases d.inhibits with
    | none => exact ih
    | some other =>
      dsimp only
      split_ifs
      · exact Finset.empty_subset _
      · exact Finset.insert_subset_insert _ ih

theorem others_mono (id : BallotId) (mid : List Call) (d : Call) :
    others id mid ⊆ others id (mid ++ [d]) := by
  rw [others_concat]
  cases d.inhibits with
  | none => exact Finset.Subset.refl _
  | some other =>
    dsimp only
    split_ifs
    · exact Finset.Subset.refl _
    · exact Finset.subset_insert _ _

section
variable {decision : Decision} {start : Consensus}

theorem run_config (decision : Decision) (start : Consensus) (es : List Call) :
    ((machine decision start).run es).config = start.config :=
  (machine decision start).invariant (I := fun cons => cons.config = start.config) rfl
    (fun cons c h => (step_frame decision cons c).2.1.trans h) es

variable {pre : List Call}

theorem InOrder.le {mid : List Call} {d : Call} (h : InOrder (pre ++ c :: (mid ++ [d]))) :
    c.time ≤ d.time := by
  unfold InOrder at h
  rw [map_append, map_cons] at h
  refine (pairwise_cons.mp (pairwise_append.mp h).2.1).1 d.time ?_
  rw [map_append]
  exact mem_append_right _ (mem_singleton_self _)

theorem InOrder.initial {es es' : List Call} (h : InOrder es) (hp : es' <+: es) : InOrder es' :=
  h.sublist (hp.sublist.map _)

/-- **The entry stays** while fewer than four other ballots are inhibited. -/
theorem run_covered {mid : List Call} {id : BallotId} (hsteps : EveryStep (fun past d => Keeps past
    ((machine decision start).run past) d) (pre ++ c :: mid)) (horder : InOrder (pre ++ c :: mid))
    (hc : c.inhibits = some id) (hfew : (others id mid).card < maxBallots)
    (htimes : ∀ d ∈ mid, d.time.toNat < c.time.toNat + start.config.inhibitDuration.toNat) :
    Covered ((machine decision start).run (pre ++ c :: mid)) id
      (c.time.toNat + start.config.inhibitDuration.toNat) := by
  induction mid using List.reverseRecOn with
  | nil =>
    have hlast := ((everyStep_concat _ pre c).mp hsteps).2
    rw [Machine.run_concat, ← run_config decision start pre]
    exact hlast.covers hc decision
  | append_singleton mid d ih =>
    have hsplit : pre ++ c :: (mid ++ [d]) = (pre ++ c :: mid) ++ [d] := by simp
    have hle := horder.le
    rw [hsplit] at hsteps horder ⊢
    obtain ⟨hbefore, hlast⟩ := (everyStep_concat _ _ d).mp hsteps
    have hcov := ih hbefore (horder.initial (prefix_append _ _))
      (lt_of_le_of_lt (Finset.card_le_card (others_mono id mid d)) hfew)
      (fun d' hd' => htimes d' (mem_append_left _ hd'))
    rw [Machine.run_concat]
    refine hlast.stays_covered hcov (htimes d mem_concat_self) ?_ ?_ decision
    · rw [run_config decision start]
      exact Nat.add_le_add_right (UInt64.le_iff_toNat_le.mp hle) _
    · -- an INHIBIT of an unlisted ballot is one of another ballot
      rintro ballotId now rfl hvalid hnew
      have hne : ballotId ≠ id := by
        rintro rfl
        obtain ⟨e, he, hid, -⟩ := hcov
        have hmiss := findIdx?_eq_none_iff.mp hnew e he
        rw [hid, beq_self_eq_true] at hmiss
        cases hmiss
      have haccept : Call.inhibits (.inhibit ballotId now) = some ballotId := if_pos hvalid
      rw [others_concat, haccept] at hfew
      dsimp only at hfew
      rw [if_neg hne] at hfew
      exact lt_of_le_of_lt (Finset.card_le_card
        (Finset.insert_subset_insert ballotId (since_subset hc pre mid))) hfew

theorem onProposal_inhibited {cons : Consensus} {proposerId : ModuleId}
    (hp : proposerId ≠ invalidModuleId) (hb : ballotId ≠ invalidBallotId)
    (hself : proposerId ≠ cons.myId) (h : isInhibited cons ballotId now = true)
    (type : ProposalType) (data : UInt32) (threshold : Fixed) :
    (onProposal cons decision proposerId ballotId type data threshold now).1
      = .error .inhibited := by
  unfold onProposal
  rw [if_neg (not_or.mpr ⟨hp, hb⟩), if_neg hself, if_pos h]

theorem Keeps.not_approved {cons : Consensus} {d : Call} {id : BallotId} (h : Keeps pre cons d)
    (hin : isInhibited cons id d.time = true) {slot : Nat} {b : Ballot}
    (hb : Out.complete slot b .approved ∈ (step decision cons d).2) : b.id ≠ id := by
  rintro rfl
  obtain ⟨a, ha, hv, rfl⟩ := complete_mem_step.mp hb
  have hid : (finalizeBallot (heard cons slot a d) .approved).id = a.id := by
    show (heard cons slot a d).id = a.id
    rcases heard_cases cons slot a d with hh | ⟨_, _, _, _, -, -, hh⟩ <;> rw [hh]
    rfl
  rw [hid] at hin
  cases d with
  | propose type data threshold now => cases hv
  | onProposal proposerId ballotId type data threshold now => cases hv
  | inhibit ballotId now =>
    rw [verdict] at hv
    split at hv <;> cases hv
  | tick now =>
    have hexp : expiry cons now a = some .approved := hv
    have hin' : isInhibited cons a.id now = true := hin
    unfold expiry at hexp
    split at hexp
    next => cases hexp
    next =>
      cases hexp
  | onVote voterId ballotId value now =>
    rw [verdict] at hv
    split at hv
    next => split at hv <;> cases hv
    next hval =>
      rw [Keeps, if_neg hval] at h
      split at hv
      next hrec =>
        obtain ⟨a', ha', hid'⟩ := findBallotIndex_spec hrec.1.2.2.1
        rw [← Option.some.inj (ha.symm.trans ha')] at hid'
        have hin' : isInhibited cons ballotId now = true := hid' ▸ hin
        unfold early at hv
        split at hv
        next => exact h hin' slot a ha hrec (Option.some.inj hv)
        next => cases hv
      next => cases hv

end

theorem inhibits_valid {id : BallotId} (h : c.inhibits = some id) : id ≠ invalidBallotId := by
  cases c with
  | inhibit ballotId now =>
    rw [Call.inhibits] at h
    split at h
    next hvalid => exact Option.some.inj h ▸ hvalid
    next => cases h
  | onVote voterId ballotId value now =>
    rw [Call.inhibits] at h
    split at h
    next hvalid => exact Option.some.inj h ▸ hvalid.2.1
    next => cases h
  | _ => cases h

theorem run_honoured (decision : Decision) (start : Consensus) (es : List Call)
    (horder : InOrder es)
    (hsteps : EveryStep (fun past d => Keeps past ((machine decision start).run past) d) es) :
    Honoured decision start es := by
  intro pre c mid hpre id hc hfew now hnow hbefore
  have hcov := run_covered (hsteps.initial hpre) (horder.initial hpre) hc hfew fun d hd =>
    lt_of_le_of_lt (UInt64.le_iff_toNat_le.mp (hnow d (mem_cons_of_mem c hd))) hbefore
  have hin := hcov.isInhibited hbefore
  constructor
  · intro proposerId type data threshold hp hself
    refine onProposal_inhibited hp (inhibits_valid hc) ?_ hin type data threshold
    rw [run_myId]
    exact hself
  · rintro d hd rfl slot b hb
    exact Keeps.not_approved (hsteps _ d hd) hin hb

/-- **Inhibition.**  In every run of a fresh engine the list has at most four entries; and if the
clock does not go back and each call meets `Keeps`, then each accepted INHIBIT is honoured. -/
theorem inhibition_honoured (decision : Decision) (myId : ModuleId) (config : Config)
    (es : List Call) :
    (∀ pre, pre <+: es →
      ((machine decision (fresh myId config)).run pre).inhibited.length ≤ maxBallots) ∧
    (InOrder es →
      EveryStep (fun past d => Keeps past ((machine decision (fresh myId config)).run past) d) es →
      Honoured decision (fresh myId config) es) :=
  ⟨fun pre _ => inhibited_length decision myId config pre,
    run_honoured decision (fresh myId config) es⟩

/-- module 1 inhibits ballot 5 and hears an INHIBIT for ballot 6 -/
theorem inhibition_honoured_two : Honoured none (fresh 1 Config.default)
    [.inhibit 5 0, .onVote 2 6 .inhibit 10] := by
  refine (inhibition_honoured none 1 Config.default [.inhibit 5 0, .onVote 2 6 .inhibit 10]).2
    (by decide) ?_
  refine (everyStep_concat _ [Call.inhibit 5 0] _).mpr
    ⟨(everyStep_concat _ [] _).mpr ⟨everyStep_nil _, ?_⟩, ?_⟩
  · exact ⟨by decide, fun _ hfull => absurd hfull (by decide)⟩
  · exact ⟨by decide, .inl (by decide)⟩

/-- with a full list the INHIBIT vote for ballot 5 is accepted and dropped; three votes for ballot
6 fill the list, and the next INHIBIT drops ballot 5; the own ballot 1 is proposed while its id is
inhibited, and approved by a vote -/
theorem inhibition_lost :
    ¬ Honoured none (fresh 1 Config.default) [.inhibit 11 0, .inhibit 12 0, .inhibit 13 0,
      .inhibit 14 0, .onVote 2 5 .inhibit 10] ∧
    ¬ Honoured none (fresh 1 Config.default) [.onVote 2 5 .inhibit 0, .onVote 2 6 .inhibit 10,
      .onVote 3 6 .inhibit 10, .onVote 4 6 .inhibit 10, .inhibit 7 20] ∧
    ¬ Honoured none (fresh 1 Config.default) [.inhibit 1 0, .propose .modeChange 0 6554 10,
      .onVote 2 1 .yes 20] := by
  refine ⟨fun h => ?_, fun h => ?_, fun h => ?_⟩
  · have hrefused := (h [.inhibit 11 0, .inhibit 12 0, .inhibit 13 0, .inhibit 14 0]
      (.onVote 2 5 .inhibit 10) [] (prefix_refl _) 5 rfl (by decide) 20 (by decide)
      (by decide)).1 2 .modeChange 0 0 (by decide) (by decide)
    exact absurd hrefused (by decide)
  · have hrefused := (h [] (.onVote 2 5 .inhibit 0) [.onVote 2 6 .inhibit 10,
      .onVote 3 6 .inhibit 10, .onVote 4 6 .inhibit 10, .inhibit 7 20] (prefix_refl _) 5 rfl
      (by decide) 30 (by decide) (by decide)).1 2 .modeChange 0 0 (by decide) (by decide)
    exact absurd hrefused (by decide)
  · have hopen := (h [] (.inhibit 1 0) [.propose .modeChange 0 6554 10] (prefix_append _ _) 1
      rfl (by decide) 20 (by decide) (by decide)).2 (.onVote 2 1 .yes 20) (prefix_refl _) rfl
      0 _ (mem_singleton.mpr rfl)
    exact hopen rfl

end Consensus
end EkKor
