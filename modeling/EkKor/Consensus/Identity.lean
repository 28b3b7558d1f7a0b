import EkKor.Consensus.History

/-!
# Ballots of different modules

Two modules propose, a third receives both proposals.

* `proposals`         the successful proposals of a run;
* `Recorded`          a proposal got a slot and one vote;
* `Own`               the ballot in a slot is the one of that proposal, `ekk_consensus_get_result`
                      reads it, and calls for other ids do not touch it;
* `NoWrap`            no proposal is made when the counter has come round to 0;
* `proposals_apart`   with two different ids, both new to the third module, nothing is confused;
* `proposals_confused`   the first proposals of any two modules have the same id.
-/

namespace EkKor
namespace Consensus
open Runs

/-! ## the counter -/

/-! ## one proposal at the third module -/

section
variable (cons : Consensus) (decision : Decision) (proposerId : ModuleId) (ballotId : BallotId)
  (type : ProposalType) (data : UInt32) (threshold : Fixed) (now : TimeUs)

/-- the proposal gets the next slot, and its proposer one vote -/
structure Recorded : Prop where
  ok : (onProposal cons decision proposerId ballotId type data threshold now).1 = .ok ()
  stored : (onProposal cons decision proposerId ballotId type data threshold now).2.1.ballots
    = cons.ballots ++ [newBallot cons ballotId type proposerId data threshold now]
  voted : ∃ value timestamp,
    (onProposal cons decision proposerId ballotId type data threshold now).2.2
      = [.sendVote proposerId cons.myId ballotId value timestamp]

variable {cons proposerId ballotId now}

theorem Accepts.recorded (h : Accepts cons proposerId ballotId now) :
    Recorded cons decision proposerId ballotId type data threshold now := by
  obtain ⟨value, hv⟩ := onProposal_accepted h decision type data threshold
  refine ⟨?_, ?_, ?_⟩ <;> rw [hv]
  exact ⟨value, _, rfl⟩

end

/-! ## one ballot among others -/

/-- the calls for the id `a` neither read nor change the ballot `b` in slot `k` -/
structure Untouched (cons : Consensus) (a : BallotId) (k : Nat) (b : Ballot) : Prop where
  read : findBallotIndex cons a ≠ some k
  vote : ∀ voterId value now, touched cons k b (.onVote voterId a value now) = b
  inhibit : ∀ now, touched cons k b (.inhibit a now) = b

/-- the ballot `b` in slot `k` is the one of the proposal `id` of `proposerId`: its result is the
result of `id`, and calls for other ids do not touch it -/
structure Own (cons : Consensus) (id : BallotId) (proposerId : ModuleId) (k : Nat) (b : Ballot) :
    Prop where
  named : b.id = id
  proposer : b.proposer = proposerId
  result : getResult cons id = b.result
  alone : ∀ a, a ≠ id → Untouched cons a k b

theorem untouched_of_ne {cons : Consensus} {k : Nat} {b : Ballot} (hb : cons.ballots[k]? = some b)
    {a : BallotId} (ha : a ≠ b.id) : Untouched cons a k b := by
  have hne : findBallotIndex cons a ≠ some k := fun h => by
    obtain ⟨b', hb', hid⟩ := findBallotIndex_spec h
    rw [← Option.some.inj (hb.symm.trans hb')] at hid
    exact ha hid.symm
  exact ⟨hne, fun voterId value now => onVote_untouched (fun h => hne h.2.2.1) value now,
    fun now => touched_idle rfl (inhibit_idle (fun h => hne h.2.2) now)⟩

/-- **A recorded proposal keeps its ballot**: wherever the ballot is later, it is the one that the
calls for its id find, and no other call finds it. -/
theorem Accepts.own {cons : Consensus} {proposerId : ModuleId} {ballotId : BallotId}
    {now : TimeUs} (h : Accepts cons proposerId ballotId now) (decision : Decision)
    (type : ProposalType) (data : UInt32) (threshold : Fixed) (es : List Call) {k : Nat}
    {b : Ballot}
    (hk : slotAfter decision
      (onProposal cons decision proposerId ballotId type data threshold now).2.1
      cons.ballots.length es = some k)
    (hb : ((machine decision (onProposal cons decision proposerId ballotId type data threshold
      now).2.1).run es).ballots[k]? = some b) :
    Own ((machine decision
      (onProposal cons decision proposerId ballotId type data threshold now).2.1).run es)
      ballotId proposerId k b := by
  have hrec := h.recorded decision type data threshold
  have hborn : (onProposal cons decision proposerId ballotId type data threshold
      now).2.1.ballots[cons.ballots.length]?
      = some (newBallot cons ballotId type proposerId data threshold now) := by
    rw [hrec.stored]
    exact List.getElem?_concat_length
  have hfirst : findBallotIndex
      (onProposal cons decision proposerId ballotId type data threshold now).2.1 ballotId
      = some cons.ballots.length := by
    have hnone : cons.ballots.findIdx? (fun b => b.id == ballotId) = none := h.2.2.2.2.1
    unfold findBallotIndex
    rw [hrec.stored, List.findIdx?_append, hnone]
    simp [newBallot]
  obtain ⟨b', hb', hid, hprop, hfound⟩ := slotAfter_induction hborn
    (I := fun es k b => b.id = ballotId ∧ b.proposer = proposerId ∧
      findBallotIndex ((machine decision
        (onProposal cons decision proposerId ballotId type data threshold now).2.1).run es) ballotId
        = some k) ⟨rfl, rfl, hfirst⟩
    (fun es c j j' a _ ha hm hI => ⟨(touched_id _ j a c).trans hI.1,
      (touched_proposer _ j a c).trans hI.2.1, by
        rw [Machine.run_concat]
        exact findBallotIndex_moves hI.2.2 hm⟩) hk
  obtain rfl := Option.some.inj (hb.symm.trans hb')
  refine ⟨hid, hprop, ?_, fun a ha => untouched_of_ne hb (by rw [hid]; exact ha)⟩
  unfold getResult
  rw [if_neg h.2.1, findBallot_eq_some.mpr ⟨hfound, hb⟩]

/-! ## no ballot with the invalid id -/

def Valid (cons : Consensus) : Prop := ∀ b ∈ cons.ballots, b.id ≠ invalidBallotId

def NoWrap (cons : Consensus) (c : Call) : Prop :=
  numbers cons c = true → cons.nextBallotId ≠ invalidBallotId

theorem born_valid {cons : Consensus} {c : Call} (hc : NoWrap cons c) {b : Ballot}
    (hb : b ∈ born cons c) : b.id ≠ invalidBallotId := by
  cases c with
  | propose type data threshold now =>
    rw [born] at hb
    split at hb
    next hl =>
      rw [List.mem_singleton.mp hb]
      have hid : (selfVote cons (newBallot cons cons.nextBallotId type cons.myId data threshold
          now)).id = cons.nextBallotId := by
        unfold selfVote
        split <;> rfl
      rw [hid]
      exact hc (decide_eq_true hl)
    next => cases hb
  | onProposal proposerId ballotId type data threshold now =>
    rw [born] at hb
    split at hb
    next ha =>
      rw [List.mem_singleton.mp hb]
      exact ha.2.1
    next => cases hb
  | _ => cases hb

theorem run_valid (decision : Decision) (myId : ModuleId) (config : Config) (es : List Call)
    (hes : EveryStep (fun pre c =>
      NoWrap ((machine decision (fresh myId config)).run pre) c) es) :
    Valid ((machine decision (fresh myId config)).run es) := by
  refine history_induction (I := fun es => Valid ((machine decision (fresh myId config)).run es))
    (fun b hb => nomatch hb) ?_ es hes
  intro es c ih hc
  rw [Machine.run_concat]
  exact step_ballots_all ih (fun k b hb => by rw [touched_id]; exact hb) fun b => born_valid hc

/-! ## two proposals -/

/-- `ekk_proposal_msg_t` -/
structure Proposal where
  proposerId : ModuleId
  ballotId : BallotId
  type : ProposalType
  data : UInt32
  threshold : Fixed
  deriving DecidableEq, Repr

namespace Proposal

def call (p : Proposal) (now : TimeUs) : Call :=
  .onProposal p.proposerId p.ballotId p.type p.data p.threshold now

/-- the module `p.proposerId` makes the proposal after the calls `es` -/
def Made (p : Proposal) (decision : Decision) (config : Config) (es : List Call) (now : TimeUs) :
    Prop :=
  p.proposerId ≠ invalidModuleId ∧
    (propose ((machine decision (fresh p.proposerId config)).run es) p.type p.data p.threshold
      now).1 = .ok p.ballotId

/-- the engine of the module `p.proposerId` that makes the proposal after the calls `es` -/
def proposer (p : Proposal) (decision : Decision) (config : Config) (es : List Call)
    (now : TimeUs) : Consensus :=
  (machine decision (fresh p.proposerId config)).run
    (es ++ [.propose p.type p.data p.threshold now])

def Early (p : Proposal) (decision : Decision) (config : Config) (es : List Call) (now : TimeUs) :
    Prop :=
  EveryStep (fun pre c => NoWrap ((machine decision (fresh p.proposerId config)).run pre) c)
    (es ++ [.propose p.type p.data p.threshold now])

theorem Early.valid {p : Proposal} {decision : Decision} {config : Config} {es : List Call}
    {now : TimeUs} (h : p.Early decision config es now) (hm : p.Made decision config es now) :
    p.ballotId ≠ invalidBallotId := by
  have hlast := ((everyStep_concat _ es _).mp h).2
  rw [(propose_born hm.2).1]
  exact hlast (decide_eq_true (propose_ok_iff.mp ⟨_, hm.2⟩))

end Proposal

section
variable (decision : Decision) (myId : ModuleId) (config : Config)

/-- the engine of the third module after the calls `es` -/
def third (es : List Call) : Consensus := (machine decision (fresh myId config)).run es

theorem third_append (es : List Call) (c : Call) (es' : List Call) :
    third decision myId config (es ++ c :: es')
      = (machine decision (step decision (third decision myId config es) c).1).run es' :=
  Machine.run_append _ es (c :: es')

/-- after the calls `es` the third module has room for the proposal and does not inhibit it -/
def Free (es : List Call) (p : Proposal) (now : TimeUs) : Prop :=
  p.proposerId ≠ myId ∧ (third decision myId config es).ballots.length < maxBallots ∧
    isInhibited (third decision myId config es) p.ballotId now = false

def New (es : List Call) (p : Proposal) : Prop :=
  findBallotIndex (third decision myId config es) p.ballotId = none

/-- the ballot of the proposal that arrives after `es` is `b` in slot `k` after the further calls
`es'` -/
def At (es : List Call) (p : Proposal) (now : TimeUs) (es' : List Call) (k : Nat) (b : Ballot) :
    Prop :=
  slotAfter decision (step decision (third decision myId config es) (p.call now)).1
      (third decision myId config es).ballots.length es' = some k ∧
    (third decision myId config (es ++ p.call now :: es')).ballots[k]? = some b

/-- the proposal that arrives after `es` is recorded, and after the further calls `es'` its ballot,
if it is still in the table, is its own -/
structure Kept (es : List Call) (p : Proposal) (now : TimeUs) (es' : List Call) : Prop where
  recorded : Recorded (third decision myId config es) decision p.proposerId p.ballotId p.type p.data
    p.threshold now
  own : ∀ k b, At decision myId config es p now es' k b →
    Own (third decision myId config (es ++ p.call now :: es')) p.ballotId p.proposerId k b

variable {decision myId config}

theorem Free.kept {es : List Call} {p : Proposal} {now : TimeUs}
    (h : Free decision myId config es p now) (hnew : New decision myId config es p)
    (h1 : p.proposerId ≠ invalidModuleId) (h2 : p.ballotId ≠ invalidBallotId) (es' : List Call) :
    Kept decision myId config es p now es' := by
  have hid : (third decision myId config es).myId = myId := run_myId decision _ es
  have hacc : Accepts (third decision myId config es) p.proposerId p.ballotId now :=
    ⟨h1, h2, by rw [hid]; exact h.1, h.2.2, hnew, h.2.1⟩
  refine ⟨hacc.recorded decision _ _ _, fun k b ⟨hk, hb⟩ => ?_⟩
  rw [third_append] at hb ⊢
  exact hacc.own decision p.type p.data p.threshold es' hk hb

/-- **Concurrent proposals.**  Two modules make a proposal each, after any calls, and a third
module receives both, with any calls before, between and after.  If no module makes a proposal
with its counter at 0, the two ids are different, and each is new to the third module when it
arrives, then both are recorded, each gets one vote, the ballot of each is its own ever after, the
calls for one id do not touch the ballot of the other, and no ballot of the three modules has the
invalid id. -/
theorem proposals_apart {p q : Proposal} {dp dq : Decision} {cp cq : Config} {ep eq : List Call}
    {tp tq : TimeUs} (hp : p.Made dp cp ep tp) (hq : q.Made dq cq eq tq)
    (pre mid post : List Call) (now now' : TimeUs) (hfp : Free decision myId config pre p now)
    (hfq : Free decision myId config (pre ++ p.call now :: mid) q now')
    (hep : p.Early dp cp ep tp) (heq : q.Early dq cq eq tq)
    (hwrap : EveryStep (fun past c => NoWrap (third decision myId config past) c)
      (pre ++ p.call now :: (mid ++ q.call now' :: post)))
    (hne : p.ballotId ≠ q.ballotId) (hnp : New decision myId config pre p)
    (hnq : New decision myId config (pre ++ p.call now :: mid) q) :
    Kept decision myId config pre p now (mid ++ q.call now' :: post) ∧
      Kept decision myId config (pre ++ p.call now :: mid) q now' post ∧
      (∀ k b k' b', At decision myId config pre p now (mid ++ q.call now' :: post) k b →
        At decision myId config (pre ++ p.call now :: mid) q now' post k' b' →
        k ≠ k' ∧
        Untouched (third decision myId config (pre ++ p.call now :: (mid ++ q.call now' :: post)))
          q.ballotId k b ∧
        Untouched (third decision myId config (pre ++ p.call now :: (mid ++ q.call now' :: post)))
          p.ballotId k' b') ∧
      Valid (third decision myId config (pre ++ p.call now :: (mid ++ q.call now' :: post))) ∧
      Valid (p.proposer dp cp ep tp) ∧ Valid (q.proposer dq cq eq tq) := by
  have hkp := hfp.kept hnp hp.1 (hep.valid hp) (mid ++ q.call now' :: post)
  have hkq := hfq.kept hnq hq.1 (heq.valid hq) post
  refine ⟨hkp, hkq, fun k b k' b' h h' => ?_, run_valid decision myId config _ hwrap,
    run_valid dp _ cp _ hep, run_valid dq _ cq _ heq⟩
  have hsame : pre ++ p.call now :: mid ++ q.call now' :: post
      = pre ++ p.call now :: (mid ++ q.call now' :: post) := by
    rw [List.append_assoc, List.cons_append]
  have hop := hkp.own k b h
  have hoq := hkq.own k' b' h'
  have hb' := h'.2
  rw [hsame] at hoq hb'
  refine ⟨fun hkk => ?_, hop.alone q.ballotId hne.symm, hoq.alone p.ballotId hne⟩
  have hb := h.2
  rw [hkk, hb'] at hb
  exact hne (by rw [← hop.named, ← hoq.named, Option.some.inj hb])

end

def firstOf1 : Proposal := ⟨1, 1, .shutdown, 0, 43909⟩

def firstOf2 : Proposal := ⟨2, 1, .shutdown, 0, 43909⟩

def secondOf2 : Proposal := ⟨2, 2, .shutdown, 0, 43909⟩

/-- the first proposal of module 1 and the second of module 2 reach module 3 -/
theorem proposals_apart_two :
    Kept none 3 Config.default [] firstOf1 100 [secondOf2.call 200] ∧
      Kept none 3 Config.default [firstOf1.call 100] secondOf2 200 [] := by
  have hp : firstOf1.Made none Config.default [] 0 := ⟨by decide, rfl⟩
  have hq : secondOf2.Made none Config.default [.propose .shutdown 1 43909 0] 0 := ⟨by decide, rfl⟩
  have hep : firstOf1.Early none Config.default [] 0 :=
    (everyStep_concat _ [] _).mpr ⟨everyStep_nil _, fun _ => by decide⟩
  have heq : secondOf2.Early none Config.default [.propose .shutdown 1 43909 0] 0 :=
    (everyStep_concat _ [_] _).mpr
      ⟨(everyStep_concat _ [] _).mpr ⟨everyStep_nil _, fun _ => by decide⟩, fun _ => by decide⟩
  have hfp : Free none 3 Config.default [] firstOf1 100 := ⟨by decide, by decide, rfl⟩
  have hfq : Free none 3 Config.default [firstOf1.call 100] secondOf2 200 :=
    ⟨by decide, by decide, rfl⟩
  have hwrap : EveryStep (fun past c => NoWrap (third none 3 Config.default past) c)
      [firstOf1.call 100, secondOf2.call 200] :=
    (everyStep_concat _ [_] _).mpr
      ⟨(everyStep_concat _ [] _).mpr ⟨everyStep_nil _, fun h => nomatch h⟩, fun h => nomatch h⟩
  have h := proposals_apart hp hq [] [] [] 100 200 hfp hfq hep heq hwrap (by decide) rfl rfl
  exact ⟨h.1, h.2.1⟩

/-- **Confused proposals.**  The first proposals of modules 1 and 2 have the same id: module 3,
with room for both and no inhibition, takes the second for a repetition of the first, stores
nothing and sends no vote. -/
theorem proposals_confused :
    firstOf1.Made none Config.default [] 0 ∧ firstOf2.Made none Config.default [] 0 ∧
      Free none 3 Config.default [] firstOf1 100 ∧
      Free none 3 Config.default [firstOf1.call 100] firstOf2 200 ∧
      ¬ Kept none 3 Config.default [firstOf1.call 100] firstOf2 200 [] := by
  refine ⟨⟨by decide, rfl⟩, ⟨by decide, rfl⟩, ⟨by decide, by decide, rfl⟩,
    ⟨by decide, by decide, rfl⟩, fun h => ?_⟩
  obtain ⟨value, timestamp, hv⟩ := h.recorded.voted
  exact nomatch hv

end Consensus
end EkKor
