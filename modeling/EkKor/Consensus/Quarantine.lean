import EkKor.Consensus.History
import EkKor.Lib.Packed
import Mathlib.Data.Nat.Bitwise

/-!
# Evidence and quarantine proposals

* `Evidence`        `ekk_byzantine_evidence_t`, with a payload of 24 bytes;
* `attested`        the checks that all types of evidence share;
* `supported`       the check of each type; `none` where it shifts by 32 or more;
* `verifyEvidence`, `proposeQuarantine`   the calls;
* `quarantine_iff`  the ballot is about the suspect of the evidence if and only if the caller names
                    it, the check is defined if and only if the shift is below 32, and evidence of
                    an invalid transition passes only if its bitmap does not list the transition;
* `quarantine_other`    evidence against module 7 puts module 9 to the vote; and a transition out of
                    state 4.
-/

namespace EkKor
namespace Consensus

/-! ## evidence -/

/-- `EKK_MAX_MODULES` -/
abbrev maxModules : Nat := 256

/-- `EKK_QUARANTINE_MAX_WITNESSES` -/
abbrev maxWitnesses : Nat := 3

/-- `EKK_THRESHOLD_SUPERMAJORITY` -/
abbrev supermajority : Fixed := 43909

/-- `EKK_EVIDENCE_EQUIVOCATION`, `EKK_EVIDENCE_INVALID_MAC`, `EKK_EVIDENCE_TIMING_ANOMALY`,
`EKK_EVIDENCE_STATE_INVALID` -/
abbrev equivocation : UInt32 := 0x01
abbrev invalidMac : UInt32 := 0x02
abbrev timingAnomaly : UInt32 := 0x03
abbrev stateInvalid : UInt32 := 0x04

/-- `ekk_byzantine_evidence_t`; its time is never read -/
structure Evidence where
  evidenceType : UInt32
  suspectId : ModuleId
  witnessIds : Vector ModuleId maxWitnesses
  witnessCount : UInt8
  evidenceData : Vector UInt8 24
  deriving DecidableEq

/-- the eight bytes of the payload at an offset, as `memcpy` reads them -/
def word64 (evidence : Evidence) (i : Nat) : UInt64 :=
  ((evidence.evidenceData.toList.drop i).take 8).foldr
    (fun byte rest => rest <<< 8 ||| byte.toUInt64) 0

def fromState (evidence : Evidence) : Nat := (evidence.evidenceData[0]).toNat
def toState (evidence : Evidence) : Nat := (evidence.evidenceData[1]).toNat
def validBitmap (evidence : Evidence) : UInt32 :=
  LittleEndian.word evidence.evidenceData[2] evidence.evidenceData[3] evidence.evidenceData[4]
    evidence.evidenceData[5]

def transitionBit (evidence : Evidence) : Nat := fromState evidence * 8 + toState evidence

/-- `1U << n`, which is defined below 32 -/
def shiftedOne (n : Nat) : Option UInt32 :=
  if n < 32 then some (1 <<< UInt32.ofNat n) else none

/-! ## the calls -/

def badWitness (evidence : Evidence) (w : ModuleId) : Bool :=
  w = invalidModuleId ∨ w.toNat ≥ maxModules ∨ w = evidence.suspectId

/-- the checks of `ekk_consensus_verify_evidence` before the type-specific ones -/
def attested (evidence : Evidence) : Bool :=
  if ¬ (evidence.evidenceType = equivocation ∨ evidence.evidenceType = invalidMac ∨
      evidence.evidenceType = timingAnomaly ∨ evidence.evidenceType = stateInvalid) then false
  else if evidence.suspectId = invalidModuleId ∨ evidence.suspectId.toNat ≥ maxModules then false
  else if evidence.witnessCount = 0 then false
  else !(evidence.witnessIds.toList.take evidence.witnessCount.toNat).any (badWitness evidence)

/-- the type-specific checks of `ekk_consensus_verify_evidence` -/
def supported (evidence : Evidence) : Option Bool :=
  if evidence.evidenceType = equivocation then
    some (word64 evidence 4 != word64 evidence 12)
  else if evidence.evidenceType = invalidMac then some true
  else if evidence.evidenceType = timingAnomaly then
    let expected := word64 evidence 0
    let actual := word64 evidence 8
    let threshold := word64 evidence 16
    let diff := if actual > expected then actual - expected else expected - actual
    some (!decide (diff ≤ threshold))
  else if evidence.evidenceType = stateInvalid then
    (shiftedOne (transitionBit evidence)).map fun bit => validBitmap evidence &&& bit == 0
  else some true

/-- `ekk_consensus_verify_evidence` -/
def verifyEvidence (evidence : Evidence) : Option Bool :=
  if attested evidence then supported evidence else some false

/-- `ekk_consensus_propose_quarantine` -/
def proposeQuarantine (cons : Consensus) (suspectId : ModuleId) (evidence : Evidence)
    (now : TimeUs) : Option (Except Err BallotId × Consensus × List Out) :=
  if suspectId = invalidModuleId then some (.error .invalidArg, cons, [])
  else
    (verifyEvidence evidence).map fun verified =>
      if !verified then (.error .invalidArg, cons, [])
      else propose cons .quarantine suspectId.toUInt32 supermajority now

/-! ## the proposal -/

/-- the call puts a ballot at the end of the table, about the suspect of the evidence -/
def AboutSuspect (cons cons' : Consensus) (id : BallotId) (evidence : Evidence) : Prop :=
  ∃ b, cons'.ballots[cons.ballots.length]? = some b ∧ b.id = id ∧
    b.proposalData = evidence.suspectId.toUInt32

theorem toUInt32_inj {a b : ModuleId} : a.toUInt32 = b.toUInt32 ↔ a = b := by
  constructor
  · intro h
    have hnat := congrArg UInt32.toNat h
    exact UInt8.toNat_inj.mp hnat
  · rintro rfl
    rfl

theorem selfVote_data (cons : Consensus) (b : Ballot) :
    (selfVote cons b).id = b.id ∧ (selfVote cons b).proposalData = b.proposalData := by
  unfold selfVote
  split <;> exact ⟨rfl, rfl⟩

theorem proposeQuarantine_ok {cons cons' : Consensus} {suspectId : ModuleId} {evidence : Evidence}
    {now : TimeUs} {id : BallotId} {outs : List Out}
    (h : proposeQuarantine cons suspectId evidence now = some (.ok id, cons', outs)) :
    verifyEvidence evidence = some true ∧ ∃ b, cons'.ballots[cons.ballots.length]? = some b ∧
      b.id = id ∧ b.proposalData = suspectId.toUInt32 := by
  unfold proposeQuarantine at h
  split at h
  next => cases h
  next =>
    obtain ⟨verified, hverify, h⟩ := Option.map_eq_some_iff.mp h
    cases verified with
    | false => cases h
    | true =>
      have hp : propose cons .quarantine suspectId.toUInt32 supermajority now
        = (.ok id, cons', outs) := h
      have hfst := congrArg Prod.fst hp
      obtain ⟨hid, hborn, -⟩ := propose_born hfst
      rw [hp] at hborn
      obtain ⟨hsame, hdata⟩ := selfVote_data cons
        (newBallot cons id .quarantine cons.myId suspectId.toUInt32 supermajority now)
      exact ⟨hverify, _, hborn, hsame, hdata⟩

/-! ## the shift -/

theorem shiftedOne_toNat {n : Nat} (h : n < 32) :
    ((1 : UInt32) <<< UInt32.ofNat n).toNat = 2 ^ n := by
  have hsize : (UInt32.ofNat n).toNat = n := by
    exact Nat.mod_eq_of_lt (by omega)
  rw [UInt32.toNat_shiftLeft, hsize, Nat.mod_eq_of_lt h, UInt32.toNat_one, Nat.one_shiftLeft]
  exact Nat.mod_eq_of_lt (Nat.pow_lt_pow_right (by decide) h)

theorem and_bit_eq_zero_iff {bitmap : UInt32} {n : Nat} (h : n < 32) :
    bitmap &&& (1 <<< UInt32.ofNat n) = 0 ↔ bitmap.toNat.testBit n = false := by
  rw [← UInt32.toNat_inj, UInt32.toNat_and, shiftedOne_toNat h, Nat.and_two_pow]
  cases bitmap.toNat.testBit n with
  | false => simp
  | true => simp

theorem verifyEvidence_defined_iff (evidence : Evidence) :
    (verifyEvidence evidence).isSome = true ↔
      (attested evidence = true → evidence.evidenceType = stateInvalid →
        transitionBit evidence < 32) := by
  unfold verifyEvidence
  split
  next hatt =>
    unfold supported
    by_cases hstate : evidence.evidenceType = stateInvalid
    · have h1 : ¬ evidence.evidenceType = equivocation := by rw [hstate]; decide
      have h2 : ¬ evidence.evidenceType = invalidMac := by rw [hstate]; decide
      have h3 : ¬ evidence.evidenceType = timingAnomaly := by rw [hstate]; decide
      rw [if_neg h1, if_neg h2, if_neg h3, if_pos hstate, Option.isSome_map, shiftedOne]
      split
      next hlt => exact iff_of_true rfl fun _ _ => hlt
      next hge => exact iff_of_false Bool.false_ne_true fun h => hge (h hatt hstate)
    · refine iff_of_true ?_ fun _ h => absurd h hstate
      split_ifs <;> rfl
  next hatt => exact iff_of_true rfl fun h => absurd h hatt

theorem verifyEvidence_absent {evidence : Evidence} (h : verifyEvidence evidence = some true)
    (hstate : evidence.evidenceType = stateInvalid) :
    (validBitmap evidence).toNat.testBit (transitionBit evidence) = false := by
  have hdefined : (verifyEvidence evidence).isSome = true := by rw [h]; rfl
  have h1 : ¬ evidence.evidenceType = equivocation := by rw [hstate]; decide
  have h2 : ¬ evidence.evidenceType = invalidMac := by rw [hstate]; decide
  have h3 : ¬ evidence.evidenceType = timingAnomaly := by rw [hstate]; decide
  unfold verifyEvidence at h
  split at h
  next hatt =>
    have hlt := (verifyEvidence_defined_iff evidence).mp hdefined hatt hstate
    unfold supported at h
    rw [if_neg h1, if_neg h2, if_neg h3, if_pos hstate, shiftedOne, if_pos hlt] at h
    exact (and_bit_eq_zero_iff hlt).mp (beq_iff_eq.mp (Option.some.inj h))
  next => cases h

/-- **Quarantine proposals.**  For every call and all evidence: a ballot that is created is about
the suspect of the evidence if and only if the call names that suspect; the check is defined if and
only if evidence of an invalid transition that reaches its branch shifts by less than 32; and it
passes such evidence only if the bitmap does not list the transition. -/
theorem quarantine_iff (cons : Consensus) (suspectId : ModuleId) (evidence : Evidence)
    (now : TimeUs) :
    (∀ id cons' outs,
      proposeQuarantine cons suspectId evidence now = some (.ok id, cons', outs) →
      (AboutSuspect cons cons' id evidence ↔ suspectId = evidence.suspectId)) ∧
    ((verifyEvidence evidence).isSome = true ↔
      (attested evidence = true → evidence.evidenceType = stateInvalid →
        transitionBit evidence < 32)) ∧
    (verifyEvidence evidence = some true → evidence.evidenceType = stateInvalid →
      (validBitmap evidence).toNat.testBit (transitionBit evidence) = false) := by
  refine ⟨fun id cons' outs h => ?_, verifyEvidence_defined_iff evidence,
    fun h hstate => verifyEvidence_absent h hstate⟩
  obtain ⟨-, b, hb, hid, hdata⟩ := proposeQuarantine_ok h
  constructor
  · rintro ⟨b', hb', -, hdata'⟩
    obtain rfl := Option.some.inj (hb.symm.trans hb')
    exact toUInt32_inj.mp (hdata.symm.trans hdata')
  · rintro rfl
    exact ⟨b, hb, hid, hdata⟩

def againstSeven (evidenceType : UInt32) (fromState : UInt8) : Evidence :=
  { evidenceType := evidenceType
    suspectId := 7
    witnessIds := #v[2, 0, 0]
    witnessCount := 1
    evidenceData := (Vector.replicate 24 0).set 0 fromState }

/-- evidence against module 7 puts module 9 to the vote; and the shift for a transition from state
4 is undefined -/
theorem quarantine_other :
    (proposeQuarantine (fresh 1 Config.default) 9 (againstSeven invalidMac 0) 0).map
        (fun r => (r.1, r.2.1.ballots.map Ballot.proposalData)) = some (.ok 1, [9]) ∧
      (againstSeven invalidMac 0).suspectId = 7 ∧
      verifyEvidence (againstSeven stateInvalid 4) = none := by
  decide

end Consensus
end EkKor
