import EkKor.Hal.Can
import EkKor.Lib.Weights
import Mathlib.Data.List.Chain
import Mathlib.Data.List.GetD
import Mathlib.Data.List.Perm.Basic
import Mathlib.Tactic.IntervalCases

/-!
# Fragments on the CAN bus

* `Interleaved`   the frames of each module come in order, those of different modules anyhow;
* `Delivered`     each message is received once, and nothing else is;
* `Carried`       a message that can be told from a fragment, or from several messages;
* `Unmixed`       no fragment of another module comes between the fragments of a message;
* `delivered_iff`   the messages are delivered exactly under these two conditions.
-/

namespace EkKor
namespace Can
open Runs Weights List

/-! ## decoding -/

def rxSender (f : Frame) : ModuleId := canIdGetSender (canReceive f).1

def rxType (f : Frame) : UInt8 := canIdGetType (canReceive f).1

def rxData (f : Frame) : List UInt8 := (canReceive f).2

def looksFragment (f : Frame) : Bool := isFragment (rxType f) (rxData f)

def fragIdx (f : Frame) : UInt8 := (rxData f).getD 0 0 &&& 0x7F

variable {id : ModuleId} {msgType : UInt8} {data payload : List UInt8}

theorem rxSender_transmit (msgType : UInt8) (id : ModuleId) (data : List UInt8) :
    rxSender (canTransmit (canIdEncode msgType id) data) = id := by
  show canIdGetSender (canIdEncode msgType id <<< 21 >>> 21 &&& 0x7FF) = id
  unfold canIdGetSender canIdEncode
  apply UInt8.eq_of_toBitVec_eq
  ext i hi
  simp (disch := omega) [BitVec.getLsbD_eq_getElem]
  interval_cases i <;> simp

theorem rxType_transmit (msgType : UInt8) (id : ModuleId) (data : List UInt8) :
    rxType (canTransmit (canIdEncode msgType id) data) = msgType &&& 7 := by
  show canIdGetType (canIdEncode msgType id <<< 21 >>> 21 &&& 0x7FF) = msgType &&& 7
  unfold canIdGetType canIdEncode
  apply UInt8.eq_of_toBitVec_eq
  ext i hi
  simp (disch := omega) [BitVec.getLsbD_eq_getElem, BitVec.getLsbD_of_ge]
  interval_cases i <;> simp

variable (canId : UInt32) {j : Nat}

theorem rxData_transmit (h : data.length ≤ 8) : rxData (canTransmit canId data) = data := by
  have hlen : ∀ n < 9, min (UInt32.ofNat n &&& 0x0F).toNat 8 = n := by decide
  unfold rxData canReceive canTransmit
  rw [take_of_length_le h, hlen _ (Nat.lt_succ_of_le h), LittleEndian.bytes_word,
    LittleEndian.bytes_word]
  refine ext_getElem? fun i => ?_
  rw [getElem?_take]
  split_ifs with hi
  · have hget (j : Nat) (hj : j < data.length) : some (data.getD j 0) = data[j]? := by
      rw [getElem?_eq_getElem hj, getD_eq_getElem data 0 hj]
    rw [← hget i hi]
    have hi8 : i < 8 := Nat.lt_of_lt_of_le hi h
    interval_cases i <;> rfl
  · rw [getElem?_eq_none (Nat.not_lt.mp hi)]

theorem length_rxData (f : Frame) : (rxData f).length ≤ 8 := by
  exact (length_take_le _ _).trans (Nat.min_le_right _ _)

/-! ## one frame -/

variable {g : Reassembly} {f : Frame}

def Accepts (g : Reassembly) (f : Frame) : Prop :=
  let g := restart g (rxSender f) (rxType f) (fragIdx f)
  g.active = true ∧ g.senderId = rxSender f ∧ g.msgType = rxType f ∧ fragIdx f = g.expectedFrag

instance instDecidableAccepts (g : Reassembly) (f : Frame) : Decidable (Accepts g f) := by
  unfold Accepts
  infer_instance

def join (data chunk : List UInt8) : List UInt8 :=
  if data.length + chunk.length ≤ msgMaxLen then data ++ chunk else data

theorem recv_eq (g : Reassembly) (len : Nat) (f : Frame) : recv g len (some f) =
    if looksFragment f = true then reassemble g (rxSender f) (rxType f) (rxData f) len
    else (.ok ⟨rxSender f, rxType f, (rxData f).take len, (rxData f).length⟩, g) := rfl

theorem step_ok {g' : Reassembly} {msg : Received}
    (h : recv g msgMaxLen (some f) = (.ok msg, g')) : receiver.step g f = (g', [msg]) := by
  unfold receiver
  dsimp only
  rw [h]

theorem step_error {g' : Reassembly} (err : Err)
    (h : recv g msgMaxLen (some f) = (.error err, g')) : receiver.step g f = (g', []) := by
  unfold receiver
  dsimp only
  rw [h]

theorem step_single (h : looksFragment f = false) : receiver.step g f =
    (g, [⟨rxSender f, rxType f, rxData f, (rxData f).length⟩]) := by
  have hall : (rxData f).take msgMaxLen = rxData f :=
    take_of_length_le ((length_rxData f).trans (by decide))
  refine step_ok ?_
  rw [recv_eq, if_neg (ne_true_of_eq_false h), hall]

theorem step_rejected (h : looksFragment f = true) (hnot : ¬Accepts g f) : receiver.step g f =
    (restart g (rxSender f) (rxType f) (fragIdx f), []) := by
  refine step_error .notFound ?_
  rw [recv_eq, if_pos h]
  exact if_neg hnot

theorem step_accepted (h : looksFragment f = true) (haccept : Accepts g f) {d : List UInt8}
    (hd : join (restart g (rxSender f) (rxType f) (fragIdx f)).data ((rxData f).drop 1) = d) :
    receiver.step g f =
      if (rxData f).getD 0 0 &&& 0x80 = 0 then
        (⟨d, rxSender f, rxType f, fragIdx f + 1, false⟩,
          [⟨rxSender f, rxType f, d.take msgMaxLen, d.length⟩])
      else (⟨d, rxSender f, rxType f, fragIdx f + 1, true⟩, []) := by
  have hrecv : recv g msgMaxLen (some f) =
      let g := restart g (rxSender f) (rxType f) (fragIdx f)
      let g := { g with
        data := join g.data ((rxData f).drop 1)
        expectedFrag := g.expectedFrag + 1 }
      if (rxData f).getD 0 0 &&& 0x80 = 0 then
        (.ok ⟨g.senderId, g.msgType, g.data.take msgMaxLen, g.data.length⟩,
          { g with active := false })
      else (.error .notFound, g) := by
    rw [recv_eq, if_pos h]
    exact if_pos haccept
  obtain ⟨hactive, hsender, htype, hidx⟩ := haccept
  dsimp only at hrecv
  rw [hactive, hsender, htype, ← hidx, hd] at hrecv
  split_ifs with hlast
  · rw [if_pos hlast] at hrecv
    exact step_ok hrecv
  · rw [if_neg hlast] at hrecv
    exact step_error _ hrecv

theorem step_first (h : looksFragment f = true) (hfirst : fragIdx f = 0) (g g' : Reassembly) :
    receiver.step g f = receiver.step g' f := by
  have hrestart (g : Reassembly) : restart g (rxSender f) (rxType f) (fragIdx f) =
      ⟨[], rxSender f, rxType f, 0, true⟩ := if_pos hfirst
  have haccept (g : Reassembly) : Accepts g f := by
    unfold Accepts
    rw [hrestart]
    exact ⟨rfl, rfl, rfl, hfirst⟩
  rw [step_accepted h (haccept g) rfl, step_accepted h (haccept g') rfl, hrestart, hrestart]

theorem step_sender (g : Reassembly) (f : Frame) :
    (∀ msg ∈ (receiver.step g f).2, msg.sender = rxSender f ∧ msg.msgType = rxType f) ∧
      (looksFragment f = true → Accepts g f → (receiver.step g f).1.senderId = rxSender f) := by
  cases hfrag : looksFragment f with
  | false =>
    rw [step_single hfrag]
    exact ⟨fun msg hmsg => by rw [mem_singleton.mp hmsg]; exact ⟨rfl, rfl⟩, nofun⟩
  | true =>
    by_cases haccept : Accepts g f
    · rw [step_accepted hfrag haccept rfl]
      split_ifs
      · exact ⟨fun msg hmsg => by rw [mem_singleton.mp hmsg]; exact ⟨rfl, rfl⟩, fun _ _ => rfl⟩
      · exact ⟨nofun, fun _ _ => rfl⟩
    · rw [step_rejected hfrag haccept]
      exact ⟨nofun, fun _ h => absurd h haccept⟩

/-! ## weights -/

abbrev bytesOf (id : ModuleId) (t : UInt8) (msgs : List Received) : Nat :=
  total (fun msg => decide (msg.sender = id ∧ msg.msgType = t)) Received.len msgs

def weight (f : Frame) : Nat :=
  if looksFragment f = true then (rxData f).length - 1 else (rxData f).length

abbrev weightOf (id : ModuleId) (t : UInt8) (fs : List Frame) : Nat :=
  total (fun f => decide (rxSender f = id ∧ rxType f = t)) weight fs

def waiting (id : ModuleId) (t : UInt8) (g : Reassembly) : Nat :=
  if g.active = true ∧ g.senderId = id ∧ g.msgType = t then g.data.length else 0

def Lost (id : ModuleId) (t : UInt8) (g : Reassembly) (f : Frame) : Prop :=
  looksFragment f = true ∧ rxSender f = id ∧ rxType f = t ∧ ¬Accepts g f

variable {t : UInt8}

theorem bytesOf_append (msgs msgs' : List Received) :
    bytesOf id t (msgs ++ msgs') = bytesOf id t msgs + bytesOf id t msgs' := total_append

theorem weightOf_append (fs fs' : List Frame) :
    weightOf id t (fs ++ fs') = weightOf id t fs + weightOf id t fs' := total_append

theorem two_le_of_looksFragment (h : looksFragment f = true) : 2 ≤ (rxData f).length := by
  unfold looksFragment isFragment at h
  rw [Bool.and_eq_true, Bool.and_eq_true, decide_eq_true_iff] at h
  exact h.1.1

theorem waiting_restart (id : ModuleId) (t : UInt8) (g : Reassembly) (s : ModuleId) (t' idx : UInt8) :
    waiting id t (restart g s t' idx) ≤ waiting id t g := by
  unfold restart
  split_ifs
  · unfold waiting
    split_ifs <;> exact Nat.zero_le _
  · exact Nat.le_refl _

/-- **One frame** brings no more bytes than it has, and less when it is lost. -/
theorem step_bytes (id : ModuleId) (t : UInt8) (g : Reassembly) (f : Frame) :
    bytesOf id t (receiver.step g f).2 + waiting id t (receiver.step g f).1 ≤
        waiting id t g + weightOf id t [f] ∧
      (Lost id t g f → bytesOf id t (receiver.step g f).2 + waiting id t (receiver.step g f).1 <
        waiting id t g + weightOf id t [f]) := by
  rw [weightOf, total_singleton]
  unfold weight
  cases hfrag : looksFragment f with
  | false =>
    rw [step_single hfrag, bytesOf, total_singleton, if_neg Bool.false_ne_true, Nat.add_comm]
    exact ⟨Nat.le_refl _, fun h => nomatch hfrag.symm.trans h.1⟩
  | true =>
    have htwo := two_le_of_looksFragment hfrag
    have hrestart := waiting_restart id t g (rxSender f) (rxType f) (fragIdx f)
    rw [if_pos rfl]
    by_cases haccept : Accepts g f
    · refine ⟨?_, fun h => absurd haccept h.2.2.2⟩
      refine Nat.le_trans ?_ (Nat.add_le_add_right hrestart _)
      have hjoin (d c : List UInt8) : (join d c).length ≤ d.length + c.length := by
        unfold join
        split_ifs
        · exact Nat.le_of_eq length_append
        · exact Nat.le_add_right _ _
      have hlen := hjoin (restart g (rxSender f) (rxType f) (fragIdx f)).data ((rxData f).drop 1)
      rw [length_drop] at hlen
      rw [step_accepted hfrag haccept rfl]
      obtain ⟨hactive, hsender, htype, -⟩ := haccept
      have hwaiting : waiting id t (restart g (rxSender f) (rxType f) (fragIdx f)) =
          if rxSender f = id ∧ rxType f = t then
            (restart g (rxSender f) (rxType f) (fragIdx f)).data.length else 0 := by
        unfold waiting
        rw [hsender, htype]
        exact if_congr (and_iff_right hactive) rfl rfl
      have hdone (d : List UInt8) (idx : UInt8) :
          waiting id t ⟨d, rxSender f, rxType f, idx, false⟩ = 0 :=
        if_neg fun h => Bool.false_ne_true h.1
      have hopen (d : List UInt8) (idx : UInt8) : waiting id t ⟨d, rxSender f, rxType f, idx, true⟩ =
          if rxSender f = id ∧ rxType f = t then d.length else 0 :=
        if_congr (and_iff_right rfl) rfl rfl
      have hdecide : decide (rxSender f = id ∧ rxType f = t) = true ↔
          rxSender f = id ∧ rxType f = t := decide_eq_true_iff
      rw [hwaiting, if_congr hdecide rfl rfl]
      by_cases hlast : (rxData f).getD 0 0 &&& 0x80 = 0
      · rw [if_pos hlast]
        rw [hdone, bytesOf, total_singleton, if_congr hdecide rfl rfl, Nat.add_zero]
        split_ifs
        · exact hlen
        · exact Nat.le_refl _
      · rw [if_neg hlast]
        rw [hopen]
        show 0 + _ ≤ _
        rw [Nat.zero_add]
        split_ifs
        · exact hlen
        · exact Nat.le_refl _
    · rw [step_rejected hfrag haccept]
      refine ⟨?_, fun h => ?_⟩
      · exact (Nat.zero_add _).trans_le (hrestart.trans (Nat.le_add_right _ _))
      · rw [if_pos (decide_eq_true ⟨h.2.1, h.2.2.1⟩)]
        refine (Nat.zero_add _).trans_lt (hrestart.trans_lt (Nat.lt_add_of_pos_right ?_))
        omega

theorem run_bytes (id : ModuleId) (t : UInt8) (fs : List Frame) :
    bytesOf id t (receiver.trace fs) + waiting id t (receiver.run fs) ≤ weightOf id t fs ∧
      (bytesOf id t (receiver.trace fs) + waiting id t (receiver.run fs) = weightOf id t fs →
        EveryStep (fun pre f => ¬Lost id t (receiver.run pre) f) fs) := by
  induction fs using List.reverseRecOn with
  | nil => exact ⟨Nat.le_refl _, fun _ => everyStep_nil _⟩
  | append_singleton fs f ih =>
    obtain ⟨hle, hall⟩ := ih
    obtain ⟨hstep, hlost⟩ := step_bytes id t (receiver.run fs) f
    rw [Machine.trace_concat, Machine.run_concat, bytesOf_append, weightOf_append, everyStep_concat]
    unfold Machine.outs Machine.next
    refine ⟨by omega, fun heq => ⟨hall (by omega), fun hl => ?_⟩⟩
    have := hlost hl
    omega

theorem run_single (id : ModuleId) (ht : ∀ data, isFragment t data = false) (fs : List Frame) :
    bytesOf id t (receiver.trace fs) = weightOf id t fs := by
  induction fs using List.reverseRecOn with
  | nil => rfl
  | append_singleton fs f ih =>
    rw [Machine.trace_concat, bytesOf_append, weightOf_append, ih]
    refine congrArg (weightOf id t fs + ·) ?_
    unfold Machine.outs
    cases hfrag : looksFragment f with
    | false =>
      rw [step_single hfrag]
      refine total_singleton.trans (Eq.trans ?_ total_singleton.symm)
      unfold weight
      rw [hfrag]
      rfl
    | true =>
      have hother : rxType f ≠ t := fun he => by
        have hnot := ht (rxData f)
        rw [← he] at hnot
        exact Bool.false_ne_true (hnot.symm.trans hfrag)
      refine (total_eq_zero fun msg hmsg => ?_).trans (total_eq_zero fun f' hf' => ?_).symm
      · exact decide_eq_false fun h => hother (((step_sender _ f).1 msg hmsg).2.symm.trans h.2)
      · rw [mem_singleton.mp hf']
        exact decide_eq_false fun h => hother h.2

/-! ## the frames of a message -/

/-- a message of a module -/
structure Message where
  msgType : UInt8
  payload : List UInt8
  deriving DecidableEq

def header (idx : UInt8) (payload : List UInt8) : UInt8 :=
  idx ||| if decide (7 < payload.length) = true then 0x80 else 0

theorem fragments_cons (idx : UInt8) (h : payload ≠ []) :
    fragments canId idx payload = canTransmit canId (header idx payload :: payload.take 7) ::
      fragments canId (idx + 1) (payload.drop 7) := by
  rw [fragments, if_pos (length_pos_iff.mpr h)]
  rfl

theorem fragments_nil (idx : UInt8) : fragments canId idx [] = [] := by
  rw [fragments, if_neg (by exact Nat.lt_irrefl 0)]

theorem header_bits (hj : j < 16) (payload : List UInt8) :
    header (UInt8.ofNat j) payload &&& 0x7F = UInt8.ofNat j ∧
      (header (UInt8.ofNat j) payload &&& 0x80 = 0 ↔ payload.length ≤ 7) := by
  have hbits : ∀ j < 16, (UInt8.ofNat j ||| 0x80) &&& 0x7F = UInt8.ofNat j ∧
      (UInt8.ofNat j ||| 0x80) &&& 0x80 ≠ 0 ∧ (UInt8.ofNat j ||| 0) &&& 0x7F = UInt8.ofNat j ∧
        (UInt8.ofNat j ||| 0) &&& 0x80 = 0 := by decide
  obtain ⟨hmore, hset, hlast, hclear⟩ := hbits j hj
  unfold header
  by_cases hlong : 7 < payload.length
  · rw [if_pos (decide_eq_true hlong)]
    exact ⟨hmore, iff_of_false hset (Nat.not_le.mpr hlong)⟩
  · rw [if_neg fun h => hlong (of_decide_eq_true h)]
    exact ⟨hlast, iff_of_true hclear (Nat.not_lt.mp hlong)⟩

theorem fragment_bits (hj : j < 16) (msgType : UInt8) (id : ModuleId) (hpayload : payload ≠ [])
    {f : Frame} (hf : f = canTransmit (canIdEncode msgType id) (header (UInt8.ofNat j) payload ::
    payload.take 7)) :
    rxData f = header (UInt8.ofNat j) payload :: payload.take 7 ∧ fragIdx f = UInt8.ofNat j ∧
      (looksFragment f = true ↔ msgType &&& 7 = msgDiscovery ∨ msgType &&& 7 = msgProposal) := by
  have hdata : rxData f = header (UInt8.ofNat j) payload :: payload.take 7 := by
    rw [hf, rxData_transmit]
    rw [length_cons, length_take]
    omega
  have hidx : fragIdx f = UInt8.ofNat j := by
    unfold fragIdx
    rw [hdata]
    exact (header_bits hj payload).1
  have htwo : 1 < (rxData f).length := by
    have := length_pos_iff.mpr hpayload
    rw [hdata, length_cons, length_take]
    omega
  have hsmall : fragIdx f < 16 := by
    rw [hidx, UInt8.lt_iff_toNat_lt, UInt8.toNat_ofNat_of_lt' (Nat.lt_trans hj (by decide))]
    exact hj
  refine ⟨hdata, hidx, ?_⟩
  unfold looksFragment isFragment
  rw [Bool.and_eq_true, Bool.and_eq_true, Bool.or_eq_true, beq_iff_eq, beq_iff_eq,
    decide_eq_true_iff, decide_eq_true_iff, hf, rxType_transmit, ← hf]
  exact ⟨fun h => h.1.2, fun h => ⟨⟨htwo, h⟩, hsmall⟩⟩

theorem weight_fragments (payload : List UInt8)
    (hj : payload ≠ [] → 7 * j + payload.length ≤ msgMaxLen) (msgType : UInt8) (id : ModuleId) :
    (∀ f ∈ fragments (canIdEncode msgType id) (UInt8.ofNat j) payload,
        rxSender f = id ∧ rxType f = msgType &&& 7) ∧
      (msgType &&& 7 = msgDiscovery ∨ msgType &&& 7 = msgProposal →
        ((fragments (canIdEncode msgType id) (UInt8.ofNat j) payload).map weight).sum =
          payload.length) ∧
      (¬(msgType &&& 7 = msgDiscovery ∨ msgType &&& 7 = msgProposal) →
        ((fragments (canIdEncode msgType id) (UInt8.ofNat j) payload).map weight).sum =
          payload.length + (fragments (canIdEncode msgType id) (UInt8.ofNat j) payload).length) := by
  induction hn : payload.length using Nat.strongRecOn generalizing j payload with
  | ind n ih =>
    by_cases hpayload : payload = []
    · rw [← hn, hpayload, fragments_nil]
      exact ⟨nofun, fun _ => rfl, fun _ => rfl⟩
    have hpos := length_pos_iff.mpr hpayload
    have hroom := hj hpayload
    have hmax : msgMaxLen = 64 := rfl
    obtain ⟨hdata, -, hlooks⟩ := fragment_bits (j := j) (by omega) msgType id hpayload rfl
    have hrest : payload.drop 7 ≠ [] → 7 * (j + 1) + (payload.drop 7).length ≤ msgMaxLen := by
      intro hne
      have := length_pos_iff.mpr hne
      rw [length_drop] at this ⊢
      omega
    obtain ⟨hall, hcut, hnot⟩ := ih (payload.drop 7).length
      (by rw [length_drop]; omega) (payload.drop 7) hrest rfl
    have hlen := length_drop (i := 7) (l := payload)
    rw [fragments_cons _ _ hpayload, show UInt8.ofNat j + 1 = UInt8.ofNat (j + 1) from
      (UInt8.ofNat_add j 1).symm]
    generalize hf : canTransmit (canIdEncode msgType id)
      (header (UInt8.ofNat j) payload :: payload.take 7) = f at *
    have hlength : (rxData f).length = min 7 payload.length + 1 := by
      rw [hdata, length_cons, length_take]
    refine ⟨fun f' hf' => ?_, fun h => ?_, fun h => ?_⟩
    · rcases mem_cons.mp hf' with rfl | hf'
      · rw [← hf]
        exact ⟨rxSender_transmit .., rxType_transmit ..⟩
      · exact hall f' hf'
    · rw [map_cons, sum_cons, hcut h]
      unfold weight
      rw [if_pos (hlooks.mpr h), hlength]
      omega
    · rw [map_cons, sum_cons, hnot h, length_cons]
      unfold weight
      rw [if_neg fun hl => h (hlooks.mp hl), hlength]
      omega

def framesOf (id : ModuleId) (m : Message) : List Frame :=
  (send id m.msgType m.payload).toOption.getD []

def messageOf (id : ModuleId) (m : Message) : Received :=
  ⟨id, m.msgType, m.payload, m.payload.length⟩

/-- a message that can be told from a fragment, or from several messages -/
structure Carried (m : Message) : Prop where
  type : m.msgType < 8
  single : m.payload.length ≤ 8 → isFragment m.msgType m.payload = false
  cut : 8 < m.payload.length → m.msgType = msgDiscovery ∨ m.msgType = msgProposal

variable {m : Message}

theorem framesOf_eq (id : ModuleId) (h : m.payload.length ≤ msgMaxLen) : framesOf id m =
    if m.payload.length ≤ 8 then [canTransmit (canIdEncode m.msgType id) m.payload]
    else fragments (canIdEncode m.msgType id) (UInt8.ofNat 0) m.payload := by
  unfold framesOf send
  rw [if_neg (Nat.not_lt.mpr h)]
  split_ifs <;> rfl

theorem framesOf_bits (id : ModuleId) (h : m.payload.length ≤ msgMaxLen) :
    ∀ f ∈ framesOf id m, rxSender f = id ∧ rxType f = m.msgType &&& 7 := by
  rw [framesOf_eq id h]
  split_ifs
  · intro f hf
    rw [mem_singleton.mp hf]
    exact ⟨rxSender_transmit .., rxType_transmit ..⟩
  · exact (weight_fragments m.payload (j := 0) (fun _ => by omega) m.msgType id).1

theorem type_and (h : m.msgType < 8) : m.msgType &&& 7 = m.msgType := by
  have hall : ∀ n < 8, UInt8.ofNat n &&& 7 = UInt8.ofNat n := by decide
  have := hall m.msgType.toNat (UInt8.lt_iff_toNat_lt.mp h)
  rwa [UInt8.ofNat_toNat] at this

theorem brought (id : ModuleId) (h : m.payload.length ≤ msgMaxLen) (htype : m.msgType < 8) :
    (m.msgType = msgDiscovery ∨ m.msgType = msgProposal →
        ((framesOf id m).map weight).sum ≤ m.payload.length) ∧
      (¬(m.msgType = msgDiscovery ∨ m.msgType = msgProposal) →
        m.payload.length ≤ ((framesOf id m).map weight).sum) ∧
      (((framesOf id m).map weight).sum = m.payload.length → Carried m) := by
  obtain ⟨-, hcut, hnot⟩ := weight_fragments m.payload (j := 0) (fun _ => by omega) m.msgType id
  rw [framesOf_eq id h]
  rw [type_and htype] at hcut hnot
  by_cases hsmall : m.payload.length ≤ 8
  · have hdata := rxData_transmit (canIdEncode m.msgType id) hsmall
    have hlooks : looksFragment (canTransmit (canIdEncode m.msgType id) m.payload) =
        isFragment m.msgType m.payload := by
      unfold looksFragment
      rw [hdata, rxType_transmit, type_and htype]
    rw [if_pos hsmall, map_singleton, sum_singleton]
    unfold weight
    rw [hlooks, hdata]
    cases hfrag : isFragment m.msgType m.payload with
    | false =>
      exact ⟨fun _ => Nat.le_refl _, fun _ => Nat.le_refl _, fun _ =>
        ⟨htype, fun _ => hfrag, fun hlong => absurd hsmall (Nat.not_le.mpr hlong)⟩⟩
    | true =>
      have htwo : 2 ≤ m.payload.length := by
        have := two_le_of_looksFragment (hlooks.trans hfrag)
        rwa [hdata] at this
      have hkind : m.msgType = msgDiscovery ∨ m.msgType = msgProposal := by
        unfold isFragment at hfrag
        rw [Bool.and_eq_true, Bool.and_eq_true, Bool.or_eq_true, beq_iff_eq, beq_iff_eq] at hfrag
        exact hfrag.1.2
      rw [if_pos rfl]
      exact ⟨fun _ => Nat.sub_le _ _, fun hk => absurd hkind hk, fun heq => by omega⟩
  · rw [if_neg hsmall]
    by_cases hkind : m.msgType = msgDiscovery ∨ m.msgType = msgProposal
    · rw [hcut hkind]
      exact ⟨fun _ => Nat.le_refl _, fun hk => absurd hkind hk, fun _ =>
        ⟨htype, fun hle => absurd hle hsmall, fun _ => hkind⟩⟩
    · have hne : m.payload ≠ [] := fun hnil => hsmall (by rw [hnil]; exact Nat.zero_le 8)
      rw [hnot hkind, fragments_cons _ _ hne, length_cons]
      exact ⟨fun hk => absurd hk hkind, fun _ => Nat.le_add_right _ _, fun heq => by omega⟩

/-! ## the bus -/

-- the messages that the modules send, and the frames on the bus with the module that sent each
variable {msgs : ModuleId → List Message} {bus : List (ModuleId × Frame)}

def Interleaved (msgs : ModuleId → List Message) (bus : List (ModuleId × Frame)) : Prop :=
  ∀ id, (bus.filter fun p => decide (p.1 = id)).map Prod.snd = (msgs id).flatMap (framesOf id)

def Delivered (msgs : ModuleId → List Message) (received : List Received) : Prop :=
  ∀ id, (received.filter fun msg => decide (msg.sender = id)).Perm ((msgs id).map (messageOf id))

def fragmentsOn (bus : List (ModuleId × Frame)) : List (ModuleId × Frame) :=
  bus.filter fun p => looksFragment p.2

def Unmixed (bus : List (ModuleId × Frame)) : Prop :=
  (fragmentsOn bus).IsChain fun a b => fragIdx b.2 ≠ 0 → a.1 = b.1

section
variable (hlen : ∀ id, ∀ m ∈ msgs id, m.payload.length ≤ msgMaxLen) (hbus : Interleaved msgs bus)
include hlen hbus

theorem tag_eq : ∀ p ∈ bus, rxSender p.2 = p.1 := by
  intro p hp
  have hmem : p.2 ∈ (bus.filter fun p' => decide (p'.1 = p.1)).map Prod.snd :=
    mem_map_of_mem (mem_filter.mpr ⟨hp, decide_eq_true rfl⟩)
  rw [hbus p.1, mem_flatMap] at hmem
  obtain ⟨m, hm, hf⟩ := hmem
  exact (framesOf_bits p.1 (hlen p.1 m hm) p.2 hf).1

theorem weightOf_bus (id : ModuleId) (t : UInt8) : weightOf id t (bus.map Prod.snd) =
    total (fun m => decide (m.msgType &&& 7 = t)) (fun m => ((framesOf id m).map weight).sum)
      (msgs id) := by
  have htag := tag_eq hlen hbus
  have hmine : weightOf id t (bus.map Prod.snd) =
      weightOf id t ((bus.filter fun p => decide (p.1 = id)).map Prod.snd) := by
    refine total_map.trans (Eq.trans ?_ total_map.symm)
    unfold total
    rw [filter_filter]
    congr 2
    refine filter_congr fun p hp => Bool.eq_iff_iff.mpr ?_
    rw [Bool.and_eq_true]
    refine ⟨fun h => ⟨h, decide_eq_true ?_⟩, fun h => h.1⟩
    exact (htag p hp).symm.trans (of_decide_eq_true h).1
  rw [hmine, hbus id]
  refine (total_flatMap _).trans ?_
  have hone (m : Message) (hm : m ∈ msgs id) : weightOf id t (framesOf id m) =
      if decide (m.msgType &&& 7 = t) = true then ((framesOf id m).map weight).sum else 0 := by
    have hframes := framesOf_bits id (hlen id m hm)
    split_ifs with htype
    · refine total_all fun f hf => decide_eq_true ?_
      exact ⟨(hframes f hf).1, (hframes f hf).2.trans (of_decide_eq_true htype)⟩
    · refine total_eq_zero fun f hf => decide_eq_false fun h => htype (decide_eq_true ?_)
      exact (hframes f hf).2.symm.trans h.2
  exact (congrArg List.sum (map_congr_left hone)).trans total_eq_sum.symm

end

theorem bytesOf_delivered {received : List Received} (h : Delivered msgs received) (id : ModuleId)
    (t : UInt8) : bytesOf id t received =
      total (fun m => decide (m.msgType = t)) (fun m => m.payload.length) (msgs id) := by
  have hfilter : bytesOf id t received =
      bytesOf id t (received.filter fun msg => decide (msg.sender = id)) :=
    (total_filter fun msg hmsg => decide_eq_true (of_decide_eq_true hmsg).1).symm
  rw [hfilter]
  refine (total_perm (h id)).trans (total_map.trans ?_)
  have hp : ((fun msg : Received => decide (msg.sender = id ∧ msg.msgType = t)) ∘ messageOf id) =
      fun m => decide (m.msgType = t) := by
    funext m
    exact decide_eq_decide.mpr (and_iff_right rfl)
  rw [hp]
  rfl

theorem rxType_lt (f : Frame) : rxType f < 8 := by
  have hle : ((canReceive f).1 >>> 8 &&& 7).toNat ≤ 7 := by
    exact Nat.and_le_right
  show _ % 256 < 8
  omega

theorem trace_type (fs : List Frame) : ∀ msg ∈ receiver.trace fs, msg.msgType < 8 := by
  induction fs using List.reverseRecOn with
  | nil => exact nofun
  | append_singleton fs f ih =>
    rw [Machine.trace_concat]
    intro msg hmsg
    rcases mem_append.mp hmsg with hmsg | hmsg
    · exact ih msg hmsg
    · rw [((step_sender _ f).1 msg hmsg).2]
      exact rxType_lt f

theorem kind_of_isFragment (h : isFragment t data = true) : t = msgDiscovery ∨ t = msgProposal := by
  unfold isFragment at h
  rw [Bool.and_eq_true, Bool.and_eq_true, Bool.or_eq_true, beq_iff_eq, beq_iff_eq] at h
  exact h.1.2

theorem carried_of_delivered (hlen : ∀ id, ∀ m ∈ msgs id, m.payload.length ≤ msgMaxLen)
    (hbus : Interleaved msgs bus) (h : Delivered msgs (receiver.trace (bus.map Prod.snd))) :
    (∀ id, ∀ m ∈ msgs id, Carried m) ∧
      EveryStep (fun pre f => looksFragment f = true → Accepts (receiver.run pre) f)
        (bus.map Prod.snd) := by
  have htype (id : ModuleId) (m : Message) (hm : m ∈ msgs id) : m.msgType < 8 := by
    have hmem := (h id).mem_iff.mpr (mem_map_of_mem hm)
    exact trace_type _ _ (mem_of_mem_filter hmem)
  have hweight (id : ModuleId) (t : UInt8) : weightOf id t (bus.map Prod.snd) =
      total (fun m => decide (m.msgType = t)) (fun m => ((framesOf id m).map weight).sum)
        (msgs id) := by
    rw [weightOf_bus hlen hbus]
    unfold total
    congr 2
    exact filter_congr fun m hm => by rw [type_and (htype id m hm)]
  -- what the messages bring is what they have
  have hkind (id : ModuleId) (t : UInt8) (hk : t = msgDiscovery ∨ t = msgProposal) :
      (∀ m ∈ msgs id, m.msgType = t → Carried m) ∧
        EveryStep (fun pre f => ¬Lost id t (receiver.run pre) f) (bus.map Prod.snd) := by
    obtain ⟨hle, hall⟩ := run_bytes id t (bus.map Prod.snd)
    rw [bytesOf_delivered h, hweight] at hle hall
    have hfits : ∀ m ∈ msgs id, decide (m.msgType = t) = true →
        ((framesOf id m).map weight).sum ≤ m.payload.length := fun m hm ht =>
      (brought id (hlen id m hm) (htype id m hm)).1 ((of_decide_eq_true ht).symm ▸ hk)
    refine ⟨fun m hm ht => (brought id (hlen id m hm) (htype id m hm)).2.2 ?_, hall ?_⟩
    · exact eq_of_total_le hfits (by omega) m hm (decide_eq_true ht)
    · have := total_le hfits
      omega
  refine ⟨fun id m hm => ?_, fun pre f hpre hfrag => ?_⟩
  · by_cases hk : m.msgType = msgDiscovery ∨ m.msgType = msgProposal
    · exact (hkind id m.msgType hk).1 m hm rfl
    · refine (brought id (hlen id m hm) (htype id m hm)).2.2 (Eq.symm ?_)
      have hsingle : ∀ data, isFragment m.msgType data = false := fun data =>
        eq_false_of_ne_true fun hfrag => hk (kind_of_isFragment hfrag)
      have hall := run_single id hsingle (bus.map Prod.snd)
      rw [bytesOf_delivered h, hweight] at hall
      refine eq_of_total_le (fun m' hm' ht => ?_) (Nat.le_of_eq hall.symm) m hm (decide_eq_true rfl)
      exact (brought id (hlen id m' hm') (htype id m' hm')).2.1 ((of_decide_eq_true ht).symm ▸ hk)
  · by_contra hlost
    exact (hkind (rxSender f) (rxType f) (kind_of_isFragment hfrag)).2 pre f hpre
      ⟨hfrag, rfl, rfl, hlost⟩

theorem unmixed_of_accepts (htag : ∀ p ∈ bus, rxSender p.2 = p.1)
    (h : EveryStep (fun pre f => looksFragment f = true → Accepts (receiver.run pre) f)
      (bus.map Prod.snd)) :
    Unmixed bus ∧ ∀ a ∈ (fragmentsOn bus).getLast?,
      (receiver.run (bus.map Prod.snd)).senderId = a.1 := by
  induction bus using List.reverseRecOn with
  | nil => exact ⟨isChain_nil, nofun⟩
  | append_singleton bus p ih =>
    rw [map_append, map_singleton, everyStep_concat] at h
    obtain ⟨hchain, hlast⟩ := ih (fun p' hp' => htag p' (mem_append_left _ hp')) h.1
    have hsender := htag p (mem_append_right _ mem_cons_self)
    rw [map_append, map_singleton, Machine.run_concat]
    unfold Unmixed fragmentsOn at *
    rw [filter_append]
    cases hfrag : looksFragment p.2 with
    | false =>
      have hnone : [p].filter (fun p => looksFragment p.2) = [] :=
        filter_cons_of_neg (ne_true_of_eq_false hfrag)
      have hsame : receiver.next (receiver.run (bus.map Prod.snd)) p.2 =
          receiver.run (bus.map Prod.snd) := congrArg Prod.fst (step_single hfrag)
      rw [hnone, append_nil, hsame]
      exact ⟨hchain, hlast⟩
    | true =>
      have hone : [p].filter (fun p => looksFragment p.2) = [p] :=
        filter_cons_of_pos hfrag
      have haccept := h.2 hfrag
      rw [hone, isChain_append]
      refine ⟨⟨hchain, isChain_singleton p, fun a ha b hb hidx => ?_⟩, fun a ha => ?_⟩
      · obtain rfl : p = b := Option.some.inj hb
        have hrestart : restart (receiver.run (bus.map Prod.snd)) (rxSender p.2) (rxType p.2)
            (fragIdx p.2) = receiver.run (bus.map Prod.snd) := if_neg hidx
        have hmine := haccept.2.1
        rw [hrestart] at hmine
        exact (hlast a ha).symm.trans (hmine.trans hsender)
      · rw [getLast?_concat] at ha
        obtain rfl := Option.some.inj ha
        exact ((step_sender _ p.2).2 hfrag haccept).trans hsender

/-! ## one sender -/

def framesFrom (id : ModuleId) (bus : List (ModuleId × Frame)) : List Frame :=
  (bus.filter fun p => decide (p.1 = id)).map Prod.snd

def receivedFrom (id : ModuleId) (received : List Received) : List Received :=
  received.filter fun msg => decide (msg.sender = id)

theorem framesFrom_concat (p : ModuleId × Frame) : framesFrom id (bus ++ [p]) =
    if p.1 = id then framesFrom id bus ++ [p.2] else framesFrom id bus := by
  unfold framesFrom
  rw [filter_append, map_append]
  split_ifs with hp
  · have hone : [p].filter (fun p => decide (p.1 = id)) = [p] :=
      filter_cons_of_pos (decide_eq_true hp)
    rw [hone]
    rfl
  · have hnone : [p].filter (fun p => decide (p.1 = id)) = [] :=
      filter_cons_of_neg fun h => hp (of_decide_eq_true h)
    rw [hnone]
    exact append_nil _

theorem receivedFrom_outs (g : Reassembly) (f : Frame) : receivedFrom id (receiver.outs g f) =
    if rxSender f = id then receiver.outs g f else [] := by
  have hsender := (step_sender g f).1
  split_ifs with hf
  · exact filter_eq_self.mpr fun msg hmsg => decide_eq_true ((hsender msg hmsg).1.trans hf)
  · refine filter_eq_nil_iff.mpr fun msg hmsg h => hf ?_
    exact (hsender msg hmsg).1.symm.trans (of_decide_eq_true h)

/-- **Projection.** The messages of a module are those of its frames alone. -/
theorem project (htag : ∀ p ∈ bus, rxSender p.2 = p.1) (h : Unmixed bus) (id : ModuleId) :
    receivedFrom id (receiver.trace (bus.map Prod.snd)) = receiver.trace (framesFrom id bus) ∧
      ((∀ a ∈ (fragmentsOn bus).getLast?, a.1 = id) →
        receiver.run (bus.map Prod.snd) = receiver.run (framesFrom id bus)) := by
  induction bus using List.reverseRecOn with
  | nil => exact ⟨rfl, fun _ => rfl⟩
  | append_singleton bus p ih =>
    have hsender := htag p (mem_append_right _ mem_cons_self)
    unfold Unmixed at h ih
    unfold fragmentsOn at h ih ⊢
    rw [filter_append] at h ⊢
    rw [isChain_append] at h
    obtain ⟨hreceived, hstate⟩ := ih (fun p' hp' => htag p' (mem_append_left _ hp')) h.1
    rw [map_append, map_singleton, Machine.trace_concat, Machine.run_concat]
    have hsplit : receivedFrom id (receiver.trace (bus.map Prod.snd) ++
        receiver.outs (receiver.run (bus.map Prod.snd)) p.2) =
          receiver.trace (framesFrom id bus) ++
            if p.1 = id then receiver.outs (receiver.run (bus.map Prod.snd)) p.2 else [] := by
      rw [← hreceived, ← hsender, ← receivedFrom_outs]
      exact filter_append ..
    rw [hsplit, framesFrom_concat]
    cases hfrag : looksFragment p.2 with
    | false =>
      -- the buffer stays as it is
      have hnone : [p].filter (fun p => looksFragment p.2) = [] :=
        filter_cons_of_neg (ne_true_of_eq_false hfrag)
      have hnext (g : Reassembly) : receiver.next g p.2 = g := congrArg Prod.fst (step_single hfrag)
      have houts (g g' : Reassembly) : receiver.outs g p.2 = receiver.outs g' p.2 := by
        unfold Machine.outs
        rw [step_single hfrag, step_single hfrag]
      rw [hnone, append_nil, hnext]
      split_ifs with hid
      · rw [Machine.trace_concat, Machine.run_concat, hnext]
        exact ⟨congrArg _ (houts _ _), hstate⟩
      · exact ⟨append_nil _, hstate⟩
    | true =>
      have hone : [p].filter (fun p => looksFragment p.2) = [p] := filter_cons_of_pos hfrag
      rw [hone, getLast?_concat]
      split_ifs with hid
      · have hsame : receiver.step (receiver.run (bus.map Prod.snd)) p.2 =
            receiver.step (receiver.run (framesFrom id bus)) p.2 := by
          by_cases hfirst : fragIdx p.2 = 0
          · exact step_first hfrag hfirst _ _
          · rw [hstate fun a ha => ?_]
            have hlast := h.2.2 a ha p (by rw [hone]; rfl) hfirst
            exact hlast.trans hid
        rw [Machine.trace_concat, Machine.run_concat]
        exact ⟨congrArg (_ ++ ·) (congrArg Prod.snd hsame), fun _ => congrArg Prod.fst hsame⟩
      · exact ⟨append_nil _, fun hlast => absurd (hlast p rfl) hid⟩

/-! ## messages that are carried -/

theorem trace_fragments (htype : msgType &&& 7 = msgType)
    (hkind : msgType = msgDiscovery ∨ msgType = msgProposal) (id : ModuleId)
    (hpayload : payload ≠ []) (hj : data.length = 7 * j)
    (hroom : data.length + payload.length ≤ msgMaxLen)
    (hstate : restart g id msgType (UInt8.ofNat j) = ⟨data, id, msgType, UInt8.ofNat j, true⟩) :
    receiver.traceFrom g (fragments (canIdEncode msgType id) (UInt8.ofNat j) payload) =
      [⟨id, msgType, data ++ payload, (data ++ payload).length⟩] := by
  induction hn : payload.length using Nat.strongRecOn generalizing j data payload g with
  | ind n ih =>
    have hmax : msgMaxLen = 64 := rfl
    obtain ⟨hdata, hidx, hlooks⟩ := fragment_bits (j := j) (by omega) msgType id hpayload rfl
    have hbits := (header_bits (j := j) (by omega) payload).2
    have hsender := rxSender_transmit msgType id (header (UInt8.ofNat j) payload :: payload.take 7)
    have hrx := rxType_transmit msgType id (header (UInt8.ofNat j) payload :: payload.take 7)
    have hsucc : UInt8.ofNat (j + 1) = UInt8.ofNat j + 1 := UInt8.ofNat_add j 1
    rw [fragments_cons _ _ hpayload, ← hsucc]
    generalize canTransmit (canIdEncode msgType id)
      (header (UInt8.ofNat j) payload :: payload.take 7) = f at *
    rw [htype] at hrx hlooks
    have hrestart : restart g (rxSender f) (rxType f) (fragIdx f) =
        ⟨data, id, msgType, UInt8.ofNat j, true⟩ := by rw [hsender, hrx, hidx, hstate]
    have haccept : Accepts g f := by
      unfold Accepts
      rw [hrestart, hsender, hrx, hidx]
      exact ⟨rfl, rfl, rfl, rfl⟩
    have hjoin : join (restart g (rxSender f) (rxType f) (fragIdx f)).data ((rxData f).drop 1) =
        data ++ payload.take 7 := by
      rw [hrestart, hdata]
      refine if_pos ?_
      show data.length + (payload.take 7).length ≤ msgMaxLen
      rw [length_take]
      omega
    have hstep := step_accepted (hlooks.mpr hkind) haccept hjoin
    rw [hdata, getD_cons_zero, hsender, hrx, hidx, ← hsucc] at hstep
    unfold Machine.traceFrom Machine.outs Machine.next
    rw [hstep]
    by_cases hlast : payload.length ≤ 7
    · have hall : (data ++ payload).take msgMaxLen = data ++ payload :=
        take_of_length_le (by rw [length_append]; exact hroom)
      rw [if_pos (hbits.mpr hlast), take_of_length_le hlast, drop_eq_nil_of_le hlast,
        fragments_nil, hall]
      rfl
    · rw [if_neg fun h => hlast (hbits.mp h)]
      have hdrop : (payload.drop 7).length = payload.length - 7 := length_drop
      have htake : (data ++ payload.take 7).length = 7 * (j + 1) := by
        rw [length_append, length_take]
        omega
      have hfull : restart ⟨data ++ payload.take 7, id, msgType, UInt8.ofNat (j + 1), true⟩ id
          msgType (UInt8.ofNat (j + 1)) =
            ⟨data ++ payload.take 7, id, msgType, UInt8.ofNat (j + 1), true⟩ := by
        refine if_neg fun hzero => ?_
        have := congrArg UInt8.toNat hzero
        rw [UInt8.toNat_ofNat_of_lt' (by show j + 1 < 256; omega)] at this
        exact Nat.succ_ne_zero j this
      have hnext := ih (payload.drop 7).length (by omega) (length_pos_iff.mp (by omega)) htake
        (by omega) hfull rfl
      rw [append_assoc, take_append_drop] at hnext
      exact hnext

/-- **One message.** It is received, whatever came before. -/
theorem trace_message (hlen : m.payload.length ≤ msgMaxLen) (h : Carried m) (id : ModuleId)
    (g : Reassembly) : receiver.traceFrom g (framesOf id m) = [messageOf id m] := by
  have htype := type_and h.type
  rw [framesOf_eq id hlen]
  split_ifs with hsmall
  · have hdata := rxData_transmit (canIdEncode m.msgType id) hsmall
    have hlooks : looksFragment (canTransmit (canIdEncode m.msgType id) m.payload) = false := by
      unfold looksFragment
      rw [hdata, rxType_transmit, htype]
      exact h.single hsmall
    unfold Machine.traceFrom Machine.traceFrom Machine.outs
    rw [step_single hlooks, hdata, rxType_transmit, rxSender_transmit, htype]
    rfl
  · have hlong := Nat.not_le.mp hsmall
    have hpayload : m.payload ≠ [] := fun hnil => hsmall (by rw [hnil]; exact Nat.zero_le 8)
    exact trace_fragments htype (h.cut hlong) id hpayload
      (show ([] : List UInt8).length = 7 * 0 from rfl)
      (by rw [length_nil]; omega) (if_pos rfl)

theorem trace_messages (id : ModuleId) (ms : List Message)
    (hms : ∀ m ∈ ms, m.payload.length ≤ msgMaxLen ∧ Carried m) :
    receiver.trace (ms.flatMap (framesOf id)) = ms.map (messageOf id) := by
  induction ms using List.reverseRecOn with
  | nil => rfl
  | append_singleton ms m ih =>
    obtain ⟨hlen, hcarried⟩ := hms m (mem_append_right _ mem_cons_self)
    rw [flatMap_append, flatMap_singleton, Machine.trace_append,
      trace_message hlen hcarried, ih fun m' hm' => hms m' (mem_append_left _ hm'),
      map_append]
    rfl

/-- **Main.** The messages are delivered exactly when each can be told from a fragment and from
several messages, and the fragments of no two modules are mixed. -/
theorem delivered_iff (msgs : ModuleId → List Message) (bus : List (ModuleId × Frame))
    (hlen : ∀ id, ∀ m ∈ msgs id, m.payload.length ≤ msgMaxLen) (hbus : Interleaved msgs bus) :
    Delivered msgs (receiver.trace (bus.map Prod.snd)) ↔
      (∀ id, ∀ m ∈ msgs id, Carried m) ∧ Unmixed bus := by
  have htag := tag_eq hlen hbus
  constructor
  · intro h
    obtain ⟨hcarried, haccepts⟩ := carried_of_delivered hlen hbus h
    exact ⟨hcarried, (unmixed_of_accepts htag haccepts).1⟩
  · rintro ⟨hcarried, hunmixed⟩ id
    have hproject := (project htag hunmixed id).1
    rw [show framesFrom id bus = _ from hbus id,
      trace_messages id _ fun m hm => ⟨hlen id m hm, hcarried id m hm⟩] at hproject
    exact List.Perm.of_eq hproject

/-! ## examples -/

def tagged (id : ModuleId) (ms : List Message) : List (ModuleId × Frame) :=
  (ms.flatMap (framesOf id)).map fun f => (id, f)

theorem framesFrom_tagged (id id' : ModuleId) (ms : List Message) :
    framesFrom id (tagged id' ms) = if id' = id then ms.flatMap (framesOf id') else [] := by
  unfold framesFrom tagged
  split_ifs with h
  · rw [filter_eq_self.mpr fun p hp => ?_, map_map]
    · exact map_id' _
    · obtain ⟨f, -, rfl⟩ := mem_map.mp hp
      exact decide_eq_true h
  · rw [filter_eq_nil_iff.mpr fun p hp => ?_]
    · rfl
    · obtain ⟨f, -, rfl⟩ := mem_map.mp hp
      exact fun hd => h (of_decide_eq_true hd)

def sampleMsgs (id : ModuleId) : List Message :=
  if id = 1 then [⟨2, List.replicate 9 5⟩] else if id = 2 then [⟨1, [6]⟩] else []

def sampleBus : List (ModuleId × Frame) := tagged 1 (sampleMsgs 1) ++ tagged 2 (sampleMsgs 2)

theorem mem_sampleMsgs (h : m ∈ sampleMsgs id) :
    id = 1 ∧ m = ⟨2, List.replicate 9 5⟩ ∨ id = 2 ∧ m = ⟨1, [6]⟩ := by
  unfold sampleMsgs at h
  split_ifs at h with h1 h2
  · exact .inl ⟨h1, mem_singleton.mp h⟩
  · exact .inr ⟨h2, mem_singleton.mp h⟩
  · exact absurd h not_mem_nil

theorem delivered_sample :
    Delivered sampleMsgs (receiver.trace (sampleBus.map Prod.snd)) := by
  refine (delivered_iff sampleMsgs sampleBus ?_ ?_).mpr ⟨?_, ?_⟩
  · intro id m hm
    rcases mem_sampleMsgs hm with ⟨-, rfl⟩ | ⟨-, rfl⟩ <;> decide
  · intro id
    show framesFrom id (tagged 1 _ ++ tagged 2 _) = _
    have happend : framesFrom id (tagged 1 (sampleMsgs 1) ++ tagged 2 (sampleMsgs 2)) =
        framesFrom id (tagged 1 (sampleMsgs 1)) ++ framesFrom id (tagged 2 (sampleMsgs 2)) := by
      unfold framesFrom
      rw [filter_append, map_append]
    rw [happend, framesFrom_tagged, framesFrom_tagged]
    by_cases h1 : id = 1
    · rw [h1, if_pos rfl, if_neg (by decide), append_nil]
    by_cases h2 : id = 2
    · rw [h2, if_pos rfl, if_neg (by decide)]
      rfl
    rw [if_neg fun h => h1 h.symm, if_neg fun h => h2 h.symm]
    unfold sampleMsgs
    rw [if_neg h1, if_neg h2]
    rfl
  · intro id m hm
    rcases mem_sampleMsgs hm with ⟨-, rfl⟩ | ⟨-, rfl⟩
    · exact ⟨by decide, by decide, fun _ => .inl rfl⟩
    · exact ⟨by decide, by decide, by decide⟩
  · have hone : ∀ p ∈ fragmentsOn sampleBus, p.1 = 1 := by
      intro p hp
      obtain ⟨hmem, hfrag⟩ := mem_filter.mp hp
      rcases mem_append.mp hmem with hmem | hmem
      · obtain ⟨f, -, rfl⟩ := mem_map.mp hmem
        rfl
      · obtain ⟨f, hf, rfl⟩ := mem_map.mp hmem
        obtain rfl : f = canTransmit (canIdEncode 1 2) [6] := mem_singleton.mp hf
        exact absurd hfrag (by decide)
    refine (pairwise_of_forall_mem_list fun a ha b hb _ => ?_).isChain
    exact (hone a ha).trans (hone b hb).symm

/-- the type of an application message does not fit into the identifier -/
theorem not_delivered_user : Interleaved (fun id => if id = 1 then [⟨0x80, [7]⟩] else [])
      (tagged 1 [⟨0x80, [7]⟩]) ∧
    ¬Delivered (fun id => if id = 1 then [⟨0x80, [7]⟩] else [])
      (receiver.trace ((tagged 1 [⟨0x80, [7]⟩]).map Prod.snd)) := by
  constructor
  · intro id
    show framesFrom id (tagged 1 _) = _
    rw [framesFrom_tagged]
    by_cases h : id = 1
    · rw [h]
      rfl
    · dsimp only
      rw [if_neg fun h1 => h h1.symm, if_neg h]
      rfl
  · intro h
    have hmem := (h 1).mem_iff.mpr (mem_map_of_mem (mem_singleton.mpr rfl))
    exact absurd (trace_type _ _ (mem_of_mem_filter hmem)) (by decide)

end Can
end EkKor
