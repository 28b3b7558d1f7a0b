import EkKor.Module.Frames
import EkKor.Module.Records

/-!
# Bytes of earlier frames

* `OwnBytes`           what a frame does depends only on its own bytes, and it does nothing if it is
                       too short for its message;
* `Harmless`           the condition: it is long enough, or it has an invalid id;
* `processRxMessages_encode`   frames that carry messages do what `receive` does;
* `handle_changes`     a message with valid ids changes some module;
* `own_bytes_iff`      a frame has the property exactly if it meets the condition.
-/

namespace EkKor
namespace Frames
open EkKor.Module (maxMessages Rx Statics)
open List

variable {f : Frame} {now : TimeUs} {n n' : Node} {buffer buffer' : Buffer} {data : List UInt8}
  {frames : List Frame}

/-! ## the property and the condition -/

/-- after any frames that have the same effect the frame has the same effect, and it has none if it
is too short for its message -/
structure OwnBytes (f : Frame) : Prop where
  same : ∀ now n n' buffer buffer', ∀ frames frames' : List Frame,
    frames.length < maxMessages → frames'.length < maxMessages →
    processRxMessages now n buffer frames = processRxMessages now n' buffer' frames' →
    processRxMessages now n buffer (frames ++ [f]) =
      processRxMessages now n' buffer' (frames' ++ [f])
  short : f.data.length < messageSize f.msgType → ∀ now n buffer, ∀ frames : List Frame,
    frames.length < maxMessages →
    processRxMessages now n buffer (frames ++ [f]) = processRxMessages now n buffer frames

def Invalid (f : Frame) : Prop :=
  f.data[1]? = some 0 ∨
    (f.msgType = 4 ∨ f.msgType = 5) ∧ f.data[2]? = some 0 ∧ f.data[3]? = some 0

def Harmless (f : Frame) : Prop := messageSize f.msgType ≤ f.data.length ∨ Invalid f

instance (f : Frame) : Decidable (Invalid f) := inferInstanceAs (Decidable (_ ∨ _))

instance (f : Frame) : Decidable (Harmless f) := inferInstanceAs (Decidable (_ ∨ _))

/-! ## one frame -/

def leftovers (now : TimeUs) (n : Node) (buffer : Buffer) (frames : List Frame) : Buffer :=
  ((frames.take maxMessages).foldl (step now) (n, buffer)).2

theorem processRxMessages_concat (h : frames.length < maxMessages) :
    processRxMessages now n buffer (frames ++ [f]) =
      handle now (processRxMessages now n buffer frames)
        (read f.msgType (fill (leftovers now n buffer frames) f.data)) f.time := by
  unfold processRxMessages leftovers
  rw [take_of_length_le (by rw [length_append, length_singleton]; exact h),
    take_of_length_le (Nat.le_of_lt h), foldl_concat]
  rfl

variable {i : Nat} {senderId : ModuleId} {ballotId : BallotId}

theorem fill_own (h : i < data.length) : fill buffer data i = fill buffer' data i := by
  unfold fill
  rw [getD_eq_getElem?_getD, getD_eq_getElem?_getD, getElem?_eq_getElem h]
  rfl

theorem read_own {msgType : UInt8} (buffer' : Buffer) (h : messageSize msgType ≤ data.length) :
    read msgType (fill buffer data) = read msgType (fill buffer' data) := by
  have hown (i : Nat) (hi : i < messageSize msgType) : fill buffer data i = fill buffer' data i :=
    fill_own (Nat.lt_of_lt_of_le hi h)
  unfold messageSize at hown
  unfold read half word
  split_ifs at hown ⊢ with h1 h2 h4 h5
  · rw [hown 1 (by decide), hown 2 (by decide)]
  · rw [hown 1 (by decide), hown 2 (by decide), hown 3 (by decide), hown 4 (by decide),
      hown 5 (by decide), hown 6 (by decide), hown 7 (by decide)]
  · rw [hown 1 (by decide), hown 2 (by decide), hown 3 (by decide), hown 4 (by decide),
      hown 5 (by decide), hown 6 (by decide), hown 7 (by decide), hown 8 (by decide),
      hown 9 (by decide), hown 10 (by decide), hown 11 (by decide), hown 12 (by decide)]
  · rw [hown 1 (by decide), hown 2 (by decide), hown 3 (by decide), hown 4 (by decide)]
  · rfl

def Fields.Valid : Fields → Prop
  | .heartbeat senderId _ => senderId ≠ invalidModuleId
  | .discovery senderId _ => senderId ≠ invalidModuleId
  | .proposal proposerId ballotId _ _ _ =>
    proposerId ≠ invalidModuleId ∧ ballotId ≠ invalidBallotId
  | .vote voterId ballotId _ => voterId ≠ invalidModuleId ∧ ballotId ≠ invalidBallotId
  | .other => False

theorem handle_invalid {fields : Fields} (h : ¬fields.Valid) (time : TimeUs) :
    handle now n fields time = n := by
  cases fields with
  | heartbeat senderId sequence =>
    have hreceived : Heartbeat.received n.statics.heartbeat senderId sequence now = _ :=
      if_pos (not_not.mp h)
    unfold handle
    dsimp only
    rw [hreceived]
    rfl
  | discovery senderId position =>
    have hid : senderId = invalidModuleId := not_not.mp h
    have hdiscovery : Topology.onDiscovery n.statics.topology n.topology senderId position time =
        _ := if_pos hid
    have hadd : Heartbeat.addNeighbor n.statics.heartbeat senderId = _ := if_pos hid
    unfold handle onDiscovery
    dsimp only
    rw [hdiscovery]
    rw [hadd]
  | proposal proposerId ballotId type data threshold =>
    have hids : proposerId = invalidModuleId ∨ ballotId = invalidBallotId := by
      by_contra hne
      exact h (not_or.mp hne)
    exact congrArg (fun cons => { n with consensus := cons }) (if_pos hids)
  | vote voterId ballotId vote =>
    have hids : voterId = invalidModuleId ∨ ballotId = invalidBallotId := by
      by_contra hne
      exact h (not_or.mp hne)
    exact congrArg (fun cons => { n with consensus := cons }) (if_pos hids)
  | other => rfl

/-! ### the ids in the buffer -/

theorem half_eq_zero : half buffer i = 0 ↔ buffer i = 0 ∧ buffer (i + 1) = 0 := by
  have h₀ := (buffer i).toNat_lt
  have h₁ := (buffer (i + 1)).toNat_lt
  have hval : (half buffer i).toNat = (buffer i).toNat + 256 * (buffer (i + 1)).toNat :=
    Nat.mod_eq_of_lt (by omega)
  rw [← UInt16.toNat_inj, ← UInt8.toNat_inj, ← UInt8.toNat_inj, hval]
  show (buffer i).toNat + 256 * (buffer (i + 1)).toNat = 0 ↔
    (buffer i).toNat = 0 ∧ (buffer (i + 1)).toNat = 0
  omega

theorem fill_zero (h : data[i]? = some 0) : fill buffer data i = 0 := by
  unfold fill
  rw [getD_eq_getElem?_getD, h]
  rfl

theorem fill_ones : fill (fun _ => 1) data i = 0 ↔ data[i]? = some 0 := by
  unfold fill
  rw [getD_eq_getElem?_getD]
  cases data[i]? with
  | none => exact iff_of_false (show ¬(1 : UInt8) = 0 by decide) fun h => by cases h
  | some b => exact Option.some_inj.symm

theorem read_invalid (h : Invalid f) : ¬(read f.msgType (fill buffer f.data)).Valid := by
  unfold read Fields.Valid
  rcases h with hsender | ⟨htype, hlow, hhigh⟩
  · have hzero : fill buffer f.data 1 = invalidModuleId := fill_zero hsender
    split_ifs
    · exact fun hvalid => hvalid hzero
    · exact fun hvalid => hvalid hzero
    · exact fun hvalid => hvalid.1 hzero
    · exact fun hvalid => hvalid.1 hzero
    · exact fun hvalid => hvalid
  · have hzero : half (fill buffer f.data) 2 = invalidBallotId :=
      half_eq_zero.mpr ⟨fill_zero hlow, fill_zero hhigh⟩
    rcases htype with h4 | h5
    · rw [h4]
      exact fun hvalid => hvalid.2 hzero
    · rw [h5]
      exact fun hvalid => hvalid.2 hzero

theorem read_valid (h : ¬Harmless f) : (read f.msgType (fill (fun _ => 1) f.data)).Valid := by
  obtain ⟨hshort, hvalid⟩ := not_or.mp h
  obtain ⟨hsender, hballot⟩ := not_or.mp hvalid
  have hid : fill (fun _ => 1) f.data 1 ≠ invalidModuleId := mt fill_ones.mp hsender
  have hballotId (htype : f.msgType = 4 ∨ f.msgType = 5) :
      half (fill (fun _ => 1) f.data) 2 ≠ invalidBallotId := fun hzero => by
    obtain ⟨hlow, hhigh⟩ := half_eq_zero.mp hzero
    exact hballot ⟨htype, fill_ones.mp hlow, fill_ones.mp hhigh⟩
  unfold messageSize at hshort
  unfold read Fields.Valid
  split_ifs at hshort ⊢ with h1 h2 h4 h5
  · exact hid
  · exact hid
  · exact ⟨hid, hballotId (.inl h4)⟩
  · exact ⟨hid, hballotId (.inr h5)⟩
  · exact hshort (Nat.zero_le _)

theorem handle_own (h : Harmless f) :
    handle now n (read f.msgType (fill buffer f.data)) f.time =
      handle now n (read f.msgType (fill buffer' f.data)) f.time := by
  rcases h with hlong | hinvalid
  · rw [read_own _ hlong]
  · rw [handle_invalid (read_invalid hinvalid), handle_invalid (read_invalid hinvalid)]

/-! ## messages that change something -/

def started (myId : ModuleId) (neighbors : List Heartbeat.Neighbor) (ballots : List Ballot) :
    Node where
  statics :=
    { Module.Statics.zero with
      heartbeat := ⟨myId, neighbors, 0, 0, Heartbeat.Config.default, ⟨true, true, true⟩⟩ }
  topology := { Module.zero.topology with myId := myId, config := Topology.Config.default }
  consensus := ⟨myId, ballots, [], 1, ⟨voteTimeoutUs, 100000, false⟩⟩

def openBallot (id : BallotId) : Ballot where
  id := id
  type := 0
  proposer := 1
  proposalData := 0
  threshold := fixedOne
  deadline := 0
  votes := fun _ => 0
  voteCount := 0
  yesCount := 0
  noCount := 0
  result := .pending
  completed := false

theorem callbacks_statics (time : TimeUs) (n : Node) (outs : List Heartbeat.Out) :
    (outs.foldl (callback time) n).statics.heartbeat = n.statics.heartbeat := by
  induction outs generalizing n with
  | nil => rfl
  | cons out outs ih =>
    rw [foldl_cons, ih]
    cases out <;> rfl

theorem heartbeat_changes (hid : senderId ≠ invalidModuleId) (sequence : UInt8) (now time : TimeUs) :
    handle now (started 1 [Heartbeat.newNeighbor senderId] []) (.heartbeat senderId sequence) time ≠
      started 1 [Heartbeat.newNeighbor senderId] [] := by
  have hsound : Heartbeat.Sound
      (started 1 [Heartbeat.newNeighbor senderId] []).statics.heartbeat :=
    ⟨nodup_singleton senderId, fun hmem => hid (mem_singleton.mp hmem).symm⟩
  have hbefore : Heartbeat.find (started 1 [Heartbeat.newNeighbor senderId] []).statics.heartbeat
      senderId = some (Heartbeat.newNeighbor senderId) :=
    Keyed.lookup_of_mem (a := Heartbeat.newNeighbor senderId) hsound.nodup mem_cons_self
  have hafter := ((Heartbeat.received_eq hsound senderId sequence now).2.2.2 senderId).1
  intro heq
  have hfind := congrArg (fun n => (Heartbeat.find n.statics.heartbeat senderId).map
    Heartbeat.Neighbor.health) heq
  unfold handle at hfind
  rw [callbacks_statics, hafter, hbefore] at hfind
  unfold Heartbeat.act at hfind
  dsimp only at hfind
  rw [if_pos rfl] at hfind
  have hhealth : Health.alive = .unknown := Option.some.inj hfind
  cases hhealth

theorem discovery_changes (hid : senderId ≠ invalidModuleId) (position : Topology.Position)
    (now time : TimeUs) :
    handle now (started 1 [] []) (.discovery senderId position) time ≠ started 1 [] [] := by
  intro heq
  have hneighbors := congrArg (fun n => n.statics.heartbeat.neighbors) heq
  have hadd : (Heartbeat.addNeighbor (started 1 [] []).statics.heartbeat senderId).2.neighbors =
      [Heartbeat.newNeighbor senderId] := by
    unfold Heartbeat.addNeighbor
    rw [if_neg hid]
    rfl
  cases hadd.symm.trans hneighbors

theorem proposal_changes {myId proposerId : ModuleId} (hid : proposerId ≠ invalidModuleId)
    (hballot : ballotId ≠ invalidBallotId) (hother : proposerId ≠ myId) (type : UInt8)
    (data : UInt32) (threshold : Int32) (now time : TimeUs) :
    handle now (started myId [] []) (.proposal proposerId ballotId type data threshold) time ≠
      started myId [] [] := by
  intro heq
  have hlength := congrArg (fun n => n.consensus.ballots.length) heq
  unfold handle onProposal at hlength
  dsimp only at hlength
  rw [if_neg (not_or.mpr ⟨hid, hballot⟩),
    if_neg (show ¬proposerId = (started myId [] []).consensus.myId from hother)] at hlength
  exact absurd (show 1 = 0 from hlength) (by decide)

theorem cancel_inhibited (cons : Consensus) (ballotId : BallotId) :
    (cancel cons ballotId).inhibited = cons.inhibited := by
  unfold cancel
  cases findBallot cons ballotId with
  | none => rfl
  | some found =>
    dsimp only
    split_ifs <;> rfl

theorem settle_voteCount (ballot : Ballot) (result : Option VoteResult) :
    (settle ballot result).voteCount = ballot.voteCount := by
  cases result <;> rfl

theorem vote_changes {voterId : ModuleId} (hid : voterId ≠ invalidModuleId)
    (hballot : ballotId ≠ invalidBallotId) (vote : UInt8) (now time : TimeUs) :
    handle now (started 1 [] [openBallot ballotId]) (.vote voterId ballotId vote) time ≠
      started 1 [] [openBallot ballotId] := by
  intro heq
  have hcons : onVote (started 1 [] [openBallot ballotId]).consensus voterId ballotId vote time =
      (started 1 [] [openBallot ballotId]).consensus := congrArg Node.consensus heq
  unfold onVote at hcons
  rw [if_neg (not_or.mpr ⟨hid, hballot⟩)] at hcons
  by_cases hinhibit : vote = 3
  · rw [if_pos hinhibit] at hcons
    have hlength := congrArg (fun cons => cons.inhibited.length) hcons
    rw [cancel_inhibited] at hlength
    exact absurd (show 1 = 0 from hlength) (by decide)
  · have hfind : findBallot (started 1 [] [openBallot ballotId]).consensus ballotId =
        some (0, openBallot ballotId) := by
      have hindex : [openBallot ballotId].findIdx? (fun b => b.id == ballotId) = some 0 :=
        findIdx?_cons.trans (if_pos (beq_self_eq_true ballotId))
      exact congrArg (fun o : Option Nat => o.bind fun idx =>
        ([openBallot ballotId][idx]?).map fun b => (idx, b)) hindex
    rw [if_neg hinhibit, hfind] at hcons
    have hcount := congrArg (fun cons => cons.ballots.map Ballot.voteCount) hcons
    have hone : [(settle (recordVote (openBallot ballotId) voterId vote) (Consensus.early
        (recordVote (openBallot ballotId) voterId vote).tally)).voteCount] = [0] := hcount
    rw [settle_voteCount] at hone
    exact absurd (show ([1] : List UInt8) = [0] from hone) (by decide)

/-- **Main.** A message with valid ids changes some module. -/
theorem handle_changes {fields : Fields} (h : fields.Valid) (now time : TimeUs) :
    ∃ n, handle now n fields time ≠ n := by
  cases fields with
  | heartbeat senderId sequence => exact ⟨_, heartbeat_changes h sequence now time⟩
  | discovery senderId position => exact ⟨_, discovery_changes h position now time⟩
  | proposal proposerId ballotId type data threshold =>
    by_cases hone : proposerId = 1
    · have htwo : proposerId ≠ 2 := hone ▸ by decide
      exact ⟨_, proposal_changes h.1 h.2 htwo type data threshold now time⟩
    · exact ⟨_, proposal_changes h.1 h.2 hone type data threshold now time⟩
  | vote voterId ballotId vote => exact ⟨_, vote_changes h.1 h.2 vote now time⟩
  | other => exact h.elim

/-! ## messages -/

/-- the frame has all bytes of its message, and they are those of the message -/
structure Carries (f : Frame) (rx : Rx) : Prop where
  whole : messageSize f.msgType ≤ f.data.length
  encodes : Encodes rx.message (read f.msgType (fill (fun _ => 0) f.data))
  time : f.time = rx.time

theorem step_encode {f : Frame} {rx : Rx} (h : Carries f rx) (now : TimeUs) (s : Statics × Module)
    (buffer : Buffer) :
    step now (encode s, buffer) f = (encode (Module.receive now s rx).1, fill buffer f.data) := by
  unfold step
  dsimp only
  rw [read_own (fun _ => 0) h.whole, handle_encode now h.encodes, h.time]

/-- **Received messages.** Whatever is on the stack, frames that carry messages do what the messages
do. -/
theorem processRxMessages_encode (now : TimeUs) (s : Statics × Module) (buffer : Buffer)
    {frames : List Frame} {rxs : List Rx} (h : Forall₂ Carries frames rxs) :
    processRxMessages now (encode s) buffer frames =
      encode ((Module.processRxMessages now s).run (rxs.take maxMessages)) := by
  have htake := forall₂_take maxMessages h
  unfold processRxMessages
  generalize frames.take maxMessages = frames' at htake ⊢
  generalize rxs.take maxMessages = rxs' at htake ⊢
  induction htake generalizing s buffer with
  | nil => rfl
  | cons hcarries _ ih =>
    rw [foldl_cons, step_encode hcarries]
    exact ih _ _

/-! ## the theorem -/

/-- **The bytes of a frame.**  What a frame does depends only on its own bytes, and it does nothing
if it is too short, exactly if it is long enough for its message or has an invalid id -/
theorem own_bytes_iff (f : Frame) : OwnBytes f ↔ Harmless f := by
  constructor
  · intro h
    by_contra hharmful
    obtain ⟨n, hn⟩ := handle_changes (read_valid hharmful) 0 f.time
    have hshort := h.short (Nat.not_le.mp (not_or.mp hharmful).1) 0 n (fun _ => 1) [] (by decide)
    exact hn hshort
  · intro h
    refine ⟨fun now n n' buffer buffer' frames frames' hroom hroom' hsame => ?_,
      fun hshort now n buffer frames hroom => ?_⟩
    · rw [processRxMessages_concat hroom, processRxMessages_concat hroom', hsame]
      exact handle_own h
    · rw [processRxMessages_concat hroom]
      exact handle_invalid (read_invalid (h.resolve_left (Nat.not_le.mpr hshort))) f.time

def discovery11 : Frame := ⟨11, 2, [2, 11, 0, 0, 0, 0, 0, 0, 0, 0, 0, 0], by decide, 5⟩

theorem processRxMessages_discovery :
    processRxMessages 5 (encode (.zero, .zero)) (fun _ => 0xFF) [discovery11] =
      encode ((Module.processRxMessages 5 (.zero, .zero)).run [⟨.discovery 11 ⟨0, 0, 0⟩, 5⟩]) :=
  processRxMessages_encode 5 _ _ (.cons ⟨by decide, .discovery 11 ⟨0, 0, 0⟩, rfl⟩ .nil)

def fieldFrame (b : UInt8) : Frame := ⟨12, 3, [3, b, b], Nat.le_add_left 3 61, 5⟩

def shortHeartbeat : Frame := ⟨12, 1, [1], by decide, 5⟩

/-- behind different field messages, a heartbeat of one byte does nothing or makes module 11 alive -/
theorem shortHeartbeat_alive : ∃ g mod,
    Module.init Module.Statics.zero Module.zero 10 ⟨0, 0, 0⟩ = (.ok (), g, mod) ∧
    processRxMessages 5 (encode (g, mod)) (fun _ => 0) [discovery11, fieldFrame 0] =
      processRxMessages 5 (encode (g, mod)) (fun _ => 0) [discovery11, fieldFrame 11] ∧
    Heartbeat.getHealth (processRxMessages 5 (encode (g, mod)) (fun _ => 0)
      [discovery11, fieldFrame 0, shortHeartbeat]).statics.heartbeat 11 = .unknown ∧
    Heartbeat.getHealth (processRxMessages 5 (encode (g, mod)) (fun _ => 0)
      [discovery11, fieldFrame 11, shortHeartbeat]).statics.heartbeat 11 = .alive ∧
    ¬OwnBytes shortHeartbeat := by
  refine ⟨_, _, rfl, rfl, by decide, by decide, fun h => ?_⟩
  have hsame := h.same 5 _ _ (fun _ => 0) (fun _ => 0) [discovery11, fieldFrame 0]
    [discovery11, fieldFrame 11] (by decide) (by decide)
    (show processRxMessages 5 (encode (Module.init Module.Statics.zero Module.zero 10
      ⟨0, 0, 0⟩).2) _ _ = processRxMessages 5 (encode (Module.init Module.Statics.zero Module.zero
      10 ⟨0, 0, 0⟩).2) _ _ from rfl)
  exact absurd (congrArg (fun n => Heartbeat.getHealth n.statics.heartbeat 11) hsame) (by decide)

end Frames
end EkKor
