import EkKor.Gossip.Model
import EkKor.Lib.Packed
import Mathlib.Tactic.Common

/-!
# Messages as bytes

`ekk_gossip_handle_msg` gets the bytes of a message and casts them.

* `readMsg`         the message in the bytes, if they are long enough for its type;
* `answerLoads`, `handleBytes`   the call, with the number of loads; no result when `fuel` rounds of
                    the request loop are not enough;
* `AsksForAll`      the bytes are a request for the own events up to number 2^32 - 1;
* `terminates_iff`  the call returns after at most `to_seq - from_seq + 1` loads if and only if the
                    bytes are no such request;
* `asks_for_all`    one of twelve bytes.
-/

namespace EkKor
namespace Gossip

/-! ## the bytes of a message -/

def wordAt (data : List UInt8) (i : Nat) : UInt32 :=
  LittleEndian.word (data.getD i 0) (data.getD (i + 1) 0) (data.getD (i + 2) 0)
    (data.getD (i + 3) 0)

/-- the 36 bytes of an `ekk_event_v2_t` at an offset -/
def eventAt (data : List UInt8) (i : Nat) : EventV2 :=
  { sequence := wordAt data i
    timestampUs := wordAt data (i + 4)
    eventType := data.getD (i + 8) 0
    flags := data.getD (i + 9) 0
    originId := data.getD (i + 10) 0
    hopCount := data.getD (i + 11) 0
    originSeq := wordAt data (i + 12)
    payload := Vector.ofFn fun k => data.getD (i + 16 + k.val) 0 }

/-- `EKK_MSG_EVENT_GOSSIP`, `EKK_MSG_EVENT_ACK`, `EKK_MSG_EVENT_REQUEST` -/
abbrev msgEventGossip : UInt8 := 0x60
abbrev msgEventAck : UInt8 := 0x61
abbrev msgEventRequest : UInt8 := 0x62

/-- the size of `ekk_gossip_msg_t`, `ekk_gossip_ack_t` and `ekk_gossip_request_t` -/
abbrev gossipMsgSize : Nat := 82
abbrev gossipAckSize : Nat := 19
abbrev gossipRequestSize : Nat := 12

/-- the message that `ekk_gossip_handle_msg` finds in the bytes; `none` for
`EKK_ERR_INVALID_ARG` -/
def readMsg (data : List UInt8) : Option Msg :=
  match data with
  | [] => none
  | msgType :: _ =>
    if msgType = msgEventGossip then
      if data.length < gossipMsgSize then none
      else some (.gossip
        { sourceModule := data.getD 1 0
          eventCount := data.getD 2 0
          vvSummary := Vector.ofFn fun k => data.getD (3 + k.val) 0
          events := [eventAt data 10, eventAt data 46].take (data.getD 2 0).toNat })
    else if msgType = msgEventAck then
      if data.length < gossipAckSize then none else some .ack
    else if msgType = msgEventRequest then
      if data.length < gossipRequestSize then none
      else some (.request
        { requester := data.getD 1 0
          targetOrigin := data.getD 2 0
          fromSeq := wordAt data 4
          toSeq := wordAt data 8 })
    else none

/-! ## the call -/

section
variable (load : ModuleId → UInt32 → Option EventV2)

/-- the loop of the `EKK_MSG_EVENT_REQUEST` case with the number of its loads -/
def answerLoads (requester : ModuleId) (toSeq : UInt32) :
    Nat → Ctx → UInt32 → Option (Nat × Ctx × List Out)
  | 0, _, _ => none
  | fuel + 1, ctx, seq =>
    if seq ≤ toSeq then
      match load ctx.myId seq with
      | some event =>
        let (ctx, out) := sendGossipToNeighbor ctx requester [event]
        (answerLoads requester toSeq fuel
          { ctx with stats := { ctx.stats with gapsFilled := ctx.stats.gapsFilled + 1 } }
          (seq + 1)).map fun (loads, ctx, out') => (loads + 1, ctx, out ++ out')
      | none => (answerLoads requester toSeq fuel ctx (seq + 1)).map fun (loads, r) =>
          (loads + 1, r)
    else some (0, ctx, [])

/-- `ekk_gossip_handle_msg` with the number of its loads -/
def handleBytes (fuel : Nat) (ctx : Ctx) (data : List UInt8) :
    Option (Nat × Except Err Unit × Ctx × List Out) :=
  match readMsg data with
  | none => some (0, .error .invalidArg, ctx, [])
  | some (.request req) =>
    if req.targetOrigin = ctx.myId then
      (answerLoads load req.requester req.toSeq fuel ctx req.fromSeq).map
        fun (loads, r) => (loads, .ok (), r)
    else some (0, .ok (), ctx, [])
  | some msg => (handleMsg load ctx msg).map fun r => (0, .ok (), r)

theorem answerLoads_answer (requester : ModuleId) (toSeq : UInt32) (fuel : Nat) (ctx : Ctx)
    (seq : UInt32) : (answerLoads load requester toSeq fuel ctx seq).map Prod.snd
      = answer load requester toSeq fuel ctx seq := by
  induction fuel generalizing ctx seq with
  | zero => rfl
  | succ fuel ih =>
    rw [answerLoads, answer]
    split_ifs
    · cases load ctx.myId seq with
      | none =>
        rw [← ih, Option.map_map]
        rfl
      | some event =>
        dsimp only
        rw [← ih, Option.map_map, Option.map_map]
        rfl
    · rfl

/-- on the bytes of a message the call does what `handleMsg` does -/
theorem handleBytes_msg {ctx : Ctx} {data : List UInt8} {msg : Msg} (h : readMsg data = some msg) :
    (handleBytes load answerFuel ctx data).map Prod.snd
      = (handleMsg load ctx msg).map fun r => (.ok (), r) := by
  unfold handleBytes
  rw [h]
  cases msg with
  | gossip msg => rfl
  | ack => rfl
  | request req =>
    dsimp only [handleMsg]
    split_ifs
    · rw [← answerLoads_answer, Option.map_map, Option.map_map]
      rfl
    · rfl

/-! ## the request loop -/

theorem answerLoads_all (requester : ModuleId) (fuel : Nat) (ctx : Ctx) (seq : UInt32) :
    answerLoads load requester 0xFFFFFFFF fuel ctx seq = none := by
  induction fuel generalizing ctx seq with
  | zero => rfl
  | succ fuel ih =>
    have hle : seq ≤ 0xFFFFFFFF := by
      exact Nat.le_of_lt_succ seq.toNat_lt
    rw [answerLoads, if_pos hle]
    cases load ctx.myId seq with
    | none =>
      rw [ih, Option.map_none]
    | some event =>
      dsimp only
      rw [ih, Option.map_none]

theorem next_seq {seq toSeq : UInt32} (hle : seq ≤ toSeq) (hlast : toSeq ≠ 0xFFFFFFFF) :
    (seq + 1).toNat = seq.toNat + 1 := by
  have hlt : toSeq.toNat ≠ 2 ^ 32 - 1 := fun h => hlast (UInt32.toNat_inj.mp h)
  have hto := toSeq.toNat_lt
  rw [UInt32.le_iff_toNat_le] at hle
  show (seq.toNat + 1) % 2 ^ 32 = seq.toNat + 1
  omega

theorem answerLoads_some (requester : ModuleId) {toSeq : UInt32} (hlast : toSeq ≠ 0xFFFFFFFF)
    {fuel : Nat} (ctx : Ctx) {seq : UInt32} (hfuel : toSeq.toNat + 1 ≤ fuel + seq.toNat) :
    ∃ r, answerLoads load requester toSeq (fuel + 1) ctx seq
      = some (toSeq.toNat + 1 - seq.toNat, r) := by
  induction fuel generalizing ctx seq with
  | zero =>
    have hseq : ¬ seq ≤ toSeq := by
      rw [UInt32.le_iff_toNat_le]
      omega
    rw [answerLoads, if_neg hseq, show toSeq.toNat + 1 - seq.toNat = 0 by omega]
    exact ⟨_, rfl⟩
  | succ fuel ih =>
    rw [answerLoads]
    split_ifs with hseq
    · have hnext := next_seq hseq hlast
      have hle := UInt32.le_iff_toNat_le.mp hseq
      have hloads : toSeq.toNat + 1 - (seq + 1).toNat + 1 = toSeq.toNat + 1 - seq.toNat := by omega
      cases load ctx.myId seq with
      | none =>
        obtain ⟨r, hr⟩ := ih ctx (show _ ≤ fuel + (seq + 1).toNat by omega)
        rw [hr, ← hloads]
        exact ⟨_, rfl⟩
      | some event =>
        obtain ⟨r, hr⟩ := ih { (sendGossipToNeighbor ctx requester [event]).1 with
          stats := { (sendGossipToNeighbor ctx requester [event]).1.stats with
            gapsFilled := (sendGossipToNeighbor ctx requester [event]).1.stats.gapsFilled + 1 } }
          (show _ ≤ fuel + (seq + 1).toNat by omega)
        dsimp only
        rw [hr, ← hloads]
        exact ⟨_, rfl⟩
    · rw [UInt32.le_iff_toNat_le] at hseq
      rw [show toSeq.toNat + 1 - seq.toNat = 0 by omega]
      exact ⟨_, rfl⟩

end

/-! ## termination -/

/-- `to_seq - from_seq + 1` for a request, no load for any other message -/
def requested (data : List UInt8) : Nat :=
  match readMsg data with
  | some (.request req) => req.toSeq.toNat + 1 - req.fromSeq.toNat
  | _ => 0

def AsksForAll (ctx : Ctx) (data : List UInt8) : Prop :=
  ∃ req, readMsg data = some (.request req) ∧ req.targetOrigin = ctx.myId ∧ req.toSeq = 0xFFFFFFFF

def Terminates (load : ModuleId → UInt32 → Option EventV2) (ctx : Ctx) (data : List UInt8) : Prop :=
  ∃ fuel loads r, handleBytes load fuel ctx data = some (loads, r) ∧ loads ≤ requested data

/-- **Termination.**  For every context and all bytes: `ekk_gossip_handle_msg` returns, after at
most `to_seq - from_seq + 1` loads, if and only if the bytes do not ask for all own events. -/
theorem terminates_iff (load : ModuleId → UInt32 → Option EventV2) (ctx : Ctx)
    (data : List UInt8) : Terminates load ctx data ↔ ¬ AsksForAll ctx data := by
  constructor
  · rintro ⟨fuel, loads, r, hret, -⟩ ⟨req, hreq, htarget, hall⟩
    unfold handleBytes at hret
    rw [hreq] at hret
    dsimp only at hret
    rw [if_pos htarget, hall, answerLoads_all] at hret
    cases hret
  · intro hno
    unfold Terminates handleBytes
    cases hmsg : readMsg data with
    | none => exact ⟨0, 0, _, rfl, Nat.zero_le _⟩
    | some msg =>
      cases msg with
      | gossip msg => exact ⟨0, 0, _, rfl, Nat.zero_le _⟩
      | ack => exact ⟨0, 0, _, rfl, Nat.zero_le _⟩
      | request req =>
        by_cases htarget : req.targetOrigin = ctx.myId
        · have hlast : req.toSeq ≠ 0xFFFFFFFF := fun h => hno ⟨req, hmsg, htarget, h⟩
          obtain ⟨r, hr⟩ := answerLoads_some load req.requester hlast
            ctx (show _ ≤ req.toSeq.toNat + 1 + req.fromSeq.toNat by omega)
          refine ⟨req.toSeq.toNat + 1 + 1, req.toSeq.toNat + 1 - req.fromSeq.toNat, (.ok (), r),
            ?_, ?_⟩
          · dsimp only
            rw [if_pos htarget, hr]
            rfl
          · rw [requested, hmsg]
        · refine ⟨0, 0, (.ok (), ctx, []), ?_, Nat.zero_le _⟩
          dsimp only
          rw [if_neg htarget]

def alone : Ctx :=
  { myId := 1
    vv := []
    localSequence := 1
    neighbors := []
    pendingEvents := []
    bufferedEvents := []
    lastGossipTick := 0
    lastSync := 0
    stats := ⟨0, 0, 0, 0, 0, 0⟩ }

/-- module 2 asks module 1 for its events from 1 to 2^32 - 1 -/
theorem asks_for_all : ¬ Terminates (fun _ _ => none) alone
    [0x62, 2, 1, 0, 1, 0, 0, 0, 0xFF, 0xFF, 0xFF, 0xFF] := by
  rintro ⟨fuel, loads, r, hret, -⟩
  have hmsg : readMsg [0x62, 2, 1, 0, 1, 0, 0, 0, 0xFF, 0xFF, 0xFF, 0xFF]
      = some (.request ⟨2, 1, 1, 0xFFFFFFFF⟩) := by decide
  unfold handleBytes at hret
  rw [hmsg] at hret
  dsimp only at hret
  rw [if_pos (show (1 : ModuleId) = alone.myId from rfl), answerLoads_all] at hret
  cases hret

end Gossip
end EkKor
