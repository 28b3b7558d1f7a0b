import EkKor.Raft.Node

/-!
# The modules of a cluster and the network between them

* `Packet`, `Msg.handler`   a raft message on its way, and the call that reads it;
* `Net`          the contexts of all modules and every packet sent so far;
* `NetEvent`     a tick or a step-down of one module, or a delivery;
* `Net.machine`  the events one after the other.

A packet stays in `sent`, so it may be delivered late, out of order, many times or never.  The
HAL hands a packet to the module it is addressed to, and a packet to the broadcast id `0xFF` to
every module.
-/

namespace EkKor
namespace Raft
open Runs

structure Packet where
  dest : ModuleId
  msg : Msg
  deriving DecidableEq, Repr

/-- `ekk_hal_broadcast` is `ekk_hal_send` to the broadcast id -/
def Out.packet : Out → Option Packet
  | .broadcast m => some ⟨broadcastId, m⟩
  | .send dest m => some ⟨dest, m⟩
  | _ => none

def packets (out : List Out) : List Packet := out.filterMap Out.packet

def Msg.handler (now : TimeUs) : Msg → Handler
  | .heartbeat term leaderId => .onHeartbeat leaderId term now
  | .requestVote term candidateId => .onVoteRequest candidateId term now
  | .voteResponse term voterId voteGranted => .onVoteResponse voterId term voteGranted now

structure Net where
  nodes : ModuleId → Ctx
  sent : List Packet

inductive NetEvent where
  | tick (i : ModuleId) (now : TimeUs)
  | stepDown (i : ModuleId) (now : TimeUs)
  | deliver (p : Packet) (i : ModuleId) (now : TimeUs)
  deriving DecidableEq, Repr

namespace Net

/-- the module `i` makes a call; its packets go to the network -/
def act (s : Net) (i : ModuleId) (h : Handler) : Net :=
  { nodes := Function.update s.nodes i (h.call (s.nodes i) none).1
    sent := s.sent ++ packets (h.call (s.nodes i) none).2 }

/-- the call an event stands for: only modules of `S` act, and only packets that were sent are
delivered -/
def callOf (S : Finset ModuleId) (s : Net) : NetEvent → Option (ModuleId × Handler)
  | .tick i now => if i ∈ S then some (i, .tick now) else none
  | .stepDown i now => if i ∈ S then some (i, .stepDown now) else none
  | .deliver p i now =>
    if i ∈ S ∧ p ∈ s.sent ∧ (p.dest = i ∨ p.dest = broadcastId) then some (i, p.msg.handler now)
    else none

def step (S : Finset ModuleId) (s : Net) (e : NetEvent) : Net × List Packet :=
  match s.callOf S e with
  | some (i, h) => (s.act i h, packets (h.call (s.nodes i) none).2)
  | none => (s, [])

/-- the modules `S`, with no partition context and no packet on its way yet -/
def machine (S : Finset ModuleId) (nodes : ModuleId → Ctx) : Machine Net NetEvent Packet :=
  ⟨⟨nodes, []⟩, step S⟩

/-- `v` has sent `c` its vote for the term `T` -/
def Granted (s : Net) (T : UInt32) (v c : ModuleId) : Prop :=
  ⟨c, .voteResponse T v true⟩ ∈ s.sent

theorem callOf_inv {S : Finset ModuleId} {s : Net} {e : NetEvent} {i : ModuleId} {h : Handler}
    (hc : s.callOf S e = some (i, h)) :
    i ∈ S ∧ ((∃ now, e = .tick i now ∧ h = .tick now) ∨
      (∃ now, e = .stepDown i now ∧ h = .stepDown now) ∨
      ∃ p now, e = .deliver p i now ∧ h = p.msg.handler now ∧ p ∈ s.sent ∧
        (p.dest = i ∨ p.dest = broadcastId)) := by
  cases e with
  | tick j now =>
    by_cases hj : j ∈ S
    · rw [callOf, if_pos hj] at hc
      obtain ⟨rfl, rfl⟩ := Prod.mk.inj (Option.some.inj hc)
      exact ⟨hj, Or.inl ⟨now, rfl, rfl⟩⟩
    · rw [callOf, if_neg hj] at hc
      cases hc
  | stepDown j now =>
    by_cases hj : j ∈ S
    · rw [callOf, if_pos hj] at hc
      obtain ⟨rfl, rfl⟩ := Prod.mk.inj (Option.some.inj hc)
      exact ⟨hj, Or.inr (Or.inl ⟨now, rfl, rfl⟩)⟩
    · rw [callOf, if_neg hj] at hc
      cases hc
  | deliver p j now =>
    by_cases hj : j ∈ S ∧ p ∈ s.sent ∧ (p.dest = j ∨ p.dest = broadcastId)
    · rw [callOf, if_pos hj] at hc
      obtain ⟨rfl, rfl⟩ := Prod.mk.inj (Option.some.inj hc)
      exact ⟨hj.1, Or.inr (Or.inr ⟨p, now, rfl, rfl, hj.2⟩)⟩
    · rw [callOf, if_neg hj] at hc
      cases hc

@[simp] theorem act_self (s : Net) (i : ModuleId) (h : Handler) :
    (s.act i h).nodes i = (h.call (s.nodes i) none).1 := Function.update_self ..

theorem act_other (s : Net) {i j : ModuleId} (h : Handler) (hj : j ≠ i) :
    (s.act i h).nodes j = s.nodes j := Function.update_of_ne hj ..

theorem Granted.act {s : Net} {T : UInt32} {v c : ModuleId} (hg : s.Granted T v c) (i : ModuleId)
    (h : Handler) : (s.act i h).Granted T v c :=
  List.mem_append_left _ hg

end Net

/-! ## which packets a call sends -/

theorem packets_append (a b : List Out) : packets (a ++ b) = packets a ++ packets b :=
  List.filterMap_append

theorem andThen_packets (r : Ctx × List Out) (f : Ctx → Ctx × List Out) :
    packets (andThen r f).2 = packets r.2 ++ packets (f r.1).2 :=
  packets_append _ _

variable (ctx : Ctx)

theorem persist_packets : packets (persist ctx) = [] := by
  unfold persist
  split <;> rfl

theorem becomeFollower_packets (term : UInt32) (now : TimeUs) :
    packets (becomeFollower ctx term now).2 = [] := by
  unfold becomeFollower
  rw [packets_append, persist_packets]
  split <;> rfl

theorem becomeCandidate_packets (now : TimeUs) :
    packets (becomeCandidate ctx now).2
      = [⟨broadcastId, .requestVote (ctx.currentTerm + 1) ctx.myId⟩] := by
  unfold becomeCandidate
  rw [packets_append, persist_packets]
  rfl

theorem becomeLeader_packets (now : TimeUs) :
    packets (becomeLeader ctx now).2 = [⟨broadcastId, .heartbeat ctx.currentTerm ctx.myId⟩] := by
  show packets (_ :: _) = _
  split <;> rfl

theorem stepDown_packets (now : TimeUs) : packets (stepDown ctx now).2 = [] := by
  unfold stepDown
  split
  · exact becomeFollower_packets ctx ctx.currentTerm now
  · rfl

theorem adoptTerm_packets (term : UInt32) (now : TimeUs) :
    packets (adoptTerm ctx term now).2 = [] := by
  unfold adoptTerm
  split
  · exact becomeFollower_packets ctx term now
  · rfl

theorem acceptLeader_packets (leaderId : ModuleId) (term : UInt32) (now : TimeUs) :
    packets (acceptLeader ctx leaderId term now).2 = [] := by
  unfold acceptLeader
  split
  · dsimp only
    split
    · rw [andThen_packets, becomeFollower_packets]
      split <;> rfl
    · rfl
  · rfl

theorem answerRequest_packets (partitionCtx : Option Partition.Ctx) (candidateId : ModuleId)
    (term : UInt32) (now : TimeUs) :
    packets (answerRequest ctx partitionCtx candidateId term now).2
      = [⟨candidateId, .voteResponse ctx.currentTerm ctx.myId
          (mayVoteFor ctx partitionCtx candidateId term)⟩] := by
  unfold answerRequest
  by_cases h : mayVoteFor ctx partitionCtx candidateId term = true
  · rw [if_pos h, h]
    rw [packets_append, persist_packets]
    rfl
  · rw [if_neg h, Bool.eq_false_of_not_eq_true h]
    rfl

theorem onVoteRequest_packets (partitionCtx : Option Partition.Ctx) (candidateId : ModuleId)
    (term : UInt32) (now : TimeUs) :
    packets (onVoteRequest ctx partitionCtx candidateId term now).2.2
      = [⟨candidateId, .voteResponse (adoptTerm ctx term now).1.currentTerm ctx.myId
          (onVoteRequest ctx partitionCtx candidateId term now).1⟩] := by
  have hid : (adoptTerm ctx term now).1.myId = ctx.myId := by
    have hA := congrArg Core.myId (adoptTerm_core ctx term now)
    refine hA.trans ?_
    split <;> rfl
  unfold onVoteRequest
  rw [andThen_packets, adoptTerm_packets, answerRequest_packets, hid]
  rfl

theorem onVoteResponse_packets (voterId : ModuleId) (term : UInt32) (voteGranted : Bool)
    (now : TimeUs) (p : Packet)
    (hp : p ∈ packets (onVoteResponse ctx voterId term voteGranted now).2) :
    p.msg = .heartbeat ctx.currentTerm ctx.myId := by
  unfold onVoteResponse at hp
  split_ifs at hp
  · cases hp
  · rw [becomeFollower_packets] at hp
    cases hp
  · dsimp only at hp
    split at hp
    · rw [becomeLeader_packets] at hp
      rw [List.mem_singleton.mp hp]
    · cases hp
  · cases hp

theorem tick_packets (partitionCtx : Option Partition.Ctx) (now : TimeUs) (p : Packet)
    (hp : p ∈ packets (tick ctx partitionCtx now).2) :
    p.msg = .heartbeat ctx.currentTerm ctx.myId ∨
      p.msg = .requestVote (ctx.currentTerm + 1) ctx.myId := by
  have hcand : p ∈ packets (becomeCandidate ctx now).2 →
      p.msg = .requestVote (ctx.currentTerm + 1) ctx.myId := by
    intro h
    rw [becomeCandidate_packets] at h
    rw [List.mem_singleton.mp h]
  unfold tick at hp
  split at hp
  · cases hp
  · dsimp only at hp
    split at hp
    · split_ifs at hp
      · exact Or.inr (hcand hp)
      · cases hp
      · cases hp
    · split_ifs at hp
      · rw [becomeLeader_packets] at hp
        exact Or.inl (by rw [List.mem_singleton.mp hp])
      · exact Or.inr (hcand hp)
      · rw [becomeFollower_packets] at hp
        cases hp
      · rw [becomeFollower_packets] at hp
        cases hp
      · cases hp
    · unfold tickLeader at hp
      rw [andThen_packets] at hp
      rcases List.mem_append.mp hp with h | h
      · unfold sendHeartbeat at h
        split at h
        · exact Or.inl (by rw [List.mem_singleton.mp h])
        · cases h
      · cases partitionCtx with
        | none => cases h
        | some q =>
          dsimp only at h
          split at h
          · rw [stepDown_packets] at h
            cases h
          · cases h

theorem Handler.call_packets {ctx : Ctx} {partitionCtx : Option Partition.Ctx} {h : Handler}
    {p : Packet} (hp : p ∈ packets (h.call ctx partitionCtx).2) :
    (∃ T, p.msg = .heartbeat T ctx.myId) ∨ (∃ T, p.msg = .requestVote T ctx.myId) ∨
      ∃ candidateId term now, h = .onVoteRequest candidateId term now ∧
        p = ⟨candidateId, .voteResponse (adoptTerm ctx term now).1.currentTerm ctx.myId
          (Raft.onVoteRequest ctx partitionCtx candidateId term now).1⟩ := by
  cases h with
  | tick now =>
    rcases tick_packets ctx partitionCtx now p hp with h | h
    · exact Or.inl ⟨_, h⟩
    · exact Or.inr (Or.inl ⟨_, h⟩)
  | onHeartbeat leaderId term now =>
    have hp' : p ∈ packets (Raft.onHeartbeat ctx leaderId term now).2 := hp
    unfold Raft.onHeartbeat at hp'
    rw [andThen_packets, adoptTerm_packets, acceptLeader_packets] at hp'
    cases hp'
  | onVoteRequest candidateId term now =>
    have hp' : p ∈ packets (Raft.onVoteRequest ctx partitionCtx candidateId term now).2.2 := hp
    rw [onVoteRequest_packets] at hp'
    exact Or.inr (Or.inr ⟨candidateId, term, now, rfl, List.mem_singleton.mp hp'⟩)
  | onVoteResponse voterId term voteGranted now =>
    exact Or.inl ⟨_, onVoteResponse_packets ctx voterId term voteGranted now p hp⟩
  | stepDown now =>
    have hp' : p ∈ packets (Raft.stepDown ctx now).2 := hp
    rw [stepDown_packets] at hp'
    cases hp'

end Raft
end EkKor
