import EkKor.Gossip.Delivery

/-!
# Hop counts

What `ekk_gossip_handle_event` forwards.  `send_gossip_to_neighbor` counts a hop of its own, and
what comes out of the reorder buffer is not forwarded.

* `copies`          the copies of events in the messages sent;
* `wanted`          one copy for each neighbor but the sender, one hop more, below the hop limit;
* `Accounted`       the call sends what is wanted for each event it hands over;
* `OwnOrNobody`     the event is an own one or there is nobody to send it to, and there is nobody
                    to send the events to that it releases from the buffer;
* `Path`            an event that is forwarded from context to context;
* `hops_iff`        the call sends what is wanted exactly then, and along a path the hop count is
                    the number of links exactly if each context on it is the origin;
* `two_hops`        the usual case: two hops for one link.
-/

namespace EkKor
namespace Gossip
open List hiding Vector

/-! ## copies -/

def copies (out : List Out) : List (ModuleId × EventV2) :=
  out.flatMap fun
    | .send dest (.gossip msg) => msg.events.map fun event => (dest, event)
    | _ => []

def hop (event : EventV2) : EventV2 := { event with hopCount := event.hopCount + 1 }

def targets (ctx : Ctx) (sender : ModuleId) : List ModuleId :=
  ctx.neighborIds.filter fun id => id ≠ sender

/-- a copy of the event with one hop more for each neighbor but the sender, below the limit -/
def wanted (ctx : Ctx) (event : EventV2) (sender : ModuleId) : List (ModuleId × EventV2) :=
  if event.hopCount < maxHops then (targets ctx sender).map fun id => (id, hop event) else []

/-- the events handed over by a call: the received one comes from `sender`, what leaves the buffer
from where `source` says -/
def allWanted (ctx : Ctx) (sender : ModuleId) (source : EventV2 → ModuleId) :
    List EventV2 → List (ModuleId × EventV2)
  | [] => []
  | event :: released => wanted ctx event sender ++ released.flatMap fun e => wanted ctx e (source e)

/-- `ekk_gossip_handle_event` sends what is wanted for the events it hands over, in any order -/
def Accounted (ctx : Ctx) (event : EventV2) (sender : ModuleId) (source : EventV2 → ModuleId) :
    Prop :=
  (copies (handleEvent ctx event sender).2.2).Perm
    (allWanted ctx sender source (delivered (handleEvent ctx event sender).2.2))

theorem copies_append (out out' : List Out) : copies (out ++ out') = copies out ++ copies out' :=
  flatMap_append

theorem sendAll_copies (ctx : Ctx) (event : EventV2) (ids : List ModuleId) :
    copies (sendAll ctx (ids.map fun id => (id, [event]))).2
      = ids.map fun id => (id, outgoing ctx event) := by
  induction ids generalizing ctx with
  | nil => rfl
  | cons id ids ih =>
    show copies ((sendGossipToNeighbor ctx id [event]).2 ++
      (sendAll (sendGossipToNeighbor ctx id [event]).1 (ids.map fun id => (id, [event]))).2) = _
    rw [copies_append, ih, map_cons]
    rfl

theorem forward_copies (ctx : Ctx) (event : EventV2) (sender : ModuleId) :
    copies (forward ctx event sender).2 = if event.hopCount < maxHops then
      (targets ctx sender).map fun id => (id, outgoing ctx (hop event)) else [] := by
  unfold forward
  split
  next => exact sendAll_copies ctx (hop event) (targets ctx sender)
  next => rfl

/-! ## the reorder buffer -/

def released (vv : VersionVector) : List EventV2 → List EventV2
  | [] => []
  | buffered :: rest =>
    if buffered.originSeq = vvGet vv buffered.originId + 1 then
      buffered :: released (vvPut vv buffered.originId buffered.originSeq) rest
    else released vv rest

theorem drain_copies (vv : VersionVector) (buffered : List EventV2) :
    copies (drain vv buffered).2.2 = [] ∧
      delivered (drain vv buffered).2.2 = released vv buffered := by
  induction buffered generalizing vv with
  | nil => exact ⟨rfl, rfl⟩
  | cons b rest ih =>
    rw [drain, released]
    split_ifs
    · obtain ⟨hcopies, hdelivered⟩ := ih (vvPut vv b.originId b.originSeq)
      exact ⟨hcopies, congrArg (b :: ·) hdelivered⟩
    · exact ih vv

/-! ## one call -/

def Nobody (ctx : Ctx) (event : EventV2) (sender : ModuleId) : Prop :=
  maxHops ≤ event.hopCount ∨ ∀ id ∈ ctx.neighborIds, id = sender

def Next (ctx : Ctx) (event : EventV2) : Prop :=
  vvGet ctx.vv event.originId < event.originSeq ∧
    event.originSeq ≤ vvGet ctx.vv event.originId + 1

/-- an event that is next is an own one or has nobody to go to, and those that it releases from
the buffer have nobody to go to -/
def OwnOrNobody (ctx : Ctx) (event : EventV2) (sender : ModuleId) (source : EventV2 → ModuleId) :
    Prop :=
  Next ctx event → (event.originId = ctx.myId ∨ Nobody ctx event sender) ∧
    ∀ e ∈ released (vvPut ctx.vv event.originId event.originSeq) ctx.bufferedEvents,
      Nobody ctx e (source e)

variable {ctx : Ctx} {event copy : EventV2} {sender : ModuleId}

theorem wanted_nil_iff : wanted ctx event sender = [] ↔ Nobody ctx event sender := by
  unfold wanted Nobody targets
  split
  next h =>
    rw [map_eq_nil_iff, filter_eq_nil_iff]
    constructor
    · intro hall
      exact .inr fun id hid => by simpa using hall id hid
    · rintro (hlimit | hall) id hid
      · exact absurd h (UInt8.not_lt.mpr hlimit)
      · simpa using hall id hid
  next h => exact iff_of_true rfl (.inl (UInt8.not_lt.mp h))

theorem outgoing_hop_iff : outgoing ctx (hop event) = hop event ↔ event.originId = ctx.myId := by
  unfold outgoing
  split
  next h =>
    refine iff_of_false (fun heq => ?_) h
    have hcount : event.hopCount + 1 + 1 = event.hopCount + 1 := congrArg EventV2.hopCount heq
    have hone := UInt8.toNat_inj.mpr hcount
    change ((event.hopCount + 1).toNat + 1) % 256 = (event.hopCount + 1).toNat at hone
    omega
  next h => exact iff_of_true rfl (not_not.mp h)

theorem handleEvent_accounts (sender : ModuleId) (h : Next ctx event) :
    copies (handleEvent ctx event sender).2.2
      = (if event.hopCount < maxHops then
          (targets ctx sender).map fun id => (id, outgoing ctx (hop event)) else []) ∧
    delivered (handleEvent ctx event sender).2.2
      = event :: released (vvPut ctx.vv event.originId event.originSeq) ctx.bufferedEvents := by
  obtain ⟨sent, heq⟩ := handleEvent_next sender (UInt32.not_le.mpr h.1) (UInt32.not_lt.mpr h.2)
  obtain ⟨hcopies, hdelivered⟩ :=
    drain_copies (vvPut ctx.vv event.originId event.originSeq) ctx.bufferedEvents
  have hsame : (accepting ctx event).myId = ctx.myId ∧
      (accepting ctx event).neighborIds = ctx.neighborIds := by
    unfold accepting Ctx.neighborIds
    split_ifs <;> exact ⟨rfl, rfl⟩
  rw [heq]
  constructor
  · rw [copies_append, copies_append, forward_copies, hcopies, append_nil, targets, hsame.2]
    simp only [outgoing, hsame.1]
    rfl
  · rw [delivered_append, delivered_append, (forward_spec (accepting ctx event) event sender).2,
      hdelivered]
    rfl

theorem handleEvent_unhanded (sender : ModuleId) (h : ¬ Next ctx event) :
    copies (handleEvent ctx event sender).2.2 = [] ∧
      delivered (handleEvent ctx event sender).2.2 = [] := by
  by_cases hknown : event.originSeq ≤ vvGet ctx.vv event.originId
  · rw [handleEvent_known sender hknown]
    exact ⟨rfl, rfl⟩
  · have hearly : event.originSeq > vvGet ctx.vv event.originId + 1 := by
      by_contra hnot
      exact h ⟨UInt32.not_le.mp hknown, UInt32.not_lt.mp hnot⟩
    rw [handleEvent_early sender hknown hearly]
    exact ⟨rfl, rfl⟩

/-- **One call** sends what is wanted if and only if `OwnOrNobody`. -/
theorem accounted_iff (ctx : Ctx) (event : EventV2) (sender : ModuleId)
    (source : EventV2 → ModuleId) :
    Accounted ctx event sender source ↔ OwnOrNobody ctx event sender source := by
  unfold Accounted
  by_cases hnext : Next ctx event
  · obtain ⟨hcopies, hdelivered⟩ := handleEvent_accounts sender hnext
    rw [hcopies, hdelivered]
    constructor
    · intro hperm _
      -- as many copies are sent as are wanted for the event itself, so no more can be wanted
      have hlength := hperm.length_eq
      have hnone : (released (vvPut ctx.vv event.originId event.originSeq)
          ctx.bufferedEvents).flatMap (fun e => wanted ctx e (source e)) = [] := by
        rw [← length_eq_zero_iff]
        rw [allWanted, length_append, wanted] at hlength
        split_ifs at hlength
        · rw [length_map, length_map] at hlength
          omega
        · omega
      refine ⟨?_, fun e he => wanted_nil_iff.mp (flatMap_eq_nil_iff.mp hnone e he)⟩
      rw [allWanted, hnone, append_nil] at hperm
      by_cases hw : wanted ctx event sender = []
      · exact .inr (wanted_nil_iff.mp hw)
      · left
        obtain ⟨⟨id, e⟩, hmem⟩ := exists_mem_of_ne_nil _ hw
        have hsent := hperm.mem_iff.mpr hmem
        unfold wanted at hmem
        split_ifs at hmem hsent
        · obtain ⟨_, -, heq⟩ := mem_map.mp hmem
          obtain ⟨_, -, heq'⟩ := mem_map.mp hsent
          exact outgoing_hop_iff.mp (congrArg Prod.snd (heq'.trans heq.symm))
        · cases hmem
    · intro h
      obtain ⟨hown, hreleased⟩ := h hnext
      have hnone : (released (vvPut ctx.vv event.originId event.originSeq)
          ctx.bufferedEvents).flatMap (fun e => wanted ctx e (source e)) = [] :=
        flatMap_eq_nil_iff.mpr fun e he => wanted_nil_iff.mpr (hreleased e he)
      rw [allWanted, hnone, append_nil]
      rcases hown with hown | hnobody
      · rw [outgoing_hop_iff.mpr hown]
        exact List.Perm.refl _
      · have hwanted := wanted_nil_iff.mpr hnobody
        rw [hwanted]
        unfold wanted at hwanted
        split_ifs at hwanted ⊢
        · rw [map_eq_nil_iff] at hwanted
          rw [hwanted]
          exact List.Perm.refl _
        · exact List.Perm.refl _
  · obtain ⟨hcopies, hdelivered⟩ := handleEvent_unhanded sender hnext
    rw [hcopies, hdelivered]
    exact iff_of_true (List.Perm.refl _) fun h => absurd h hnext

/-! ## from context to context -/

/-- each context of the list receives the event, as the one before forwarded it, and forwards it;
the last forwards `copy` -/
inductive Path (event : EventV2) : List Ctx → EventV2 → Prop where
  | start : Path event [] event
  | link {path : List Ctx} {received copy : EventV2} {ctx : Ctx} {sender dest : ModuleId} :
      Path event path received → (dest, copy) ∈ copies (handleEvent ctx received sender).2.2 →
      Path event (path ++ [ctx]) copy

theorem copy_eq {dest : ModuleId} (h : (dest, copy) ∈ copies (handleEvent ctx event sender).2.2) :
    event.hopCount < maxHops ∧ copy = outgoing ctx (hop event) := by
  by_cases hnext : Next ctx event
  · rw [(handleEvent_accounts sender hnext).1] at h
    split_ifs at h with hlimit
    · obtain ⟨_, -, heq⟩ := mem_map.mp h
      exact ⟨hlimit, (congrArg Prod.snd heq).symm⟩
    · cases h
  · rw [(handleEvent_unhanded sender hnext).1] at h
    cases h

theorem outgoing_hop_count (h : event.hopCount < maxHops) :
    (outgoing ctx (hop event)).hopCount.toNat = event.hopCount.toNat + 1 +
      (if ctx.myId ≠ event.originId then 1 else 0) ∧
    (outgoing ctx (hop event)).originId = event.originId := by
  have hlt : event.hopCount.toNat < 3 := UInt8.lt_iff_toNat_lt.mp h
  have hone : (event.hopCount + 1).toNat = event.hopCount.toNat + 1 := by
    show (event.hopCount.toNat + 1) % 256 = _
    omega
  unfold outgoing
  rw [show (hop event).originId = event.originId from rfl]
  by_cases hown : event.originId = ctx.myId
  · rw [if_neg (not_not.mpr hown), if_neg (not_not.mpr hown.symm)]
    exact ⟨hone, rfl⟩
  · rw [if_pos hown, if_pos (Ne.symm hown)]
    refine ⟨?_, rfl⟩
    show (event.hopCount + 1 + 1).toNat = _
    rw [UInt8.toNat_add, hone]
    show (event.hopCount.toNat + 1 + 1) % 256 = _
    omega

theorem path_hops {path : List Ctx} (h : Path event path copy) :
    copy.hopCount.toNat = event.hopCount.toNat + path.length +
      path.countP (fun ctx => ctx.myId ≠ event.originId) ∧ copy.originId = event.originId := by
  induction h with
  | start => exact ⟨rfl, rfl⟩
  | link hpath hcopy ih =>
    obtain ⟨hlimit, rfl⟩ := copy_eq hcopy
    obtain ⟨hcount, horigin⟩ := outgoing_hop_count hlimit
    refine ⟨?_, horigin.trans ih.2⟩
    rw [hcount, ih.1, ih.2, countP_append, countP_singleton, length_append,
      length_singleton]
    simp only [decide_eq_true_eq]
    omega

/-- **Along a path** the hop count is the number of links exactly if each context is the origin. -/
theorem path_hops_iff {path : List Ctx} (h : Path event path copy) :
    copy.hopCount.toNat = event.hopCount.toNat + path.length ↔
      ∀ ctx ∈ path, ctx.myId = event.originId := by
  rw [(path_hops h).1, Nat.add_eq_left, countP_eq_zero]
  simp

/-- **Hop counts.**  A call of `ekk_gossip_handle_event` sends what is wanted for the events it
hands over if and only if `OwnOrNobody`; along a path that starts with the event the hop count
grows with the links if and only if each context on the path is the origin. -/
theorem hops_iff (ctx : Ctx) (event : EventV2) (sender : ModuleId) (source : EventV2 → ModuleId) :
    (Accounted ctx event sender source ↔ OwnOrNobody ctx event sender source) ∧
    ∀ path copy, Path event path copy →
      (copy.hopCount.toNat = event.hopCount.toNat + path.length ↔
        ∀ ctx ∈ path, ctx.myId = event.originId) :=
  ⟨accounted_iff ctx event sender source, fun _ _ h => path_hops_iff h⟩

def middle : Ctx :=
  { myId := 2
    vv := []
    localSequence := 1
    neighbors := [⟨1, 0, 0, 0⟩, ⟨3, 0, 0, 0⟩]
    pendingEvents := []
    bufferedEvents := []
    lastGossipTick := 0
    lastSync := 0
    stats := ⟨0, 0, 0, 0, 0, 0⟩ }

/-- event `seq` of module 1 -/
def firstHop (seq : UInt32) : EventV2 :=
  { sequence := seq
    timestampUs := 0
    eventType := 0x80
    flags := 0
    originId := 1
    hopCount := 0
    originSeq := seq
    payload := Vector.replicate 20 0 }

/-- module 2 forwards the first event of module 1 to module 3 with two hops; the second one, which
came before it, is not forwarded at all when it leaves the buffer -/
theorem two_hops :
    (¬ Accounted middle (firstHop 1) 1 fun _ => 1) ∧
    (3, { firstHop 1 with hopCount := 2 }) ∈ copies (handleEvent middle (firstHop 1) 1).2.2 ∧
    delivered (handleEvent { middle with bufferedEvents := [firstHop 2] } (firstHop 1) 1).2.2
      = [firstHop 1, firstHop 2] ∧
    (copies (handleEvent { middle with bufferedEvents := [firstHop 2] } (firstHop 1) 1).2.2).length
      = 1 := by
  refine ⟨fun h => ?_, ?_, rfl, rfl⟩
  · obtain ⟨hown | hlimit | hall, -⟩ :=
      (accounted_iff middle (firstHop 1) 1 fun _ => 1).mp h ⟨by decide, by decide⟩
    · exact absurd hown (by decide)
    · exact absurd hlimit (by decide)
    · exact absurd (hall 3 (by decide)) (by decide)
  · exact mem_singleton.mpr rfl

end Gossip
end EkKor
