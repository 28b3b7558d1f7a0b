import EkKor.Lib.Runs
import EkKor.Raft.Steps
import Mathlib.Data.FinEnum

/-!
# One module: its raft context and its partition context

* `Handler`    the raft calls that react to time and messages;
* `Node`       a raft context with the partition context it was initialised with;
* `Event`      one call on either of them, `Node.machine` the calls one after the other;
* `Core.Tally` the vote count, the vote array and the state agree; every call keeps it.
-/

namespace EkKor
namespace Raft
open Runs Function

/-! ## calls -/

/-- a call of a raft handler with its arguments -/
inductive Handler where
  | tick (now : TimeUs)
  | onHeartbeat (leaderId : ModuleId) (term : UInt32) (now : TimeUs)
  | onVoteRequest (candidateId : ModuleId) (term : UInt32) (now : TimeUs)
  | onVoteResponse (voterId : ModuleId) (term : UInt32) (voteGranted : Bool) (now : TimeUs)
  | stepDown (now : TimeUs)
  deriving DecidableEq, Repr

def Handler.call (ctx : Ctx) (partitionCtx : Option Partition.Ctx) : Handler → Ctx × List Out
  | .tick now => Raft.tick ctx partitionCtx now
  | .onHeartbeat leaderId term now => Raft.onHeartbeat ctx leaderId term now
  | .onVoteRequest candidateId term now =>
    (Raft.onVoteRequest ctx partitionCtx candidateId term now).2
  | .onVoteResponse voterId term voteGranted now =>
    Raft.onVoteResponse ctx voterId term voteGranted now
  | .stepDown now => Raft.stepDown ctx now

/-- a module's raft context and the partition context it was initialised with -/
structure Node where
  raft : Ctx
  partition : Option Partition.Ctx

/-- a call on the raft context or on the partition context of a module -/
inductive Event where
  | handler (h : Handler)
  | setPersistence (persist restore : Bool)
  | setCallbacks (onLeader onFollower onLost : Bool)
  | partition (e : Partition.Event)
  deriving DecidableEq, Repr

def Node.step (s : Node) : Event → Node × List Out
  | .handler h =>
    ({ s with raft := (h.call s.raft s.partition).1 }, (h.call s.raft s.partition).2)
  | .setPersistence persist restore =>
    ({ s with raft := Raft.setPersistence s.raft persist restore }, [])
  | .setCallbacks onLeader onFollower onLost =>
    ({ s with raft := Raft.setCallbacks s.raft onLeader onFollower onLost }, [])
  | .partition e => ({ s with partition := s.partition.map fun p => Partition.next p e }, [])

def Node.machine (start : Node) : Machine Node Event Out := ⟨start, Node.step⟩

/-! ## what one call can do -/

def Handler.StepsDown (ctx : Ctx) (partitionCtx : Option Partition.Ctx) : Handler → Prop
  | .tick now => TickStepsDown ctx partitionCtx now
  | .onHeartbeat _ term _ => HeartbeatStepsDown ctx term
  | .onVoteRequest _ _ _ => False
  | .onVoteResponse _ _ _ _ => False
  | .stepDown _ => ctx.state = .leader

variable {ctx : Ctx} {v : ModuleId} {totalModules : UInt8}

theorem Handler.StepsDown.state_ne {partitionCtx : Option Partition.Ctx} {h : Handler}
    (hs : h.StepsDown ctx partitionCtx) : ctx.state ≠ .follower := by
  cases h with
  | tick now =>
    rcases hs.2 with ⟨hc, -⟩ | ⟨hl, -⟩
    · rw [hc]; exact State.noConfusion
    · rw [hl]; exact State.noConfusion
  | onHeartbeat leaderId term now => exact hs.2
  | onVoteRequest candidateId term now => exact hs.elim
  | onVoteResponse voterId term voteGranted now => exact hs.elim
  | stepDown now =>
    rw [show ctx.state = .leader from hs]
    exact State.noConfusion

/-- the new core and the votes handed out -/
inductive Handler.Effect (ctx : Ctx) (partitionCtx : Option Partition.Ctx) :
    Handler → Core → List (UInt32 × ModuleId) → Prop where
  | idle (h : Handler) : Effect ctx partitionCtx h ctx.core []
  | adopt (h : Handler) (term : UInt32) (ht : ctx.currentTerm < term) :
      Effect ctx partitionCtx h (ctx.core.follow term) []
  | stepDown (h : Handler) (hs : h.StepsDown ctx partitionCtx) :
      Effect ctx partitionCtx h (ctx.core.follow ctx.currentTerm) []
  | campaign (now : TimeUs) (hs : StartsElection ctx partitionCtx now) :
      Effect ctx partitionCtx (.tick now) ctx.core.campaign [(ctx.currentTerm + 1, ctx.myId)]
  | promote (now : TimeUs) (hp : TickPromotes ctx) :
      Effect ctx partitionCtx (.tick now) ctx.core.win []
  | count (voterId : ModuleId) (term : UInt32) (voteGranted : Bool) (now : TimeUs)
      (hc : Counts ctx voterId term voteGranted) (hn : ¬ ctx.votesReceived + 1 ≥ ctx.votesNeeded) :
      Effect ctx partitionCtx (.onVoteResponse voterId term voteGranted now)
        (ctx.core.count voterId) []
  | decide (voterId : ModuleId) (term : UInt32) (voteGranted : Bool) (now : TimeUs)
      (hd : Decides ctx voterId term voteGranted) :
      Effect ctx partitionCtx (.onVoteResponse voterId term voteGranted now)
        (ctx.core.count voterId).win []
  | grant (candidateId : ModuleId) (term : UInt32) (now : TimeUs) (c : Core)
      (hc : c = ctx.core ∨ ctx.currentTerm < term ∧ c = ctx.core.follow term)
      (ht : term = c.currentTerm)
      (hv : c.votedFor = invalidModuleId ∨ c.votedFor = candidateId)
      (hg : (Raft.onVoteRequest ctx partitionCtx candidateId term now).1 = true) :
      Effect ctx partitionCtx (.onVoteRequest candidateId term now) (c.grant candidateId)
        [(term, candidateId)]

/-- **Every call has one of these effects.** -/
theorem Handler.call_effect (ctx : Ctx) (partitionCtx : Option Partition.Ctx) (h : Handler) :
    Handler.Effect ctx partitionCtx h (h.call ctx partitionCtx).1.core
      (votes (h.call ctx partitionCtx).2) := by
  cases h with
  | tick now =>
    unfold Handler.call
    rw [tick_core, tick_votes]
    by_cases hp : TickPromotes ctx
    · have hno : ¬ StartsElection ctx partitionCtx now := by
        rintro ⟨⟨-, -, hs | hs⟩, -⟩
        · rw [hp.2.1] at hs
          cases hs
        · exact hs.2 hp.2.2
      rw [if_pos hp, if_neg hno]
      exact .promote now hp
    · rw [if_neg hp]
      by_cases hs : StartsElection ctx partitionCtx now
      · rw [if_pos hs, if_pos hs]
        exact .campaign now hs
      · rw [if_neg hs, if_neg hs]
        split
        next hd => exact .stepDown _ hd
        next => exact .idle _
  | onHeartbeat leaderId term now =>
    unfold Handler.call
    rw [onHeartbeat_core, onHeartbeat_votes]
    split
    next h =>
      rcases h with ht | hs
      · exact .adopt _ term ht
      · rw [show ctx.core.follow term = ctx.core.follow ctx.currentTerm by rw [hs.1]]
        exact .stepDown (.onHeartbeat leaderId term now) hs
    next => exact .idle _
  | onVoteRequest candidateId term now =>
    unfold Handler.call
    rw [onVoteRequest_core, onVoteRequest_votes, adoptTerm_core]
    by_cases hg : (Raft.onVoteRequest ctx partitionCtx candidateId term now).1 = true
    · obtain ⟨ht, hv, -⟩ := mayVoteFor_spec hg
      have hA := adoptTerm_core ctx term now
      rw [if_pos hg, if_pos hg, ← hA]
      refine .grant candidateId term now _ ?_ ht hv hg
      rw [hA]
      split
      next hlt => exact Or.inr ⟨hlt, rfl⟩
      next => exact Or.inl rfl
    · rw [if_neg hg, if_neg hg]
      split
      next hlt => exact .adopt _ term hlt
      next => exact .idle _
  | onVoteResponse voterId term voteGranted now =>
    unfold Handler.call
    rw [onVoteResponse_core, onVoteResponse_votes]
    split_ifs with hd hc
    · exact .decide voterId term voteGranted now hd
    · exact .count voterId term voteGranted now hc fun hn => hd ⟨hc, hn⟩
    · exact .idle _
  | stepDown now =>
    unfold Handler.call
    rw [stepDown_core, stepDown_votes]
    split
    next hl => exact .stepDown _ hl
    next => exact .idle _

/-- the identity and the quorum size stay what `ekk_raft_init` made them -/
theorem Handler.call_fixed (ctx : Ctx) (partitionCtx : Option Partition.Ctx) (h : Handler) :
    (h.call ctx partitionCtx).1.core.myId = ctx.core.myId ∧
      (h.call ctx partitionCtx).1.core.votesNeeded = ctx.core.votesNeeded := by
  have he := h.call_effect ctx partitionCtx
  generalize (h.call ctx partitionCtx).1.core = c', votes (h.call ctx partitionCtx).2 = vs at he ⊢
  cases he with
  | grant candidateId term now c hc ht hv hg =>
    rcases hc with rfl | ⟨-, rfl⟩ <;> exact ⟨rfl, rfl⟩
  | _ => exact ⟨rfl, rfl⟩

/-! ## the tally -/

/-- the modules whose entry of `vote_granted` is true -/
def Core.granted (c : Core) : Finset ModuleId := Finset.univ.filter fun v => c.voteGranted v = true

theorem Core.mem_granted {c : Core} : v ∈ c.granted ↔ c.voteGranted v = true := by
  simp [Core.granted]

/-- outside the follower state `votes_received` counts the true entries of `vote_granted`, a
candidate is short of its majority (or has its own vote only), a leader has reached it -/
structure Core.Tally (c : Core) : Prop where
  needed : c.votesNeeded.toNat ≤ 128
  counted : c.state ≠ .follower → c.votesReceived.toNat = c.granted.card
  short : c.state = .candidate → c.votesReceived = 1 ∨ c.votesReceived < c.votesNeeded
  reached : c.state = .leader → c.votesNeeded ≤ c.votesReceived

namespace Core.Tally
variable {c : Core}

theorem follow (h : c.Tally) (term : UInt32) : (c.follow term).Tally where
  needed := h.needed
  counted hs := absurd rfl hs
  short hs := State.noConfusion hs
  reached hs := State.noConfusion hs

theorem campaign (h : c.Tally) : c.campaign.Tally where
  needed := h.needed
  counted _ := by
    have hg : c.campaign.granted = {c.myId} := by
      ext v
      rw [mem_granted, Finset.mem_singleton]
      show update (fun _ => false) c.myId true v = true ↔ _
      rw [update_apply]
      split <;> simp_all
    rw [hg]
    rfl
  short _ := Or.inl rfl
  reached hs := State.noConfusion hs

theorem win (h : c.Tally) (hs : c.state = .candidate) (hv : c.votesReceived ≥ c.votesNeeded) :
    c.win.Tally where
  needed := h.needed
  counted _ := h.counted (by rw [hs]; exact State.noConfusion)
  short hs' := State.noConfusion hs'
  reached _ := hv

theorem grant (h : c.Tally) (candidateId : ModuleId) : (c.grant candidateId).Tally where
  needed := h.needed
  counted := h.counted
  short := h.short
  reached := h.reached

theorem count_card (h : c.Tally) (hs : c.state = .candidate) (hv : c.voteGranted v = false) :
    (c.count v).votesReceived.toNat = (c.count v).granted.card := by
  have hcard : (c.count v).granted.card = c.granted.card + 1 := by
    have hg : (c.count v).granted = insert v c.granted := by
      ext u
      rw [Finset.mem_insert, mem_granted, mem_granted]
      show update c.voteGranted v true u = true ↔ _
      rw [update_apply]
      split <;> simp_all
    rw [hg, Finset.card_insert_of_notMem]
    rw [mem_granted, hv]
    exact Bool.false_ne_true
  have hold := h.counted (by rw [hs]; exact State.noConfusion)
  have hlt : c.votesReceived.toNat ≤ 128 := by
    rcases h.short hs with h1 | h1
    · rw [h1]; decide
    · exact le_of_lt (lt_of_lt_of_le (UInt8.lt_iff_toNat_lt.mp h1) h.needed)
  show (c.votesReceived.toNat + 1) % 256 = _
  omega

theorem count (h : c.Tally) (hs : c.state = .candidate) (hv : c.voteGranted v = false)
    (hn : ¬ c.votesReceived + 1 ≥ c.votesNeeded) :
    (c.count v).Tally where
  needed := h.needed
  counted _ := h.count_card hs hv
  short _ := Or.inr (UInt8.not_le.mp hn)
  reached hs' := by
    rw [show (c.count v).state = .candidate from hs] at hs'
    exact State.noConfusion hs'

theorem countWin (h : c.Tally) (hs : c.state = .candidate) (hv : c.voteGranted v = false)
    (hn : c.votesReceived + 1 ≥ c.votesNeeded) :
    (c.count v).win.Tally where
  needed := h.needed
  counted _ := h.count_card hs hv
  short hs' := State.noConfusion hs'
  reached _ := hn

end Core.Tally

/-- **Every handler keeps the tally.** -/
theorem Handler.call_tally (h : ctx.core.Tally) (partitionCtx : Option Partition.Ctx) (hd : Handler) :
    (hd.call ctx partitionCtx).1.core.Tally := by
  have he := hd.call_effect ctx partitionCtx
  generalize (hd.call ctx partitionCtx).1.core = c', votes (hd.call ctx partitionCtx).2 = vs
    at he ⊢
  cases he with
  | idle => exact h
  | adopt _ term ht => exact h.follow term
  | stepDown _ hs => exact h.follow _
  | campaign now hs => exact h.campaign
  | promote now hp => exact h.win hp.2.1 hp.2.2
  | count voterId term voteGranted now hc hn => exact h.count hc.1 hc.2.2.2 hn
  | decide voterId term voteGranted now hd => exact h.countWin hd.1.1 hd.1.2.2.2 hd.2
  | grant candidateId term now c hc ht hv hg =>
    rcases hc with rfl | ⟨-, rfl⟩
    · exact h.grant candidateId
    · exact (h.follow term).grant candidateId

/-! ## where the recorded votes come from -/

/-- `D v T` holds for every recorded vote: `v` the voter, `T` the term of the election -/
def Core.Backed (D : ModuleId → UInt32 → Prop) (c : Core) : Prop :=
  c.state ≠ .follower → ∀ v, c.voteGranted v = true → v ≠ c.myId → D v c.currentTerm

namespace Core.Backed
variable {c : Core} {D D' : ModuleId → UInt32 → Prop}

theorem mono (h : c.Backed D) (hD : ∀ v T, D v T → D' v T) : c.Backed D' :=
  fun hs v hv hne => hD v _ (h hs v hv hne)

theorem follow (c : Core) (term : UInt32) : (c.follow term).Backed D := fun hs => absurd rfl hs

theorem campaign (c : Core) : c.campaign.Backed D := by
  intro _ v hv hne
  have hne' : v ≠ c.myId := hne
  have hv' : update (fun _ => false) c.myId true v = true := hv
  rw [update_of_ne hne'] at hv'
  exact absurd hv' Bool.false_ne_true

theorem win (h : c.Backed D) (hs : c.state = .candidate) : c.win.Backed D :=
  fun _ v hv hne => h (by rw [hs]; exact State.noConfusion) v hv hne

theorem grant (h : c.Backed D) (candidateId : ModuleId) : (c.grant candidateId).Backed D := h

theorem count (h : c.Backed D) {voterId : ModuleId} (hD : D voterId c.currentTerm) :
    (c.count voterId).Backed D := by
  intro hs v hv hne
  by_cases he : v = voterId
  · rw [he]; exact hD
  · have hv' : update c.voteGranted voterId true v = true := hv
    rw [update_of_ne he] at hv'
    exact h hs v hv' hne

end Core.Backed

theorem Handler.call_backed {D : ModuleId → UInt32 → Prop} (h : ctx.core.Backed D)
    (partitionCtx : Option Partition.Ctx) (hd : Handler) (hnew : ∀ v T now, hd = .onVoteResponse v T
    true now → ctx.state = .candidate → ctx.currentTerm = T → D v T) :
    (hd.call ctx partitionCtx).1.core.Backed D := by
  have hD : ∀ {v T g now}, hd = .onVoteResponse v T g now → Counts ctx v T g →
      D v ctx.core.currentTerm := by
    rintro v T g now rfl ⟨hs, ht, hg, -⟩
    subst ht hg
    exact hnew v _ now rfl hs rfl
  have he := hd.call_effect ctx partitionCtx
  generalize (hd.call ctx partitionCtx).1.core = c', votes (hd.call ctx partitionCtx).2 = vs
    at he ⊢
  cases he with
  | idle => exact h
  | adopt _ term ht => exact .follow _ term
  | stepDown _ hs => exact .follow _ _
  | campaign now hs => exact .campaign _
  | promote now hp => exact h.win hp.2.1
  | count voterId term voteGranted now hc hn => exact h.count (hD rfl hc)
  | decide voterId term voteGranted now hd => exact (h.count (hD rfl hd.1)).win hd.1.1
  | grant candidateId term now c hc ht hv hg =>
    rcases hc with rfl | ⟨-, rfl⟩
    · exact h.grant candidateId
    · exact Core.Backed.grant (.follow _ term) candidateId

/-! ## a fresh context -/

/-- the context `ekk_raft_init` leaves, whatever was in the memory before -/
def fresh (myId : ModuleId) (totalModules : UInt8) : Ctx :=
  { myId := myId
    currentTerm := 0
    votedFor := invalidModuleId
    state := .follower
    currentLeader := invalidModuleId
    electionTimeout := 0
    lastHeartbeat := 0
    electionStart := 0
    votesReceived := 0
    votesNeeded := totalModules / 2 + 1
    totalVoters := totalModules
    voteGranted := fun _ => false
    onBecomeLeader := false
    onBecomeFollower := false
    onLeaderLost := false
    persistTerm := false
    restoreTerm := false
    randState := myId.toUInt32 * 1103515245 + 12345 }

/-- the restore callback was just cleared when `ekk_raft_init` looks for it, so nothing is
restored -/
theorem init_fresh (mem : Ctx) {myId : ModuleId} (restored : Option (UInt32 × ModuleId))
    (h1 : myId ≠ invalidModuleId) (h2 : totalModules ≠ 0) :
    init mem myId totalModules restored = .ok (fresh myId totalModules) := by
  unfold init
  rw [if_neg (not_or.mpr ⟨h1, h2⟩)]
  rfl

theorem init_inv {mem : Ctx} {myId : ModuleId} {restored : Option (UInt32 × ModuleId)}
    (h : init mem myId totalModules restored = .ok ctx) :
    myId ≠ invalidModuleId ∧ totalModules ≠ 0 ∧ ctx = fresh myId totalModules := by
  by_cases hbad : myId = invalidModuleId ∨ totalModules = 0
  · unfold init at h
    rw [if_pos hbad] at h
    cases h
  · obtain ⟨h1, h2⟩ := not_or.mp hbad
    rw [init_fresh mem restored h1 h2] at h
    injection h with h
    exact ⟨h1, h2, h.symm⟩

theorem majority_toNat (totalModules : UInt8) :
    (totalModules / 2 + 1).toNat = totalModules.toNat / 2 + 1 := by
  have h := totalModules.toNat_lt
  show (totalModules.toNat / 2 + 1) % 256 = _
  omega

theorem fresh_tally (myId : ModuleId) (totalModules : UInt8) :
    (fresh myId totalModules).core.Tally where
  needed := by
    have hlt := totalModules.toNat_lt
    show (totalModules / 2 + 1).toNat ≤ 128
    rw [majority_toNat]
    omega
  counted hs := absurd rfl hs
  short hs := State.noConfusion hs
  reached hs := State.noConfusion hs

end Raft
end EkKor
