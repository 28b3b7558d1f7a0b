import EkKor.Raft.Node

/-!
# Terms and the view of the leader

* `TermRules`    a message of a higher term makes a follower of that term, and terms only grow;
* `terms_iff`    **a run keeps the rules exactly when no VOTE_RESPONSE brings a higher term**;
* `ViewAgrees`   a module names itself as leader exactly when it is the leader;
* `view_iff`     **the view agrees with the role exactly when the module never loses the lead
                 without a heartbeat.**
-/

namespace EkKor
namespace Raft
open Runs

/-! ## terms -/

def Handler.messageTerm : Handler → Option UInt32
  | .onHeartbeat _ term _ => some term
  | .onVoteRequest _ term _ => some term
  | .onVoteResponse _ term _ _ => some term
  | _ => none

def Event.messageTerm : Event → Option UInt32
  | .handler h => h.messageTerm
  | _ => none

def Adopts (s : Node) (e : Event) : Prop :=
  ∀ term ∈ e.messageTerm, s.raft.currentTerm < term →
    (s.step e).1.raft.state = .follower ∧ (s.step e).1.raft.currentTerm = term

/-- what the terms of a run do, the growth as long as they are below the greatest -/
structure TermRules (start : Node) (es : List Event) : Prop where
  adopts : EveryStep (fun pre e => Adopts ((Node.machine start).run pre) e) es
  grows : (∀ pre, pre <+: es → ((Node.machine start).run pre).raft.currentTerm < 4294967295) →
    ∀ pre pre', pre <+: pre' → pre' <+: es →
      ((Node.machine start).run pre).raft.currentTerm ≤
        ((Node.machine start).run pre').raft.currentTerm

def NoNewerResponse (s : Node) : Event → Prop
  | .handler (.onVoteResponse _ term _ _) => term ≤ s.raft.currentTerm
  | _ => True

theorem onHeartbeat_adopts {ctx : Ctx} {term : UInt32} (h : ctx.currentTerm < term)
    (leaderId : ModuleId) (now : TimeUs) :
    (onHeartbeat ctx leaderId term now).1.core = ctx.core.follow term := by
  rw [onHeartbeat_core, if_pos (Or.inl h)]

theorem onVoteRequest_adopts {ctx : Ctx} {term : UInt32} (h : ctx.currentTerm < term)
    (partitionCtx : Option Partition.Ctx) (candidateId : ModuleId) (now : TimeUs) :
    (onVoteRequest ctx partitionCtx candidateId term now).2.1.core.state = .follower ∧
      (onVoteRequest ctx partitionCtx candidateId term now).2.1.core.currentTerm = term := by
  rw [onVoteRequest_core, adoptTerm_core, if_pos h]
  split <;> exact ⟨rfl, rfl⟩

theorem onVoteResponse_ignores {ctx : Ctx} {term : UInt32} (h : ctx.currentTerm < term)
    (voterId : ModuleId) (voteGranted : Bool) (now : TimeUs) :
    (onVoteResponse ctx voterId term voteGranted now).1 = ctx := by
  unfold onVoteResponse
  rw [if_pos (Or.inr fun heq => UInt32.lt_irrefl term (by rwa [← heq] at h))]

theorem adopts_iff (s : Node) (e : Event) : Adopts s e ↔ NoNewerResponse s e := by
  constructor
  · intro h
    unfold NoNewerResponse
    split
    · next voterId term voteGranted now =>
      rw [← UInt32.not_lt]
      intro hlt
      have hterm := (h term rfl hlt).2
      change (onVoteResponse s.raft voterId term voteGranted now).1.currentTerm = term at hterm
      rw [onVoteResponse_ignores hlt] at hterm
      rw [hterm] at hlt
      exact UInt32.lt_irrefl term hlt
    · trivial
  · intro h term hterm hlt
    cases e with
    | handler hd =>
      cases hd with
      | onHeartbeat leaderId t now =>
        cases hterm
        have hcore := onHeartbeat_adopts hlt leaderId now
        exact ⟨congrArg Core.state hcore, congrArg Core.currentTerm hcore⟩
      | onVoteRequest candidateId t now =>
        cases hterm
        exact onVoteRequest_adopts hlt s.partition candidateId now
      | onVoteResponse voterId t voteGranted now =>
        cases hterm
        exact absurd hlt (UInt32.not_lt.mpr h)
      | tick now => cases hterm
      | stepDown now => cases hterm
    | setPersistence persist restore => cases hterm
    | setCallbacks onLeader onFollower onLost => cases hterm
    | partition e => cases hterm

theorem step_grows (s : Node) (e : Event) (h : s.raft.currentTerm < 4294967295) :
    s.raft.currentTerm ≤ (s.step e).1.raft.currentTerm := by
  cases e with
  | handler hd =>
    show s.raft.currentTerm ≤ (hd.call s.raft s.partition).1.core.currentTerm
    have he := hd.call_effect s.raft s.partition
    generalize (hd.call s.raft s.partition).1.core = c',
      votes (hd.call s.raft s.partition).2 = vs at he ⊢
    cases he with
    | adopt _ term ht => exact UInt32.le_of_lt ht
    | campaign now hs =>
      have hlt : s.raft.currentTerm.toNat < 4294967295 := h
      show s.raft.currentTerm.toNat ≤ (s.raft.currentTerm.toNat + 1) % 4294967296
      omega
    | grant candidateId term now c hc ht hv hg =>
      rcases hc with rfl | ⟨hlt, rfl⟩
      · exact UInt32.le_refl _
      · exact UInt32.le_of_lt hlt
    | _ => exact UInt32.le_refl _
  | setPersistence persist restore => exact UInt32.le_refl _
  | setCallbacks onLeader onFollower onLost => exact UInt32.le_refl _
  | partition e => exact UInt32.le_refl _

theorem run_grows (start : Node) {es pre pre' : List Event}
    (hbelow : ∀ p, p <+: es → ((Node.machine start).run p).raft.currentTerm < 4294967295)
    (hpre : pre <+: pre') (hes : pre' <+: es) :
    ((Node.machine start).run pre).raft.currentTerm ≤
      ((Node.machine start).run pre').raft.currentTerm := by
  obtain ⟨rest, rfl⟩ := hpre
  induction rest using List.reverseRecOn with
  | nil =>
    rw [List.append_nil]
    exact UInt32.le_refl _
  | append_singleton rest e ih =>
    rw [← List.append_assoc] at hes ⊢
    have hbefore : pre ++ rest <+: es := (List.prefix_append _ [e]).trans hes
    rw [Machine.run_concat]
    exact UInt32.le_trans (ih hbefore) (step_grows _ e (hbelow _ hbefore))

/-- **Terms.**  From every state and in every run: each message of a higher term is adopted, and
terms never decrease, if and only if no VOTE_RESPONSE brings a higher term. -/
theorem terms_iff (start : Node) (es : List Event) :
    TermRules start es ↔
      EveryStep (fun pre e => NoNewerResponse ((Node.machine start).run pre) e) es := by
  constructor
  · exact fun h => h.adopts.mono fun pre e => (adopts_iff _ e).mp
  · exact fun h => ⟨h.mono fun pre e => (adopts_iff _ e).mpr,
      fun hbelow pre pre' hpre hes => run_grows start hbelow hpre hes⟩

/-- candidate 1 of term 1 hears from a voter of term 5 -/
theorem not_terms : ¬∀ es, TermRules ⟨fresh 1 3, none⟩ es := by
  intro h
  have hadopts := (h [.handler (.tick 1), .handler (.tick 1000000),
    .handler (.onVoteResponse 2 5 false 1000001)]).adopts
    [.handler (.tick 1), .handler (.tick 1000000)] _ (List.prefix_refl _)
  exact absurd (hadopts 5 rfl (by decide)).1 (by decide)

/-! ## the view of the leader -/

def ViewAgrees (ctx : Ctx) : Prop := getLeader ctx = ctx.myId ↔ ctx.state = .leader

def ViewAlways (start : Node) (es : List Event) : Prop :=
  ∀ pre, pre <+: es → ViewAgrees ((Node.machine start).run pre).raft

def FromOther (myId : ModuleId) : Event → Prop
  | .handler (.onHeartbeat leaderId _ _) => leaderId ≠ myId
  | _ => True

def LosesLead (s : Node) : Event → Prop
  | .handler (.tick now) => s.raft.state = .leader ∧ TickStepsDown s.raft s.partition now
  | .handler (.onVoteRequest _ term _) => s.raft.state = .leader ∧ s.raft.currentTerm < term
  | .handler (.stepDown _) => s.raft.state = .leader
  | _ => False

theorem tickLeader_leader (ctx : Ctx) (partitionCtx : Option Partition.Ctx) (elapsed now : TimeUs) :
    (tickLeader ctx partitionCtx elapsed now).1.currentLeader = ctx.currentLeader := by
  have hsend : (sendHeartbeat ctx elapsed now).1.currentLeader = ctx.currentLeader := by
    unfold sendHeartbeat
    split <;> rfl
  rw [← hsend]
  unfold tickLeader andThen
  dsimp only
  split
  · split
    · unfold stepDown
      split <;> rfl
    · rfl
  · rfl

theorem tick_leader (ctx : Ctx) (partitionCtx : Option Partition.Ctx) (now : TimeUs) :
    (tick ctx partitionCtx now).1.currentLeader =
      if TickPromotes ctx then ctx.myId else ctx.currentLeader := by
  unfold tick
  by_cases h0 : ctx.lastHeartbeat = 0
  · rw [if_pos h0, if_neg fun hp => hp.1 h0]
    rfl
  · rw [if_neg h0]
    cases hs : ctx.state with
    | follower =>
      have hno : ¬TickPromotes ctx := fun hp => State.noConfusion (hs.symm.trans hp.2.1)
      dsimp only
      split_ifs <;> rfl
    | candidate =>
      dsimp only
      by_cases hv : ctx.votesReceived ≥ ctx.votesNeeded
      · rw [if_pos hv, if_pos ⟨h0, hs, hv⟩]
        rfl
      · have hno : ¬TickPromotes ctx := fun hp => hv hp.2.2
        split_ifs <;> rfl
    | leader =>
      have hno : ¬TickPromotes ctx := fun hp => State.noConfusion (hs.symm.trans hp.2.1)
      rw [if_neg hno]
      exact tickLeader_leader ctx partitionCtx _ now

theorem adoptTerm_leader (ctx : Ctx) (term : UInt32) (now : TimeUs) :
    (adoptTerm ctx term now).1.currentLeader = ctx.currentLeader := by
  unfold adoptTerm
  split <;> rfl

theorem acceptLeader_leader (ctx : Ctx) (leaderId : ModuleId) (term : UInt32) (now : TimeUs) :
    (acceptLeader ctx leaderId term now).1.currentLeader =
      if term ≥ ctx.currentTerm then leaderId else ctx.currentLeader := by
  unfold acceptLeader
  dsimp only
  split_ifs <;> rfl

theorem onVoteRequest_leader (ctx : Ctx) (partitionCtx : Option Partition.Ctx)
    (candidateId : ModuleId) (term : UInt32) (now : TimeUs) :
    (onVoteRequest ctx partitionCtx candidateId term now).2.1.currentLeader =
      ctx.currentLeader := by
  rw [← adoptTerm_leader ctx term now]
  show (answerRequest (adoptTerm ctx term now).1 partitionCtx candidateId term now).1.currentLeader
    = _
  unfold answerRequest
  split <;> rfl

theorem onVoteResponse_leader (ctx : Ctx) (voterId : ModuleId) (term : UInt32)
    (voteGranted : Bool) (now : TimeUs) :
    (onVoteResponse ctx voterId term voteGranted now).1.currentLeader =
      if Decides ctx voterId term voteGranted then ctx.myId else ctx.currentLeader := by
  unfold onVoteResponse
  by_cases h1 : ctx.state ≠ .candidate ∨ term ≠ ctx.currentTerm
  · have hno : ¬Decides ctx voterId term voteGranted := fun h =>
      h1.elim (fun h' => h' h.1.1) fun h' => h' h.1.2.1
    rw [if_pos h1, if_neg hno]
  · obtain ⟨hs, ht⟩ := not_or.mp h1
    rw [not_not] at hs ht
    have hnot : ¬term > ctx.currentTerm := by
      rw [ht]
      exact UInt32.lt_irrefl _
    rw [if_neg h1, if_neg hnot]
    by_cases hv : voteGranted = true ∧ ctx.voteGranted voterId = false
    · rw [if_pos hv]
      by_cases hd : ctx.votesReceived + 1 ≥ ctx.votesNeeded
      · rw [if_pos hd, if_pos ⟨⟨hs, ht, hv.1, hv.2⟩, hd⟩]
        rfl
      · have hno : ¬Decides ctx voterId term voteGranted := fun h => hd h.2
        rw [if_neg hd, if_neg hno]
    · have hno : ¬Decides ctx voterId term voteGranted := fun h => hv h.1.2.2
      rw [if_neg hv, if_neg hno]

theorem viewAgrees_iff_lead {ctx ctx' : Ctx} (hview : ViewAgrees ctx) (hid : ctx'.myId = ctx.myId)
    (hleader : ctx'.currentLeader = ctx.currentLeader) :
    ViewAgrees ctx' ↔ (ctx'.state = .leader ↔ ctx.state = .leader) := by
  unfold ViewAgrees getLeader at hview ⊢
  rw [hid, hleader, hview]
  exact ⟨Iff.symm, Iff.symm⟩

theorem follower_iff {P : Prop} : (State.follower = .leader ↔ P) ↔ ¬P := iff_false_left nofun

theorem call_myId (ctx : Ctx) (partitionCtx : Option Partition.Ctx) (hd : Handler) :
    (hd.call ctx partitionCtx).1.myId = ctx.myId :=
  (hd.call_fixed ctx partitionCtx).1

section
variable {ctx : Ctx} {partitionCtx : Option Partition.Ctx} (hview : ViewAgrees ctx)
include hview

theorem tick_view (now : TimeUs) :
    ViewAgrees (tick ctx partitionCtx now).1 ↔
      ¬(ctx.state = .leader ∧ TickStepsDown ctx partitionCtx now) := by
  have hid : (tick ctx partitionCtx now).1.myId = ctx.myId :=
    call_myId ctx partitionCtx (.tick now)
  have hcore := congrArg Core.state (tick_core ctx partitionCtx now)
  have hleader := tick_leader ctx partitionCtx now
  by_cases hp : TickPromotes ctx
  · rw [if_pos hp] at hcore hleader
    have hs : ctx.state ≠ .leader := by
      rw [hp.2.1]
      exact State.noConfusion
    refine iff_of_true ?_ fun h => hs h.1
    exact iff_of_true (hleader.trans hid.symm) hcore
  rw [if_neg hp] at hcore hleader
  rw [viewAgrees_iff_lead hview hid hleader]
  change (tick ctx partitionCtx now).1.state = _ at hcore
  rw [hcore]
  by_cases hs : StartsElection ctx partitionCtx now
  · rw [if_pos hs]
    have hno : ctx.state ≠ .leader := by
      rcases hs.1.2.2 with h | h
      · rw [h]
        exact State.noConfusion
      · rw [h.1]
        exact State.noConfusion
    exact iff_of_true (iff_of_false State.noConfusion hno) fun h => hno h.1
  rw [if_neg hs]
  by_cases hd : TickStepsDown ctx partitionCtx now
  · rw [if_pos hd]
    refine follower_iff.trans (not_congr ?_)
    exact (and_iff_left hd).symm
  · rw [if_neg hd]
    exact iff_of_true Iff.rfl fun h => hd h.2

theorem onHeartbeat_view {leaderId : ModuleId} (hother : leaderId ≠ ctx.myId) (term : UInt32)
    (now : TimeUs) : ViewAgrees (onHeartbeat ctx leaderId term now).1 := by
  have hid : (onHeartbeat ctx leaderId term now).1.myId = ctx.myId :=
    call_myId ctx none (.onHeartbeat leaderId term now)
  have hcore := congrArg Core.state (onHeartbeat_core ctx leaderId term now)
  change (onHeartbeat ctx leaderId term now).1.state = _ at hcore
  have hleader : (onHeartbeat ctx leaderId term now).1.currentLeader =
      if term ≥ (adoptTerm ctx term now).1.currentTerm then leaderId
      else (adoptTerm ctx term now).1.currentLeader := acceptLeader_leader _ leaderId term now
  rw [adoptTerm_leader] at hleader
  have hadopt := congrArg Core.currentTerm (adoptTerm_core ctx term now)
  change (adoptTerm ctx term now).1.currentTerm = _ at hadopt
  by_cases hlt : term < ctx.currentTerm
  · -- an old heartbeat changes neither the leader nor the role
    have hnot : ¬term > ctx.currentTerm := UInt32.not_lt.mpr (UInt32.le_of_lt hlt)
    have hsteps : ¬(term > ctx.currentTerm ∨ HeartbeatStepsDown ctx term) := by
      rintro (h | h)
      · exact hnot h
      · rw [h.1] at hlt
        exact UInt32.lt_irrefl _ hlt
    rw [if_neg hnot] at hadopt
    change _ = ctx.currentTerm at hadopt
    rw [hadopt, if_neg (UInt32.not_le.mpr hlt)] at hleader
    rw [if_neg hsteps] at hcore
    rw [viewAgrees_iff_lead hview hid hleader, hcore]
    exact Iff.rfl
  · have hle : ctx.currentTerm ≤ term := UInt32.not_lt.mp hlt
    have hge : term ≥ (adoptTerm ctx term now).1.currentTerm := by
      rw [hadopt]
      split_ifs
      · exact UInt32.le_refl _
      · exact hle
    rw [if_pos hge] at hleader
    have hfollower : (onHeartbeat ctx leaderId term now).1.state ≠ .leader := by
      rw [hcore]
      split_ifs with hsteps
      · exact State.noConfusion
      · intro hs
        rcases UInt32.lt_or_eq_of_le hle with h | h
        · exact hsteps (Or.inl h)
        · exact hsteps (Or.inr ⟨h.symm, by rw [show ctx.state = .leader from hs]; nofun⟩)
    refine iff_of_false ?_ hfollower
    unfold getLeader
    rw [hleader, hid]
    exact hother

theorem onVoteRequest_view (candidateId : ModuleId) (term : UInt32) (now : TimeUs) :
    ViewAgrees (onVoteRequest ctx partitionCtx candidateId term now).2.1 ↔
      ¬(ctx.state = .leader ∧ ctx.currentTerm < term) := by
  have hid : (onVoteRequest ctx partitionCtx candidateId term now).2.1.myId = ctx.myId :=
    call_myId ctx partitionCtx (.onVoteRequest candidateId term now)
  rw [viewAgrees_iff_lead hview hid (onVoteRequest_leader ctx partitionCtx candidateId term now)]
  have hcore := congrArg Core.state (onVoteRequest_core ctx partitionCtx candidateId term now)
  change (onVoteRequest ctx partitionCtx candidateId term now).2.1.state = _ at hcore
  have hstate : (onVoteRequest ctx partitionCtx candidateId term now).2.1.state =
      (adoptTerm ctx term now).1.core.state := by
    rw [hcore]
    split_ifs <;> rfl
  rw [hstate, adoptTerm_core]
  split_ifs with hlt
  · exact follower_iff.trans (not_congr (and_iff_left hlt).symm)
  · exact iff_of_true Iff.rfl fun h => hlt h.2

theorem onVoteResponse_view (voterId : ModuleId) (term : UInt32) (voteGranted : Bool)
    (now : TimeUs) : ViewAgrees (onVoteResponse ctx voterId term voteGranted now).1 := by
  have hid : (onVoteResponse ctx voterId term voteGranted now).1.myId = ctx.myId :=
    call_myId ctx none (.onVoteResponse voterId term voteGranted now)
  have hcore := congrArg Core.state (onVoteResponse_core ctx voterId term voteGranted now)
  change (onVoteResponse ctx voterId term voteGranted now).1.state = _ at hcore
  have hleader := onVoteResponse_leader ctx voterId term voteGranted now
  by_cases hd : Decides ctx voterId term voteGranted
  · rw [if_pos hd] at hcore hleader
    exact iff_of_true (hleader.trans hid.symm) hcore
  · rw [if_neg hd] at hcore hleader
    rw [viewAgrees_iff_lead hview hid hleader, hcore]
    split_ifs <;> exact Iff.rfl

theorem stepDown_view (now : TimeUs) :
    ViewAgrees (stepDown ctx now).1 ↔ ¬ctx.state = .leader := by
  unfold stepDown
  split_ifs with hs
  · have hlead : ViewAgrees (becomeFollower ctx ctx.currentTerm now).1 ↔
        ((becomeFollower ctx ctx.currentTerm now).1.state = .leader ↔ ctx.state = .leader) :=
      viewAgrees_iff_lead hview rfl rfl
    exact hlead.trans follower_iff
  · exact iff_of_true hview hs

end

theorem step_view {s : Node} {e : Event} (hview : ViewAgrees s.raft)
    (hother : FromOther s.raft.myId e) : ViewAgrees (s.step e).1.raft ↔ ¬LosesLead s e := by
  cases e with
  | handler hd =>
    cases hd with
    | tick now => exact tick_view hview now
    | onHeartbeat leaderId term now =>
      exact iff_of_true (onHeartbeat_view hview hother term now) id
    | onVoteRequest candidateId term now => exact onVoteRequest_view hview candidateId term now
    | onVoteResponse voterId term voteGranted now =>
      exact iff_of_true (onVoteResponse_view hview voterId term voteGranted now) id
    | stepDown now => exact stepDown_view hview now
  | setPersistence persist restore => exact iff_of_true hview id
  | setCallbacks onLeader onFollower onLost => exact iff_of_true hview id
  | partition e => exact iff_of_true hview id

theorem run_myId (start : Node) (es : List Event) :
    ((Node.machine start).run es).raft.myId = start.raft.myId := by
  refine (Node.machine start).invariant (I := fun s => s.raft.myId = start.raft.myId) rfl ?_ es
  intro s e hs
  cases e with
  | handler hd => exact (call_myId s.raft s.partition hd).trans hs
  | setPersistence persist restore => exact hs
  | setCallbacks onLeader onFollower onLost => exact hs
  | partition e => exact hs

/-- **The view of the leader.**  A module that was initialised and hears heartbeats of others only
names itself as leader exactly while it is the leader, in all states of a run, if and only if no call
of the run takes the lead from it without a heartbeat. -/
theorem view_iff {mem raft : Ctx} {myId : ModuleId} {totalModules : UInt8}
    {restored : Option (UInt32 × ModuleId)} (hinit : init mem myId totalModules restored = .ok raft)
    (partition : Option Partition.Ctx) (es : List Event) (hother : ∀ e ∈ es, FromOther myId e) :
    ViewAlways ⟨raft, partition⟩ es ↔
      EveryStep (fun pre e => ¬LosesLead ((Node.machine ⟨raft, partition⟩).run pre) e) es := by
  obtain ⟨hid, _, rfl⟩ := init_inv hinit
  refine everyPrefix_iff_where (V := fun es => ∀ e ∈ es, FromOther myId e)
    (fun es e h e' he' => h e' (List.mem_append_left _ he')) ?_ (fun es e hV hI => ?_) es hother
  · exact iff_of_false (fun h => hid h.symm) State.noConfusion
  · rw [Machine.run_concat]
    refine step_view (hI es (List.prefix_refl es)) ?_
    rw [run_myId]
    exact hV e (List.mem_append_right _ List.mem_cons_self)

/-- module 1, alone, elects itself -/
theorem view_alone : ViewAlways ⟨fresh 1 1, none⟩
    [.handler (.tick 1), .handler (.tick 1000000), .handler (.tick 1000001)] := by
  refine (view_iff (init_fresh (fresh 1 1) none (by decide) (by decide)) none _ ?_).mpr ?_
  · intro e he
    simp only [List.mem_cons, List.not_mem_nil, or_false] at he
    rcases he with rfl | rfl | rfl <;> trivial
  · rw [everyStep_cons, everyStep_cons, everyStep_cons]
    refine ⟨?_, ?_, ?_, everyStep_nil _⟩
    · rintro ⟨h, _⟩
      exact absurd h (by decide)
    · rintro ⟨h, _⟩
      exact absurd h (by decide)
    · rintro ⟨h, _⟩
      exact absurd h (by decide)

/-- module 1 is the leader, hears of a candidate of a higher term, and still names itself -/
theorem not_view : ∃ raft, init (fresh 1 1) 1 1 none = .ok raft ∧
    ¬ViewAlways ⟨raft, none⟩ [.handler (.tick 1), .handler (.tick 1000000),
      .handler (.tick 1000001), .handler (.onVoteRequest 2 5 1000002)] := by
  refine ⟨_, init_fresh (fresh 1 1) none (by decide) (by decide), fun h => ?_⟩
  exact absurd ((h _ (List.prefix_refl _)).mp (by decide)) (by decide)

end Raft
end EkKor
