import EkKor.Lib.Quorum
import EkKor.Raft.Network

/-!
# Election safety

All modules of a cluster, started by `ekk_raft_init` with the size of the cluster and no
partition context, over the network.

* `EverLeader`      the module has been leader of the term;
* `SafeElections`   at most one module has ever been leader of a term;
* `Orderly`         the condition on one event;
* `Local`, `Wire`, `Led`   the invariants: of one module, of the votes on the network, of the
                    leaders so far;
* `election_safety` a run of orderly events has safe elections;
* `two_leaders`     without the condition there is a run that has not: a leader that steps down
                    forgets its vote and gives it again in the same term.
-/

namespace EkKor
namespace Raft
open Runs

/-! ## the statement -/

/-- after some of the events `es` the module `i` was leader in the term `T` -/
def EverLeader (M : Machine Net NetEvent Packet) (es : List NetEvent) (i : ModuleId) (T : UInt32) :
    Prop :=
  ∃ pre, pre <+: es ∧ ((M.run pre).nodes i).core.state = .leader ∧
    ((M.run pre).nodes i).core.currentTerm = T

def SafeElections (S : Finset ModuleId) (M : Machine Net NetEvent Packet) (es : List NetEvent) :
    Prop :=
  ∀ T, ∀ i ∈ S, ∀ j ∈ S, EverLeader M es i T → EverLeader M es j T → i = j

/-- no election starts in the last 32-bit term; a module that gave up the leadership of its term
gets no vote request of that term from another candidate; a vote response reaches the candidate
it is addressed to only -/
def Orderly (M : Machine Net NetEvent Packet) (pre : List NetEvent) : NetEvent → Prop
  | .tick i now => StartsElection ((M.run pre).nodes i) none now →
      ((M.run pre).nodes i).currentTerm ≠ 0xFFFFFFFF
  | .stepDown _ _ => True
  | .deliver ⟨_, .heartbeat _ _⟩ _ _ => True
  | .deliver ⟨_, .requestVote term candidateId⟩ i _ => EverLeader M pre i term →
      ((M.run pre).nodes i).currentTerm = term →
      ((M.run pre).nodes i).votedFor = invalidModuleId → candidateId = i
  | .deliver ⟨dest, .voteResponse _ _ _⟩ i _ => dest = i

variable {es : List NetEvent} {i c : ModuleId} {T : UInt32} {ctx : Ctx}
  {G : ModuleId → UInt32 → Prop}

theorem everLeader_concat {M : Machine Net NetEvent Packet} {e : NetEvent}
    (h : EverLeader M (es ++ [e]) i T) :
    EverLeader M es i T ∨ (((M.run (es ++ [e])).nodes i).core.state = .leader ∧
      ((M.run (es ++ [e])).nodes i).core.currentTerm = T) := by
  obtain ⟨pre, hpre, hs, hT⟩ := h
  rcases List.prefix_concat_iff.mp hpre with rfl | hp
  · exact Or.inr ⟨hs, hT⟩
  · exact Or.inl ⟨pre, hp, hs, hT⟩

/-! ## the invariants -/

section
variable (S : Finset ModuleId) (totalModules : UInt8)

/-- what the module `i` keeps by itself: a candidate or leader has its own vote, its tally is
exact, and the votes it counts were given (`G v T`: `v` gave it its vote for the term `T`) -/
structure Core.Sound (i : ModuleId) (G : ModuleId → UInt32 → Prop) (c : Core) : Prop where
  valid : i ≠ invalidModuleId
  named : c.myId = i
  needed : c.votesNeeded = totalModules / 2 + 1
  tally : c.Tally
  own : c.state ≠ .follower → c.votedFor = i
  backed : c.Backed G

def Local (s : Net) : Prop :=
  ∀ i ∈ S, (s.nodes i).core.Sound totalModules i fun v T => s.Granted T v i

/-- the votes on the network: a vote given to another module is the voter's vote of that term as
long as the term lasts, and the voter stays a follower in it -/
structure Wire (s : Net) : Prop where
  requests : ∀ dest T c, ⟨dest, .requestVote T c⟩ ∈ s.sent → c ∈ S
  parties : ∀ T v c, s.Granted T v c → v ∈ S ∧ c ∈ S
  binding : ∀ T v c, s.Granted T v c → c ≠ v → T ≤ (s.nodes v).core.currentTerm ∧
    (T = (s.nodes v).core.currentTerm →
      (s.nodes v).core.state = .follower ∧ (s.nodes v).core.votedFor = c)
  single : ∀ T v c c', s.Granted T v c → s.Granted T v c' → c ≠ v → c' ≠ v → c = c'

/-- `v` supports `c` in the term `T` -/
def Net.Supports (s : Net) (T : UInt32) (v c : ModuleId) : Prop := v = c ∨ s.Granted T v c

/-- a module that has been leader of a term has a majority behind it, and its own vote in that
term went to nobody else -/
structure Led (s : Net) (led : ModuleId → UInt32 → Prop) : Prop where
  won : ∀ i T, led i T → Quorum.Won S (s.Supports T) i
  vote : ∀ i T, led i T → T ≤ (s.nodes i).core.currentTerm ∧
    (T = (s.nodes i).core.currentTerm →
      (s.nodes i).core.votedFor = invalidModuleId ∨ (s.nodes i).core.votedFor = i)
  alone : ∀ i T c, led i T → s.Granted T i c → c = i

end

variable {S : Finset ModuleId} {totalModules : UInt8} {s : Net} {led : ModuleId → UInt32 → Prop}

/-- **Two leaders of one term are one module.** -/
theorem Led.unique (hW : Wire S s) (hL : Led S s led) {j : ModuleId} (hi : led i T) (hj : led j T) :
    i = j := by
  refine (hL.won i T hi).unique (hL.won j T hj) fun v hvi hvj => ?_
  by_cases h1 : i = v
  · rcases hvj with hvj | hg
    · rw [h1, hvj]
    · rw [← h1] at hg
      exact (hL.alone i T j hi hg).symm
  · by_cases h2 : j = v
    · rcases hvi with hvi | hg
      · exact absurd hvi.symm h1
      · rw [← h2] at hg
        exact hL.alone j T i hj hg
    · rcases hvi with hvi | hgi
      · exact absurd hvi.symm h1
      · rcases hvj with hvj | hgj
        · exact absurd hvj.symm h2
        · exact hW.single T v i j hgi hgj h1 h2

theorem Local.won (hL : Local S totalModules s) (hW : Wire S s) (hN : totalModules.toNat = S.card)
    (hi : i ∈ S) (hl : (s.nodes i).core.state = .leader) :
    Quorum.Won S (s.Supports (s.nodes i).core.currentTerm) i := by
  have hne : (s.nodes i).core.state ≠ .follower := by
    rw [hl]
    exact State.noConfusion
  have hsup : ∀ v ∈ (s.nodes i).core.granted, s.Supports (s.nodes i).core.currentTerm v i := by
    intro v hv
    by_cases h : v = i
    · exact Or.inl h
    · exact Or.inr ((hL i hi).backed hne v (Core.mem_granted.mp hv)
        (by rw [(hL i hi).named]; exact h))
  refine ⟨(s.nodes i).core.granted, fun v hv => ?_, ?_, hsup⟩
  · rcases hsup v hv with rfl | hg
    · exact hi
    · exact (hW.parties _ _ _ hg).1
  · have hr := UInt8.le_iff_toNat_le.mp ((hL i hi).tally.reached hl)
    rw [(hL i hi).needed, majority_toNat, hN, (hL i hi).tally.counted hne] at hr
    exact hr

/-! ## one call -/

/-- what the call `h` of the module `i` may rely on -/
def Allowed (S : Finset ModuleId) (s : Net) (led : ModuleId → UInt32 → Prop) (i : ModuleId) :
    Handler → Prop
  | .tick now => StartsElection (s.nodes i) none now → (s.nodes i).currentTerm ≠ 0xFFFFFFFF
  | .onVoteRequest candidateId term _ => candidateId ∈ S ∧ (led i term →
      (s.nodes i).currentTerm = term → (s.nodes i).votedFor = invalidModuleId → candidateId = i)
  | .onVoteResponse voterId term voteGranted _ => voteGranted = true → s.Granted term voterId i
  | _ => True

theorem Net.granted_act {h : Handler} (hid : (s.nodes i).core.myId = i) {v : ModuleId}
    (hg : (s.act i h).Granted T v c) :
    s.Granted T v c ∨ v = i ∧ ∃ now, h = .onVoteRequest c T now ∧
      (onVoteRequest (s.nodes i) none c T now).1 = true := by
  rcases List.mem_append.mp hg with hold | hnew
  · exact Or.inl hold
  · rcases Handler.call_packets hnew with ⟨T', hm⟩ | ⟨T', hm⟩ | ⟨c', T', now, hh, hp⟩
    · cases hm
    · cases hm
    · obtain ⟨hd, hm⟩ := Packet.mk.inj hp
      obtain ⟨hT, hv, hb⟩ := Msg.voteResponse.inj hm
      subst hd
      have hspec := mayVoteFor_spec
        (show mayVoteFor (adoptTerm (s.nodes i) T' now).1 none c T' = true from hb.symm)
      have hTT : T = T' := hT.trans hspec.1.symm
      subst hTT
      exact Or.inr ⟨hv.trans hid, now, hh, hb.symm⟩

variable {h : Handler}

theorem Core.Sound.call (hc : ctx.core.Sound totalModules i G) (partitionCtx : Option Partition.Ctx)
    (hG : ∀ v T now, h = .onVoteResponse v T true now → G v T) :
    (h.call ctx partitionCtx).1.core.Sound totalModules i G where
  valid := hc.valid
  named := (h.call_fixed ctx partitionCtx).1.trans hc.named
  needed := (h.call_fixed ctx partitionCtx).2.trans hc.needed
  tally := h.call_tally hc.tally partitionCtx
  backed := h.call_backed hc.backed partitionCtx fun v T now hh _ _ => hG v T now hh
  own := by
    have hown := hc.own
    have he := h.call_effect ctx partitionCtx
    generalize (h.call ctx partitionCtx).1.core = c', votes (h.call ctx partitionCtx).2 = vs
      at he ⊢
    cases he with
    | idle => exact hown
    | adopt => exact fun hs => absurd rfl hs
    | stepDown => exact fun hs => absurd rfl hs
    | campaign => exact fun _ => hc.named
    | promote now hp =>
      refine fun _ => hown ?_
      rw [show ctx.core.state = .candidate from hp.2.1]
      exact State.noConfusion
    | count => exact hown
    | decide voterId term voteGranted now hd =>
      refine fun _ => hown ?_
      rw [show ctx.core.state = .candidate from hd.1.1]
      exact State.noConfusion
    | grant candidateId term now c hA ht hv hg =>
      rcases hA with rfl | ⟨-, rfl⟩
      · intro hs
        rcases hv with hv | hv
        · exact absurd ((hown hs).symm.trans hv) hc.valid
        · exact hv.symm.trans (hown hs)
      · exact fun hs => absurd rfl hs

theorem Local.act (hL : Local S totalModules s) (ha : Allowed S s led i h) :
    Local S totalModules (s.act i h) := by
  intro j hj
  have hold : (s.nodes j).core.Sound totalModules j fun v T => (s.act i h).Granted T v j :=
    { hL j hj with backed := (hL j hj).backed.mono fun v T hg => hg.act i h }
  by_cases hij : j = i
  · subst hij
    rw [Net.act_self]
    refine hold.call none fun v T now hh => ?_
    subst hh
    exact (ha rfl).act j _
  · rw [Net.act_other s h hij]
    exact hold

theorem later_term {t t' : UInt32} {P : Prop} (hT : T ≤ t) (hlt : t < t') :
    T ≤ t' ∧ (T = t' → P) := by
  have h := UInt32.lt_of_le_of_lt hT hlt
  exact ⟨UInt32.le_of_lt h, fun he => absurd he (UInt32.ne_of_lt h)⟩

theorem Handler.keeps_vote
    (htick : ∀ now, h = .tick now → StartsElection ctx none now → ctx.currentTerm ≠ 0xFFFFFFFF)
    (hc0 : c ≠ invalidModuleId) (hb : T ≤ ctx.core.currentTerm ∧ (T = ctx.core.currentTerm →
    ctx.core.state = .follower ∧ ctx.core.votedFor = c)) :
    T ≤ (h.call ctx none).1.core.currentTerm ∧
      (T = (h.call ctx none).1.core.currentTerm → (h.call ctx none).1.core.state = .follower ∧
        (h.call ctx none).1.core.votedFor = c) := by
  have he := h.call_effect ctx none
  generalize (h.call ctx none).1.core = c', votes (h.call ctx none).2 = vs at he ⊢
  cases he with
  | idle => exact hb
  | adopt _ term ht => exact later_term hb.1 ht
  | stepDown _ hs => exact ⟨hb.1, fun he => absurd (hb.2 he).1 hs.state_ne⟩
  | campaign now hs =>
    exact later_term hb.1 (show ctx.currentTerm < ctx.currentTerm + 1 by grind)
  | promote now hp =>
    refine ⟨hb.1, fun he => absurd ((hb.2 he).1.symm.trans hp.2.1) State.noConfusion⟩
  | count => exact hb
  | decide voterId term voteGranted now hd =>
    refine ⟨hb.1, fun he => absurd ((hb.2 he).1.symm.trans hd.1.1) State.noConfusion⟩
  | grant candidateId term now c₁ hA ht hv hg =>
    rcases hA with rfl | ⟨hlt, rfl⟩
    · refine ⟨hb.1, fun he => ⟨(hb.2 he).1, ?_⟩⟩
      rcases hv with hv | hv
      · exact absurd ((hb.2 he).2.symm.trans hv) hc0
      · exact hv.symm.trans (hb.2 he).2
    · exact later_term hb.1 hlt

theorem Core.Sound.gives_vote (hc : ctx.core.Sound totalModules i G) {now : TimeUs}
    (hg : (onVoteRequest ctx none c T now).1 = true) (hne : c ≠ i) :
    T = (onVoteRequest ctx none c T now).2.1.core.currentTerm ∧
      (onVoteRequest ctx none c T now).2.1.core.state = .follower ∧
      (onVoteRequest ctx none c T now).2.1.core.votedFor = c := by
  obtain ⟨ht, hv, -⟩ := mayVoteFor_spec
    (show mayVoteFor (adoptTerm ctx T now).1 none c T = true from hg)
  rw [onVoteRequest_core, if_pos hg]
  refine ⟨ht, ?_, rfl⟩
  have hv' : (adoptTerm ctx T now).1.core.votedFor = invalidModuleId ∨
    (adoptTerm ctx T now).1.core.votedFor = c := hv
  rw [adoptTerm_core] at hv' ⊢
  by_cases hlt : T > ctx.currentTerm
  · rw [if_pos hlt]
    rfl
  · rw [if_neg hlt] at hv' ⊢
    by_contra hs
    rcases hv' with hv' | hv'
    · exact hc.valid ((hc.own hs).symm.trans hv')
    · exact hne (hv'.symm.trans (hc.own hs))

theorem Wire.act (hW : Wire S s) (hL : Local S totalModules s) (hi : i ∈ S)
    (ha : Allowed S s led i h) : Wire S (s.act i h) := by
  have hreq : ∀ dest T c, ⟨dest, .requestVote T c⟩ ∈ (s.act i h).sent → c ∈ S := by
    intro dest T c hm
    rcases List.mem_append.mp hm with hold | hnew
    · exact hW.requests dest T c hold
    · rcases Handler.call_packets hnew with ⟨T', hm⟩ | ⟨T', hm⟩ | ⟨c', T', now, hh, hp⟩
      · cases hm
      · rw [(Msg.requestVote.inj hm).2, show (s.nodes i).myId = i from (hL i hi).named]
        exact hi
      · cases hp
  have hpar : ∀ T v c, (s.act i h).Granted T v c → v ∈ S ∧ c ∈ S := by
    intro T v c hg
    rcases Net.granted_act (hL i hi).named hg with hold | ⟨rfl, now, rfl, -⟩
    · exact hW.parties T v c hold
    · exact ⟨hi, ha.1⟩
  have hbind : ∀ T v c, (s.act i h).Granted T v c → c ≠ v →
      T ≤ ((s.act i h).nodes v).core.currentTerm ∧
        (T = ((s.act i h).nodes v).core.currentTerm →
          ((s.act i h).nodes v).core.state = .follower ∧
          ((s.act i h).nodes v).core.votedFor = c) := by
    intro T v c hg hne
    rcases Net.granted_act (hL i hi).named hg with hold | ⟨rfl, now, rfl, hgr⟩
    · have hb := hW.binding T v c hold hne
      by_cases hv : v = i
      · subst hv
        rw [Net.act_self]
        refine h.keeps_vote (fun now hh => ?_) (hL c (hW.parties T v c hold).2).valid hb
        subst hh
        exact ha
      · rw [Net.act_other s h hv]
        exact hb
    · rw [Net.act_self]
      obtain ⟨h1, h2⟩ := (hL v hi).gives_vote hgr hne
      exact ⟨h1 ▸ UInt32.le_refl _, fun _ => h2⟩
  refine ⟨hreq, hpar, hbind, fun T v c c' hg hg' hne hne' => ?_⟩
  have hnew : ∀ now c₁, c₁ ≠ v → h = .onVoteRequest c₁ T now →
      (onVoteRequest (s.nodes i) none c₁ T now).1 = true → v = i → c = c' := by
    rintro now c₁ hc₁ rfl hgr rfl
    have ht := ((hL v hi).gives_vote hgr hc₁).1
    have ht' : T = ((s.act v (.onVoteRequest c₁ T now)).nodes v).core.currentTerm := by
      rw [Net.act_self]
      exact ht
    exact ((hbind T v c hg hne).2 ht').2.symm.trans ((hbind T v c' hg' hne').2 ht').2
  rcases Net.granted_act (hL i hi).named hg with hold | ⟨hv, now, hh, hgr⟩
  · rcases Net.granted_act (hL i hi).named hg' with hold' | ⟨hv, now, hh, hgr⟩
    · exact hW.single T v c c' hold hold' hne hne'
    · exact hnew now c' hne' hh hgr hv
  · exact hnew now c hne hh hgr hv

theorem Handler.keeps_own
    (htick : ∀ now, h = .tick now → StartsElection ctx none now → ctx.currentTerm ≠ 0xFFFFFFFF)
    (hreq : ∀ c now, h = .onVoteRequest c T now → ctx.currentTerm = T → ctx.votedFor =
    invalidModuleId → c = i) (hb : T ≤ ctx.core.currentTerm ∧ (T = ctx.core.currentTerm →
    ctx.core.votedFor = invalidModuleId ∨ ctx.core.votedFor = i)) :
    T ≤ (h.call ctx none).1.core.currentTerm ∧ (T = (h.call ctx none).1.core.currentTerm →
      (h.call ctx none).1.core.votedFor = invalidModuleId ∨
        (h.call ctx none).1.core.votedFor = i) := by
  have he := h.call_effect ctx none
  generalize (h.call ctx none).1.core = c', votes (h.call ctx none).2 = vs at he ⊢
  cases he with
  | adopt _ term ht => exact later_term hb.1 ht
  | stepDown _ hs => exact ⟨hb.1, fun _ => Or.inl rfl⟩
  | campaign now hs =>
    exact later_term hb.1 (show ctx.currentTerm < ctx.currentTerm + 1 by grind)
  | grant candidateId term now c₁ hA ht hv hg =>
    rcases hA with rfl | ⟨hlt, rfl⟩
    · refine ⟨hb.1, fun he => Or.inr ?_⟩
      have hT : ctx.core.currentTerm = T := he.symm
      have hterm : term = T := ht.trans hT
      subst hterm
      rcases hv with hv | hv
      · exact hreq candidateId now rfl hT hv
      · rcases hb.2 he with h0 | h1
        · exact hreq candidateId now rfl hT h0
        · exact hv.symm.trans h1
    · exact later_term hb.1 hlt
  | _ => exact hb

theorem Led.act (hD : Led S s led) (hL : Local S totalModules s) (hW : Wire S s)
    (hN : totalModules.toNat = S.card) (hi : i ∈ S) (ha : Allowed S s led i h)
    {led' : ModuleId → UInt32 → Prop}
    (hled : ∀ j T, led' j T → led j T ∨ j ∈ S ∧ ((s.act i h).nodes j).core.state = .leader ∧
      ((s.act i h).nodes j).core.currentTerm = T) : Led S (s.act i h) led' := by
  have hL' := hL.act ha
  have hW' := hW.act hL hi ha
  have hvote : ∀ j T, led' j T → T ≤ ((s.act i h).nodes j).core.currentTerm ∧
      (T = ((s.act i h).nodes j).core.currentTerm →
        ((s.act i h).nodes j).core.votedFor = invalidModuleId ∨
        ((s.act i h).nodes j).core.votedFor = j) := by
    intro j T hj
    rcases hled j T hj with hold | ⟨hjS, hs, rfl⟩
    · have hb := hD.vote j T hold
      by_cases hij : j = i
      · subst hij
        rw [Net.act_self]
        refine h.keeps_own (fun now hh => ?_) (fun c now hh hT hv => ?_) hb
        · subst hh
          exact ha
        · subst hh
          exact ha.2 hold hT hv
      · rw [Net.act_other s h hij]
        exact hb
    · refine ⟨UInt32.le_refl _, fun _ => Or.inr ((hL' j hjS).own ?_)⟩
      rw [hs]
      exact State.noConfusion
  refine ⟨fun j T hj => ?_, hvote, fun j T c hj hg => ?_⟩
  · rcases hled j T hj with hold | ⟨hjS, hs, rfl⟩
    · exact (hD.won j T hold).mono fun v hv => hv.imp_right fun hg => hg.act i h
    · exact hL'.won hW' hN hjS hs
  · by_contra hne
    rcases hled j T hj with hold | ⟨hjS, hs, rfl⟩
    · rcases Net.granted_act (hL i hi).named hg with hg | ⟨rfl, now, rfl, hgr⟩
      · exact hne (hD.alone j T c hold hg)
      · obtain ⟨hT, -, hvf⟩ := (hL j hi).gives_vote hgr hne
        have hown := (hvote j T hj).2
        rw [Net.act_self] at hown
        rcases hown hT with h0 | h1
        · exact (hL' c ha.1).valid (hvf.symm.trans h0)
        · exact hne (hvf.symm.trans h1)
    · have hf := ((hW'.binding _ j c hg hne).2 rfl).1
      rw [hs] at hf
      exact State.noConfusion hf

/-! ## runs -/

section
variable (S : Finset ModuleId) (nodes : ModuleId → Ctx)

theorem Orderly.allowed {e : NetEvent} (hW : Wire S ((Net.machine S nodes).run es))
    (he : Orderly (Net.machine S nodes) es e)
    (hc : ((Net.machine S nodes).run es).callOf S e = some (i, h)) :
    Allowed S ((Net.machine S nodes).run es)
      (fun i T => i ∈ S ∧ EverLeader (Net.machine S nodes) es i T) i h := by
  obtain ⟨-, ⟨now, rfl, rfl⟩ | ⟨now, rfl, rfl⟩ | ⟨⟨dest, m⟩, now, rfl, rfl, hp, -⟩⟩ :=
    Net.callOf_inv hc
  · exact he
  · trivial
  · cases m with
    | heartbeat term leaderId => trivial
    | requestVote term candidateId =>
      exact ⟨hW.requests dest term candidateId hp, fun hl => he hl.2⟩
    | voteResponse term voterId voteGranted =>
      intro hg
      have hd : dest = i := he
      rw [hd, hg] at hp
      exact hp

theorem start_sound (totalModules : UInt8)
    (hfresh : ∀ i ∈ S, i ≠ invalidModuleId ∧ nodes i = fresh i totalModules) :
    Local S totalModules ((Net.machine S nodes).run []) ∧ Wire S ((Net.machine S nodes).run []) ∧
      Led S ((Net.machine S nodes).run [])
        (fun i T => i ∈ S ∧ EverLeader (Net.machine S nodes) [] i T) := by
  have hstart : ∀ i ∈ S, (((Net.machine S nodes).run []).nodes i).core
      = (fresh i totalModules).core := fun i hi => congrArg Ctx.core (hfresh i hi).2
  have hno : ∀ {i T}, i ∈ S → ¬ EverLeader (Net.machine S nodes) [] i T := by
    rintro i T hi ⟨pre, hpre, hs, -⟩
    rw [List.prefix_nil.mp hpre, hstart i hi] at hs
    cases hs
  refine ⟨fun i hi => ?_, ⟨?_, ?_, ?_, ?_⟩, ⟨?_, ?_, ?_⟩⟩
  · rw [hstart i hi]
    exact ⟨(hfresh i hi).1, rfl, rfl, fresh_tally i totalModules, fun hs => absurd rfl hs,
      fun hs => absurd rfl hs⟩
  · exact fun _ _ _ h => absurd h List.not_mem_nil
  · exact fun _ _ _ h => absurd h List.not_mem_nil
  · exact fun _ _ _ h => absurd h List.not_mem_nil
  · exact fun _ _ _ _ h => absurd h List.not_mem_nil
  · exact fun i T h => absurd h.2 (hno h.1)
  · exact fun i T h => absurd h.2 (hno h.1)
  · exact fun i T c h => absurd h.2 (hno h.1)

theorem run_sound (totalModules : UInt8) (hN : totalModules.toNat = S.card)
    (hinit : ∀ i ∈ S, ∃ mem restored, init mem i totalModules restored = .ok (nodes i))
    (es : List NetEvent) (hes : EveryStep (Orderly (Net.machine S nodes)) es) :
    Local S totalModules ((Net.machine S nodes).run es) ∧ Wire S ((Net.machine S nodes).run es) ∧
      Led S ((Net.machine S nodes).run es)
        (fun i T => i ∈ S ∧ EverLeader (Net.machine S nodes) es i T) := by
  let M := Net.machine S nodes
  have hfresh : ∀ i ∈ S, i ≠ invalidModuleId ∧ nodes i = fresh i totalModules := by
    intro i hi
    obtain ⟨mem, restored, h⟩ := hinit i hi
    exact ⟨(init_inv h).1, (init_inv h).2.2⟩
  refine history_induction (P := Orderly M) (I := fun es => Local S totalModules (M.run es) ∧
    Wire S (M.run es) ∧ Led S (M.run es) fun i T => i ∈ S ∧ EverLeader M es i T)
    (start_sound S nodes totalModules hfresh) ?_ es hes
  rintro es e ⟨hL, hW, hD⟩ he
  have hrun : M.run (es ++ [e]) = (Net.step S (M.run es) e).1 := M.run_concat es e
  cases hc : (M.run es).callOf S e with
  | none =>
    -- nothing happens, so there is no new leader
    have hsame : M.run (es ++ [e]) = M.run es := by
      rw [hrun, Net.step, hc]
    have hled : ∀ {i T}, EverLeader M (es ++ [e]) i T → EverLeader M es i T := by
      intro i T h
      rcases everLeader_concat h with h | ⟨hs, hT⟩
      · exact h
      · rw [hsame] at hs hT
        exact ⟨es, List.prefix_refl es, hs, hT⟩
    rw [hsame]
    exact ⟨hL, hW, fun i T h => hD.won i T ⟨h.1, hled h.2⟩,
      fun i T h => hD.vote i T ⟨h.1, hled h.2⟩, fun i T c h => hD.alone i T c ⟨h.1, hled h.2⟩⟩
  | some ih =>
    obtain ⟨i, h⟩ := ih
    have hact : M.run (es ++ [e]) = (M.run es).act i h := by
      rw [hrun, Net.step, hc]
    have ha := he.allowed S nodes hW hc
    have hi := (Net.callOf_inv hc).1
    rw [hact]
    refine ⟨hL.act ha, hW.act hL hi ha, hD.act hL hW hN hi ha fun j T hj => ?_⟩
    rcases everLeader_concat hj.2 with hold | hnew
    · exact Or.inl ⟨hj.1, hold⟩
    · rw [hact] at hnew
      exact Or.inr ⟨hj.1, hnew⟩

/-- **Election safety.**  In every run of orderly events, at most one module has ever been leader
of a term. -/
theorem election_safety (totalModules : UInt8) (hN : totalModules.toNat = S.card)
    (hinit : ∀ i ∈ S, ∃ mem restored, init mem i totalModules restored = .ok (nodes i))
    (es : List NetEvent) (hes : EveryStep (Orderly (Net.machine S nodes)) es) :
    SafeElections S (Net.machine S nodes) es := by
  obtain ⟨-, hW, hD⟩ := run_sound S nodes totalModules hN hinit es hes
  exact fun T i hi j hj h h' => hD.unique hW ⟨hi, h⟩ ⟨hj, h'⟩

end

/-- three modules: module 1 wins the election of term 1 with the vote of module 2 -/
theorem election_safety_three :
    SafeElections {1, 2, 3} (Net.machine {1, 2, 3} fun i => fresh i 3)
      ([] ++ [.tick 1 1] ++ [.tick 1 1000000] ++ [.deliver ⟨0xFF, .requestVote 1 1⟩ 2 1000100]
        ++ [.deliver ⟨1, .voteResponse 1 2 true⟩ 1 1000200]) := by
  apply election_safety {1, 2, 3} _ 3 (by decide)
  · intro i hi
    have hne : i ≠ invalidModuleId := by
      rintro rfl
      exact absurd hi (by decide)
    exact ⟨fresh i 3, none, init_fresh (fresh i 3) none hne (by decide)⟩
  · rw [everyStep_concat, everyStep_concat, everyStep_concat, everyStep_concat]
    exact ⟨⟨⟨⟨everyStep_nil _, fun _ => by decide⟩, fun _ => by decide⟩,
      fun _ h => absurd h (by decide)⟩, rfl⟩

def NetEvent.time : NetEvent → TimeUs
  | .tick _ now => now
  | .stepDown _ now => now
  | .deliver _ _ now => now

/-- modules 1 and 2 of 3 are candidates of term 1; module 1 wins with the vote of module 3, steps
down, and then answers the request of module 2, which is still on its way, with its own vote -/
theorem two_leaders :
    ([.tick 1 1, .tick 2 1, .tick 1 1000000, .tick 2 1000000,
        .deliver ⟨0xFF, .requestVote 1 1⟩ 3 1000100,
        .deliver ⟨1, .voteResponse 1 3 true⟩ 1 1000200, .stepDown 1 1000300,
        .deliver ⟨0xFF, .requestVote 1 2⟩ 1 1000400,
        .deliver ⟨2, .voteResponse 1 1 true⟩ 2 1000500].map NetEvent.time).Pairwise (· ≤ ·) ∧
      ¬ SafeElections {1, 2, 3} (Net.machine {1, 2, 3} fun i => fresh i 3)
        [.tick 1 1, .tick 2 1, .tick 1 1000000, .tick 2 1000000,
          .deliver ⟨0xFF, .requestVote 1 1⟩ 3 1000100,
          .deliver ⟨1, .voteResponse 1 3 true⟩ 1 1000200, .stepDown 1 1000300,
          .deliver ⟨0xFF, .requestVote 1 2⟩ 1 1000400,
          .deliver ⟨2, .voteResponse 1 1 true⟩ 2 1000500] := by
  refine ⟨by decide, fun h => ?_⟩
  have hone : (1 : ModuleId) = 2 := h 1 1 (by decide) 2 (by decide)
    ⟨[.tick 1 1, .tick 2 1, .tick 1 1000000, .tick 2 1000000,
      .deliver ⟨0xFF, .requestVote 1 1⟩ 3 1000100,
      .deliver ⟨1, .voteResponse 1 3 true⟩ 1 1000200],
      ⟨[.stepDown 1 1000300, .deliver ⟨0xFF, .requestVote 1 2⟩ 1 1000400,
        .deliver ⟨2, .voteResponse 1 1 true⟩ 2 1000500], rfl⟩, by decide, by decide⟩
    ⟨_, List.prefix_refl _, by decide, by decide⟩
  exact absurd hone (by decide)

end Raft
end EkKor
