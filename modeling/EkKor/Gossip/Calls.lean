import EkKor.Gossip.Delivery

/-!
# What the calls of a module send and keep

* `AllOk`             the events in an output have a property of their origins and numbers, and no
                      request ends at the last number;
* `handleEvent_ok`, `tick_ok`, `answer_quiet`   the outputs of the calls;
* `Quiet`             a call that hands over nothing;
* `answer_returns`    the answer to a request ends;
* `Covered`, `mergeSummary_eq`   merging a covered summary does nothing.
-/

namespace EkKor
namespace Gossip
open List

/-! ## what the calls send -/

/-- the origins and numbers of the events have the property `Q` -/
def AllMarked (Q : ModuleId → UInt32 → Prop) (events : List EventV2) : Prop :=
  ∀ e ∈ events, Q e.originId e.originSeq

/-- the events in an output have the property `Q`, and a request does not end at the last number -/
def Out.Ok (Q : ModuleId → UInt32 → Prop) : Out → Prop
  | .send _ (.gossip msg) => AllMarked Q msg.events
  | .send _ .ack => True
  | .send _ (.request req) => req.toSeq < 0xFFFFFFFF
  | .store event => Q event.originId event.originSeq
  | .onEvent event => Q event.originId event.originSeq

def AllOk (Q : ModuleId → UInt32 → Prop) (out : List Out) : Prop := ∀ o ∈ out, o.Ok Q

variable {Q : ModuleId → UInt32 → Prop}

variable {out : List Out} (ctx : Ctx) {events : List EventV2} {vv : VersionVector}
  (sender : ModuleId) {seq : UInt32} {summary : VvSummary}

theorem allOk_append {out' : List Out} (h : AllOk Q out) (h' : AllOk Q out') :
    AllOk Q (out ++ out') := by
  intro o ho
  rcases mem_append.mp ho with ho | ho
  · exact h o ho
  · exact h' o ho

theorem allOk_nil : AllOk Q [] := by
  intro o ho
  cases ho

theorem outgoing_mark (event : EventV2) :
    (outgoing ctx event).originId = event.originId ∧
      (outgoing ctx event).originSeq = event.originSeq := by
  unfold outgoing
  split_ifs <;> exact ⟨rfl, rfl⟩

theorem sendGossipToNeighbor_ok (id : ModuleId) (h : AllMarked Q events) :
    AllOk Q (sendGossipToNeighbor ctx id events).2 := by
  unfold sendGossipToNeighbor
  split_ifs
  · exact allOk_nil
  · intro o ho
    rw [mem_singleton.mp ho]
    intro e he
    obtain ⟨e', he', rfl⟩ := mem_map.mp he
    obtain ⟨hid, hseq⟩ := outgoing_mark ctx e'
    rw [hid, hseq]
    exact h e' he'

theorem sendAll_ok {sends : List (ModuleId × List EventV2)} (h : ∀ send ∈ sends, AllMarked Q send.2) :
    AllOk Q (sendAll ctx sends).2 := by
  induction sends generalizing ctx with
  | nil => exact allOk_nil
  | cons send rest ih =>
    exact allOk_append (sendGossipToNeighbor_ok ctx send.1 (h send mem_cons_self))
      (ih _ fun send' h' => h send' (mem_cons_of_mem send h'))

theorem forward_ok {event : EventV2} (sender : ModuleId) (h : Q event.originId event.originSeq) :
    AllOk Q (forward ctx event sender).2 := by
  unfold forward
  split_ifs
  · refine sendAll_ok ctx fun send hsend => ?_
    obtain ⟨id, _, rfl⟩ := mem_map.mp hsend
    intro e he
    rw [mem_singleton.mp he]
    exact h
  · exact allOk_nil

theorem drain_ok (vv : VersionVector) {buffered : List EventV2} (h : AllMarked Q buffered) :
    AllOk Q (drain vv buffered).2.2 := by
  induction buffered generalizing vv with
  | nil => exact allOk_nil
  | cons b rest ih =>
    have hb := h b mem_cons_self
    have hrest := fun b' hb' => h b' (mem_cons_of_mem b hb')
    rw [drain]
    split_ifs
    · have hout : AllOk Q [.store b, .onEvent b] := by
        intro o ho
        rcases mem_cons.mp ho with rfl | ho
        · exact hb
        · rw [mem_singleton.mp ho]
          exact hb
      exact allOk_append hout (ih _ hrest)
    · exact ih vv hrest

theorem handleEvent_ok {ctx : Ctx} {event : EventV2} (hbuffered : AllMarked Q ctx.bufferedEvents)
    (h : Q event.originId event.originSeq) :
    AllOk Q (handleEvent ctx event sender).2.2 ∧
      AllMarked Q (handleEvent ctx event sender).2.1.bufferedEvents := by
  by_cases hknown : event.originSeq ≤ vvGet ctx.vv event.originId
  · rw [handleEvent_known sender hknown]
    exact ⟨allOk_nil, hbuffered⟩
  · by_cases hearly : event.originSeq > vvGet ctx.vv event.originId + 1
    · rw [handleEvent_early sender hknown hearly]
      refine ⟨fun o ho => ?_, fun b hb => ?_⟩
      · rw [mem_singleton.mp ho]
        show event.originSeq - 1 < 0xFFFFFFFF
        grind
      · split_ifs at hb
        · rcases mem_append.mp hb with hb | hb
          · exact hbuffered b hb
          · rw [mem_singleton.mp hb]
            exact h
        · exact hbuffered b hb
    · obtain ⟨sent, heq⟩ := handleEvent_next sender hknown hearly
      rw [heq]
      refine ⟨allOk_append (allOk_append (fun o ho => ?_) (forward_ok _ sender h))
        (drain_ok _ hbuffered), fun b hb => hbuffered b ((drain_sublist _ _).subset hb)⟩
      rcases mem_cons.mp ho with rfl | ho
      · exact h
      · rw [mem_singleton.mp ho]
        exact h

theorem handleEvents_ok {ctx : Ctx} (hbuffered : AllMarked Q ctx.bufferedEvents)
    (h : AllMarked Q events) :
    AllOk Q (handleEvents ctx sender events).2 ∧
      AllMarked Q (handleEvents ctx sender events).1.bufferedEvents := by
  induction events generalizing ctx with
  | nil => exact ⟨allOk_nil, hbuffered⟩
  | cons event rest ih =>
    obtain ⟨h1, h2⟩ := handleEvent_ok sender hbuffered (h event mem_cons_self)
    obtain ⟨h3, h4⟩ := ih h2 fun e he => h e (mem_cons_of_mem event he)
    exact ⟨allOk_append h1 h3, h4⟩

theorem batches_subset {batch : List EventV2} (h : batch ∈ batches events) : batch ⊆ events := by
  induction events using batches.induct with
  | case1 => cases h
  | case2 event =>
    rw [mem_singleton.mp h]
    exact List.Subset.refl _
  | case3 event₁ event₂ rest ih =>
    rcases mem_cons.mp h with rfl | h
    · exact (List.Sublist.cons_cons _ (List.Sublist.cons_cons _ (nil_sublist rest))).subset
    · exact fun e he => mem_cons_of_mem _ (mem_cons_of_mem _ (ih h he))

/-! ## calls that hand over nothing -/

/-- what a call leaves alone that hands over nothing -/
structure Quiet (ctx ctx' : Ctx) (out : List Out) : Prop where
  myId : ctx'.myId = ctx.myId
  vv : ctx'.vv = ctx.vv
  localSequence : ctx'.localSequence = ctx.localSequence
  buffered : ctx'.bufferedEvents = ctx.bufferedEvents
  pending : ctx'.pendingEvents ⊆ ctx.pendingEvents
  delivered : delivered out = []

theorem Quiet.refl : Quiet ctx ctx [] :=
  ⟨rfl, rfl, rfl, rfl, List.Subset.refl _, rfl⟩

theorem Quiet.trans {ctx₁ ctx₂ ctx₃ : Ctx} {out' : List Out} (h : Quiet ctx₁ ctx₂ out)
    (h' : Quiet ctx₂ ctx₃ out') : Quiet ctx₁ ctx₃ (out ++ out') := by
  refine ⟨h'.myId.trans h.myId, h'.vv.trans h.vv, h'.localSequence.trans h.localSequence,
    h'.buffered.trans h.buffered, List.Subset.trans h'.pending h.pending, ?_⟩
  rw [delivered_append, h.delivered, h'.delivered]
  rfl

theorem SameButSent.quiet {ctx ctx' : Ctx} (h : SameButSent ctx ctx')
    (hout : Gossip.delivered out = []) : Quiet ctx ctx' out := by
  obtain ⟨sent, rfl⟩ := h
  exact ⟨rfl, rfl, rfl, rfl, List.Subset.refl _, hout⟩

theorem addNeighbor_quiet (id : ModuleId) : Quiet ctx (addNeighbor ctx id).2 [] := by
  unfold addNeighbor
  split_ifs <;> exact ⟨rfl, rfl, rfl, rfl, List.Subset.refl _, rfl⟩

theorem removeNeighbor_quiet (id : ModuleId) : Quiet ctx (removeNeighbor ctx id).2 [] := by
  unfold removeNeighbor
  split_ifs <;> exact ⟨rfl, rfl, rfl, rfl, List.Subset.refl _, rfl⟩

theorem syncNeighbors_quiet (now : TimeUs) : Quiet ctx (syncNeighbors ctx now) [] := by
  unfold syncNeighbors
  split_ifs <;> exact ⟨rfl, rfl, rfl, rfl, List.Subset.refl _, rfl⟩

theorem sendPending_quiet : Quiet ctx (sendPending ctx).1 (sendPending ctx).2 := by
  obtain ⟨hsame, hout⟩ := sendAll_spec ctx (ctx.neighborIds.flatMap fun neighborId =>
    (batches ctx.pendingEvents).map fun batch => (neighborId, batch))
  have h := hsame.quiet hout
  exact ⟨h.myId, h.vv, h.localSequence, h.buffered, nil_subset _, h.delivered⟩

theorem sendPending_ok {ctx : Ctx} (h : AllMarked Q ctx.pendingEvents) :
    AllOk Q (sendPending ctx).2 := by
  refine sendAll_ok ctx fun send hsend => ?_
  obtain ⟨id, _, hid⟩ := mem_flatMap.mp hsend
  obtain ⟨batch, hbatch, rfl⟩ := mem_map.mp hid
  exact fun e he => h e (batches_subset hbatch he)

theorem tick_quiet (now : TimeUs) : Quiet ctx (tick ctx now).1 (tick ctx now).2 := by
  unfold tick
  split_ifs
  · exact .refl ctx
  · have hstart : Quiet ctx { ctx with lastGossipTick := now } [] :=
      ⟨rfl, rfl, rfl, rfl, List.Subset.refl _, rfl⟩
    have hsend := sendPending_quiet { ctx with lastGossipTick := now }
    have h := (hstart.trans hsend).trans (syncNeighbors_quiet _ now)
    rw [append_nil] at h
    exact h

theorem tick_ok {ctx : Ctx} (now : TimeUs) (h : AllMarked Q ctx.pendingEvents) :
    AllOk Q (tick ctx now).2 := by
  unfold tick
  split_ifs
  · exact allOk_nil
  · exact sendPending_ok h

theorem answer_quiet {load : ModuleId → UInt32 → Option EventV2} {requester : ModuleId}
    {toSeq : UInt32} {fuel : Nat} {ctx : Ctx} {r : Ctx × List Out}
    (h : answer load requester toSeq fuel ctx seq = some r)
    (hload : ∀ m seq event, load m seq = some event → Q event.originId event.originSeq) :
    Quiet ctx r.1 r.2 ∧ AllOk Q r.2 := by
  induction fuel generalizing ctx seq r with
  | zero => cases h
  | succ fuel ih =>
    rw [answer] at h
    split_ifs at h with hseq
    · cases hl : load ctx.myId seq with
      | none =>
        rw [hl] at h
        exact ih h
      | some event =>
        rw [hl] at h
        obtain ⟨r', hr', rfl⟩ := Option.map_eq_some_iff.mp h
        obtain ⟨hsame, hout⟩ := sendGossipToNeighbor_spec ctx requester [event]
        obtain ⟨hquiet, hok⟩ := ih hr'
        have hsent : AllOk Q (sendGossipToNeighbor ctx requester [event]).2 :=
          sendGossipToNeighbor_ok ctx requester fun e he => by
            rw [mem_singleton.mp he]
            exact hload _ _ _ hl
        refine ⟨(hsame.quiet hout).trans ?_, allOk_append hsent hok⟩
        exact ⟨hquiet.myId, hquiet.vv, hquiet.localSequence, hquiet.buffered, hquiet.pending,
          hquiet.delivered⟩
    · obtain rfl := Option.some.inj h
      exact ⟨.refl ctx, allOk_nil⟩

theorem answer_returns (load : ModuleId → UInt32 → Option EventV2) (requester : ModuleId)
    {toSeq : UInt32} (hlast : toSeq < 0xFFFFFFFF) {fuel : Nat} (ctx : Ctx)
    (hfuel : toSeq.toNat + 1 ≤ fuel + seq.toNat) :
    ∃ r, answer load requester toSeq (fuel + 1) ctx seq = some r := by
  induction fuel generalizing ctx seq with
  | zero =>
    have hseq : ¬ seq ≤ toSeq := by
      rw [UInt32.le_iff_toNat_le]
      omega
    rw [answer, if_neg hseq]
    exact ⟨_, rfl⟩
  | succ fuel ih =>
    rw [answer]
    split_ifs with hseq
    · have hnext : toSeq.toNat + 1 ≤ fuel + (seq + 1).toNat := by
        rw [UInt32.le_iff_toNat_le] at hseq
        change toSeq.toNat < 2 ^ 32 - 1 at hlast
        show toSeq.toNat + 1 ≤ fuel + (seq.toNat + 1) % 2 ^ 32
        omega
      cases load ctx.myId seq with
      | none => exact ih ctx hnext
      | some event =>
        obtain ⟨r, hr⟩ := ih { (sendGossipToNeighbor ctx requester [event]).1 with
          stats := { (sendGossipToNeighbor ctx requester [event]).1.stats with
            gapsFilled := (sendGossipToNeighbor ctx requester [event]).1.stats.gapsFilled + 1 } }
          hnext
        dsimp only
        rw [hr]
        exact ⟨_, rfl⟩
    · exact ⟨_, rfl⟩

/-! ## merging a covered summary -/

/-- each byte of the summary, read at the receiver's own neighbor positions, is at most the
receiver's entry for that neighbor, or there is no room for an entry -/
def Covered (ctx : Ctx) (summary : VvSummary) : Prop :=
  ∀ i : Fin kNeighbors, ∀ id ∈ ctx.neighborIds[i.val]?,
    (summary.get i).toUInt32 ≤ vvGet ctx.vv id ∨ ¬ HasRoom ctx.vv id

instance (ctx : Ctx) (summary : VvSummary) : Decidable (Covered ctx summary) :=
  inferInstanceAs (Decidable (∀ i : Fin kNeighbors, ∀ id ∈ ctx.neighborIds[i.val]?, _))

theorem mem_vvPut {m : ModuleId} {entry : VvEntry} (h : entry ∈ vvPut vv m seq) :
    entry ∈ vv ∨ entry = ⟨m, seq⟩ := by
  rcases vvPut_cases vv m seq with ⟨vv', hw, heq⟩ | ⟨_, _, heq⟩ | ⟨_, heq⟩
  · rw [heq] at h
    clear heq
    induction vv generalizing vv' with
    | nil => cases hw
    | cons first rest ih =>
      rw [vvWrite] at hw
      split_ifs at hw with hid
      · obtain rfl := Option.some.inj hw
        rcases mem_cons.mp h with rfl | h
        · exact .inr (congrArg (VvEntry.mk · seq) hid)
        · exact .inl (mem_cons_of_mem first h)
      · obtain ⟨rest', hr, rfl⟩ := Option.map_eq_some_iff.mp hw
        rcases mem_cons.mp h with rfl | h
        · exact .inl mem_cons_self
        · rcases ih rest' h hr with h | h
          · exact .inl (mem_cons_of_mem first h)
          · exact .inr h
  · rw [heq] at h
    rcases mem_append.mp h with h | h
    · exact .inl h
    · exact .inr (mem_singleton.mp h)
  · rw [heq] at h
    exact .inl h

theorem mem_vvFromSummary {ids : List ModuleId} {entry : VvEntry}
    (h : entry ∈ vvFromSummary summary ids) :
    ∃ i : Fin kNeighbors, ids[i.val]? = some entry.moduleId ∧
      entry.sequence = (summary.get i).toUInt32 := by
  unfold vvFromSummary at h
  generalize List.finRange kNeighbors = positions at h
  induction positions using List.reverseRecOn with
  | nil => cases h
  | append_singleton positions i ih =>
    rw [foldl_concat] at h
    cases hid : ids[i.val]? with
    | none =>
      rw [hid] at h
      exact ih h
    | some id =>
      rw [hid] at h
      split_ifs at h
      · rcases mem_vvPut h with h | rfl
        · exact ih h
        · exact ⟨i, hid, rfl⟩
      · exact ih h

theorem vvMerge_eq {remote : VersionVector}
    (h : ∀ entry ∈ remote, entry.sequence ≤ vvGet vv entry.moduleId ∨ ¬ HasRoom vv entry.moduleId) :
    vvMerge vv remote = vv := by
  unfold vvMerge
  induction remote with
  | nil => rfl
  | cons entry rest ih =>
    have hfirst : (if entry.sequence > vvGet vv entry.moduleId then
        vvPut vv entry.moduleId entry.sequence else vv) = vv := by
      rcases h entry mem_cons_self with hle | hno
      · exact if_neg (UInt32.not_lt.mpr hle)
      · rw [vvPut_noRoom hno, ite_self]
    rw [foldl_cons, hfirst]
    exact ih fun entry' h' => h entry' (mem_cons_of_mem entry h')

theorem mergeSummary_eq {ctx : Ctx} (h : Covered ctx summary) : mergeSummary ctx summary = ctx := by
  unfold mergeSummary
  rw [vvMerge_eq fun entry hentry => ?_]
  obtain ⟨i, hid, hseq⟩ := mem_vvFromSummary hentry
  rw [hseq]
  exact h i entry.moduleId hid

end Gossip
end EkKor
