import EkKor.Lib.Reorder
import EkKor.Gossip.Delivery

/-!
# One origin, any order of arrival

The events of one origin, received by a fresh context in any order and with any repetitions.

* `view`                  the delivery part seen by that origin: its last number and the numbers that
                          wait in the buffer;
* `drain_view`, `receive_view`   the handler does on it what the reorder buffer of `Lib.Reorder` does;
* `all_delivered_iff`     the whole permutation is handed over, with a clean buffer after every
                          call, exactly when every event fits;
* `stranded`              4, 3, 2, 1: two events stay in the buffer.
-/

namespace EkKor
namespace Gossip
open Runs Reorder List

def EventV2.number (event : EventV2) : Nat := event.originSeq.toNat

/-- the delivery part as origin `o` sees it -/
def Delivery.view (d : Delivery) (o : ModuleId) : Buffer :=
  ⟨(vvGet d.vv o).toNat, d.buffered.map EventV2.number⟩

/-- only origin `o` has sent anything, and the version vector has room for it -/
structure Only (o : ModuleId) (d : Delivery) : Prop where
  room : HasRoom d.vv o
  origin : ∀ b ∈ d.buffered, b.originId = o
  waiting : ∀ b ∈ d.buffered, 1 < b.originSeq

/-! ## one step -/

variable {vv : VersionVector} {o : ModuleId} {d : Delivery} {event : EventV2}

theorem hasRoom_vvPut {m : ModuleId} (h : HasRoom vv m) (s : UInt32) :
    HasRoom (vvPut vv m s) m := by
  rcases vvPut_cases vv m s with ⟨vv', hw, heq⟩ | ⟨_, _, heq⟩ | ⟨hno, _⟩
  · obtain ⟨_, hids⟩ := vvWrite_some hw
    rw [heq]
    rcases h with ⟨entry, hmem, hid⟩ | hlen
    · have hmem' : m ∈ vv'.map VvEntry.moduleId := by
        rw [hids, ← hid]
        exact mem_map_of_mem hmem
      obtain ⟨entry', hmem'', hid'⟩ := mem_map.mp hmem'
      exact .inl ⟨entry', hmem'', hid'⟩
    · have hlen' := congrArg List.length hids
      rw [length_map, length_map] at hlen'
      exact .inr (by omega)
  · rw [heq]
    exact .inl ⟨⟨m, s⟩, mem_append_right _ (mem_singleton_self _), rfl⟩
  · exact absurd h hno

theorem next_iff {known seq : UInt32} (hpos : 0 < seq) :
    seq = known + 1 ↔ seq.toNat = known.toNat + 1 := by
  refine ⟨fun h => next_toNat h hpos, fun h => ?_⟩
  refine UInt32.toNat_inj.mp ?_
  have hlt := seq.toNat_lt
  show seq.toNat = (known.toNat + 1) % 2 ^ 32
  omega

theorem drain_view {buffered : List EventV2} (hroom : HasRoom vv o)
    (horigin : ∀ b ∈ buffered, b.originId = o) (hwait : ∀ b ∈ buffered, 1 < b.originSeq) :
    ((vvGet (drain vv buffered).1 o).toNat, (drain vv buffered).2.1.map EventV2.number) =
        scan (vvGet vv o).toNat (buffered.map EventV2.number) ∧
      HasRoom (drain vv buffered).1 o := by
  induction buffered generalizing vv with
  | nil => exact ⟨rfl, hroom⟩
  | cons b rest ih =>
    have hb := horigin b mem_cons_self
    have hpos : 0 < b.originSeq := by
      grind
    have horigin' := fun b' hb' => horigin b' (mem_cons_of_mem b hb')
    have hwait' := fun b' hb' => hwait b' (mem_cons_of_mem b hb')
    have hiff : b.originSeq = vvGet vv o + 1 ↔ b.number = (vvGet vv o).toNat + 1 := next_iff hpos
    rw [drain, map_cons, scan, hb]
    by_cases hnext : b.originSeq = vvGet vv o + 1
    · obtain ⟨h1, h2⟩ := ih (hasRoom_vvPut hroom b.originSeq) horigin' hwait'
      have hget : (vvGet (vvPut vv o b.originSeq) o).toNat = (vvGet vv o).toNat + 1 := by
        rw [vvGet_vvPut hroom, if_pos rfl]
        exact hiff.mp hnext
      rw [hget] at h1
      rw [if_pos hnext, if_pos (hiff.mp hnext)]
      exact ⟨h1, h2⟩
    · obtain ⟨h1, h2⟩ := ih hroom horigin' hwait'
      rw [if_neg hnext, if_neg (mt hiff.mpr hnext), ← h1]
      exact ⟨rfl, h2⟩

theorem early_iff {known seq : UInt32} (h : ¬ seq ≤ known) :
    seq > known + 1 ↔ seq.toNat > known.toNat + 1 := by
  have hlt : known.toNat < seq.toNat := by
    rw [UInt32.le_iff_toNat_le] at h
    omega
  have hmax := seq.toNat_lt
  show (known.toNat + 1) % 2 ^ 32 < seq.toNat ↔ _
  omega

theorem receive_origin (h : ∀ b ∈ d.buffered, b.originId = o) (ho : event.originId = o) :
    ∀ b ∈ (d.receive event).1.buffered, b.originId = o := by
  intro b hb
  unfold Delivery.receive at hb
  dsimp only at hb
  split_ifs at hb with hdup hgap hfull
  · exact h b hb
  · rcases mem_append.mp hb with hb | hb
    · exact h b hb
    · rw [mem_singleton.mp hb]
      exact ho
  · exact h b hb
  · exact h b ((drain_sublist _ _).subset hb)

theorem receive_view (h : Only o d) (ho : event.originId = o) :
    (d.receive event).1.view o = (d.view o).arrive maxBuffered event.number ∧
      HasRoom (d.receive event).1.vv o := by
  unfold Delivery.receive Buffer.arrive Delivery.view
  rw [ho]
  by_cases hdup : event.originSeq ≤ vvGet d.vv o
  · have hdup' : event.number ≤ (vvGet d.vv o).toNat := UInt32.le_iff_toNat_le.mp hdup
    rw [if_pos hdup, if_pos hdup']
    exact ⟨rfl, h.room⟩
  · have hdup' : ¬ event.number ≤ (vvGet d.vv o).toNat := fun hh =>
      hdup (UInt32.le_iff_toNat_le.mpr hh)
    have hearly : event.originSeq > vvGet d.vv o + 1 ↔ event.number > (vvGet d.vv o).toNat + 1 :=
      early_iff hdup
    rw [if_neg hdup, if_neg hdup']
    by_cases hgap : event.originSeq > vvGet d.vv o + 1
    · rw [if_pos hgap, if_pos (hearly.mp hgap), length_map]
      refine ⟨?_, h.room⟩
      split_ifs
      · rw [map_append]
        rfl
      · rfl
    · rw [if_neg hgap, if_neg (mt hearly.mpr hgap)]
      obtain ⟨h1, h2⟩ := drain_view (hasRoom_vvPut h.room event.originSeq) h.origin h.waiting
      rw [vvGet_vvPut h.room, if_pos rfl] at h1
      exact ⟨congrArg (fun p : Nat × List Nat => (⟨p.1, p.2⟩ : Buffer)) h1, h2⟩

theorem Only.receive (h : Only o d) (ho : event.originId = o) : Only o (d.receive event).1 :=
  ⟨(receive_view h ho).2, receive_origin h.origin ho, receive_waiting h.waiting event⟩

/-! ## runs -/

variable {start : Ctx}

theorem fresh_only (hfresh : Fresh start) : Only o start.delivery := by
  refine ⟨.inr ?_, ?_, ?_⟩
  · show start.vv.length < 8
    rw [hfresh.vv]
    exact Nat.one_lt_succ_succ 6
  · intro b hb
    rw [show start.delivery.buffered = [] from hfresh.buffered] at hb
    cases hb
  · intro b hb
    rw [show start.delivery.buffered = [] from hfresh.buffered] at hb
    cases hb

def numbers (es : List (EventV2 × ModuleId)) : List Nat := es.map fun x => x.1.number

theorem receiver_view (hfresh : Fresh start) (es : List (EventV2 × ModuleId))
    (ho : ∀ x ∈ es, x.1.originId = o) :
    ((receiver start).run es).delivery.view o = Buffer.run maxBuffered (numbers es) ∧
      Only o ((receiver start).run es).delivery := by
  induction es using List.reverseRecOn with
  | nil =>
    refine ⟨?_, fresh_only hfresh⟩
    show (⟨(vvGet start.vv o).toNat, start.bufferedEvents.map EventV2.number⟩ : Buffer) = ⟨0, []⟩
    rw [hfresh.buffered, hfresh.vv, vvGet]
    split_ifs <;> rfl
  | append_singleton es x ih =>
    obtain ⟨h1, h2⟩ := ih fun y hy => ho y (mem_append_left _ hy)
    have hx := ho x (mem_append_right _ (mem_singleton_self x))
    rw [(receiver_concat es x).1, numbers, map_append]
    show _ = Buffer.run maxBuffered (numbers es ++ [x.1.number]) ∧ _
    rw [Buffer.run_concat, ← h1]
    exact ⟨(receive_view h2 hx).1, h2.receive hx⟩

/-- all events 1, ..., n of origin `o` have been handed over -/
def AllDelivered (start : Ctx) (o : ModuleId) (n : Nat) (es : List (EventV2 × ModuleId)) : Prop :=
  ∀ s, 1 ≤ s → s ≤ n → s ∈ seqsOf o (delivered ((receiver start).trace es))

def CleanBuffer (ctx : Ctx) : Prop :=
  ∀ b ∈ ctx.bufferedEvents, vvGet ctx.vv b.originId < b.originSeq ∧
    b.originSeq ≠ vvGet ctx.vv b.originId + 1

/-- the event that arrives fits: it does not wait in the buffer already, or the buffer is full; and if
it is the next one, the waiting events that follow it are in the buffer in order and once -/
def EventFits (start : Ctx) (o : ModuleId) (pre : List (EventV2 × ModuleId))
    (x : EventV2 × ModuleId) : Prop :=
  Fits maxBuffered (((receiver start).run pre).delivery.view o) x.1.number

theorem cleanBuffer_iff {ctx : Ctx} (ho : ∀ b ∈ ctx.bufferedEvents, b.originId = o) :
    CleanBuffer ctx ↔ Clean (ctx.delivery.view o).last (ctx.delivery.view o).waiting := by
  have hiff : ∀ known seq : UInt32, known < seq ∧ seq ≠ known + 1 ↔
      known.toNat + 1 < seq.toNat := by
    intro known seq
    rw [UInt32.lt_iff_toNat_lt]
    constructor
    · rintro ⟨hlt, hne⟩
      have hpos : 0 < seq := UInt32.lt_iff_toNat_lt.mpr (Nat.zero_lt_of_lt hlt)
      have hne' := mt (next_iff hpos).mpr hne
      omega
    · intro hlt
      have hpos : 0 < seq := UInt32.lt_iff_toNat_lt.mpr (Nat.zero_lt_of_lt hlt)
      refine ⟨by omega, fun heq => ?_⟩
      have hne := (next_iff hpos).mp heq
      omega
  show (∀ b ∈ ctx.bufferedEvents, _) ↔ ∀ x ∈ ctx.bufferedEvents.map EventV2.number, _
  rw [forall_mem_map]
  refine forall₂_congr fun b hb => ?_
  rw [ho b hb]
  exact hiff _ _

/-- **Main.** The events 1, ..., n of one origin, in any order and with any repetitions such that at
most four different ones are outstanding at any time: a fresh context hands all of them over, with a
clean buffer after every call, exactly when every event fits. -/
theorem all_delivered_iff (hfresh : Fresh start) {n : Nat} (es : List (EventV2 × ModuleId))
    (ho : ∀ x ∈ es, x.1.originId = o) (hrange : ∀ x ∈ es, 1 ≤ x.1.number ∧ x.1.number ≤ n)
    (hall : ∀ s, 1 ≤ s → s ≤ n → s ∈ numbers es)
    (hout : ∀ pre, pre <+: es → (outstanding (numbers pre)).length ≤ 4) :
    AllDelivered start o n es ∧
        (∀ pre, pre <+: es → CleanBuffer ((receiver start).run pre)) ↔
      EveryStep (EventFits start o) es := by
  have hview : ∀ pre, pre <+: es →
      ((receiver start).run pre).delivery.view o = Buffer.run maxBuffered (numbers pre) ∧
        Only o ((receiver start).run pre).delivery := fun pre hp =>
    receiver_view hfresh pre fun x hx => ho x (hp.subset hx)
  -- the same run in terms of the reorder buffer
  have hfits : EveryStep (EventFits start o) es ↔
      EveryStep (fun pre s => Fits maxBuffered (Buffer.run maxBuffered pre) s) (numbers es) := by
    rw [numbers, everyStep_map]
    have hcongr : ∀ pre x, pre ++ [x] <+: es →
        (EventFits start o pre x ↔
          Fits maxBuffered (Buffer.run maxBuffered (numbers pre)) x.1.number) := by
      intro pre x hp
      rw [EventFits, (hview pre ((prefix_append pre [x]).trans hp)).1]
    exact ⟨fun h pre x hp => (hcongr pre x hp).mp (h pre x hp),
      fun h pre x hp => (hcongr pre x hp).mpr (h pre x hp)⟩
  have hclean : (∀ pre, pre <+: es → CleanBuffer ((receiver start).run pre)) ↔
      CleanRun maxBuffered (numbers es) := by
    have hcongr : ∀ pre, pre <+: es → (CleanBuffer ((receiver start).run pre) ↔
        Clean (Buffer.run maxBuffered (numbers pre)).last
          (Buffer.run maxBuffered (numbers pre)).waiting) := by
      intro pre hp
      obtain ⟨h1, h2⟩ := hview pre hp
      rw [← h1]
      exact cleanBuffer_iff h2.origin
    constructor
    · intro h pre' hp'
      obtain ⟨pre, hp, rfl⟩ := prefix_of_map hp'
      exact (hcongr pre hp).mp (h pre hp)
    · exact fun h pre hp => (hcongr pre hp).mpr (h _ (hp.map _))
  have hlast : AllDelivered start o n es ↔ n ≤ (Buffer.run maxBuffered (numbers es)).last := by
    have hroom : EveryStep (RoomForFirst start) es := fun pre x hp _ => by
      have honly := (hview pre ((prefix_append pre [x]).trans hp)).2
      rw [ho x (hp.subset (mem_append_right pre (mem_singleton_self x)))]
      exact honly.room
    have hseqs := exactlyOnce_run hfresh es hroom o
    have hlast : (vvGet ((receiver start).run es).vv o).toNat =
        (Buffer.run maxBuffered (numbers es)).last := by
      rw [← (hview es (prefix_refl es)).1]
      rfl
    unfold AllDelivered
    rw [hseqs]
    constructor
    · intro h
      rcases Nat.eq_zero_or_pos n with rfl | hpos
      · exact Nat.zero_le _
      · have hmem := mem_range'_1.mp (h n hpos (Nat.le_refl n))
        omega
    · exact fun h s hs hs' => mem_range'_1.mpr (by omega)
  rw [hfits, hclean, hlast]
  refine all_clean_iff (fun s hs => ?_) hall fun pre' hp' => ?_
  · obtain ⟨x, hx, rfl⟩ := mem_map.mp hs
    exact (hrange x hx).2
  · obtain ⟨pre, hp, rfl⟩ := prefix_of_map hp'
    exact hout pre hp

def fromTwo (seqs : List UInt32) : List (EventV2 × ModuleId) :=
  seqs.map fun seq => (eventOf 2 seq, 2)

/-- 3, 1, 4, 2 with a repetition -/
theorem all_delivered_iff_four : ∃ start, init 1 = .ok start ∧
    AllDelivered start 2 4 (fromTwo [3, 1, 4, 1, 2]) ∧
    ∀ pre, pre <+: fromTwo [3, 1, 4, 1, 2] → CleanBuffer ((receiver start).run pre) := by
  have hout : ∀ pre ∈ (fromTwo [3, 1, 4, 1, 2]).inits, (outstanding (numbers pre)).length ≤ 4 := by
    decide
  have hall : ∀ s < 5, 1 ≤ s → s ∈ numbers (fromTwo [3, 1, 4, 1, 2]) := by decide
  refine ⟨_, rfl, (all_delivered_iff (init_fresh (show init 1 = .ok _ from rfl))
    (fromTwo [3, 1, 4, 1, 2]) (by decide) (by decide) (fun s hs hs' => hall s (by omega) hs)
    fun pre hp => hout pre ((mem_inits pre _).mpr hp)).mpr ?_⟩
  refine (everyStep_cons _ _ _).mpr ⟨?_, (everyStep_cons _ _ _).mpr ⟨?_,
    (everyStep_cons _ _ _).mpr ⟨?_, (everyStep_cons _ _ _).mpr ⟨?_,
    (everyStep_cons _ _ _).mpr ⟨?_, everyStep_nil _⟩⟩⟩⟩⟩ <;> unfold EventFits <;> decide

/-- the order 4, 3, 2, 1 has at most three events outstanding, but the pass over the buffer meets 4
and 3 before 2, so it hands over 2 and leaves 4 and 3 behind -/
theorem stranded : ∃ start, init 1 = .ok start ∧
    (∀ pre, pre <+: fromTwo [4, 3, 2, 1] → (outstanding (numbers pre)).length ≤ 4) ∧
    seqsOf 2 (delivered ((receiver start).trace (fromTwo [4, 3, 2, 1]))) = [1, 2] ∧
    ¬ AllDelivered start 2 4 (fromTwo [4, 3, 2, 1]) ∧
    ¬ CleanBuffer ((receiver start).run (fromTwo [4, 3, 2, 1])) := by
  have hout : ∀ pre ∈ (fromTwo [4, 3, 2, 1]).inits, (outstanding (numbers pre)).length ≤ 4 := by
    decide
  refine ⟨_, rfl, fun pre hp => hout pre ((mem_inits pre _).mpr hp), by decide,
    fun h => ?_, fun h => ?_⟩
  · exact absurd (h 3 (by decide) (by decide)) (by decide)
  · have h3 := h (eventOf 2 3) (by decide)
    exact absurd h3 (by decide)

end Gossip
end EkKor
