import EkKor.Jezgro.Ticks

/-!
# Recovery after a crash

A start registers the service with the protection unit again, and the unit takes two
registrations in its life.

* `Recovers`       no service is left starting, and those that are due run after a tick;
* `HasRoom`        the condition: the unit has room for the starts of a call;
* `recovers_iff`   the services of a run recover exactly when all its calls meet the condition.
-/

namespace EkKor
namespace Jezgro
open Runs (Machine)
open List

/-! ## a loop that starts services -/

def Settled (s : Server) : Prop :=
  ∀ (i : Nat) (svc : ServiceInfo), s.services[i]? = some svc → svc.state ≠ .starting

def Server.registered (s : Server) : Nat := s.mpu.contexts.length

/-- the body starts the services that `w` selects -/
structure Starter (body : Server → Nat → ServiceInfo → Server × List Output)
    (w : ServiceInfo → Bool) : Prop extends Local body where
  keeps : ∀ s i svc, s.services[i]? = some svc → w svc = false →
    (body s i svc).1.registered = s.registered ∧
      ∃ svc', (body s i svc).1.services[i]? = some svc' ∧
        (svc'.state = .starting → svc.state = .starting)
  starts : ∀ s i svc, s.services[i]? = some svc → w svc = true →
    (body s i svc).1.registered = s.registered + (if accepts s.mpu svc.desc then 1 else 0) ∧
      ∃ svc', (body s i svc).1.services[i]? = some svc' ∧
        svc'.state = if accepts s.mpu svc.desc then .running else .starting

/-- the number of services that `w` selects among some slots -/
def selected (s : Server) (w : ServiceInfo → Bool) (slots : List Nat) : Nat :=
  slots.countP fun i => s.services[i]?.any w

/-- the unit has room for the services that `w` selects -/
def RoomFor (s : Server) (w : ServiceInfo → Bool) (slots : List Nat) : Prop :=
  (∀ i ∈ slots, ∀ svc : ServiceInfo, s.services[i]? = some svc → w svc = true →
    svc.desc.id ≠ 0) ∧ s.registered + selected s w slots ≤ 2

theorem accepts_iff (s : Server) (desc : ServiceDesc) :
    accepts s.mpu desc = true ↔ desc.id ≠ 0 ∧ s.registered < 2 := by
  unfold accepts Server.registered
  rw [Bool.and_eq_true, decide_eq_true_iff, decide_eq_true_iff]

theorem roomFor_nil (s : Server) (w : ServiceInfo → Bool) :
    RoomFor s w [] ↔ s.registered ≤ 2 :=
  ⟨fun h => h.2, fun h => ⟨fun _ hi => absurd hi not_mem_nil, h⟩⟩

variable {s' : Server} {w : ServiceInfo → Bool} {i : Nat} {svc : ServiceInfo} {serviceId : UInt8}
  {missing : List Output} {f : Nat → ServiceInfo → Server × List Output}

theorem selected_cons {s : Server} {rest : List Nat} (hslot : s.services[i]? = some svc)
    (hrest : ∀ j ∈ rest, s'.services[j]? = s.services[j]?) :
    selected s w (i :: rest) = selected s' w rest + if w svc then 1 else 0 := by
  unfold selected
  rw [countP_cons, hslot]
  refine congrArg (· + _) (countP_congr fun j hj => ?_)
  rw [hrest j hj]

theorem roomFor_cons {s : Server} {rest : List Nat} (hslot : s.services[i]? = some svc)
    (hrest : ∀ j ∈ rest, s'.services[j]? = s.services[j]?)
    (hregistered : s'.registered = s.registered + if w svc then 1 else 0) :
    RoomFor s w (i :: rest) ↔ (w svc = true → svc.desc.id ≠ 0) ∧ RoomFor s' w rest := by
  unfold RoomFor
  rw [selected_cons hslot hrest, hregistered]
  constructor
  · rintro ⟨hids, hle⟩
    refine ⟨hids i mem_cons_self svc hslot, fun j hj svc' hsvc' => ?_, by omega⟩
    rw [hrest j hj] at hsvc'
    exact hids j (mem_cons_of_mem i hj) svc' hsvc'
  · rintro ⟨hid, hids, hle⟩
    refine ⟨fun j hj svc' hsvc' => ?_, by omega⟩
    rcases mem_cons.mp hj with rfl | hj
    · obtain rfl := Option.some.inj (hslot.symm.trans hsvc')
      exact hid
    · rw [← hrest j hj] at hsvc'
      exact hids j hj svc' hsvc'

/-- **The loop.** It leaves no service starting exactly when the unit has room, and then the
starts are registered. -/
theorem eachSlot_settled {body : Server → Nat → ServiceInfo → Server × List Output}
    (hbody : Starter body w) {slots : List Nat} (hnodup : slots.Nodup) {s : Server}
    (hslots : ∀ i ∈ slots, ∃ svc : ServiceInfo, s.services[i]? = some svc ∧ svc.state ≠ .starting)
    (hle : s.registered ≤ 2) :
    ((∀ i ∈ slots, ∀ svc : ServiceInfo, (eachSlot body s slots).1.services[i]? = some svc →
      svc.state ≠ .starting) ↔ RoomFor s w slots) ∧
    (RoomFor s w slots →
      (eachSlot body s slots).1.registered = s.registered + selected s w slots) := by
  induction slots generalizing s with
  | nil =>
    rw [roomFor_nil]
    exact ⟨iff_of_true (fun _ hi => absurd hi not_mem_nil) hle, fun _ => rfl⟩
  | cons i rest ih =>
    obtain ⟨hi, hnodup⟩ := nodup_cons.mp hnodup
    obtain ⟨svc, hslot, hsettled⟩ := hslots i mem_cons_self
    have hframe : ∀ j ∈ rest, (body s i svc).1.services[j]? = s.services[j]? := fun j hj =>
      hbody.frame s i svc j fun he => hi (he ▸ hj)
    have hslots' : ∀ j ∈ rest, ∃ svc' : ServiceInfo,
        (body s i svc).1.services[j]? = some svc' ∧ svc'.state ≠ .starting := fun j hj => by
      rw [hframe j hj]
      exact hslots j (mem_cons_of_mem i hj)
    have hlast := (eachSlot_frame hbody.toLocal (body s i svc).1 hi).1
    have heq : (eachSlot body s (i :: rest)).1 = (eachSlot body (body s i svc).1 rest).1 := by
      rw [eachSlot, hslot]
    have hselected := selected_cons (w := w) hslot hframe
    rw [heq]
    -- the slot is settled in the end when it is settled after its own turn
    have hsplit : (∀ j ∈ i :: rest, ∀ svc' : ServiceInfo,
        (eachSlot body (body s i svc).1 rest).1.services[j]? = some svc' →
          svc'.state ≠ .starting) ↔
        (∀ svc' : ServiceInfo, (body s i svc).1.services[i]? = some svc' →
          svc'.state ≠ .starting) ∧
        ∀ j ∈ rest, ∀ svc' : ServiceInfo,
          (eachSlot body (body s i svc).1 rest).1.services[j]? = some svc' →
            svc'.state ≠ .starting := by
      rw [forall_mem_cons, hlast]
    rw [hsplit]
    by_cases hw : w svc = true
    · obtain ⟨hregistered, svc', hslot', hstate⟩ := hbody.starts s i svc hslot hw
      by_cases hacc : accepts s.mpu svc.desc = true
      · have hacc' := (accepts_iff s svc.desc).mp hacc
        rw [if_pos hacc] at hregistered hstate
        obtain ⟨hiff, hcount⟩ := ih hnodup hslots' (by omega)
        have hroom := roomFor_cons hslot hframe (by rw [hregistered, if_pos hw])
        rw [hroom, hiff, hselected, if_pos hw]
        refine ⟨and_congr (iff_of_true ?_ fun _ => hacc'.1) Iff.rfl, fun h => ?_⟩
        · intro svc'' hslot''
          obtain rfl := Option.some.inj (hslot'.symm.trans hslot'')
          rw [hstate]
          exact nofun
        · rw [hcount h.2, hregistered]
          omega
      · have hnot := fun h => hacc ((accepts_iff s svc.desc).mpr h)
        rw [if_neg hacc] at hstate
        have hnone : ¬ RoomFor s w (i :: rest) := by
          rintro ⟨hids, hfits⟩
          rw [hselected, if_pos hw] at hfits
          exact hnot ⟨hids i mem_cons_self svc hslot hw, by omega⟩
        exact ⟨iff_of_false (fun h => h.1 svc' hslot' hstate) hnone, fun h => absurd h hnone⟩
    · have hw' := Bool.not_eq_true _ ▸ hw
      obtain ⟨hregistered, svc', hslot', hstate⟩ := hbody.keeps s i svc hslot hw'
      obtain ⟨hiff, hcount⟩ := ih hnodup hslots' (by omega)
      have hroom := roomFor_cons hslot hframe (by rw [hregistered, if_neg hw, Nat.add_zero])
      rw [hroom, hiff, hselected, if_neg hw]
      refine ⟨and_congr (iff_of_true ?_ fun h => absurd h hw) Iff.rfl, fun h => ?_⟩
      · intro svc'' hslot'' hstarting
        obtain rfl := Option.some.inj (hslot'.symm.trans hslot'')
        exact hsettled (hstate hstarting)
      · rw [hcount h.2, hregistered]
        omega

/-! ## the loops of a tick -/

variable {s : Server} {nowMs : UInt32} {took : Nat → UInt32}

theorem starter_checkHeartbeat (nowMs : UInt32) (took : Nat → UInt32) :
    Starter (checkHeartbeat nowMs took) (·.restartsAt nowMs) := by
  refine ⟨local_checkHeartbeat nowMs took, fun s i svc hslot hno => ?_,
    fun s i svc hslot hyes => ?_⟩
  · obtain ⟨hmpu, -, svc', hslot', -, hstate, -⟩ := checkHeartbeat_keeps took hslot hno
    exact ⟨congrArg (fun m : Mpu => m.contexts.length) hmpu, svc', hslot', hstate⟩
  · obtain ⟨-, svc', hslot', -, hstate, hcontexts⟩ := checkHeartbeat_restarts took hslot hyes
    exact ⟨hcontexts, svc', hslot', hstate⟩

theorem starter_checkPendingRestart (nowMs : UInt32) (took : Nat → UInt32) :
    Starter (checkPendingRestart nowMs took) (·.isDue nowMs) := by
  refine ⟨local_checkPendingRestart nowMs took, fun s i svc hslot hno => ?_,
    fun s i svc hslot hyes => ?_⟩
  · unfold checkPendingRestart
    rw [hno]
    exact ⟨rfl, svc, hslot, id⟩
  · have hlt := (List.getElem?_eq_some_iff.mp hslot).1
    unfold checkPendingRestart
    rw [hyes]
    refine ⟨doStartService_contexts .., svc.afterStart nowMs (took i) s.mpu, ?_,
      svc.afterStart_state ..⟩
    rw [if_pos rfl, doStartService_services]
    exact getElem?_set_self hlt

theorem settled_iff_slots (s : Server) : Settled s ↔ ∀ i ∈ s.slots, ∀ svc : ServiceInfo,
    s.services[i]? = some svc → svc.state ≠ .starting :=
  ⟨fun h i _ svc hslot => h i svc hslot, fun h i svc hslot => h i (mem_slots hslot) svc hslot⟩

theorem Settled.slots (h : Settled s) : ∀ i ∈ s.slots, ∃ svc : ServiceInfo,
    s.services[i]? = some svc ∧ svc.state ≠ .starting := fun i hi => by
  have hlt := mem_range.mp hi
  exact ⟨_, getElem?_eq_getElem hlt, h i _ (getElem?_eq_getElem hlt)⟩

theorem checkHeartbeat_length (nowMs : UInt32) (took : Nat → UInt32) (s : Server) (i : Nat)
    (svc : ServiceInfo) :
    (checkHeartbeat nowMs took s i svc).1.services.length = s.services.length := by
  unfold checkHeartbeat
  split_ifs
  · rfl
  · dsimp only
    split_ifs
    · exact handleCrash_length ..
    · exact length_set
  · rfl

theorem checkHeartbeats_slots (s : Server) (nowMs : UInt32) (took : Nat → UInt32) :
    (checkHeartbeats s nowMs took).1.slots = s.slots := by
  unfold checkHeartbeats
  split_ifs
  · refine congrArg List.range ?_
    exact eachSlot_invariant (I := fun s' => s'.services.length = s.services.length)
      (fun s' i svc _ h => (checkHeartbeat_length nowMs took s' i svc).trans h) rfl s.slots
  · rfl

def beatStarts (s : Server) (nowMs : UInt32) (svc : ServiceInfo) : Bool :=
  s.checksHeartbeats nowMs && svc.restartsAt nowMs

theorem selected_false (s : Server) (h : ∀ svc, w svc = false) (slots : List Nat) :
    selected s w slots = 0 := by
  refine countP_eq_zero.mpr fun i _ => ?_
  cases s.services[i]? with
  | none => exact Bool.false_ne_true
  | some svc =>
    rw [Option.any_some, h svc]
    exact Bool.false_ne_true

theorem checkHeartbeats_settled (nowMs : UInt32) (took : Nat → UInt32) (hs : Settled s)
    (hle : s.registered ≤ 2) :
    (Settled (checkHeartbeats s nowMs took).1 ↔ RoomFor s (beatStarts s nowMs) s.slots) ∧
    (RoomFor s (beatStarts s nowMs) s.slots → (checkHeartbeats s nowMs took).1.registered =
      s.registered + selected s (beatStarts s nowMs) s.slots) := by
  have hslots := checkHeartbeats_slots s nowMs took
  rw [settled_iff_slots, hslots]
  unfold checkHeartbeats
  cases hchecks : s.checksHeartbeats nowMs with
  | false =>
    have hnone : ∀ svc, beatStarts s nowMs svc = false := fun svc => by
      unfold beatStarts
      rw [hchecks]
      rfl
    have hzero := selected_false s hnone s.slots
    refine ⟨iff_of_true ((settled_iff_slots s).mp hs) ⟨fun i _ svc _ hw => ?_, ?_⟩, fun _ => ?_⟩
    · exact absurd (hw.symm.trans (hnone svc)) nofun
    · omega
    · exact congrArg (s.registered + ·) hzero.symm
  | true =>
    have hsame : beatStarts s nowMs = (·.restartsAt nowMs) := funext fun svc => by
      unfold beatStarts
      rw [hchecks]
      rfl
    rw [hsame, if_pos rfl]
    exact eachSlot_settled (starter_checkHeartbeat nowMs took) (nodup_slots s) hs.slots hle

theorem countP_or {α : Type*} {p q r : α → Bool} (h : ∀ a, r a = (p a || q a))
    (hnot : ∀ a, (p a && q a) = false) (l : List α) : l.countP r = l.countP p + l.countP q := by
  induction l with
  | nil => rfl
  | cons a l ih =>
    have hr := h a
    have ha := hnot a
    rw [countP_cons, countP_cons, countP_cons, ih, hr]
    revert ha
    cases p a <;> cases q a <;> simp <;> omega

theorem crashesAt_and_isDue (svc : ServiceInfo) (nowMs : UInt32) :
    (svc.crashesAt nowMs && svc.isDue nowMs) = false := by
  unfold ServiceInfo.crashesAt ServiceInfo.isDue
  cases svc.state <;> simp

theorem startsAt_split (nowMs : UInt32) (took : Nat → UInt32) (hslot : s.services[i]? = some svc) :
    ∃ svc', (checkHeartbeats s nowMs took).1.services[i]? = some svc' ∧ svc'.desc = svc.desc ∧
      startsAt s nowMs svc = (beatStarts s nowMs svc || svc'.isDue nowMs) ∧
      (beatStarts s nowMs svc && svc'.isDue nowMs) = false := by
  obtain ⟨svc', hslot', hdesc, -, hdue⟩ := checkHeartbeats_at nowMs took hslot
  refine ⟨svc', hslot', hdesc, ?_⟩
  have hnot := crashesAt_and_isDue svc nowMs
  rw [hdue]
  unfold startsAt beatStarts ServiceInfo.restartsAt
  revert hnot
  cases svc.isDue nowMs <;> cases s.checksHeartbeats nowMs <;> cases svc.crashesAt nowMs <;>
    cases svc.autoRestart <;> cases svc.wraps <;> simp

theorem getElem?_any_checkHeartbeats (i : Nat) :
    (s.services[i]?.any (startsAt s nowMs)) = (s.services[i]?.any (beatStarts s nowMs) ||
      (checkHeartbeats s nowMs took).1.services[i]?.any (·.isDue nowMs)) ∧
    (s.services[i]?.any (beatStarts s nowMs) &&
      (checkHeartbeats s nowMs took).1.services[i]?.any (·.isDue nowMs)) = false := by
  cases hslot : s.services[i]? with
  | none =>
    have hnone : (checkHeartbeats s nowMs took).1.services[i]? = none := by
      have hlen := congrArg List.length (checkHeartbeats_slots s nowMs took)
      unfold Server.slots at hlen
      rw [length_range, length_range] at hlen
      rw [List.getElem?_eq_none_iff, hlen]
      exact List.getElem?_eq_none_iff.mp hslot
    rw [hnone]
    exact ⟨rfl, rfl⟩
  | some svc =>
    obtain ⟨svc', hslot', -, heq, hnot⟩ := startsAt_split nowMs took hslot
    rw [hslot']
    exact ⟨heq, hnot⟩

theorem roomFor_tick (hcount : RoomFor s (beatStarts s nowMs) s.slots →
    (checkHeartbeats s nowMs took).1.registered =
      s.registered + selected s (beatStarts s nowMs) s.slots) :
    RoomFor s (startsAt s nowMs) s.slots ↔ RoomFor s (beatStarts s nowMs) s.slots ∧
      RoomFor (checkHeartbeats s nowMs took).1 (·.isDue nowMs) s.slots := by
  have hselected : selected s (startsAt s nowMs) s.slots =
      selected s (beatStarts s nowMs) s.slots +
        selected (checkHeartbeats s nowMs took).1 (·.isDue nowMs) s.slots :=
    countP_or (fun i => (getElem?_any_checkHeartbeats i).1)
      (fun i => (getElem?_any_checkHeartbeats i).2) s.slots
  have hids : (∀ i ∈ s.slots, ∀ svc : ServiceInfo, s.services[i]? = some svc →
      startsAt s nowMs svc = true → svc.desc.id ≠ 0) ↔
      (∀ i ∈ s.slots, ∀ svc : ServiceInfo, s.services[i]? = some svc →
        beatStarts s nowMs svc = true → svc.desc.id ≠ 0) ∧
      ∀ i ∈ s.slots, ∀ svc : ServiceInfo,
        (checkHeartbeats s nowMs took).1.services[i]? = some svc →
          svc.isDue nowMs = true → svc.desc.id ≠ 0 := by
    constructor
    · intro h
      refine ⟨fun i hi svc hslot hbeat => h i hi svc hslot ?_, fun i hi svc' hslot' hdue => ?_⟩
      · obtain ⟨_, -, -, heq, -⟩ := startsAt_split nowMs took hslot
        rw [heq, hbeat]
        rfl
      · have hslot := getElem?_eq_getElem (mem_range.mp hi)
        obtain ⟨svc'', hslot'', hdesc, heq, -⟩ :=
          startsAt_split nowMs took hslot
        obtain rfl := Option.some.inj (hslot'.symm.trans hslot'')
        rw [hdesc]
        exact h i hi _ hslot (by rw [heq, hdue, Bool.or_true])
    · rintro ⟨hbeats, hdues⟩ i hi svc hslot hstarts
      obtain ⟨svc', hslot', hdesc, heq, -⟩ := startsAt_split nowMs took hslot
      rw [heq, Bool.or_eq_true] at hstarts
      rcases hstarts with hbeat | hdue
      · exact hbeats i hi svc hslot hbeat
      · rw [← hdesc]
        exact hdues i hi svc' hslot' hdue
  unfold RoomFor at hcount ⊢
  rw [hids, hselected]
  constructor
  · rintro ⟨⟨hbeats, hdues⟩, hle⟩
    have hfirst := hcount ⟨hbeats, by omega⟩
    exact ⟨⟨hbeats, by omega⟩, hdues, by omega⟩
  · rintro ⟨hfirst, hdues, hle⟩
    have heq := hcount hfirst
    exact ⟨⟨hfirst.1, hdues⟩, by omega⟩

theorem tick_running (hrun : s.isRunning = true) : (tick s nowMs took).1 =
    (eachSlot (checkPendingRestart nowMs took) (checkHeartbeats s nowMs took).1
      (checkHeartbeats s nowMs took).1.slots).1 := by
  unfold tick
  rw [hrun]
  rfl

theorem checkPendingRestart_length (nowMs : UInt32) (took : Nat → UInt32) (s : Server) (i : Nat)
    (svc : ServiceInfo) :
    (checkPendingRestart nowMs took s i svc).1.services.length = s.services.length := by
  unfold checkPendingRestart
  split_ifs
  · exact doStartService_length ..
  · rfl

theorem tick_slots (hrun : s.isRunning = true) : (tick s nowMs took).1.slots = s.slots := by
  rw [tick_running hrun, ← checkHeartbeats_slots s nowMs took]
  refine congrArg List.range ?_
  exact eachSlot_invariant
    (I := fun s' => s'.services.length = (checkHeartbeats s nowMs took).1.services.length)
    (fun s' i svc _ h => (checkPendingRestart_length nowMs took s' i svc).trans h) rfl _

/-- **A tick.** It leaves no service starting exactly when the unit has room for its starts. -/
theorem tick_settled_iff (took : Nat → UInt32) (hrun : s.isRunning = true) (hs : Settled s)
    (hle : s.registered ≤ 2) :
    Settled (tick s nowMs took).1 ↔ RoomFor s (startsAt s nowMs) s.slots := by
  obtain ⟨hiff, hcount⟩ := checkHeartbeats_settled nowMs took hs hle
  rw [roomFor_tick hcount]
  by_cases hfirst : Settled (checkHeartbeats s nowMs took).1
  · have hroom := hiff.mp hfirst
    have hle' : (checkHeartbeats s nowMs took).1.registered ≤ 2 := by
      rw [hcount hroom]
      exact hroom.2
    have hloop := (eachSlot_settled (starter_checkPendingRestart nowMs took)
      (nodup_slots _) hfirst.slots hle').1
    rw [and_iff_right hroom, settled_iff_slots, tick_slots hrun, tick_running hrun]
    rw [checkHeartbeats_slots] at hloop ⊢
    exact hloop
  · -- a service that is left starting by the first half stays so
    refine iff_of_false (fun hlast => hfirst fun i svc' hslot' hstate => ?_)
      fun h => hfirst (hiff.mpr h.1)
    obtain ⟨s', hs', hafter, -⟩ := eachSlot_at (local_checkPendingRestart nowMs took)
      (checkHeartbeats s nowMs took).1 (nodup_slots _) (mem_slots hslot') hslot'
    refine hlast i svc' ?_ hstate
    rw [tick_running hrun, hafter]
    unfold checkPendingRestart
    rw [isDue_of_ne (by rw [hstate]; exact nofun)]
    exact hs'

theorem tick_due (took : Nat → UInt32) (hrun : s.isRunning = true)
    (hslot : s.services[i]? = some svc) (hdue : svc.isDue nowMs = true) :
    ∃ svc', (tick s nowMs took).1.services[i]? = some svc' ∧
      (svc'.state = .running ∨ svc'.state = .starting) := by
  obtain ⟨svc₁, hslot₁, -, -, hdue₁⟩ := checkHeartbeats_at nowMs took hslot
  rw [hdue, Bool.true_or] at hdue₁
  obtain ⟨s', hs', hafter, -⟩ := eachSlot_at (local_checkPendingRestart nowMs took)
    (checkHeartbeats s nowMs took).1 (nodup_slots _) (mem_slots hslot₁) hslot₁
  obtain ⟨-, svc', hslot', hstate⟩ :=
    (starter_checkPendingRestart nowMs took).starts s' i svc₁ hs' hdue₁
  refine ⟨svc', ?_, ?_⟩
  · rw [tick_running hrun, hafter]
    exact hslot'
  · rw [hstate]
    split_ifs
    · exact .inl rfl
    · exact .inr rfl

/-! ## the unit is never asked for more than it registers -/

theorem doStartService_registered (hle : s.registered ≤ 2) (nowMs took : UInt32) :
    (doStartService s i svc nowMs took).2.1.registered ≤ 2 := by
  have hcontexts := doStartService_contexts s i svc nowMs took
  have hacc := accepts_iff s svc.desc
  unfold Server.registered at hle hacc ⊢
  rw [hcontexts]
  split_ifs with h
  · have := (hacc.mp h).2
    omega
  · exact hle

theorem handleCrash_registered (hle : s.registered ≤ 2) (reason : CrashReason) (nowMs took : UInt32) :
    (handleCrash s i svc reason nowMs took).1.registered ≤ 2 := by
  rcases handleCrash_cases s i svc reason nowMs took with ⟨-, -, hs, -⟩ | ⟨-, hs, -⟩ |
    ⟨-, -, -, hs, -⟩
  · rw [hs]
    exact hle
  · rw [hs]
    exact hle
  · rw [hs]
    refine doStartService_registered ?_ nowMs took
    exact hle

theorem checkHeartbeat_registered (hle : s.registered ≤ 2) :
    (checkHeartbeat nowMs took s i svc).1.registered ≤ 2 := by
  unfold checkHeartbeat
  split_ifs
  · exact hle
  · dsimp only
    split_ifs
    · exact handleCrash_registered hle _ _ _
    · exact hle
  · exact hle

theorem tick_registered (hle : s.registered ≤ 2) : (tick s nowMs took).1.registered ≤ 2 := by
  have hbeats : (checkHeartbeats s nowMs took).1.registered ≤ 2 := by
    unfold checkHeartbeats
    split_ifs
    · exact eachSlot_invariant (I := fun s => s.registered ≤ 2)
        (fun _ _ _ _ h => checkHeartbeat_registered h) hle _
    · exact hle
  cases hrun : s.isRunning with
  | false =>
    rw [tick_stopped hrun]
    exact hle
  | true =>
    rw [tick_running hrun]
    refine eachSlot_invariant (I := fun s => s.registered ≤ 2) (fun s' i svc _ h => ?_) hbeats _
    unfold checkPendingRestart
    split_ifs
    · exact doStartService_registered h _ _
    · exact h

theorem withService_registered (hle : s.registered ≤ 2) (hf : ∀ i svc, (f i svc).1.registered ≤ 2) :
    (withService s serviceId missing f).1.registered ≤ 2 := by
  rcases withService_cases s serviceId missing f with ⟨-, heq⟩ | ⟨i, svc, -, heq⟩
  · rw [heq]
    exact hle
  · rw [heq]
    exact hf i svc

theorem call_registered (hle : s.registered ≤ 2) (c : Call) : (call s c).1.registered ≤ 2 := by
  cases c with
  | start nowMs => exact hle
  | stop nowMs =>
    refine eachSlot_invariant (I := fun s => s.registered ≤ 2) (fun s' i svc _ h => ?_)
      (show ({ s with isRunning := false } : Server).registered ≤ 2 from hle) s.slots
    unfold stopIfRunning
    split_ifs <;> exact h
  | registerService desc critical autoRestart =>
    show (rsRegisterService s desc critical autoRestart).2.registered ≤ 2
    unfold rsRegisterService
    split_ifs <;> exact hle
  | startService serviceId nowMs took =>
    refine withService_registered hle fun i svc => ?_
    unfold startService
    split_ifs
    · exact hle
    · exact hle
    · exact doStartService_registered hle _ _
  | stopService serviceId graceful nowMs => exact withService_registered hle fun i svc => hle
  | restartService serviceId stopMs crashMs nowMs took =>
    refine withService_registered hle fun i svc => ?_
    unfold restartService
    split_ifs
    · refine doStartService_registered ?_ _ _
      exact hle
    · exact doStartService_registered hle _ _
  | tick nowMs took => exact tick_registered hle
  | heartbeat serviceId nowMs => exact withService_registered hle fun i svc => hle
  | reportCrash serviceId reason nowMs took =>
    exact withService_registered hle fun i svc => handleCrash_registered hle _ _ _
  | setCrashCallback installed => exact hle
  | resetStats => exact hle

theorem run_registered (calls : List Call) : (server.run calls).registered ≤ 2 :=
  server.invariant (I := fun s => s.registered ≤ 2) (by decide +kernel)
    (fun _ c h => call_registered h c) calls

/-! ## every call -/

/-- no service is left starting, and a service that crashed and is due runs after a tick -/
structure Recovers (s : Server) (c : Call) : Prop where
  settled : Settled (call s c).1
  due : ∀ nowMs took, c = .tick nowMs took → ∀ (i : Nat) (svc : ServiceInfo),
    s.services[i]? = some svc → svc.autoRestart = true →
      svc.consecutiveCrashes < maxRestartAttempts → svc.isDue nowMs = true →
        ∃ svc', (call s c).1.services[i]? = some svc' ∧ svc'.state = .running

/-- the condition: the unit has room for every start of the call, and the server runs at the ticks
that find a service due -/
def HasRoom (s : Server) : Call → Prop
  | .startService serviceId _ _ => ∀ i svc, Found s serviceId i svc →
      svc.state ≠ .running → svc.state ≠ .dead → accepts s.mpu svc.desc = true
  | .restartService serviceId _ _ _ _ => ∀ i svc, Found s serviceId i svc →
      accepts s.mpu svc.desc = true
  | .reportCrash serviceId _ _ _ => ∀ i svc, Found s serviceId i svc →
      svc.autoRestart = true → svc.wraps = true → accepts s.mpu svc.desc = true
  | .tick nowMs _ =>
      (s.isRunning = true → RoomFor s (startsAt s nowMs) s.slots) ∧
      (s.isRunning = false → ∀ (i : Nat) (svc : ServiceInfo), s.services[i]? = some svc →
        svc.autoRestart = true → svc.consecutiveCrashes < maxRestartAttempts →
          svc.isDue nowMs = false)
  | _ => True

def Call.isTick : Call → Bool
  | .tick _ _ => true
  | _ => false

theorem recovers_iff_settled {c : Call} (h : c.isTick = false) :
    Recovers s c ↔ Settled (call s c).1 := by
  refine ⟨Recovers.settled, fun hs => ⟨hs, fun nowMs took he => ?_⟩⟩
  rw [he] at h
  exact nomatch h

theorem Settled.set_iff (hs : Settled s) {svc' : ServiceInfo} (hslot : s.services[i]? = some svc)
    (hset : s'.services = s.services.set i svc') : Settled s' ↔ svc'.state ≠ .starting := by
  have hlt := (List.getElem?_eq_some_iff.mp hslot).1
  constructor
  · intro h
    refine h i svc' ?_
    rw [hset]
    exact getElem?_set_self hlt
  · intro hstate j svc'' hslot'
    rw [hset] at hslot'
    by_cases hj : j = i
    · subst hj
      rw [getElem?_set_self hlt, Option.some.injEq] at hslot'
      rw [← hslot']
      exact hstate
    · rw [getElem?_set_ne (Ne.symm hj)] at hslot'
      exact hs j svc'' hslot'

theorem settled_withService (hs : Settled s) {P : ServiceInfo → Prop}
    (hf : ∀ i svc, s.services[i]? = some svc → (Settled (f i svc).1 ↔ P svc)) :
    Settled (withService s serviceId missing f).1 ↔ ∀ i svc, Found s serviceId i svc → P svc := by
  rcases withService_cases s serviceId missing f with ⟨hnone, heq⟩ | ⟨i, svc, hfound, heq⟩
  · rw [heq]
    exact iff_of_true hs fun i svc hfound => absurd hfound (hnone i svc)
  · rw [heq, hf i svc hfound.2]
    constructor
    · intro hp j svc' hfound'
      rw [← (hfound.unique hfound').2]
      exact hp
    · intro hall
      exact hall i svc hfound

theorem afterStart_ne_starting (svc : ServiceInfo) (nowMs took : UInt32) (m : Mpu) :
    (svc.afterStart nowMs took m).state ≠ .starting ↔ accepts m svc.desc = true := by
  rw [svc.afterStart_state]
  cases accepts m svc.desc with
  | true => exact iff_of_true nofun rfl
  | false => exact iff_of_false (fun h => h rfl) Bool.false_ne_true

theorem settled_startService_iff (hs : Settled s) (hslot : s.services[i]? = some svc)
    (nowMs took : UInt32) :
    Settled (startService s i svc nowMs took).2.1 ↔
      (svc.state ≠ .running → svc.state ≠ .dead → accepts s.mpu svc.desc = true) := by
  unfold startService
  split_ifs with hrunning hdead
  · exact iff_of_true hs fun h => absurd hrunning h
  · exact iff_of_true hs fun _ h => absurd hdead h
  · rw [hs.set_iff hslot (doStartService_services ..), afterStart_ne_starting]
    exact ⟨fun h _ _ => h, fun h => h hrunning hdead⟩

theorem settled_restartService_iff (hs : Settled s) (hslot : s.services[i]? = some svc)
    (stopMs crashMs nowMs took : UInt32) :
    Settled (restartService s i svc stopMs crashMs nowMs took).2.1 ↔
      accepts s.mpu svc.desc = true := by
  unfold restartService
  split_ifs
  · rw [hs.set_iff hslot ((doStartService_services ..).trans (set_set ..)),
      afterStart_ne_starting]
    rfl
  · rw [hs.set_iff hslot (doStartService_services ..), afterStart_ne_starting]
    rfl

theorem settled_handleCrash_iff (hs : Settled s) (hslot : s.services[i]? = some svc)
    (reason : CrashReason) (nowMs took : UInt32) :
    Settled (handleCrash s i svc reason nowMs took).1 ↔
      (svc.autoRestart = true → svc.wraps = true → accepts s.mpu svc.desc = true) := by
  rcases handleCrash_cases s i svc reason nowMs took with ⟨-, hwraps, heq, -⟩ | ⟨hdies, heq, -⟩ |
    ⟨-, hauto, hwraps, heq, -⟩
  · have hset : (handleCrash s i svc reason nowMs took).1.services =
        s.services.set i (svc.crash reason nowMs) := by
      rw [heq]
      rfl
    rw [hs.set_iff hslot hset]
    refine iff_of_true nofun fun hauto h => ?_
    exact absurd ((hwraps hauto).symm.trans h) Bool.false_ne_true
  · have hset : (handleCrash s i svc reason nowMs took).1.services =
        s.services.set i { svc.crash reason nowMs with state := .dead } := by
      rw [heq]
      exact set_set ..
    rw [hs.set_iff hslot hset]
    refine iff_of_true nofun fun _ h => ?_
    exact absurd ((wraps_of_dies hdies).symm.trans h) Bool.false_ne_true
  · have hset : (handleCrash s i svc reason nowMs took).1.services = s.services.set i
        ((svc.crash reason nowMs).afterStart nowMs took s.mpu) := by
      rw [heq, doStartService_services]
      exact set_set ..
    rw [hs.set_iff hslot hset, afterStart_ne_starting]
    exact ⟨fun h _ _ => h, fun h => h hauto hwraps⟩

theorem settled_rsStop (hs : Settled s) (nowMs : Nat → UInt32) :
    Settled (rsStop s nowMs).1 := by
  have hstart : Settled { s with isRunning := false } := hs
  refine eachSlot_invariant (I := Settled) (fun s' i svc hslot hs' => ?_) hstart s.slots
  unfold stopIfRunning
  split_ifs
  · have hset : (doStopService s' i svc true (nowMs i)).1.services = s'.services.set i
        { svc with totalUptimeMs := svc.uptime (nowMs i), state := .init } := rfl
    exact (hs'.set_iff hslot hset).mpr nofun
  · exact hs'

theorem recovers_tick_iff (hs : Settled s) (hle : s.registered ≤ 2) (nowMs : UInt32)
    (took : Nat → UInt32) :
    Recovers s (.tick nowMs took) ↔ HasRoom s (.tick nowMs took) := by
  cases hrun : s.isRunning with
  | false =>
    have hcall : (call s (.tick nowMs took)).1 = s := congrArg Prod.fst (tick_stopped hrun)
    constructor
    · intro h
      refine ⟨fun h' => absurd (hrun.symm.trans h') nofun, fun _ i svc hslot hauto hfew => ?_⟩
      rw [Bool.eq_false_iff]
      intro hdue
      obtain ⟨svc', hslot', hstate⟩ := h.due nowMs took rfl i svc hslot hauto hfew hdue
      rw [hcall] at hslot'
      obtain rfl := Option.some.inj (hslot.symm.trans hslot')
      rw [isDue_of_ne (by rw [hstate]; exact nofun)] at hdue
      exact Bool.false_ne_true hdue
    · rintro ⟨-, hnone⟩
      refine ⟨by rw [hcall]; exact hs, fun nowMs' took' he i svc hslot hauto hfew hdue => ?_⟩
      cases he
      exact absurd ((hnone hrun i svc hslot hauto hfew).symm.trans hdue) nofun
  | true =>
    constructor
    · intro h
      exact ⟨fun _ => (tick_settled_iff took hrun hs hle).mp h.settled,
        fun h' => absurd (hrun.symm.trans h') nofun⟩
    · rintro ⟨hroom, -⟩
      have hsettled := (tick_settled_iff took hrun hs hle).mpr (hroom hrun)
      refine ⟨hsettled, fun nowMs' took' he i svc hslot _ _ hdue => ?_⟩
      cases he
      obtain ⟨svc', hslot', hstate⟩ := tick_due took hrun hslot hdue
      exact ⟨svc', hslot', hstate.resolve_right (hsettled i svc' hslot')⟩

/-- **Step.** After a call the services have recovered exactly under the condition. -/
theorem recovers_call_iff (hs : Settled s) (hle : s.registered ≤ 2) (c : Call) :
    Recovers s c ↔ HasRoom s c := by
  cases c with
  | tick nowMs took => exact recovers_tick_iff hs hle nowMs took
  | start nowMs => exact (recovers_iff_settled rfl).trans (iff_of_true hs trivial)
  | stop nowMs =>
    exact (recovers_iff_settled rfl).trans (iff_of_true (settled_rsStop hs nowMs) trivial)
  | registerService desc critical autoRestart =>
    refine (recovers_iff_settled rfl).trans (iff_of_true ?_ trivial)
    show Settled (rsRegisterService s desc critical autoRestart).2
    unfold rsRegisterService
    split_ifs
    · exact hs
    · intro i svc hslot
      rcases mem_append.mp (mem_of_getElem? hslot) with hold | hnew
      · obtain ⟨j, hj⟩ := mem_iff_getElem?.mp hold
        exact hs j svc hj
      · rw [mem_singleton.mp hnew]
        exact nofun
  | startService serviceId nowMs took =>
    exact (recovers_iff_settled rfl).trans (settled_withService hs fun i svc hslot =>
      settled_startService_iff hs hslot nowMs took)
  | stopService serviceId graceful nowMs =>
    refine (recovers_iff_settled rfl).trans (iff_of_true ?_ trivial)
    have hslots (i : Nat) (svc : ServiceInfo) (hslot : s.services[i]? = some svc) :
        Settled (doStopService s i svc graceful nowMs).1 ↔ True := by
      have hset : (doStopService s i svc graceful nowMs).1.services = s.services.set i
          { svc with totalUptimeMs := svc.uptime nowMs, state := .init } := rfl
      exact iff_of_true ((hs.set_iff hslot hset).mpr nofun) trivial
    exact (settled_withService (f := fun i svc => ((doStopService s i svc graceful nowMs).1,
      (doStopService s i svc graceful nowMs).2 ++ [.result (.ok ())])) hs hslots).mpr
        fun _ _ _ => trivial
  | restartService serviceId stopMs crashMs nowMs took =>
    exact (recovers_iff_settled rfl).trans (settled_withService hs fun i svc hslot =>
      settled_restartService_iff hs hslot stopMs crashMs nowMs took)
  | heartbeat serviceId nowMs =>
    refine (recovers_iff_settled rfl).trans (iff_of_true ?_ trivial)
    have hslots (i : Nat) (svc : ServiceInfo) (hslot : s.services[i]? = some svc) :
        Settled (s.put i (svc.heard nowMs)) ↔ True := by
      have hset : (s.put i (svc.heard nowMs)).services =
          s.services.set i (svc.heard nowMs) := rfl
      exact iff_of_true ((hs.set_iff hslot hset).mpr (hs i svc hslot)) trivial
    exact (settled_withService hs hslots).mpr fun _ _ _ => trivial
  | reportCrash serviceId reason nowMs took =>
    exact (recovers_iff_settled rfl).trans (settled_withService hs fun i svc hslot =>
      settled_handleCrash_iff hs hslot reason nowMs took)
  | setCrashCallback installed => exact (recovers_iff_settled rfl).trans (iff_of_true hs trivial)
  | resetStats => exact (recovers_iff_settled rfl).trans (iff_of_true hs trivial)

/-! ## runs -/

/-- **Main.** After every call of a run the services have recovered exactly when every call meets
the condition. -/
theorem recovers_iff (calls : List Call) :
    Runs.EveryStep (fun past c => Recovers (server.run past) c) calls ↔
      Runs.EveryStep (fun past c => HasRoom (server.run past) c) calls := by
  refine Runs.everyStep_congr (fun past c hpast => ?_) calls
  refine recovers_call_iff ?_ (run_registered past) c
  refine Runs.history_induction (P := fun front e => Recovers (server.run front) e)
    (I := fun front => Settled (server.run front)) ?_ ?_ past hpast
  · exact fun i svc hslot => absurd hslot nofun
  · intro front e _ he
    rw [Machine.run_concat]
    exact he.settled

def crashTwice : List Call :=
  [.start 0, .registerService (userService 1 0x08010000 0x20004000) true true,
    .startService 1 1 40, .reportCrash 1 .exception 10 0, .tick 110 fun _ => 40,
    .reportCrash 1 .exception 120 0]

/-- its backoff elapses, and the tick leaves it starting -/
theorem not_recovers_crashTwice :
    ¬ Runs.EveryStep (fun past c => Recovers (server.run past) c)
      (crashTwice ++ [.tick 320 fun _ => 40]) := by
  intro h
  have hstep := h crashTwice _ (prefix_refl _)
  have hslot : ∃ svc, (server.run (crashTwice ++ [.tick 320 fun _ => 40])).services[0]? = some svc ∧
      svc.state = .starting := ⟨_, rfl, by decide +kernel⟩
  obtain ⟨svc, hslot, hstate⟩ := hslot
  exact hstep.settled 0 svc hslot hstate

end Jezgro
end EkKor
