import EkKor.Jezgro.Slots

/-!
# What a tick does to a slot

* `ServiceInfo.crashesAt`   the check of the heartbeats takes the service for crashed;
* `checkHeartbeat_cases`    the check on one slot;
* `startsAt`, `tick_starting`   the services that a tick starts.
-/

namespace EkKor
namespace Jezgro
open List

variable {s : Server} {i : Nat} {svc : ServiceInfo} {nowMs : UInt32} {took : Nat → UInt32}

/-! ## one slot at a time -/

theorem getElem?_put_of_ne (s : Server) {i j : Nat} (h : j ≠ i) (svc : ServiceInfo) :
    (s.put i svc).services[j]? = s.services[j]? :=
  getElem?_set_ne (Ne.symm h)

theorem doStartService_frame (s : Server) {i j : Nat} (h : j ≠ i) (svc : ServiceInfo)
    (nowMs took : UInt32) :
    (doStartService s i svc nowMs took).2.1.services[j]? = s.services[j]? := by
  rw [doStartService_services]
  exact getElem?_set_ne (Ne.symm h)

theorem handleCrash_frame (s : Server) {i j : Nat} (h : j ≠ i) (svc : ServiceInfo)
    (reason : CrashReason) (nowMs took : UInt32) :
    (handleCrash s i svc reason nowMs took).1.services[j]? = s.services[j]? := by
  rcases handleCrash_cases s i svc reason nowMs took with ⟨-, -, hs, -⟩ | ⟨-, hs, -⟩ |
    ⟨-, -, -, hs, -⟩
  · rw [hs]
    exact getElem?_put_of_ne s h _
  · rw [hs]
    exact (getElem?_put_of_ne _ h _).trans (getElem?_put_of_ne s h _)
  · rw [hs, doStartService_frame _ h]
    exact getElem?_put_of_ne s h _

theorem handleCrash_outs {s : Server} {i j : Nat} {svc : ServiceInfo} {reason : CrashReason}
    {nowMs took : UInt32} (h : .starting j ∈ (handleCrash s i svc reason nowMs took).2) :
    j = i := by
  rcases handleCrash_cases s i svc reason nowMs took with ⟨-, -, -, hno⟩ | ⟨-, -, hno⟩ |
    ⟨-, -, -, -, hyes⟩
  · exact absurd h (hno j)
  · exact absurd h (hno j)
  · exact (hyes j).mp h

theorem local_checkHeartbeat (nowMs : UInt32) (took : Nat → UInt32) :
    Local (checkHeartbeat nowMs took) := by
  constructor
  · intro s i svc j hne
    unfold checkHeartbeat
    split_ifs
    · rfl
    · dsimp only
      split_ifs
      · exact handleCrash_frame s hne _ _ _ _
      · exact getElem?_put_of_ne s hne _
    · rfl
  · intro s i svc j hout
    unfold checkHeartbeat at hout
    split_ifs at hout
    · exact absurd hout not_mem_nil
    · dsimp only at hout
      split_ifs at hout
      · exact handleCrash_outs hout
      · exact absurd hout not_mem_nil
    · exact absurd hout not_mem_nil

theorem local_checkPendingRestart (nowMs : UInt32) (took : Nat → UInt32) :
    Local (checkPendingRestart nowMs took) := by
  constructor
  · intro s i svc j hne
    unfold checkPendingRestart
    split_ifs
    · exact doStartService_frame s hne _ _ _
    · rfl
  · intro s i svc j hout
    unfold checkPendingRestart at hout
    split_ifs at hout
    · exact (doStartService_starting ..).mp hout
    · exact absurd hout not_mem_nil

theorem local_stopIfRunning (nowMs : Nat → UInt32) : Local (stopIfRunning nowMs) := by
  constructor
  · intro s i svc j hne
    unfold stopIfRunning
    split_ifs
    · exact getElem?_put_of_ne s hne _
    · rfl
  · intro s i svc j hout
    unfold stopIfRunning doStopService at hout
    split_ifs at hout <;> simp at hout

/-! ## the check of a heartbeat -/

def ServiceInfo.crashesAt (svc : ServiceInfo) (nowMs : UInt32) : Bool :=
  svc.state == .running && svc.overdue nowMs && svc.missedHeartbeats + 1 ≥ 3

def ServiceInfo.missed (svc : ServiceInfo) : ServiceInfo :=
  { svc with missedHeartbeats := svc.missedHeartbeats + 1 }

theorem isDue_of_ne (h : svc.state ≠ .crashed) : svc.isDue nowMs = false := by
  unfold ServiceInfo.isDue
  rw [beq_eq_false_iff_ne.mpr h]
  rfl

theorem isDue_crash (svc : ServiceInfo) (reason : CrashReason) (nowMs : UInt32) :
    (svc.crash reason nowMs).isDue nowMs = svc.wraps := by
  unfold ServiceInfo.isDue ServiceInfo.wraps
  rw [Bool.eq_iff_iff, Bool.and_eq_true, beq_iff_eq, decide_eq_true_iff]
  have hstate : (svc.crash reason nowMs).state = .crashed := rfl
  have hzero : nowMs - (svc.crash reason nowMs).lastCrashTimeMs = 0 := UInt32.sub_self nowMs
  rw [and_iff_right hstate, hzero, beq_iff_eq]
  exact UInt32.le_zero_iff.trans (svc.crash reason nowMs).backoffMs_eq_zero

/-- **The check.** It crashes the service, or leaves its state and its dates. -/
theorem checkHeartbeat_cases (hslot : s.services[i]? = some svc) :
    (svc.crashesAt nowMs = false ∧ (checkHeartbeat nowMs took s i svc).1.mpu = s.mpu ∧
      (checkHeartbeat nowMs took s i svc).2 = [] ∧
      ((checkHeartbeat nowMs took s i svc).1.services[i]? = some svc ∨
        svc.state = .running ∧
          (checkHeartbeat nowMs took s i svc).1.services[i]? = some svc.missed)) ∨
    (svc.crashesAt nowMs = true ∧ svc.state = .running ∧
      checkHeartbeat nowMs took s i svc = handleCrash s i svc.missed .heartbeat nowMs (took i)) := by
  have hlt := (List.getElem?_eq_some_iff.mp hslot).1
  unfold checkHeartbeat ServiceInfo.crashesAt
  by_cases hrunning : svc.state = .running
  · rw [if_neg (not_not.mpr hrunning), beq_iff_eq.mpr hrunning, Bool.true_and]
    cases svc.overdue nowMs with
    | false => exact .inl ⟨rfl, rfl, rfl, .inl hslot⟩
    | true =>
      by_cases hthree : svc.missedHeartbeats + 1 ≥ 3
      · exact .inr ⟨decide_eq_true hthree, hrunning, if_pos hthree⟩
      · rw [if_neg hthree]
        exact .inl ⟨decide_eq_false hthree, rfl, rfl,
          .inr ⟨hrunning, getElem?_set_self hlt⟩⟩
  · rw [if_pos hrunning, beq_eq_false_iff_ne.mpr hrunning]
    exact .inl ⟨rfl, rfl, rfl, .inl hslot⟩

def ServiceInfo.restartsAt (svc : ServiceInfo) (nowMs : UInt32) : Bool :=
  svc.crashesAt nowMs && svc.autoRestart && svc.wraps

theorem wraps_of_dies (h : svc.dies = true) : svc.wraps = false := by
  unfold ServiceInfo.dies at h
  rw [Bool.and_eq_true, decide_eq_true_iff] at h
  refine beq_eq_false_iff_ne.mpr fun hzero => ?_
  rw [hzero] at h
  exact absurd h.2 (by decide)

theorem checkHeartbeat_keeps (took : Nat → UInt32) (hslot : s.services[i]? = some svc)
    (hno : svc.restartsAt nowMs = false) :
    (checkHeartbeat nowMs took s i svc).1.mpu = s.mpu ∧
    .starting i ∉ (checkHeartbeat nowMs took s i svc).2 ∧
    ∃ svc', (checkHeartbeat nowMs took s i svc).1.services[i]? = some svc' ∧
      svc'.desc = svc.desc ∧ (svc'.state = .starting → svc.state = .starting) ∧
      svc'.isDue nowMs = (svc.isDue nowMs || svc.crashesAt nowMs && svc.wraps) := by
  have hlt := (List.getElem?_eq_some_iff.mp hslot).1
  rcases checkHeartbeat_cases hslot with ⟨hcrash, hmpu, hout, hsame⟩ | ⟨hcrash, hrunning, heq⟩
  · refine ⟨hmpu, by rw [hout]; exact not_mem_nil, ?_⟩
    rw [hcrash, Bool.false_and, Bool.or_false]
    rcases hsame with hsame | ⟨hrunning, hsame⟩
    · exact ⟨svc, hsame, rfl, id, rfl⟩
    · refine ⟨svc.missed, hsame, rfl, id, ?_⟩
      have hstate : svc.missed.state = .running := hrunning
      rw [isDue_of_ne (by rw [hstate]; exact nofun), isDue_of_ne (by rw [hrunning]; exact nofun)]
  · rw [heq, hcrash, Bool.true_and, isDue_of_ne (by rw [hrunning]; exact nofun), Bool.false_or]
    unfold ServiceInfo.restartsAt at hno
    rw [hcrash, Bool.true_and, Bool.and_eq_false_iff] at hno
    rcases handleCrash_cases s i svc.missed .heartbeat nowMs (took i) with
      ⟨-, -, hs, hout⟩ | ⟨hdies, hs, hout⟩ | ⟨-, hauto, hwraps, -, -⟩
    · rw [hs]
      exact ⟨rfl, hout i, _, getElem?_set_self hlt, rfl, nofun, isDue_crash ..⟩
    · rw [hs]
      refine ⟨rfl, hout i, _, getElem?_set_self (by rwa [Server.put, length_set]), rfl,
        nofun, ?_⟩
      exact (wraps_of_dies hdies).symm
    · rcases hno with hno | hno
      · exact absurd (hauto.symm.trans hno) nofun
      · exact absurd (hwraps.symm.trans hno) nofun

theorem checkHeartbeat_restarts (took : Nat → UInt32) (hslot : s.services[i]? = some svc)
    (hyes : svc.restartsAt nowMs = true) :
    .starting i ∈ (checkHeartbeat nowMs took s i svc).2 ∧
    ∃ svc', (checkHeartbeat nowMs took s i svc).1.services[i]? = some svc' ∧
      svc'.desc = svc.desc ∧ svc'.state = (if accepts s.mpu svc.desc then .running else .starting) ∧
      (checkHeartbeat nowMs took s i svc).1.mpu.contexts.length =
        s.mpu.contexts.length + if accepts s.mpu svc.desc then 1 else 0 := by
  have hlt := (List.getElem?_eq_some_iff.mp hslot).1
  unfold ServiceInfo.restartsAt at hyes
  rw [Bool.and_eq_true, Bool.and_eq_true] at hyes
  rcases checkHeartbeat_cases hslot with ⟨hcrash, -⟩ | ⟨-, -, heq⟩
  · exact absurd (hcrash.symm.trans hyes.1.1) nofun
  · rw [heq]
    rcases handleCrash_cases s i svc.missed .heartbeat nowMs (took i) with
      ⟨-, hwraps, -, -⟩ | ⟨hdies, -, -⟩ | ⟨-, -, -, hs, hout⟩
    · exact absurd ((hwraps hyes.1.2).symm.trans hyes.2) nofun
    · exact absurd ((wraps_of_dies hdies).symm.trans hyes.2) nofun
    · refine ⟨(hout i).mpr rfl,
        (svc.missed.crash .heartbeat nowMs).afterStart nowMs (took i) s.mpu, ?_,
        ServiceInfo.afterStart_desc .., ?_, ?_⟩
      · rw [hs, doStartService_services]
        exact getElem?_set_self (by rwa [Server.put, length_set])
      · exact ServiceInfo.afterStart_state ..
      · rw [hs, doStartService_contexts]
        rfl

/-! ## a tick -/

theorem nodup_slots (s : Server) : s.slots.Nodup := nodup_range

theorem mem_slots (hslot : s.services[i]? = some svc) : i ∈ s.slots :=
  mem_range.mpr (List.getElem?_eq_some_iff.mp hslot).1

theorem checkHeartbeats_at (nowMs : UInt32) (took : Nat → UInt32)
    (hslot : s.services[i]? = some svc) :
    ∃ svc', (checkHeartbeats s nowMs took).1.services[i]? = some svc' ∧ svc'.desc = svc.desc ∧
      (.starting i ∈ (checkHeartbeats s nowMs took).2 ↔
        (s.checksHeartbeats nowMs && svc.restartsAt nowMs) = true) ∧
      svc'.isDue nowMs = (svc.isDue nowMs || s.checksHeartbeats nowMs && svc.crashesAt nowMs &&
        svc.wraps && !svc.autoRestart) := by
  unfold checkHeartbeats
  cases s.checksHeartbeats nowMs with
  | false => exact ⟨svc, hslot, rfl, by simp, by simp⟩
  | true =>
    rw [if_pos rfl, Bool.true_and, Bool.true_and]
    obtain ⟨s', hs', hafter, houts⟩ := eachSlot_at (local_checkHeartbeat nowMs took) s
      (nodup_slots s) (mem_slots hslot) hslot
    rw [hafter, houts]
    cases hrestarts : svc.restartsAt nowMs with
    | true =>
      obtain ⟨hout, svc', hsvc', hdesc, hstate, -⟩ := checkHeartbeat_restarts took hs' hrestarts
      refine ⟨svc', hsvc', hdesc, iff_of_true hout rfl, ?_⟩
      unfold ServiceInfo.restartsAt at hrestarts
      rw [Bool.and_eq_true, Bool.and_eq_true] at hrestarts
      have hrunning : svc.isDue nowMs = false := by
        have hcrash := hrestarts.1.1
        unfold ServiceInfo.crashesAt at hcrash
        rw [Bool.and_eq_true, Bool.and_eq_true, beq_iff_eq] at hcrash
        refine isDue_of_ne ?_
        rw [hcrash.1.1]
        exact nofun
      rw [hrunning, hrestarts.1.2, Bool.not_true, Bool.and_false, Bool.or_false]
      refine isDue_of_ne ?_
      rw [hstate]
      split_ifs <;> exact nofun
    | false =>
      obtain ⟨-, hout, svc', hsvc', hdesc, -, hdue⟩ := checkHeartbeat_keeps took hs' hrestarts
      refine ⟨svc', hsvc', hdesc, iff_of_false hout Bool.false_ne_true, hdue.trans ?_⟩
      unfold ServiceInfo.restartsAt at hrestarts
      revert hrestarts
      cases svc.crashesAt nowMs <;> cases svc.autoRestart <;> cases svc.wraps <;> simp

def startsAt (s : Server) (nowMs : UInt32) (svc : ServiceInfo) : Bool :=
  svc.isDue nowMs || s.checksHeartbeats nowMs && svc.crashesAt nowMs && svc.wraps

/-- **A tick.** It starts the services that are due, and those that crash without a backoff. -/
theorem tick_starting (hrun : s.isRunning = true) (hslot : s.services[i]? = some svc) :
    .starting i ∈ (tick s nowMs took).2 ↔ startsAt s nowMs svc = true := by
  obtain ⟨svc', hslot', -, hout, hdue⟩ := checkHeartbeats_at nowMs took hslot
  obtain ⟨s', -, -, hout'⟩ := eachSlot_at (local_checkPendingRestart nowMs took)
    (checkHeartbeats s nowMs took).1 (nodup_slots _) (mem_slots hslot') hslot'
  have hpending : .starting i ∈ (checkPendingRestart nowMs took s' i svc').2 ↔
      svc'.isDue nowMs = true := by
    unfold checkPendingRestart
    cases svc'.isDue nowMs with
    | true => exact iff_of_true ((doStartService_starting ..).mpr rfl) rfl
    | false => exact iff_of_false not_mem_nil Bool.false_ne_true
  unfold tick startsAt
  rw [hrun, if_neg (by decide)]
  rw [mem_append, hout, hout', hpending, hdue]
  unfold ServiceInfo.restartsAt
  cases svc.isDue nowMs <;> cases s.checksHeartbeats nowMs <;> cases svc.crashesAt nowMs <;>
    cases svc.autoRestart <;> cases svc.wraps <;> simp

theorem tick_other (hslot : s.services[i]? = some svc) (hrunning : svc.state ≠ .running)
    (hcrashed : svc.state ≠ .crashed) : (tick s nowMs took).1.services[i]? = some svc := by
  have hbeats : (checkHeartbeats s nowMs took).1.services[i]? = some svc := by
    unfold checkHeartbeats
    split_ifs
    · obtain ⟨s', hs', hafter, -⟩ := eachSlot_at (local_checkHeartbeat nowMs took) s
        (nodup_slots s) (mem_slots hslot) hslot
      refine hafter.trans ?_
      unfold checkHeartbeat
      rw [if_pos hrunning]
      exact hs'
    · exact hslot
  unfold tick
  split_ifs
  · exact hslot
  · obtain ⟨s', hs', hafter, -⟩ := eachSlot_at (local_checkPendingRestart nowMs took)
      (checkHeartbeats s nowMs took).1 (nodup_slots _) (mem_slots hbeats) hbeats
    refine hafter.trans ?_
    unfold checkPendingRestart
    rw [isDue_of_ne hcrashed]
    exact hs'

theorem tick_stopped (hrun : s.isRunning = false) : tick s nowMs took = (s, []) := by
  unfold tick
  rw [hrun]
  rfl

end Jezgro
end EkKor
