import EkKor.Jezgro.Ticks

/-!
# The restart policy

* `Respects`       a call starts no service against its policy, and leaves the dead alone;
* `Obedient`       the condition on a call;
* `respects_policy_iff`   a run respects the policy exactly when all its calls meet the condition.
-/

namespace EkKor
namespace Jezgro
open Runs (Machine)
open List

def Call.asksFor (c : Call) (serviceId : UInt8) : Prop :=
  match c with
  | .startService id _ _ => id = serviceId
  | .restartService id _ _ _ _ => id = serviceId
  | _ => False

/-- the policy: without `auto_restart` a service starts on request only, and a dead one stays dead
and does not start -/
structure Respects (s : Server) (c : Call) : Prop where
  onRequest : ∀ (i : Nat) (svc : ServiceInfo), s.services[i]? = some svc →
    svc.autoRestart = false → .starting i ∈ (call s c).2 → c.asksFor svc.id
  dead : ∀ (i : Nat) (svc : ServiceInfo), s.services[i]? = some svc → svc.state = .dead →
    .starting i ∉ (call s c).2 ∧ ∃ svc', (call s c).1.services[i]? = some svc' ∧ svc'.state = .dead

/-- the condition: at a tick no service without `auto_restart` is due, or crashes without a
backoff; a dead service is not stopped, not restarted, and no crash of it is reported after a
heartbeat -/
def Obedient (s : Server) : Call → Prop
  | .tick nowMs _ => s.isRunning = true → ∀ (i : Nat) (svc : ServiceInfo),
      s.services[i]? = some svc → svc.autoRestart = false → startsAt s nowMs svc = false
  | .stopService serviceId _ _ => ∀ i svc, Found s serviceId i svc → svc.state ≠ .dead
  | .restartService serviceId _ _ _ _ => ∀ i svc, Found s serviceId i svc → svc.state ≠ .dead
  | .reportCrash serviceId _ _ _ => ∀ i svc, Found s serviceId i svc → svc.state = .dead →
      svc.dies = true
  | _ => True

variable {s : Server} {c : Call}

theorem respects_of_quiet (hout : ∀ i, .starting i ∉ (call s c).2)
    (hdead : ∀ (i : Nat) (svc : ServiceInfo), s.services[i]? = some svc → svc.state = .dead →
      (call s c).1.services[i]? = some svc) : Respects s c :=
  ⟨fun i _ _ _ hstart => absurd hstart (hout i), fun i svc hslot hstate =>
    ⟨hout i, svc, hdead i svc hslot hstate, hstate⟩⟩

theorem respects_withService {serviceId : UInt8} {missing : List Output}
    {f : Nat → ServiceInfo → Server × List Output}
    (hcall : call s c = withService s serviceId missing f) (hmissing : ∀ i, .starting i ∉ missing)
    (hframe : ∀ i svc j, j ≠ i → (f i svc).1.services[j]? = s.services[j]?)
    (houts : ∀ i svc j, .starting j ∈ (f i svc).2 → j = i) :
    Respects s c ↔ ∀ i svc, Found s serviceId i svc →
      (svc.autoRestart = false → .starting i ∈ (f i svc).2 → c.asksFor svc.id) ∧
      (svc.state = .dead → .starting i ∉ (f i svc).2 ∧
        ∃ svc', (f i svc).1.services[i]? = some svc' ∧ svc'.state = .dead) := by
  rcases withService_cases s serviceId missing f with ⟨hnone, heq⟩ | ⟨i, svc, hfound, heq⟩
  · refine iff_of_true ?_ fun i svc hfound => absurd hfound (hnone i svc)
    refine respects_of_quiet ?_ ?_
    · rw [hcall, heq]
      exact hmissing
    · rw [hcall, heq]
      exact fun _ _ hslot _ => hslot
  · have heq' := hcall.trans heq
    constructor
    · intro h j svc' hfound'
      obtain ⟨rfl, rfl⟩ := hfound.unique hfound'
      have honRequest := h.onRequest i svc hfound.2
      have hdead := h.dead i svc hfound.2
      rw [heq'] at honRequest hdead
      exact ⟨honRequest, hdead⟩
    · intro h
      obtain ⟨honRequest, hdead⟩ := h i svc hfound
      constructor
      · intro j svc' hslot hauto hstart
        rw [heq'] at hstart
        obtain rfl := houts i svc j hstart
        obtain rfl := Option.some.inj (hfound.2.symm.trans hslot)
        exact honRequest hauto hstart
      · intro j svc' hslot hstate
        rw [heq']
        by_cases hj : j = i
        · subst hj
          obtain rfl := Option.some.inj (hfound.2.symm.trans hslot)
          exact hdead hstate
        · refine ⟨fun hstart => hj (houts i svc j hstart), svc', ?_, hstate⟩
          exact (hframe i svc j hj).trans hslot

/-! ## each call -/

theorem startService_frame (s : Server) {i j : Nat} (h : j ≠ i) (svc : ServiceInfo)
    (nowMs took : UInt32) :
    (startService s i svc nowMs took).2.1.services[j]? = s.services[j]? := by
  unfold startService
  split_ifs
  · rfl
  · rfl
  · exact doStartService_frame s h _ _ _

theorem startService_outs {s : Server} {i j : Nat} {svc : ServiceInfo} {nowMs took : UInt32}
    (h : .starting j ∈ (startService s i svc nowMs took).2.2) : j = i := by
  unfold startService at h
  split_ifs at h
  · exact absurd h not_mem_nil
  · exact absurd h not_mem_nil
  · exact (doStartService_starting ..).mp h

theorem restartService_frame (s : Server) {i j : Nat} (h : j ≠ i) (svc : ServiceInfo)
    (stopMs crashMs nowMs took : UInt32) :
    (restartService s i svc stopMs crashMs nowMs took).2.1.services[j]? = s.services[j]? := by
  unfold restartService
  split_ifs
  · exact (doStartService_frame _ h _ _ _).trans (getElem?_put_of_ne s h _)
  · exact doStartService_frame s h _ _ _

theorem restartService_starting (s : Server) (i j : Nat) (svc : ServiceInfo)
    (stopMs crashMs nowMs took : UInt32) :
    .starting j ∈ (restartService s i svc stopMs crashMs nowMs took).2.2 ↔ j = i := by
  unfold restartService
  split_ifs <;> exact doStartService_starting ..

theorem starting_mem_withResult (r : Except Err Unit × Server × List Output) (j : Nat) :
    .starting j ∈ (withResult r).2 ↔ .starting j ∈ r.2.2 := by
  unfold withResult
  simp

theorem doStopService_outs (s : Server) (i j : Nat) (svc : ServiceInfo) (graceful : Bool)
    (nowMs : UInt32) : .starting j ∉ (doStopService s i svc graceful nowMs).2 := by
  unfold doStopService
  split_ifs <;> simp

theorem respects_stop (s : Server) (nowMs : Nat → UInt32) : Respects s (.stop nowMs) := by
  have hbody (s : Server) (i : Nat) (svc : ServiceInfo) (j : Nat) :
      .starting j ∉ (stopIfRunning nowMs s i svc).2 := by
    unfold stopIfRunning
    split_ifs
    · exact doStopService_outs s i j svc true _
    · exact not_mem_nil
  refine respects_of_quiet (fun i hstart => ?_) fun i svc hslot hstate => ?_
  · by_cases hmem : i ∈ s.slots
    · obtain ⟨svc, hslot⟩ : ∃ svc, s.services[i]? = some svc :=
        ⟨_, getElem?_eq_getElem (mem_range.mp hmem)⟩
      obtain ⟨s', -, -, hout⟩ := eachSlot_at (local_stopIfRunning nowMs)
        { s with isRunning := false } (nodup_slots s) hmem hslot
      exact hbody s' i svc i (hout.mp hstart)
    · exact (eachSlot_frame (local_stopIfRunning nowMs) { s with isRunning := false } hmem).2 hstart
  · obtain ⟨s', hs', hafter, -⟩ := eachSlot_at (local_stopIfRunning nowMs)
      { s with isRunning := false } (nodup_slots s) (mem_slots hslot) hslot
    refine hafter.trans ?_
    unfold stopIfRunning
    rw [hstate, if_neg nofun]
    exact hs'

theorem respects_tick_iff (s : Server) (nowMs : UInt32) (took : Nat → UInt32) :
    Respects s (.tick nowMs took) ↔ Obedient s (.tick nowMs took) := by
  cases hrun : s.isRunning with
  | false =>
    refine iff_of_true ?_ fun h => absurd (hrun.symm.trans h) Bool.false_ne_true
    refine respects_of_quiet ?_ ?_
    · show ∀ i, .starting i ∉ (tick s nowMs took).2
      rw [tick_stopped hrun]
      exact fun _ => not_mem_nil
    · show ∀ (i : Nat) (svc : ServiceInfo), _ → _ → (tick s nowMs took).1.services[i]? = _
      rw [tick_stopped hrun]
      exact fun _ _ hslot _ => hslot
  | true =>
    constructor
    · intro h _ i svc hslot hauto
      rw [Bool.eq_false_iff]
      exact fun hstart => h.onRequest i svc hslot hauto ((tick_starting hrun hslot).mpr hstart)
    · intro h
      constructor
      · intro i svc hslot hauto hstart
        have hno := h hrun i svc hslot hauto
        exact absurd ((tick_starting hrun hslot).mp hstart) (by rw [hno]; exact nofun)
      · intro i svc hslot hstate
        have hrunning : svc.state ≠ .running := by rw [hstate]; exact nofun
        have hcrashed : svc.state ≠ .crashed := by rw [hstate]; exact nofun
        refine ⟨fun hstart => ?_, svc, tick_other hslot hrunning hcrashed, hstate⟩
        have hstarts := (tick_starting hrun hslot).mp hstart
        unfold startsAt ServiceInfo.crashesAt at hstarts
        rw [isDue_of_ne hcrashed, beq_eq_false_iff_ne.mpr hrunning] at hstarts
        simp at hstarts

theorem respects_startService (s : Server) (serviceId : UInt8) (nowMs took : UInt32) :
    Respects s (.startService serviceId nowMs took) := by
  have hcall : call s (.startService serviceId nowMs took) =
      withService s serviceId [.result (.error .notFound)] fun i svc =>
        withResult (startService s i svc nowMs took) := rfl
  refine (respects_withService hcall (by simp)
    (fun i svc j hne => startService_frame s hne svc nowMs took)
    fun i svc j h => startService_outs ((starting_mem_withResult _ j).mp h)).mpr
      fun i svc hfound => ⟨fun _ _ => hfound.id_eq.symm, fun hstate => ?_⟩
  have heq : startService s i svc nowMs took = (.error .invalidArg, s, []) := by
    unfold startService
    rw [if_neg (by rw [hstate]; exact nofun), if_pos hstate]
  rw [heq]
  exact ⟨by simp [withResult], svc, hfound.2, hstate⟩

theorem respects_stopService_iff (s : Server) (serviceId : UInt8) (graceful : Bool)
    (nowMs : UInt32) : Respects s (.stopService serviceId graceful nowMs) ↔
      Obedient s (.stopService serviceId graceful nowMs) := by
  have hout (i j : Nat) (svc : ServiceInfo) :
      .starting j ∉ (doStopService s i svc graceful nowMs).2 ++ [Output.result (.ok ())] := by
    rw [mem_append, not_or]
    exact ⟨doStopService_outs s i j svc graceful nowMs, by simp⟩
  refine (respects_withService rfl (by simp) (fun i svc j hne => getElem?_put_of_ne s hne _)
    fun i svc j h => absurd h (hout i j svc)).trans ?_
  refine forall_congr' fun i => forall_congr' fun svc => forall_congr' fun hfound => ?_
  have hlt := (List.getElem?_eq_some_iff.mp hfound.2).1
  constructor
  · rintro ⟨-, hdead⟩ hstate
    obtain ⟨-, svc', hslot, hstate'⟩ := hdead hstate
    have hself : (s.services.set i
        { svc with totalUptimeMs := svc.uptime nowMs, state := .init })[i]? = some svc' := hslot
    rw [getElem?_set_self hlt, Option.some.injEq] at hself
    rw [← hself] at hstate'
    exact nomatch hstate'
  · intro halive
    exact ⟨fun _ h => absurd h (hout i i svc), fun hstate => absurd hstate halive⟩

theorem respects_restartService_iff (s : Server) (serviceId : UInt8)
    (stopMs crashMs nowMs took : UInt32) :
    Respects s (.restartService serviceId stopMs crashMs nowMs took) ↔
      Obedient s (.restartService serviceId stopMs crashMs nowMs took) := by
  have hout (i j : Nat) (svc : ServiceInfo) := (starting_mem_withResult
    (restartService s i svc stopMs crashMs nowMs took) j).trans
      (restartService_starting s i j svc stopMs crashMs nowMs took)
  have hcall : call s (.restartService serviceId stopMs crashMs nowMs took) =
      withService s serviceId [.result (.error .notFound)] fun i svc =>
        withResult (restartService s i svc stopMs crashMs nowMs took) := rfl
  refine (respects_withService hcall (by simp)
    (fun i svc j hne => restartService_frame s hne svc stopMs crashMs nowMs took)
    fun i svc j h => (hout i j svc).mp h).trans ?_
  refine forall_congr' fun i => forall_congr' fun svc => forall_congr' fun hfound => ?_
  constructor
  · rintro ⟨-, hdead⟩ hstate
    exact (hdead hstate).1 ((hout i i svc).mpr rfl)
  · intro halive
    exact ⟨fun _ _ => hfound.id_eq.symm, fun hstate => absurd hstate halive⟩

theorem respects_heartbeat (s : Server) (serviceId : UInt8) (nowMs : UInt32) :
    Respects s (.heartbeat serviceId nowMs) := by
  have hcall : call s (.heartbeat serviceId nowMs) =
      withService s serviceId [] fun i svc => (s.put i (svc.heard nowMs), []) := rfl
  refine (respects_withService hcall (fun _ => not_mem_nil)
    (fun i svc j hne => getElem?_put_of_ne s hne _)
    fun i svc j h => absurd h not_mem_nil).mpr fun i svc hfound => ?_
  have hlt := (List.getElem?_eq_some_iff.mp hfound.2).1
  exact ⟨fun _ h => absurd h not_mem_nil, fun hstate =>
    ⟨not_mem_nil, _, getElem?_set_self hlt, hstate⟩⟩

theorem respects_reportCrash_iff (s : Server) (serviceId : UInt8) (reason : CrashReason)
    (nowMs took : UInt32) : Respects s (.reportCrash serviceId reason nowMs took) ↔
      Obedient s (.reportCrash serviceId reason nowMs took) := by
  have hcall : call s (.reportCrash serviceId reason nowMs took) =
      withService s serviceId [] fun i svc => handleCrash s i svc reason nowMs took := rfl
  refine (respects_withService hcall (fun _ => not_mem_nil)
    (fun i svc j hne => handleCrash_frame s hne svc reason nowMs took)
    fun i svc j h => handleCrash_outs h).trans ?_
  refine forall_congr' fun i => forall_congr' fun svc => forall_congr' fun hfound => ?_
  have hlt := (List.getElem?_eq_some_iff.mp hfound.2).1
  rcases handleCrash_cases s i svc reason nowMs took with ⟨hdies, -, hs, hno⟩ | ⟨hdies, hs, hno⟩ |
    ⟨hdies, hauto, -, -, hyes⟩
  · rw [hdies, hs]
    constructor
    · rintro ⟨-, hdead⟩ hstate
      obtain ⟨-, svc', hslot, hstate'⟩ := hdead hstate
      have hself : (s.services.set i (svc.crash reason nowMs))[i]? = some svc' := hslot
      rw [getElem?_set_self hlt, Option.some.injEq] at hself
      rw [← hself] at hstate'
      exact ServiceState.noConfusion hstate'
    · intro halive
      exact ⟨fun _ h => absurd h (hno i), fun hstate => absurd (halive hstate) Bool.false_ne_true⟩
  · rw [hdies, hs]
    refine iff_of_true ⟨fun _ h => absurd h (hno i), fun _ => ⟨hno i,
      { svc.crash reason nowMs with state := .dead }, ?_, rfl⟩⟩ fun _ => rfl
    exact getElem?_set_self (by rwa [Server.put, length_set])
  · rw [hdies]
    constructor
    · rintro ⟨-, hdead⟩ hstate
      exact absurd ((hyes i).mpr rfl) (hdead hstate).1
    · intro halive
      exact ⟨fun hauto' => absurd (hauto'.symm.trans hauto) Bool.false_ne_true,
        fun hstate => absurd (halive hstate) Bool.false_ne_true⟩

/-- **Step.** A call respects the policy exactly under the condition. -/
theorem respects_call_iff (s : Server) (c : Call) : Respects s c ↔ Obedient s c := by
  cases c with
  | start nowMs =>
    exact iff_of_true (respects_of_quiet (fun _ => not_mem_nil) fun _ _ h _ => h) trivial
  | stop nowMs => exact iff_of_true (respects_stop s nowMs) trivial
  | registerService desc critical autoRestart =>
    refine iff_of_true (respects_of_quiet ?_ fun i svc hslot _ => ?_) trivial
    · intro i
      show .starting i ∉ [Output.result _]
      simp
    · show (rsRegisterService s desc critical autoRestart).2.services[i]? = some svc
      unfold rsRegisterService
      split_ifs
      · exact hslot
      · exact (getElem?_append_left (List.getElem?_eq_some_iff.mp hslot).1).trans hslot
  | startService serviceId nowMs took =>
    exact iff_of_true (respects_startService s serviceId nowMs took) trivial
  | stopService serviceId graceful nowMs =>
    exact respects_stopService_iff s serviceId graceful nowMs
  | restartService serviceId stopMs crashMs nowMs took =>
    exact respects_restartService_iff s serviceId stopMs crashMs nowMs took
  | tick nowMs took => exact respects_tick_iff s nowMs took
  | heartbeat serviceId nowMs => exact iff_of_true (respects_heartbeat s serviceId nowMs) trivial
  | reportCrash serviceId reason nowMs took =>
    exact respects_reportCrash_iff s serviceId reason nowMs took
  | setCrashCallback installed =>
    exact iff_of_true (respects_of_quiet (fun _ => not_mem_nil) fun _ _ h _ => h) trivial
  | resetStats =>
    exact iff_of_true (respects_of_quiet (fun _ => not_mem_nil) fun _ _ h _ => h) trivial

/-! ## runs -/

/-- **Main.** Every call of a run respects the policy exactly when every call meets the
condition. -/
theorem respects_policy_iff (calls : List Call) :
    Runs.EveryStep (fun past c => Respects (server.run past) c) calls ↔
      Runs.EveryStep (fun past c => Obedient (server.run past) c) calls :=
  Runs.everyStep_congr (fun past c _ => respects_call_iff (server.run past) c) calls

/-- a service without `auto_restart` runs and crashes -/
def crashOnce : List Call :=
  [.start 0, .registerService (userService 1 0x08010000 0x20004000) false false,
    .startService 1 1 40, .reportCrash 1 .exception 10 0]

/-- a tick starts it again -/
theorem not_respects_tick :
    ¬ Runs.EveryStep (fun past c => Respects (server.run past) c)
      (crashOnce ++ [.tick 110 fun _ => 40]) := by
  intro h
  have hstep := h crashOnce _ (prefix_refl _)
  have hslot : ∃ svc, (server.run crashOnce).services[0]? = some svc ∧ svc.autoRestart = false ∧
      startsAt (server.run crashOnce) 110 svc = true := ⟨_, rfl, rfl, by decide +kernel⟩
  obtain ⟨svc, hslot, hauto, hstarts⟩ := hslot
  exact hstep.onRequest 0 svc hslot hauto ((tick_starting (by rfl) hslot).mpr hstarts)

end Jezgro
end EkKor
