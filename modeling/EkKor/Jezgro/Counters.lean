import EkKor.Jezgro.Slots

/-!
# The counters of the reincarnation server

* `Matches`        the counters of running and of dead services are right;
* `Guarded`        the condition on a call: it stops and crashes running services only, and
                   restarts no dead one;
* `matches_iff`    the counters are right in a whole run exactly when all its calls are guarded.
-/

namespace EkKor
namespace Jezgro
open Runs (Machine)
open List

/-! ## counting -/

def countOf (services : List ServiceInfo) (state : ServiceState) : Nat :=
  services.countP fun svc => svc.state == state

def one (svc : ServiceInfo) (state : ServiceState) : Nat := if svc.state = state then 1 else 0

theorem countOf_cons (svc : ServiceInfo) (services : List ServiceInfo) (state : ServiceState) :
    countOf (svc :: services) state = countOf services state + one svc state := by
  unfold countOf one
  rw [countP_cons]
  simp only [beq_iff_eq]

theorem countOf_append (services : List ServiceInfo) (svc : ServiceInfo) (state : ServiceState) :
    countOf (services ++ [svc]) state = countOf services state + one svc state := by
  have hone : countOf [svc] state = one svc state := by
    rw [countOf_cons]
    exact Nat.zero_add _
  rw [← hone]
  exact countP_append

variable {services : List ServiceInfo} {state : ServiceState} {serviceId : UInt8}
  {missing : List Output} {f : Nat → ServiceInfo → Server × List Output}

theorem countOf_set {i : Nat} {svc : ServiceInfo} (h : services[i]? = some svc) (svc' : ServiceInfo)
    (state : ServiceState) :
    countOf (services.set i svc') state + one svc state =
      countOf services state + one svc' state := by
  induction services generalizing i with
  | nil => exact nomatch h
  | cons head rest ih =>
    cases i with
    | zero =>
      rw [getElem?_cons_zero, Option.some.injEq] at h
      subst h
      rw [set_cons_zero, countOf_cons, countOf_cons]
      omega
    | succ i =>
      have hrest := ih h
      rw [set_cons_succ, countOf_cons, countOf_cons]
      omega

theorem countOf_le (services : List ServiceInfo) (state : ServiceState) :
    countOf services state ≤ services.length := countP_le_length

theorem one_le_countOf {i : Nat} {svc : ServiceInfo} (h : services[i]? = some svc) :
    1 ≤ countOf services svc.state := by
  have hmem := mem_of_getElem? h
  exact countP_pos_iff.mpr ⟨svc, hmem, beq_self_eq_true _⟩

/-! ## the counters -/

/-- the counters agree with the table -/
structure Matches (s : Server) : Prop where
  running : s.stats.servicesRunning.toNat = countOf s.services .running
  dead : s.stats.servicesDead.toNat = countOf s.services .dead

def Small (s : Server) : Prop := s.services.length ≤ rsMaxServices

variable {s : Server} {i : Nat} {svc svc₀ : ServiceInfo}

theorem toNat_add_one {c : UInt8} (h : c.toNat < 255) : (c + 1).toNat = c.toNat + 1 := by
  rw [UInt8.toNat_add, UInt8.toNat_one]
  omega

theorem toNat_sub_one {c : UInt8} (h : 0 < c.toNat) : (c - 1).toNat = c.toNat - 1 := by
  have hlt := c.toNat_lt
  rw [UInt8.toNat_sub, UInt8.toNat_one]
  omega

theorem sub_one_ne (c : UInt8) : (c - 1).toNat ≠ c.toNat := by
  rw [UInt8.toNat_sub, UInt8.toNat_one]
  omega

theorem Small.countOf_lt (h : Small s) (state : ServiceState) :
    countOf s.services state < 255 :=
  Nat.lt_of_le_of_lt (Nat.le_trans (countOf_le _ _) h) (by decide)

theorem Matches.set_iff (h : Matches s) (hslot : s.services[i]? = some svc₀) {s' : Server}
    (hset : s'.services = s.services.set i svc) : Matches s' ↔
      s'.stats.servicesRunning.toNat + one svc₀ .running =
        s.stats.servicesRunning.toNat + one svc .running ∧
      s'.stats.servicesDead.toNat + one svc₀ .dead =
        s.stats.servicesDead.toNat + one svc .dead := by
  have hrunning := countOf_set hslot svc .running
  have hdead := countOf_set hslot svc .dead
  rw [← hset] at hrunning hdead
  rw [h.running, h.dead, ← hrunning, ← hdead]
  constructor
  · intro h'
    exact ⟨congrArg (· + _) h'.running, congrArg (· + _) h'.dead⟩
  · intro h'
    exact ⟨Nat.add_right_cancel h'.1, Nat.add_right_cancel h'.2⟩

theorem one_self (svc : ServiceInfo) (h : svc.state = state) : one svc state = 1 := if_pos h

theorem one_other (svc : ServiceInfo) (h : svc.state ≠ state) : one svc state = 0 := if_neg h

theorem Matches.pos (h : Matches s) (hslot : s.services[i]? = some svc₀)
    (hrunning : svc₀.state = .running) : 0 < s.stats.servicesRunning.toNat := by
  rw [h.running, ← hrunning]
  exact one_le_countOf hslot

theorem Matches.lt (h : Matches s) (hsmall : Small s) :
    s.stats.servicesRunning.toNat < 255 ∧ s.stats.servicesDead.toNat < 255 := by
  rw [h.running, h.dead]
  exact ⟨hsmall.countOf_lt _, hsmall.countOf_lt _⟩

theorem Matches.sub_one_iff (h : Matches s) (hslot : s.services[i]? = some svc₀) :
    (s.stats.servicesRunning - 1).toNat + one svc₀ .running = s.stats.servicesRunning.toNat + 0 ↔
      svc₀.state = .running := by
  by_cases hrunning : svc₀.state = .running
  · have hpos := h.pos hslot hrunning
    rw [one_self svc₀ hrunning, toNat_sub_one hpos]
    exact iff_of_true (by omega) hrunning
  · rw [one_other svc₀ hrunning]
    exact iff_of_false (sub_one_ne _) hrunning

theorem one_dead_of_running (h : svc₀.state = .running) : one svc₀ .dead = 0 :=
  one_other svc₀ (by rw [h]; exact nofun)

theorem Matches.doStart_iff (h : Matches s) (hsmall : Small s)
    (hslot : s.services[i]? = some svc₀) (hrunning : svc₀.state ≠ .running)
    (nowMs took : UInt32) :
    Matches (doStartService s i svc nowMs took).2.1 ↔ svc₀.state ≠ .dead := by
  rw [h.set_iff hslot (doStartService_services s i svc nowMs took), doStartService_stats,
    one_other svc₀ hrunning]
  have hstate := svc.afterStart_state nowMs took s.mpu
  have hlt := (h.lt hsmall).1
  generalize svc.afterStart nowMs took s.mpu = svc' at hstate
  have hcount : (if accepts s.mpu svc.desc then s.stats.started took
      else s.stats).servicesRunning.toNat =
        s.stats.servicesRunning.toNat + one svc' .running ∧
      (if accepts s.mpu svc.desc then s.stats.started took else s.stats).servicesDead =
        s.stats.servicesDead ∧ svc'.state ≠ .dead := by
    cases hacc : accepts s.mpu svc.desc with
    | true =>
      rw [hacc] at hstate
      rw [one_self svc' (show svc'.state = .running from hstate), hstate]
      exact ⟨toNat_add_one hlt, rfl, nofun⟩
    | false =>
      rw [hacc] at hstate
      rw [one_other svc' (by rw [hstate]; exact nofun), hstate]
      exact ⟨rfl, rfl, nofun⟩
  rw [hcount.1, hcount.2.1, one_other svc' hcount.2.2]
  constructor
  · rintro ⟨-, hzero⟩ hdead
    rw [one_self svc₀ hdead] at hzero
    omega
  · intro hdead
    rw [one_other svc₀ hdead]
    exact ⟨rfl, rfl⟩

theorem Matches.doStop_iff (h : Matches s) (hslot : s.services[i]? = some svc) (graceful : Bool)
    (nowMs : UInt32) : Matches (doStopService s i svc graceful nowMs).1 ↔ svc.state = .running := by
  have hset : (doStopService s i svc graceful nowMs).1.services = s.services.set i
      { svc with totalUptimeMs := svc.uptime nowMs, state := .init } := rfl
  rw [h.set_iff hslot hset]
  exact (and_congr_left fun _ => h.sub_one_iff hslot).trans
    (and_iff_left_of_imp fun hrunning => congrArg _ (one_dead_of_running hrunning))

theorem Matches.crash_iff (h : Matches s) (hsmall : Small s) (hslot : s.services[i]? = some svc₀)
    (reason : CrashReason) (nowMs took : UInt32) :
    Matches (handleCrash s i svc reason nowMs took).1 ↔ svc₀.state = .running := by
  have hless := h.sub_one_iff hslot
  rcases handleCrash_cases s i svc reason nowMs took with ⟨-, -, hs, -⟩ | ⟨-, hs, -⟩ |
    ⟨-, -, -, hs, -⟩
  · -- the service waits
    have hset : (handleCrash s i svc reason nowMs took).1.services =
        s.services.set i (svc.crash reason nowMs) := by
      rw [hs]
      rfl
    rw [h.set_iff hslot hset, hs]
    exact (and_congr_left fun _ => hless).trans
      (and_iff_left_of_imp fun hrunning => congrArg _ (one_dead_of_running hrunning))
  · -- the service is dead
    have hset : (handleCrash s i svc reason nowMs took).1.services =
        s.services.set i { svc.crash reason nowMs with state := .dead } := by
      rw [hs]
      exact set_set ..
    rw [h.set_iff hslot hset, hs]
    refine (and_congr_left fun _ => hless).trans (and_iff_left_of_imp fun hrunning => ?_)
    rw [one_dead_of_running hrunning]
    exact toNat_add_one (h.lt hsmall).2
  · -- the service starts at once
    have hset : (handleCrash s i svc reason nowMs took).1.services = s.services.set i
        ((svc.crash reason nowMs).afterStart nowMs took s.mpu) := by
      rw [hs, doStartService_services]
      exact set_set ..
    rw [h.set_iff hslot hset, hs, doStartService_stats]
    have hstate := (svc.crash reason nowMs).afterStart_state nowMs took s.mpu
    generalize (svc.crash reason nowMs).afterStart nowMs took s.mpu = svc' at hstate
    show (if accepts s.mpu (svc.crash reason nowMs).desc then
      (s.stats.crash reason).started took else s.stats.crash reason).servicesRunning.toNat + _ = _ ∧
      (if accepts s.mpu (svc.crash reason nowMs).desc then
      (s.stats.crash reason).started took else s.stats.crash reason).servicesDead.toNat + _ = _ ↔ _
    cases hacc : accepts s.mpu (svc.crash reason nowMs).desc with
    | true =>
      rw [hacc] at hstate
      have hrun : svc'.state = .running := hstate
      rw [one_self svc' hrun, one_dead_of_running hrun]
      show (s.stats.servicesRunning - 1 + 1).toNat + _ = _ ∧ s.stats.servicesDead.toNat + _ = _ ↔ _
      rw [UInt8.sub_add_cancel]
      by_cases hrunning : svc₀.state = .running
      · rw [one_self svc₀ hrunning, one_dead_of_running hrunning]
        exact iff_of_true ⟨rfl, rfl⟩ hrunning
      · rw [one_other svc₀ hrunning]
        exact iff_of_false (fun h' => absurd h'.1 (by omega)) hrunning
    | false =>
      rw [hacc] at hstate
      have hstart : svc'.state = .starting := hstate
      rw [one_other svc' (by rw [hstart]; exact nofun),
        one_other svc' (by rw [hstart]; exact nofun)]
      exact (and_congr_left fun _ => hless).trans
        (and_iff_left_of_imp fun hrunning => congrArg _ (one_dead_of_running hrunning))

/-! ## calls -/

def Guarded (s : Server) : Call → Prop
  | .stopService serviceId _ _ => ∀ i svc, Found s serviceId i svc → svc.state = .running
  | .restartService serviceId _ _ _ _ => ∀ i svc, Found s serviceId i svc → svc.state ≠ .dead
  | .reportCrash serviceId _ _ _ => ∀ i svc, Found s serviceId i svc → svc.state = .running
  | _ => True

theorem Matches.of_eq (h : Matches s) {s' : Server} (hservices : s'.services = s.services)
    (hrunning : s'.stats.servicesRunning = s.stats.servicesRunning)
    (hdead : s'.stats.servicesDead = s.stats.servicesDead) : Matches s' := by
  constructor
  · rw [hservices, hrunning]
    exact h.running
  · rw [hservices, hdead]
    exact h.dead

theorem Matches.put (h : Matches s) (hslot : s.services[i]? = some svc₀)
    (hstate : svc.state = svc₀.state) : Matches (s.put i svc) := by
  have hset : (s.put i svc).services = s.services.set i svc := rfl
  rw [h.set_iff hslot hset]
  unfold one
  rw [hstate]
  exact ⟨rfl, rfl⟩

/-- the call acts on a slot as `f` does -/
theorem matches_withService (h : Matches s) {P : ServiceInfo → Prop}
    (hf : ∀ i svc, s.services[i]? = some svc → (Matches (f i svc).1 ↔ P svc)) :
    Matches (withService s serviceId missing f).1 ↔ ∀ i svc, Found s serviceId i svc → P svc := by
  rcases withService_cases s serviceId missing f with ⟨hnone, heq⟩ | ⟨i, svc, hfound, heq⟩
  · rw [heq]
    exact iff_of_true h fun i svc hfound => absurd hfound (hnone i svc)
  · rw [heq, hf i svc hfound.2]
    constructor
    · intro hp j svc' hfound'
      rw [← (hfound.unique hfound').2]
      exact hp
    · intro hall
      exact hall i svc hfound

/-! ## loops -/

def Good (s : Server) : Prop := Matches s ∧ Small s

theorem Good.checkHeartbeat (h : Good s) (hslot : s.services[i]? = some svc) (nowMs : UInt32)
    (took : Nat → UInt32) : Good (checkHeartbeat nowMs took s i svc).1 := by
  unfold Jezgro.checkHeartbeat
  split_ifs with hrunning hover
  · exact h
  · dsimp only
    split_ifs
    · refine ⟨(h.1.crash_iff h.2 hslot _ _ _).mpr (not_not.mp hrunning), ?_⟩
      exact Nat.le_trans (Nat.le_of_eq (handleCrash_length ..)) h.2
    · exact ⟨h.1.put hslot rfl, Nat.le_trans (Nat.le_of_eq length_set) h.2⟩
  · exact h

theorem Good.checkPendingRestart (h : Good s) (hslot : s.services[i]? = some svc)
    (nowMs : UInt32) (took : Nat → UInt32) : Good (checkPendingRestart nowMs took s i svc).1 := by
  unfold Jezgro.checkPendingRestart
  split_ifs with hdue
  · have hcrashed : svc.state = .crashed := by
      unfold ServiceInfo.isDue at hdue
      rw [Bool.and_eq_true, beq_iff_eq] at hdue
      exact hdue.1
    refine ⟨(h.1.doStart_iff h.2 hslot (by rw [hcrashed]; exact nofun) _ _).mpr ?_, ?_⟩
    · rw [hcrashed]
      exact nofun
    · exact Nat.le_trans (Nat.le_of_eq (doStartService_length ..)) h.2
  · exact h

theorem Good.stopIfRunning (h : Good s) (hslot : s.services[i]? = some svc)
    (nowMs : Nat → UInt32) : Good (stopIfRunning nowMs s i svc).1 := by
  unfold Jezgro.stopIfRunning
  split_ifs with hrunning
  · exact ⟨(h.1.doStop_iff hslot true (nowMs i)).mpr hrunning,
      Nat.le_trans (Nat.le_of_eq length_set) h.2⟩
  · exact h

theorem Good.tick (h : Good s) (nowMs : UInt32) (took : Nat → UInt32) :
    Good (tick s nowMs took).1 := by
  have hbeats : Good (checkHeartbeats s nowMs took).1 := by
    unfold checkHeartbeats
    split_ifs
    · have hloop : Good (eachSlot (Jezgro.checkHeartbeat nowMs took) s s.slots).1 :=
        eachSlot_invariant (fun _ _ _ hslot hs => hs.checkHeartbeat hslot nowMs took) h _
      exact ⟨hloop.1.of_eq rfl rfl rfl, hloop.2⟩
    · exact h
  unfold Jezgro.tick
  split_ifs
  · exact h
  · exact eachSlot_invariant (fun _ _ _ hslot hs => hs.checkPendingRestart hslot nowMs took)
      hbeats _

theorem Good.rsStop (h : Good s) (nowMs : Nat → UInt32) : Good (rsStop s nowMs).1 :=
  eachSlot_invariant (I := Good) (fun _ _ _ hslot hs => hs.stopIfRunning hslot nowMs)
    (show Good { s with isRunning := false } from ⟨h.1.of_eq rfl rfl rfl, h.2⟩) _

/-! ## every call -/

theorem Good.startService (h : Good s) (hslot : s.services[i]? = some svc) (nowMs took : UInt32) :
    Good (startService s i svc nowMs took).2.1 := by
  unfold Jezgro.startService
  split_ifs with hrunning hdead
  · exact h
  · exact h
  · exact ⟨(h.1.doStart_iff h.2 hslot hrunning _ _).mpr hdead,
      Nat.le_trans (Nat.le_of_eq (doStartService_length ..)) h.2⟩

theorem Matches.restart_iff (h : Good s) (hslot : s.services[i]? = some svc)
    (stopMs crashMs nowMs took : UInt32) :
    Matches (restartService s i svc stopMs crashMs nowMs took).2.1 ↔ svc.state ≠ .dead := by
  unfold restartService
  split_ifs with hrunning
  · -- the slot is stopped first
    have hlt := (List.getElem?_eq_some_iff.mp hslot).1
    have hstop := (h.1.doStop_iff hslot false stopMs).mpr hrunning
    have hslot' : (doStopService s i svc false stopMs).1.services[i]? =
        some { svc with totalUptimeMs := svc.uptime stopMs, state := .init } := by
      exact getElem?_set_self hlt
    have hsmall : Small (doStopService s i svc false stopMs).1 :=
      Nat.le_trans (Nat.le_of_eq length_set) h.2
    rw [hrunning]
    exact iff_of_true ((hstop.doStart_iff hsmall hslot' nofun _ _).mpr nofun) nofun
  · exact h.1.doStart_iff h.2 hslot hrunning _ _

theorem restartService_length (s : Server) (i : Nat) (svc : ServiceInfo)
    (stopMs crashMs nowMs took : UInt32) :
    (restartService s i svc stopMs crashMs nowMs took).2.1.services.length =
      s.services.length := by
  unfold restartService
  split_ifs
  · exact (doStartService_length ..).trans length_set
  · exact doStartService_length ..

/-- **Step.** A call keeps the counters right exactly when it is guarded. -/
theorem matches_call_iff (h : Good s) (c : Call) : Matches (call s c).1 ↔ Guarded s c := by
  cases c with
  | start nowMs => exact iff_of_true (h.1.of_eq rfl rfl rfl) trivial
  | stop nowMs => exact iff_of_true (h.rsStop nowMs).1 trivial
  | registerService desc critical autoRestart =>
    refine iff_of_true ?_ trivial
    show Matches (rsRegisterService s desc critical autoRestart).2
    unfold rsRegisterService
    split_ifs
    · exact h.1
    · have happ := countOf_append s.services (newService desc critical autoRestart)
      exact ⟨h.1.running.trans (happ .running).symm, h.1.dead.trans (happ .dead).symm⟩
  | startService serviceId nowMs took =>
    have hslots (i : Nat) (svc : ServiceInfo) (hslot : s.services[i]? = some svc) :
        Matches (withResult (startService s i svc nowMs took)).1 ↔ True :=
      iff_of_true (h.startService hslot nowMs took).1 trivial
    exact iff_of_true ((matches_withService h.1 hslots).mpr fun _ _ _ => trivial) trivial
  | stopService serviceId graceful nowMs =>
    exact matches_withService h.1 fun i svc hslot => h.1.doStop_iff hslot graceful nowMs
  | restartService serviceId stopMs crashMs nowMs took =>
    exact matches_withService h.1 fun i svc hslot =>
      Matches.restart_iff h hslot stopMs crashMs nowMs took
  | tick nowMs took => exact iff_of_true (h.tick nowMs took).1 trivial
  | heartbeat serviceId nowMs =>
    have hslots (i : Nat) (svc : ServiceInfo) (hslot : s.services[i]? = some svc) :
        Matches (s.put i (svc.heard nowMs)) ↔ True :=
      iff_of_true (h.1.put hslot rfl) trivial
    exact iff_of_true ((matches_withService h.1 hslots).mpr fun _ _ _ => trivial) trivial
  | reportCrash serviceId reason nowMs took =>
    exact matches_withService h.1 fun i svc hslot => h.1.crash_iff h.2 hslot reason nowMs took
  | setCrashCallback installed => exact iff_of_true (h.1.of_eq rfl rfl rfl) trivial
  | resetStats => exact iff_of_true (h.1.of_eq rfl rfl rfl) trivial

theorem small_withService (h : Small s)
    (hf : ∀ i svc, (f i svc).1.services.length = s.services.length) :
    Small (withService s serviceId missing f).1 := by
  rcases withService_cases s serviceId missing f with ⟨-, heq⟩ | ⟨i, svc, -, heq⟩
  · rw [heq]
    exact h
  · rw [heq]
    exact Nat.le_trans (Nat.le_of_eq (hf i svc)) h

theorem Good.small_call (h : Good s) (c : Call) : Small (call s c).1 := by
  cases c with
  | start nowMs => exact h.2
  | stop nowMs => exact (h.rsStop nowMs).2
  | registerService desc critical autoRestart =>
    show Small (rsRegisterService s desc critical autoRestart).2
    unfold rsRegisterService
    split_ifs with hfull
    · exact h.2
    · show (s.services ++ [_]).length ≤ _
      rw [length_append]
      exact Nat.lt_of_not_le hfull
  | startService serviceId nowMs took =>
    refine small_withService h.2 fun i svc => ?_
    unfold Jezgro.startService
    split_ifs
    · rfl
    · rfl
    · exact doStartService_length ..
  | stopService serviceId graceful nowMs =>
    exact small_withService h.2 fun i svc => length_set
  | restartService serviceId stopMs crashMs nowMs took =>
    exact small_withService h.2 fun i svc => restartService_length ..
  | tick nowMs took => exact (h.tick nowMs took).2
  | heartbeat serviceId nowMs => exact small_withService h.2 fun i svc => length_set
  | reportCrash serviceId reason nowMs took =>
    exact small_withService h.2 fun i svc => handleCrash_length ..
  | setCrashCallback installed => exact h.2
  | resetStats => exact h.2

/-! ## runs -/

theorem good_start : Good server.start := ⟨⟨rfl, rfl⟩, Nat.zero_le _⟩

/-- **Main.** The counters are right after every call of a run exactly when every call is
guarded. -/
theorem matches_iff (calls : List Call) :
    (∀ past, past <+: calls → Matches (server.run past)) ↔
      Runs.EveryStep (fun past c => Guarded (server.run past) c) calls := by
  refine Runs.everyPrefix_iff good_start.1 (fun past c hall => ?_) calls
  have hgood : Good (server.run past) := by
    refine Runs.history_induction (P := fun front e => Matches (server.run (front ++ [e])))
      (I := fun front => Good (server.run front)) good_start ?_ past fun _ _ hfront => hall _ hfront
    intro front e hfront hmatch
    refine ⟨hmatch, ?_⟩
    rw [Machine.run_concat]
    exact hfront.small_call e
  rw [Machine.run_concat]
  exact matches_call_iff hgood c

/-- a service that was never started is stopped: 255 services are running -/
theorem not_matches_stopUnstarted :
    ¬ Matches (server.run [.registerService (userService 1 0x08010000 0x20004000) false true,
      .stopService 1 true 7]) := by
  intro h
  exact absurd h.running (by decide +kernel)

end Jezgro
end EkKor
