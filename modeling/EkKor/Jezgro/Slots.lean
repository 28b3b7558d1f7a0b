import Mathlib.Data.List.Count
import Mathlib.Tactic.Common
import EkKor.Jezgro.Reincarnation

/-!
# The slots of the reincarnation server

What each operation does to the slot of a service, to the counters and to the protection unit.

* `accepts`              the unit has room for a service;
* `doStartService_…`     a start, by what it accepts;
* `handleCrash_cases`    the outcomes of a crash;
* `eachSlot_invariant`, `eachSlot_at`   the loops;
* `withService_cases`    the calls with an id.
-/

namespace EkKor
namespace Jezgro
open List

/-! ## the unit -/

def accepts (m : Mpu) (desc : ServiceDesc) : Bool := desc.id ≠ 0 && m.contexts.length < 2

theorem registerService_of_accepts {m : Mpu} {desc : ServiceDesc} (h : accepts m desc = true) :
    ∃ m', registerService m desc = (.ok (), m') ∧ m'.contexts = m.contexts ++ [contextOf desc] := by
  unfold accepts at h
  rw [Bool.and_eq_true, decide_eq_true_iff, decide_eq_true_iff] at h
  have hregion : ¬ 4 + m.contexts.length * 2 ≥ 8 := by omega
  unfold registerService
  rw [if_neg h.1, if_neg (Nat.not_le.mpr (Nat.lt_succ_of_lt h.2))]
  rw [if_neg hregion]
  refine ⟨_, rfl, ?_⟩
  unfold configureRegion
  split_ifs <;> rfl

theorem registerService_of_not_accepts {m : Mpu} {desc : ServiceDesc}
    (h : accepts m desc = false) : ∃ err, registerService m desc = (.error err, m) := by
  unfold registerService
  dsimp only
  split_ifs with hid hcount hregion
  · exact ⟨_, rfl⟩
  · exact ⟨_, rfl⟩
  · exact ⟨_, rfl⟩
  · have hlt : ¬ 4 + m.contexts.length * 2 ≥ 8 := hregion
    unfold accepts at h
    rw [Bool.and_eq_false_iff, decide_eq_false_iff_not, decide_eq_false_iff_not] at h
    rcases h with hzero | hfull
    · exact absurd hid hzero
    · omega

theorem contexts_switchContext (m : Mpu) (serviceId : UInt8) :
    (switchContext m serviceId).2.contexts = m.contexts := by
  unfold switchContext
  split_ifs
  · rfl
  · cases m.findContext serviceId with
    | none => rfl
    | some ctx =>
      dsimp only
      unfold configureRegion
      split_ifs <;> rfl

/-! ## a start -/

section
variable (s : Server) (i : Nat) (svc : ServiceInfo) (nowMs took : UInt32)

def ServiceInfo.afterStart (m : Mpu) : ServiceInfo :=
  if accepts m svc.desc then svc.started nowMs took else { svc with state := .starting }

theorem doStartService_services : (doStartService s i svc nowMs took).2.1.services =
    s.services.set i (svc.afterStart nowMs took s.mpu) := by
  unfold doStartService ServiceInfo.afterStart
  cases hacc : accepts s.mpu svc.desc with
  | true =>
    obtain ⟨m', hm', -⟩ := registerService_of_accepts hacc
    rw [hm']
    rfl
  | false =>
    obtain ⟨err, herr⟩ := registerService_of_not_accepts hacc
    rw [herr]
    rfl

theorem doStartService_stats : (doStartService s i svc nowMs took).2.1.stats =
    if accepts s.mpu svc.desc then s.stats.started took else s.stats := by
  unfold doStartService
  cases hacc : accepts s.mpu svc.desc with
  | true =>
    obtain ⟨m', hm', -⟩ := registerService_of_accepts hacc
    rw [hm']
    rfl
  | false =>
    obtain ⟨err, herr⟩ := registerService_of_not_accepts hacc
    rw [herr]
    rfl

theorem doStartService_contexts :
    (doStartService s i svc nowMs took).2.1.mpu.contexts.length =
      s.mpu.contexts.length + if accepts s.mpu svc.desc then 1 else 0 := by
  unfold doStartService
  cases hacc : accepts s.mpu svc.desc with
  | true =>
    obtain ⟨m', hm', hctx⟩ := registerService_of_accepts hacc
    rw [hm']
    rw [contexts_switchContext, hctx, length_append]
    rfl
  | false =>
    obtain ⟨err, herr⟩ := registerService_of_not_accepts hacc
    rw [herr]
    rfl

theorem doStartService_starting (j : Nat) :
    .starting j ∈ (doStartService s i svc nowMs took).2.2 ↔ j = i := by
  unfold doStartService
  cases hacc : accepts s.mpu svc.desc with
  | true =>
    obtain ⟨m', hm', -⟩ := registerService_of_accepts hacc
    rw [hm']
    simp
  | false =>
    obtain ⟨err, herr⟩ := registerService_of_not_accepts hacc
    rw [herr]
    simp

end

section
variable {s : Server} {i : Nat} {svc : ServiceInfo}

theorem ServiceInfo.afterStart_desc (svc : ServiceInfo) (nowMs took : UInt32) (m : Mpu) :
    (svc.afterStart nowMs took m).desc = svc.desc := by
  unfold ServiceInfo.afterStart
  cases accepts m svc.desc <;> rfl

theorem ServiceInfo.afterStart_state (svc : ServiceInfo) (nowMs took : UInt32) (m : Mpu) :
    (svc.afterStart nowMs took m).state =
      if accepts m svc.desc then .running else .starting := by
  unfold ServiceInfo.afterStart
  cases accepts m svc.desc <;> rfl

/-! ## a crash -/

theorem ServiceInfo.backoffMs_eq_zero (svc : ServiceInfo) :
    svc.backoffMs = 0 ↔ svc.consecutiveCrashes = 0 := by
  have hlt := svc.consecutiveCrashes.toNat_lt
  have hback : svc.backoffMs.toNat = 100 * svc.consecutiveCrashes.toNat := by
    unfold ServiceInfo.backoffMs
    rw [UInt32.toNat_mul, UInt8.toNat_toUInt32]
    exact Nat.mod_eq_of_lt (show 100 * _ < 4294967296 by omega)
  rw [← UInt32.toNat_inj, ← UInt8.toNat_inj, hback, UInt32.toNat_zero, UInt8.toNat_zero]
  omega

def ServiceInfo.wraps (svc : ServiceInfo) : Bool := svc.consecutiveCrashes + 1 == 0

def ServiceInfo.dies (svc : ServiceInfo) : Bool :=
  svc.autoRestart && svc.consecutiveCrashes + 1 ≥ maxRestartAttempts

/-- **A crash.** The service waits for its backoff or for ever, or it is dead, or it starts. -/
theorem handleCrash_cases (s : Server) (i : Nat) (svc : ServiceInfo) (reason : CrashReason)
    (nowMs took : UInt32) :
    (svc.dies = false ∧ (svc.autoRestart = true → svc.wraps = false) ∧
      (handleCrash s i svc reason nowMs took).1 =
        { s.put i (svc.crash reason nowMs) with stats := s.stats.crash reason } ∧
      ∀ j, .starting j ∉ (handleCrash s i svc reason nowMs took).2) ∨
    (svc.dies = true ∧
      (handleCrash s i svc reason nowMs took).1 =
        { (s.put i (svc.crash reason nowMs)).put i
            { svc.crash reason nowMs with state := .dead } with
          stats := { s.stats.crash reason with
            servicesDead := (s.stats.crash reason).servicesDead + 1 } } ∧
      ∀ j, .starting j ∉ (handleCrash s i svc reason nowMs took).2) ∨
    (svc.dies = false ∧ svc.autoRestart = true ∧ svc.wraps = true ∧
      (handleCrash s i svc reason nowMs took).1 =
        (doStartService { s.put i (svc.crash reason nowMs) with stats := s.stats.crash reason } i
          (svc.crash reason nowMs) nowMs took).2.1 ∧
      ∀ j, .starting j ∈ (handleCrash s i svc reason nowMs took).2 ↔ j = i) := by
  have hout (j : Nat) : .starting j ∉
      if s.crashCallback then [Output.crashed svc.id reason] else [] := by
    cases s.crashCallback <;> simp
  have hback := (svc.crash reason nowMs).backoffMs_eq_zero
  unfold handleCrash ServiceInfo.dies ServiceInfo.wraps
  cases hauto : svc.autoRestart with
  | false =>
    rw [if_pos (by show (!svc.autoRestart) = true; rw [hauto]; rfl)]
    exact .inl ⟨rfl, nofun, rfl, hout⟩
  | true =>
    rw [if_neg (by show ¬ (!svc.autoRestart) = true; rw [hauto]; exact nofun)]
    by_cases hmax : svc.consecutiveCrashes + 1 ≥ maxRestartAttempts
    · rw [if_pos (show (svc.crash reason nowMs).consecutiveCrashes ≥ _ from hmax)]
      exact .inr (.inl ⟨decide_eq_true hmax, rfl, hout⟩)
    · rw [if_neg (show ¬ (svc.crash reason nowMs).consecutiveCrashes ≥ _ from hmax)]
      by_cases hzero : svc.consecutiveCrashes + 1 = 0
      · rw [if_pos (hback.mpr hzero)]
        refine .inr (.inr ⟨decide_eq_false hmax, rfl, beq_iff_eq.mpr hzero, rfl, fun j => ?_⟩)
        rw [mem_append, doStartService_starting]
        exact or_iff_right (hout j)
      · rw [if_neg (fun h => hzero (hback.mp h))]
        exact .inl ⟨decide_eq_false hmax, fun _ => beq_eq_false_iff_ne.mpr hzero, rfl, hout⟩

theorem doStartService_length (s : Server) (i : Nat) (svc : ServiceInfo) (nowMs took : UInt32) :
    (doStartService s i svc nowMs took).2.1.services.length = s.services.length := by
  rw [doStartService_services]
  exact length_set

theorem handleCrash_length (s : Server) (i : Nat) (svc : ServiceInfo) (reason : CrashReason)
    (nowMs took : UInt32) :
    (handleCrash s i svc reason nowMs took).1.services.length = s.services.length := by
  rcases handleCrash_cases s i svc reason nowMs took with ⟨-, -, hs, -⟩ | ⟨-, hs, -⟩ |
    ⟨-, -, -, hs, -⟩
  · rw [hs]
    exact length_set
  · rw [hs]
    exact length_set.trans length_set
  · rw [hs, doStartService_length]
    exact length_set

end

/-! ## loops -/

section
variable {body : Server → Nat → ServiceInfo → Server × List Output}

theorem eachSlot_invariant {I : Server → Prop}
    (hbody : ∀ s i svc, s.services[i]? = some svc → I s → I (body s i svc).1) {s : Server}
    (h : I s) (slots : List Nat) : I (eachSlot body s slots).1 := by
  induction slots generalizing s with
  | nil => exact h
  | cons i rest ih =>
    unfold eachSlot
    cases hsvc : s.services[i]? with
    | none => exact ih h
    | some svc => exact ih (hbody s i svc hsvc h)

/-- the body acts on its slot only -/
structure Local (body : Server → Nat → ServiceInfo → Server × List Output) : Prop where
  frame : ∀ s i svc j, j ≠ i → (body s i svc).1.services[j]? = s.services[j]?
  outs : ∀ s i svc j, .starting j ∈ (body s i svc).2 → j = i

theorem eachSlot_frame (hbody : Local body) (s : Server) {slots : List Nat} {j : Nat}
    (hj : j ∉ slots) : (eachSlot body s slots).1.services[j]? = s.services[j]? ∧
      .starting j ∉ (eachSlot body s slots).2 := by
  induction slots generalizing s with
  | nil => exact ⟨rfl, not_mem_nil⟩
  | cons i rest ih =>
    obtain ⟨hne, hrest⟩ := ne_and_not_mem_of_not_mem_cons hj
    unfold eachSlot
    cases hsvc : s.services[i]? with
    | none => exact ih s hrest
    | some svc =>
      obtain ⟨h1, h2⟩ := ih (body s i svc).1 hrest
      refine ⟨h1.trans (hbody.frame s i svc j hne), ?_⟩
      rw [mem_append, not_or]
      exact ⟨fun h => hne (hbody.outs s i svc j h), h2⟩

theorem eachSlot_at (hbody : Local body) (s : Server) {slots : List Nat} (hnodup : slots.Nodup)
    {j : Nat} (hj : j ∈ slots) {svc : ServiceInfo} (hsvc : s.services[j]? = some svc) :
    ∃ s', s'.services[j]? = some svc ∧
      (eachSlot body s slots).1.services[j]? = (body s' j svc).1.services[j]? ∧
      (.starting j ∈ (eachSlot body s slots).2 ↔ .starting j ∈ (body s' j svc).2) := by
  induction slots generalizing s with
  | nil => exact absurd hj not_mem_nil
  | cons i rest ih =>
    obtain ⟨hi, hnodup⟩ := nodup_cons.mp hnodup
    unfold eachSlot
    by_cases hji : j = i
    · subst hji
      rw [hsvc]
      obtain ⟨h1, h2⟩ := eachSlot_frame hbody (body s j svc).1 hi
      refine ⟨s, hsvc, h1, ?_⟩
      rw [mem_append]
      exact or_iff_left h2
    · have hj' : j ∈ rest := (mem_cons.mp hj).resolve_left hji
      cases hsvc' : s.services[i]? with
      | none => exact ih s hnodup hj' hsvc
      | some other =>
        obtain ⟨s', hs', h1, h2⟩ := ih (body s i other).1 hnodup hj'
          ((hbody.frame s i other j hji).trans hsvc)
        refine ⟨s', hs', h1, ?_⟩
        rw [mem_append, or_iff_right fun h => hji (hbody.outs s i other j h)]
        exact h2

end

/-! ## calls with an id -/

def Found (s : Server) (serviceId : UInt8) (i : Nat) (svc : ServiceInfo) : Prop :=
  findService s serviceId = some i ∧ s.services[i]? = some svc

theorem Found.id_eq {s : Server} {serviceId : UInt8} {i : Nat} {svc : ServiceInfo}
    (h : Found s serviceId i svc) : svc.id = serviceId := by
  obtain ⟨hi, hsvc⟩ := h
  obtain ⟨hlt, hp, -⟩ := findIdx?_eq_some_iff_getElem.mp hi
  rw [getElem?_eq_getElem hlt, Option.some.injEq] at hsvc
  rw [← hsvc]
  exact beq_iff_eq.mp hp

theorem Found.unique {s : Server} {serviceId : UInt8} {i j : Nat} {svc svc' : ServiceInfo}
    (h : Found s serviceId i svc) (h' : Found s serviceId j svc') : i = j ∧ svc = svc' := by
  obtain rfl : i = j := Option.some.inj (h.1.symm.trans h'.1)
  exact ⟨rfl, Option.some.inj (h.2.symm.trans h'.2)⟩

theorem withService_cases (s : Server) (serviceId : UInt8) (missing : List Output)
    (f : Nat → ServiceInfo → Server × List Output) :
    ((∀ i svc, ¬ Found s serviceId i svc) ∧
      withService s serviceId missing f = (s, missing)) ∨
    ∃ i svc, Found s serviceId i svc ∧ withService s serviceId missing f = f i svc := by
  unfold withService Found
  cases hi : findService s serviceId with
  | none => exact .inl ⟨fun i svc h => (nomatch h.1), rfl⟩
  | some i =>
    dsimp only
    cases hsvc : s.services[i]? with
    | none =>
      refine .inl ⟨fun j svc h => ?_, rfl⟩
      rw [← Option.some.inj h.1, hsvc] at h
      exact nomatch h.2
    | some svc => exact .inr ⟨i, svc, ⟨rfl, hsvc⟩, rfl⟩

end Jezgro
end EkKor
