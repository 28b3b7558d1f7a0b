import EkKor.Lib.Runs
import EkKor.Partition.Model

/-!
# What every partition context keeps

The calls on one partition context after its initialisation, the ticks in order of time.

* `Sound`          freeze, ramp, power factor and permissions agree with the state;
* `SoundStep`      one call ends in a sound context and lowers neither epoch counter;
* `RoomForEpoch`   the call does not confirm a majority at the last 32-bit epoch;
* `sound_iff`      a run is sound throughout exactly when each of its calls has room for its epoch;
* `epoch_wraps`    a context that adopts the last epoch and then confirms a majority.

The ramp is a 64-bit product cut to 32 bits, so it is only bounded while the time since the last
tick is: in `reconciling` that time is at most the time in the state, and after 10 s in the state
the tick replaces the ramp.
-/

namespace EkKor
namespace Partition
open Runs List

/-! ## runs -/

/-- the calls on a context that starts as `start` -/
def machine (start : Ctx) : Machine Ctx Event Unit := ⟨start, fun ctx e => (next ctx e, [])⟩

theorem machine_next (start ctx : Ctx) (e : Event) : (machine start).next ctx e = next ctx e := rfl

def tickTimes (es : List Event) : List TimeUs :=
  es.filterMap fun
    | .tick now => some now
    | _ => none

/-- no second initialisation, and the ticks come after time 0 in order of time -/
structure Timed (es : List Event) : Prop where
  noInit : ∀ totalModules, .init totalModules ∉ es
  sorted : (tickTimes es).Pairwise (· ≤ ·)
  positive : ∀ now ∈ tickTimes es, 0 < now

theorem tickTimes_concat (es : List Event) (e : Event) :
    tickTimes (es ++ [e]) = tickTimes es ++ tickTimes [e] := filterMap_append

variable {es : List Event} {e : Event} {now last elapsedUs elapsed timeInState : TimeUs} {ctx : Ctx}
  {newState : State}

theorem Timed.initial (h : Timed (es ++ [e])) : Timed es := by
  have hs := h.sorted
  rw [tickTimes_concat, pairwise_append] at hs
  refine ⟨fun n hn => h.noInit n (mem_append_left _ hn), hs.1, fun now hnow => ?_⟩
  refine h.positive now ?_
  rw [tickTimes_concat]
  exact mem_append_left _ hnow

theorem Timed.prefix_of {es' : List Event} (h : Timed es) (hp : es' <+: es) : Timed es' := by
  obtain ⟨rest, rfl⟩ := hp
  induction rest using List.reverseRecOn with
  | nil =>
    rw [append_nil] at h
    exact h
  | append_singleton rest e ih =>
    rw [← append_assoc] at h
    exact ih h.initial

def lastTime (es : List Event) : TimeUs := (tickTimes es).getLastD 0

theorem lastTime_tick (es : List Event) (now : TimeUs) : lastTime (es ++ [.tick now]) = now := by
  rw [lastTime, tickTimes_concat]
  show (tickTimes es ++ [now]).getLastD 0 = now
  rw [getLastD_concat]

theorem Timed.lastTime_le (h : Timed (es ++ [.tick now])) : lastTime es ≤ now := by
  have hs := h.sorted
  rw [tickTimes_concat, pairwise_append] at hs
  rw [lastTime]
  rcases eq_nil_or_concat (tickTimes es) with hnil | ⟨before, last, hlast⟩
  · rw [hnil]
    exact UInt64.zero_le
  · rw [hlast, concat_eq_append, getLastD_concat]
    refine hs.2.2 last ?_ now (mem_singleton_self now)
    rw [hlast, concat_eq_append]
    exact mem_append_right _ (mem_singleton_self last)

/-! ## the properties -/

/-- what holds of a context after every call -/
structure Sound (ctx : Ctx) : Prop where
  freeze : ctx.freezeActive = true ↔ ctx.state = .minority
  ramp : 0 ≤ ctx.powerRampFactor ∧ ctx.powerRampFactor ≤ one
  power : 0 ≤ getPowerFactor ctx ∧ getPowerFactor ctx ≤ one
  frozen : ctx.state = .minority → getPowerFactor ctx = 0
  permissions : ctx.state = .minority ∨ ctx.state = .reconciling →
    canVote ctx = false ∧ canElect ctx = false

/-- what one call does: the context after it is sound, and no epoch counter went down -/
structure SoundStep (ctx ctx' : Ctx) : Prop where
  sound : Sound ctx'
  epoch : ctx.epoch ≤ ctx'.epoch
  observed : ctx.maxObservedEpoch ≤ ctx'.maxObservedEpoch

def Confirms (ctx : Ctx) (now : TimeUs) : Prop :=
  ctx.state = .suspecting ∧ now - ctx.suspectingStart ≥ confirmTimeoutUs ∧
    ctx.visibleCount ≥ ctx.quorumSize

instance (ctx : Ctx) (now : TimeUs) : Decidable (Confirms ctx now) :=
  inferInstanceAs (Decidable (_ ∧ _ ∧ _))

def RoomForEpoch (ctx : Ctx) : Event → Prop
  | .tick now => Confirms ctx now → ctx.epoch ≠ 0xFFFFFFFF
  | _ => True

instance (ctx : Ctx) : (e : Event) → Decidable (RoomForEpoch ctx e)
  | .tick now => inferInstanceAs (Decidable (Confirms ctx now → ctx.epoch ≠ 0xFFFFFFFF))
  | .init _ => .isTrue trivial
  | .visibilityChange _ => .isTrue trivial
  | .epochReceived _ => .isTrue trivial
  | .syncReceived => .isTrue trivial

/-! ## the invariant -/

/-- what the calls keep, at the time `last` of the last tick -/
structure Steady (ctx : Ctx) (last : TimeUs) : Prop where
  tick : ctx.lastTick = last
  target : ctx.targetPowerFactor = one
  entered : ctx.state = .reconciling → ctx.stateEnterTime ≤ last
  freeze : ctx.freezeActive = true ↔ ctx.state = .minority
  ramp : 0 ≤ ctx.powerRampFactor ∧ ctx.powerRampFactor ≤ one

theorem full_bounds : (0 : Int32) ≤ one ∧ one ≤ one := by decide

theorem zero_bounds : (0 : Int32) ≤ 0 ∧ 0 ≤ one := by decide

theorem Steady.sound (h : Steady ctx last) : Sound ctx := by
  have hramp := h.ramp
  refine ⟨h.freeze, hramp, ?_, ?_, ?_⟩
  · unfold getPowerFactor
    cases ctx.state with
    | healthy => exact full_bounds
    | suspecting => exact full_bounds
    | majority => exact full_bounds
    | minority => exact zero_bounds
    | reconciling => exact hramp
  · intro hs
    rw [getPowerFactor, hs]
  · rintro (hs | hs)
    · rw [canVote, canElect, hs]
      exact ⟨rfl, rfl⟩
    · rw [canVote, canElect, hs]
      exact ⟨rfl, rfl⟩

theorem init_steady {totalModules : UInt32} (h : init totalModules = .ok ctx) : Steady ctx 0 := by
  unfold init at h
  split at h
  · cases h
  · cases h
    exact ⟨rfl, rfl, fun hs => State.noConfusion hs, by simp, full_bounds⟩

/-! ## transitions -/

theorem transition_state (ctx : Ctx) (newState : State) (now : TimeUs) :
    (transition ctx newState now).state = newState := by
  unfold transition
  split_ifs with hs
  · exact hs
  · cases newState <;> rfl

theorem transition_steady (hsame : ctx.state = newState → Steady ctx now)
    (htick : ctx.lastTick = now) (htarget : ctx.targetPowerFactor = one) (hramp : newState =
    .suspecting → ctx.freezeActive = false ∧ 0 ≤ ctx.powerRampFactor ∧ ctx.powerRampFactor ≤ one) :
    Steady (transition ctx newState now) now := by
  unfold transition
  split_ifs with hs
  · exact hsame hs
  · cases newState with
    | healthy => exact ⟨htick, rfl, fun h => State.noConfusion h, by simp, full_bounds⟩
    | suspecting =>
      obtain ⟨hfreeze, hr⟩ := hramp rfl
      exact ⟨htick, htarget, fun h => State.noConfusion h, by simp [hfreeze], hr⟩
    | majority => exact ⟨htick, htarget, fun h => State.noConfusion h, by simp, full_bounds⟩
    | minority => exact ⟨htick, htarget, fun h => State.noConfusion h, by simp, zero_bounds⟩
    | reconciling => exact ⟨htick, rfl, fun _ => UInt64.le_refl now, by simp, zero_bounds⟩

theorem transition_epoch (ctx : Ctx) (newState : State) (now : TimeUs) :
    (transition ctx newState now).epoch =
      if newState = .majority ∧ ctx.state ≠ .majority then ctx.epoch + 1 else ctx.epoch := by
  unfold transition
  by_cases hs : ctx.state = newState
  · rw [if_pos hs, if_neg]
    rintro ⟨h1, h2⟩
    exact h2 (hs.trans h1)
  · rw [if_neg hs]
    cases newState with
    | majority =>
      rw [if_pos ⟨rfl, hs⟩]
    | healthy => rfl
    | suspecting => rfl
    | minority => rfl
    | reconciling => rfl

theorem transition_observed (ctx : Ctx) (newState : State) (now : TimeUs) :
    (transition ctx newState now).maxObservedEpoch = ctx.maxObservedEpoch := by
  unfold transition
  split_ifs
  · rfl
  · cases newState <;> rfl

/-! ## the ramp -/

theorem updatePowerRamp_eq (ctx : Ctx) (elapsedUs : TimeUs) :
    updatePowerRamp ctx elapsedUs =
      { ctx with powerRampFactor := (updatePowerRamp ctx elapsedUs).powerRampFactor } := by
  unfold updatePowerRamp
  split_ifs <;> rfl

theorem increment_toInt (h : elapsedUs < recoveryMaxUs) :
    (powerRampRate * elapsedUs / 1000000).toUInt32.toInt32.toInt
      = ((6553 * elapsedUs.toNat / 1000000 : Nat) : Int) := by
  have h' : elapsedUs.toNat < 10000000 := UInt64.lt_iff_toNat_lt.mp h
  have hnat : (powerRampRate * elapsedUs / 1000000).toUInt32.toNat
      = 6553 * elapsedUs.toNat / 1000000 := by
    show 6553 * elapsedUs.toNat % 2 ^ 64 / 1000000 % 2 ^ 32 = _
    have hprod : 6553 * elapsedUs.toNat % 2 ^ 64 = 6553 * elapsedUs.toNat :=
      Nat.mod_eq_of_lt (by omega)
    rw [hprod, Nat.mod_eq_of_lt (by omega)]
  rw [← hnat]
  show (powerRampRate * elapsedUs / 1000000).toUInt32.toBitVec.toInt = _
  rw [BitVec.toInt_eq_toNat_of_lt
    (by show 2 * (powerRampRate * elapsedUs / 1000000).toUInt32.toNat < _; omega)]
  rfl

theorem increment_bound (h : elapsedUs < recoveryMaxUs) :
    0 ≤ (powerRampRate * elapsedUs / 1000000).toUInt32.toInt32 ∧
      (powerRampRate * elapsedUs / 1000000).toUInt32.toInt32 ≤ 65530 := by
  have h' : elapsedUs.toNat < 10000000 := UInt64.lt_iff_toNat_lt.mp h
  rw [Int32.le_iff_toInt_le, Int32.le_iff_toInt_le, increment_toInt h]
  constructor
  · exact Int.natCast_nonneg _
  · show ((6553 * elapsedUs.toNat / 1000000 : Nat) : Int) ≤ 65530
    omega

theorem updatePowerRamp_bound (h : elapsedUs < recoveryMaxUs)
    (htarget : ctx.targetPowerFactor = one)
    (hramp : 0 ≤ ctx.powerRampFactor ∧ ctx.powerRampFactor ≤ one) :
    0 ≤ (updatePowerRamp ctx elapsedUs).powerRampFactor ∧
      (updatePowerRamp ctx elapsedUs).powerRampFactor ≤ one := by
  obtain ⟨h1, h2⟩ := increment_bound h
  have hone := full_bounds
  unfold updatePowerRamp
  rw [htarget]
  split_ifs with hfull
  · exact hone
  · dsimp only
    split_ifs with hover
    · exact hone
    · grind

/-! ## ticks -/

theorem tick_healthy (now : TimeUs) (hs : ctx.state = .healthy) :
    tick ctx now =
      if ctx.visibleCount < ctx.quorumSize then
        transition { ctx with lastTick := now } .suspecting now
      else { ctx with lastTick := now } := by
  unfold tick
  simp only [hs]

theorem tick_suspecting (now : TimeUs) (hs : ctx.state = .suspecting) :
    tick ctx now =
      if now - ctx.suspectingStart ≥ confirmTimeoutUs then
        if ctx.visibleCount ≥ ctx.quorumSize then
          transition { ctx with lastTick := now } .majority now
        else transition { ctx with lastTick := now } .minority now
      else if ctx.visibleCount ≥ ctx.quorumSize then
        transition { ctx with lastTick := now } .healthy now
      else { ctx with lastTick := now } := by
  unfold tick
  simp only [hs]

theorem tick_majority (now : TimeUs) (hs : ctx.state = .majority) :
    tick ctx now =
      if ctx.visibleCount ≥ ctx.totalModules then
        transition { ctx with lastTick := now } .healthy now
      else if ctx.visibleCount < ctx.quorumSize then
        transition { ctx with lastTick := now } .suspecting now
      else { ctx with lastTick := now } := by
  unfold tick
  simp only [hs]

theorem tick_minority (now : TimeUs) (hs : ctx.state = .minority) :
    tick ctx now =
      if ctx.maxObservedEpoch > ctx.epoch then
        transition { ctx with lastTick := now } .reconciling now
      else { ctx with lastTick := now } := by
  unfold tick
  simp only [hs]

theorem tick_reconciling (now : TimeUs) (hs : ctx.state = .reconciling) :
    tick ctx now =
      tickReconciling { ctx with lastTick := now } (now - ctx.lastTick)
        (now - ctx.stateEnterTime) now := by
  unfold tick
  simp only [hs]

theorem adoptEpoch_eq (ctx : Ctx) :
    adoptEpoch ctx = { ctx with epoch := (adoptEpoch ctx).epoch } := by
  unfold adoptEpoch
  split_ifs <;> rfl

theorem adoptEpoch_le (ctx : Ctx) : ctx.epoch ≤ (adoptEpoch ctx).epoch := by
  unfold adoptEpoch
  split_ifs with h
  · exact UInt32.le_of_lt h
  · exact UInt32.le_refl _

theorem Steady.adoptEpoch (h : Steady ctx last) : Steady (adoptEpoch ctx) last := by
  rw [adoptEpoch_eq]
  exact ⟨h.tick, h.target, h.entered, h.freeze, h.ramp⟩

theorem complete_epochs (ctx : Ctx) (now : TimeUs) :
    ctx.epoch ≤ (transition (adoptEpoch ctx) .healthy now).epoch ∧
      (transition (adoptEpoch ctx) .healthy now).maxObservedEpoch = ctx.maxObservedEpoch := by
  constructor
  · rw [transition_epoch, if_neg (fun h => State.noConfusion h.1)]
    exact adoptEpoch_le ctx
  · rw [transition_observed, adoptEpoch_eq]

theorem complete_steady (hsame : ctx.state = .healthy → Steady ctx now) (htick : ctx.lastTick = now)
    (htarget : ctx.targetPowerFactor = one) :
    Steady (transition (adoptEpoch ctx) .healthy now) now := by
  refine transition_steady ?_ ?_ ?_ (fun h => State.noConfusion h)
  · intro hs
    rw [adoptEpoch_eq] at hs
    exact (hsame hs).adoptEpoch
  · rw [adoptEpoch_eq]
    exact htick
  · rw [adoptEpoch_eq]
    exact htarget

theorem updatePowerRamp_epochs (ctx : Ctx) (elapsed : TimeUs) :
    (updatePowerRamp ctx elapsed).epoch = ctx.epoch ∧
      (updatePowerRamp ctx elapsed).maxObservedEpoch = ctx.maxObservedEpoch := by
  rw [updatePowerRamp_eq]
  exact ⟨rfl, rfl⟩

theorem tickReconciling_epochs (ctx : Ctx) (elapsed timeInState now : TimeUs) :
    ctx.epoch ≤ (tickReconciling ctx elapsed timeInState now).epoch ∧
      (tickReconciling ctx elapsed timeInState now).maxObservedEpoch = ctx.maxObservedEpoch := by
  obtain ⟨hepoch, hobserved⟩ := updatePowerRamp_epochs ctx elapsed
  have h1 := complete_epochs (updatePowerRamp ctx elapsed) now
  rw [hepoch, hobserved] at h1
  unfold tickReconciling
  dsimp only
  split_ifs
  · have h2 := complete_epochs { transition (adoptEpoch (updatePowerRamp ctx elapsed)) .healthy now
      with syncComplete := true, powerRampFactor := one } now
    exact ⟨UInt32.le_trans h1.1 h2.1, h2.2.trans h1.2⟩
  · have h2 := complete_epochs { updatePowerRamp ctx elapsed
      with syncComplete := true, powerRampFactor := one } now
    exact ⟨UInt32.le_trans (UInt32.le_of_eq hepoch.symm) h2.1, h2.2.trans hobserved⟩
  · exact h1
  · exact ⟨UInt32.le_of_eq hepoch.symm, hobserved⟩

theorem ramped_steady (hs : ctx.state = .reconciling) (h : Steady ctx now)
    (helapsed : elapsed ≤ timeInState) (ramped : Ctx) (hramped : ramped = if (updatePowerRamp ctx
    elapsed).syncComplete ∧ (updatePowerRamp ctx elapsed).powerRampFactor ≥ one then transition
    (adoptEpoch (updatePowerRamp ctx elapsed)) .healthy now else updatePowerRamp ctx elapsed) :
    ramped.lastTick = now ∧ ramped.targetPowerFactor = one ∧
      (ramped.state = .healthy ∨ timeInState < recoveryMaxUs → Steady ramped now) := by
  have heq := updatePowerRamp_eq ctx elapsed
  have hstate : (updatePowerRamp ctx elapsed).state = .reconciling := by
    rw [heq]
    exact hs
  have htick : (updatePowerRamp ctx elapsed).lastTick = now := by
    rw [heq]
    exact h.tick
  have htarget : (updatePowerRamp ctx elapsed).targetPowerFactor = one := by
    rw [heq]
    exact h.target
  split_ifs at hramped
  · have hdone := complete_steady (fun hh => State.noConfusion (hstate.symm.trans hh)) htick htarget
    rw [hramped]
    exact ⟨hdone.tick, hdone.target, fun _ => hdone⟩
  · rw [hramped]
    refine ⟨htick, htarget, ?_⟩
    rintro (hh | hh)
    · exact State.noConfusion (hstate.symm.trans hh)
    · have hbound := updatePowerRamp_bound (UInt64.lt_of_le_of_lt helapsed hh) h.target h.ramp
      refine ⟨htick, htarget, fun _ => ?_, ?_, hbound⟩
      · rw [heq]
        exact h.entered hs
      · rw [hstate, heq, ← hs]
        exact h.freeze

theorem tickReconciling_steady (hs : ctx.state = .reconciling) (h : Steady ctx now)
    (helapsed : elapsed ≤ timeInState) :
    Steady (tickReconciling ctx elapsed timeInState now) now := by
  unfold tickReconciling
  dsimp only
  obtain ⟨ramped, hramped⟩ : ∃ r, r =
      if (updatePowerRamp ctx elapsed).syncComplete ∧
          (updatePowerRamp ctx elapsed).powerRampFactor ≥ one then
        transition (adoptEpoch (updatePowerRamp ctx elapsed)) .healthy now
      else updatePowerRamp ctx elapsed := ⟨_, rfl⟩
  obtain ⟨h1, h2, h3⟩ := ramped_steady hs h helapsed ramped hramped
  rw [← hramped]
  split_ifs with hforced
  · -- the forced completion replaces the ramp, whatever the elapsed time made of it
    have hsame : ({ ramped with syncComplete := true, powerRampFactor := one } : Ctx).state =
        .healthy → Steady { ramped with syncComplete := true, powerRampFactor := one } now :=
      fun hh => ⟨h1, h2, (h3 (.inl hh)).entered, (h3 (.inl hh)).freeze, full_bounds⟩
    exact complete_steady hsame h1 h2
  · exact h3 (.inr (UInt64.not_le.mp hforced))

theorem le_succ_iff (epoch : UInt32) : epoch ≤ epoch + 1 ↔ epoch ≠ 0xFFFFFFFF := by
  constructor
  · rintro h rfl
    exact absurd h (by decide)
  · grind

/-- a transition out of another state: only the step to `majority` raises the epoch -/
theorem transition_epoch_le (now : TimeUs) (hs : ctx.state ≠ newState) :
    ctx.epoch ≤ (transition ctx newState now).epoch ↔
      (newState = .majority → ctx.epoch ≠ 0xFFFFFFFF) := by
  rw [transition_epoch]
  by_cases hmaj : newState = .majority
  · rw [if_pos ⟨hmaj, fun hh => hs (hh.trans hmaj.symm)⟩, le_succ_iff]
    exact ⟨fun hne _ => hne, fun hne => hne hmaj⟩
  · rw [if_neg (fun hh => hmaj hh.1)]
    exact ⟨fun _ hh => absurd hh hmaj, fun _ => UInt32.le_refl _⟩

theorem State.exhaust (s : State) :
    s = .healthy ∨ s = .suspecting ∨ s = .majority ∨ s = .minority ∨ s = .reconciling := by
  cases s <;> decide

/-- the tick is one transition to another state, to `majority` exactly when it confirms one -/
structure Moves (ctx : Ctx) (now : TimeUs) (newState : State) : Prop where
  leaves : ctx.state ≠ newState
  suspects : newState = .suspecting → ctx.state ≠ .minority
  confirms : Confirms ctx now ↔ newState = .majority
  eq : tick ctx now = transition { ctx with lastTick := now } newState now

theorem tick_cases (ctx : Ctx) (now : TimeUs) :
    ¬ Confirms ctx now ∧ tick ctx now = { ctx with lastTick := now } ∨
    (∃ newState, Moves ctx now newState) ∨
    ctx.state = .reconciling ∧ ¬ Confirms ctx now ∧
      tick ctx now = tickReconciling { ctx with lastTick := now } (now - ctx.lastTick)
        (now - ctx.stateEnterTime) now := by
  have hother : ctx.state ≠ .suspecting → ¬ Confirms ctx now := fun hs hc => hs hc.1
  rcases ctx.state.exhaust with hs | hs | hs | hs | hs
  · have hc := hother (by rw [hs]; decide)
    have heq := tick_healthy now hs
    split_ifs at heq with hq
    · exact .inr (.inl ⟨.suspecting, by rw [hs]; decide, fun _ => by rw [hs]; decide,
        iff_of_false hc (by decide), heq⟩)
    · exact .inl ⟨hc, heq⟩
  · have heq := tick_suspecting now hs
    split_ifs at heq with htime hq hq
    · exact .inr (.inl ⟨.majority, by rw [hs]; decide, fun hh => State.noConfusion hh,
        iff_of_true ⟨hs, htime, hq⟩ rfl, heq⟩)
    · exact .inr (.inl ⟨.minority, by rw [hs]; decide, fun hh => State.noConfusion hh,
        iff_of_false (fun hc => hq hc.2.2) (by decide), heq⟩)
    · exact .inr (.inl ⟨.healthy, by rw [hs]; decide, fun hh => State.noConfusion hh,
        iff_of_false (fun hc => htime hc.2.1) (by decide), heq⟩)
    · exact .inl ⟨fun hc => htime hc.2.1, heq⟩
  · have hc := hother (by rw [hs]; decide)
    have heq := tick_majority now hs
    split_ifs at heq with hall hq
    · exact .inr (.inl ⟨.healthy, by rw [hs]; decide, fun hh => State.noConfusion hh,
        iff_of_false hc (by decide), heq⟩)
    · exact .inr (.inl ⟨.suspecting, by rw [hs]; decide, fun _ => by rw [hs]; decide,
        iff_of_false hc (by decide), heq⟩)
    · exact .inl ⟨hc, heq⟩
  · have hc := hother (by rw [hs]; decide)
    have heq := tick_minority now hs
    split_ifs at heq with hhigher
    · exact .inr (.inl ⟨.reconciling, by rw [hs]; decide, fun hh => State.noConfusion hh,
        iff_of_false hc (by decide), heq⟩)
    · exact .inl ⟨hc, heq⟩
  · exact .inr (.inr ⟨hs, hother (by rw [hs]; decide), tick_reconciling now hs⟩)

theorem tick_epoch (ctx : Ctx) (now : TimeUs) :
    ctx.epoch ≤ (tick ctx now).epoch ↔ RoomForEpoch ctx (.tick now) := by
  rcases tick_cases ctx now with ⟨hc, heq⟩ | ⟨newState, hm⟩ | ⟨_, hc, heq⟩
  · rw [heq]
    exact iff_of_true (UInt32.le_refl _) fun hh => absurd hh hc
  · have hs : ({ ctx with lastTick := now } : Ctx).state ≠ newState := hm.leaves
    rw [hm.eq, RoomForEpoch, hm.confirms]
    exact transition_epoch_le now hs
  · rw [heq]
    exact iff_of_true (tickReconciling_epochs { ctx with lastTick := now } _ _ now).1
      fun hh => absurd hh hc

theorem tick_observed (ctx : Ctx) (now : TimeUs) :
    (tick ctx now).maxObservedEpoch = ctx.maxObservedEpoch := by
  rcases tick_cases ctx now with ⟨_, heq⟩ | ⟨newState, hm⟩ | ⟨_, _, heq⟩
  · rw [heq]
  · rw [hm.eq, transition_observed]
  · rw [heq]
    exact (tickReconciling_epochs { ctx with lastTick := now } _ _ now).2

theorem tick_steady (h : Steady ctx last) (hnow : last ≤ now) : Steady (tick ctx now) now := by
  have hat : Steady { ctx with lastTick := now } now :=
    ⟨rfl, h.target, fun hs => UInt64.le_trans (h.entered hs) hnow, h.freeze, h.ramp⟩
  rcases tick_cases ctx now with ⟨_, heq⟩ | ⟨newState, hm⟩ | ⟨hs, _, heq⟩
  · rw [heq]
    exact hat
  · rw [hm.eq]
    refine transition_steady (fun hh => absurd hh hm.leaves) rfl h.target fun hnew => ?_
    have hfreeze := mt h.freeze.mp (hm.suspects hnew)
    rw [Bool.not_eq_true] at hfreeze
    exact ⟨hfreeze, h.ramp⟩
  · have hs' : ({ ctx with lastTick := now } : Ctx).state = .reconciling := hs
    have helapsed : now - ctx.lastTick ≤ now - ctx.stateEnterTime := by
      have hentered := h.entered hs
      rw [h.tick]
      grind
    rw [heq]
    exact tickReconciling_steady hs' hat helapsed

/-! ## every call -/

theorem lastTime_other (he : tickTimes [e] = []) : lastTime (es ++ [e]) = lastTime es := by
  rw [lastTime, tickTimes_concat, he, append_nil]
  rfl

theorem next_spec (h : Steady ctx (lastTime es)) (ht : Timed (es ++ [e])) :
    Steady (next ctx e) (lastTime (es ++ [e])) ∧
      (ctx.epoch ≤ (next ctx e).epoch ↔ RoomForEpoch ctx e) ∧
      ctx.maxObservedEpoch ≤ (next ctx e).maxObservedEpoch := by
  cases e with
  | init totalModules =>
    exact absurd (mem_append_right _ (mem_singleton_self _)) (ht.noInit totalModules)
  | tick now =>
    rw [lastTime_tick]
    exact ⟨tick_steady h ht.lastTime_le, tick_epoch ctx now,
      UInt32.le_of_eq (tick_observed ctx now).symm⟩
  | visibilityChange visibleCount =>
    rw [lastTime_other rfl]
    exact ⟨⟨h.tick, h.target, h.entered, h.freeze, h.ramp⟩,
      iff_of_true (UInt32.le_refl _) trivial, UInt32.le_refl _⟩
  | epochReceived remoteEpoch =>
    rw [lastTime_other rfl]
    show Steady (onEpochReceived ctx remoteEpoch) _ ∧ (_ ≤ (onEpochReceived ctx remoteEpoch).epoch ↔
      _) ∧ _ ≤ (onEpochReceived ctx remoteEpoch).maxObservedEpoch
    unfold onEpochReceived
    split_ifs with hhigher
    · exact ⟨⟨h.tick, h.target, h.entered, h.freeze, h.ramp⟩,
        iff_of_true (UInt32.le_refl _) trivial, UInt32.le_of_lt hhigher⟩
    · exact ⟨h, iff_of_true (UInt32.le_refl _) trivial, UInt32.le_refl _⟩
  | syncReceived =>
    rw [lastTime_other rfl]
    show Steady (onSyncReceived ctx) _ ∧ (_ ≤ (onSyncReceived ctx).epoch ↔ _) ∧
      _ ≤ (onSyncReceived ctx).maxObservedEpoch
    unfold onSyncReceived
    dsimp only
    split_ifs
    · exact ⟨⟨h.tick, h.target, h.entered, h.freeze, h.ramp⟩,
        iff_of_true (UInt32.le_refl _) trivial, UInt32.le_refl _⟩
    · exact ⟨⟨h.tick, h.target, h.entered, h.freeze, h.ramp⟩,
        iff_of_true (UInt32.le_refl _) trivial, UInt32.le_refl _⟩
    · exact ⟨h, iff_of_true (UInt32.le_refl _) trivial, UInt32.le_refl _⟩

variable {totalModules : UInt32} {start : Ctx}

theorem run_steady (hinit : init totalModules = .ok start) (es : List Event) (ht : Timed es) :
    Steady ((machine start).run es) (lastTime es) := by
  induction es using List.reverseRecOn with
  | nil => exact init_steady hinit
  | append_singleton es e ih =>
    rw [Machine.run_concat, machine_next]
    exact (next_spec (ih ht.initial) ht).1

def SoundRun (start : Ctx) (es : List Event) : Prop :=
  Sound start ∧
    EveryStep (fun pre e => SoundStep ((machine start).run pre) (next ((machine start).run pre) e)) es

/-- **Main.** From an initialised context, with the ticks in order of time: after every call the
context is sound and no epoch counter has gone down, exactly when no tick of the run confirms a
majority at the last 32-bit epoch. -/
theorem sound_iff (hinit : init totalModules = .ok start) (es : List Event) (ht : Timed es) :
    SoundRun start es ↔
      EveryStep (fun pre e => RoomForEpoch ((machine start).run pre) e) es := by
  have hstep : ∀ pre e, pre ++ [e] <+: es →
      (SoundStep ((machine start).run pre) (next ((machine start).run pre) e) ↔
        RoomForEpoch ((machine start).run pre) e) := by
    intro pre e hp
    have hpre : Timed (pre ++ [e]) := ht.prefix_of hp
    obtain ⟨h1, h2, h3⟩ := next_spec (run_steady hinit pre hpre.initial) hpre
    exact ⟨fun hs => h2.mp hs.epoch, fun hroom => ⟨h1.sound, h2.mpr hroom, h3⟩⟩
  constructor
  · rintro ⟨_, hs⟩ pre e hp
    exact (hstep pre e hp).mp (hs pre e hp)
  · intro hroom
    exact ⟨(init_steady hinit).sound, fun pre e hp => (hstep pre e hp).mpr (hroom pre e hp)⟩

/-- a module of 3 that loses the others, confirms a minority, reconciles for 10 s with a module of
epoch 7 and is healthy again stays sound -/
theorem sound_iff_reconciling : ∃ start, init 3 = .ok start ∧
    SoundRun start [.epochReceived 7, .visibilityChange 1, .tick 1, .tick 100001, .tick 100002,
      .syncReceived, .tick 5100002, .tick 10100002] := by
  refine ⟨_, rfl, ?_⟩
  refine (sound_iff (show init 3 = .ok _ from rfl) _ ⟨by simp, by simp [tickTimes], by simp [tickTimes]⟩).mpr ?_
  refine (everyStep_cons _ _ _).mpr ⟨by decide, (everyStep_cons _ _ _).mpr ⟨by decide,
    (everyStep_cons _ _ _).mpr ⟨by decide, (everyStep_cons _ _ _).mpr ⟨by decide,
    (everyStep_cons _ _ _).mpr ⟨by decide, (everyStep_cons _ _ _).mpr ⟨by decide,
    (everyStep_cons _ _ _).mpr ⟨by decide, (everyStep_cons _ _ _).mpr ⟨by decide,
    everyStep_nil _⟩⟩⟩⟩⟩⟩⟩⟩

def epochChanges (ctx : Ctx) : List Event → Nat
  | [] => 0
  | e :: es => (if (next ctx e).epoch = ctx.epoch then 0 else 1) + epochChanges (next ctx e) es

/-- a module of 3 hears of the last epoch, reconciles and adopts it, and then confirms a majority:
two epoch changes, and the second goes from `2^32 - 1` to 0 -/
theorem epoch_wraps : ∃ start es, init 3 = .ok start ∧ Timed es ∧ epochChanges start es = 2 ∧
    ¬ SoundRun start es := by
  refine ⟨_, [.epochReceived 0xFFFFFFFF, .visibilityChange 1, .tick 1, .tick 100001, .tick 100002,
    .tick 10100002, .tick 10100003, .visibilityChange 3, .tick 10200003], rfl,
    ⟨by simp, by simp [tickTimes], by simp [tickTimes]⟩, by decide, fun h => ?_⟩
  have hstep := h.2 [.epochReceived 0xFFFFFFFF, .visibilityChange 1, .tick 1, .tick 100001,
    .tick 100002, .tick 10100002, .tick 10100003, .visibilityChange 3] (.tick 10200003)
    (prefix_refl _)
  exact absurd hstep.epoch (by decide)

end Partition
end EkKor
