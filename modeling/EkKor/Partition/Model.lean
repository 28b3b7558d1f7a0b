import EkKor.Types

/-!
# Network partition handling (`ekk_partition.c`)

The partition context of one module and the calls that move it.

* `Ctx`            the fields of `ekk_partition_ctx_t`;
* `transition`     the state entry actions;
* `tick`, `onVisibilityChange`, `onEpochReceived`, `onSyncReceived`   the calls that move it;
* `canVote`, `canElect`, `getPowerFactor`   what the rest of the module asks.

Power factors are `int32_t`; the ramp increment is computed in 64 bits and truncated.
-/

namespace EkKor
namespace Partition

abbrev confirmTimeoutUs : TimeUs := 100000

/-- `EKK_FLOAT_TO_FIXED(0.1f)` -/
abbrev powerRampRate : UInt64 := 6553

abbrev recoveryMaxUs : TimeUs := 10000000

/-- `EKK_FIXED_ONE` as a power factor -/
abbrev one : Int32 := 65536

/-- `ekk_partition_state_t` -/
inductive State where
  | healthy
  | suspecting
  | majority
  | minority
  | reconciling
  deriving DecidableEq, Repr

/-- `ekk_partition_ctx_t` -/
structure Ctx where
  state : State
  epoch : UInt32
  totalModules : UInt32
  visibleCount : UInt32
  quorumSize : UInt32
  stateEnterTime : TimeUs
  lastTick : TimeUs
  suspectingStart : TimeUs
  powerRampFactor : Int32
  targetPowerFactor : Int32
  freezeActive : Bool
  syncReceivedCount : UInt32
  syncExpectedCount : UInt32
  syncComplete : Bool
  maxObservedEpoch : UInt32
  deriving DecidableEq, Repr

/-! ## internal helpers -/

/-- `partition_transition` -/
def transition (ctx : Ctx) (newState : State) (now : TimeUs) : Ctx :=
  if ctx.state = newState then ctx
  else
    let ctx := { ctx with state := newState, stateEnterTime := now }
    match newState with
    | .healthy =>
      { ctx with freezeActive := false, powerRampFactor := one, targetPowerFactor := one }
    | .suspecting => { ctx with suspectingStart := now }
    | .majority =>
      { ctx with epoch := ctx.epoch + 1, freezeActive := false, powerRampFactor := one }
    | .minority => { ctx with freezeActive := true, powerRampFactor := 0 }
    | .reconciling =>
      { ctx with
        freezeActive := false
        powerRampFactor := 0
        targetPowerFactor := one
        syncReceivedCount := 0
        syncComplete := false }

/-- `partition_update_power_ramp` -/
def updatePowerRamp (ctx : Ctx) (elapsedUs : TimeUs) : Ctx :=
  if ctx.powerRampFactor ≥ ctx.targetPowerFactor then
    { ctx with powerRampFactor := ctx.targetPowerFactor }
  else
    let increment := powerRampRate * elapsedUs / 1000000
    let factor := ctx.powerRampFactor + increment.toUInt32.toInt32
    { ctx with
      powerRampFactor := if factor > ctx.targetPowerFactor then ctx.targetPowerFactor else factor }

/-- the epoch after a reconciliation: the highest one seen, if it is higher than ours -/
def adoptEpoch (ctx : Ctx) : Ctx :=
  if ctx.maxObservedEpoch > ctx.epoch then { ctx with epoch := ctx.maxObservedEpoch } else ctx

/-! ## the calls -/

/-- `ekk_partition_init` -/
def init (totalModules : UInt32) : Except Err Ctx :=
  if totalModules = 0 then .error .invalidArg
  else .ok
    { state := .healthy
      epoch := 1
      totalModules := totalModules
      visibleCount := totalModules
      quorumSize := totalModules / 2 + 1
      stateEnterTime := 0
      lastTick := 0
      suspectingStart := 0
      powerRampFactor := one
      targetPowerFactor := one
      freezeActive := false
      syncReceivedCount := 0
      syncExpectedCount := 0
      syncComplete := false
      maxObservedEpoch := 1 }

/-- the `EKK_PARTITION_RECONCILING` case of `ekk_partition_tick`; `timeInState` is taken before
the completion check, which can itself leave the state -/
def tickReconciling (ctx : Ctx) (elapsed timeInState now : TimeUs) : Ctx :=
  let ctx := updatePowerRamp ctx elapsed
  let ctx :=
    if ctx.syncComplete ∧ ctx.powerRampFactor ≥ one then
      transition (adoptEpoch ctx) .healthy now
    else ctx
  if timeInState ≥ recoveryMaxUs then
    transition (adoptEpoch { ctx with syncComplete := true, powerRampFactor := one }) .healthy now
  else ctx

/-- `ekk_partition_tick` -/
def tick (ctx : Ctx) (now : TimeUs) : Ctx :=
  let elapsed := now - ctx.lastTick
  let ctx := { ctx with lastTick := now }
  let timeInState := now - ctx.stateEnterTime
  match ctx.state with
  | .healthy =>
    if ctx.visibleCount < ctx.quorumSize then transition ctx .suspecting now else ctx
  | .suspecting =>
    if now - ctx.suspectingStart ≥ confirmTimeoutUs then
      if ctx.visibleCount ≥ ctx.quorumSize then transition ctx .majority now
      else transition ctx .minority now
    else if ctx.visibleCount ≥ ctx.quorumSize then transition ctx .healthy now
    else ctx
  | .majority =>
    if ctx.visibleCount ≥ ctx.totalModules then transition ctx .healthy now
    else if ctx.visibleCount < ctx.quorumSize then transition ctx .suspecting now
    else ctx
  | .minority =>
    if ctx.maxObservedEpoch > ctx.epoch then transition ctx .reconciling now else ctx
  | .reconciling => tickReconciling ctx elapsed timeInState now

/-- `ekk_partition_on_visibility_change` -/
def onVisibilityChange (ctx : Ctx) (visibleCount : UInt32) : Ctx :=
  { ctx with visibleCount := visibleCount }

/-- `ekk_partition_on_epoch_received` (the sender's id is not used) -/
def onEpochReceived (ctx : Ctx) (remoteEpoch : UInt32) : Ctx :=
  if remoteEpoch > ctx.maxObservedEpoch then { ctx with maxObservedEpoch := remoteEpoch } else ctx

/-- `ekk_partition_on_sync_received` (the sender's id is not used) -/
def onSyncReceived (ctx : Ctx) : Ctx :=
  if ctx.state = .reconciling then
    let ctx := { ctx with syncReceivedCount := ctx.syncReceivedCount + 1 }
    if ctx.syncReceivedCount ≥ 1 then { ctx with syncComplete := true } else ctx
  else ctx

/-! ## queries -/

/-- `ekk_partition_get_power_factor` -/
def getPowerFactor (ctx : Ctx) : Int32 :=
  match ctx.state with
  | .healthy | .majority | .suspecting => one
  | .minority => 0
  | .reconciling => ctx.powerRampFactor

/-- `ekk_partition_can_vote` -/
def canVote (ctx : Ctx) : Bool :=
  match ctx.state with
  | .healthy | .majority | .suspecting => true
  | .minority | .reconciling => false

/-- `ekk_partition_can_elect` -/
def canElect (ctx : Ctx) : Bool :=
  match ctx.state with
  | .healthy | .majority => true
  | .suspecting | .minority | .reconciling => false

/-! ## the calls as events -/

/-- the `ekk_partition_*` calls that can change a context -/
inductive Event where
  | init (totalModules : UInt32)
  | tick (now : TimeUs)
  | visibilityChange (visibleCount : UInt32)
  | epochReceived (remoteEpoch : UInt32)
  | syncReceived
  deriving DecidableEq, Repr

/-- one call; a failed `ekk_partition_init` leaves the context alone -/
def next (ctx : Ctx) : Event → Ctx
  | .init totalModules => (init totalModules).toOption.getD ctx
  | .tick now => tick ctx now
  | .visibilityChange visibleCount => onVisibilityChange ctx visibleCount
  | .epochReceived remoteEpoch => onEpochReceived ctx remoteEpoch
  | .syncReceived => onSyncReceived ctx

end Partition
end EkKor
