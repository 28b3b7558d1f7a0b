import EkKor.Lib.Truncation
import EkKor.Partition.Invariants

/-!
# The power ramp

A context enters RECONCILING with the tick at `t₀` and is ticked again at later times.

* `gaps`            the lengths between the ticks;
* `ideal`           the ramp at a time, computed from the time since `t₀` at once;
* `Tracks`          the power factor is the ideal one up to one unit;
* `Smooth`          the tick that leaves the state raises the power factor by at most the ramp of
                    its interval and one unit;
* `lost`            what the ticks round off, in millionths of a unit;
* `run_climbing`    in the state the power factor is the sum of the rounded increments;
* `ramp_iff`        it tracks the ideal ramp as long as less than two units are lost, and the step
                    at the end is small if what is not lost reaches all but one unit;
* `ramp_lags`       four ticks of 1 ms lose two units; and a single tick after 10 s is a jump.

The rate is 6553 units in a second, so in the 10 s of the state the ramp ends at 65530 and the
state is always left by its timeout.
-/

namespace EkKor
namespace Partition
open Runs Truncation List

/-! ## times -/

/-- the lengths of the intervals between the ticks from `t₀` on -/
def gaps (t₀ : TimeUs) : List TimeUs → List Nat
  | [] => []
  | now :: times => (now.toNat - t₀.toNat) :: gaps now times

/-- the time of the last tick, `t₀` before the first -/
def lastFrom (t₀ : TimeUs) (es : List Event) : TimeUs := (tickTimes es).getLastD t₀

/-- the ticks come after `t₀` in order of time -/
def Ordered (t₀ : TimeUs) (es : List Event) : Prop := (t₀ :: tickTimes es).Pairwise (· < ·)

instance (t₀ : TimeUs) (es : List Event) : Decidable (Ordered t₀ es) :=
  inferInstanceAs (Decidable (List.Pairwise _ _))

def lost (t₀ : TimeUs) (es : List Event) : Nat := dropped 6553 1000000 (gaps t₀ (tickTimes es))

/-- the power factor at `now` of a ramp from `t₀` -/
def ideal (t₀ now : TimeUs) : Nat := min 65536 (6553 * (now.toNat - t₀.toNat) / 1000000)

theorem gaps_concat (t₀ : TimeUs) (times : List TimeUs) (now : TimeUs) :
    gaps t₀ (times ++ [now]) = gaps t₀ times ++ [now.toNat - (times.getLastD t₀).toNat] := by
  induction times generalizing t₀ with
  | nil => rfl
  | cons t times ih =>
    have hlast : (t :: times).getLastD t₀ = times.getLastD t := getLastD_cons
    rw [cons_append, gaps, gaps, ih, hlast, cons_append]

theorem gaps_sum {t₀ : TimeUs} {times : List TimeUs} (h : (t₀ :: times).Pairwise (· < ·)) :
    (gaps t₀ times).sum = (times.getLastD t₀).toNat - t₀.toNat ∧
      t₀.toNat ≤ (times.getLastD t₀).toNat := by
  induction times generalizing t₀ with
  | nil => exact ⟨(Nat.sub_self _).symm, Nat.le_refl _⟩
  | cons t times ih =>
    obtain ⟨hfirst, hrest⟩ := pairwise_cons.mp h
    obtain ⟨hsum, hle⟩ := ih hrest
    have hlast : (t :: times).getLastD t₀ = times.getLastD t := getLastD_cons
    have hlt := UInt64.lt_iff_toNat_lt.mp (hfirst t mem_cons_self)
    rw [gaps, sum_cons, hsum, hlast]
    omega

theorem lastFrom_tick (t₀ : TimeUs) (es : List Event) (now : TimeUs) :
    lastFrom t₀ (es ++ [.tick now]) = now := by
  rw [lastFrom, tickTimes_concat]
  exact getLastD_concat ..

theorem Ordered.initial {t₀ : TimeUs} {es : List Event} {e : Event} (h : Ordered t₀ (es ++ [e])) :
    Ordered t₀ es := by
  unfold Ordered at h
  rw [tickTimes_concat, ← cons_append] at h
  exact (pairwise_append.mp h).1

theorem getLastD_mem (t₀ : TimeUs) (times : List TimeUs) : times.getLastD t₀ ∈ t₀ :: times := by
  rcases eq_nil_or_concat times with rfl | ⟨before, last, rfl⟩
  · exact mem_cons_self
  · rw [concat_eq_append, getLastD_concat]
    exact mem_cons_of_mem _ mem_concat_self

theorem Ordered.lastFrom_lt {t₀ : TimeUs} {es : List Event} {now : TimeUs}
    (h : Ordered t₀ (es ++ [.tick now])) : lastFrom t₀ es < now := by
  unfold Ordered at h
  rw [tickTimes_concat, ← cons_append] at h
  exact (pairwise_append.mp h).2.2 _ (getLastD_mem t₀ _) now (mem_singleton_self now)

theorem Ordered.concat_tick {t₀ : TimeUs} {es : List Event} {now : TimeUs} (h : Ordered t₀ es)
    (hlt : lastFrom t₀ es < now) : Ordered t₀ (es ++ [.tick now]) := by
  unfold Ordered
  rw [tickTimes_concat, ← cons_append]
  refine pairwise_append.mpr ⟨h, pairwise_singleton _ _, fun t ht now' hnow' => ?_⟩
  rw [mem_singleton.mp hnow']
  -- every earlier time is at most the last one
  have hle : t ≤ lastFrom t₀ es := by
    unfold lastFrom
    rcases eq_nil_or_concat (tickTimes es) with hnil | ⟨before, last, hlast⟩
    · rw [hnil] at ht ⊢
      rw [mem_singleton.mp ht]
      exact UInt64.le_refl _
    · rw [hlast, concat_eq_append] at ht ⊢
      rw [getLastD_concat]
      unfold Ordered at h
      rw [hlast, concat_eq_append, ← cons_append] at h
      rcases mem_append.mp (cons_append ▸ ht) with hold | hnew
      · exact UInt64.le_of_lt ((pairwise_append.mp h).2.2 t hold last
          (mem_singleton_self last))
      · rw [mem_singleton.mp hnew]
        exact UInt64.le_refl _
  exact UInt64.lt_of_le_of_lt hle hlt

/-! ## the properties -/

def Stays (start : Ctx) (es : List Event) : Prop :=
  ∀ pre, pre <+: es → ((machine start).run pre).state = .reconciling

def Tracks (ctx : Ctx) (t₀ now : TimeUs) : Prop :=
  (getPowerFactor ctx).toInt ≤ ideal t₀ now + 1 ∧ ideal t₀ now ≤ (getPowerFactor ctx).toInt + 1

/-- the tick raises the power factor by at most the ramp of its interval and one unit -/
def Smooth (ctx : Ctx) (last now : TimeUs) : Prop :=
  (getPowerFactor (tick ctx now)).toInt ≤
    (getPowerFactor ctx).toInt + (6553 * (now.toNat - last.toNat) / 1000000 : Nat) + 1

instance (ctx : Ctx) (t₀ now : TimeUs) : Decidable (Tracks ctx t₀ now) :=
  inferInstanceAs (Decidable (_ ∧ _))

instance (ctx : Ctx) (last now : TimeUs) : Decidable (Smooth ctx last now) :=
  inferInstanceAs (Decidable (_ ≤ _))

/-! ## the invariant -/

/-- in RECONCILING since `t₀`: the last tick was at `last`, before the timeout, and the power
factor is `power` -/
structure Climbing (ctx : Ctx) (t₀ last : TimeUs) (power : Nat) : Prop where
  state : ctx.state = .reconciling
  entered : ctx.stateEnterTime = t₀
  tick : ctx.lastTick = last
  target : ctx.targetPowerFactor = one
  power : ctx.powerRampFactor.toInt = power
  early : last.toNat - t₀.toNat < 10000000

theorem Climbing.getPowerFactor {ctx : Ctx} {t₀ last : TimeUs} {power : Nat}
    (h : Climbing ctx t₀ last power) : (getPowerFactor ctx).toInt = power := by
  unfold Partition.getPowerFactor
  rw [h.state]
  exact h.power

theorem tick_enters {ctx : Ctx} {t₀ : TimeUs} (hbefore : ctx.state ≠ .reconciling)
    (hentered : (tick ctx t₀).state = .reconciling) : Climbing (tick ctx t₀) t₀ t₀ 0 := by
  have hno : ∀ {ctx : Ctx} {s : State}, (transition ctx s t₀).state = .reconciling →
      s = .reconciling := fun h => (transition_state _ _ t₀).symm.trans h
  cases hs : ctx.state with
  | reconciling => exact absurd hs hbefore
  | healthy =>
    rw [tick_healthy t₀ hs] at hentered
    split_ifs at hentered
    · cases hno hentered
    · exact absurd hentered hbefore
  | suspecting =>
    rw [tick_suspecting t₀ hs] at hentered
    split_ifs at hentered
    · cases hno hentered
    · cases hno hentered
    · cases hno hentered
    · exact absurd hentered hbefore
  | majority =>
    rw [tick_majority t₀ hs] at hentered
    split_ifs at hentered
    · cases hno hentered
    · cases hno hentered
    · exact absurd hentered hbefore
  | minority =>
    rw [tick_minority t₀ hs] at hentered ⊢
    split_ifs at hentered ⊢
    · have hne : ¬ ctx.state = .reconciling := hbefore
      unfold transition
      rw [if_neg hne]
      exact ⟨rfl, rfl, rfl, rfl, rfl, by simp⟩
    · exact absurd hentered hbefore

theorem updatePowerRamp_climbs (ctx : Ctx) {elapsed : TimeUs} {power : Nat}
    (htarget : ctx.targetPowerFactor = one) (hpower : ctx.powerRampFactor.toInt = power)
    (helapsed : elapsed < recoveryMaxUs)
    (hsum : power + 6553 * elapsed.toNat / 1000000 < 65536) :
    (updatePowerRamp ctx elapsed).powerRampFactor.toInt
      = (power + 6553 * elapsed.toNat / 1000000 : Nat) := by
  have hone : (one : Int32).toInt = 65536 := by decide
  have hinc := increment_toInt helapsed
  have hfactor : (ctx.powerRampFactor + (powerRampRate * elapsed / 1000000).toUInt32.toInt32).toInt
      = (power + 6553 * elapsed.toNat / 1000000 : Nat) := by
    rw [Int32.toInt_add, hpower, hinc, ← Int.natCast_add]
    exact Int.bmod_eq_of_le (by omega) (by omega)
  have hfull : ¬ ctx.powerRampFactor ≥ ctx.targetPowerFactor := by
    rw [htarget, ge_iff_le, Int32.le_iff_toInt_le, hone, hpower]
    omega
  unfold updatePowerRamp
  dsimp only
  split_ifs with hover
  · rw [htarget, gt_iff_lt, Int32.lt_iff_toInt_lt, hone, hfactor] at hover
    omega
  · exact hfactor

theorem sub_toNat {a b : TimeUs} (h : a.toNat ≤ b.toNat) : (b - a).toNat = b.toNat - a.toNat :=
  UInt64.toNat_sub_of_le _ _ (UInt64.le_iff_toNat_le.mpr h)

section
variable {ctx : Ctx} {t₀ last now : TimeUs} {power : Nat}

theorem Climbing.tick_early (h : Climbing ctx t₀ last power) (hlast : t₀.toNat ≤ last.toNat)
    (hnow : last < now) (hearly : now.toNat - t₀.toNat < 10000000)
    (hsum : power + 6553 * (now.toNat - last.toNat) / 1000000 < 65536) :
    Climbing (Partition.tick ctx now) t₀ now
      (power + 6553 * (now.toNat - last.toNat) / 1000000) := by
  obtain rfl := h.entered
  have hlt := UInt64.lt_iff_toNat_lt.mp hnow
  have helapsed : (now - last).toNat = now.toNat - last.toNat := sub_toNat (by omega)
  have hinState : (now - ctx.stateEnterTime).toNat = now.toNat - ctx.stateEnterTime.toNat :=
    sub_toNat (by omega)
  have hshort : now - last < recoveryMaxUs := by
    rw [UInt64.lt_iff_toNat_lt, helapsed]
    show now.toNat - last.toNat < 10000000
    omega
  have hopen : ¬ now - ctx.stateEnterTime ≥ recoveryMaxUs := by
    rw [ge_iff_le, UInt64.le_iff_toNat_le, hinState]
    show ¬ 10000000 ≤ now.toNat - ctx.stateEnterTime.toNat
    omega
  have hramp := updatePowerRamp_climbs { ctx with lastTick := now } h.target h.power hshort
    (by rw [helapsed]; exact hsum)
  rw [helapsed] at hramp
  have hbelow : ¬ (updatePowerRamp { ctx with lastTick := now } (now - last)).powerRampFactor
      ≥ one := by
    rw [ge_iff_le, Int32.le_iff_toInt_le, hramp]
    show ¬ (65536 : Int) ≤ _
    omega
  rw [tick_reconciling now h.state, h.tick]
  unfold tickReconciling
  rw [if_neg hopen, if_neg (fun hc => hbelow hc.2), updatePowerRamp_eq]
  exact ⟨h.state, rfl, rfl, h.target, hramp, hearly⟩

theorem Climbing.tick_late (h : Climbing ctx t₀ last power) (hlast : t₀.toNat ≤ last.toNat)
    (hlate : ¬ now.toNat - t₀.toNat < 10000000) :
    (Partition.tick ctx now).state = .healthy := by
  obtain rfl := h.entered
  have hinState : (now - ctx.stateEnterTime).toNat = now.toNat - ctx.stateEnterTime.toNat :=
    sub_toNat (by omega)
  have htimeout : now - ctx.stateEnterTime ≥ recoveryMaxUs := by
    rw [ge_iff_le, UInt64.le_iff_toNat_le, hinState]
    show 10000000 ≤ now.toNat - ctx.stateEnterTime.toNat
    omega
  rw [tick_reconciling now h.state]
  unfold tickReconciling
  rw [if_pos htimeout]
  exact transition_state _ _ _

end

/-! ## runs -/

theorem grown_le {t₀ : TimeUs} {es : List Event} (h : Ordered t₀ es)
    (hearly : (lastFrom t₀ es).toNat - t₀.toNat < 10000000) :
    grown 6553 1000000 (gaps t₀ (tickTimes es)) ≤ 65530 := by
  have hsum := grown_dropped 6553 1000000 (gaps t₀ (tickTimes es))
  rw [(gaps_sum h).1] at hsum
  unfold lastFrom at hearly
  omega

theorem Climbing.quiet {ctx : Ctx} {t₀ last : TimeUs} {power : Nat}
    (h : Climbing ctx t₀ last power) {e : Event} (he : ∀ now, e ≠ .tick now)
    (hstay : (next ctx e).state = .reconciling) : Climbing (next ctx e) t₀ last power := by
  cases e with
  | tick now => exact absurd rfl (he now)
  | visibilityChange n => exact ⟨h.state, h.entered, h.tick, h.target, h.power, h.early⟩
  | epochReceived epoch =>
    show Climbing (onEpochReceived ctx epoch) t₀ last power
    unfold onEpochReceived
    split_ifs
    · exact ⟨h.state, h.entered, h.tick, h.target, h.power, h.early⟩
    · exact h
  | syncReceived =>
    show Climbing (onSyncReceived ctx) t₀ last power
    unfold onSyncReceived
    dsimp only
    split_ifs
    · exact ⟨h.state, h.entered, h.tick, h.target, h.power, h.early⟩
    · exact ⟨h.state, h.entered, h.tick, h.target, h.power, h.early⟩
    · exact h
  | init n =>
    change ((init n).toOption.getD ctx).state = .reconciling at hstay
    show Climbing ((init n).toOption.getD ctx) t₀ last power
    unfold init at hstay ⊢
    split_ifs at hstay ⊢
    · exact h
    · cases hstay

theorem Stays.initial {start : Ctx} {es : List Event} {e : Event} (h : Stays start (es ++ [e])) :
    Stays start es :=
  fun pre hpre => h pre (hpre.trans (prefix_append es [e]))

theorem tickTimes_quiet {e : Event} (he : ∀ now, e ≠ .tick now) : tickTimes [e] = [] := by
  cases e with
  | tick now => exact absurd rfl (he now)
  | _ => rfl

/-- **In the state** the power factor is the sum of the rounded increments. -/
theorem run_climbing {start : Ctx} {t₀ : TimeUs} (h0 : Climbing start t₀ t₀ 0) (es : List Event)
    (hordered : Ordered t₀ es) (hstay : Stays start es) :
    Climbing ((machine start).run es) t₀ (lastFrom t₀ es)
      (grown 6553 1000000 (gaps t₀ (tickTimes es))) := by
  induction es using List.reverseRecOn with
  | nil => exact h0
  | append_singleton es e ih =>
    have hclimb := ih hordered.initial hstay.initial
    have hin := hstay (es ++ [e]) (prefix_refl _)
    rw [Machine.run_concat, machine_next] at hin ⊢
    by_cases htick : ∃ now, e = .tick now
    · obtain ⟨now, rfl⟩ := htick
      have hlt := hordered.lastFrom_lt
      have hle := (gaps_sum hordered.initial).2
      have hearly : now.toNat - t₀.toNat < 10000000 := by
        by_contra hlate
        have hleft := hclimb.tick_late hle hlate
        exact State.noConfusion (hleft.symm.trans hin)
      have hgrown : grown 6553 1000000 (gaps t₀ (tickTimes (es ++ [.tick now])))
          = grown 6553 1000000 (gaps t₀ (tickTimes es))
            + 6553 * (now.toNat - (lastFrom t₀ es).toNat) / 1000000 := by
        rw [tickTimes_concat]
        show grown _ _ (gaps t₀ (tickTimes es ++ [now])) = _
        rw [gaps_concat, grown_concat]
        rfl
      have hbound := grown_le hordered (by rw [lastFrom_tick]; exact hearly)
      rw [hgrown] at hbound ⊢
      rw [lastFrom_tick]
      exact hclimb.tick_early hle hlt hearly (by omega)
    · have hquiet : ∀ now, e ≠ .tick now := fun now h => htick ⟨now, h⟩
      have hsame : tickTimes (es ++ [e]) = tickTimes es := by
        rw [tickTimes_concat, tickTimes_quiet hquiet, append_nil]
      rw [lastFrom, hsame]
      exact hclimb.quiet hquiet hin

section
variable {ctx : Ctx} {t₀ : TimeUs} {es : List Event}

theorem Climbing.tracks_iff (hordered : Ordered t₀ es)
    (h : Climbing ctx t₀ (lastFrom t₀ es) (grown 6553 1000000 (gaps t₀ (tickTimes es)))) :
    Tracks ctx t₀ (lastFrom t₀ es) ↔ lost t₀ es < 2000000 := by
  have hwhole := whole_div 6553 1000000 (by decide) (gaps t₀ (tickTimes es))
  rw [(gaps_sum hordered).1] at hwhole
  have hearly := h.early
  unfold Tracks ideal lost
  rw [h.getPowerFactor]
  unfold lastFrom at hearly ⊢
  omega

theorem Climbing.smooth_iff (hordered : Ordered t₀ es)
    (h : Climbing ctx t₀ (lastFrom t₀ es) (grown 6553 1000000 (gaps t₀ (tickTimes es))))
    {now : TimeUs} (hnow : lastFrom t₀ es < now)
    (hleft : (Partition.tick ctx now).state ≠ .reconciling) :
    Smooth ctx (lastFrom t₀ es) now ↔
      65535 * 1000000 + lost t₀ (es ++ [.tick now]) ≤ 6553 * (now.toNat - t₀.toNat) := by
  have hle : t₀.toNat ≤ (lastFrom t₀ es).toNat := (gaps_sum hordered).2
  have hordered' := hordered.concat_tick hnow
  have hlate : ¬ now.toNat - t₀.toNat < 10000000 := by
    intro hearly
    have hbound := grown_le hordered' (by rw [lastFrom_tick]; exact hearly)
    rw [tickTimes_concat] at hbound
    change grown _ _ (gaps t₀ (tickTimes es ++ [now])) ≤ _ at hbound
    rw [gaps_concat, grown_concat] at hbound
    have hsum : grown 6553 1000000 (gaps t₀ (tickTimes es))
        + 6553 * (now.toNat - (lastFrom t₀ es).toNat) / 1000000 < 65536 :=
      lt_of_le_of_lt hbound (by decide)
    exact hleft (h.tick_early hle hnow hearly hsum).state
  have hfull : (Partition.getPowerFactor (Partition.tick ctx now)).toInt = 65536 := by
    unfold Partition.getPowerFactor
    rw [h.tick_late hle hlate]
    exact (by decide : (one : Int32).toInt = 65536)
  have hsum := grown_dropped 6553 1000000 (gaps t₀ (tickTimes (es ++ [.tick now])))
  rw [(gaps_sum hordered').1] at hsum
  have hlast : (tickTimes (es ++ [.tick now])).getLastD t₀ = now := lastFrom_tick t₀ es now
  have hgrown : grown 6553 1000000 (gaps t₀ (tickTimes (es ++ [.tick now])))
      = grown 6553 1000000 (gaps t₀ (tickTimes es))
        + 6553 * (now.toNat - (lastFrom t₀ es).toNat) / 1000000 := by
    rw [tickTimes_concat]
    show grown _ _ (gaps t₀ (tickTimes es ++ [now])) = _
    rw [gaps_concat, grown_concat]
    rfl
  rw [hlast] at hsum
  unfold Smooth lost
  rw [hfull, h.getPowerFactor]
  omega

end

/-- **The power ramp.**  In every run that stays in RECONCILING since the tick at `t₀`: the power
factor is the ideal one up to one unit if and only if the ticks lost less than two units; and a
tick that leaves the state makes no jump if and only if the ramp less what was lost reaches all
but one unit. -/
theorem ramp_iff (ctx : Ctx) (t₀ : TimeUs) (hbefore : ctx.state ≠ .reconciling)
    (hentered : (tick ctx t₀).state = .reconciling) (es : List Event) (hordered : Ordered t₀ es)
    (hstay : Stays (tick ctx t₀) es) :
    (Tracks ((machine (tick ctx t₀)).run es) t₀ (lastFrom t₀ es) ↔ lost t₀ es < 2000000) ∧
    ∀ now, lastFrom t₀ es < now →
      (tick ((machine (tick ctx t₀)).run es) now).state ≠ .reconciling →
      (Smooth ((machine (tick ctx t₀)).run es) (lastFrom t₀ es) now ↔
        65535 * 1000000 + lost t₀ (es ++ [.tick now]) ≤ 6553 * (now.toNat - t₀.toNat)) := by
  have hclimb := run_climbing (tick_enters hbefore hentered) es hordered hstay
  exact ⟨hclimb.tracks_iff hordered, fun now hnow hleft => hclimb.smooth_iff hordered hnow hleft⟩

def cutOff : Ctx :=
  { state := .minority
    epoch := 1
    totalModules := 3
    visibleCount := 3
    quorumSize := 2
    stateEnterTime := 100000
    lastTick := 100000
    suspectingStart := 0
    powerRampFactor := 0
    targetPowerFactor := one
    freezeActive := true
    syncReceivedCount := 0
    syncExpectedCount := 0
    syncComplete := false
    maxObservedEpoch := 2 }

/-- one tick, 1 s after the state was entered -/
theorem ramp_second :
    Tracks ((machine (tick cutOff 200000)).run [.tick 1200000]) 200000
        (lastFrom 200000 [.tick 1200000]) ↔ lost 200000 [.tick 1200000] < 2000000 := by
  refine (ramp_iff cutOff 200000 (by decide) (by decide) [.tick 1200000] (by decide) ?_).1
  intro pre hpre
  rcases prefix_concat_iff.mp (show pre <+: [] ++ [.tick 1200000] from hpre) with rfl | hnil
  · decide
  · rw [prefix_nil.mp hnil]
    decide

/-- with ticks of 1 ms the power factor is two units behind after the fourth; and without a tick
for 10 s it goes up by 65536 at once, where the ramp allows 65530 -/
theorem ramp_lags :
    ¬ Tracks ((machine (tick cutOff 200000)).run
        [.tick 201000, .tick 202000, .tick 203000, .tick 204000]) 200000 204000 ∧
    (tick (tick cutOff 200000) 10200000).state = .healthy ∧
    ¬ Smooth (tick cutOff 200000) 200000 10200000 := by
  decide

end Partition
end EkKor
