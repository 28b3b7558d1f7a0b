import EkKor.Agreement.Tracked

/-!
# The two failure detectors

The C engine counts whole missed periods, the Rust engine compares the elapsed time with two
thresholds.

* `OnTime`            the thresholds find what the missed periods are, for one neighbor;
* `Alike`             the condition on a call;
* `verdict_iff`       one neighbor at a tick;
* `detectors_agree_iff`   the engines agree on all calls of a run exactly when all meet it.
-/

namespace EkKor
namespace Agreement
namespace Detectors
open Runs Heartbeat List

/-! ## the condition -/

/-- `timeout`, as a release build has it -/
def timeout (config : Rust.HeartbeatConfig) : TimeUs := config.period * config.timeoutCount.toUInt64

/-- `suspect_threshold` -/
def suspectThreshold (config : Rust.HeartbeatConfig) : TimeUs := config.period * 2

/-- the condition on one neighbor at a tick, for what is known of it and its health state: one that
was never heard from is not late since time 0; of one that was, and is not dead, the thresholds tell
the missed periods -/
def OnTime (config : Rust.HeartbeatConfig) (now : TimeUs) (old : Health) :
    Option (Option TimeUs) → Prop
  | none => True
  | some none => now ≤ suspectThreshold config ∧ now ≤ timeout config
  | some (some lastSeen) => old ≠ .dead →
    let elapsed := now - lastSeen
    let missed := elapsed.toNat / config.period.toNat
    if missed = 0 then elapsed ≤ suspectThreshold config ∧ elapsed ≤ timeout config
    else if missed < config.timeoutCount.toNat then
      (suspectThreshold config < elapsed ∨ old = .suspect) ∧ elapsed ≤ timeout config
    else timeout config < elapsed ∧ config.timeoutCount.toNat ≤ missed % 2 ^ 32

/-- the condition on a call -/
structure Alike (checks : Bool) (config : Rust.HeartbeatConfig) (hb : Heartbeat) (pre : List Op)
    (op : Op) : Prop where
  self : ∀ sequence now, op = .received hb.myId sequence now → heard hb.myId pre = none
  fits : ∀ now sent time, op = .tick now sent time → checks = true → ∀ id ≠ hb.myId,
    heard id pre ≠ none → getHealth (after hb pre) id ≠ .dead →
      config.period.toNat * config.timeoutCount.toNat < 2 ^ 64
  onTime : ∀ now sent time, op = .tick now sent time → ∀ id ≠ hb.myId,
    OnTime config now (getHealth (after hb pre) id) (heard id pre)

/-! ## the Rust engine at a tick -/

variable {checks : Bool} {myId : ModuleId} {config : Rust.HeartbeatConfig} {c : Heartbeat}
  {r : Rust.Heartbeat} {id : ModuleId} {now : TimeUs}

def verdict (config : Rust.HeartbeatConfig) (now : TimeUs) (n : Rust.HeartbeatNeighbor) :
    Rust.HeartbeatNeighbor × List Out :=
  if n.health = .dead then (n, [])
  else Rust.Heartbeat.judge config allCallbacks (Rust.Heartbeat.saturatingSub now n.lastSeen)
    (timeout config) (suspectThreshold config) n

variable {a b : TimeUs} {n : Neighbor} {β : Type} {n' : Rust.HeartbeatNeighbor}
  {sent : Except Err Unit}

theorem mulTime_of_fits (h : checks = true → a.toNat * b.toNat < 2 ^ 64) :
    Rust.Heartbeat.mulTime checks a b = some (a * b) := by
  refine if_neg fun hboth => ?_
  obtain ⟨hchecks, hbig⟩ := (Bool.and_eq_true ..).mp hboth
  exact absurd (of_decide_eq_true hbig) (Nat.not_le.mpr (h hchecks))

theorem mulTime_of_big (h : 2 ^ 64 ≤ a.toNat * b.toNat) :
    Rust.Heartbeat.mulTime true a b = none := if_pos (decide_eq_true h)

theorem two_le (hcount : 2 ≤ config.timeoutCount) : 2 ≤ config.timeoutCount.toNat :=
  UInt8.le_iff_toNat_le.mp hcount

theorem checkNeighbor_of_fits (hcount : 2 ≤ config.timeoutCount) {n : Rust.HeartbeatNeighbor}
    (h : checks = true → n.health ≠ .dead →
      config.period.toNat * config.timeoutCount.toNat < 2 ^ 64) :
    Rust.Heartbeat.checkNeighbor checks config allCallbacks now n = some (verdict config now n) := by
  unfold Rust.Heartbeat.checkNeighbor verdict
  by_cases hdead : n.health = .dead
  · rw [if_pos hdead, if_pos hdead]
  · rw [if_neg hdead, if_neg hdead]
    have hsmall (hchecks : checks = true) : config.period.toNat * (2 : UInt64).toNat < 2 ^ 64 :=
      Nat.lt_of_le_of_lt (Nat.mul_le_mul_left _ (two_le hcount)) (h hchecks hdead)
    rw [mulTime_of_fits fun hchecks => h hchecks hdead, mulTime_of_fits hsmall]
    rfl

theorem checkNeighbor_of_big {n : Rust.HeartbeatNeighbor} (hdead : n.health ≠ .dead)
    (hbig : 2 ^ 64 ≤ config.period.toNat * config.timeoutCount.toNat) :
    Rust.Heartbeat.checkNeighbor true config allCallbacks now n = none := by
  unfold Rust.Heartbeat.checkNeighbor
  rw [if_neg hdead, mulTime_of_big hbig]
  rfl

theorem mapM_of_some {α : Type} {f : α → Option β} {g : α → β} {l : List α}
    (h : ∀ a ∈ l, f a = some (g a)) : l.mapM f = some (l.map g) := by
  induction l with
  | nil => rfl
  | cons a l ih =>
    rw [mapM_cons, h a mem_cons_self, ih fun b hb => h b (mem_cons_of_mem a hb)]
    rfl

theorem mapM_of_none {α : Type} {f : α → Option β} {l : List α} {a : α} (ha : a ∈ l)
    (h : f a = none) : l.mapM f = none := by
  induction l with
  | nil => cases ha
  | cons b l ih =>
    rw [mapM_cons]
    rcases mem_cons.mp ha with rfl | ha
    · rw [h]
      rfl
    · rw [ih ha]
      cases f b <;> rfl

theorem verdict_id (config : Rust.HeartbeatConfig) (now : TimeUs) (n : Rust.HeartbeatNeighbor) :
    (verdict config now n).1.id = n.id ∧ (verdict config now n).1.lastSeen = n.lastSeen := by
  unfold verdict Rust.Heartbeat.judge
  split_ifs <;> exact ⟨rfl, rfl⟩

theorem verdict_calls (config : Rust.HeartbeatConfig) (now : TimeUs) (n : Rust.HeartbeatNeighbor) :
    (verdict config now n).2 = changeCall n.id n.health (verdict config now n).1.health := by
  unfold verdict Rust.Heartbeat.judge changeCall
  split_ifs <;> first | rfl | contradiction

theorem verdict_health (config : Rust.HeartbeatConfig) (now : TimeUs)
    (n : Rust.HeartbeatNeighbor) : (verdict config now n).1.health =
      if n.health = .dead then .dead
      else if timeout config < Rust.Heartbeat.saturatingSub now n.lastSeen then .dead
      else if suspectThreshold config < Rust.Heartbeat.saturatingSub now n.lastSeen then .suspect
      else n.health := by
  unfold verdict Rust.Heartbeat.judge
  split_ifs with hdead
  · exact hdead
  all_goals rfl

/-! ## one neighbor at a tick -/

theorem saturatingSub_of_le (h : b ≤ a) : Rust.Heartbeat.saturatingSub a b = a - b :=
  if_pos h

theorem timeout_toNat (h : config.period.toNat * config.timeoutCount.toNat < 2 ^ 64) :
    (timeout config).toNat = config.period.toNat * config.timeoutCount.toNat := by
  unfold timeout
  rw [UInt64.toNat_mul, UInt8.toNat_toUInt64, Nat.mod_eq_of_lt h]

theorem periods_eq {lastSeen : TimeUs} (h : lastSeen ≤ now) : periods (cConfig config) now lastSeen =
    (now - lastSeen).toNat / config.period.toNat := by
  rw [UInt64.toNat_sub_of_le _ _ h]
  rfl

def byThresholds (suspectAfter deadAfter elapsed : TimeUs) (old : Health) : Health :=
  if deadAfter < elapsed then .dead else if suspectAfter < elapsed then .suspect else old

section
variable {suspectAfter deadAfter elapsed : TimeUs} {old : Health}

theorem byThresholds_same (hold : old ≠ .dead) (hold' : old ≠ .suspect) :
    byThresholds suspectAfter deadAfter elapsed old = old ↔
      elapsed ≤ suspectAfter ∧ elapsed ≤ deadAfter := by
  rw [← UInt64.not_lt, ← UInt64.not_lt]
  unfold byThresholds
  split_ifs with hdead hsuspect
  · exact iff_of_false hold.symm fun h => h.2 hdead
  · exact iff_of_false hold'.symm fun h => h.1 hsuspect
  · exact iff_of_true rfl ⟨hsuspect, hdead⟩

theorem byThresholds_suspect : byThresholds suspectAfter deadAfter elapsed old = .suspect ↔
    (suspectAfter < elapsed ∨ old = .suspect) ∧ elapsed ≤ deadAfter := by
  rw [← UInt64.not_lt]
  unfold byThresholds
  split_ifs with hdead hsuspect
  · exact iff_of_false nofun fun h => h.2 hdead
  · exact iff_of_true rfl ⟨.inl hsuspect, hdead⟩
  · exact ⟨fun h => ⟨.inr h, hdead⟩, fun h => h.1.resolve_left hsuspect⟩

theorem byThresholds_dead (hold : old ≠ .dead) :
    byThresholds suspectAfter deadAfter elapsed old = .dead ↔ deadAfter < elapsed := by
  unfold byThresholds
  split_ifs with hdead hsuspect
  · exact iff_of_true rfl hdead
  · exact iff_of_false nofun hdead
  · exact iff_of_false hold hdead

end

/-- **One neighbor.** Both engines find the same health state exactly under the condition. -/
theorem verdict_iff (hperiod : 0 < config.period) (hcount : 2 ≤ config.timeoutCount) {last : TimeUs}
    {known : Option (Option TimeUs)} (hkept : Kept (cConfig config) id last known (some n))
    (hlast : last ≤ now) (hsame : SameNeighbor n n') (cb : Callbacks) :
    (verdict config now n').1.health = (checkNeighbor (cConfig config) cb now n).1.health ↔
      OnTime config now n.health known := by
  rw [verdict_health, ← hsame.health, ← hsame.lastSeen]
  match known, hkept with
  | some none, hkept =>
    have hunknown : n.health = .unknown := hkept.2
    have hcheck : (checkNeighbor (cConfig config) cb now n).1.health = .unknown := by
      unfold checkNeighbor
      rw [if_pos hunknown]
      exact hunknown
    rw [hcheck, hsame.unheard hunknown, saturatingSub_of_le UInt64.zero_le, hunknown,
      UInt64.sub_zero]
    exact byThresholds_same nofun nofun
  | some (some lastSeen), hkept =>
    obtain ⟨hfound, -⟩ := check_heard cb hkept hlast
    obtain ⟨-, hseen, hle, hmissed, hhealth⟩ := hkept
    have hle' : lastSeen ≤ now := UInt64.le_trans hle hlast
    have hmono := Nat.le_trans hmissed (periods_mono (cConfig config) hlast lastSeen)
    have hlimit : (cConfig config).timeoutCount.toNat = config.timeoutCount.toNat := rfl
    have htwo := two_le hcount
    have hlt := config.timeoutCount.toNat_lt
    have hone : 1 ≤ (cConfig config).timeoutCount.toNat := by omega
    rw [hfound, hseen, saturatingSub_of_le hle']
    rw [periods_eq hle'] at hmono ⊢
    unfold OnTime
    dsimp only
    generalize now - lastSeen = elapsed at *
    generalize hm : elapsed.toNat / config.period.toNat = missed at *
    generalize n.missedCount.toNat = count at *
    by_cases hdead : n.health = .dead
    · -- the counter has reached the limit already
      have hreached := (healthAt_dead hone count).mp (hhealth.symm.trans hdead)
      rw [if_pos hdead]
      refine iff_of_true ((healthAt_dead hone _).mpr ?_).symm fun h => absurd hdead h
      exact Nat.le_trans hreached (Nat.le_max_left ..)
    · have hbelow : count < config.timeoutCount.toNat := by
        by_contra hreached
        exact hdead (hhealth.trans ((healthAt_dead hone count).mpr (Nat.le_of_not_lt hreached)))
      rw [if_neg hdead, forall_prop_of_true hdead]
      show byThresholds _ _ elapsed n.health = _ ↔ _
      by_cases hzero : missed = 0
      · have hcount0 : count = 0 := by omega
        have halive : n.health = .alive := by rw [hhealth, hcount0]; rfl
        rw [if_pos hzero, hzero, hcount0, halive]
        exact byThresholds_same nofun nofun
      · rw [if_neg hzero]
        by_cases hless : missed < config.timeoutCount.toNat
        · have hfull : max count (min 255 (missed % 2 ^ 32)) = missed := by
            omega
          have hsuspect : healthAt (cConfig config) missed = .suspect := by
            exact (if_neg hzero).trans (if_pos hless)
          rw [if_pos hless, hfull, hsuspect]
          exact byThresholds_suspect
        · rw [if_neg hless]
          have hreached := Nat.le_of_not_lt hless
          -- the timeout fits, because the elapsed time does
          have hdiv : config.period.toNat * missed ≤ elapsed.toNat := hm ▸ Nat.mul_div_le ..
          have hmul := Nat.mul_le_mul_left config.period.toNat hreached
          have hfits : config.period.toNat * config.timeoutCount.toNat < 2 ^ 64 := by
            have hlt := elapsed.toNat_lt
            omega
          have htimeout := timeout_toNat hfits
          have hcounted : healthAt (cConfig config) (max count (min 255 (missed % 2 ^ 32))) = .dead ↔
              config.timeoutCount.toNat ≤ missed % 2 ^ 32 := by
            rw [healthAt_dead hone, hlimit]
            omega
          by_cases hlate : timeout config < elapsed
          · rw [(byThresholds_dead hdead).mpr hlate, eq_comm, hcounted, and_iff_right hlate]
          · -- the timeout is over right now
            have hnow : elapsed.toNat = config.period.toNat * config.timeoutCount.toNat := by
              have hge := Nat.le_of_not_lt fun h => hlate (UInt64.lt_iff_toNat_lt.mpr h)
              omega
            have hexact : missed = config.timeoutCount.toNat := by
              rw [← hm, hnow]
              exact Nat.mul_div_cancel_left _ (UInt64.lt_iff_toNat_lt.mp hperiod)
            have hfound' : config.timeoutCount.toNat ≤ missed % 2 ^ 32 := by
              rw [hexact, Nat.mod_eq_of_lt (by omega)]
            rw [hcounted.mpr hfound', byThresholds_dead hdead]
            exact iff_of_false hlate fun h => hlate h.1

/-! ## a tick -/

theorem rust_tick_eq (h : Same myId config c r) (hcount : 2 ≤ config.timeoutCount)
    (hfits : checks = true → ∀ n ∈ r.neighbors, n.health ≠ .dead →
      config.period.toNat * config.timeoutCount.toNat < 2 ^ 64) (now : TimeUs) :
    ∃ r', r.tick checks now = some
        (r.neighbors.countP fun n => decide ((verdict config now n).1.health ≠ n.health), r',
          r.neighbors.flatMap fun n => (verdict config now n).2) ∧
      r'.myId = r.myId ∧ r'.config = config ∧ r'.callbacks = allCallbacks ∧
      r'.neighbors = r.neighbors.map fun n => (verdict config now n).1 := by
  have hchecked : r.neighbors.mapM (Rust.Heartbeat.checkNeighbor checks config allCallbacks now) =
      some (r.neighbors.map (verdict config now)) :=
    mapM_of_some fun n hn => checkNeighbor_of_fits hcount fun hchecks => hfits hchecks n hn
  have hcounts : (r.neighbors.zip (r.neighbors.map (verdict config now))).countP
      (fun p => decide (p.2.1.health ≠ p.1.health)) =
        r.neighbors.countP fun n => decide ((verdict config now n).1.health ≠ n.health) := by
    rw [← map_prod_left_eq_zip, countP_map]
    rfl
  unfold Rust.Heartbeat.tick
  rw [h.rConfig, h.rCallbacks, hchecked]
  rw [Option.bind_eq_bind, Option.bind_some, hcounts, flatMap_map, map_map]
  dsimp only
  split_ifs
  · exact ⟨_, rfl, rfl, rfl, rfl, rfl⟩
  · exact ⟨_, rfl, rfl, rfl, rfl, rfl⟩

theorem check_calls (config : Heartbeat.Config) (now : TimeUs) (n : Neighbor) :
    (checkNeighbor config allCallbacks now n).2 =
      changeCall n.id n.health (checkNeighbor config allCallbacks now n).1.health := by
  unfold checkNeighbor
  split_ifs
  · exact (if_pos rfl).symm
  · rw [setNeighborHealth_calls, setNeighborHealth_health, countMissed_id,
      (countMissed_frame config now n).2]

theorem check_lastSeen (config : Heartbeat.Config) (now : TimeUs) (n : Neighbor) :
    (checkNeighbor config allCallbacks now n).1.lastSeen = n.lastSeen := by
  unfold checkNeighbor
  split_ifs
  · rfl
  · rw [setNeighborHealth_health]
    exact (countMissed_frame config now n).1

theorem check_unknown (config : Heartbeat.Config) (now : TimeUs) (n : Neighbor) :
    (checkNeighbor config allCallbacks now n).1.health = .unknown ↔ n.health = .unknown := by
  unfold checkNeighbor
  split_ifs with hunknown
  · rfl
  · rw [setNeighborHealth_health, healthOf_eq]
    exact iff_of_false (healthAt_ne_unknown config _) hunknown

theorem filter_changeCall (id : ModuleId) (old new : Health) :
    (changeCall id old new).filter isCallback = changeCall id old new := by
  unfold changeCall
  split_ifs
  · rfl
  · exact filter_isCallback allCallbacks id new

theorem tick_parts (c : Heartbeat) (now : TimeUs) (sent : Except Err Unit) (time : TimeUs)
    (hcb : c.callbacks = allCallbacks) :
    (tick c now sent time).1 = c.neighbors.countP (fun n =>
        decide ((checkNeighbor c.config allCallbacks now n).1.health ≠ n.health)) ∧
      (tick c now sent time).2.1.myId = c.myId ∧
      (tick c now sent time).2.1.config = c.config ∧
      (tick c now sent time).2.1.callbacks = c.callbacks ∧
      (tick c now sent time).2.1.neighbors =
        c.neighbors.map (fun n => (checkNeighbor c.config allCallbacks now n).1) ∧
      (tick c now sent time).2.2.filter isCallback =
        c.neighbors.flatMap fun n => (checkNeighbor c.config allCallbacks now n).2 := by
  have hcalls : (c.neighbors.flatMap fun n => (checkNeighbor c.config allCallbacks now n).2).filter
      isCallback = c.neighbors.flatMap fun n => (checkNeighbor c.config allCallbacks now n).2 := by
    rw [filter_flatMap]
    refine congrArg (fun f => List.flatMap f c.neighbors) (funext fun n => ?_)
    rw [check_calls]
    exact filter_changeCall ..
  unfold tick
  rw [hcb]
  dsimp only
  split_ifs
  · refine ⟨rfl, rfl, rfl, rfl, rfl, ?_⟩
    rw [filter_append, hcalls]
    exact append_nil _
  · exact ⟨rfl, rfl, rfl, rfl, rfl, hcalls⟩

theorem flatMap_others {l : List Neighbor} {f : Neighbor → List β}
    (h : ∀ n ∈ l, n.id = myId → f n = []) : (others myId l).flatMap f = l.flatMap f := by
  unfold others
  induction l with
  | nil => rfl
  | cons n l ih =>
    have hrest := ih fun m hm => h m (mem_cons_of_mem n hm)
    by_cases hid : n.id = myId
    · rw [filter_cons_of_neg (by simpa using hid), hrest, flatMap_cons,
        h n mem_cons_self hid, nil_append]
    · rw [filter_cons_of_pos (by simpa using hid), flatMap_cons, flatMap_cons, hrest]

theorem countP_others {l : List Neighbor} {p : Neighbor → Bool}
    (h : ∀ n ∈ l, n.id = myId → p n = false) : (others myId l).countP p = l.countP p := by
  unfold others
  rw [countP_filter]
  refine countP_congr fun n hn => ?_
  by_cases hid : n.id = myId
  · rw [h n hn hid, Bool.false_and]
  · rw [decide_eq_true hid, Bool.and_true]

theorem check_self (h : Same myId config c r) (hn : n ∈ c.neighbors) (hid : n.id = myId)
    (now : TimeUs) : checkNeighbor c.config allCallbacks now n = (n, []) := by
  unfold checkNeighbor
  rw [if_pos (h.self n hn hid)]

/-- **A tick.** When both engines find the same health states they stay related. -/
theorem same_tick (h : Same myId config c r) (hcount : 2 ≤ config.timeoutCount)
    (hfits : checks = true → ∀ n ∈ r.neighbors, n.health ≠ .dead →
      config.period.toNat * config.timeoutCount.toNat < 2 ^ 64)
    (hhealth : ∀ n ∈ c.neighbors, n.id ≠ myId → ∀ n', SameNeighbor n n' →
      (verdict config now n').1.health = (checkNeighbor c.config allCallbacks now n).1.health)
    (sent : Except Err Unit) (time : TimeUs) :
    ∃ r', r.tick checks now = some ((tick c now sent time).1, r',
        (tick c now sent time).2.2.filter isCallback) ∧
      Same myId config (tick c now sent time).2.1 r' := by
  obtain ⟨r', htick, hmyId, hconfig, hcb, hneighbors⟩ := rust_tick_eq h hcount hfits now
  obtain ⟨hcounts, hmyId', hconfig', hcb', hneighbors', hcalls⟩ :=
    tick_parts c now sent time h.cCallbacks
  have hcounted : r.neighbors.countP (fun n =>
      decide ((verdict config now n).1.health ≠ n.health)) = (tick c now sent time).1 := by
    rw [hcounts, ← countP_others fun n hn hid => ?_]
    · have hmap := map_rel (f := fun n => decide
          ((checkNeighbor c.config allCallbacks now n).1.health ≠ n.health))
        (g := fun n => decide ((verdict config now n).1.health ≠ n.health)) h.known ?_
      · have hboth := congrArg (List.countP id) hmap
        rw [countP_map, countP_map] at hboth
        exact hboth.symm
      · rintro n n' ⟨⟨hn, hid⟩, hsame⟩
        rw [hhealth n hn hid n' hsame, hsame.health]
    · rw [check_self h hn hid]
      exact decide_eq_false fun hne => hne rfl
  have houts : r.neighbors.flatMap (fun n => (verdict config now n).2) =
      (tick c now sent time).2.2.filter isCallback := by
    rw [hcalls, ← flatMap_others fun n hn hid => ?_]
    · have hmap := map_rel (f := fun n => (checkNeighbor c.config allCallbacks now n).2)
        (g := fun n => (verdict config now n).2) h.known ?_
      · rw [flatMap_def, flatMap_def, hmap]
      · rintro n n' ⟨⟨hn, hid⟩, hsame⟩
        rw [verdict_calls, check_calls, hhealth n hn hid n' hsame, hsame.health, hsame.id]
    · rw [check_self h hn hid]
  refine ⟨r', by rw [htick, hcounted, houts], ?_⟩
  have hsame := h.map (f := fun n => (checkNeighbor c.config allCallbacks now n).1)
    (g := fun n => (verdict config now n).1) (fun n => checkNeighbor_id ..)
    (fun n hn hid n' hsame => ?_) fun n hn hid => ?_
  · exact
      { cMyId := hmyId'.trans h.cMyId
        rMyId := hmyId.trans h.rMyId
        cConfig := hconfig'.trans h.cConfig
        rConfig := hconfig
        cCallbacks := hcb'.trans h.cCallbacks
        rCallbacks := hcb
        neighbors := by
          rw [hneighbors, hneighbors']
          exact hsame.neighbors
        self := by
          rw [hneighbors']
          exact hsame.self }
  · refine ⟨?_, (hhealth n hn hid n' hsame).symm, ?_, fun hunknown => ?_⟩
    · rw [checkNeighbor_id, (verdict_id config now n').1]
      exact hsame.id
    · rw [check_lastSeen, (verdict_id config now n').2]
      exact hsame.lastSeen
    · rw [check_lastSeen]
      exact hsame.unheard ((check_unknown ..).mp hunknown)
  · rw [check_self h hn hid]
    exact h.self n hn hid

/-! ## one call -/

variable {hb : Heartbeat} {pre : List Op} {op : Op}

/-- both engines after some calls, and what is known of the modules -/
structure Related (config : Rust.HeartbeatConfig) (hb : Heartbeat) (pre : List Op)
    (r : Rust.Heartbeat) : Prop where
  same : Same hb.myId config (after hb pre) r
  sound : Sound (after hb pre)
  kept : ∀ id, Kept (cConfig config) id (lastTime pre) (heard id pre) (find (after hb pre) id)

theorem Related.heard_eq_none (h : Related config hb pre r) (id : ModuleId) :
    heard id pre = none ↔ find (after hb pre) id = none := by
  have hkept := h.kept id
  match heard id pre, find (after hb pre) id, hkept with
  | none, none, _ => exact iff_of_true rfl rfl
  | some none, some _, _ => exact iff_of_false nofun nofun
  | some (some _), some _, _ => exact iff_of_false nofun nofun

theorem Related.getHealth_of_find (h : Related config hb pre r)
    (hfind : find (after hb pre) id = some n) : getHealth (after hb pre) id = n.health := by
  rw [h.sound.getHealth_eq, hfind]
  rfl

theorem Related.of_mem (h : Related config hb pre r) (hn' : n' ∈ r.neighbors) :
    n'.id ≠ hb.myId ∧ ∃ n, find (after hb pre) n'.id = some n ∧
      SameNeighbor n n' := by
  have hrel := h.same.lookup n'.id
  rw [Keyed.lookup_of_mem (h.same.nodup h.sound) hn'] at hrel
  split_ifs at hrel with hid
  · cases hrel
  · refine ⟨hid, ?_⟩
    generalize find (after hb pre) n'.id = o at hrel
    cases hrel with
    | some hsame => exact ⟨_, rfl, hsame⟩

theorem Related.of_find (h : Related config hb pre r) (hid : id ≠ hb.myId)
    (hfind : find (after hb pre) id = some n) : ∃ n',
      Keyed.lookup Rust.HeartbeatNeighbor.id r.neighbors id = some n' ∧ SameNeighbor n n' := by
  have hrel := h.same.lookup id
  rw [if_neg hid, hfind] at hrel
  generalize Keyed.lookup Rust.HeartbeatNeighbor.id r.neighbors id = o at hrel
  cases hrel with
  | some hsame => exact ⟨_, rfl, hsame⟩

theorem Related.stepAgrees (h : Related config hb pre r) {changes : Nat} {r' : Rust.Heartbeat}
    {outs : List Out} (hstep : rustStep checks r op = some (changes, r', outs))
    (hsame : Same hb.myId config (step (after hb pre) op).1 r')
    (houts : outs = (step (after hb pre) op).2.filter isCallback)
    (hchanges : changes = cChanges (after hb pre) op) :
    StepAgrees checks (after hb pre) r op :=
  ⟨changes, r', outs, hstep, hsame.getHealth_eq (view_step h.sound op).1, houts, hchanges⟩

theorem Related.of_alike (h : Related config hb pre r) (hperiod : 0 < config.period)
    (hcount : 2 ≤ config.timeoutCount) {time : TimeUs} (hlast : lastTime pre ≤ now)
    (halike : Alike checks config hb pre (.tick now sent time)) :
    ∃ r', r.tick checks now = some ((tick (after hb pre) now sent time).1, r',
        (tick (after hb pre) now sent time).2.2.filter isCallback) ∧
      Same hb.myId config (tick (after hb pre) now sent time).2.1 r' := by
  refine same_tick h.same hcount (fun hchecks n' hn' hdead => ?_) (fun n hn hid n' hsame => ?_)
    sent time
  · obtain ⟨hid, n, hfind, hsame⟩ := h.of_mem hn'
    refine halike.fits now sent time rfl hchecks n'.id hid (fun hnone => ?_) ?_
    · exact nomatch hfind.symm.trans ((h.heard_eq_none _).mp hnone)
    · rw [h.getHealth_of_find hfind, hsame.health]
      exact hdead
  · have hfind : find (after hb pre) n.id = some n := Keyed.lookup_of_mem h.sound.nodup hn
    have hkept := h.kept n.id
    rw [hfind] at hkept
    have honTime := halike.onTime now sent time rfl n.id hid
    rw [h.getHealth_of_find hfind] at honTime
    rw [h.same.cConfig]
    exact (verdict_iff hperiod hcount hkept hlast hsame allCallbacks).mpr honTime

theorem Related.alike_of_tick (h : Related config hb pre r) (hperiod : 0 < config.period)
    (hcount : 2 ≤ config.timeoutCount) {time : TimeUs} (hlast : lastTime pre ≤ now)
    (hagrees : StepAgrees checks (after hb pre) r (.tick now sent time)) :
    Alike checks config hb pre (.tick now sent time) := by
  obtain ⟨changes, r', outs, hstep, hhealth, -, -⟩ := hagrees
  have hfits (hchecks : checks = true) (n' : Rust.HeartbeatNeighbor) (hn' : n' ∈ r.neighbors)
      (hdead : n'.health ≠ .dead) :
      config.period.toNat * config.timeoutCount.toNat < 2 ^ 64 := by
    by_contra hbig
    have hnone : r.tick checks now = none := by
      unfold Rust.Heartbeat.tick
      rw [h.same.rConfig, h.same.rCallbacks, hchecks,
        mapM_of_none hn' (checkNeighbor_of_big hdead (Nat.le_of_not_lt hbig))]
      rfl
    exact nomatch hstep.symm.trans hnone
  refine ⟨nofun, ?_, ?_⟩
  · rintro now' sent' time' hop hchecks id hid hheard hdead
    cases hfind : find (after hb pre) id with
    | none => exact absurd ((h.heard_eq_none id).mpr hfind) hheard
    | some n =>
      obtain ⟨n', hlookup, hsame⟩ := h.of_find hid hfind
      refine hfits hchecks n' (Keyed.mem_of_lookup hlookup).1 ?_
      rw [← hsame.health, ← h.getHealth_of_find hfind]
      exact hdead
  · rintro now' sent' time' hop id hid
    cases hop
    cases hfind : find (after hb pre) id with
    | none =>
      rw [(h.heard_eq_none id).mpr hfind]
      trivial
    | some n =>
      obtain ⟨n', hlookup, hsame⟩ := h.of_find hid hfind
      have hkept := h.kept id
      rw [hfind] at hkept
      rw [h.getHealth_of_find hfind]
      refine (verdict_iff hperiod hcount hkept hlast hsame allCallbacks).mp ?_
      -- the records after the tick
      obtain ⟨r₁, htick, -, -, -, hneighbors⟩ := rust_tick_eq h.same hcount hfits now
      obtain rfl : r₁ = r' := congrArg (·.2.1) (Option.some.inj (htick.symm.trans hstep))
      have hid' := hhealth id
      obtain ⟨hsound, -, -, hview⟩ := view_step h.sound (.tick now sent time)
      rw [hsound.getHealth_eq, (hview id).1, hfind, h.same.cCallbacks, h.same.cConfig] at hid'
      unfold Rust.Heartbeat.getHealth at hid'
      rw [hneighbors, Keyed.lookup_map fun n => (verdict_id config now n).1, hlookup] at hid'
      exact hid'

/-- **One call.** The engines agree on it exactly under the condition, and are related after it. -/
theorem Related.agrees_iff (h : Related config hb pre r) (hperiod : 0 < config.period)
    (hcount : 2 ≤ config.timeoutCount) (hnow : ∀ now, op.now? = some now → lastTime pre ≤ now) :
    StepAgrees checks (after hb pre) r op ↔ Alike checks config hb pre op := by
  cases op with
  | add id =>
    exact iff_of_true (h.stepAgrees rfl (same_addNeighbor h.same h.sound id) rfl rfl)
      ⟨nofun, nofun, nofun⟩
  | remove id =>
    exact iff_of_true (h.stepAgrees rfl (same_removeNeighbor h.same h.sound id) rfl rfl)
      ⟨nofun, nofun, nofun⟩
  | received senderId sequence now =>
    have halike : Alike checks config hb pre (.received senderId sequence now) ↔
        (senderId = hb.myId → find (after hb pre) hb.myId = none) := by
      rw [← h.heard_eq_none]
      constructor
      · rintro ha rfl
        exact ha.self sequence now rfl
      · refine fun ha => ⟨fun _ _ hop => ?_, nofun, nofun⟩
        cases hop
        exact ha rfl
    rw [halike]
    constructor
    · rintro ⟨changes, r', outs, hstep, -, houts, -⟩ rfl
      -- the own module is never in the Rust engine
      rw [← Option.not_isSome_iff_eq_none]
      intro hsome
      obtain ⟨n, hfind⟩ := Option.isSome_iff_exists.mp hsome
      have hnone := rust_received_of_none h.same.lookup_self sequence now
      have hempty : outs = [] := by
        have heq := congrArg (·.2.2) (Option.some.inj hstep)
        exact heq.symm.trans (congrArg Prod.snd hnone)
      obtain ⟨hmem, hid⟩ := Keyed.mem_of_lookup hfind
      have hunknown := h.same.self n hmem hid
      have hcalls := congrArg Prod.snd (received_of_find h.sound hfind sequence now)
      have halive : (setNeighborHealth allCallbacks (hear (after hb pre).config n sequence now)
          .alive).2 = [.alive n.id] := by
        rw [setNeighborHealth_calls]
        show changeCall n.id n.health .alive = _
        rw [hunknown]
        rfl
      have hstepC : (step (after hb pre) (.received hb.myId sequence now)).2 = [.alive n.id] := by
        rw [h.same.cCallbacks] at hcalls
        exact hcalls.trans halive
      rw [hempty, hstepC] at houts
      exact nomatch houts
    · intro hself
      obtain ⟨hsame, houts⟩ := same_received h.same h.sound sequence now hself
      exact h.stepAgrees rfl hsame houts rfl
  | tick now sent time =>
    refine ⟨h.alike_of_tick hperiod hcount (hnow now rfl), fun ha => ?_⟩
    obtain ⟨r', htick, hsame⟩ := h.of_alike hperiod hcount (hnow now rfl) ha
    exact h.stepAgrees htick hsame rfl rfl

theorem Related.step (h : Related config hb pre r) (hperiod : 0 < config.period)
    (hcount : 2 ≤ config.timeoutCount) (hnow : ∀ now, op.now? = some now → lastTime pre ≤ now)
    (halike : Alike checks config hb pre op) :
    ∃ changes r' outs, rustStep checks r op = some (changes, r', outs) ∧
      Related config hb (pre ++ [op]) r' := by
  have hrun : after hb (pre ++ [op]) = (Heartbeat.step (after hb pre) op).1 := Machine.run_concat ..
  obtain ⟨hsound, -, -, hview⟩ := view_step h.sound op
  have hkept (id : ModuleId) : Kept (cConfig config) id (lastTime (pre ++ [op]))
      (heard id (pre ++ [op])) (find (after hb (pre ++ [op])) id) := by
    rw [lastTime_concat, heard_concat, hrun, (hview id).1, h.same.cConfig]
    exact (h.kept id).step _ op hnow
  have hafter : Sound (after hb (pre ++ [op])) := hrun ▸ hsound
  cases op with
  | add id =>
    refine ⟨0, _, [], rfl, ?_, hafter, hkept⟩
    rw [hrun]
    exact same_addNeighbor h.same h.sound id
  | remove id =>
    refine ⟨0, _, [], rfl, ?_, hafter, hkept⟩
    rw [hrun]
    exact same_removeNeighbor h.same h.sound id
  | received senderId sequence now =>
    have hself (heq : senderId = hb.myId) : find (after hb pre) hb.myId = none := by
      subst heq
      exact (h.heard_eq_none _).mp (halike.self sequence now rfl)
    refine ⟨0, _, _, rfl, ?_, hafter, hkept⟩
    rw [hrun]
    exact (same_received h.same h.sound sequence now hself).1
  | tick now sent time =>
    obtain ⟨r', htick, hsame⟩ := h.of_alike hperiod hcount (hnow now rfl) halike
    refine ⟨_, r', _, htick, ?_, hafter, hkept⟩
    rw [hrun]
    exact hsame

/-! ## runs -/

theorem rustEngine_concat (checks : Bool) (myId : ModuleId) (config : Rust.HeartbeatConfig)
    (ops : List Op) (op : Op) : rustEngine checks myId config (ops ++ [op]) =
      (rustEngine checks myId config ops).bind fun r =>
        (rustStep checks r op).map fun a => a.2.1 := by
  unfold rustEngine
  rw [foldlM_append]
  refine congrArg (Option.bind _) (funext fun r => ?_)
  exact Option.bind_fun_some _

theorem init_related (hinit : init myId (some (cConfig config)) = .ok hb) :
    Related config (hb.setCallbacks allCallbacks) []
      ((Rust.Heartbeat.new myId (some config)).setCallbacks allCallbacks) := by
  have hsound := setCallbacks_sound hinit allCallbacks
  unfold init at hinit
  split_ifs at hinit
  obtain rfl := Except.ok.inj hinit
  exact ⟨⟨rfl, rfl, rfl, rfl, rfl, rfl, .nil, fun _ hn => absurd hn not_mem_nil⟩, hsound,
    fun _ => trivial⟩

theorem related_of_runs (hinit : init myId (some (cConfig config)) = .ok hb)
    (hperiod : 0 < config.period) (hcount : 2 ≤ config.timeoutCount) {ops : List Op}
    (htimed : Timed ops)
    (hops : EveryStep (Agrees checks config (hb.setCallbacks allCallbacks)) ops) :
    ∃ r, rustEngine checks (hb.setCallbacks allCallbacks).myId config ops = some r ∧
      Related config (hb.setCallbacks allCallbacks) ops r := by
  induction ops using List.reverseRecOn with
  | nil =>
    have hstart := init_related hinit
    refine ⟨_, ?_, hstart⟩
    rw [← hstart.same.rMyId]
    rfl
  | append_singleton ops op ih =>
    obtain ⟨hops, hlast⟩ := (everyStep_concat _ ops op).mp hops
    obtain ⟨r, hr, hrelated⟩ := ih (htimed.initial (prefix_append ops [op])) hops
    have hnow (now : TimeUs) : op.now? = some now → lastTime ops ≤ now := htimed.lastTime_le
    obtain ⟨r₁, hr₁, hagrees⟩ := hlast
    obtain rfl := Option.some.inj (hr.symm.trans hr₁)
    have halike := (hrelated.agrees_iff hperiod hcount hnow).mp hagrees
    obtain ⟨changes, r', outs, hstep, hrelated'⟩ := hrelated.step hperiod hcount hnow halike
    refine ⟨r', ?_, hrelated'⟩
    rw [rustEngine_concat, hr, Option.bind_some, hstep]
    rfl

/-- **Main.** With all callbacks, and at times that do not decrease, both detectors agree on all
calls exactly when all calls meet the condition. -/
theorem detectors_agree_iff (hinit : init myId (some (cConfig config)) = .ok hb)
    (hperiod : 0 < config.period) (hcount : 2 ≤ config.timeoutCount) {ops : List Op}
    (htimed : Timed ops) :
    EveryStep (Agrees checks config (hb.setCallbacks allCallbacks)) ops ↔
      EveryStep (Alike checks config (hb.setCallbacks allCallbacks)) ops := by
  refine everyStep_congr_where (V := Timed)
    (fun ops op h => h.initial (prefix_append ops [op])) (fun ops op htimed hops => ?_) ops
    htimed
  obtain ⟨r, hr, hrelated⟩ := related_of_runs hinit hperiod hcount
    (htimed.initial (prefix_append ops [op])) hops
  rw [← hrelated.agrees_iff hperiod hcount fun now => htimed.lastTime_le]
  constructor
  · rintro ⟨r₁, hr₁, hagrees⟩
    obtain rfl := Option.some.inj (hr.symm.trans hr₁)
    exact hagrees
  · exact fun hagrees => ⟨r, hr, hagrees⟩

def sampleRun : List Op :=
  [.add 2, .received 2 0 1000, .tick 30000 (.ok ()) 30000, .tick 61000 (.ok ()) 61000]

theorem detectors_agree_sample : ∃ hb,
    init 1 (some (cConfig Rust.HeartbeatConfig.default)) = .ok hb ∧
      EveryStep (Agrees true Rust.HeartbeatConfig.default (hb.setCallbacks allCallbacks))
        sampleRun := by
  have hinit : init 1 (some (cConfig Rust.HeartbeatConfig.default)) =
      .ok ⟨1, [], 0, 0, cConfig Rust.HeartbeatConfig.default, ⟨false, false, false⟩⟩ := rfl
  refine ⟨_, hinit, (detectors_agree_iff hinit (by decide) (by decide) (by decide)).mpr ?_⟩
  have hheard (pre : List Op) (hpre : pre = [.add 2, .received 2 0 1000] ∨
      pre = [.add 2, .received 2 0 1000, .tick 30000 (.ok ()) 30000]) (id : ModuleId) :
      id = 2 ∧ heard id pre = some (some 1000) ∨ heard id pre = none := by
    by_cases hid : (2 : ModuleId) = id
    · subst hid
      rcases hpre with rfl | rfl <;> exact .inl ⟨rfl, rfl⟩
    · right
      rcases hpre with rfl | rfl <;> simp [heard, heardStep, hid]
  refine (everyStep_concat _ [_, _, _] _).mpr ⟨(everyStep_concat _ [_, _] _).mpr
    ⟨(everyStep_concat _ [_] _).mpr ⟨(everyStep_concat _ [] _).mpr ⟨everyStep_nil _, ?_⟩, ?_⟩,
      ?_⟩, ?_⟩
  · exact ⟨fun _ _ h => Op.noConfusion h, fun _ _ _ h => Op.noConfusion h,
      fun _ _ _ h => Op.noConfusion h⟩
  · refine ⟨fun sequence now hop => ?_, fun _ _ _ h => Op.noConfusion h,
      fun _ _ _ h => Op.noConfusion h⟩
    injection hop with hid
    exact absurd hid (by decide)
  · refine ⟨fun _ _ h => Op.noConfusion h, fun _ _ _ _ _ _ _ _ _ => by decide,
      fun now sent time hop id _ => ?_⟩
    cases hop
    obtain ⟨rfl, h⟩ | h := hheard [.add 2, .received 2 0 1000] (.inl rfl) id
    · refine h.symm ▸ fun _ => ?_
      decide
    · exact h.symm ▸ trivial
  · refine ⟨fun _ _ h => Op.noConfusion h, fun _ _ _ _ _ _ _ _ _ => by decide,
      fun now sent time hop id _ => ?_⟩
    cases hop
    obtain ⟨rfl, h⟩ | h := hheard [.add 2, .received 2 0 1000, .tick 30000 (.ok ()) 30000]
      (.inr rfl) id
    · refine h.symm ▸ fun _ => ?_
      decide
    · exact h.symm ▸ trivial

/-- a neighbor that is silent for one period is suspect in C, and alive in Rust -/
theorem not_agree_onePeriod : ∃ hb,
    init 1 (some (cConfig Rust.HeartbeatConfig.default)) = .ok hb ∧
      0 < Rust.HeartbeatConfig.default.period ∧ 2 ≤ Rust.HeartbeatConfig.default.timeoutCount ∧
      Timed [.add 2, .received 2 0 0, .tick 10000 (.ok ()) 10000] ∧
      ¬EveryStep (Agrees true Rust.HeartbeatConfig.default (hb.setCallbacks allCallbacks))
        [.add 2, .received 2 0 0, .tick 10000 (.ok ()) 10000] := by
  refine ⟨_, rfl, by decide, by decide, by decide, fun h => ?_⟩
  obtain ⟨r, hr, changes, r', outs, hstep, hhealth, -⟩ :=
    h [.add 2, .received 2 0 0] _ (prefix_refl _)
  obtain rfl := Option.some.inj hr
  have hrust := congrArg (Option.map fun a => a.2.1.getHealth 2) hstep
  rw [Option.map_some, hhealth 2] at hrust
  exact absurd hrust (by decide)

end Detectors
end Agreement
end EkKor
