import EkKor.Module.Records

/-!
# The accuracy of the failure detector

Runs of one engine with all callbacks, for any calls at times that do not decrease.

* `heard`             when a module was heard from last since it was added;
* `Kept`              what the record of a module says about it;
* `Detects`           the health states are the ones of the missed periods, and the callbacks tell
                      every change;
* `Caught`            a module that has missed the limit is dead already, or the counter of 8 bits,
                      which is fed from 32 bits, reaches the limit;
* `detector_accurate_iff`   the detector is right exactly in the runs that meet this condition.
-/

namespace EkKor
namespace Heartbeat
open Runs List

/-! ## what is due -/

/-- a call, for what is known of a module: nothing if it is not tracked, or when it was heard from
last, if it was -/
def heardStep (id : ModuleId) (known : Option (Option TimeUs)) : Op → Option (Option TimeUs)
  | .add i => if i = id ∧ i ≠ invalidModuleId then some (known.getD none) else known
  | .remove i => if i = id then none else known
  | .received senderId _ now => if senderId = id then known.map fun _ => some now else known
  | .tick .. => known

def heard (id : ModuleId) (ops : List Op) : Option (Option TimeUs) :=
  ops.foldl (heardStep id) none

theorem heard_concat (id : ModuleId) (ops : List Op) (op : Op) :
    heard id (ops ++ [op]) = heardStep id (heard id ops) op := foldl_concat ..

def periods (config : Config) (now lastSeen : TimeUs) : Nat :=
  (now.toNat - lastSeen.toNat) / config.period.toNat

def healthAt (config : Config) (missed : Nat) : Health :=
  if missed = 0 then .alive
  else if missed < config.timeoutCount.toNat then .suspect
  else .dead

def healthDue (config : Config) (now : TimeUs) : Option (Option TimeUs) → Health
  | some (some lastSeen) => healthAt config (periods config now lastSeen)
  | _ => .unknown

abbrev allCallbacks : Callbacks := ⟨true, true, true⟩

def changeCall (id : ModuleId) (old new : Health) : List Out :=
  if old = new then [] else allCallbacks.call id new

abbrev after (hb : Heartbeat) (ops : List Op) : Heartbeat := (engine hb).run ops

/-- the detector is right in a run -/
structure Detects (hb : Heartbeat) (ops : List Op) : Prop where
  accurate : EveryStep (fun pre op => ∀ now sent time, op = .tick now sent time → ∀ id,
    getHealth (after hb (pre ++ [op])) id = healthDue hb.config now (heard id pre)) ops
  fires : EveryStep (fun pre op => ∀ id,
    ((engine hb).outs (after hb pre) op).filter (about id) =
      changeCall id (getHealth (after hb pre) id) (getHealth (after hb (pre ++ [op])) id)) ops
  /-- of the calls of the other two callbacks, no two for a death come one after the other -/
  separated : ∀ id, (((engine hb).trace ops).filter fun o => o = .alive id ∨ o = .dead id).IsChain
    fun o o' => ¬(o = .dead id ∧ o' = .dead id)

def Caught (hb : Heartbeat) (pre : List Op) (op : Op) : Prop :=
  ∀ now sent time, op = .tick now sent time → ∀ id lastSeen, heard id pre = some (some lastSeen) →
    let missed := periods hb.config now lastSeen
    let limit := hb.config.timeoutCount.toNat
    limit ≤ missed → getHealth (after hb pre) id = .dead ∨ limit ≤ min 255 (missed % 2 ^ 32)

/-! ## one record -/

variable {config : Config} {now : TimeUs} {n : Neighbor} {id : ModuleId}

theorem missedBeats_toNat (config : Config) (h : n.lastSeen ≤ now) :
    (missedBeats config now n).toNat = periods config now n.lastSeen % 2 ^ 32 := by
  unfold missedBeats periods
  rw [UInt64.toNat_toUInt32, UInt64.toNat_div, UInt64.toNat_sub_of_le _ _ h]

theorem countMissed_toNat (config : Config) (now : TimeUs) (n : Neighbor) :
    (countMissed config now n).missedCount.toNat =
      max n.missedCount.toNat (min 255 (missedBeats config now n).toNat) := by
  have hcount := n.missedCount.toNat_lt
  unfold countMissed
  generalize missedBeats config now n = missed
  have hgt : missed > n.missedCount.toUInt32 ↔ n.missedCount.toNat < missed.toNat := by
    rw [gt_iff_lt, UInt32.lt_iff_toNat_lt, UInt8.toNat_toUInt32]
  by_cases hmore : missed > n.missedCount.toUInt32
  · rw [if_pos hmore]
    rw [hgt] at hmore
    by_cases hsmall : missed < 255
    · rw [if_pos hsmall, UInt32.toNat_toUInt8]
      have hlt : missed.toNat < 255 := UInt32.lt_iff_toNat_lt.mp hsmall
      omega
    · rw [if_neg hsmall]
      have hge : ¬missed.toNat < 255 := fun h => hsmall (UInt32.lt_iff_toNat_lt.mpr h)
      show 255 = _
      omega
  · rw [if_neg hmore]
    rw [hgt] at hmore
    omega

theorem healthOf_eq (config : Config) (n : Neighbor) :
    healthOf config n = healthAt config n.missedCount.toNat := by
  unfold healthOf healthAt
  have hzero : n.missedCount = 0 ↔ n.missedCount.toNat = 0 := by
    rw [← UInt8.toNat_inj]
    rfl
  have hlt : n.missedCount.toUInt32 < config.timeoutCount ↔
      n.missedCount.toNat < config.timeoutCount.toNat := by
    rw [UInt32.lt_iff_toNat_lt, UInt8.toNat_toUInt32]
  simp only [hzero, hlt]

theorem healthAt_ne_unknown (config : Config) (missed : Nat) : healthAt config missed ≠ .unknown := by
  unfold healthAt
  split_ifs <;> nofun

theorem healthAt_dead (hlimit : 1 ≤ config.timeoutCount.toNat) (missed : Nat) :
    healthAt config missed = .dead ↔ config.timeoutCount.toNat ≤ missed := by
  unfold healthAt
  split_ifs with hzero hless
  · exact ⟨nofun, fun h => by omega⟩
  · exact ⟨nofun, fun h => by omega⟩
  · exact ⟨fun _ => by omega, fun _ => rfl⟩

theorem healthAt_counter (hlimit : 1 ≤ config.timeoutCount.toNat) {missed count : Nat}
    (hcount : count ≤ missed) :
    healthAt config (max count (min 255 (missed % 2 ^ 32))) = healthAt config missed ↔
      (config.timeoutCount.toNat ≤ missed → config.timeoutCount.toNat ≤ count ∨
        config.timeoutCount.toNat ≤ min 255 (missed % 2 ^ 32)) := by
  have hlt := config.timeoutCount.toNat_lt
  by_cases hreached : config.timeoutCount.toNat ≤ missed
  · rw [(healthAt_dead hlimit missed).mpr hreached, healthAt_dead hlimit]
    omega
  · -- below the limit nothing is cut off
    refine ⟨fun _ h => absurd h hreached, fun _ => ?_⟩
    unfold healthAt
    by_cases hzero : missed = 0
    · rw [if_pos hzero, if_pos (by omega)]
    · rw [if_neg hzero, if_neg (by omega), if_pos (by omega), if_pos (by omega)]

def Kept (config : Config) (id : ModuleId) (last : TimeUs) (known : Option (Option TimeUs))
    (o : Option Neighbor) : Prop :=
  match known, o with
  | none, none => True
  | some none, some n => n.id = id ∧ n.health = .unknown
  | some (some lastSeen), some n =>
    n.id = id ∧ n.lastSeen = lastSeen ∧ lastSeen ≤ last ∧
      n.missedCount.toNat ≤ periods config last lastSeen ∧
      n.health = healthAt config n.missedCount.toNat
  | _, _ => False

def stored (o : Option Neighbor) : Health := (o.map Neighbor.health).getD .unknown

theorem setNeighborHealth_health (cb : Callbacks) (n : Neighbor) (h : Health) :
    (setNeighborHealth cb n h).1 = { n with health := h } := by
  unfold setNeighborHealth
  split_ifs with hsame
  · rw [← hsame]
  · rfl

theorem setNeighborHealth_calls (n : Neighbor) (h : Health) :
    (setNeighborHealth allCallbacks n h).2 = changeCall n.id n.health h := by
  unfold setNeighborHealth changeCall
  split_ifs <;> rfl

theorem countMissed_frame (config : Config) (now : TimeUs) (n : Neighbor) :
    (countMissed config now n).lastSeen = n.lastSeen ∧
      (countMissed config now n).health = n.health := by
  unfold countMissed
  dsimp only
  split_ifs <;> exact ⟨rfl, rfl⟩

theorem periods_mono (config : Config) {now later : TimeUs} (h : now ≤ later) (lastSeen : TimeUs) :
    periods config now lastSeen ≤ periods config later lastSeen := by
  have hle := UInt64.le_iff_toNat_le.mp h
  exact Nat.div_le_div_right (by omega)

variable {cb : Callbacks} {last : TimeUs} {known : Option (Option TimeUs)} {o : Option Neighbor}
  {op : Op}

theorem check_heard (cb : Callbacks) {lastSeen : TimeUs}
    (hn : Kept config id last (some (some lastSeen)) (some n)) (hlast : last ≤ now) :
    (checkNeighbor config cb now n).1.health =
        healthAt config (max n.missedCount.toNat (min 255 (periods config now lastSeen % 2 ^ 32))) ∧
      Kept config id now (some (some lastSeen)) (some (checkNeighbor config cb now n).1) := by
  obtain ⟨hid, hseen, hle, hcount, hhealth⟩ := hn
  have hknown : n.health ≠ .unknown := hhealth ▸ healthAt_ne_unknown config _
  have hnow : n.lastSeen ≤ now := hseen ▸ UInt64.le_trans hle hlast
  have hbeats := missedBeats_toNat config hnow
  have hcounted := countMissed_toNat config now n
  obtain ⟨hseen', hhealth'⟩ := countMissed_frame config now n
  have hmono := periods_mono config hlast lastSeen
  rw [hbeats, hseen] at hcounted
  unfold checkNeighbor
  rw [if_neg hknown]
  rw [setNeighborHealth_health, healthOf_eq, hcounted]
  refine ⟨rfl, (countMissed_id config now n).trans hid, hseen'.trans hseen,
    UInt64.le_trans hle hlast, ?_, ?_⟩
  · show (countMissed config now n).missedCount.toNat ≤ _
    omega
  · rw [hcounted]

/-- **One step.** The record goes on saying what is known. -/
theorem Kept.step (h : Kept config id last known o) (cb : Callbacks) (op : Op)
    (hnow : ∀ now, op.now? = some now → last ≤ now) :
    Kept config id (op.now?.getD last) (heardStep id known op) (act config cb id o op).1 := by
  cases op with
  | add i =>
    show Kept config id last (if _ then _ else _) (if _ then _ else _)
    by_cases hi : i = id ∧ i ≠ invalidModuleId
    · rw [if_pos hi, if_pos hi]
      match known, o, h with
      | none, none, _ => exact ⟨rfl, rfl⟩
      | some none, some _, h => exact h
      | some (some _), some _, h => exact h
    · rw [if_neg hi, if_neg hi]
      exact h
  | remove i =>
    show Kept config id last (if _ then _ else _) (if _ then _ else _)
    by_cases hi : i = id
    · rw [if_pos hi, if_pos hi]
      trivial
    · rw [if_neg hi, if_neg hi]
      exact h
  | received senderId sequence now =>
    have hle := hnow now rfl
    have hheard (n : Neighbor) (hid : n.id = id) : Kept config id now (some (some now))
        (some (setNeighborHealth cb (hear config n sequence now) .alive).1) := by
      rw [setNeighborHealth_health]
      exact ⟨hid, rfl, UInt64.le_refl now, Nat.zero_le _, rfl⟩
    unfold act heardStep
    match known, o, h with
    | none, none, _ =>
      dsimp only
      split_ifs <;> trivial
    | some none, some n, h =>
      dsimp only
      split_ifs
      · exact hheard n h.1
      · exact h
    | some (some lastSeen), some n, h =>
      dsimp only
      split_ifs
      · exact hheard n h.1
      · obtain ⟨hid, hseen, hlast, hcount, hhealth⟩ := h
        exact ⟨hid, hseen, UInt64.le_trans hlast hle,
          Nat.le_trans hcount (periods_mono config hle lastSeen), hhealth⟩
  | tick now sent time =>
    unfold act heardStep
    match known, o, h with
    | none, none, _ => trivial
    | some none, some n, h =>
      dsimp only
      unfold checkNeighbor
      rw [if_pos h.2]
      exact h
    | some (some lastSeen), some n, h => exact (check_heard cb h (hnow now rfl)).2

theorem act_calls (h : ∀ n, o = some n → n.id = id) (op : Op) :
    (act config allCallbacks id o op).2 = changeCall id (stored o)
      (stored (act config allCallbacks id o op).1) := by
  have hsame (old : Health) : changeCall id old old = [] := if_pos rfl
  have hforget (old : Health) : changeCall id old .unknown = [] := by
    unfold changeCall
    split_ifs <;> rfl
  have hset (n : Neighbor) (new : Health) (hid : n.id = id) :
      (setNeighborHealth allCallbacks n new).2 =
        changeCall id n.health (stored (some (setNeighborHealth allCallbacks n new).1)) := by
    rw [setNeighborHealth_calls, setNeighborHealth_health, hid]
    rfl
  cases op with
  | add i =>
    unfold act
    dsimp only
    split_ifs with hi
    · cases o with
      | none => exact (hforget _).symm
      | some n => exact (hsame _).symm
    · exact (hsame _).symm
  | remove i =>
    unfold act
    dsimp only
    split_ifs with hi
    · exact (hforget _).symm
    · exact (hsame _).symm
  | received senderId sequence now =>
    unfold act
    cases o with
    | none => exact (hsame _).symm
    | some n =>
      dsimp only
      split_ifs with hi
      · exact hset (hear config n sequence now) .alive (h n rfl)
      · exact (hsame _).symm
  | tick now sent time =>
    unfold act
    cases o with
    | none => exact (hsame _).symm
    | some n =>
      dsimp only
      unfold checkNeighbor
      split_ifs with hunknown
      · exact (hsame _).symm
      · refine (hset _ _ ((countMissed_id config now n).trans (h n rfl))).trans ?_
        rw [(countMissed_frame config now n).2]
        rfl

theorem Kept.settled (h : Kept config id last known o) (cb : Callbacks) (op : Op)
    (hlimit : 1 ≤ config.timeoutCount.toNat) (hnow : ∀ now, op.now? = some now → last ≤ now)
    (hold : stored o = .dead ∨ stored o = .unknown) :
    stored (act config cb id o op).1 = stored o ∨ stored (act config cb id o op).1 = .unknown ∨
      stored (act config cb id o op).1 = .alive := by
  cases op with
  | add i =>
    unfold act
    dsimp only
    split_ifs
    · cases o with
      | none => exact .inr (.inl rfl)
      | some n => exact .inl rfl
    · exact .inl rfl
  | remove i =>
    unfold act
    dsimp only
    split_ifs
    · exact .inr (.inl rfl)
    · exact .inl rfl
  | received senderId sequence now =>
    unfold act
    cases o with
    | none => exact .inl rfl
    | some n =>
      dsimp only
      split_ifs
      · rw [setNeighborHealth_health]
        exact .inr (.inr rfl)
      · exact .inl rfl
  | tick now sent time =>
    left
    unfold act
    match known, o, h with
    | none, none, _ => rfl
    | some none, some n, h =>
      dsimp only
      unfold checkNeighbor
      rw [if_pos h.2]
    | some (some lastSeen), some n, h =>
      obtain ⟨hhealth, -⟩ := check_heard cb h (hnow now rfl)
      obtain ⟨-, -, -, -, hcount⟩ := h
      have hdead : n.health = .dead := hold.resolve_right fun h =>
        healthAt_ne_unknown config _ (hcount.symm.trans h)
      -- the counter has reached the limit, and it does not go down
      have hreached := (healthAt_dead hlimit _).mp (hcount.symm.trans hdead)
      show (checkNeighbor config cb now n).1.health = n.health
      rw [hhealth, hdead, healthAt_dead hlimit]
      exact Nat.le_trans hreached (Nat.le_max_left ..)

/-! ## runs -/

/-- an engine that was just initialised, with all callbacks -/
structure Fresh (hb : Heartbeat) : Prop where
  neighbors : hb.neighbors = []
  callbacks : hb.callbacks = allCallbacks

variable {hb : Heartbeat} {ops : List Op}

theorem init_fresh {myId : ModuleId} {c : Option Config} (h : init myId c = .ok hb) :
    Fresh (hb.setCallbacks allCallbacks) := by
  unfold init at h
  split_ifs at h
  obtain rfl := Except.ok.inj h
  exact ⟨rfl, rfl⟩

/-- **A run.** -/
theorem kept_of_runs (hfresh : Fresh hb) (htimed : Timed ops) :
    Sound (after hb ops) ∧ (after hb ops).config = hb.config ∧
      (after hb ops).callbacks = allCallbacks ∧
      ∀ id, Kept hb.config id (lastTime ops) (heard id ops) (find (after hb ops) id) := by
  induction ops using List.reverseRecOn with
  | nil =>
    have hempty : find hb = fun _ => none := by
      unfold find
      rw [hfresh.neighbors]
      rfl
    refine ⟨⟨?_, ?_⟩, rfl, hfresh.callbacks, fun id => ?_⟩
    · show (hb.neighbors.map Neighbor.id).Nodup
      rw [hfresh.neighbors]
      exact nodup_nil
    · show invalidModuleId ∉ hb.neighbors.map Neighbor.id
      rw [hfresh.neighbors]
      exact not_mem_nil
    · show Kept hb.config id _ none (find hb id)
      rw [hempty]
      trivial
  | append_singleton ops op ih =>
    obtain ⟨hs, hconfig, hcb, hkept⟩ := ih (htimed.initial (prefix_append ops [op]))
    obtain ⟨hs', hconfig', hcb', hview⟩ := view_step hs op
    have hrun : after hb (ops ++ [op]) = (step (after hb ops) op).1 := Machine.run_concat ..
    rw [hrun]
    refine ⟨hs', hconfig'.trans hconfig, hcb'.trans hcb, fun id => ?_⟩
    rw [lastTime_concat, heard_concat, (hview id).1, hconfig]
    exact (hkept id).step _ op fun now => htimed.lastTime_le

theorem Kept.id_eq (h : Kept config id last known o) (n : Neighbor) (hn : o = some n) :
    n.id = id := by
  subst hn
  match known, h with
  | some none, h => exact h.1
  | some (some _), h => exact h.1

/-- **The callbacks.** In every run they tell the changes. -/
theorem fires_of_runs (hfresh : Fresh hb) (htimed : Timed (ops ++ [op])) (id : ModuleId) :
    ((engine hb).outs (after hb ops) op).filter (about id) =
      changeCall id (getHealth (after hb ops) id) (getHealth (after hb (ops ++ [op])) id) := by
  obtain ⟨hs, hconfig, hcb, hkept⟩ :=
    kept_of_runs hfresh (htimed.initial (prefix_append ops [op]))
  obtain ⟨hs', -, -, hview⟩ := view_step hs op
  have hrun : after hb (ops ++ [op]) = (step (after hb ops) op).1 := Machine.run_concat ..
  rw [hrun, hs.getHealth_eq, hs'.getHealth_eq, (hview id).1]
  rw [hcb] at hview ⊢
  exact (hview id).2.trans (act_calls (hkept id).id_eq op)

theorem filter_changeCall (id : ModuleId) (old new : Health) :
    (changeCall id old new).filter (fun o => o = .alive id ∨ o = .dead id) =
      if old = new then []
      else match new with
        | .alive => [.alive id]
        | .dead => [.dead id]
        | _ => [] := by
  unfold changeCall
  split_ifs with hsame
  · rfl
  · cases new
    · rfl
    · exact filter_cons_of_pos (decide_eq_true (.inl rfl))
    · exact filter_cons_of_neg (by simp)
    · exact filter_cons_of_pos (decide_eq_true (.inr rfl))

theorem separated_of_runs (hfresh : Fresh hb) (hlimit : 1 ≤ hb.config.timeoutCount.toNat)
    (htimed : Timed ops) (id : ModuleId) :
    let told := ((engine hb).trace ops).filter fun o => o = .alive id ∨ o = .dead id
    told.IsChain (fun o o' => ¬(o = .dead id ∧ o' = .dead id)) ∧
      (told.getLast? = some (.dead id) →
        getHealth (after hb ops) id = .dead ∨ getHealth (after hb ops) id = .unknown) := by
  induction ops using List.reverseRecOn with
  | nil => exact ⟨isChain_nil, nofun⟩
  | append_singleton ops op ih =>
    have hinit := htimed.initial (prefix_append ops [op])
    obtain ⟨hchain, hlast⟩ := ih hinit
    obtain ⟨hs, hconfig, -, hkept⟩ := kept_of_runs hfresh hinit
    obtain ⟨hs', -, -, hview⟩ := view_step hs op
    have hrun : after hb (ops ++ [op]) = (step (after hb ops) op).1 := Machine.run_concat ..
    -- what the call tells is the change it makes
    have hnew : ((engine hb).outs (after hb ops) op).filter
        (fun o => o = .alive id ∨ o = .dead id) = (changeCall id (getHealth (after hb ops) id)
          (getHealth (after hb (ops ++ [op])) id)).filter
            fun o => o = .alive id ∨ o = .dead id := by
      rw [← fires_of_runs hfresh htimed id, filter_filter]
      refine filter_congr fun o _ => ?_
      cases o <;> simp [about]
    have hsettled := (hkept id).settled (after hb ops).callbacks op hlimit
      fun now => htimed.lastTime_le
    rw [← hconfig, ← (hview id).1] at hsettled
    have hold : getHealth (after hb ops) id = stored (find (after hb ops) id) := hs.getHealth_eq id
    have hnow : getHealth (after hb (ops ++ [op])) id = stored (find (step (after hb ops) op).1 id) :=
      hrun ▸ hs'.getHealth_eq id
    rw [filter_changeCall] at hnew
    rw [← hold, ← hnow] at hsettled
    rw [Machine.trace_concat, filter_append, hnew]
    generalize getHealth (after hb ops) id = old at *
    generalize getHealth (after hb (ops ++ [op])) id = new at *
    by_cases hsame : old = new
    · rw [if_pos hsame, append_nil]
      exact ⟨hchain, hsame ▸ hlast⟩
    · rw [if_neg hsame]
      cases new with
      | unknown =>
        rw [append_nil]
        exact ⟨hchain, fun _ => .inr rfl⟩
      | suspect =>
        rw [append_nil]
        refine ⟨hchain, fun h => ?_⟩
        rcases hsettled (hlast h) with h | h | h
        · exact absurd h.symm hsame
        · cases h
        · cases h
      | alive =>
        refine ⟨hchain.append (isChain_singleton _) fun o _ o' ho' => ?_, fun h => ?_⟩
        · obtain rfl := Option.some.inj ho'
          rintro ⟨-, h⟩
          cases h
        · rw [getLast?_concat] at h
          cases h
      | dead =>
        refine ⟨hchain.append (isChain_singleton _) fun o ho o' _ => ?_, fun _ => .inl rfl⟩
        rintro ⟨rfl, -⟩
        rcases hsettled (hlast ho) with h | h | h
        · exact hsame h.symm
        · cases h
        · cases h

theorem accurate_iff (hfresh : Fresh hb) (hlimit : 1 ≤ hb.config.timeoutCount.toNat)
    {sent : Except Err Unit} {time : TimeUs} (htimed : Timed (ops ++ [.tick now sent time])) :
    (∀ id, getHealth (after hb (ops ++ [.tick now sent time])) id =
        healthDue hb.config now (heard id ops)) ↔ Caught hb ops (.tick now sent time) := by
  obtain ⟨hs, hconfig, -, hkept⟩ :=
    kept_of_runs hfresh (htimed.initial (prefix_append ops _))
  obtain ⟨hs', -, -, hview⟩ := view_step hs (.tick now sent time)
  have hrun : after hb (ops ++ [.tick now sent time]) =
      (step (after hb ops) (.tick now sent time)).1 := Machine.run_concat ..
  have hlast : lastTime ops ≤ now := htimed.lastTime_le rfl
  -- of a module that was heard from, the counter decides
  have hone (id : ModuleId) (lastSeen : TimeUs) (hheard : heard id ops = some (some lastSeen)) :
      getHealth (after hb (ops ++ [.tick now sent time])) id =
          healthAt hb.config (periods hb.config now lastSeen) ↔
        (hb.config.timeoutCount.toNat ≤ periods hb.config now lastSeen →
          getHealth (after hb ops) id = .dead ∨ hb.config.timeoutCount.toNat ≤
            min 255 (periods hb.config now lastSeen % 2 ^ 32)) := by
    have hk := hkept id
    rw [hheard] at hk
    rw [hrun, hs'.getHealth_eq, (hview id).1, hs.getHealth_eq, hconfig]
    cases hfind : find (after hb ops) id with
    | none =>
      rw [hfind] at hk
      exact hk.elim
    | some n =>
      rw [hfind] at hk
      obtain ⟨hhealth, -⟩ := check_heard (after hb ops).callbacks hk hlast
      obtain ⟨-, -, hle, hcount, hn⟩ := hk
      show (checkNeighbor hb.config _ now n).1.health = _ ↔ (_ → n.health = .dead ∨ _)
      rw [hhealth, hn, healthAt_dead hlimit]
      exact healthAt_counter hlimit (Nat.le_trans hcount (periods_mono _ hlast lastSeen))
  constructor
  · intro h now' sent' time' hop id lastSeen hheard
    cases hop
    have hid := h id
    rw [hheard] at hid
    exact (hone id lastSeen hheard).mp hid
  · intro h id
    cases hheard : heard id ops with
    | some known =>
      cases known with
      | some lastSeen => exact (hone id lastSeen hheard).mpr (h now sent time rfl id lastSeen hheard)
      | none =>
        -- a neighbor that was not heard from is passed over
        have hk := (hkept id).step (after hb ops).callbacks (.tick now sent time)
          fun now => htimed.lastTime_le
        rw [hheard, ← hconfig, ← (hview id).1] at hk
        rw [hrun, hs'.getHealth_eq]
        cases hfind : find (step (after hb ops) (.tick now sent time)).1 id with
        | none => rfl
        | some n =>
          rw [hfind] at hk
          exact hk.2
    | none =>
      have hk := (hkept id).step (after hb ops).callbacks (.tick now sent time)
        fun now => htimed.lastTime_le
      rw [hheard, ← hconfig, ← (hview id).1] at hk
      rw [hrun, hs'.getHealth_eq]
      cases hfind : find (step (after hb ops) (.tick now sent time)).1 id with
      | none => rfl
      | some n =>
        rw [hfind] at hk
        exact hk.elim

/-- **Main.** After every tick the health states are the ones of the missed periods, and every
change is told once, exactly in the runs where a module that has missed the limit is dead already,
or its missed periods, cut off at 32 bits and then at 255, reach the limit. -/
theorem detector_accurate_iff {myId : ModuleId} {c : Option Config} (hinit : init myId c = .ok hb)
    (_hperiod : 0 < hb.config.period) (hlimit : 1 ≤ hb.config.timeoutCount) (htimed : Timed ops) :
    Detects (hb.setCallbacks allCallbacks) ops ↔
      EveryStep (Caught (hb.setCallbacks allCallbacks)) ops := by
  have hfresh := init_fresh hinit
  have hlimit' : 1 ≤ hb.config.timeoutCount.toNat := UInt32.le_iff_toNat_le.mp hlimit
  constructor
  · intro h pre op hpre now sent time hop
    subst hop
    exact (accurate_iff hfresh hlimit' (htimed.initial hpre)).mp
      (h.accurate pre _ hpre now sent time rfl) now sent time rfl
  · intro h
    refine ⟨?_, fun pre op hpre id => fires_of_runs hfresh (htimed.initial hpre) id, fun id =>
      (separated_of_runs hfresh hlimit' htimed id).1⟩
    rintro pre op hpre now sent time rfl
    exact (accurate_iff hfresh hlimit' (htimed.initial hpre)).mpr (h pre _ hpre)

def sampleRun : List Op :=
  [.add 2, .received 2 0 1000, .tick 20000 (.ok ()) 20000, .tick 61000 (.ok ()) 61000]

theorem detector_accurate_sample : ∃ hb, init 1 none = .ok hb ∧
    Detects (hb.setCallbacks allCallbacks) sampleRun := by
  have hinit : init 1 none =
      .ok ⟨1, [], 0, 0, Config.default, ⟨false, false, false⟩⟩ := rfl
  refine ⟨_, hinit, (detector_accurate_iff hinit (by decide) (by decide) (by decide)).mpr ?_⟩
  have hheard (pre : List Op) (hpre : pre = [.add 2, .received 2 0 1000] ∨
      pre = [.add 2, .received 2 0 1000, .tick 20000 (.ok ()) 20000]) (id : ModuleId)
      (lastSeen : TimeUs) (h : heard id pre = some (some lastSeen)) : lastSeen = 1000 := by
    by_cases hid : (2 : ModuleId) = id
    · rcases hpre with rfl | rfl <;> subst hid <;> cases h <;> rfl
    · have hnone : heard id pre = none := by
        rcases hpre with rfl | rfl <;> simp [heard, heardStep, hid]
      rw [hnone] at h
      cases h
  refine (everyStep_iff _ _).mpr fun k now sent time hop id lastSeen hid => ?_
  match k with
  | ⟨0, _⟩ => cases hop
  | ⟨1, _⟩ => cases hop
  | ⟨2, _⟩ =>
    cases hop
    obtain rfl := hheard _ (.inl rfl) id lastSeen hid
    exact fun h => absurd h (by decide)
  | ⟨3, _⟩ =>
    cases hop
    obtain rfl := hheard _ (.inr rfl) id lastSeen hid
    exact fun _ => .inr (by decide)

/-- with a limit of 256 a module that is silent for a thousand periods is not dead -/
theorem never_dead : ∃ hb, init 1 (some ⟨1, 256, false, false⟩) = .ok hb ∧
    0 < hb.config.period ∧ 1 ≤ hb.config.timeoutCount ∧
    Timed [.add 2, .received 2 0 0, .tick 1000 (.ok ()) 1000] ∧
    ¬Detects (hb.setCallbacks allCallbacks)
      [.add 2, .received 2 0 0, .tick 1000 (.ok ()) 1000] := by
  refine ⟨_, rfl, by decide, by decide, by decide, fun h => ?_⟩
  have htick := h.accurate [.add 2, .received 2 0 0] _ (prefix_refl _) 1000 (.ok ()) 1000 rfl 2
  exact absurd htick (by decide)

end Heartbeat
end EkKor
