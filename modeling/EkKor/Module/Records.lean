import EkKor.Lib.Runs
import EkKor.Module.Heartbeat

/-!
# The records of the heartbeat engine

Runs of one engine, and what its calls do with the record of one module.

* `Op`, `engine`      the calls, at any times; `Timed` at times that do not decrease;
* `Sound`             the ids are different and valid, so that there is always room;
* `act`               what a call does with one record and which callbacks it calls for it;
* `view_step`         that it does nothing else.
-/

namespace EkKor
namespace Heartbeat
open Runs List

/-! ## runs -/

inductive Op where
  | add (id : ModuleId)
  | remove (id : ModuleId)
  | received (senderId : ModuleId) (sequence : UInt8) (now : TimeUs)
  | tick (now : TimeUs) (sent : Except Err Unit) (time : TimeUs)

def step (hb : Heartbeat) : Op → Heartbeat × List Out
  | .add id => ((addNeighbor hb id).2, [])
  | .remove id => ((removeNeighbor hb id).2, [])
  | .received senderId sequence now => (received hb senderId sequence now).2
  | .tick now sent time => (tick hb now sent time).2

def engine (hb : Heartbeat) : Machine Heartbeat Op Out := ⟨hb, step⟩

def Op.now? : Op → Option TimeUs
  | .received _ _ now => some now
  | .tick now _ _ => some now
  | _ => none

def Timed (ops : List Op) : Prop := (ops.filterMap Op.now?).Pairwise (· ≤ ·)

instance decidableTimed (ops : List Op) : Decidable (Timed ops) :=
  inferInstanceAs (Decidable (List.Pairwise ..))

def lastTime (ops : List Op) : TimeUs := (ops.filterMap Op.now?).getLastD 0

theorem lastTime_concat (ops : List Op) (op : Op) :
    lastTime (ops ++ [op]) = op.now?.getD (lastTime ops) := by
  unfold lastTime
  rw [filterMap_append]
  cases h : op.now? with
  | none =>
    rw [filterMap_cons_none h, filterMap_nil, append_nil]
    rfl
  | some now =>
    rw [filterMap_cons_some h, filterMap_nil, getLastD_concat]
    rfl

theorem Timed.lastTime_le {ops : List Op} {op : Op} (h : Timed (ops ++ [op])) {now : TimeUs}
    (hnow : op.now? = some now) : lastTime ops ≤ now := by
  unfold Timed at h
  rw [filterMap_append, filterMap_cons_some hnow, pairwise_append] at h
  unfold lastTime
  rcases eq_nil_or_concat (ops.filterMap Op.now?) with hnil | ⟨l, t, hl⟩
  · rw [hnil]
    exact UInt64.zero_le
  · rw [concat_eq_append] at hl
    rw [hl, getLastD_concat]
    exact h.2.2 t (by rw [hl]; exact mem_concat_self) now mem_cons_self

theorem Timed.initial {pre ops : List Op} (h : Timed ops) (hpre : pre <+: ops) : Timed pre :=
  List.Pairwise.sublist (hpre.filterMap Op.now?).sublist h

/-! ## one neighbor -/

/-- the ids of the neighbors are different and valid -/
structure Sound (hb : Heartbeat) : Prop where
  nodup : (hb.neighbors.map Neighbor.id).Nodup
  valid : invalidModuleId ∉ hb.neighbors.map Neighbor.id

def find (hb : Heartbeat) (id : ModuleId) : Option Neighbor :=
  Keyed.lookup Neighbor.id hb.neighbors id

def about (id : ModuleId) : Out → Bool
  | .alive i => decide (i = id)
  | .suspect i => decide (i = id)
  | .dead i => decide (i = id)
  | .broadcast .. => false

def act (config : Config) (cb : Callbacks) (id : ModuleId) (o : Option Neighbor) :
    Op → Option Neighbor × List Out
  | .add i => (if i = id ∧ i ≠ invalidModuleId then some (o.getD (newNeighbor id)) else o, [])
  | .remove i => (if i = id then none else o, [])
  | .received senderId sequence now =>
    match o with
    | none => (none, [])
    | some n =>
      if senderId = id then
        let heard := setNeighborHealth cb (hear config n sequence now) .alive
        (some heard.1, heard.2)
      else (some n, [])
  | .tick now _ _ =>
    match o with
    | none => (none, [])
    | some n => (some (checkNeighbor config cb now n).1, (checkNeighbor config cb now n).2)

variable {hb : Heartbeat} (cb : Callbacks) (config : Config)

theorem Sound.find_invalid (h : Sound hb) : find hb invalidModuleId = none :=
  Keyed.lookup_eq_none.mpr h.valid

theorem Sound.getHealth_eq (h : Sound hb) (id : ModuleId) :
    getHealth hb id = ((find hb id).map Neighbor.health).getD .unknown := by
  unfold getHealth
  by_cases hid : id = invalidModuleId
  · rw [if_pos hid, hid, h.find_invalid]
    rfl
  · rw [if_neg hid]
    unfold findNeighborIndex find
    cases hi : Keyed.index Neighbor.id hb.neighbors id with
    | none =>
      rw [Keyed.index_eq_none.mp hi]
      rfl
    | some i =>
      obtain ⟨n, hn, hlookup⟩ := Keyed.index_eq_some hi
      dsimp only
      rw [hn, hlookup]

theorem Sound.length_lt (h : Sound hb) : hb.neighbors.length < maxModules := by
  have hlt := length_lt_maxModules h.nodup h.valid
  rwa [length_map] at hlt

theorem setNeighborHealth_id (n : Neighbor) (h : Health) :
    (setNeighborHealth cb n h).1.id = n.id := by
  unfold setNeighborHealth
  split_ifs <;> rfl

theorem countMissed_id (now : TimeUs) (n : Neighbor) : (countMissed config now n).id = n.id := by
  unfold countMissed
  dsimp only
  split_ifs <;> rfl

theorem checkNeighbor_id (cb : Callbacks) (now : TimeUs) (n : Neighbor) :
    (checkNeighbor config cb now n).1.id = n.id := by
  unfold checkNeighbor
  split_ifs
  · rfl
  · exact (setNeighborHealth_id ..).trans (countMissed_id ..)

theorem filter_call (id id' : ModuleId) (h : Health) :
    (cb.call id' h).filter (about id) = if id' = id then cb.call id' h else [] := by
  cases h <;> unfold Callbacks.call <;> dsimp only
  · exact (ite_self _).symm
  all_goals
    split_ifs with hcb hid hid
    · exact filter_cons_of_pos (decide_eq_true hid)
    · exact filter_cons_of_neg fun h => hid (of_decide_eq_true h)
    all_goals rfl

theorem filter_setNeighborHealth (id : ModuleId) (n : Neighbor) (h : Health) :
    (setNeighborHealth cb n h).2.filter (about id) =
      if n.id = id then (setNeighborHealth cb n h).2 else [] := by
  unfold setNeighborHealth
  split_ifs with hsame hid hid
  · rfl
  · rfl
  · exact (filter_call cb id n.id h).trans (if_pos hid)
  · exact (filter_call cb id n.id h).trans (if_neg hid)

theorem filter_checkNeighbor (cb : Callbacks) (now : TimeUs) (id : ModuleId) (n : Neighbor) :
    (checkNeighbor config cb now n).2.filter (about id) =
      if n.id = id then (checkNeighbor config cb now n).2 else [] := by
  unfold checkNeighbor
  by_cases hunknown : n.health = .unknown
  · rw [if_pos hunknown]
    exact (ite_self _).symm
  · rw [if_neg hunknown]
    rw [filter_setNeighborHealth, countMissed_id]

theorem setCallbacks_sound {myId : ModuleId} {config : Option Config}
    (h : init myId config = .ok hb) (cb : Callbacks) : Sound (hb.setCallbacks cb) := by
  unfold init at h
  split_ifs at h
  obtain rfl := Except.ok.inj h
  exact ⟨nodup_nil, not_mem_nil⟩

theorem addNeighbor_eq (hs : Sound hb) (id : ModuleId) :
    Sound (addNeighbor hb id).2 ∧ (addNeighbor hb id).2.config = hb.config ∧
      (addNeighbor hb id).2.callbacks = hb.callbacks ∧
      ∀ id', find (addNeighbor hb id).2 id' =
        if id = id' ∧ id ≠ invalidModuleId then some ((find hb id').getD (newNeighbor id'))
        else find hb id' := by
  unfold addNeighbor findNeighborIndex
  by_cases hid : id = invalidModuleId
  · rw [if_pos hid]
    exact ⟨hs, rfl, rfl, fun id' => (if_neg fun h => h.2 hid).symm⟩
  · rw [if_neg hid]
    cases hi : Keyed.index Neighbor.id hb.neighbors id with
    | some i =>
      refine ⟨hs, rfl, rfl, fun id' => ?_⟩
      obtain ⟨n, -, hlookup⟩ := Keyed.index_eq_some hi
      dsimp only
      split_ifs with h
      · obtain ⟨rfl, -⟩ := h
        unfold find
        rw [hlookup]
        rfl
      · rfl
    | none =>
      have hnone := Keyed.index_eq_none.mp hi
      rw [if_neg (Nat.not_le.mpr hs.length_lt)]
      refine ⟨⟨Keyed.nodup_concat hs.nodup hnone, ?_⟩, rfl, rfl, fun id' => ?_⟩
      · rw [map_append, mem_append, not_or]
        exact ⟨hs.valid, fun h => hid (mem_singleton.mp h).symm⟩
      · unfold find
        rw [Keyed.lookup_concat hnone]
        show (if id = id' then some (newNeighbor id) else _) = _
        split_ifs with h h' h'
        · rw [← h, hnone]
          rfl
        · exact absurd ⟨h, hid⟩ h'
        · exact absurd h'.1 h
        · rfl

theorem removeNeighbor_eq (hs : Sound hb) (id : ModuleId) :
    Sound (removeNeighbor hb id).2 ∧ (removeNeighbor hb id).2.config = hb.config ∧
      (removeNeighbor hb id).2.callbacks = hb.callbacks ∧
      ∀ id', find (removeNeighbor hb id).2 id' = if id = id' then none else find hb id' := by
  have hskip (h : find hb id = none) (id' : ModuleId) :
      find hb id' = if id = id' then none else find hb id' := by
    split_ifs with hid
    · exact hid ▸ h
    · rfl
  unfold removeNeighbor findNeighborIndex
  by_cases hid : id = invalidModuleId
  · rw [if_pos hid]
    exact ⟨hs, rfl, rfl, hskip (hid ▸ hs.find_invalid)⟩
  · rw [if_neg hid]
    cases hi : Keyed.index Neighbor.id hb.neighbors id with
    | none => exact ⟨hs, rfl, rfl, hskip (Keyed.index_eq_none.mp hi)⟩
    | some i =>
      refine ⟨⟨Keyed.nodup_eraseIdx hs.nodup i, fun h => hs.valid ?_⟩, rfl, rfl,
        Keyed.lookup_eraseIdx hs.nodup hi⟩
      exact ((eraseIdx_sublist hb.neighbors i).map Neighbor.id).subset h

theorem received_eq (hs : Sound hb) (senderId : ModuleId) (sequence : UInt8) (now : TimeUs) :
    Sound (received hb senderId sequence now).2.1 ∧
      (received hb senderId sequence now).2.1.config = hb.config ∧
      (received hb senderId sequence now).2.1.callbacks = hb.callbacks ∧
      ∀ id, find (received hb senderId sequence now).2.1 id =
          (act hb.config hb.callbacks id (find hb id) (.received senderId sequence now)).1 ∧
        (received hb senderId sequence now).2.2.filter (about id) =
          (act hb.config hb.callbacks id (find hb id) (.received senderId sequence now)).2 := by
  have hskip (h : find hb senderId = none) (id : ModuleId) :
      find hb id = (act hb.config hb.callbacks id (find hb id) (.received senderId sequence now)).1 ∧
        [] = (act hb.config hb.callbacks id (find hb id) (.received senderId sequence now)).2 := by
    unfold act
    cases hfind : find hb id with
    | none => exact ⟨rfl, rfl⟩
    | some n =>
      have hne : senderId ≠ id := by
        rintro rfl
        rw [h] at hfind
        cases hfind
      dsimp only
      rw [if_neg hne]
      exact ⟨rfl, rfl⟩
  unfold received findNeighborIndex
  by_cases hid : senderId = invalidModuleId
  · rw [if_pos hid]
    exact ⟨hs, rfl, rfl, hskip (hid ▸ hs.find_invalid)⟩
  · rw [if_neg hid]
    cases hi : Keyed.index Neighbor.id hb.neighbors senderId with
    | none => exact ⟨hs, rfl, rfl, hskip (Keyed.index_eq_none.mp hi)⟩
    | some i =>
      obtain ⟨n, hn, hlookup⟩ := Keyed.index_eq_some hi
      have hheard := setNeighborHealth_id hb.callbacks (hear hb.config n sequence now) .alive
      have hnid : (setNeighborHealth hb.callbacks (hear hb.config n sequence now) .alive).1.id =
          senderId := hheard.trans (Keyed.mem_of_lookup hlookup).2
      dsimp only
      rw [hn]
      rw [← hnid] at hi
      have hkeys := Keyed.map_set hi
      refine ⟨⟨hkeys.symm ▸ hs.nodup, hkeys.symm ▸ hs.valid⟩, rfl, rfl, fun id => ?_⟩
      unfold find at *
      rw [Keyed.lookup_set hi, hnid, filter_setNeighborHealth]
      unfold act
      by_cases he : senderId = id
      · subst he
        rw [if_pos rfl, hlookup, if_pos (hheard.symm.trans hnid)]
        dsimp only
        rw [if_pos rfl]
        exact ⟨rfl, rfl⟩
      · rw [if_neg he, if_neg fun h => he (hnid.symm.trans (hheard.trans h))]
        cases Keyed.lookup Neighbor.id hb.neighbors id with
        | none => exact ⟨rfl, rfl⟩
        | some n' =>
          dsimp only
          rw [if_neg he]
          exact ⟨rfl, rfl⟩

theorem tick_eq (hs : Sound hb) (now : TimeUs) (sent : Except Err Unit) (time : TimeUs) :
    Sound (tick hb now sent time).2.1 ∧ (tick hb now sent time).2.1.config = hb.config ∧
      (tick hb now sent time).2.1.callbacks = hb.callbacks ∧
      ∀ id, find (tick hb now sent time).2.1 id =
          (act hb.config hb.callbacks id (find hb id) (.tick now sent time)).1 ∧
        (tick hb now sent time).2.2.filter (about id) =
          (act hb.config hb.callbacks id (find hb id) (.tick now sent time)).2 := by
  have hkeys : (hb.neighbors.map fun n => (checkNeighbor hb.config hb.callbacks now n).1).map
      Neighbor.id = hb.neighbors.map Neighbor.id := by
    rw [map_map]
    exact map_congr_left fun n _ => checkNeighbor_id ..
  have hfind (id : ModuleId) : Keyed.lookup Neighbor.id
      (hb.neighbors.map fun n => (checkNeighbor hb.config hb.callbacks now n).1) id =
        (act hb.config hb.callbacks id (find hb id) (.tick now sent time)).1 := by
    rw [Keyed.lookup_map fun n => checkNeighbor_id ..]
    unfold act find
    cases Keyed.lookup Neighbor.id hb.neighbors id <;> rfl
  have houts (id : ModuleId) : (hb.neighbors.flatMap fun n =>
      (checkNeighbor hb.config hb.callbacks now n).2).filter (about id) =
        (act hb.config hb.callbacks id (find hb id) (.tick now sent time)).2 := by
    rw [Keyed.filter_flatMap hs.nodup fun n => filter_checkNeighbor ..]
    unfold act find
    cases Keyed.lookup Neighbor.id hb.neighbors id <;> rfl
  unfold tick
  dsimp only
  split_ifs
  · refine ⟨⟨hkeys.symm ▸ hs.nodup, hkeys.symm ▸ hs.valid⟩, rfl, rfl, fun id => ⟨hfind id, ?_⟩⟩
    rw [filter_append, houts]
    exact append_nil _
  · exact ⟨⟨hkeys.symm ▸ hs.nodup, hkeys.symm ▸ hs.valid⟩, rfl, rfl, fun id =>
      ⟨hfind id, houts id⟩⟩

/-- **One call.** What it does with the record of each module. -/
theorem view_step (hs : Sound hb) (op : Op) :
    Sound (step hb op).1 ∧ (step hb op).1.config = hb.config ∧
      (step hb op).1.callbacks = hb.callbacks ∧
      ∀ id, find (step hb op).1 id = (act hb.config hb.callbacks id (find hb id) op).1 ∧
        (step hb op).2.filter (about id) = (act hb.config hb.callbacks id (find hb id) op).2 := by
  cases op with
  | add id =>
    obtain ⟨hsound, hconfig, hcb, hfind⟩ := addNeighbor_eq hs id
    exact ⟨hsound, hconfig, hcb, fun id' => ⟨hfind id', rfl⟩⟩
  | remove id =>
    obtain ⟨hsound, hconfig, hcb, hfind⟩ := removeNeighbor_eq hs id
    exact ⟨hsound, hconfig, hcb, fun id' => ⟨hfind id', rfl⟩⟩
  | received senderId sequence now => exact received_eq hs senderId sequence now
  | tick now sent time => exact tick_eq hs now sent time

end Heartbeat
end EkKor
