import EkKor.Module.Detector
import EkKor.Rust.Heartbeat

/-!
# The neighbors of two failure detectors

* `rustEngine`        the Rust engine over a run of calls;
* `Agrees`            a call makes the same callbacks and the same number of changes, and leaves the
                      same health states;
* `SameNeighbor`, `Same`   the engines know the same of the neighbors; the C engine may have a record
                      of the own module, which `add_neighbor` of the Rust engine turns down;
* `same_addNeighbor`, `same_removeNeighbor`, `same_received`   the calls other than a tick keep this.
-/

namespace EkKor
namespace Agreement
namespace Detectors
open Runs Heartbeat List

/-! ## the engines -/

def cConfig (config : Rust.HeartbeatConfig) : Heartbeat.Config :=
  { period := config.period
    timeoutCount := config.timeoutCount.toUInt32
    autoBroadcast := config.autoBroadcast
    trackLatency := config.trackLatency }

/-- a call of the Rust engine: the number of changes, the engine after it and the callbacks -/
def rustStep (checks : Bool) (r : Rust.Heartbeat) : Op → Option (Nat × Rust.Heartbeat × List Out)
  | .add id => some (0, (r.addNeighbor id).2, [])
  | .remove id => some (0, (r.removeNeighbor id).2, [])
  | .received senderId sequence now => some (0, (r.received senderId sequence now).2)
  | .tick now _ _ => r.tick checks now

def cChanges (c : Heartbeat) : Op → Nat
  | .tick now sent time => (tick c now sent time).1
  | _ => 0

/-- the Rust engine with all callbacks after the calls; `none` if one of them panicked -/
def rustEngine (checks : Bool) (myId : ModuleId) (config : Rust.HeartbeatConfig) (ops : List Op) :
    Option Rust.Heartbeat :=
  ops.foldlM (fun r op => (rustStep checks r op).map fun a => a.2.1)
    ((Rust.Heartbeat.new myId (some config)).setCallbacks allCallbacks)

def isCallback : Out → Bool
  | .broadcast .. => false
  | _ => true

def StepAgrees (checks : Bool) (c : Heartbeat) (r : Rust.Heartbeat) (op : Op) : Prop :=
  ∃ changes r' outs, rustStep checks r op = some (changes, r', outs) ∧
    (∀ id, r'.getHealth id = getHealth (step c op).1 id) ∧
    outs = (step c op).2.filter isCallback ∧ changes = cChanges c op

/-- after `pre`, a call of both engines -/
def Agrees (checks : Bool) (config : Rust.HeartbeatConfig) (hb : Heartbeat) (pre : List Op)
    (op : Op) : Prop :=
  ∃ r, rustEngine checks hb.myId config pre = some r ∧ StepAgrees checks (after hb pre) r op

/-! ## related engines -/

/-- what both engines know of a neighbor -/
structure SameNeighbor (c : Neighbor) (r : Rust.HeartbeatNeighbor) : Prop where
  id : c.id = r.id
  health : c.health = r.health
  lastSeen : c.lastSeen = r.lastSeen
  unheard : c.health = .unknown → c.lastSeen = 0

def others (myId : ModuleId) (l : List Neighbor) : List Neighbor :=
  l.filter fun n => decide (n.id ≠ myId)

structure Same (myId : ModuleId) (config : Rust.HeartbeatConfig) (c : Heartbeat)
    (r : Rust.Heartbeat) : Prop where
  cMyId : c.myId = myId
  rMyId : r.myId = myId
  cConfig : c.config = cConfig config
  rConfig : r.config = config
  cCallbacks : c.callbacks = allCallbacks
  rCallbacks : r.callbacks = allCallbacks
  neighbors : List.Forall₂ SameNeighbor (others myId c.neighbors) r.neighbors
  /-- the record of the own module was never heard from -/
  self : ∀ n ∈ c.neighbors, n.id = myId → n.health = .unknown

variable {myId : ModuleId} {config : Rust.HeartbeatConfig} {c : Heartbeat} {r : Rust.Heartbeat}
  {id : ModuleId} {now : TimeUs}

theorem Same.lookup (h : Same myId config c r) (id : ModuleId) :
    Option.Rel SameNeighbor (if id = myId then none else find c id)
      (Keyed.lookup Rust.HeartbeatNeighbor.id r.neighbors id) := by
  have hrel := Keyed.lookup_rel (fun _ _ h => h.id) h.neighbors id
  unfold others at hrel
  rw [Keyed.lookup_filter] at hrel
  exact hrel

theorem Same.lookup_none (h : Same myId config c r) (hid : id ≠ myId) :
    Keyed.lookup Rust.HeartbeatNeighbor.id r.neighbors id = none ↔ find c id = none := by
  have hrel := h.lookup id
  rw [if_neg hid] at hrel
  revert hrel
  cases find c id <;> cases Keyed.lookup Rust.HeartbeatNeighbor.id r.neighbors id <;> intro hrel
  · exact iff_of_true rfl rfl
  · cases hrel
  · cases hrel
  · exact iff_of_false nofun nofun

theorem Same.lookup_self (h : Same myId config c r) :
    Keyed.lookup Rust.HeartbeatNeighbor.id r.neighbors myId = none := by
  have hrel := h.lookup myId
  rw [if_pos rfl] at hrel
  generalize Keyed.lookup Rust.HeartbeatNeighbor.id r.neighbors myId = o at hrel
  cases hrel with
  | none => rfl

theorem Same.getHealth_eq (h : Same myId config c r) (hs : Sound c) (id : ModuleId) :
    r.getHealth id = getHealth c id := by
  unfold Rust.Heartbeat.getHealth
  rw [hs.getHealth_eq]
  by_cases hid : id = myId
  · subst hid
    rw [h.lookup_self]
    cases hfind : find c id with
    | none => rfl
    | some n =>
      obtain ⟨hmem, hkey⟩ := Keyed.mem_of_lookup hfind
      exact (h.self n hmem hkey).symm
  · have hrel := h.lookup id
    rw [if_neg hid] at hrel
    revert hrel
    cases find c id <;> cases Keyed.lookup Rust.HeartbeatNeighbor.id r.neighbors id <;> intro hrel
    · rfl
    · cases hrel
    · cases hrel
    · cases hrel with
      | some hsame => exact hsame.health.symm

theorem map_rel {α β γ : Type} {R : α → β → Prop} {l : List α} {l' : List β} {f : α → γ}
    {g : β → γ} (h : List.Forall₂ R l l') (hfg : ∀ a b, R a b → f a = g b) :
    l.map f = l'.map g := by
  rw [← forall₂_eq_eq_eq, forall₂_map_left_iff, forall₂_map_right_iff]
  exact h.imp hfg

theorem Same.nodup (h : Same myId config c r) (hs : Sound c) :
    (r.neighbors.map Rust.HeartbeatNeighbor.id).Nodup := by
  rw [← map_rel h.neighbors fun _ _ hsame => hsame.id]
  exact hs.nodup.sublist (filter_sublist.map Neighbor.id)

theorem Same.known (h : Same myId config c r) : List.Forall₂
    (fun n n' => (n ∈ c.neighbors ∧ n.id ≠ myId) ∧ SameNeighbor n n')
      (others myId c.neighbors) r.neighbors := by
  refine (forall₂_and_left _ _).mpr ⟨fun n hn => ?_, h.neighbors⟩
  exact ⟨mem_of_mem_filter hn, of_decide_eq_true (mem_filter.mp hn).2⟩

theorem Same.map (h : Same myId config c r) {f : Neighbor → Neighbor}
    {g : Rust.HeartbeatNeighbor → Rust.HeartbeatNeighbor} (hid : ∀ n, (f n).id = n.id)
    (hfg : ∀ n ∈ c.neighbors, n.id ≠ myId → ∀ n', SameNeighbor n n' → SameNeighbor (f n) (g n'))
    (hself : ∀ n ∈ c.neighbors, n.id = myId → (f n).health = .unknown) :
    Same myId config { c with neighbors := c.neighbors.map f }
      { r with neighbors := r.neighbors.map g } := by
  refine { h with neighbors := ?_, self := ?_ }
  · have hmap : others myId (c.neighbors.map f) = (others myId c.neighbors).map f := by
      unfold others
      rw [filter_map]
      refine congrArg (List.map f) (filter_congr fun n _ => ?_)
      show decide ((f n).id ≠ myId) = _
      rw [hid]
    rw [hmap, forall₂_map_left_iff, forall₂_map_right_iff]
    exact h.known.imp fun n n' hn => hfg n hn.1.1 hn.1.2 n' hn.2
  · intro n hn hself'
    obtain ⟨n', hn', rfl⟩ := mem_map.mp hn
    exact hself n' hn' ((hid n').symm.trans hself')

/-! ## calls without time -/

theorem addNeighbor_snd (hs : Sound c) (id : ModuleId) : (addNeighbor c id).2 =
    if id = invalidModuleId ∨ find c id ≠ none then c
    else { c with neighbors := c.neighbors ++ [newNeighbor id] } := by
  unfold addNeighbor findNeighborIndex
  by_cases hvalid : id = invalidModuleId
  · rw [if_pos hvalid, if_pos (.inl hvalid)]
  rw [if_neg hvalid]
  cases hi : Keyed.index Neighbor.id c.neighbors id with
  | some i =>
    obtain ⟨n, -, hfound⟩ := Keyed.index_eq_some hi
    refine (if_pos (.inr fun hnone => ?_)).symm
    exact nomatch hfound.symm.trans hnone
  | none =>
    have hnone : find c id = none := Keyed.index_eq_none.mp hi
    rw [if_neg (Nat.not_le.mpr hs.length_lt), if_neg (not_or.mpr ⟨hvalid, not_not.mpr hnone⟩)]

theorem rust_addNeighbor_snd (hlength : r.neighbors.length < maxModules) (id : ModuleId) :
    (r.addNeighbor id).2 = if (id = r.myId ∨ id = invalidModuleId) ∨
      Keyed.lookup Rust.HeartbeatNeighbor.id r.neighbors id ≠ none then r
    else { r with neighbors := r.neighbors ++ [Rust.HeartbeatNeighbor.new id] } := by
  unfold Rust.Heartbeat.addNeighbor Rust.Heartbeat.position
  by_cases hvalid : id = r.myId ∨ id = invalidModuleId
  · rw [if_pos hvalid, if_pos (.inl hvalid)]
  rw [if_neg hvalid]
  cases hi : Keyed.index Rust.HeartbeatNeighbor.id r.neighbors id with
  | some i =>
    obtain ⟨n, -, hfound⟩ := Keyed.index_eq_some hi
    refine (if_pos (.inr fun hnone => ?_)).symm
    exact nomatch hfound.symm.trans hnone
  | none =>
    have hnone := Keyed.index_eq_none.mp hi
    rw [if_pos hlength, if_neg (not_or.mpr ⟨hvalid, not_not.mpr hnone⟩)]

theorem Same.length_lt (h : Same myId config c r) (hs : Sound c) :
    r.neighbors.length < maxModules := by
  rw [← h.neighbors.length_eq]
  exact Nat.lt_of_le_of_lt (length_filter_le ..) hs.length_lt

theorem others_concat (l : List Neighbor) (n : Neighbor) : others myId (l ++ [n]) =
    if n.id = myId then others myId l else others myId l ++ [n] := by
  unfold others
  rw [filter_append]
  by_cases hid : n.id = myId
  · rw [if_pos hid, filter_cons_of_neg (by simpa using hid), filter_nil,
      append_nil]
  · rw [if_neg hid, filter_cons_of_pos (by simpa using hid), filter_nil]

theorem same_addNeighbor (h : Same myId config c r) (hs : Sound c) (id : ModuleId) :
    Same myId config (addNeighbor c id).2 (r.addNeighbor id).2 := by
  rw [addNeighbor_snd hs, rust_addNeighbor_snd (h.length_lt hs)]
  have hself (n : Neighbor) (hn : n ∈ c.neighbors ++ [newNeighbor id]) (hid : n.id = myId) :
      n.health = .unknown := by
    rcases mem_append.mp hn with hn | hn
    · exact h.self n hn hid
    · rw [mem_singleton.mp hn]
      rfl
  by_cases hown : id = myId
  · -- only the C engine has a record of the own module
    rw [if_pos (.inl (.inl (hown.trans h.rMyId.symm)) : (id = r.myId ∨ _) ∨ _)]
    split_ifs
    · exact h
    · refine { h with neighbors := ?_, self := hself }
      rw [others_concat]
      exact (if_pos (show (newNeighbor id).id = myId from hown)).symm ▸ h.neighbors
  · have hskip : (id = r.myId ∨ id = invalidModuleId) ∨
        Keyed.lookup Rust.HeartbeatNeighbor.id r.neighbors id ≠ none ↔
          id = invalidModuleId ∨ find c id ≠ none := by
      rw [h.rMyId, or_iff_right hown]
      exact or_congr_right (not_congr (h.lookup_none hown))
    by_cases hknown : id = invalidModuleId ∨ find c id ≠ none
    · rw [if_pos hknown, if_pos (hskip.mpr hknown)]
      exact h
    · rw [if_neg hknown, if_neg fun hs => hknown (hskip.mp hs)]
      refine { h with neighbors := ?_, self := hself }
      rw [others_concat, if_neg (show ¬(newNeighbor id).id = myId from hown)]
      exact rel_append h.neighbors (.cons ⟨rfl, rfl, rfl, fun _ => rfl⟩ .nil)

theorem Same.remove (h : Same myId config c r) (id : ModuleId) :
    Same myId config { c with neighbors := c.neighbors.filter fun n => decide (n.id ≠ id) }
      { r with neighbors := r.neighbors.filter fun n => decide (n.id ≠ id) } := by
  refine { h with neighbors := ?_, self := fun n hn => h.self n (mem_of_mem_filter hn) }
  unfold others
  rw [filter_comm]
  refine rel_filter (fun n n' hsame => ?_) h.neighbors
  dsimp only
  rw [hsame.id]

theorem same_removeNeighbor (h : Same myId config c r) (hs : Sound c) (id : ModuleId) :
    Same myId config (removeNeighbor c id).2 (r.removeNeighbor id).2 := by
  have hc : (removeNeighbor c id).2 =
      { c with neighbors := c.neighbors.filter fun n => decide (n.id ≠ id) } := by
    have hskip (hnone : find c id = none) :
        c = { c with neighbors := c.neighbors.filter fun n => decide (n.id ≠ id) } := by
      rw [Keyed.filter_of_lookup hnone]
    unfold removeNeighbor findNeighborIndex
    by_cases hvalid : id = invalidModuleId
    · rw [if_pos hvalid]
      exact hskip (hvalid ▸ hs.find_invalid)
    · rw [if_neg hvalid]
      cases hi : Keyed.index Neighbor.id c.neighbors id with
      | none => exact hskip (Keyed.index_eq_none.mp hi)
      | some i =>
        dsimp only
        rw [Keyed.eraseIdx_eq_filter hs.nodup hi]
  have hr : (r.removeNeighbor id).2 =
      { r with neighbors := r.neighbors.filter fun n => decide (n.id ≠ id) } := by
    unfold Rust.Heartbeat.removeNeighbor Rust.Heartbeat.position
    cases hi : Keyed.index Rust.HeartbeatNeighbor.id r.neighbors id with
    | none =>
      rw [Keyed.filter_of_lookup (Keyed.index_eq_none.mp hi)]
    | some i =>
      dsimp only
      rw [Keyed.eraseIdx_eq_filter (h.nodup hs) hi]
  rw [hc, hr]
  exact h.remove id

theorem Same.overwrite (h : Same myId config c r) {n : Neighbor} {n' : Rust.HeartbeatNeighbor}
    (hn : SameNeighbor n n') (hid : n.id ≠ myId) :
    Same myId config { c with neighbors := c.neighbors.map fun m => if m.id = n.id then n else m }
      { r with neighbors := r.neighbors.map fun m => if m.id = n'.id then n' else m } := by
  refine h.map (fun m => ?_) (fun m _ _ m' hm => ?_) fun m hm hself => ?_
  · split_ifs with he
    · exact he.symm
    · rfl
  · rw [← hm.id, ← hn.id]
    split_ifs
    · exact hn
    · exact hm
  · rw [if_neg fun he => hid (he.symm.trans hself)]
    exact h.self m hm hself

theorem received_of_find {n : Neighbor} (hs : Sound c) (hfind : find c id = some n)
    (sequence : UInt8) (now : TimeUs) :
    (received c id sequence now).2 =
      let heard := setNeighborHealth c.callbacks (hear c.config n sequence now) .alive
      ({ c with neighbors := c.neighbors.map fun m => if m.id = heard.1.id then heard.1 else m },
        heard.2) := by
  have hvalid : id ≠ invalidModuleId := by
    rintro rfl
    exact nomatch hfind.symm.trans hs.find_invalid
  unfold received findNeighborIndex
  rw [if_neg hvalid]
  cases hi : Keyed.index Neighbor.id c.neighbors id with
  | none => exact nomatch hfind.symm.trans (Keyed.index_eq_none.mp hi)
  | some i =>
    obtain ⟨m, hm, hfound⟩ := Keyed.index_eq_some hi
    obtain rfl := Option.some.inj (hfound.symm.trans hfind)
    have hid : (setNeighborHealth c.callbacks (hear c.config m sequence now) .alive).1.id = id :=
      (setNeighborHealth_id ..).trans (Keyed.mem_of_lookup hfind).2
    dsimp only
    rw [hm]
    dsimp only
    rw [Keyed.set_eq_map hs.nodup (hid.symm ▸ hi)]

theorem received_of_none (hfind : find c id = none) (sequence : UInt8) (now : TimeUs) :
    (received c id sequence now).2 = (c, []) := by
  unfold received findNeighborIndex
  rw [Keyed.index_eq_none.mpr hfind]
  split_ifs <;> rfl

theorem rust_received_of_lookup {n : Rust.HeartbeatNeighbor}
    (hn : (r.neighbors.map Rust.HeartbeatNeighbor.id).Nodup)
    (hfind : Keyed.lookup Rust.HeartbeatNeighbor.id r.neighbors id = some n) (sequence : UInt8)
    (now : TimeUs) : (r.received id sequence now).2 =
      ({ r with neighbors := r.neighbors.map fun m =>
          if m.id = n.id then Rust.Heartbeat.hear n sequence now else m },
        if n.health = .alive then [] else r.callbacks.call id .alive) := by
  unfold Rust.Heartbeat.received Rust.Heartbeat.position
  cases hi : Keyed.index Rust.HeartbeatNeighbor.id r.neighbors id with
  | none => exact nomatch hfind.symm.trans (Keyed.index_eq_none.mp hi)
  | some i =>
    obtain ⟨m, hm, hfound⟩ := Keyed.index_eq_some hi
    obtain rfl := Option.some.inj (hfound.symm.trans hfind)
    have hid : (Rust.Heartbeat.hear m sequence now).id = id := (Keyed.mem_of_lookup hfind).2
    dsimp only
    rw [hm]
    dsimp only
    rw [Keyed.set_eq_map hn (hid.symm ▸ hi)]
    rfl

theorem rust_received_of_none
    (hfind : Keyed.lookup Rust.HeartbeatNeighbor.id r.neighbors id = none) (sequence : UInt8)
    (now : TimeUs) : (r.received id sequence now).2 = (r, []) := by
  unfold Rust.Heartbeat.received Rust.Heartbeat.position
  rw [Keyed.index_eq_none.mpr hfind]

theorem filter_isCallback (cb : Callbacks) (id : ModuleId) (h : Health) :
    (cb.call id h).filter isCallback = cb.call id h := by
  cases h with
  | unknown => rfl
  | alive | suspect | dead =>
    unfold Callbacks.call
    dsimp only
    split_ifs <;> rfl

theorem same_received (h : Same myId config c r) (hs : Sound c) (sequence : UInt8) (now : TimeUs)
    (hself : id = myId → find c myId = none) :
    Same myId config (received c id sequence now).2.1 (r.received id sequence now).2.1 ∧
      (r.received id sequence now).2.2 = (received c id sequence now).2.2.filter isCallback := by
  by_cases hown : id = myId
  · subst hown
    rw [received_of_none (hself rfl), rust_received_of_none h.lookup_self]
    exact ⟨h, rfl⟩
  have hrel := h.lookup id
  rw [if_neg hown] at hrel
  cases hfind : find c id with
  | none =>
    rw [received_of_none hfind, rust_received_of_none ((h.lookup_none hown).mpr hfind)]
    exact ⟨h, rfl⟩
  | some n =>
    rw [hfind] at hrel
    cases hlookup : Keyed.lookup Rust.HeartbeatNeighbor.id r.neighbors id with
    | none =>
      rw [hlookup] at hrel
      cases hrel
    | some n' =>
      rw [hlookup] at hrel
      have hsame : SameNeighbor n n' := by
        cases hrel with
        | some hsame => exact hsame
      have hid : n.id = id := (Keyed.mem_of_lookup hfind).2
      have hheard := setNeighborHealth_health c.callbacks (hear c.config n sequence now) .alive
      rw [received_of_find hs hfind, rust_received_of_lookup (h.nodup hs) hlookup]
      dsimp only
      rw [hheard]
      have hnew : SameNeighbor { hear c.config n sequence now with health := .alive }
          (Rust.Heartbeat.hear n' sequence now) := ⟨hsame.id, rfl, rfl, nofun⟩
      constructor
      · exact h.overwrite hnew fun he => hown (hid.symm.trans he)
      · rw [h.rCallbacks, h.cCallbacks, ← hsame.health]
        show _ = List.filter isCallback (if n.health = .alive then _ else _ : Neighbor × List Out).2
        split_ifs
        · rfl
        · exact congrArg (fun i => allCallbacks.call i .alive) hid.symm

end Detectors
end Agreement
end EkKor
