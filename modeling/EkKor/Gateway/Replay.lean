import EkKor.Gateway.Run

/-!
# The replay and the projections

`update_projection` knows four kinds of events, the replay of `ekk_gateway_state_at` one of them.

* `core_applied`      both make the same of the state, the time and the count;
* `lastPublished`, `neighborTally`   what `update_projection` makes of the other events;
* `searchTime_zero`, `stateAt_eq`    the replay goes through all events of the module;
* `moduleState_eq`    the projection shows the events behind the last wrap of the table;
* `replay_agrees_iff` when both are the same.
-/

namespace EkKor
namespace Gateway
open Gossip (EventV2)
open List hiding Vector
open EightBit (Table)

/-! ## one event -/

def Projection.core (p : Projection) : ModuleId × Module.State × TimeUs × UInt32 :=
  (p.moduleId, p.state, p.lastSeen, p.eventCount)

def Projection.extras (p : Projection) : Int32 × Int32 × Int32 × UInt8 :=
  (p.load, p.thermal, p.power, p.neighborCount)

variable (p : Projection) {q : Projection} {field : UInt8} (id : ModuleId) {ts : UInt32}

theorem Projection.ext_core {p : Projection} (hc : p.core = q.core) (he : p.extras = q.extras) :
    p = q := by
  obtain ⟨_, _, _, _, _, _, _, _⟩ := p
  cases hc
  cases he
  rfl

theorem core_transition {p : Projection} (h : p.core = q.core) (payload : Vector UInt8 20) :
    (p.transition payload).core = (q.transition payload).core := by
  unfold Projection.transition
  cases stateBelowShutdown (payload.get 0) with
  | none => exact h
  | some state =>
    obtain ⟨hid, hrest⟩ := Prod.mk.inj h
    obtain ⟨_, hrest⟩ := Prod.mk.inj hrest
    exact congrArg₂ (fun id rest => (id, state, rest)) hid hrest

theorem core_seen {p : Projection} (h : p.core = q.core) (timestampUs : UInt32) :
    (p.seen timestampUs).core = (q.seen timestampUs).core := by
  obtain ⟨hid, hrest⟩ := Prod.mk.inj h
  obtain ⟨hstate, hrest⟩ := Prod.mk.inj hrest
  obtain ⟨_, hcount⟩ := Prod.mk.inj hrest
  show (p.moduleId, p.state, timestampUs.toUInt64, p.eventCount + 1) =
    (q.moduleId, q.state, timestampUs.toUInt64, q.eventCount + 1)
  rw [hid, hstate, hcount]

theorem core_publish (payload : Vector UInt8 20) : (p.publish payload).core = p.core := by
  unfold Projection.publish
  split_ifs <;> rfl

theorem core_apply {p : Projection} (h : p.core = q.core) (event : EventV2) :
    (p.apply event).core = (q.replay event).core := by
  have hseen := core_seen h event.timestampUs
  unfold Projection.apply Projection.replay
  dsimp only
  by_cases htype : event.eventType = stateTransition
  · rw [if_pos htype, if_pos htype]
    exact core_transition hseen event.payload
  · split_ifs
    · exact (core_publish _ event.payload).trans hseen
    all_goals exact hseen

theorem extras_transition (payload : Vector UInt8 20) :
    (p.transition payload).extras = p.extras := by
  unfold Projection.transition
  cases stateBelowShutdown (payload.get 0) with
  | none => rfl
  | some state => rfl

theorem extras_replay (event : EventV2) : (p.replay event).extras = p.extras := by
  unfold Projection.replay
  split_ifs
  · exact extras_transition _ event.payload
  · rfl

/-! ## the events that the replay leaves out -/

def Projection.fieldValue (p : Projection) (field : UInt8) : Int32 :=
  if field = 0 then p.load else if field = 1 then p.thermal else p.power

theorem lt_three (h : field < 3) : field = 0 ∨ field = 1 ∨ field = 2 := by
  change field.toNat < 3 at h
  rcases (by omega : field.toNat = 0 ∨ field.toNat = 1 ∨ field.toNat = 2) with h | h | h
  · exact .inl (UInt8.toNat_inj.mp h)
  · exact .inr (.inl (UInt8.toNat_inj.mp h))
  · exact .inr (.inr (UInt8.toNat_inj.mp h))

theorem fieldValue_publish (payload : Vector UInt8 20) (h : field < 3) :
    (p.publish payload).fieldValue field =
      if publishedField payload = field then publishedValue payload else p.fieldValue field := by
  unfold Projection.publish Projection.fieldValue
  rcases lt_three h with rfl | rfl | rfl
  · split_ifs <;> first | rfl | simp_all
  · split_ifs <;> first | rfl | simp_all
  · split_ifs <;> first | rfl | simp_all

def Publishes (field : UInt8) (event : EventV2) : Prop :=
  event.eventType = fieldPublished ∧ publishedField event.payload = field

instance instDecidablePublishes (field : UInt8) (event : EventV2) :
    Decidable (Publishes field event) :=
  inferInstanceAs (Decidable (_ ∧ _))

theorem fieldValue_of_extras {p : Projection} (h : p.extras = q.extras) (field : UInt8) :
    p.fieldValue field = q.fieldValue field := by
  obtain ⟨hload, hrest⟩ := Prod.mk.inj h
  obtain ⟨hthermal, hrest⟩ := Prod.mk.inj hrest
  unfold Projection.fieldValue
  rw [hload, hthermal, (Prod.mk.inj hrest).1]

theorem fieldValue_apply (event : EventV2) (h : field < 3) :
    (p.apply event).fieldValue field =
      if Publishes field event then publishedValue event.payload else p.fieldValue field := by
  unfold Projection.apply
  by_cases htype : event.eventType = stateTransition
  · rw [if_pos htype, if_neg fun hp : Publishes field event =>
      absurd (htype.symm.trans hp.1) (by decide)]
    exact fieldValue_of_extras (extras_transition _ event.payload) field
  · rw [if_neg htype]
    by_cases hpublished : event.eventType = fieldPublished
    · rw [if_pos hpublished, fieldValue_publish _ _ h]
      by_cases hfield : publishedField event.payload = field
      · rw [if_pos hfield, if_pos ⟨hpublished, hfield⟩]
      · rw [if_neg hfield, if_neg fun hp : Publishes field event => hfield hp.2]
        rfl
    · rw [if_neg hpublished, if_neg fun hp : Publishes field event => hpublished hp.1]
      split_ifs <;> rfl

def tallyStep (n : Nat) (event : EventV2) : Nat :=
  if event.eventType = neighborJoined then min (n + 1) 255
  else if event.eventType = neighborLeft then n - 1
  else n

theorem neighborCount_publish (payload : Vector UInt8 20) :
    (p.publish payload).neighborCount = p.neighborCount := by
  unfold Projection.publish
  split_ifs <;> rfl

theorem neighborCount_apply (event : EventV2) :
    (p.apply event).neighborCount.toNat = tallyStep p.neighborCount.toNat event := by
  have hlt := p.neighborCount.toNat_lt
  unfold Projection.apply tallyStep
  by_cases htype : event.eventType = stateTransition
  · rw [if_pos htype, if_neg (htype ▸ by decide), if_neg (htype ▸ by decide)]
    have hextras := extras_transition (p.seen event.timestampUs) event.payload
    exact congrArg (fun e => e.2.2.2.toNat) hextras
  rw [if_neg htype]
  by_cases hpublished : event.eventType = fieldPublished
  · rw [if_pos hpublished, if_neg (hpublished ▸ by decide), if_neg (hpublished ▸ by decide)]
    exact congrArg UInt8.toNat (neighborCount_publish _ event.payload)
  rw [if_neg hpublished]
  by_cases hjoined : event.eventType = neighborJoined
  · rw [if_pos hjoined, if_pos hjoined]
    by_cases hroom : p.neighborCount < 255
    · rw [if_pos (show (p.seen event.timestampUs).neighborCount < 255 from hroom)]
      change p.neighborCount.toNat < 255 at hroom
      show (p.neighborCount.toNat + 1) % 256 = _
      omega
    · rw [if_neg (show ¬ (p.seen event.timestampUs).neighborCount < 255 from hroom)]
      show p.neighborCount.toNat = _
      change ¬ p.neighborCount.toNat < 255 at hroom
      omega
  · rw [if_neg hjoined, if_neg hjoined]
    by_cases hleft : event.eventType = neighborLeft
    · rw [if_pos hleft, if_pos hleft]
      by_cases hpos : p.neighborCount > 0
      · rw [if_pos (show (p.seen event.timestampUs).neighborCount > 0 from hpos)]
        show (p.neighborCount - 1).toNat = _
        have hle : (1 : UInt8) ≤ p.neighborCount := by
          exact hpos
        rw [UInt8.toNat_sub_of_le _ _ hle]
        rfl
      · rw [if_neg (show ¬ (p.seen event.timestampUs).neighborCount > 0 from hpos)]
        show p.neighborCount.toNat = _
        change ¬ 0 < p.neighborCount.toNat at hpos
        omega
    · rw [if_neg hleft, if_neg hleft]
      rfl

/-! ## all events of a module -/

/-- `update_projection` for events of a module -/
def applied (id : ModuleId) (events : List EventV2) : Projection :=
  events.foldl (fun p event => p.apply event) (newProjection id)

def replayed (id : ModuleId) (events : List EventV2) : Projection :=
  events.foldl (fun p event => p.replay event) (newProjection id)

def lastPublished (field : UInt8) (events : List EventV2) : Int32 :=
  (events.filter (fun event => Publishes field event)).getLast?.elim 0 fun event =>
    publishedValue event.payload

def neighborTally (events : List EventV2) : Nat := events.foldl tallyStep 0

theorem core_applied (events : List EventV2) :
    (applied id events).core = (replayed id events).core := by
  induction events using List.reverseRecOn with
  | nil => rfl
  | append_singleton events event ih =>
    unfold applied replayed at ih ⊢
    rw [foldl_concat, foldl_concat]
    exact core_apply ih event

theorem extras_replayed (events : List EventV2) : (replayed id events).extras = (0, 0, 0, 0) := by
  induction events using List.reverseRecOn with
  | nil => rfl
  | append_singleton events event ih =>
    unfold replayed at ih ⊢
    rw [foldl_concat, extras_replay]
    exact ih

theorem eventCount_replayed (events : List EventV2) :
    (replayed id events).eventCount = UInt32.ofNat events.length := by
  induction events using List.reverseRecOn with
  | nil => rfl
  | append_singleton events event ih =>
    have hcount (p : Projection) : (p.replay event).eventCount = p.eventCount + 1 := by
      unfold Projection.replay Projection.transition
      split_ifs
      · cases stateBelowShutdown (event.payload.get 0) with
        | none => rfl
        | some state => rfl
      · rfl
    unfold replayed at ih ⊢
    rw [foldl_concat, hcount, ih, length_append]
    exact (UInt32.ofNat_add _ _).symm

theorem fieldValue_applied (events : List EventV2) (h : field < 3) :
    (applied id events).fieldValue field = lastPublished field events := by
  induction events using List.reverseRecOn with
  | nil =>
    show (if field = 0 then 0 else if field = 1 then 0 else 0) = (0 : Int32)
    rw [ite_self, ite_self]
  | append_singleton events event ih =>
    unfold applied lastPublished at ih ⊢
    rw [foldl_concat, fieldValue_apply _ event h, ih, filter_append]
    by_cases hp : Publishes field event
    · rw [if_pos hp, filter_cons, decide_eq_true hp, if_pos rfl, filter_nil,
        getLast?_concat]
      rfl
    · rw [if_neg hp, filter_cons, decide_eq_false hp, if_neg Bool.false_ne_true,
        filter_nil, append_nil]

theorem neighborCount_applied (events : List EventV2) :
    (applied id events).neighborCount.toNat = neighborTally events := by
  induction events using List.reverseRecOn with
  | nil => rfl
  | append_singleton events event ih =>
    unfold applied neighborTally at ih ⊢
    rw [foldl_concat, foldl_concat, neighborCount_apply, ih]

theorem applied_eq_replayed_iff (events : List EventV2) :
    applied id events = replayed id events ↔
      (∀ field < 3, lastPublished field events = 0) ∧ neighborTally events = 0 := by
  have hfield {field : UInt8} (h : field < 3) := fieldValue_applied id events h
  have hneighbors := neighborCount_applied id events
  constructor
  · intro heq
    have hextras := extras_replayed id events
    rw [← heq] at hextras
    refine ⟨fun field h => ?_, ?_⟩
    · rw [← hfield h, fieldValue_of_extras (q := newProjection id) hextras field]
      show (if field = 0 then 0 else if field = 1 then 0 else 0) = (0 : Int32)
      rw [ite_self, ite_self]
    · rw [← hneighbors]
      exact congrArg (fun e => e.2.2.2.toNat) hextras
  · rintro ⟨hzero, htally⟩
    refine Projection.ext_core (core_applied id events) ?_
    rw [extras_replayed]
    have hload := (hfield (by decide : (0 : UInt8) < 3)).trans (hzero 0 (by decide))
    have hthermal := (hfield (by decide : (1 : UInt8) < 3)).trans (hzero 1 (by decide))
    have hpower := (hfield (by decide : (2 : UInt8) < 3)).trans (hzero 2 (by decide))
    rw [htally] at hneighbors
    unfold Projection.extras
    rw [show (applied id events).load = 0 from hload,
      show (applied id events).thermal = 0 from hthermal,
      show (applied id events).power = 0 from hpower,
      UInt8.toNat_inj.mp (hneighbors.trans rfl : _ = (0 : UInt8).toNat)]

/-! ## the replay -/

def own (id : ModuleId) (as : List Append) : List EventV2 :=
  (as.filter fun a => a.moduleId = id).map Append.event

theorem searchTime_zero (entries : List IndexEntry) (hi : Nat) : searchTime entries 0 0 hi = 0 := by
  induction hi using Nat.strong_induction_on with
  | _ hi ih =>
    rw [searchTime]
    by_cases hpos : 0 < hi
    · rw [if_pos hpos]
      dsimp only
      cases entries[0 + (hi - 0) / 2]? with
      | none => rfl
      | some entry =>
        exact ih _ (by omega)
    · exact if_neg hpos

theorem findTime_all {index : StreamIndex} (hne : index.entries ≠ [])
    (h : ∀ entry ∈ index.entries, entry.timestampUs ≤ ts) :
    findTime index 0 ts = .ok (0, index.entries.length) := by
  have hpos : 0 < index.entries.length := length_pos_iff.mpr hne
  have hall : (index.entries.takeWhile fun entry => entry.timestampUs ≤ ts) = index.entries :=
    takeWhile_eq_self_iff.mpr fun entry hentry => decide_eq_true (h entry hentry)
  unfold findTime
  rw [if_neg hne, searchTime_zero, if_neg (Nat.not_le.mpr hpos), drop_zero, hall, if_pos hpos]

theorem replay_entries {store : Store} (stored : List (UInt32 × FlashEntry))
    (hread : ∀ l ∈ stored, flashLogRead store l.1 = (.ok l.2, store)) (p : Projection) :
    (stored.map fun l => indexEntry l.1 l.2).foldl (replayEntry id) (p, store) =
      ((stored.map Prod.snd).foldl (fun p entry =>
        if entry.streamId = id then p.replay (entryEvent entry) else p) p, store) := by
  induction stored generalizing p with
  | nil => rfl
  | cons l stored ih =>
    rw [map_cons, map_cons, foldl_cons, foldl_cons,
      ← ih fun l' hl' => hread l' (mem_cons_of_mem l hl')]
    congr 1
    unfold replayEntry
    rw [show (indexEntry l.1 l.2).streamId = l.2.streamId from rfl,
      show (indexEntry l.1 l.2).flashOffset = l.1 from rfl]
    by_cases hid : l.2.streamId = id
    · rw [if_neg (not_not.mpr hid), if_pos hid, hread l mem_cons_self]
    · rw [if_pos hid, if_neg hid]

theorem payload_entryEvent (globalSeq : UInt32) (id : ModuleId) (event : EventV2) :
    (entryEvent (flashEntry globalSeq id event)).payload = event.payload := by
  unfold entryEvent
  refine Vector.ext fun i hi => ?_
  rw [Vector.getElem_ofFn]
  exact Vector.getElem_append_left hi

theorem replay_entryEvent (globalSeq : UInt32) (id : ModuleId) (event : EventV2) :
    p.replay (entryEvent (flashEntry globalSeq id event)) = p.replay event := by
  have htime : (entryEvent (flashEntry globalSeq id event)).timestampUs = event.timestampUs := rfl
  have htype : (entryEvent (flashEntry globalSeq id event)).eventType = event.eventType := rfl
  unfold Projection.replay
  rw [payload_entryEvent, htime, htype]

theorem foldl_own (as : List Append) (p : Projection) :
    (as.mapIdx fun i a => flashEntry (UInt32.ofNat i) a.moduleId a.event).foldl (fun p entry =>
      if entry.streamId = id then p.replay (entryEvent entry) else p) p =
      (own id as).foldl (fun p event => p.replay event) p := by
  induction as using List.reverseRecOn with
  | nil => rfl
  | append_singleton as a ih =>
    unfold own at ih ⊢
    rw [mapIdx_concat, foldl_concat, ih, filter_append, map_append,
      foldl_append, show (flashEntry (UInt32.ofNat as.length) a.moduleId a.event).streamId =
        a.moduleId from rfl]
    by_cases hid : a.moduleId = id
    · rw [if_pos hid, filter_cons, decide_eq_true hid, replay_entryEvent]
      rfl
    · rw [if_neg hid, filter_cons, decide_eq_false hid]
      rfl

variable {base : UInt32} {boot : Boot} {as : List Append} {gw : GatewayState} {ws : List Written}

theorem stateAt_eq (h : Recorded base boot as gw ws)
    (hindexed : gw.index.entries.length = as.length)
    (hflash : ∀ l ∈ storedEntries ws, l ∈ liveEntries base ws)
    (hts : ∀ a ∈ as, a.event.timestampUs ≤ ts) (id : ModuleId) :
    (gatewayStateAt gw id ts).1 = replayed id (own id as) := by
  obtain ⟨_, hentries⟩ := h.indexed hindexed
  have htimes : ∀ entry ∈ gw.index.entries, entry.timestampUs ≤ ts := by
    intro entry hentry
    rw [hentries] at hentry
    obtain ⟨l, hl, rfl⟩ := mem_map.mp hentry
    have hmem := mem_map_of_mem (f := Prod.snd) hl
    rw [h.entries] at hmem
    obtain ⟨i, hi, heq⟩ := mem_mapIdx.mp hmem
    rw [← heq]
    exact hts _ (getElem_mem hi)
  have hread : ∀ l ∈ storedEntries ws, flashLogRead gw.store l.1 = (.ok l.2, gw.store) := by
    intro l hl
    obtain ⟨sector, p, hheld⟩ := h.tidy.held l (hflash l hl)
    exact read_held hheld
  unfold gatewayStateAt
  by_cases hne : gw.index.entries = []
  · have hnil : as = [] := length_eq_zero_iff.mp (by rw [← hindexed, hne]; rfl)
    rw [hnil]
    unfold findTime
    rw [if_pos hne]
    rfl
  · rw [findTime_all hne htimes]
    dsimp only
    rw [drop_zero, take_length, hentries, replay_entries id _ hread, h.entries,
      foldl_own]
    rfl

/-! ## the projection -/

def changes (as : List Append) : List (EightBit.Change Projection) :=
  as.map fun a => (a.moduleId, fun p => p.apply a.event)

theorem changes_own (as : List Append) (p : Projection) :
    ((changes as).filter fun c => c.1 = id).foldl (fun p c => c.2 p) p =
      (own id as).foldl (fun p event => p.apply event) p := by
  unfold changes own
  rw [filter_map, foldl_map, foldl_map]
  rfl

theorem own_ne_nil (as : List Append) : own id as ≠ [] ↔ ∃ a ∈ as, a.moduleId = id := by
  unfold own
  rw [Ne, map_eq_nil_iff, filter_eq_nil_iff]
  constructor
  · intro h
    by_contra hnone
    exact h fun a ha hid => hnone ⟨a, ha, of_decide_eq_true hid⟩
  · rintro ⟨a, ha, hid⟩ h
    exact h a ha (decide_eq_true hid)

theorem row_changes (as : List Append) :
    EightBit.row newProjection id (changes as) =
      if own id as = [] then none else some (applied id (own id as)) := by
  have hex : (∃ c ∈ changes as, c.1 = id) ↔ own id as ≠ [] := by
    rw [own_ne_nil]
    constructor
    · rintro ⟨c, hc, hid⟩
      obtain ⟨a, ha, rfl⟩ := mem_map.mp hc
      exact ⟨a, ha, hid⟩
    · rintro ⟨a, ha, hid⟩
      exact ⟨_, mem_map_of_mem ha, hid⟩
  rw [EightBit.row_eq, changes_own]
  by_cases hnil : own id as = []
  · rw [if_pos hnil, if_neg (fun h => hex.mp h hnil)]
  · rw [if_neg hnil, if_pos (hex.mpr hnil)]
    rfl

theorem moduleState_eq (h : Recorded base boot as gw ws)
    (horigin : ∀ a ∈ as, a.event.originId = a.moduleId) : ∃ old new, as = old ++ new ∧
      (old = [] ∨ ∀ id, own id old ≠ []) ∧ (∃ id, own id new = []) ∧
      ∀ id, gatewayModuleState gw id =
        if own id new = [] then .error .notFound else .ok (applied id (own id new)) := by
  have htable : gw.projections =
      EightBit.run Projection.moduleId newProjection (changes as) := by
    rw [h.projections]
    unfold EightBit.run changes
    rw [foldl_map]
    refine foldl_ext _ _ _ fun t a ha => ?_
    unfold updateProjection
    rw [horigin a ha]
  have hkey (event : EventV2) (p : Projection) : (p.apply event).moduleId = p.moduleId := by
    have hid (p : Projection) : (p.replay event).moduleId = p.moduleId := by
      unfold Projection.replay Projection.transition
      split_ifs
      · cases stateBelowShutdown (event.payload.get 0) with
        | none => rfl
        | some state => rfl
      · rfl
    exact (congrArg Prod.fst (core_apply (q := p) rfl event)).trans (hid p)
  obtain ⟨old', new', heq, hold, _, hrows⟩ := EightBit.run_rows Projection.moduleId newProjection
    (fun _ => rfl) (changes as) (fun c hc p => by
      obtain ⟨a, _, rfl⟩ := mem_map.mp hc
      exact hkey a.event p)
  obtain ⟨old, new, rfl, hmapold, hmapnew⟩ := map_eq_append_iff.mp heq
  refine ⟨old, new, rfl, ?_, ?_, fun id => ?_⟩
  · cases hold with
    | inl hnil =>
      rw [← hmapold] at hnil
      exact .inl (map_eq_nil_iff.mp hnil)
    | inr hall =>
      refine .inr fun id => (own_ne_nil id old).mpr ?_
      obtain ⟨c, hc, hid⟩ := hall id
      rw [← hmapold] at hc
      obtain ⟨a, ha, rfl⟩ := mem_map.mp hc
      exact ⟨a, ha, hid⟩
  · obtain ⟨id, hid⟩ := EightBit.exists_lookup_none Projection.moduleId
      (EightBit.run Projection.moduleId newProjection (changes (old ++ new)))
    rw [hrows, ← hmapnew, show EightBit.row newProjection id (new.map _) = _ from
      row_changes id new] at hid
    by_contra hall
    rw [if_neg fun hnil => hall ⟨id, hnil⟩] at hid
    cases hid
  · unfold gatewayModuleState
    rw [htable, hrows, ← hmapnew]
    rw [show EightBit.row newProjection id (new.map _) = _ from row_changes id new]
    split_ifs <;> rfl

theorem agrees_iff (h : Recorded base boot as gw ws)
    (horigin : ∀ a ∈ as, a.event.originId = a.moduleId)
    (hindexed : gw.index.entries.length = as.length)
    (hflash : ∀ l ∈ storedEntries ws, l ∈ liveEntries base ws)
    (hts : ∀ a ∈ as, a.event.timestampUs ≤ ts) (id : ModuleId) :
    gatewayModuleState gw id = .ok (gatewayStateAt gw id ts).1 ↔
      own id as ≠ [] ∧ (∃ other, own other as = []) ∧
        (∀ field < 3, lastPublished field (own id as) = 0) ∧ neighborTally (own id as) = 0 := by
  rw [stateAt_eq h hindexed hflash hts id]
  obtain ⟨old, new, heq, hold, hsome, hstate⟩ := moduleState_eq h horigin
  rw [hstate, ← applied_eq_replayed_iff id (own id as)]
  have hown (other : ModuleId) : own other as = own other old ++ own other new := by
    rw [heq]
    unfold own
    rw [filter_append, map_append]
  cases hold with
  | inl hnil =>
    -- without a wrap the projection is made of all events
    have hnew : new = as := by rw [heq, hnil, nil_append]
    rw [hnew] at hsome ⊢
    by_cases hid : own id as = []
    · rw [if_pos hid]
      exact ⟨fun heqs => (nomatch heqs), fun hall => absurd hid hall.1⟩
    · rw [if_neg hid]
      exact ⟨fun heqs => ⟨hid, hsome, Except.ok.inj heqs⟩, fun hall => congrArg Except.ok hall.2.2⟩
  | inr hall =>
    -- after a wrap the events before it are missing in the count
    constructor
    · intro heqs
      split_ifs at heqs with hid
      have hcount := congrArg Projection.eventCount (Except.ok.inj heqs)
      have hcore := congrArg (fun core => core.2.2.2) (core_applied id (own id new))
      change (applied id (own id new)).eventCount = (replayed id (own id new)).eventCount at hcore
      rw [hcore, eventCount_replayed, eventCount_replayed, hown id, length_append] at hcount
      have hpos := length_pos_iff.mpr (hall id)
      have hlen : (own id as).length < 2 ^ 32 := by
        have hle : (own id as).length ≤ as.length := by
          unfold own
          rw [length_map]
          exact length_filter_le _ _
        exact Nat.lt_of_le_of_lt (hle.trans (h.indexed hindexed).1) (UInt32.toNat_lt _)
      rw [hown id, length_append] at hlen
      have hnat := congrArg UInt32.toNat hcount
      have hshort : (own id new).length < 2 ^ 32 := by omega
      rw [UInt32.toNat_ofNat', UInt32.toNat_ofNat', Nat.mod_eq_of_lt hshort,
        Nat.mod_eq_of_lt hlen] at hnat
      omega
    · rintro ⟨_, ⟨other, hnil⟩, _⟩
      rw [hown other] at hnil
      exact absurd (append_eq_nil_iff.mp hnil).1 (hall other)

/-- **Main.** The replay up to a time at or after all events is the projection of the module exactly
when the module has an event, some other has none (or the count of the projections has wrapped),
the fields that the module published last are 0, and no neighbor is left. -/
theorem replay_agrees_iff (base : UInt32) (boot : Boot) (as : List Append) (id : ModuleId)
    (ts : UInt32) (horigin : ∀ a ∈ as, a.event.originId = a.moduleId)
    (hindexed : (appends base boot as).index.entries.length = as.length)
    (hflash : ∀ l ∈ storedEntries (appendsWritten base boot as),
      l ∈ liveEntries base (appendsWritten base boot as))
    (hts : ∀ a ∈ as, a.event.timestampUs ≤ ts) :
    gatewayModuleState (appends base boot as) id =
        .ok (gatewayStateAt (appends base boot as) id ts).1 ↔
      own id as ≠ [] ∧ (∃ other, own other as = []) ∧
        (∀ field < 3, lastPublished field (own id as) = 0) ∧ neighborTally (own id as) = 0 :=
  agrees_iff (recorded base boot as) horigin hindexed hflash hts id

/-- module 1 becomes active -/
theorem replay_agrees_sample :
    let boot : Boot := ⟨9, ⟨16, by decide⟩, 0⟩
    let as : List Append := [⟨1, ⟨1, 10, stateTransition, 0, 1, 0, 1,
      #v[2, 0, 0, 0, 0, 0, 0, 0, 0, 0, 0, 0, 0, 0, 0, 0, 0, 0, 0, 0]⟩, 0⟩]
    gatewayModuleState (appends 0 boot as) 1 = .ok (gatewayStateAt (appends 0 boot as) 1 10).1 := by
  intro boot as
  exact (replay_agrees_iff 0 boot as 1 10 (by decide)
    ((recorded 0 boot as).indexed_of_le (by decide)) (stored_live 0 boot as (by decide))
    (by decide)).mpr ⟨by decide, ⟨2, by decide⟩, fun _ _ => rfl, by decide⟩

/-- module 1 publishes its load, which the replay leaves out -/
theorem load_not_replayed :
    let boot : Boot := ⟨9, ⟨16, by decide⟩, 0⟩
    let as : List Append := [⟨1, ⟨1, 10, fieldPublished, 0, 1, 0, 1,
      #v[0, 0, 1, 0, 0, 0, 0, 0, 0, 0, 0, 0, 0, 0, 0, 0, 0, 0, 0, 0]⟩, 0⟩]
    (∀ a ∈ as, a.event.originId = a.moduleId ∧ a.event.timestampUs ≤ 10) ∧
      (appends 0 boot as).index.entries.length = as.length ∧
      (∀ l ∈ storedEntries (appendsWritten 0 boot as), l ∈ liveEntries 0 (appendsWritten 0 boot as)) ∧
      gatewayModuleState (appends 0 boot as) 1 ≠
        .ok (gatewayStateAt (appends 0 boot as) 1 10).1 := by
  intro boot as
  have hrecorded := recorded 0 boot as
  have hindexed := hrecorded.indexed_of_le (by decide)
  have hflash := stored_live 0 boot as (by decide)
  refine ⟨by decide, hindexed, hflash, fun heq => ?_⟩
  have hzero := ((agrees_iff hrecorded (by decide) hindexed hflash (by decide) 1).mp heq).2.2.1 0
    (by decide)
  exact absurd hzero (by decide)

end Gateway
end EkKor
