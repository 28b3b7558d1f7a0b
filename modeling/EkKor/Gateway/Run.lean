import EkKor.Gateway.Model
import EkKor.Gateway.Readback

/-!
# Runs of the gateway

* `Append`, `Op`, `gateway`   the appends and power cycles from the first start on;
* `append_eq`         what an append does while the flash is tidy;
* `start_eq`, `start_tidy`   the first start;
* `Recorded`, `recorded`   the gateway after appends: the flash, the index and the projections.
-/

namespace EkKor
namespace Gateway
open Runs List
open Gossip (EventV2)
open EightBit (Table)

/-! ## the machine -/

/-- a call of `ekk_gateway_append` -/
structure Append where
  moduleId : ModuleId
  event : EventV2
  time : UInt32

/-- a call of `ekk_gateway_init` that passes its check -/
structure Boot where
  gatewayId : ModuleId
  capacity : Capacity
  time : UInt32

inductive Op where
  | append (a : Append)
  | powerCycle (boot : Boot)

def Append.entry (a : Append) (gw : GatewayState) : FlashEntry :=
  flashEntry gw.store.log.globalSequence a.moduleId a.event

def Append.written (a : Append) (gw : GatewayState) : Written :=
  let r := flashLogWrite gw.store.takeSequence (a.entry gw) a.time
  ⟨r.1.map fun offset => (offset, a.entry gw), r.2.2⟩

def gateway (base : UInt32) (boot : Boot) : Machine GatewayState Op Written where
  start := (gatewayStart Flash.erased boot.gatewayId base boot.capacity boot.time).1
  step gw op :=
    match op with
    | .append a => ((gatewayAppend gw a.moduleId a.event a.time).2.1, [a.written gw])
    | .powerCycle boot =>
      let started := gatewayStart gw.store.flash boot.gatewayId base boot.capacity boot.time
      (started.1, [⟨none, started.2⟩])

theorem next_append (base : UInt32) (boot : Boot) (gw : GatewayState) (a : Append) :
    (gateway base boot).next gw (.append a) =
      (gatewayAppend gw a.moduleId a.event a.time).2.1 := rfl

theorem outs_append (base : UInt32) (boot : Boot) (gw : GatewayState) (a : Append) :
    (gateway base boot).outs gw (.append a) = [a.written gw] := rfl

theorem next_powerCycle (base : UInt32) (boot : Boot) (gw : GatewayState) (boot' : Boot) :
    (gateway base boot).next gw (.powerCycle boot') =
      (gatewayStart gw.store.flash boot'.gatewayId base boot'.capacity boot'.time).1 := rfl

theorem outs_powerCycle (base : UInt32) (boot : Boot) (gw : GatewayState) (boot' : Boot) :
    (gateway base boot).outs gw (.powerCycle boot') =
      [⟨none, (gatewayStart gw.store.flash boot'.gatewayId base boot'.capacity boot'.time).2⟩] := rfl

/-! ## appends -/

variable {gw : GatewayState} {live : List (UInt32 × FlashEntry)}

theorem flashEntry_valid (globalSeq : UInt32) (moduleId : ModuleId) (event : EventV2) :
    flashEntryVerify (flashEntry globalSeq moduleId event) = true :=
  flashEntryVerify_crc _

theorem Tidy.takeSequence {s : Store} (h : Tidy s live) : Tidy s.takeSequence live where
  sectors := h.sectors
  current := h.current
  pos := h.pos
  free := h.free
  held l hl := by
    obtain ⟨sector, p, hheld⟩ := h.held l hl
    exact ⟨sector, p, hheld.inside, hheld.entry, hheld.room, hheld.offset, hheld.stored,
      hheld.written, hheld.valid⟩
  distinct := h.distinct

/-- the gateway after an append that was stored in `store` -/
def appended (gw : GatewayState) (a : Append) (offset : UInt32) (store : Store) : GatewayState :=
  { gw with
    store := store
    index := (streamIndexAdd gw.index (indexEntry offset (a.entry gw))).2
    projections := updateProjection gw.projections a.event
    eventsStored := gw.eventsStored + 1 }

theorem append_eq (h : Tidy gw.store live) (a : Append) : ∃ s₁ offset store outs,
    (gatewayAppend gw a.moduleId a.event a.time).2.1 = appended gw a offset store ∧
    a.written gw = ⟨some (offset, a.entry gw), outs⟩ ∧
    Stores gw.store.takeSequence s₁ store live (a.entry gw) offset outs := by
  obtain ⟨s₁, offset, store, outs, heq, hstores⟩ :=
    write_tidy h.takeSequence (flashEntry_valid gw.store.log.globalSequence a.moduleId a.event)
      a.time
  refine ⟨s₁, offset, store, outs, ?_, ?_, hstores⟩
  · unfold gatewayAppend
    dsimp only
    rw [heq]
    rfl
  · unfold Append.written Append.entry
    rw [heq]
    rfl

theorem start_eq (base : UInt32) (boot : Boot) :
    (gateway base boot).start =
      { gatewayId := boot.gatewayId
        store := ⟨Flash.erased, { emptyLog base flashLogCapacity with sectorWritePos := 1 }⟩
        index := streamIndexInit boot.capacity
        projections := Table.empty
        eventsStored := 0
        queriesServed := 0 } := by
  show (gatewayStart _ _ _ _ _).1 = _
  unfold gatewayStart
  rw [init_erased]

theorem start_tidy (base : UInt32) (boot : Boot) : Tidy (gateway base boot).start.store [] := by
  have hcapacity : 256 ≤ flashLogCapacity := by decide
  have h : Tidy (flashLogInit Flash.erased base flashLogCapacity boot.time).1 [] :=
    init_tidy hcapacity boot.time
  rw [init_erased] at h
  rw [start_eq]
  exact h

/-! ## runs of appends -/

def appends (base : UInt32) (boot : Boot) (as : List Append) : GatewayState :=
  (gateway base boot).run (as.map .append)

def appendsWritten (base : UInt32) (boot : Boot) (as : List Append) : List Written :=
  (gateway base boot).trace (as.map .append)

def storedEntries (ws : List Written) : List (UInt32 × FlashEntry) := ws.filterMap Written.stored

def indexOf (capacity : Capacity) (stored : List (UInt32 × FlashEntry)) : StreamIndex :=
  stored.foldl (fun index l => (streamIndexAdd index (indexEntry l.1 l.2)).2)
    (streamIndexInit capacity)

/-- the gateway and what was written after appends -/
structure Recorded (base : UInt32) (boot : Boot) (as : List Append) (gw : GatewayState)
    (ws : List Written) : Prop where
  tidy : Tidy gw.store (liveEntries base ws)
  address : gw.store.log.baseAddress = base
  sequence : gw.store.log.globalSequence = UInt32.ofNat as.length
  entries : (storedEntries ws).map Prod.snd =
    as.mapIdx fun i a => flashEntry (UInt32.ofNat i) a.moduleId a.event
  index : gw.index = indexOf boot.capacity (storedEntries ws)
  projections : gw.projections =
    as.foldl (fun projections a => updateProjection projections a.event) Table.empty

theorem storedEntries_concat (ws : List Written) (l : UInt32 × FlashEntry) (outs : List HalOp) :
    storedEntries (ws ++ [⟨some l, outs⟩]) = storedEntries ws ++ [l] :=
  filterMap_append ..

theorem indexOf_concat (capacity : Capacity) (stored : List (UInt32 × FlashEntry))
    (l : UInt32 × FlashEntry) : indexOf capacity (stored ++ [l]) =
      (streamIndexAdd (indexOf capacity stored) (indexEntry l.1 l.2)).2 :=
  foldl_concat ..

variable {base : UInt32} {boot : Boot} {as : List Append} {ws : List Written}

theorem Recorded.append (h : Recorded base boot as gw ws) (a : Append) :
    Recorded base boot (as ++ [a]) (gatewayAppend gw a.moduleId a.event a.time).2.1
      (ws ++ [a.written gw]) := by
  obtain ⟨s₁, offset, store, outs, heq, hwritten, hstores⟩ := append_eq h.tidy a
  have hbase : gw.store.takeSequence.log.baseAddress = base := h.address
  have htidy := hstores.tidy
  rw [hbase, ← liveEntries_concat] at htidy
  rw [heq, hwritten]
  refine ⟨htidy, hstores.frame.base.trans hbase, ?_, ?_, ?_, ?_⟩
  · refine hstores.frame.sequence.trans ?_
    show gw.store.log.globalSequence + 1 = _
    rw [h.sequence, length_append]
    exact (UInt32.ofNat_add _ _).symm
  · rw [storedEntries_concat, map_append, h.entries, mapIdx_concat, ← h.sequence]
    rfl
  · rw [storedEntries_concat, indexOf_concat, ← h.index]
    rfl
  · rw [foldl_concat, ← h.projections]
    rfl

theorem recorded (base : UInt32) (boot : Boot) (as : List Append) :
    Recorded base boot as (appends base boot as) (appendsWritten base boot as) := by
  induction as using List.reverseRecOn with
  | nil =>
    have htidy := start_tidy base boot
    show Recorded base boot [] (gateway base boot).start []
    rw [start_eq] at htidy ⊢
    exact ⟨htidy, rfl, rfl, rfl, rfl, rfl⟩
  | append_singleton as a ih =>
    unfold appends appendsWritten at ih ⊢
    rw [map_append, map_singleton, Machine.run_concat, Machine.trace_concat, next_append,
      outs_append]
    exact ih.append a

/-! ## the index -/

theorem entries_indexOf (capacity : Capacity) (stored : List (UInt32 × FlashEntry)) :
    (indexOf capacity stored).capacity = capacity ∧ (indexOf capacity stored).entries =
      (stored.take capacity.val.toNat).map fun l => indexEntry l.1 l.2 := by
  induction stored using List.reverseRecOn with
  | nil =>
    rw [take_nil]
    exact ⟨rfl, rfl⟩
  | append_singleton stored l ih =>
    obtain ⟨hcapacity, hentries⟩ := ih
    rw [indexOf_concat]
    unfold streamIndexAdd
    rw [hcapacity, hentries, length_map, length_take]
    by_cases hfull : capacity.val.toNat ≤ stored.length
    · rw [if_pos (Nat.le_min.mpr ⟨Nat.le_refl _, hfull⟩), take_append_of_le_length hfull]
      exact ⟨hcapacity, hentries⟩
    · have hroom := Nat.lt_of_not_le hfull
      rw [if_neg fun h => hfull (Nat.le_min.mp h).2, take_of_length_le (Nat.le_of_lt hroom),
        take_of_length_le (by rw [length_append]; exact hroom), map_append]
      exact ⟨rfl, rfl⟩

theorem Recorded.length_stored (h : Recorded base boot as gw ws) :
    (storedEntries ws).length = as.length := by
  rw [← length_map Prod.snd, h.entries, length_mapIdx]

theorem Recorded.indexed (h : Recorded base boot as gw ws)
    (hlen : gw.index.entries.length = as.length) : as.length ≤ boot.capacity.val.toNat ∧
      gw.index.entries = (storedEntries ws).map fun l => indexEntry l.1 l.2 := by
  obtain ⟨_, htake⟩ := entries_indexOf boot.capacity (storedEntries ws)
  rw [← h.index] at htake
  rw [htake, length_map, length_take, h.length_stored] at hlen
  have hle : as.length ≤ boot.capacity.val.toNat := by omega
  exact ⟨hle, by rw [htake, take_of_length_le (by rw [h.length_stored]; exact hle)]⟩

theorem Recorded.indexed_of_le (h : Recorded base boot as gw ws)
    (hle : as.length ≤ boot.capacity.val.toNat) : gw.index.entries.length = as.length := by
  obtain ⟨_, htake⟩ := entries_indexOf boot.capacity (storedEntries ws)
  rw [h.index, htake, length_map, length_take, h.length_stored]
  exact Nat.min_eq_right hle

/-! ## the first sector -/

theorem noErase_iff (base : UInt32) (boot : Boot) (as : List Append) :
    (∀ w ∈ appendsWritten base boot as, NoErase w.outs) ↔ as.length ≤ 255 := by
  have hinv : (as.length ≤ 255 → (∀ w ∈ appendsWritten base boot as, NoErase w.outs) ∧
      (appends base boot as).store.log.sectorWritePos.toNat = as.length + 1) ∧
      (256 ≤ as.length → ¬ ∀ w ∈ appendsWritten base boot as, NoErase w.outs) := by
    induction as using List.reverseRecOn with
    | nil =>
      refine ⟨fun _ => ⟨fun w hw => absurd hw not_mem_nil, ?_⟩,
        fun h => absurd h (by decide)⟩
      have hstart : appends base boot [] = (gateway base boot).start := rfl
      rw [hstart, start_eq]
      exact UInt32.toNat_one
    | append_singleton as a ih =>
      obtain ⟨s₁, offset, store, outs, heq, hwritten, hstores⟩ :=
        append_eq (recorded base boot as).tidy a
      have hws : appendsWritten base boot (as ++ [a]) =
          appendsWritten base boot as ++ [⟨some (offset, a.entry (appends base boot as)), outs⟩] := by
        rw [← hwritten]
        unfold appendsWritten appends
        rw [map_append, map_singleton, Machine.trace_concat, outs_append]
      have hgw : (appends base boot (as ++ [a])).store = store := by
        unfold appends at heq ⊢
        rw [map_append, map_singleton, Machine.run_concat, next_append, heq]
        rfl
      rw [hws, hgw, length_append, length_singleton]
      refine ⟨fun hlen => ?_, fun hlen hall => ?_⟩
      · obtain ⟨hno, hpos⟩ := ih.1 (by omega)
        obtain ⟨hsame, hquiet⟩ := hstores.made.resolve_right fun hnew => by
          have hfull := UInt32.le_iff_toNat_le.mp hnew.1
          change 256 ≤ (appends base boot as).store.log.sectorWritePos.toNat at hfull
          omega
        refine ⟨fun w hw => ?_, ?_⟩
        · cases mem_append.mp hw with
          | inl hw => exact hno w hw
          | inr hw =>
            rw [mem_singleton.mp hw]
            exact hquiet
        · rw [hstores.log, hsame]
          show ((appends base boot as).store.log.sectorWritePos + 1).toNat = _
          rw [UInt32.toNat_add, hpos]
          show (as.length + 1 + 1) % 2 ^ 32 = _
          omega
      · have hbefore : ∀ w ∈ appendsWritten base boot as, NoErase w.outs :=
          fun w hw => hall w (mem_append_left _ hw)
        have hlast : NoErase outs := hall _ mem_concat_self
        by_cases hlong : 256 ≤ as.length
        · exact ih.2 hlong hbefore
        · have hroom := hstores.room
          rw [(hstores.made.resolve_right fun hnew => hnew.2.2 hlast).1] at hroom
          change (appends base boot as).store.log.sectorWritePos.toNat < 256 at hroom
          omega
  exact ⟨fun hall => Nat.le_of_not_lt fun hlong => hinv.2 hlong hall, fun h => (hinv.1 h).1⟩

theorem live_of_noErase (base : UInt32) {ws : List Written} (h : ∀ w ∈ ws, NoErase w.outs) :
    liveEntries base ws = storedEntries ws := by
  induction ws using List.reverseRecOn with
  | nil => rfl
  | append_singleton ws w ih =>
    have hno := h w mem_concat_self
    have hall (o : UInt32) : survives base w.outs o = true := by
      refine all_eq_true.mpr fun out hout => ?_
      cases out with
      | erase address => exact absurd hout (hno address)
      | program address accepted => rfl
    rw [liveEntries_concat, ih fun w' hw' => h w' (mem_append_left _ hw')]
    unfold liveStep storedEntries
    rw [filter_eq_self.mpr fun l _ => hall l.1, filterMap_append]
    cases hs : w.stored with
    | none => simp [hs]
    | some l => simp [hs]

theorem stored_live (base : UInt32) (boot : Boot) (as : List Append) (h : as.length ≤ 255) :
    ∀ l ∈ storedEntries (appendsWritten base boot as),
      l ∈ liveEntries base (appendsWritten base boot as) := by
  rw [live_of_noErase base ((noErase_iff base boot as).mpr h)]
  exact fun l hl => hl

end Gateway
end EkKor
