import EkKor.Gateway.Run
import EkKor.Gateway.Streams

/-!
# What an append reports

Runs of the gateway on a flash whose calls may fail; a call that fails does nothing.

* `Faults`, `flashLogWriteIo`, `gatewayAppendIo`   an append when some flash calls fail;
* `served`            the appends and the queries from the first start on;
* `Ready`, `ready_run`   what is true of every state;
* `Reports`           an append reports what it stored;
* `reports_iff`       it does exactly when no call fails, its sequence is not 0, the index has room,
                      and its stream is in order there.
-/

namespace EkKor
namespace Gateway
open Runs
open List hiding Vector
open Gossip (EventV2)
open EightBit (Table)

/-! ## flash calls that fail -/

/-- the flash calls of an append that fail: the erase, the write of the sector header, and the write
of the entry -/
structure Faults where
  erase : Bool
  header : Bool
  entry : Bool

/-- `erase_and_init_sector` -/
def eraseAndInitSectorIo (f : Faults) (s : Store) (sector : Nat) (firstSeq time : UInt32) :
    Except Err Unit × Store :=
  if f.erase then (.error .halFailure, s)
  else if f.header then
    (.error .halFailure,
      ⟨(s.flash.eraseSector (sectorAddress s.log sector)).1,
        { s.log with
          sectorEraseCounts :=
            Function.update s.log.sectorEraseCounts sector (s.log.sectorEraseCounts sector + 1)
          totalErases := s.log.totalErases + 1 }⟩)
  else
    let r := eraseAndInitSector s sector firstSeq time
    (r.1, r.2.1)

/-- `advance_sector` -/
def advanceSectorIo (f : Faults) (s : Store) (time : UInt32) : Except Err Unit × Store :=
  let next := nextSector s.log
  match eraseAndInitSectorIo f s next s.log.globalSequence time with
  | (.error err, s) => (.error err, s)
  | (.ok (), s) =>
    (.ok (),
      { s with
        log :=
          { s.log with
            currentSector := next
            sectorWritePos := 1
            writeSector := next } })

/-- `ekk_flash_log_write`; `none` for `0xFFFFFFFF` -/
def flashLogWriteIo (f : Faults) (s : Store) (entry : FlashEntry) (time : UInt32) :
    Option UInt32 × Store :=
  let advanced :=
    if s.log.sectorWritePos ≥ entriesPerSector then advanceSectorIo f s time else (.ok (), s)
  match advanced with
  | (.error _, s) => (none, s)
  | (.ok (), s) =>
    let offset := slotOffset s.log.currentSector s.log.sectorWritePos
    if f.entry then (none, s)
    else
      match s.flash.write (s.log.baseAddress + offset) (FlashEntry.layout.encode entry) with
      | (.error _, flash, _) => (none, ⟨flash, s.log⟩)
      | (.ok (), flash, _) => (some offset, ⟨flash, s.log.advance⟩)

/-- `ekk_gateway_append` -/
def gatewayAppendIo (f : Faults) (gw : GatewayState) (moduleId : ModuleId) (event : EventV2)
    (time : UInt32) : UInt32 × GatewayState :=
  let entry := flashEntry gw.store.log.globalSequence moduleId event
  match flashLogWriteIo f gw.store.takeSequence entry time with
  | (none, store) => (0, { gw with store := store })
  | (some offset, store) =>
    (entry.globalSeq,
      { gw with
        store := store
        index := (streamIndexAdd gw.index (indexEntry offset entry)).2
        projections := updateProjection gw.projections event
        eventsStored := gw.eventsStored + 1 })

def Append.place (a : Append) (f : Faults) (gw : GatewayState) : Option UInt32 :=
  (flashLogWriteIo f gw.store.takeSequence (a.entry gw) a.time).1

def Faults.Stop (f : Faults) (s : Store) : Prop :=
  f.entry = true ∨ s.log.sectorWritePos ≥ entriesPerSector ∧ (f.erase = true ∨ f.header = true)

/-! ## runs -/

/-- the calls of the gateway -/
inductive Call where
  | append (a : Append) (f : Faults)
  | readStream (streamId : ModuleId) (fromSeq maxCount : UInt32)
  | stateAt (moduleId : ModuleId) (timestampUs : UInt32)

/-- the gateway on a flash that was erased before the start; a step gives the entry it stores -/
def served (base : UInt32) (boot : Boot) : Machine GatewayState Call FlashEntry where
  start := (gatewayStart Flash.erased boot.gatewayId base boot.capacity boot.time).1
  step gw call :=
    match call with
    | .append a f =>
      ((gatewayAppendIo f gw a.moduleId a.event a.time).2,
        ((a.place f gw).map fun _ => a.entry gw).toList)
    | .readStream streamId fromSeq maxCount => ((gatewayReadStream gw streamId fromSeq maxCount).2, [])
    | .stateAt moduleId timestampUs => ((gatewayStateAt gw moduleId timestampUs).2, [])

variable {s : Store} {gw : GatewayState} {live : List (UInt32 × FlashEntry)} {f : Faults}

/-! ## one write -/

theorem advance_of_go (he : ¬ f.erase = true) (hh : ¬ f.header = true) (s : Store) (time : UInt32) :
    advanceSectorIo f s time = ((advanceSector s time).1, (advanceSector s time).2.1) := by
  unfold advanceSectorIo advanceSector eraseAndInitSectorIo
  dsimp only
  rw [if_neg he, if_neg hh]
  generalize eraseAndInitSector s (nextSector s.log) s.log.globalSequence time = r
  obtain ⟨r, s', outs⟩ := r
  cases r with
  | error err => rfl
  | ok u => rfl

theorem write_of_go (h : ¬ f.Stop s) (entry : FlashEntry) (time : UInt32) :
    flashLogWriteIo f s entry time =
      ((flashLogWrite s entry time).1, (flashLogWrite s entry time).2.1) := by
  have hentry : ¬ f.entry = true := fun he => h (.inl he)
  have hadvance : (if s.log.sectorWritePos ≥ entriesPerSector then advanceSectorIo f s time
      else (.ok (), s)) =
        let r := if s.log.sectorWritePos ≥ entriesPerSector then advanceSector s time
          else (.ok (), s, [])
        (r.1, r.2.1) := by
    by_cases hfull : s.log.sectorWritePos ≥ entriesPerSector
    · rw [if_pos hfull, if_pos hfull]
      exact advance_of_go (fun he => h (.inr ⟨hfull, .inl he⟩)) (fun hh => h (.inr ⟨hfull, .inr hh⟩)) s time
    · rw [if_neg hfull, if_neg hfull]
  unfold flashLogWriteIo flashLogWrite
  rw [hadvance]
  generalize (if s.log.sectorWritePos ≥ entriesPerSector then advanceSector s time
    else (.ok (), s, [])) = r
  obtain ⟨r, s', outs⟩ := r
  cases r with
  | error err => rfl
  | ok u =>
    dsimp only
    rw [if_neg hentry]
    generalize s'.flash.write _ _ = w
    obtain ⟨r, flash, more⟩ := w
    cases r with
    | error err => rfl
    | ok u => rfl

theorem Tidy.forget (h : Tidy s live) : Tidy s [] :=
  ⟨h.sectors, h.current, h.pos, h.free, fun _ hl => absurd hl not_mem_nil, nodup_nil⟩

theorem tidy_full (h : Tidy s live) (hfull : s.log.sectorWritePos ≥ entriesPerSector) {s' : Store}
    (hlog : s'.log.sectorCount = s.log.sectorCount ∧ s'.log.currentSector = s.log.currentSector ∧
      s'.log.sectorWritePos = s.log.sectorWritePos) : Tidy s' [] := by
  obtain ⟨hcount, hcurrent, hpos⟩ := hlog
  refine ⟨hcount ▸ h.sectors, ?_, hpos ▸ h.pos, fun p h1 hp => ?_,
    fun _ hl => absurd hl not_mem_nil, nodup_nil⟩
  · rw [hcount, hcurrent]
    exact h.current
  · rw [hpos] at h1
    change 256 ≤ s.log.sectorWritePos.toNat at hfull
    omega

theorem write_of_stop (h : Tidy s live) (hstop : f.Stop s) (entry : FlashEntry) (time : UInt32) :
    ∃ s', flashLogWriteIo f s entry time = (none, s') ∧ Tidy s' [] ∧ Frame s s' := by
  have hframe : Frame s s := ⟨rfl, rfl, rfl⟩
  unfold flashLogWriteIo
  by_cases hfull : s.log.sectorWritePos ≥ entriesPerSector
  · rw [if_pos hfull]
    by_cases he : f.erase = true
    · have heq : advanceSectorIo f s time = (.error .halFailure, s) := by
        unfold advanceSectorIo eraseAndInitSectorIo
        dsimp only
        rw [if_pos he]
      rw [heq]
      exact ⟨s, rfl, h.forget, hframe⟩
    · by_cases hh : f.header = true
      · obtain ⟨s', heq, hbase, hlog⟩ : ∃ s', advanceSectorIo f s time = (.error .halFailure, s') ∧
            Frame s s' ∧ s'.log.sectorCount = s.log.sectorCount ∧
            s'.log.currentSector = s.log.currentSector ∧
            s'.log.sectorWritePos = s.log.sectorWritePos := by
          unfold advanceSectorIo eraseAndInitSectorIo
          dsimp only
          rw [if_neg he, if_pos hh]
          exact ⟨_, rfl, ⟨rfl, rfl, rfl⟩, rfl, rfl, rfl⟩
        rw [heq]
        exact ⟨s', rfl, tidy_full h hfull hlog, hbase⟩
      · obtain ⟨s', heq, htidy, -, hframe'⟩ := advance_tidy h time
        have hentry : f.entry = true := hstop.resolve_right fun hno =>
          hno.2.elim (fun h => he h) (fun h => hh h)
        rw [advance_of_go he hh, heq]
        dsimp only
        rw [if_pos hentry]
        exact ⟨s', rfl, htidy.forget, hframe'⟩
  · have hentry : f.entry = true := hstop.resolve_right fun hno => hfull hno.1
    rw [if_neg hfull]
    dsimp only
    rw [if_pos hentry]
    exact ⟨s, rfl, h.forget, hframe⟩

/-! ## one append -/

/-- an append that goes through, and how its entry is read back -/
structure Goes (gw : GatewayState) (a : Append) (f : Faults) (offset : UInt32) (store : Store) :
    Prop where
  place : a.place f gw = some offset
  result : gatewayAppendIo f gw a.moduleId a.event a.time =
    (gw.store.log.globalSequence, appended gw a offset store)
  tidy : Tidy store []
  sequence : store.log.globalSequence = gw.store.log.globalSequence + 1
  read : ∀ s : Store, s.flash = store.flash → s.log.baseAddress = store.log.baseAddress →
    flashLogRead s offset = (.ok (a.entry gw), s)

theorem append_of_go (h : Tidy gw.store []) (hgo : ¬ f.Stop gw.store) (a : Append) :
    ∃ offset store, Goes gw a f offset store := by
  have hvalid := flashEntry_valid gw.store.log.globalSequence a.moduleId a.event
  obtain ⟨s₁, offset, store, outs, heq, hstores⟩ :=
    write_tidy h.takeSequence hvalid a.time
  have hwrite : flashLogWriteIo f gw.store.takeSequence (a.entry gw) a.time = (some offset, store) := by
    rw [write_of_go (f := f) (s := gw.store.takeSequence) hgo]
    unfold Append.entry
    rw [heq]
  have hflash : store.flash.slot (store.log.baseAddress + offset) =
      some (FlashEntry.layout.encode (a.entry gw)) := by
    rw [hstores.frame.base, hstores.flash]
    exact Function.update_self ..
  refine ⟨offset, store, ?_, ?_, hstores.tidy.forget, hstores.frame.sequence, fun s hs hbase => ?_⟩
  · unfold Append.place
    rw [hwrite]
  · have hwrite' := hwrite
    unfold Append.entry at hwrite'
    unfold gatewayAppendIo
    dsimp only
    rw [hwrite']
    rfl
  · refine read_stored hvalid ?_
    rw [hs, hbase]
    exact hflash

theorem append_of_stop (h : Tidy gw.store []) (hstop : f.Stop gw.store) (a : Append) :
    ∃ store, a.place f gw = none ∧
      gatewayAppendIo f gw a.moduleId a.event a.time = (0, { gw with store := store }) ∧
      Tidy store [] ∧ store.log.globalSequence = gw.store.log.globalSequence + 1 := by
  obtain ⟨store, hwrite, htidy, hframe⟩ :=
    write_of_stop (f := f) h.takeSequence hstop (a.entry gw) a.time
  refine ⟨store, ?_, ?_, htidy, hframe.sequence⟩
  · unfold Append.place
    rw [hwrite]
  · have hwrite' := hwrite
    unfold Append.entry at hwrite'
    unfold gatewayAppendIo
    dsimp only
    rw [hwrite']

/-! ## the streams of the index -/

def Rooted (index : StreamIndex) : Prop :=
  ∀ st ∈ index.streams.rows, st.firstIndex.toNat < index.entries.length

theorem mem_upsert {α κ : Type*} [DecidableEq κ] {key : α → κ} {fresh : κ → α} {g : α → α}
    (hg : ∀ a, key (g a) = key a) {l : List α} {k : κ} {a : α}
    (h : a ∈ Keyed.upsert key fresh g l k) :
    a ∈ l ∨ ∃ b, a = g b ∧ (b ∈ l ∨ b = fresh k) := by
  cases hlookup : Keyed.lookup key l k with
  | none =>
    rw [Keyed.upsert_new hlookup] at h
    rcases mem_append.mp h with h | h
    · exact .inl h
    · exact .inr ⟨fresh k, mem_singleton.mp h, .inr rfl⟩
  | some b =>
    obtain ⟨i, -, heq⟩ := Keyed.upsert_found fresh hg hlookup
    rw [heq] at h
    rcases mem_or_eq_of_mem_set h with h | h
    · exact .inl h
    · exact .inr ⟨b, h, .inl (Keyed.mem_of_lookup hlookup).1⟩

variable {index : StreamIndex} {entry : IndexEntry}

theorem toNat_place (h : index.entries.length < index.capacity.val.toNat) :
    (UInt32.ofNat index.entries.length).toNat = index.entries.length := by
  have hlt := index.capacity.val.toNat_lt
  exact Nat.mod_eq_of_lt (by omega)

theorem firstIndex_add {st : StreamState} (h : st.firstIndex.toNat < index.entries.length)
    (hroom : index.entries.length < index.capacity.val.toNat) (idx : UInt32) (entry : IndexEntry) :
    (st.add idx entry).firstIndex = st.firstIndex := by
  refine if_neg fun he => ?_
  have hlt := index.capacity.val.toNat_lt
  rw [he] at h
  change 4294967295 < _ at h
  omega

theorem rooted_add (h : Rooted index) (entry : IndexEntry) :
    Rooted (streamIndexAdd index entry).2 := by
  unfold streamIndexAdd
  by_cases hfull : index.entries.length ≥ index.capacity.val.toNat
  · rw [if_pos hfull]
    exact h
  · have hroom := Nat.not_le.mp hfull
    rw [if_neg hfull]
    intro st hst
    rw [length_append, length_singleton]
    rcases @EightBit.update_cases _ StreamState.moduleId newStream index.streams
      entry.streamId (StreamState.add (UInt32.ofNat index.entries.length) entry) with heq | ⟨hnil, -⟩
    · rw [heq] at hst
      have hkey (st : StreamState) :
          (st.add (UInt32.ofNat index.entries.length) entry).moduleId = st.moduleId := rfl
      rcases mem_upsert hkey hst with hold | ⟨b, rfl, hb | rfl⟩
      · exact Nat.lt_succ_of_lt (h st hold)
      · rw [firstIndex_add (h b hb) hroom]
        exact Nat.lt_succ_of_lt (h b hb)
      · show (UInt32.ofNat index.entries.length).toNat < _
        rw [toNat_place hroom]
        exact Nat.lt_succ_self _
    · rw [hnil] at hst
      cases hst

/-! ## every state -/

/-- what is true of every state -/
structure Ready (gw : GatewayState) : Prop where
  tidy : Tidy gw.store []
  rooted : Rooted gw.index

theorem ready_append (h : Ready gw) (a : Append) (f : Faults) :
    Ready (gatewayAppendIo f gw a.moduleId a.event a.time).2 := by
  by_cases hstop : f.Stop gw.store
  · obtain ⟨store, -, heq, htidy, -⟩ := append_of_stop h.tidy hstop a
    rw [heq]
    exact ⟨htidy, h.rooted⟩
  · obtain ⟨offset, store, hgoes⟩ := append_of_go h.tidy hstop a
    rw [hgoes.result]
    exact ⟨hgoes.tidy, rooted_add h.rooted _⟩

theorem tidy_read (h : Tidy s []) (offset : UInt32) : Tidy (flashLogRead s offset).2 [] := by
  unfold flashLogRead
  dsimp only
  split_ifs
  · exact h
  · exact ⟨h.sectors, h.current, h.pos, h.free, fun _ hl => absurd hl not_mem_nil,
      nodup_nil⟩

theorem tidy_reads {α : Type} {step : α × Store → IndexEntry → α × Store}
    (hstep : ∀ r idx, (step r idx).2 = r.2 ∨ ∃ offset, (step r idx).2 = (flashLogRead r.2 offset).2)
    (l : List IndexEntry) (r : α × Store) (h : Tidy r.2 []) : Tidy (l.foldl step r).2 [] := by
  induction l generalizing r with
  | nil => exact h
  | cons idx l ih =>
    refine ih _ ?_
    rcases hstep r idx with heq | ⟨offset, heq⟩
    · rw [heq]
      exact h
    · rw [heq]
      exact tidy_read h offset

theorem ready_readStream (h : Ready gw) (streamId : ModuleId) (fromSeq maxCount : UInt32) :
    Ready (gatewayReadStream gw streamId fromSeq maxCount).2 := by
  unfold gatewayReadStream
  split_ifs with hzero
  · exact h
  · cases findStream gw.index streamId fromSeq with
    | error e => exact h
    | ok r =>
      refine ⟨tidy_reads (fun r idx => .inr ⟨idx.flashOffset, ?_⟩) _ _ h.tidy, h.rooted⟩
      unfold readEntry
      cases flashLogRead r.2 idx.flashOffset with
      | mk result s =>
        cases result with
        | ok e => rfl
        | error e => rfl

theorem ready_stateAt (h : Ready gw) (moduleId : ModuleId) (timestampUs : UInt32) :
    Ready (gatewayStateAt gw moduleId timestampUs).2 := by
  unfold gatewayStateAt
  cases findTime gw.index 0 timestampUs with
  | error e => exact h
  | ok r =>
    refine ⟨tidy_reads (fun r idx => ?_) _ _ h.tidy, h.rooted⟩
    unfold replayEntry
    split_ifs with hother
    · exact .inl rfl
    · refine .inr ⟨idx.flashOffset, ?_⟩
      cases flashLogRead r.2 idx.flashOffset with
      | mk result s =>
        cases result with
        | ok e => rfl
        | error e => rfl

theorem ready_run (base : UInt32) (boot : Boot) (calls : List Call) :
    Ready ((served base boot).run calls) := by
  induction calls using List.reverseRecOn with
  | nil =>
    have hstart := start_tidy base boot
    refine ⟨hstart, fun st hst => ?_⟩
    cases hst
  | append_singleton calls call ih =>
    rw [Machine.run_concat]
    cases call with
    | append a f => exact ready_append ih a f
    | readStream streamId fromSeq maxCount => exact ready_readStream ih streamId fromSeq maxCount
    | stateAt moduleId timestampUs => exact ready_stateAt ih moduleId timestampUs

/-! ## the stream of the last entry -/

/-- the index finds a stream after an entry of it: the stream is known, or it is not the last one that
makes the count wrap -/
def Listed (index : StreamIndex) (id : ModuleId) : Prop :=
  Keyed.lookup StreamState.moduleId index.streams.rows id ≠ none ∨ index.streams.rows.length < 255

def firstPlace (index : StreamIndex) (id : ModuleId) : Nat :=
  ((Keyed.lookup StreamState.moduleId index.streams.rows id).map fun st =>
    st.firstIndex.toNat).getD index.entries.length

theorem length_upsert_new {α κ : Type*} [DecidableEq κ] {key : α → κ} {fresh : κ → α} {g : α → α}
    {l : List α} {k : κ} (h : Keyed.lookup key l k = none) :
    (Keyed.upsert key fresh g l k).length = l.length + 1 := by
  rw [Keyed.upsert_new h, length_append, length_singleton]

theorem length_upsert_known {α κ : Type*} [DecidableEq κ] {key : α → κ} {fresh : κ → α} {g : α → α}
    (hg : ∀ a, key (g a) = key a) {l : List α} {k : κ} (h : Keyed.lookup key l k ≠ none) :
    (Keyed.upsert key fresh g l k).length = l.length := by
  obtain ⟨b, hb⟩ := Option.ne_none_iff_exists'.mp h
  obtain ⟨i, -, heq⟩ := Keyed.upsert_found fresh hg hb
  rw [heq, length_set]

theorem entries_add (hroom : index.entries.length < index.capacity.val.toNat) (entry : IndexEntry) :
    (streamIndexAdd index entry).2.entries = index.entries ++ [entry] := by
  unfold streamIndexAdd
  rw [if_neg (Nat.not_le.mpr hroom)]

theorem lookup_add (h : Rooted index) (hroom : index.entries.length < index.capacity.val.toNat)
    (entry : IndexEntry) :
    (Listed index entry.streamId → ∃ st,
      Keyed.lookup StreamState.moduleId (streamIndexAdd index entry).2.streams.rows entry.streamId =
        some st ∧ st.firstIndex ≠ 0xFFFFFFFF ∧
        st.firstIndex.toNat = firstPlace index entry.streamId ∧
        st.lastIndex.toNat = index.entries.length) ∧
    (¬ Listed index entry.streamId →
      Keyed.lookup StreamState.moduleId (streamIndexAdd index entry).2.streams.rows entry.streamId =
        none) := by
  have hrows : (streamIndexAdd index entry).2.streams =
      index.streams.update StreamState.moduleId newStream entry.streamId
        (StreamState.add (UInt32.ofNat index.entries.length) entry) := by
    unfold streamIndexAdd
    rw [if_neg (Nat.not_le.mpr hroom)]
  have hplace := toNat_place hroom
  have hsentinel : UInt32.ofNat index.entries.length ≠ 0xFFFFFFFF := fun he => by
    have hlt := index.capacity.val.toNat_lt
    rw [he] at hplace
    change 4294967295 = _ at hplace
    omega
  rw [hrows]
  generalize UInt32.ofNat index.entries.length = idx at hplace hsentinel ⊢
  have hkey (st : StreamState) : (st.add idx entry).moduleId = st.moduleId := rfl
  have hcases := @EightBit.update_cases _ StreamState.moduleId newStream
    index.streams entry.streamId (StreamState.add idx entry)
  have hbound := (index.streams.update StreamState.moduleId newStream entry.streamId
    (StreamState.add idx entry)).bound
  unfold Listed firstPlace
  constructor
  · intro hlisted
    have hupsert := hcases.resolve_right fun hno => by
      have hfull := hno.2
      have hold := index.streams.bound
      by_cases hnone : Keyed.lookup StreamState.moduleId index.streams.rows entry.streamId = none
      · have hfew := hlisted.resolve_left (not_not_intro hnone)
        rw [length_upsert_new hnone] at hfull
        omega
      · rw [length_upsert_known hkey hnone] at hfull
        omega
    rw [hupsert, Keyed.lookup_upsert hkey (fun _ => rfl), if_pos rfl]
    refine ⟨_, rfl, ?_⟩
    cases hlookup : Keyed.lookup StreamState.moduleId index.streams.rows entry.streamId with
    | none => exact ⟨hsentinel, hplace, hplace⟩
    | some st =>
      have hin := h st (Keyed.mem_of_lookup hlookup).1
      have hfirst : (st.add idx entry).firstIndex = st.firstIndex := firstIndex_add hin hroom idx entry
      show (st.add idx entry).firstIndex ≠ _ ∧ (st.add idx entry).firstIndex.toNat = _ ∧ _
      rw [hfirst]
      refine ⟨fun he => ?_, rfl, hplace⟩
      have hlt := index.capacity.val.toNat_lt
      rw [he] at hin
      change 4294967295 < _ at hin
      omega
  · intro hno
    rw [not_or, not_not] at hno
    have hrows : (index.streams.update StreamState.moduleId newStream entry.streamId
        (StreamState.add idx entry)).rows = [] := by
      rcases hcases with heq | heq
      · rw [heq, length_upsert_new hno.1] at hbound
        omega
      · exact heq.1
    rw [hrows]
    rfl

/-! ## reports -/

/-- some read of a stream takes an entry at place `n` of the index and returns its event -/
def Readable (gw : GatewayState) (n : Nat) (id : ModuleId) (event : EventV2) : Prop :=
  ∃ fromSeq maxCount first count, findStream gw.index id fromSeq = .ok (first, count) ∧ first ≤ n ∧
    n < first + min count maxCount.toNat ∧ event ∈ (gatewayReadStream gw id fromSeq maxCount).1

def Append.keys (a : Append) (gw : GatewayState) : List (ModuleId × UInt16) :=
  gw.index.entries.map IndexEntry.key ++ [(a.moduleId, (a.event.originSeq &&& 0xFFFF).toUInt16)]

theorem mem_taken {entries : List IndexEntry} {entry : IndexEntry} {p count : Nat}
    (hp : p ≤ entries.length) (hlt : entries.length < p + count) :
    entry ∈ ((entries ++ [entry]).drop p).take count := by
  rw [drop_append_of_le_length hp]
  refine mem_iff_getElem?.mpr ⟨entries.length - p, ?_⟩
  rw [getElem?_take, if_pos (by omega), getElem?_append_right (by rw [length_drop]),
    length_drop, Nat.sub_self]
  rfl

theorem readable_iff (h : Ready gw) {a : Append} {offset : UInt32} {store : Store}
    (hgoes : Goes gw a f offset store)
    (hroom : gw.index.entries.length < gw.index.capacity.val.toNat) :
    Readable (appended gw a offset store) gw.index.entries.length a.moduleId (entryEvent (a.entry gw)) ↔
      Listed gw.index a.moduleId ∧ Apart (a.keys gw) (firstPlace gw.index a.moduleId) a.moduleId := by
  have hentries := entries_add hroom (indexEntry offset (a.entry gw))
  obtain ⟨hfound, hlost⟩ := lookup_add h.rooted hroom (indexEntry offset (a.entry gw))
  have hid : (indexEntry offset (a.entry gw)).streamId = a.moduleId := rfl
  rw [hid] at hfound hlost
  have hkeys : (gw.index.entries ++ [indexEntry offset (a.entry gw)]).map IndexEntry.key =
      a.keys gw := map_append ..
  have hcapacity := gw.index.capacity.val.toNat_lt
  have hread : ∀ s : Store, s.flash = store.flash → s.log.baseAddress = store.log.baseAddress →
      flashLogRead s (indexEntry offset (a.entry gw)).flashOffset = (.ok (a.entry gw), s) :=
    hgoes.read
  by_cases hlisted : Listed gw.index a.moduleId
  · rw [and_iff_right hlisted]
    obtain ⟨st, hlookup, hfirst, hplace, hlast⟩ := hfound hlisted
    have hfind (fromSeq : UInt32) := @findStream_eq _ (appended gw a offset store).index _ fromSeq
      hlookup hfirst
    have hindex : (appended gw a offset store).index.entries =
        gw.index.entries ++ [indexEntry offset (a.entry gw)] := hentries
    have hscanned : scanned st (appended gw a offset store).index.entries =
        range' (firstPlace gw.index a.moduleId)
          (gw.index.entries.length + 1 - firstPlace gw.index a.moduleId) := by
      unfold scanned
      rw [hindex, hplace, hlast, length_append, length_singleton, Nat.min_self]
    rw [← hkeys, ← found_iff_apart (n := gw.index.entries.length) (by
      rw [length_append, length_singleton])]
    rw [hscanned, hindex] at hfind
    constructor
    · rintro ⟨fromSeq, maxCount, first, count, hok, -, hlt, -⟩
      rw [hfind] at hok
      refine ⟨fromSeq, first, ?_⟩
      cases hp : (range' (firstPlace gw.index a.moduleId)
          (gw.index.entries.length + 1 - firstPlace gw.index a.moduleId)).find?
          (matchesAt (gw.index.entries ++ [indexEntry offset (a.entry gw)]) a.moduleId fromSeq) with
      | none =>
        rw [hp] at hok
        cases hok
      | some p =>
        rw [hp] at hok
        obtain ⟨rfl, rfl⟩ := Prod.mk.inj (Except.ok.inj hok)
        exact ⟨rfl, Nat.lt_of_lt_of_le hlt (Nat.add_le_add_left (Nat.min_le_left ..) _)⟩
    · rintro ⟨fromSeq, p, hp, hlt⟩
      have hok := hfind fromSeq
      rw [hp] at hok
      generalize hcount : (range' (firstPlace gw.index a.moduleId)
          (gw.index.entries.length + 1 - firstPlace gw.index a.moduleId)).countP
          (matchesAt (gw.index.entries ++ [indexEntry offset (a.entry gw)]) a.moduleId fromSeq) =
          count at hok hlt
      have hfew : count ≤ gw.index.entries.length + 1 := by
        rw [← hcount]
        refine Nat.le_trans countP_le_length ?_
        rw [length_range']
        omega
      have hp' : p ≤ gw.index.entries.length := by
        obtain ⟨-, hmem, -⟩ := find?_range'_eq_some.mp hp
        obtain ⟨h1, h2⟩ := mem_range'_1.mp hmem
        omega
      have hmax : (UInt32.ofNat count).toNat = count := by
        exact Nat.mod_eq_of_lt (by omega)
      have hnonzero : UInt32.ofNat count ≠ 0 := fun he => by
        rw [he] at hmax
        change 0 = count at hmax
        omega
      refine ⟨fromSeq, UInt32.ofNat count, p, count, hok, hp', ?_, ?_⟩
      · rw [hmax, Nat.min_self]
        exact hlt
      · unfold gatewayReadStream
        rw [if_neg hnonzero, hok]
        dsimp only
        rw [hmax, Nat.min_self, hindex]
        exact mem_readEntries hread _ (mem_taken hp' hlt) [] rfl rfl
  · refine iff_of_false (fun hread => ?_) fun hno => hlisted hno.1
    obtain ⟨fromSeq, maxCount, first, count, hok, -⟩ := hread
    have hnone : findStream (appended gw a offset store).index a.moduleId fromSeq =
        .error .notFound := by
      unfold findStream
      rw [show Keyed.lookup StreamState.moduleId (appended gw a offset store).index.streams.rows
        a.moduleId = none from hlost hlisted]
    rw [hnone] at hok
    cases hok

def following (entries : List FlashEntry) : UInt32 :=
  match entries.getLast? with
  | none => 0
  | some e => e.globalSeq + 1

/-- an append after some calls reports what it stored -/
structure Reports (base : UInt32) (boot : Boot) (calls : List Call) (a : Append) (f : Faults) :
    Prop where
  /-- it returns 0 if and only if the event was not stored -/
  value : (gatewayAppendIo f ((served base boot).run calls) a.moduleId a.event a.time).1 = 0 ↔
    a.place f ((served base boot).run calls) = none
  /-- a stored event is in the index, and some read of its stream returns it -/
  stored : ∀ offset, a.place f ((served base boot).run calls) = some offset →
    ((served base boot).run (calls ++ [.append a f])).index.entries =
        ((served base boot).run calls).index.entries ++
          [indexEntry offset (a.entry ((served base boot).run calls))] ∧
      Readable ((served base boot).run (calls ++ [.append a f]))
        ((served base boot).run calls).index.entries.length a.moduleId
        (entryEvent (a.entry ((served base boot).run calls)))
  /-- after a failure, the next event that is stored, whatever comes before it, gets the sequence that
  follows the last stored one -/
  next : a.place f ((served base boot).run calls) = none → ∀ (more : List Call) (b : Append) (g : Faults),
    (served base boot).trace (calls ++ [.append a f] ++ more) = (served base boot).trace calls →
    b.place g ((served base boot).run (calls ++ [.append a f] ++ more)) ≠ none →
      (b.entry ((served base boot).run (calls ++ [.append a f] ++ more))).globalSeq =
        following ((served base boot).trace calls)

variable {base : UInt32} {boot : Boot} {calls : List Call} {a : Append}

theorem run_append (base : UInt32) (boot : Boot) (calls : List Call) (a : Append) (f : Faults) :
    (served base boot).run (calls ++ [.append a f]) =
      (gatewayAppendIo f ((served base boot).run calls) a.moduleId a.event a.time).2 := by
  rw [Machine.run_concat]
  rfl

theorem trace_append (base : UInt32) (boot : Boot) (calls : List Call) (a : Append) (f : Faults) :
    (served base boot).trace (calls ++ [.append a f]) = (served base boot).trace calls ++
      ((a.place f ((served base boot).run calls)).map fun _ =>
        a.entry ((served base boot).run calls)).toList := by
  rw [Machine.trace_concat]
  rfl

def noFaults : Faults := ⟨false, false, false⟩

theorem noFaults_go (s : Store) : ¬ noFaults.Stop s := by
  rintro (h | ⟨-, h | h⟩)
  · cases h
  · cases h
  · cases h

theorem not_reports_of_stop (hstop : f.Stop ((served base boot).run calls).store) :
    ¬ Reports base boot calls a f := by
  have hready := ready_run base boot calls
  obtain ⟨store, hplace, heq, htidy, hsequence⟩ := append_of_stop hready.tidy hstop a
  intro h
  have htrace : (served base boot).trace (calls ++ [.append a f]) = (served base boot).trace calls := by
    rw [trace_append, hplace]
    exact append_nil _
  have hnext (gw : GatewayState) (hready : Ready gw) : a.place noFaults gw ≠ none := by
    obtain ⟨offset, store', hgoes⟩ := append_of_go hready.tidy (noFaults_go gw.store) a
    rw [hgoes.place]
    exact Option.some_ne_none _
  -- a success at once, and one after a second failure
  have hfirst := h.next hplace [] a noFaults (by rw [append_nil]; exact htrace)
    (hnext _ (ready_run base boot _))
  have hall : Faults.Stop ⟨true, true, true⟩
      ((served base boot).run (calls ++ [.append a f])).store := .inl rfl
  obtain ⟨store', hplace', heq', -, hsequence'⟩ :=
    append_of_stop (ready_run base boot (calls ++ [.append a f])).tidy hall a
  have hsecond := h.next hplace [.append a ⟨true, true, true⟩] a noFaults
    (by rw [trace_append, hplace', htrace]; exact append_nil _) (hnext _ (ready_run base boot _))
  rw [append_nil] at hfirst
  rw [run_append base boot (calls ++ [Call.append a f]), heq', ← hfirst] at hsecond
  change store'.log.globalSequence =
    ((served base boot).run (calls ++ [.append a f])).store.log.globalSequence at hsecond
  have hone : (1 : UInt32) = 0 := by grind
  exact absurd hone (by decide)

/-- **Main.** In every state, after appends with and without failures and queries, an append reports
what it stored exactly when no flash call that it makes fails, the sequence it takes is not 0, the
index has room, the index does not lose all its streams at that moment, and some suffix of the index
up to the new entry is of its stream alone, whose other entries have smaller sequences. -/
theorem reports_iff (base : UInt32) (boot : Boot) (calls : List Call) (a : Append) (f : Faults) :
    let gw := (served base boot).run calls
    Reports base boot calls a f ↔ ¬ f.Stop gw.store ∧ gw.store.log.globalSequence ≠ 0 ∧
      gw.index.entries.length < gw.index.capacity.val.toNat ∧ Listed gw.index a.moduleId ∧
      Apart (a.keys gw) (firstPlace gw.index a.moduleId) a.moduleId := by
  intro gw
  have hready : Ready gw := ready_run base boot calls
  by_cases hstop : f.Stop gw.store
  · exact iff_of_false (not_reports_of_stop hstop) fun h => h.1 hstop
  · rw [and_iff_right hstop]
    obtain ⟨offset, store, hgoes⟩ := append_of_go hready.tidy hstop a
    have hrun : (served base boot).run (calls ++ [.append a f]) = appended gw a offset store := by
      rw [run_append, show (served base boot).run calls = gw from rfl, hgoes.result]
    have hvalue : (gatewayAppendIo f gw a.moduleId a.event a.time).1 = 0 ↔
        gw.store.log.globalSequence = 0 := by
      rw [hgoes.result]
    have hreport : Reports base boot calls a f ↔ gw.store.log.globalSequence ≠ 0 ∧
        (appended gw a offset store).index.entries =
          gw.index.entries ++ [indexEntry offset (a.entry gw)] ∧
        Readable (appended gw a offset store) gw.index.entries.length a.moduleId
          (entryEvent (a.entry gw)) := by
      constructor
      · intro h
        have hstored := h.stored offset hgoes.place
        rw [hrun] at hstored
        refine ⟨fun hzero => ?_, hstored⟩
        have hnone : a.place f gw = none := h.value.mp (hvalue.mpr hzero)
        rw [hgoes.place] at hnone
        cases hnone
      · rintro ⟨hzero, hstored⟩
        refine ⟨iff_of_false (fun h => hzero (hvalue.mp h)) (fun hnone => ?_), fun o ho => ?_,
          fun hnone => ?_⟩
        · rw [show (served base boot).run calls = gw from rfl, hgoes.place] at hnone
          cases hnone
        · rw [show (served base boot).run calls = gw from rfl, hgoes.place] at ho
          obtain rfl := Option.some.inj ho
          rw [hrun]
          exact hstored
        · rw [show (served base boot).run calls = gw from rfl, hgoes.place] at hnone
          cases hnone
    rw [hreport]
    refine and_congr_right fun _ => ?_
    by_cases hroom : gw.index.entries.length < gw.index.capacity.val.toNat
    · rw [and_iff_right hroom, ← readable_iff hready hgoes hroom]
      exact and_iff_right (entries_add hroom _)
    · refine iff_of_false (fun h => ?_) fun h => hroom h.1
      have hsame : (appended gw a offset store).index.entries = gw.index.entries := by
        show (streamIndexAdd gw.index _).2.entries = _
        unfold streamIndexAdd
        rw [if_pos (Nat.not_lt.mp hroom)]
      have hlen := congrArg List.length (hsame.symm.trans h.1)
      rw [length_append, length_singleton] at hlen
      omega

theorem start_sequence (base : UInt32) (boot : Boot) :
    ((served base boot).run []).store.log.globalSequence = 0 := by
  have hstart : (served base boot).run [] = (gateway base boot).start := rfl
  rw [hstart, start_eq]
  rfl

theorem zero_of_stored (hzero : ((served base boot).run calls).store.log.globalSequence = 0)
    (hgo : ¬ f.Stop ((served base boot).run calls).store) :
    a.place f ((served base boot).run calls) ≠ none ∧
      (gatewayAppendIo f ((served base boot).run calls) a.moduleId a.event a.time).1 = 0 := by
  obtain ⟨offset, store, hgoes⟩ := append_of_go (ready_run base boot calls).tidy hgo a
  rw [hgoes.place, hgoes.result]
  exact ⟨Option.some_ne_none _, hzero⟩

def firstAppend : Append :=
  ⟨1, ⟨0, 0, stateTransition, 0, 1, 0, 1, Vector.replicate 20 2⟩, 0⟩

/-- the first event is stored, and the append returns 0 -/
theorem first_returns_zero :
    firstAppend.place noFaults ((served 0 ⟨1, ⟨16, by decide⟩, 0⟩).run []) ≠ none ∧
      (gatewayAppendIo noFaults ((served 0 ⟨1, ⟨16, by decide⟩, 0⟩).run []) firstAppend.moduleId
        firstAppend.event firstAppend.time).1 = 0 ∧
      ¬ Reports 0 ⟨1, ⟨16, by decide⟩, 0⟩ [] firstAppend noFaults := by
  obtain ⟨hplace, hvalue⟩ := zero_of_stored (a := firstAppend)
    (start_sequence 0 ⟨1, ⟨16, by decide⟩, 0⟩) (noFaults_go _)
  exact ⟨hplace, hvalue, fun h => hplace (h.value.mp hvalue)⟩

end Gateway
end EkKor
