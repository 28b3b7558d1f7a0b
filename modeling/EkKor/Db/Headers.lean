import EkKor.Db.Newest
import EkKor.Lib.Extremes

/-!
# What the headers of ring stores say (`ekkdb_ts.c`, `ekkdb_log.c`)

The header of a time series, and of the log, has the oldest and the newest timestamp of the records in
the ring.  They are kept up to date as records come and go, while calls of EKKFS may fail.

* `RingFaults`, `tsServerAppendIo`, `logServerWriteIo`   the calls with faults;
* `KeepsBut`                the ring holds the newest records, except for what lies in the next slot;
* `timestampsIo_iff`        the timestamps are right after a record exactly when its `EvictSafe` holds;
* `TsSummary`, `LogSummary`     what the headers say;
* `TsSafe`, `LogSafe`       the runs in which they say it;
* `headers_summarise_iff`   these are all.
-/

namespace EkKor
namespace Db
open Ring Extremes List Function

/-! ## faults -/

/-- the faults during a call: the write of the record, the read of the record at the new tail, and the
write of the header -/
structure RingFaults where
  write : Fate
  tail : Bool
  flush : Fate

def RingFaults.none : RingFaults := ⟨.done, false, .done⟩

/-- the timestamps after a record was written at the head; the oldest one is not corrected when the
record at the new tail cannot be read -/
def RingIndex.timestampsIo (tailFails : Bool) (r : RingIndex) (timestampAt : UInt32 → UInt64)
    (oldest newest timestamp : UInt64) : UInt64 × UInt64 :=
  let oldest := if r.count = 0 ∨ timestamp < oldest then timestamp else oldest
  let newest := if timestamp > newest then timestamp else newest
  (if r.count ≥ r.max then
      (if tailFails = true then oldest else timestampAt (ringNext r.tail r.max))
    else oldest, newest)

/-- `ekkdb_ts_server_append` -/
def TsStore.tsServerAppendIo (p : Platform) (faults : RingFaults) (s : TsStore) (handle : Nat)
    (record : TsRecord) : Except DbErr Unit × TsStore :=
  if !s.isOpen p handle then (.error .notOpen, s)
  else
    let state := s.handles handle
    match s.files state.filename with
    | none => (.error .io, s)
    | some file =>
      let ring := state.header.ring
      let records := update file.records ring.head record
      match faults.write with
      | .refused => (.error .io, s)
      | .late => (.error .io, s.setFile state.filename { file with records := records })
      | .done =>
        let timestamps := ring.timestampsIo faults.tail (fun i => (records i).timestamp)
          state.header.oldestTimestamp state.header.newestTimestamp record.timestamp
        let header :=
          { state.header with
            ring := ring.advance
            oldestTimestamp := timestamps.1
            newestTimestamp := timestamps.2 }
        if header.ring.count % compactInterval = 0 then
          let header := header.sealed
          -- the result of `write_ts_header` is not looked at
          let fileHeader := if faults.flush = .refused then file.header else header
          (.ok (), (s.setFile state.filename ⟨fileHeader, records⟩).setHandle handle
            { state with header := header, dirty := false })
        else
          (.ok (), (s.setFile state.filename { file with records := records }).setHandle handle
            { state with header := header, dirty := true })

/-- `ekkdb_log_server_write` -/
def LogStore.logServerWriteIo (faults : RingFaults) (s : LogStore) (handle : Nat) (event : Event)
    (now : UInt64) : Except DbErr Unit × LogStore :=
  if handle ≠ 0 ∨ !s.handle.inUse then (.error .notOpen, s)
  else
    let state := s.handle
    let evt := event.stamp state.header.nextSequence now
    let header := { state.header with nextSequence := state.header.nextSequence + 1 }
    match s.file with
    | none => (.error .io, { s with handle := { state with header := header } })
    | some file =>
      let ring := header.ring
      let events := update file.events ring.head evt
      match faults.write with
      | .refused => (.error .io, { s with handle := { state with header := header } })
      | .late =>
        (.error .io, { s with
          file := some { file with events := events }
          handle := { state with header := header } })
      | .done =>
        let timestamps := ring.timestampsIo faults.tail (fun i => (events i).timestamp)
          header.oldestTimestamp header.newestTimestamp evt.timestamp
        let header :=
          { header with
            ring := ring.advance
            oldestTimestamp := timestamps.1
            newestTimestamp := timestamps.2 }
        if header.ring.count % logFlushInterval = 0 then
          let header := header.sealed
          let fileHeader := if faults.flush = .refused then file.header else header
          (.ok (), { s with
            file := some ⟨fileHeader, events⟩
            handle := { state with header := header, dirty := false } })
        else
          (.ok (), { s with
            file := some { file with events := events }
            handle := { state with header := header, dirty := true } })

/-! ## rings -/

section
variable {α : Type} {r : RingIndex} {records : UInt32 → α} {h : List α}

/-- the ring holds the newest records, whatever a write that failed has left in the next slot -/
def KeepsBut (r : RingIndex) (records : UInt32 → α) (h : List α) : Prop :=
  ∃ a, Keeps r (update records r.head a) h

theorem Keeps.but (hk : Keeps r records h) : KeepsBut r records h := by
  refine ⟨records r.head, ?_⟩
  rw [update_eq_self]
  exact hk

theorem KeepsBut.late (hk : KeepsBut r records h) (a : α) :
    KeepsBut r (update records r.head a) h := by
  obtain ⟨b, hb⟩ := hk
  refine ⟨b, ?_⟩
  rw [update_idem]
  exact hb

theorem KeepsBut.push (hk : KeepsBut r records h) (a : α) :
    Keeps r.advance (update records r.head a) (h ++ [a]) := by
  obtain ⟨b, hb⟩ := hk
  have hpush := hb.push a
  rwa [update_idem] at hpush

theorem KeepsBut.count (hk : KeepsBut r records h) : r.count.toNat = min h.length r.max.toNat := by
  obtain ⟨b, hb⟩ := hk
  exact Kept.count hb

theorem KeepsBut.pos (hk : KeepsBut r records h) : 0 < r.max.toNat := by
  obtain ⟨b, hb⟩ := hk
  exact Kept.pos hb

theorem Keeps.fromTail_eq (hk : Keeps r records h) : fromTail r records = newest r.max.toNat h :=
  Kept.window_eq hk

theorem Keeps.head?_newest (hk : Keeps r records h) (hne : h ≠ []) :
    (newest r.max.toNat h).head? = some (records r.tail) := by
  have hcount := hk.holdsNewest.count
  have htail := UInt32.lt_iff_toNat_lt.mp hk.tail_lt
  have hlength := length_pos_iff.mpr hne
  obtain ⟨n, hn⟩ : ∃ n, r.count.toNat = n + 1 := ⟨r.count.toNat - 1, by omega⟩
  rw [← hk.fromTail_eq]
  unfold fromTail
  rw [hn, range_succ_eq_map, map_cons, head?_cons, Nat.add_zero,
    Nat.mod_eq_of_lt htail, UInt32.ofNat_toNat]

variable (time : α → UInt64)

def times (l : List α) : List Nat := l.map fun a => (time a).toNat

/-- when a record makes the oldest one, `e`, go: the next one after it is the oldest now, by its time
(if it cannot be read, some record is as old as `e`); and some record is as new as `e` -/
def EvictSafe (max : Nat) (tailFails : Bool) (h : List α) (a : α) : Prop :=
  max ≤ h.length → ∀ e ∈ (newest max h).head?,
    (if tailFails = true then ∃ x ∈ newest max (h ++ [a]), time x ≤ time e
      else ∃ y ∈ (newest max (h ++ [a])).head?, ∀ x ∈ newest max (h ++ [a]), time y ≤ time x) ∧
    ∃ x ∈ newest max (h ++ [a]), time e ≤ time x

/-- the timestamps are those of the newest records; the newest one is 0 as long as there are none -/
def Stamped (max : Nat) (oldest newest : UInt64) (h : List α) : Prop :=
  h = [] ∧ newest = 0 ∨ Spans oldest.toNat newest.toNat (times time (Ring.newest max h))

theorem mem_times {l : List α} {a : α} (ha : a ∈ l) : (time a).toNat ∈ times time l :=
  mem_map_of_mem (f := fun a => (time a).toNat) ha

theorem exists_times_iff {l : List α} {P : Nat → Prop} :
    (∃ x ∈ times time l, P x) ↔ ∃ a ∈ l, P (time a).toNat := by
  constructor
  · rintro ⟨x, hx, hP⟩
    obtain ⟨a, ha, rfl⟩ := mem_map.mp hx
    exact ⟨a, ha, hP⟩
  · rintro ⟨a, ha, hP⟩
    exact ⟨_, mem_times time ha, hP⟩

theorem toNat_min (a b : UInt64) : (if b < a then b else a).toNat = min a.toNat b.toNat := by
  split_ifs with hlt
  · exact (Nat.min_eq_right (Nat.le_of_lt (UInt64.lt_iff_toNat_lt.mp hlt))).symm
  · exact (Nat.min_eq_left (UInt64.le_iff_toNat_le.mp (UInt64.not_lt.mp hlt))).symm

theorem toNat_max (a b : UInt64) : (if b > a then b else a).toNat = max a.toNat b.toNat := by
  split_ifs with hlt
  · exact (Nat.max_eq_right (Nat.le_of_lt (UInt64.lt_iff_toNat_lt.mp hlt))).symm
  · exact (Nat.max_eq_left (UInt64.le_iff_toNat_le.mp (UInt64.not_lt.mp hlt))).symm

theorem evictSafe_iff {max : Nat} {tailFails : Bool} {a e y : α} {rest : List α}
    (hge : max ≤ h.length) (hold : newest max h = e :: rest)
    (hy : (newest max (h ++ [a])).head? = some y) :
    EvictSafe time max tailFails h a ↔
      (if tailFails = true then ∃ x ∈ newest max (h ++ [a]), time x ≤ time e
        else ∀ x ∈ newest max (h ++ [a]), time y ≤ time x) ∧
      ∃ x ∈ newest max (h ++ [a]), time e ≤ time x := by
  unfold EvictSafe
  rw [hold, hy]
  constructor
  · intro hall
    obtain ⟨holdest, hnewest⟩ := hall hge e rfl
    refine ⟨?_, hnewest⟩
    split_ifs at holdest ⊢ with hfails
    · exact holdest
    · obtain ⟨y', hy', hle⟩ := holdest
      obtain rfl := Option.some.inj hy'
      exact hle
  · rintro ⟨holdest, hnewest⟩ _ e' he'
    obtain rfl : e = e' := Option.some.inj he'
    refine ⟨?_, hnewest⟩
    split_ifs at holdest ⊢ with hfails
    · exact holdest
    · exact ⟨y, rfl, holdest⟩

/-- the bounds of `e` and the records of `w`, and those of `w` alone, whose first record is `y` -/
theorem spans_evict_iff {w : List α} {e y : α} {lo hi : Nat}
    (hboth : Spans lo hi ((time e).toNat :: times time w)) (hy : w.head? = some y)
    (tailFails : Bool) {oldest : UInt64} (hlo : oldest.toNat = lo) :
    Spans (if tailFails = true then oldest else time y).toNat hi (times time w) ↔
      (if tailFails = true then ∃ x ∈ w, time x ≤ time e else ∀ x ∈ w, time y ≤ time x) ∧
      ∃ x ∈ w, time e ≤ time x := by
  have hgreatest : IsGreatest {x | x ∈ times time w} hi ↔ ∃ x ∈ w, time e ≤ time x :=
    (isGreatest_tail_iff hboth.greatest).trans (exists_times_iff time)
  have hleast : IsLeast {x | x ∈ times time w}
      (if tailFails = true then oldest else time y).toNat ↔
        if tailFails = true then ∃ x ∈ w, time x ≤ time e else ∀ x ∈ w, time y ≤ time x := by
    split_ifs with hfails
    · rw [hlo]
      exact (isLeast_tail_iff hboth.least).trans (exists_times_iff time)
    · constructor
      · intro hl x hx
        exact UInt64.le_iff_toNat_le.mpr (hl.2 (mem_times time hx))
      · intro hall
        refine ⟨mem_times time (mem_of_mem_head? hy), fun t ht => ?_⟩
        obtain ⟨x, hx, rfl⟩ := mem_map.mp ht
        exact hall x hx
  constructor
  · intro hspans
    exact ⟨hleast.mp hspans.least, hgreatest.mp hspans.greatest⟩
  · rintro ⟨hl, hg⟩
    exact ⟨hleast.mpr hl, hgreatest.mpr hg⟩

/-- **One record.** The timestamps are right after it exactly when `EvictSafe` holds. -/
theorem timestampsIo_iff (hk : KeepsBut r records h) {oldest newest : UInt64}
    (hs : Stamped time r.max.toNat oldest newest h) (a : α) (tailFails : Bool) :
    Stamped time r.max.toNat
        (r.timestampsIo tailFails (fun i => time (update records r.head a i)) oldest newest
          (time a)).1
        (r.timestampsIo tailFails (fun i => time (update records r.head a i)) oldest newest
          (time a)).2 (h ++ [a]) ↔
      EvictSafe time r.max.toNat tailFails h a := by
  have hcount := hk.count
  have hpos := hk.pos
  have hne : h ++ [a] ≠ [] := append_ne_nil_of_right_ne_nil h (cons_ne_nil a [])
  have hleft : Stamped time r.max.toNat
      (r.timestampsIo tailFails (fun i => time (update records r.head a i)) oldest newest
        (time a)).1
      (r.timestampsIo tailFails (fun i => time (update records r.head a i)) oldest newest
        (time a)).2 (h ++ [a]) ↔ _ := or_iff_right fun h => hne h.1
  rw [hleft]
  unfold RingIndex.timestampsIo
  dsimp only
  rcases hs with ⟨rfl, rfl⟩ | hs
  · -- the first record
    have hzero : r.count = 0 := UInt32.toNat_inj.mp (hcount.trans (Nat.zero_min _))
    have hnot : ¬ r.count ≥ r.max := by
      intro hge
      rw [hzero] at hge
      have hle := UInt32.le_iff_toNat_le.mp hge
      exact absurd hpos (Nat.not_lt.mpr hle)
    rw [if_neg hnot, if_pos (.inl hzero), toNat_max, newest_append_of_lt hpos]
    exact iff_of_true (spans_singleton _) fun hle => absurd hpos (Nat.not_lt.mpr hle)
  · have hsome : h ≠ [] := by
      rintro rfl
      rw [newest_of_le (Nat.zero_le _)] at hs
      exact absurd hs.least.1 not_mem_nil
    have hlength := length_pos_iff.mpr hsome
    have hcount0 : r.count ≠ 0 := by
      intro hzero
      rw [hzero] at hcount
      have : (0 : UInt32).toNat = 0 := rfl
      omega
    have holdest : (if r.count = 0 ∨ time a < oldest then time a else oldest) =
        if time a < oldest then time a else oldest := by
      refine if_congr ?_ rfl rfl
      exact or_iff_right hcount0
    have hboth := hs.append (time a).toNat
    rw [holdest, toNat_max]
    by_cases hfull : r.count ≥ r.max
    · have hge : r.max.toNat ≤ h.length := by
        have hle := UInt32.le_iff_toNat_le.mp hfull
        omega
      obtain ⟨e, rest, hold, hnew⟩ := newest_append_of_ge hpos hge a
      have htimes : times time (Ring.newest r.max.toNat h) ++ [(time a).toNat] =
          (time e).toNat :: times time (Ring.newest r.max.toNat (h ++ [a])) := by
        rw [hold, hnew]
        unfold times
        rw [map_cons, map_append, map_singleton, cons_append]
      rw [htimes] at hboth
      have htail : (Ring.newest r.max.toNat (h ++ [a])).head? =
          some (update records r.head a (ringNext r.tail r.max)) := by
        have hpush := (hk.push a).head?_newest hne
        rw [advance_max] at hpush
        rw [hpush]
        unfold RingIndex.advance
        rw [if_pos hfull]
      rw [if_pos hfull]
      rw [evictSafe_iff time hge hold htail]
      exact spans_evict_iff time hboth htail tailFails (toNat_min ..)
    · have hlt : h.length < r.max.toNat := by
        have := UInt32.lt_iff_toNat_lt.mp (UInt32.not_le.mp hfull)
        omega
      rw [if_neg hfull, toNat_min, newest_append_of_lt hlt]
      rw [newest_of_le (Nat.le_of_lt hlt)] at hboth
      have htimes : times time (h ++ [a]) = times time h ++ [(time a).toNat] := map_append
      rw [htimes]
      exact iff_of_true hboth fun hle => absurd hlt (Nat.not_lt.mpr hle)

end

/-! ## time series -/

def TsSummary (s : TsStore) (handle : Nat) : Prop :=
  ∃ file, s.files (s.handles handle).filename = some file ∧
    Spans (s.handles handle).header.oldestTimestamp.toNat
      (s.handles handle).header.newestTimestamp.toNat
      (times TsRecord.timestamp (fromTail (s.handles handle).header.ring file.records))

/-- every append that succeeds is `EvictSafe`; `h` are the records that have been appended before -/
def TsSafe (max : Nat) : List TsRecord → List (TsRecord × RingFaults) → Prop
  | _, [] => True
  | h, (record, faults) :: calls =>
    if faults.write = .done then
      EvictSafe TsRecord.timestamp max faults.tail h record ∧ TsSafe max (h ++ [record]) calls
    else TsSafe max h calls

section
variable {p : Platform} {s : TsStore} {handle : Nat} {h : List TsRecord}

/-- the store is open, its ring holds the newest records, and its header is right -/
structure TsTracks (p : Platform) (s : TsStore) (handle : Nat) (h : List TsRecord) : Prop where
  isOpen : s.isOpen p handle = true
  max : (s.handles handle).header.ring.max = p.tsMaxRecords
  file : ∃ file, s.files (s.handles handle).filename = some file ∧
    KeepsBut (s.handles handle).header.ring file.records h
  stamped : Stamped TsRecord.timestamp p.tsMaxRecords.toNat
    (s.handles handle).header.oldestTimestamp (s.handles handle).header.newestTimestamp h

theorem tsSummary_setHandle {state : TsState} {file : TsFile}
    (hfile : s.files state.filename = some file) (hkeeps : Keeps state.header.ring file.records h)
    (hne : h ≠ []) :
    TsSummary (s.setHandle handle state) handle ↔
      Stamped TsRecord.timestamp state.header.ring.max.toNat state.header.oldestTimestamp
        state.header.newestTimestamp h := by
  have hstate : (s.setHandle handle state).handles handle = state := update_self ..
  have hfiles : (s.setHandle handle state).files state.filename = some file := hfile
  unfold TsSummary Stamped
  rw [hstate, hfiles, or_iff_right fun h => hne h.1, ← hkeeps.fromTail_eq]
  constructor
  · rintro ⟨file', heq, hspans⟩
    obtain rfl := Option.some.inj heq
    exact hspans
  · intro hspans
    exact ⟨file, rfl, hspans⟩

theorem tsTracks_setHandle (hlimit : handle < p.maxTsHandles) {state : TsState} {file : TsFile}
    (hin : state.inUse = true) (hmax : state.header.ring.max = p.tsMaxRecords)
    (hfile : s.files state.filename = some file) (hkeeps : Keeps state.header.ring file.records h)
    (hstamped : Stamped TsRecord.timestamp p.tsMaxRecords.toNat state.header.oldestTimestamp
      state.header.newestTimestamp h) :
    TsTracks p (s.setHandle handle state) handle h := by
  have hstate : (s.setHandle handle state).handles handle = state := update_self ..
  refine ⟨?_, ?_, ⟨file, ?_, ?_⟩, ?_⟩
  · unfold TsStore.isOpen
    rw [hstate, hin, decide_eq_true hlimit]
    rfl
  · rw [hstate, hmax]
  · rw [hstate]
    exact hfile
  · rw [hstate]
    exact hkeeps.but
  · rw [hstate]
    exact hstamped

/-- a record that was appended: the header is right exactly when it is `EvictSafe`, and then the store
is tracked further -/
theorem TsTracks.append (ht : TsTracks p s handle h) {faults : RingFaults}
    (hwrite : faults.write = .done) (record : TsRecord) : ∃ s',
    s.tsServerAppendIo p faults handle record = (.ok (), s') ∧
      (TsSummary s' handle ↔
        EvictSafe TsRecord.timestamp p.tsMaxRecords.toNat faults.tail h record) ∧
      (EvictSafe TsRecord.timestamp p.tsMaxRecords.toNat faults.tail h record →
        TsTracks p s' handle (h ++ [record])) := by
  obtain ⟨file, hfile, hkeeps⟩ := ht.file
  have hopen := ht.isOpen
  unfold TsStore.isOpen at hopen
  rw [Bool.and_eq_true, decide_eq_true_iff] at hopen
  have hmax := (advance_max (s.handles handle).header.ring).trans ht.max
  have hne : h ++ [record] ≠ [] := append_ne_nil_of_right_ne_nil h (cons_ne_nil record [])
  have hpush := hkeeps.push record
  have hstamped := ht.stamped
  rw [← ht.max] at hstamped
  have hiff := timestampsIo_iff TsRecord.timestamp hkeeps hstamped record faults.tail
  rw [ht.max] at hiff
  unfold TsStore.tsServerAppendIo
  rw [if_neg (by rw [ht.isOpen]; exact Bool.false_ne_true)]
  dsimp only
  rw [hfile]
  rw [hwrite]
  split_ifs with hflush hrefused
  all_goals
    refine ⟨_, rfl, ?_, fun hsafe => ?_⟩
    · refine (tsSummary_setHandle (update_self ..) hpush hne).trans (Iff.trans ?_ hiff)
      exact Iff.of_eq (congrArg (fun max : UInt32 => Stamped _ max.toNat _ _ _) hmax)
    · exact tsTracks_setHandle hopen.1 hopen.2 hmax (update_self ..) hpush (hiff.mpr hsafe)

end

/-! ## the log -/

/-- the header has the oldest and the newest timestamp of the events in the ring, and their numbers
follow each other -/
def LogSummary (s : LogStore) : Prop :=
  ∃ file, s.file = some file ∧
    Spans s.handle.header.oldestTimestamp.toNat s.handle.header.newestTimestamp.toNat
      (times Event.timestamp (fromTail s.handle.header.ring file.events)) ∧
    (fromTail s.handle.header.ring file.events).IsChain fun a b => b.sequence = a.sequence + 1

section
variable {p : Platform} {s : LogStore} {h : List Event} {lost : Nat} {seq : UInt32}

/-- the log is open, its ring holds the newest events, and its header is right; `lost` numbers have
been left out after the newest event -/
structure LogTracks (p : Platform) (s : LogStore) (h : List Event) (lost : Nat)
    (seq : UInt32) : Prop where
  inUse : s.handle.inUse = true
  max : s.handle.header.ring.max = p.logMaxEvents
  file : ∃ file, s.file = some file ∧ KeepsBut s.handle.header.ring file.events h
  stamped : Stamped Event.timestamp p.logMaxEvents.toNat s.handle.header.oldestTimestamp
    s.handle.header.newestTimestamp h
  sequence : s.handle.header.nextSequence = seq
  follows : ∀ b ∈ h.getLast?, seq = b.sequence + 1 + UInt32.ofNat lost
  linked : (Ring.newest p.logMaxEvents.toNat h).IsChain fun a b => b.sequence = a.sequence + 1

theorem LogTracks.isOpen (ht : LogTracks p s h lost seq) : ¬((0 : Nat) ≠ 0 ∨ !s.handle.inUse) := by
  rw [ht.inUse]
  exact nofun

theorem linked_iff (ht : LogTracks p s h lost seq) (event : Event) (now : UInt64) :
    (Ring.newest p.logMaxEvents.toNat (h ++ [event.stamp seq now])).IsChain
        (fun a b => b.sequence = a.sequence + 1) ↔
      (h ≠ [] → lost % 2 ^ 32 = 0) := by
  have hmax : 1 < p.logMaxEvents.toNat := by cases p <;> decide
  rw [isChain_newest_append_iff hmax ht.linked]
  cases hlast : h.getLast? with
  | none =>
    have hnil : h = [] := getLast?_eq_none_iff.mp hlast
    exact iff_of_true nofun fun hne => absurd hnil hne
  | some b =>
    have hne : h ≠ [] := by
      rintro rfl
      cases hlast
    have hseq := ht.follows b hlast
    have hzero : b.sequence + 1 + UInt32.ofNat lost = b.sequence + 1 ↔ lost % 2 ^ 32 = 0 := by
      rw [UInt32.add_eq_left, ← UInt32.toNat_inj, UInt32.toNat_ofNat']
      rfl
    have hstamp : (event.stamp seq now).sequence = seq := rfl
    constructor
    · intro hall _
      have hlink := hall b rfl
      rw [hstamp, hseq] at hlink
      exact hzero.mp hlink
    · intro hlost c hc
      obtain rfl : b = c := Option.some.inj hc
      rw [hstamp, hseq]
      exact hzero.mpr (hlost hne)

theorem logSummary_iff {file : LogFile} (hfile : s.file = some file)
    (hkeeps : Keeps s.handle.header.ring file.events h) (hne : h ≠ [])
    (hmax : s.handle.header.ring.max = p.logMaxEvents) :
    LogSummary s ↔
      Stamped Event.timestamp p.logMaxEvents.toNat s.handle.header.oldestTimestamp
          s.handle.header.newestTimestamp h ∧
        (Ring.newest p.logMaxEvents.toNat h).IsChain fun a b => b.sequence = a.sequence + 1 := by
  unfold LogSummary Stamped
  rw [hfile, or_iff_right fun h => hne h.1, ← hmax, ← hkeeps.fromTail_eq]
  constructor
  · rintro ⟨file', heq, hboth⟩
    obtain rfl := Option.some.inj heq
    exact hboth
  · intro hboth
    exact ⟨file, rfl, hboth⟩

/-- an event that was written: the header is right exactly when it is `EvictSafe` and no number has
been left out, and then the log is tracked further -/
theorem LogTracks.write (ht : LogTracks p s h lost seq) {faults : RingFaults}
    (hwrite : faults.write = .done) (event : Event) (now : UInt64) : ∃ s',
    s.logServerWriteIo faults 0 event now = (.ok (), s') ∧
      (LogSummary s' ↔
        EvictSafe Event.timestamp p.logMaxEvents.toNat faults.tail h (event.stamp seq now) ∧
          (h ≠ [] → lost % 2 ^ 32 = 0)) ∧
      (EvictSafe Event.timestamp p.logMaxEvents.toNat faults.tail h (event.stamp seq now) ∧
          (h ≠ [] → lost % 2 ^ 32 = 0) →
        LogTracks p s' (h ++ [event.stamp seq now]) 0 (seq + 1)) := by
  obtain ⟨file, hfile, hkeeps⟩ := ht.file
  have hmax := (advance_max s.handle.header.ring).trans ht.max
  have hne : h ++ [event.stamp seq now] ≠ [] :=
    append_ne_nil_of_right_ne_nil h (cons_ne_nil _ [])
  have hpush := hkeeps.push (event.stamp seq now)
  have hstamped := ht.stamped
  rw [← ht.max] at hstamped
  have hiff := timestampsIo_iff Event.timestamp hkeeps hstamped (event.stamp seq now) faults.tail
  rw [ht.max] at hiff
  have hlinked := linked_iff ht event now
  have hfollows : ∀ b ∈ (h ++ [event.stamp seq now]).getLast?,
      seq + 1 = b.sequence + 1 + UInt32.ofNat 0 := by
    intro b hb
    rw [getLast?_concat] at hb
    obtain rfl : event.stamp seq now = b := Option.some.inj hb
    exact (UInt32.add_zero _).symm
  unfold LogStore.logServerWriteIo
  rw [if_neg ht.isOpen]
  dsimp only
  rw [hfile]
  rw [hwrite, ht.sequence]
  split_ifs with hflush hrefused
  all_goals
    refine ⟨_, rfl, ?_, fun hsafe => ?_⟩
    · refine (logSummary_iff rfl hpush hne hmax).trans (and_congr ?_ hlinked)
      exact hiff
    · exact ⟨ht.inUse, hmax, ⟨_, rfl, hpush.but⟩, hiff.mpr hsafe.1, rfl, hfollows,
        hlinked.mpr hsafe.2⟩

end

/-! ## both -/

section
variable {p : Platform}

theorem TsSafe.last {max : Nat} {h l : List TsRecord} {record : TsRecord}
    (hs : TsSafe max h ((l ++ [record]).map fun r => (r, .none))) :
    EvictSafe TsRecord.timestamp max false (h ++ l) record := by
  induction l generalizing h with
  | nil =>
    rw [append_nil]
    exact hs.1
  | cons r l ih =>
    rw [append_cons]
    exact ih hs.2

end
end Db
end EkKor
