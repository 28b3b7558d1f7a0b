import EkKor.Fs.Journal
import EkKor.Fs.Ownership
import EkKor.Lib.Circular
import EkKor.Lib.Runs
import EkKor.Lib.Undo

/-!
# What `ekkfs_tx_abort` restores

* `logSlots`, `marks`       the journal as a circular log;
* `journalLog_spec`        one more entry;
* `Tx`, `transactions`     the calls, and what the open transaction has done so far;
* `Tx.Undoable`            each block is now other than it was when the transaction began;
* `abort_restores`         in a run of such transactions an abort restores the bitmap.
-/

namespace EkKor
namespace Fs
open Runs Circular Undo Journaled List Function

/-! ## the journal as a circular log -/

/-- `journal_total_entries` as a number -/
abbrev journalSlots : Nat := 62

/-- the entry in slot `i` of the journal -/
def logSlots (v : Volume) (i : Nat) : JournalEntry := entryAt v (UInt32.ofNat i)

def marks (header : JournalHeader) : Marks := ⟨header.head.toNat, header.tail.toNat⟩

theorem location_inside : ∀ i : Fin journalSlots,
    (journalEntryLocation (UInt32.ofNat i.val)).1 < journalBlocks ∧
      (journalEntryLocation (UInt32.ofNat i.val)).2 + JournalEntry.layout.size ≤ blockSize ∧
      ((journalEntryLocation (UInt32.ofNat i.val)).1 = 0 →
        JournalHeader.layout.size ≤ (journalEntryLocation (UInt32.ofNat i.val)).2) := by
  decide +kernel

theorem location_apart : ∀ i j : Fin journalSlots, i ≠ j →
    (journalEntryLocation (UInt32.ofNat i.val)).1 =
        (journalEntryLocation (UInt32.ofNat j.val)).1 →
      (journalEntryLocation (UInt32.ofNat i.val)).2 + JournalEntry.layout.size ≤
          (journalEntryLocation (UInt32.ofNat j.val)).2 ∨
        (journalEntryLocation (UInt32.ofNat j.val)).2 + JournalEntry.layout.size ≤
          (journalEntryLocation (UInt32.ofNat i.val)).2 := by
  decide +kernel

variable {v v' : Volume}

theorem journalBlock_inj {a b : UInt32} (h : journalBlock v a = journalBlock v b) : a = b :=
  UInt32.add_right_inj v.superblock.journalStart |>.mp h

theorem logSlots_congr (hstart : v'.superblock.journalStart = v.superblock.journalStart)
    (hdisk : ∀ idx < journalBlocks, v'.disk (journalBlock v idx) = v.disk (journalBlock v idx))
    {i : Nat} (hi : i < journalSlots) : logSlots v' i = logSlots v i := by
  obtain ⟨hblock, _⟩ := location_inside ⟨i, hi⟩
  unfold logSlots entryAt
  dsimp only
  unfold journalBlock at hdisk ⊢
  rw [hstart, hdisk _ hblock]

theorem logSlots_put {i : Nat} (hi : i < journalSlots) (e : JournalEntry) {j : Nat}
    (hj : j < journalSlots) {blockIdx : UInt32} {offset : Nat}
    (hloc : journalEntryLocation (UInt32.ofNat i) = (blockIdx, offset)) :
    logSlots (v.put (journalBlock v blockIdx)
        (splice (v.disk (journalBlock v blockIdx)) offset (JournalEntry.layout.encode e))) j =
      update (logSlots v) i e j := by
  have hfit := (location_inside ⟨i, hi⟩).2.1
  have hfit' := (location_inside ⟨j, hj⟩).2.1
  have hapart := location_apart ⟨i, hi⟩ ⟨j, hj⟩
  have hsize := JournalEntry.layout.length_encode e
  rw [hloc] at hfit hapart
  by_cases hij : j = i
  · subst hij
    have hread : slice (splice (v.disk (journalBlock v blockIdx)) offset
        (JournalEntry.layout.encode e)) offset (JournalEntry.layout.encode e).length =
          JournalEntry.layout.encode e := slice_splice _ (by rw [hsize]; exact hfit)
    rw [hsize] at hread
    rw [update_self]
    unfold logSlots entryAt
    rw [hloc]
    show JournalEntry.layout.decode (slice (update v.disk (journalBlock v blockIdx)
      (splice (v.disk (journalBlock v blockIdx)) offset (JournalEntry.layout.encode e))
        (journalBlock v blockIdx)) offset JournalEntry.layout.size) = e
    rw [update_self, hread, JournalEntry.layout.decode_encode]
  · rw [update_of_ne hij]
    unfold logSlots entryAt
    generalize journalEntryLocation (UInt32.ofNat j) = loc at *
    obtain ⟨block, off⟩ := loc
    show JournalEntry.layout.decode (slice (update v.disk (journalBlock v blockIdx)
      (splice (v.disk (journalBlock v blockIdx)) offset (JournalEntry.layout.encode e))
        (journalBlock v block)) off JournalEntry.layout.size) =
      JournalEntry.layout.decode
        (slice (v.disk (journalBlock v block)) off JournalEntry.layout.size)
    by_cases hblock : block = blockIdx
    · have hne : (⟨i, hi⟩ : Fin journalSlots) ≠ ⟨j, hj⟩ := fun h => hij (congrArg Fin.val h).symm
      have hbeside : off + JournalEntry.layout.size ≤ offset ∨
          offset + (JournalEntry.layout.encode e).length ≤ off := by
        exact (hapart hne hblock.symm).symm
      rw [hblock, update_self, slice_splice_of_disjoint _ hfit' hbeside]
    · rw [update_of_ne fun h => hblock (journalBlock_inj h)]

theorem logSlots_header (header : JournalHeader) {j : Nat} (hj : j < journalSlots) :
    logSlots (v.put (journalBlock v 0)
      (splice (v.disk (journalBlock v 0)) 0 (JournalHeader.layout.encode header))) j =
        logSlots v j := by
  have hinside := location_inside ⟨j, hj⟩
  have hsize := JournalHeader.layout.length_encode header
  unfold logSlots entryAt
  generalize journalEntryLocation (UInt32.ofNat j) = loc at *
  obtain ⟨block, off⟩ := loc
  show JournalEntry.layout.decode (slice (update v.disk (journalBlock v 0)
    (splice (v.disk (journalBlock v 0)) 0 (JournalHeader.layout.encode header))
      (journalBlock v block)) off JournalEntry.layout.size) =
    JournalEntry.layout.decode (slice (v.disk (journalBlock v block)) off JournalEntry.layout.size)
  by_cases hblock : block = 0
  · have hbehind : off + JournalEntry.layout.size ≤ 0 ∨
        0 + (JournalHeader.layout.encode header).length ≤ off := by
      rw [hsize, Nat.zero_add]
      exact .inr (hinside.2.2 hblock)
    rw [hblock, update_self, slice_splice_of_disjoint _ hinside.2.1 hbehind]
  · rw [update_of_ne fun h => hblock (journalBlock_inj h)]

/-! ## one entry -/

/-- the bitmap has a bit for each data block and is saved whole, and the marks are slots -/
structure Placed (s : Journaled) : Prop where
  geometry : Geometry s.vol.superblock
  few : s.vol.bitmapBlocks.toNat ≤ 8
  head : s.journal.header.head.toNat < journalSlots
  tail : s.journal.header.tail.toNat < journalSlots

/-- an entry of the open transaction is in the journal, and nothing else has changed -/
structure Logged (s s' : Journaled) (e : JournalEntry) : Prop where
  superblock : s'.vol.superblock = s.vol.superblock
  bitmapBlocks : s'.vol.bitmapBlocks = s.vol.bitmapBlocks
  bitmapBuf : s'.vol.bitmapBuf = s.vol.bitmapBuf
  entries : ∀ i < journalSlots, logSlots s'.vol i =
    update (logSlots s.vol) s.journal.header.head.toNat e i
  marks : marks s'.journal.header = (marks s.journal.header).next journalSlots
  startSeq : s'.journal.header.txStartSeq = s.journal.header.txStartSeq
  active : s'.journal.txActive = true
  current : s'.journal.currentTxSeq = s.journal.currentTxSeq

variable {s s' : Journaled}

theorem next_toNat {n : UInt32} (h : n.toNat < journalSlots) :
    ((n + 1) % journalTotalEntries).toNat = (n.toNat + 1) % journalSlots := by
  change n.toNat < 62 at h
  show (n.toNat + 1) % 2 ^ 32 % 62 = (n.toNat + 1) % 62
  omega

/-- `ekkfs_journal_log` in a transaction -/
theorem journalLog_spec (h : Placed s) (hactive : s.journal.txActive = true)
    (type inode block oldValue newValue : UInt32) (now : UInt64) :
    ∃ s' e, s.journalLog type inode block oldValue newValue now = (.ok (), s') ∧ Logged s s' e ∧
      e.sequence = s.journal.currentTxSeq ∧ e.type = type ∧ e.oldValue = oldValue ∧
      e.newValue = newValue := by
  have hnext := next_toNat h.head
  have htail := next_toNat h.tail
  have hinside := (location_inside ⟨_, h.head⟩).1
  have hput := @logSlots_put s.vol _ h.head
  rw [UInt32.ofNat_toNat] at hinside
  simp only [UInt32.ofNat_toNat] at hput
  unfold journalLog
  have hmarks : (marks s.journal.header).next journalSlots =
      ⟨((s.journal.header.head + 1) % journalTotalEntries).toNat,
        if (s.journal.header.head + 1) % journalTotalEntries = s.journal.header.tail then
          ((s.journal.header.tail + 1) % journalTotalEntries).toNat
        else s.journal.header.tail.toNat⟩ := by
    unfold Marks.next marks
    simp only [hnext, htail, ← UInt32.toNat_inj]
  simp only [if_pos hactive]
  rw [if_neg (UInt32.not_le.mpr hinside)]
  by_cases hfull : (s.journal.header.head + 1) % journalTotalEntries = s.journal.header.tail
  · rw [if_pos hfull] at hmarks
    simp only [if_pos hfull]
    unfold withHeader withVol
    rw [if_pos hactive]
    exact ⟨_, JournalEntry.sealed ⟨s.journal.currentTxSeq, type, inode, block, oldValue, newValue,
      (now / 1000000).toUInt32, 0⟩, rfl, ⟨rfl, rfl, rfl, fun i hi => hput _ hi rfl, hmarks.symm,
      rfl, hactive, rfl⟩, rfl, rfl, rfl, rfl⟩
  · rw [if_neg hfull] at hmarks
    simp only [if_neg hfull]
    unfold withVol
    rw [if_pos hactive]
    exact ⟨_, JournalEntry.sealed ⟨s.journal.currentTxSeq, type, inode, block, oldValue, newValue,
      (now / 1000000).toUInt32, 0⟩, rfl, ⟨rfl, rfl, rfl, fun i hi => hput _ hi rfl, hmarks.symm,
      rfl, hactive, rfl⟩, rfl, rfl, rfl, rfl⟩

theorem placed_of_logged {e : JournalEntry} (h : Placed s) (hlog : Logged s s' e) : Placed s' := by
  have hhead : (marks s'.journal.header).head < journalSlots := by
    rw [hlog.marks]
    exact Nat.mod_lt _ (by decide)
  have htail : (marks s'.journal.header).tail < journalSlots := by
    rw [hlog.marks]
    unfold Marks.next
    split_ifs
    · exact Nat.mod_lt _ (by decide)
    · exact h.tail
  exact ⟨hlog.superblock ▸ h.geometry, hlog.bitmapBlocks ▸ h.few, hhead, htail⟩

theorem logInTx_spec (h : Placed s) (hactive : s.journal.txActive = true)
    (type block oldValue newValue : UInt32) (now : UInt64) :
    ∃ e, Logged s (s.logInTx type block oldValue newValue now) e ∧
      e.sequence = s.journal.currentTxSeq ∧ e.type = type ∧ e.oldValue = oldValue ∧
      e.newValue = newValue := by
  obtain ⟨s', e, heq, hlog, he⟩ :=
    journalLog_spec h hactive type 0 block oldValue newValue now
  refine ⟨e, ?_, he⟩
  unfold logInTx
  rw [if_pos hactive, heq]
  exact hlog

/-! ## taking and giving back a block -/

/-- the loop of `bitmap_alloc` takes what it takes without a journal -/
theorem allocFrom_eq (hg : Geometry s.vol.superblock) (now : UInt64) {n i : Nat}
    (h : i + n ≤ bitmapBufSize) :
    s.allocFrom now n i = (s.vol.allocFrom n i).map fun
      | (none, _) => (none, s)
      | (some b, vol) => (some b, (s.withVol vol).logInTx journalAllocBlock b 0 b now) := by
  induction n generalizing i with
  | zero => rfl
  | succ n ih =>
    have hi : i < bitmapBufSize := by omega
    rw [allocFrom, Volume.allocFrom, if_pos hi, if_pos hi]
    rcases freeBit_spec hg (s.vol.bitmapBuf i) hi with ⟨bit, hbit, heq, _, hlt⟩ | ⟨heq, _⟩
    · have hint := hg.int
      have hsmall : Volume.blockOfBit s.vol.superblock i bit < 0x80000000 := by
        have htotal := (blockOfBit_lt_iff hg hi hbit).mpr hlt
        exact Nat.lt_trans htotal hint
      rw [heq]
      dsimp only
      rw [if_pos hsmall]
      rfl
    · rw [heq]
      exact ih (by omega)

theorem bitmapAlloc_eq (hg : Geometry s.vol.superblock) (now : UInt64) :
    s.bitmapAlloc now = s.vol.bitmapAlloc.map fun
      | (none, _) => (none, s)
      | (some b, vol) => (some b, (s.withVol vol).logInTx journalAllocBlock b 0 b now) := by
  have hfew := hg.few
  have hsub : (s.vol.superblock.totalBlocks - s.vol.superblock.dataStart).toNat =
      dataBlocks s.vol.superblock := UInt32.toNat_sub_of_le _ _ hg.fits
  have hbytes : 0 + ((s.vol.superblock.totalBlocks - s.vol.superblock.dataStart + 7) / 8).toNat ≤
      bitmapBufSize := by
    rw [UInt32.toNat_div, UInt32.toNat_add, hsub]
    show 0 + (dataBlocks s.vol.superblock + 7) % 2 ^ 32 / 8 ≤ 4096
    omega
  exact allocFrom_eq hg now hbytes

theorem alloc_spec (h : Placed s) (now : UInt64) :
    s.bitmapAlloc now = some (none, s) ∨
      ∃ k < dataBlocks s.vol.superblock, s.bitmapAlloc now =
        some (some (dataBlock s.vol.superblock k), (s.withVol (s.vol.taken k)).logInTx
          journalAllocBlock (dataBlock s.vol.superblock k) 0 (dataBlock s.vol.superblock k) now) := by
  have hg := h.geometry
  rw [bitmapAlloc_eq hg now]
  rcases bitmapAlloc_spec hg with ⟨k, hk, _, heq⟩ | ⟨_, heq⟩
  · rw [heq]
    exact .inr ⟨k, hk, rfl⟩
  · rw [heq]
    exact .inl rfl

/-- the bit of block `b` in the bitmap -/
def dataIndex (v : Volume) (b : UInt32) : Nat := (b - v.superblock.dataStart).toNat

theorem bitmapSet_spec {b : UInt32} (hb : v.superblock.dataStart ≤ b)
    (hin : dataIndex v b / 8 < bitmapBufSize) (used : Bool) :
    v.bitmapSet b used =
      some { v with bitmapBuf := Volume.assignBufBit v.bitmapBuf (dataIndex v b) used } := by
  unfold dataIndex at hin ⊢
  unfold Volume.bitmapSet
  rw [if_neg (UInt32.not_lt.mpr hb)]
  rw [if_pos hin]

theorem dataIndex_dataBlock {k : Nat} (hk : k < 2 ^ 32) :
    dataIndex v (dataBlock v.superblock k) = k := by
  unfold dataIndex dataBlock
  rw [UInt32.add_comm, UInt32.add_sub_cancel, UInt32.toNat_ofNat', Nat.mod_eq_of_lt hk]

/-! ## transactions -/

/-- an open transaction: the state in which it began, and the data blocks that it has taken (`true`)
and given back (`false`) since, oldest first -/
structure Tx where
  start : Journaled
  log : List (Nat × Bool)

def Tx.adding (t : Tx) (k : Nat) (used : Bool) : Tx := { t with log := t.log ++ [(k, used)] }

/-- the open transaction after one more call in state `s`, by its reply -/
def Tx.note (s : Journaled) (tx : Option Tx) : TxCall → TxReply → Option Tx
  | .begin, .started _ => some ⟨s, []⟩
  | .commit _, .ok => none
  | .abort, .ok => none
  | .alloc _, .block (some b) => tx.map (·.adding (dataIndex s.vol b) true)
  | .free b _, .ok =>
    if b ≥ s.vol.superblock.dataStart then tx.map (·.adding (dataIndex s.vol b) false) else tx
  | _, _ => tx

def Tx.before (t : Tx) : List JournalEntry :=
  contents journalSlots (logSlots t.start.vol) (marks t.start.journal.header)

def Tx.sequence (t : Tx) : UInt32 := t.start.journal.header.sequence

def balance (log : List (Nat × Bool)) : UInt32 :=
  log.foldr (fun c n => (if c.2 then 1 else -1) + n) 0

theorem balance_concat (log : List (Nat × Bool)) (c : Nat × Bool) :
    balance (log ++ [c]) = (if c.2 then 1 else -1) + balance log := by
  induction log with
  | nil => rfl
  | cons d log ih =>
    unfold balance at ih ⊢
    rw [cons_append, foldr_cons, ih, foldr_cons, ← UInt32.add_assoc,
      ← UInt32.add_assoc, UInt32.add_comm (if d.2 then 1 else -1)]

def Records (sequence dataStart : UInt32) (c : Nat × Bool) (e : JournalEntry) : Prop :=
  e.sequence = sequence ∧ e.type = (if c.2 then journalAllocBlock else journalFreeBlock) ∧
    dataStart ≤ (if c.2 then e.newValue else e.oldValue) ∧
    ((if c.2 then e.newValue else e.oldValue) - dataStart).toNat = c.1

/-- what holds while the transaction is open: the bitmap and the counter have changed by its blocks,
and the journal holds an entry for each, as far as there is room -/
structure InTx (s : Journaled) (t : Tx) : Prop where
  active : s.journal.txActive = true
  current : s.journal.currentTxSeq = t.sequence
  startSeq : s.journal.header.txStartSeq = t.sequence
  bits : Volume.bit s.vol.bitmapBuf = assigned (Volume.bit t.start.vol.bitmapBuf) t.log
  free : s.vol.superblock.freeBlocks + balance t.log = t.start.vol.superblock.freeBlocks
  inside : ∀ c ∈ t.log, c.1 / 8 < bitmapBufSize
  entries : ∃ recorded, List.Forall₂ (Records t.sequence s.vol.superblock.dataStart) t.log recorded ∧
    Holds journalSlots (logSlots s.vol) (marks s.journal.header)
      (Ring.newest (journalSlots - 1) (t.before ++ recorded))

def transactions (s : Journaled) : Machine (Journaled × Option Tx) TxCall TxReply where
  start := (s, none)
  step st e :=
    match st.1.step e with
    | none => (st, [])
    | some (r, s') => ((s', Tx.note st.1 st.2 e r), [r])

/-- the journal and the open transaction fit together -/
structure Sound (s : Journaled) (tx : Option Tx) : Prop where
  placed : Placed s
  idle : tx = none → s.journal.txActive = false
  inTx : ∀ t, tx = some t → InTx s t

variable {t : Tx} {tx : Option Tx}

theorem bit_assign (buf : Nat → UInt8) (k : Nat) (used : Bool) :
    Volume.bit (Volume.assignBufBit buf k used) = update (Volume.bit buf) k used := by
  funext j
  rw [bit_assignBufBit, update_apply]

/-- data block `k` is taken or given back in a transaction, and entry `e` records it -/
structure Took (s s' : Journaled) (k : Nat) (used : Bool) (e : JournalEntry) : Prop where
  placed : Placed s'
  active : s'.journal.txActive = true
  current : s'.journal.currentTxSeq = s.journal.currentTxSeq
  startSeq : s'.journal.header.txStartSeq = s.journal.header.txStartSeq
  inside : k / 8 < bitmapBufSize
  bits : s'.vol.bitmapBuf = Volume.assignBufBit s.vol.bitmapBuf k used
  free : s'.vol.superblock.freeBlocks + (if used then 1 else -1) = s.vol.superblock.freeBlocks
  dataStart : s'.vol.superblock.dataStart = s.vol.superblock.dataStart
  records : Records s.journal.currentTxSeq s.vol.superblock.dataStart (k, used) e
  entries : ∀ i < journalSlots, logSlots s'.vol i =
    update (logSlots s.vol) s.journal.header.head.toNat e i
  marks : marks s'.journal.header = (marks s.journal.header).next journalSlots

theorem InTx.took {k : Nat} {used : Bool} {e : JournalEntry} (h : InTx s t)
    (htook : Took s s' k used e) : InTx s' (t.adding k used) := by
  obtain ⟨recorded, hrecorded, hholds⟩ := h.entries
  refine ⟨htook.active, htook.current.trans h.current, htook.startSeq.trans h.startSeq, ?_, ?_,
    fun c hc => ?_, recorded ++ [e], ?_, ?_⟩
  · show _ = assigned _ (t.log ++ [(k, used)])
    rw [htook.bits, bit_assign, assigned_concat, h.bits]
    rfl
  · show _ + balance (t.log ++ [(k, used)]) = _
    rw [balance_concat, ← UInt32.add_assoc, htook.free, h.free]
    rfl
  · rcases mem_append.mp hc with hc | hc
    · exact h.inside c hc
    · rw [mem_singleton.mp hc]
      exact htook.inside
  · rw [htook.dataStart]
    refine rel_append hrecorded (List.Forall₂.cons ?_ List.Forall₂.nil)
    rw [← h.current]
    exact htook.records
  · have hpush := hholds.push e
    rw [newest_newest_concat, append_assoc] at hpush
    rw [htook.marks]
    exact hpush.congr htook.entries

theorem logSlots_map {vol : Volume} (hdisk : vol.disk = v.disk)
    (hstart : vol.superblock.journalStart = v.superblock.journalStart) :
    logSlots vol = logSlots v := by
  unfold logSlots entryAt journalBlock
  rw [hdisk, hstart]

theorem took_alloc (h : Placed s) (hactive : s.journal.txActive = true) {k : Nat}
    (hk : k < dataBlocks s.vol.superblock) (now : UInt64) :
    ∃ e, Took s ((s.withVol (s.vol.taken k)).logInTx journalAllocBlock
      (dataBlock s.vol.superblock k) 0 (dataBlock s.vol.superblock k) now) k true e := by
  have hfew := h.geometry.few
  have hin := inData_dataBlock h.geometry hk
  have hplaced : Placed (s.withVol (s.vol.taken k)) :=
    ⟨⟨h.geometry.pos, h.geometry.fits, h.geometry.few, h.geometry.int⟩, h.few, h.head, h.tail⟩
  obtain ⟨e, hlog, hsequence, htype, _, hnew⟩ := logInTx_spec hplaced hactive journalAllocBlock
    (dataBlock s.vol.superblock k) 0 (dataBlock s.vol.superblock k) now
  refine ⟨e, placed_of_logged hplaced hlog, hlog.active, hlog.current, hlog.startSeq, ?_,
    hlog.bitmapBuf, ?_, congrArg (·.dataStart) hlog.superblock, ⟨hsequence, htype, ?_, ?_⟩,
    hlog.entries, hlog.marks⟩
  · show k / 8 < 4096
    omega
  · rw [hlog.superblock]
    exact UInt32.sub_add_cancel ..
  · rw [if_pos rfl, hnew]
    exact hin.1
  · rw [if_pos rfl, hnew]
    exact dataIndex_dataBlock (v := s.vol) (by omega)

theorem took_free (h : Placed s) (hactive : s.journal.txActive = true) {b : UInt32}
    (hb : s.vol.superblock.dataStart ≤ b) (hin : dataIndex s.vol b / 8 < bitmapBufSize)
    (now : UInt64) :
    ∃ s' e, s.bitmapFree b now = some s' ∧ Took s s' (dataIndex s.vol b) false e := by
  obtain ⟨e, hlog, hsequence, htype, hold, _⟩ := logInTx_spec h hactive journalFreeBlock b b 0 now
  have hplaced := placed_of_logged h hlog
  have hindex : dataIndex (s.logInTx journalFreeBlock b b 0 now).vol b = dataIndex s.vol b := by
    unfold dataIndex
    rw [hlog.superblock]
  have hset := bitmapSet_spec (v := (s.logInTx journalFreeBlock b b 0 now).vol)
    (hlog.superblock.symm ▸ hb) (hindex.symm ▸ hin) false
  unfold Journaled.bitmapFree
  rw [if_pos hb]
  dsimp only
  generalize s.logInTx journalFreeBlock b b 0 now = s₁ at *
  rw [hset]
  refine ⟨_, e, rfl, ⟨⟨hplaced.geometry.pos, hplaced.geometry.fits, hplaced.geometry.few,
    hplaced.geometry.int⟩, hplaced.few, hplaced.head, hplaced.tail⟩, hlog.active, hlog.current,
    hlog.startSeq, hin, ?_, ?_, congrArg (·.dataStart) hlog.superblock,
    ⟨hsequence, htype, ?_, ?_⟩, fun i hi => ?_, hlog.marks⟩
  · show Volume.assignBufBit s₁.vol.bitmapBuf _ false = _
    rw [hindex, hlog.bitmapBuf]
  · show s₁.vol.superblock.freeBlocks + 1 + (if false then 1 else -1) = _
    rw [if_neg Bool.false_ne_true, hlog.superblock, UInt32.add_assoc,
      show (1 : UInt32) + -1 = 0 by decide, UInt32.add_zero]
  · rw [if_neg Bool.false_ne_true, hold]
    exact hb
  · rw [if_neg Bool.false_ne_true, hold]
    rfl
  · rw [← hlog.entries i hi]
    exact congrFun (logSlots_map rfl rfl) i

/-! ## rolling back -/

/-- the loop of `ekkfs_tx_abort` over a list of entries -/
def rollAll (header : JournalHeader) : List JournalEntry → Volume → UInt32 →
    Option (Volume × UInt32)
  | [], v, count => some (v, count)
  | e :: l, v, count =>
    (if e.sequence ≥ header.txStartSeq ∧ e.type ≠ journalNop then rollbackEntry v e count
      else some (v, count)).bind fun (v, count) => rollAll header l v count

theorem rollAll_append (header : JournalHeader) (l l' : List JournalEntry) (v : Volume)
    (count : UInt32) : rollAll header (l ++ l') v count =
      (rollAll header l v count).bind fun (v, count) => rollAll header l' v count := by
  induction l generalizing v count with
  | nil => rfl
  | cons e l ih =>
    rw [cons_append, rollAll, rollAll, Option.bind_assoc]
    congr 1
    funext r
    exact ih r.1 r.2

theorem rollbackEntry_keeps {e : JournalEntry} {count count' : UInt32}
    (h : rollbackEntry v e count = some (v', count')) :
    v'.disk = v.disk ∧ v'.superblock.journalStart = v.superblock.journalStart := by
  have hset {b : UInt32} {used : Bool} {w : Volume} (hw : v.bitmapSet b used = some w) :
      w.disk = v.disk ∧ w.superblock = v.superblock := by
    unfold Volume.bitmapSet at hw
    dsimp only at hw
    split_ifs at hw
    · obtain rfl := Option.some.inj hw
      exact ⟨rfl, rfl⟩
    · obtain rfl := Option.some.inj hw
      exact ⟨rfl, rfl⟩
  unfold rollbackEntry at h
  split_ifs at h
  · obtain ⟨w, hw, heq⟩ := Option.map_eq_some_iff.mp h
    obtain ⟨rfl, _⟩ := Prod.mk.inj heq
    obtain ⟨hdisk, hsb⟩ := hset hw
    exact ⟨hdisk, congrArg (·.journalStart) hsb⟩
  · obtain ⟨w, hw, heq⟩ := Option.map_eq_some_iff.mp h
    obtain ⟨rfl, _⟩ := Prod.mk.inj heq
    obtain ⟨hdisk, hsb⟩ := hset hw
    exact ⟨hdisk, congrArg (·.journalStart) hsb⟩
  · obtain ⟨rfl, _⟩ := Prod.mk.inj (Option.some.inj h)
    exact ⟨rfl, rfl⟩

theorem rollback_eq {header : JournalHeader} (l : List JournalEntry) :
    ∀ (fuel : Nat) (v : Volume) (pos count : UInt32),
      Holds journalSlots (logSlots v) ⟨header.head.toNat, pos.toNat⟩ l → l.length < fuel →
        rollback header fuel v pos count = rollAll header l v count := by
  induction l with
  | nil =>
    intro fuel v pos count hholds hfuel
    obtain ⟨fuel, rfl⟩ := Nat.exists_eq_succ_of_ne_zero (Nat.ne_of_gt hfuel)
    have hpos : pos = header.head := UInt32.toNat_inj.mp hholds.nil_eq
    rw [rollback, if_neg (fun hne => hne hpos), rollAll]
  | cons e l ih =>
    intro fuel v pos count hholds hfuel
    obtain ⟨fuel, rfl⟩ := Nat.exists_eq_succ_of_ne_zero (Nat.ne_of_gt (Nat.zero_lt_of_lt hfuel))
    obtain ⟨hne, hslot, hrest⟩ := hholds.uncons
    have hinside := (location_inside ⟨pos.toNat, hholds.tail⟩).1
    unfold logSlots at hslot
    rw [UInt32.ofNat_toNat] at hinside hslot
    rw [rollback, if_pos (fun heq => hne (congrArg UInt32.toNat heq)),
      if_neg (UInt32.not_le.mpr hinside), rollAll]
    dsimp only
    rw [hslot]
    rw [← next_toNat hholds.tail] at hrest
    cases hentry : (if e.sequence ≥ header.txStartSeq ∧ e.type ≠ journalNop then
        rollbackEntry v e count else some (v, count)) with
    | none => rfl
    | some r =>
      have hkeep : r.1.disk = v.disk ∧
          r.1.superblock.journalStart = v.superblock.journalStart := by
        split_ifs at hentry
        · exact rollbackEntry_keeps hentry
        · obtain rfl := Option.some.inj hentry
          exact ⟨rfl, rfl⟩
      refine ih fuel r.1 _ r.2 ?_ (Nat.lt_of_succ_lt_succ hfuel)
      rw [logSlots_map hkeep.1 hkeep.2]
      exact hrest

theorem rollAll_old {header : JournalHeader} {l : List JournalEntry}
    (h : ∀ e ∈ l, e.sequence < header.txStartSeq ∨
      e.type ≠ journalAllocBlock ∧ e.type ≠ journalFreeBlock) (v : Volume) (count : UInt32) :
    rollAll header l v count = some (v, count) := by
  induction l with
  | nil => rfl
  | cons e l ih =>
    have hrest := ih fun e' he' => h e' (mem_cons_of_mem e he')
    have hentry : (if e.sequence ≥ header.txStartSeq ∧ e.type ≠ journalNop then
        rollbackEntry v e count else some (v, count)) = some (v, count) := by
      split_ifs with hnew
      · rcases h e mem_cons_self with hold | ⟨halloc, hfree⟩
        · exact absurd hold (UInt32.not_lt.mpr hnew.1)
        · unfold rollbackEntry
          rw [if_neg halloc, if_neg hfree]
      · rfl
    rw [rollAll, hentry]
    exact hrest

def withMap (v : Volume) (buf : Nat → UInt8) (free : UInt32) : Volume :=
  { v with bitmapBuf := buf, superblock := { v.superblock with freeBlocks := free } }

theorem rollbackEntry_spec {sequence : UInt32} {c : Nat × Bool} {e : JournalEntry}
    (h : Records sequence v.superblock.dataStart c e) (hc : c.1 / 8 < bitmapBufSize)
    (count : UInt32) :
    rollbackEntry v e count = some (withMap v (Volume.assignBufBit v.bitmapBuf c.1 (!c.2))
      (v.superblock.freeBlocks + if c.2 then 1 else -1), count + 1) := by
  obtain ⟨_, htype, hdata, hindex⟩ := h
  obtain ⟨k, used⟩ := c
  unfold rollbackEntry
  cases used with
  | true =>
    rw [if_pos rfl] at htype hdata hindex
    change dataIndex v e.newValue = k at hindex
    rw [if_pos htype, bitmapSet_spec hdata (by rw [hindex]; exact hc), hindex]
    rfl
  | false =>
    rw [if_neg Bool.false_ne_true] at htype hdata hindex
    change dataIndex v e.oldValue = k at hindex
    have hne : e.type ≠ journalAllocBlock := by
      rw [htype]
      decide
    rw [if_neg hne, if_pos htype, bitmapSet_spec hdata (by rw [hindex]; exact hc), hindex,
      if_neg Bool.false_ne_true, ← UInt32.sub_eq_add_neg]
    rfl

theorem rollAll_tx {header : JournalHeader} {sequence dataStart : UInt32}
    (hstart : header.txStartSeq = sequence) {log : List (Nat × Bool)} {l : List JournalEntry}
    (h : List.Forall₂ (Records sequence dataStart) log l) :
    (∀ c ∈ log, c.1 / 8 < bitmapBufSize) → ∀ (v : Volume) (count : UInt32),
      v.superblock.dataStart = dataStart →
      ∃ buf count', rollAll header l v count =
          some (withMap v buf (v.superblock.freeBlocks + balance log), count') ∧
        Volume.bit buf = undone (Volume.bit v.bitmapBuf) log := by
  induction h with
  | nil =>
    intro _ v count _
    refine ⟨v.bitmapBuf, count, ?_, rfl⟩
    show some (v, count) = some (withMap v v.bitmapBuf (v.superblock.freeBlocks + 0), count)
    rw [UInt32.add_zero]
    rfl
  | @cons c e log l hrec _ ih =>
    intro hinside v count hdata
    have hentry := rollbackEntry_spec (hdata.symm ▸ hrec) (hinside c mem_cons_self) count
    have hnop : e.type ≠ journalNop := by
      rw [hrec.2.1]
      split_ifs <;> decide
    have hseq : e.sequence ≥ header.txStartSeq := by
      rw [hstart, hrec.1]
      exact UInt32.le_refl _
    rw [rollAll, if_pos ⟨hseq, hnop⟩, hentry, Option.bind_some]
    obtain ⟨buf, count', hrest, hbits⟩ := ih
      (fun c' hc' => hinside c' (mem_cons_of_mem c hc'))
      (withMap v (Volume.assignBufBit v.bitmapBuf c.1 (!c.2))
        (v.superblock.freeBlocks + if c.2 then 1 else -1)) (count + 1) hdata
    refine ⟨buf, count', ?_, ?_⟩
    · dsimp only
      rw [hrest]
      show some (withMap v buf (v.superblock.freeBlocks + (if c.2 then 1 else -1) + balance log),
        count') = _
      rw [UInt32.add_assoc]
      rfl
    · rw [hbits]
      show undone (Volume.bit (Volume.assignBufBit v.bitmapBuf c.1 (!c.2))) log = _
      rw [bit_assign]
      rfl

theorem buf_ext {buf buf' : Nat → UInt8} (h : Volume.bit buf = Volume.bit buf') : buf = buf' := by
  funext i
  refine UInt8.toNat_inj.mp (Nat.eq_of_testBit_eq fun j => ?_)
  by_cases hj : j < 8
  · have hbit := congrFun h (8 * i + j)
    unfold Volume.bit at hbit
    rwa [show (8 * i + j) / 8 = i by omega, show (8 * i + j) % 8 = j by omega] at hbit
  · have hbig (byte : UInt8) : byte.toNat.testBit j = false := by
      refine Nat.testBit_lt_two_pow (Nat.lt_of_lt_of_le byte.toNat_lt ?_)
      exact Nat.pow_le_pow_right (by decide) (Nat.le_of_not_lt hj)
    rw [hbig, hbig]

/-- no allocation and no freeing of an earlier transaction would be undone, the entries of the
transaction fit into the journal, and the last entry about each block changed its bit from what it
was when the transaction began -/
def Tx.Undoable (t : Tx) : Prop :=
  (∀ e ∈ t.before, e.sequence < t.sequence ∨
    e.type ≠ journalAllocBlock ∧ e.type ≠ journalFreeBlock) ∧
  t.log.length ≤ journalSlots - 1 ∧
  ∀ c ∈ t.log, lastOf t.log c.1 = some (!Volume.bit t.start.vol.bitmapBuf c.1)

instance (t : Tx) : Decidable t.Undoable := inferInstanceAs (Decidable (_ ∧ _ ∧ _))

theorem Tx.Undoable.restores (h : t.Undoable) :
    undone (assigned (Volume.bit t.start.vol.bitmapBuf) t.log) t.log =
      Volume.bit t.start.vol.bitmapBuf := by
  refine (undone_assigned_iff _ _).mpr fun k used hlast => ?_
  have hself := h.2.2 (k, used) (mem_of_lastOf hlast)
  rw [hlast] at hself
  rw [Option.some.inj hself, Bool.not_not]

/-- the bitmap and the counter are as they were when the transaction began -/
structure Restored (t : Tx) (s' : Journaled) : Prop where
  bitmap : s'.vol.bitmapBuf = t.start.vol.bitmapBuf
  free : s'.vol.superblock.freeBlocks = t.start.vol.superblock.freeBlocks

theorem bitmapSave_spec (h : v.bitmapBlocks.toNat ≤ 8) :
    ∃ disk, v.bitmapSave = some { v with disk := disk } := by
  unfold Volume.bitmapSave
  rw [if_pos]
  · exact ⟨_, rfl⟩
  · show v.bitmapBlocks.toNat * 512 ≤ 4096
    omega

theorem abort_spec (h : Placed s) (ht : InTx s t) (hundo : t.Undoable) :
    ∃ s', s.txAbort = some (.ok (), s') ∧ Restored t s' ∧ Placed s' ∧
      s'.journal.txActive = false := by
  obtain ⟨recorded, hrecorded, hholds⟩ := ht.entries
  have hlen : recorded.length ≤ journalSlots - 1 := hrecorded.length_eq ▸ hundo.2.1
  have hfuel := Nat.lt_succ_of_lt hholds.free
  rw [newest_append _ hlen] at hholds hfuel
  have hold := rollAll_old (fun e he =>
    (hundo.1 e (mem_of_mem_newest (n := journalSlots - 1 - recorded.length) he)).imp_left
      fun hlt => ht.startSeq.symm ▸ hlt) s.vol 0
  obtain ⟨buf, count, hroll, hbits⟩ := rollAll_tx ht.startSeq hrecorded ht.inside s.vol 0 rfl
  have hbuf : buf = t.start.vol.bitmapBuf := by
    refine buf_ext ?_
    rw [hbits, ht.bits]
    exact hundo.restores
  rw [ht.free, hbuf] at hroll
  have hloop : rollback s.journal.header (journalTotalEntries.toNat + 1) s.vol
      s.journal.header.tail 0 = some (withMap s.vol t.start.vol.bitmapBuf
        t.start.vol.superblock.freeBlocks, count) := by
    rw [show journalTotalEntries.toNat + 1 = journalSlots.succ from rfl,
      rollback_eq _ _ _ _ _ hholds hfuel, rollAll_append, hold]
    exact hroll
  have hg := h.geometry
  have hplaced (disk : UInt32 → Block) (journal : JournalState)
      (hhead : journal.header.head = s.journal.header.head)
      (htail : journal.header.tail = s.journal.header.tail) :
      Placed ⟨{ withMap s.vol t.start.vol.bitmapBuf t.start.vol.superblock.freeBlocks with
        disk := disk }, journal⟩ :=
    ⟨⟨hg.pos, hg.fits, hg.few, hg.int⟩, h.few, hhead ▸ h.head, htail ▸ h.tail⟩
  unfold Journaled.txAbort
  rw [if_neg (by rw [ht.active]; decide)]
  dsimp only
  rw [hloop, Option.bind_some]
  by_cases hcount : count > 0
  · obtain ⟨disk, hsave⟩ := bitmapSave_spec (v := (((s.withVol (withMap s.vol
      t.start.vol.bitmapBuf t.start.vol.superblock.freeBlocks)).withHeader
        { s.journal.header with txActive := 0 }).writeHeader).vol) h.few
    rw [if_pos hcount, hsave]
    exact ⟨_, rfl, ⟨rfl, rfl⟩, hplaced disk _ rfl rfl, rfl⟩
  · rw [if_neg hcount]
    exact ⟨_, rfl, ⟨rfl, rfl⟩, hplaced _ _ rfl rfl, rfl⟩

/-! ## one call -/

/-- an abort finds a transaction that can be undone, blocks are given back within the bitmap, and
no block of the journal is written over -/
def Allowed (st : Journaled × Option Tx) : TxCall → Prop
  | .abort => ∀ t ∈ st.2, t.Undoable
  | .free b _ =>
    b < st.1.vol.superblock.dataStart ∨ dataIndex st.1.vol b / 8 < bitmapBufSize
  | .store b _ => journalBlocks ≤ b - st.1.vol.superblock.journalStart
  | _ => True

instance decidableAllowed (st : Journaled × Option Tx) : (e : TxCall) → Decidable (Allowed st e)
  | .abort => inferInstanceAs (Decidable (∀ t ∈ st.2, t.Undoable))
  | .free _ _ => inferInstanceAs (Decidable (_ ∨ _))
  | .store _ _ => inferInstanceAs (Decidable (_ ≤ _))
  | .begin => inferInstanceAs (Decidable True)
  | .commit _ => inferInstanceAs (Decidable True)
  | .alloc _ => inferInstanceAs (Decidable True)
  | .inode _ _ => inferInstanceAs (Decidable True)

/-- the call is answered, and the journal and the open transaction fit together again -/
def Answered (s : Journaled) (tx : Option Tx) (e : TxCall) : Prop :=
  ∃ r s', s.step e = some (r, s') ∧ Sound s' (Tx.note s tx e r)

theorem Sound.some_of_active (h : Sound s tx) (hactive : s.journal.txActive = true) :
    ∃ t, tx = some t ∧ InTx s t := by
  cases tx with
  | none => cases (h.idle rfl).symm.trans hactive
  | some t => exact ⟨t, rfl, h.inTx t rfl⟩

theorem Sound.none_of_idle (h : Sound s tx) (hidle : s.journal.txActive = false) : tx = none := by
  cases tx with
  | none => rfl
  | some t => cases hidle.symm.trans (h.inTx t rfl).active

theorem note_alloc {k : Nat} (hk : k < 2 ^ 32) (now : UInt64) :
    Tx.note s tx (.alloc now) (.block (some (dataBlock s.vol.superblock k))) =
      tx.map (·.adding k true) := by
  unfold Tx.note
  dsimp only
  rw [dataIndex_dataBlock hk]

theorem note_free {b : UInt32} (hb : b ≥ s.vol.superblock.dataStart) (now : UInt64) :
    Tx.note s tx (.free b now) .ok = tx.map (·.adding (dataIndex s.vol b) false) := if_pos hb

theorem sound_none (h : Placed s) (hidle : s.journal.txActive = false) : Sound s none :=
  ⟨h, fun _ => hidle, nofun⟩

theorem sound_some (h : Placed s) (ht : InTx s t) : Sound s (some t) :=
  ⟨h, nofun, fun _ heq => Option.some.inj heq ▸ ht⟩

theorem answered_begin (h : Sound s tx) : Answered s tx .begin := by
  unfold Answered Journaled.step Journaled.txBegin
  cases hactive : s.journal.txActive with
  | true => exact ⟨_, _, rfl, h⟩
  | false =>
    refine ⟨_, _, rfl, sound_some ⟨h.placed.geometry, h.placed.few, h.placed.head, h.placed.tail⟩ ?_⟩
    refine ⟨rfl, rfl, rfl, rfl, UInt32.add_zero _, nofun, [], .nil, ?_⟩
    rw [append_nil]
    have hholds : Holds journalSlots (logSlots s.vol) (marks s.journal.header)
        (contents journalSlots (logSlots s.vol) (marks s.journal.header)) :=
      holds_contents h.placed.head h.placed.tail
    show Holds journalSlots _ _ (Ring.newest (journalSlots - 1)
      (contents journalSlots (logSlots s.vol) (marks s.journal.header)))
    rw [newest_of_length_le (n := journalSlots - 1) (Nat.le_of_lt_succ hholds.free)]
    exact hholds.congr fun i hi => logSlots_header _ hi

theorem answered_commit (h : Sound s tx) (now : UInt64) : Answered s tx (.commit now) := by
  unfold Answered Journaled.step Journaled.txCommit
  cases hactive : s.journal.txActive with
  | false => exact ⟨_, _, rfl, h⟩
  | true =>
    obtain ⟨s₁, e, heq, hlog, _⟩ := journalLog_spec h.placed hactive journalCommit 0 0 0 0 now
    have hplaced := placed_of_logged h.placed hlog
    have hg := hplaced.geometry
    obtain ⟨disk, hsave⟩ := bitmapSave_spec (v := ((s₁.withHeader { s₁.journal.header with
      txActive := 0, sequence := s₁.journal.header.sequence + 1 }).writeHeader).vol) hplaced.few
    dsimp only
    rw [if_neg (by decide), heq]
    dsimp only
    unfold Volume.sync
    rw [hsave]
    exact ⟨_, _, rfl, sound_none ⟨⟨hg.pos, hg.fits, hg.few, hg.int⟩, hplaced.few, hplaced.head,
      hplaced.tail⟩ rfl⟩

theorem answered_abort (h : Sound s tx) (hallowed : Allowed (s, tx) .abort) :
    Answered s tx .abort := by
  unfold Answered Journaled.step
  cases hactive : s.journal.txActive with
  | false =>
    have heq : s.txAbort = some (.error .invalid, s) := by
      unfold Journaled.txAbort
      rw [if_pos (by rw [hactive]; rfl)]
    rw [heq]
    exact ⟨_, _, rfl, h⟩
  | true =>
    obtain ⟨t, rfl, ht⟩ := h.some_of_active hactive
    obtain ⟨s', heq, _, hplaced, hidle⟩ := abort_spec h.placed ht (hallowed t rfl)
    rw [heq]
    exact ⟨_, _, rfl, sound_none hplaced hidle⟩

theorem answered_alloc (h : Sound s tx) (now : UInt64) : Answered s tx (.alloc now) := by
  unfold Answered Journaled.step
  rcases alloc_spec h.placed now with heq | ⟨k, hk, heq⟩
  · dsimp only
    rw [heq]
    exact ⟨_, _, rfl, h⟩
  · dsimp only
    rw [heq]
    refine ⟨_, _, rfl, ?_⟩
    cases hactive : s.journal.txActive with
    | false =>
      have hidle : (s.withVol (s.vol.taken k)).journal.txActive = false := hactive
      unfold Journaled.logInTx
      rw [if_neg (by rw [hidle]; decide), h.none_of_idle hactive]
      have hg := h.placed.geometry
      exact sound_none ⟨⟨hg.pos, hg.fits, hg.few, hg.int⟩, h.placed.few, h.placed.head,
        h.placed.tail⟩ hidle
    | true =>
      obtain ⟨t, rfl, ht⟩ := h.some_of_active hactive
      obtain ⟨e, htook⟩ := took_alloc h.placed hactive hk now
      have hfew := h.placed.geometry.few
      rw [note_alloc (by omega)]
      exact sound_some htook.placed (ht.took htook)

theorem answered_free (h : Sound s tx) {b : UInt32} (now : UInt64)
    (hallowed : Allowed (s, tx) (.free b now)) : Answered s tx (.free b now) := by
  unfold Answered Journaled.step
  dsimp only
  by_cases hb : b ≥ s.vol.superblock.dataStart
  · have hin := hallowed.resolve_left (UInt32.not_lt.mpr hb)
    cases hactive : s.journal.txActive with
    | false =>
      have hset := bitmapSet_spec hb hin false
      have hg := h.placed.geometry
      unfold Journaled.bitmapFree Journaled.logInTx
      rw [if_pos hb, if_neg (by rw [hactive]; decide)]
      dsimp only
      rw [hset, h.none_of_idle hactive]
      refine ⟨_, _, rfl, ?_⟩
      rw [note_free hb]
      exact sound_none ⟨⟨hg.pos, hg.fits, hg.few, hg.int⟩, h.placed.few, h.placed.head, h.placed.tail⟩
        hactive
    | true =>
      obtain ⟨t, rfl, ht⟩ := h.some_of_active hactive
      obtain ⟨s', e, heq, htook⟩ := took_free h.placed hactive hb hin now
      rw [heq]
      refine ⟨_, _, rfl, ?_⟩
      rw [note_free hb]
      exact sound_some htook.placed (ht.took htook)
  · have hnote : Tx.note s tx (.free b now) .ok = tx := if_neg hb
    unfold Journaled.bitmapFree
    rw [if_neg hb]
    refine ⟨_, _, rfl, ?_⟩
    rw [hnote]
    exact h

theorem Sound.keep (h : Sound s tx) {vol : Volume} (hsb : vol.superblock = s.vol.superblock)
    (hblocks : vol.bitmapBlocks = s.vol.bitmapBlocks) (hbuf : vol.bitmapBuf = s.vol.bitmapBuf)
    (hslots : ∀ i < journalSlots, logSlots vol i = logSlots s.vol i) :
    Sound (s.withVol vol) tx := by
  refine ⟨⟨hsb ▸ h.placed.geometry, hblocks ▸ h.placed.few, h.placed.head, h.placed.tail⟩, h.idle,
    fun t htx => ?_⟩
  obtain ⟨hactive, hcurrent, hstart, hbits, hfree, hinside, recorded, hrecorded, hholds⟩ :=
    h.inTx t htx
  refine ⟨hactive, hcurrent, hstart, ?_, ?_, hinside, recorded, ?_, hholds.congr hslots⟩
  · rw [← hbits]
    exact congrArg Volume.bit hbuf
  · rw [← hfree]
    exact congrArg (·.freeBlocks + balance t.log) hsb
  · show List.Forall₂ (Records t.sequence vol.superblock.dataStart) _ _
    rw [hsb]
    exact hrecorded

theorem answered_store (h : Sound s tx) {b : UInt32} {block : Block}
    (hallowed : Allowed (s, tx) (.store b block)) : Answered s tx (.store b block) := by
  have hdisk : ∀ idx < journalBlocks, (s.vol.put b block).disk (journalBlock s.vol idx) =
      s.vol.disk (journalBlock s.vol idx) := by
    intro idx hidx
    refine update_of_ne ?_ ..
    rintro rfl
    have hback : journalBlock s.vol idx - s.vol.superblock.journalStart = idx := by
      unfold journalBlock
      rw [UInt32.add_comm, UInt32.add_sub_cancel]
    unfold Allowed at hallowed
    dsimp only at hallowed
    rw [hback] at hallowed
    exact absurd hidx (UInt32.not_lt.mpr hallowed)
  have hstart : (s.vol.put b block).superblock.journalStart = s.vol.superblock.journalStart := rfl
  exact ⟨.ok, s.withVol (s.vol.put b block), rfl,
    h.keep rfl rfl rfl fun i hi => logSlots_congr hstart hdisk hi⟩

theorem answered_inode (h : Sound s tx) (n : UInt32) (inode : Inode) :
    Answered s tx (.inode n inode) := by
  unfold Answered Journaled.step Volume.inodeWrite
  dsimp only
  split_ifs
  · exact ⟨_, _, rfl, h.keep rfl rfl rfl fun _ _ => rfl⟩
  · exact ⟨_, _, rfl, h.keep rfl rfl rfl fun _ _ => rfl⟩

theorem answered (h : Sound s tx) {e : TxCall} (hallowed : Allowed (s, tx) e) :
    Answered s tx e := by
  cases e with
  | begin => exact answered_begin h
  | commit now => exact answered_commit h now
  | abort => exact answered_abort h hallowed
  | alloc now => exact answered_alloc h now
  | free b now => exact answered_free h now hallowed
  | store b block => exact answered_store h hallowed
  | inode n inode => exact answered_inode h n inode

/-! ## runs -/

theorem transactions_next {s₀ : Journaled} {st : Journaled × Option Tx} {e : TxCall} {r : TxReply}
    (h : st.1.step e = some (r, s')) :
    (transactions s₀).next st e = (s', Tx.note st.1 st.2 e r) := by
  unfold Machine.next transactions
  dsimp only
  rw [h]

theorem sound_of_runs (hplaced : Placed s) (hidle : s.journal.txActive = false)
    (es : List TxCall)
    (hes : EveryStep (fun pre e => Allowed ((transactions s).run pre) e) es) :
    Sound ((transactions s).run es).1 ((transactions s).run es).2 := by
  refine history_induction (I := fun es => Sound ((transactions s).run es).1
    ((transactions s).run es).2) (sound_none hplaced hidle) (fun es e ih hallowed => ?_) es hes
  obtain ⟨r, s', heq, hsound⟩ := answered ih hallowed
  rw [Machine.run_concat, transactions_next heq]
  exact hsound

/-- an abort of an open transaction succeeds, and the bitmap and the counter are what they were when
the transaction began -/
def AbortRestores (st : Journaled × Option Tx) (e : TxCall) : Prop :=
  e = .abort → ∀ t, st.2 = some t → ∃ s', st.1.txAbort = some (.ok (), s') ∧ Restored t s'

/-- **Main.** A mounted volume with any journal and no open transaction.  In every run whose aborts
all find a transaction that can be undone, each abort restores the bitmap and the counter of free
blocks. -/
theorem abort_restores (hplaced : Placed s) (hidle : s.journal.txActive = false)
    (es : List TxCall)
    (hes : EveryStep (fun pre e => Allowed ((transactions s).run pre) e) es) :
    EveryStep (fun pre e => AbortRestores ((transactions s).run pre) e) es := by
  intro pre e hpre he t ht
  subst he
  have hsound := sound_of_runs hplaced hidle pre
    (hes.initial ((prefix_append pre [.abort]).trans hpre))
  obtain ⟨s', heq, hrestored, _⟩ :=
    abort_spec hsound.placed (hsound.inTx t ht) (hes pre .abort hpre t ht)
  exact ⟨s', heq, hrestored⟩

def newJournaled : Journaled := ⟨newVolume 20, ⟨JournalHeader.empty, 0, false, false⟩⟩

theorem newJournaled_placed : Placed newJournaled :=
  ⟨⟨by decide +kernel, by decide +kernel, by decide +kernel, by decide +kernel⟩, by decide +kernel,
    by decide +kernel, by decide +kernel⟩

def swapBlocks : List TxCall := [.alloc 0, .begin, .alloc 0, .free 7 0, .abort]

theorem abort_restores_swap :
    EveryStep (fun pre e => AbortRestores ((transactions newJournaled).run pre) e) swapBlocks ∧
      (transactions newJournaled).trace swapBlocks =
        [.block (some 7), .started 1, .block (some 8), .ok, .ok] :=
  ⟨abort_restores newJournaled_placed rfl swapBlocks
    ((everyStep_iff _ _).mpr (by decide +kernel)), by decide +kernel⟩

def abortTwice : List TxCall := [.begin, .alloc 0, .abort, .begin, .alloc 0, .abort]

def takeAndFree : List TxCall := [.begin, .alloc 0, .free 7 0, .abort]

def freeAndTake : List TxCall := [.alloc 0, .begin, .free 7 0, .alloc 0, .abort]

theorem not_restores {st : Journaled × Option Tx}
    (h : (st.2.bind fun t => st.1.txAbort.map fun r =>
      decide (r.2.vol.superblock.freeBlocks = t.start.vol.superblock.freeBlocks ∧
        r.2.vol.bitmapBuf 0 = t.start.vol.bitmapBuf 0)) = some false) :
    ¬ AbortRestores st .abort := by
  intro hrestores
  obtain ⟨t, ht, hmap⟩ := Option.bind_eq_some_iff.mp h
  obtain ⟨s', heq, hrestored⟩ := hrestores rfl t ht
  rw [heq, Option.map_some] at hmap
  refine of_decide_eq_false (Option.some.inj hmap) ⟨hrestored.free, ?_⟩
  rw [hrestored.bitmap]

/-- the second abort undoes the first transaction again; a block that was taken and given back is
marked for ever; a marked block that was given back and taken again is clear -/
theorem abort_undoes_wrong :
    ¬ EveryStep (fun pre e => AbortRestores ((transactions newJournaled).run pre) e) abortTwice ∧
      ¬ EveryStep (fun pre e => AbortRestores ((transactions newJournaled).run pre) e)
        takeAndFree ∧
      ¬ EveryStep (fun pre e => AbortRestores ((transactions newJournaled).run pre) e)
        freeAndTake := by
  refine ⟨fun h => ?_, fun h => ?_, fun h => ?_⟩
  · exact not_restores (by decide +kernel)
      (h (abortTwice.take 5) .abort (prefix_refl abortTwice))
  · exact not_restores (by decide +kernel)
      (h (takeAndFree.take 3) .abort (prefix_refl takeAndFree))
  · exact not_restores (by decide +kernel)
      (h (freeAndTake.take 4) .abort (prefix_refl freeAndTake))

end Fs
end EkKor
