import EkKor.Module.Seqlock

/-!
# Samples of a field are not torn

The sequence number tells a reader that the publisher has been there.  It does not tell of the
garbage collector, and it comes round after 2^31 publications.

* `Quiet`          no reader is disturbed behind the back of the sequence number;
* `Inv`            what the threads know of the record;
* `untorn`         a run of quiet steps has no torn sample;
* `torn_of_clear`  a clear that is not quiet can tear one.
-/

namespace EkKor
namespace Seqlock
open EkKor.Field (CoordField maxAge)
open Function
open List hiding Vector
open Runs (Machine EveryStep)

variable {n : Nat} {moduleId : ModuleId}

/-! ## quiet steps -/

/-- the reader has found the record valid, does not find it too old, and will find the sequence
number unchanged if nothing else happens; `bytes` are copied -/
def Reader.Holds (cf : CoordField) (bytes : List UInt8) : Reader → Prop
  | .checked now seqBefore =>
    seqBefore = cf.sequence ∧ bytes = [] ∧ ¬ now - cf.field.timestamp > maxAge
  | .copying seqBefore _ copied => seqBefore = cf.sequence ∧ bytes = copied
  | _ => False

abbrev sourceOffset : Nat := 32

/-- no reader is disturbed behind the back of the sequence number: the garbage collector does not
clear a record that a reader has found valid and of which it has not yet copied the source, and the
sequence number does not come round to the value that a reader compares with -/
def Quiet (s : State n) : Event n → Prop
  | .collect => s.collector = .tooOld → ∀ r bytes,
      (s.readers r).Holds s.cf bytes → sourceOffset < bytes.length
  | .write => ∀ components now sequence, s.writer = .closing components now sequence →
      ∀ r bytes, ¬ (s.readers r).Holds { s.cf with sequence := sequence + 1 } bytes
  | _ => True

/-! ## what holds in a quiet run -/

def WriterKnows (moduleId : ModuleId) (cf : CoordField) : Writer → Prop
  | .idle => cf.sequence % 2 = 0
  | .opening _ _ sequence => cf.sequence % 2 = 0 ∧ sequence = cf.sequence
  | .storing components now todo => cf.sequence % 2 = 1 ∧
      ∀ a, a ∉ todo → Agrees moduleId components now cf.field a
  | .tagging components now _ | .stored components now =>
    cf.sequence % 2 = 1 ∧ ∀ a, Agrees moduleId components now cf.field a
  | .closing components now sequence =>
    cf.sequence % 2 = 1 ∧ sequence = cf.sequence ∧ ∀ a, Agrees moduleId components now cf.field a

def Holds (log : List (Out n)) (field : Field) : Prop :=
  ∃ components now, .published components now ∈ log ∧ field.components = components ∧
    field.timestamp = now

def whole (moduleId : ModuleId) (field : Field) : Field := { field with source := moduleId }

/-- what a reader that has found the record valid knows: its copy is the front of one record -/
def ReaderKnows (moduleId : ModuleId) (cf : CoordField) (log : List (Out n)) (r : Reader) : Prop :=
  ∀ bytes, r.Holds cf bytes → Holds log cf.field ∧
    bytes = (layout.encode (whole moduleId cf.field)).take bytes.length ∧
    (bytes.length ≤ sourceOffset → cf.field.source = moduleId)

def Reader.Even : Reader → Prop
  | .idle => True
  | .loaded _ seqBefore | .checked _ seqBefore | .copying seqBefore _ _ => seqBefore % 2 = 0

structure Inv (moduleId : ModuleId) (s : State n) (log : List (Out n)) : Prop where
  writer : WriterKnows moduleId s.cf s.writer
  source : s.cf.field.source = moduleId ∨ s.cf.field.source = invalidModuleId
  settled : s.cf.sequence % 2 = 0 →
    s.cf.field.source = invalidModuleId ∨ Holds log s.cf.field
  even : ∀ r, (s.readers r).Even
  readers : ∀ r, ReaderKnows moduleId s.cf log (s.readers r)
  samples : ∀ r copy age, .sampled r copy age ∈ log →
    copy.source = moduleId ∧ Holds log copy

/-! ## the bytes of a record -/

theorem encode_eq (f : Field) : ∃ front : List UInt8, front.length = sourceOffset ∧
    ∀ source, layout.encode { f with source := source } = front ++ [source, f.sequence] := by
  refine ⟨(Packed.array fixed 6).encode f.components ++ Packed.u64.encode f.timestamp, ?_,
    fun source => ?_⟩
  · rw [length_append, Packed.length_encode, Packed.length_encode]
    rfl
  · exact (append_assoc _ _ _).symm

theorem getD_encode_whole {f : Field} {k : Nat} (hk : k < layout.size)
    (hsource : k ≤ sourceOffset → f.source = moduleId) :
    (layout.encode f).getD k 0 = (layout.encode (whole moduleId f)).getD k 0 := by
  rw [layout_size] at hk
  by_cases hle : k ≤ sourceOffset
  · have hwhole : whole moduleId f = f := by
      unfold whole
      rw [← hsource hle]
    rw [hwhole]
  · obtain ⟨front, hlen, hf⟩ := encode_eq f
    have hlt : 32 < k := Nat.lt_of_not_le hle
    obtain rfl : k = 33 := by omega
    rw [show layout.encode f = layout.encode { f with source := f.source } from rfl, hf, whole, hf]
    rw [getD_append_right _ _ _ _ (by omega), getD_append_right _ _ _ _ (by omega), hlen]
    rfl

/-! ## parity -/

variable {a seqBefore : UInt32} {log more outs : List (Out n)} {cf : CoordField} {r : Fin n}
  {bytes : List UInt8}

theorem mod_two_succ : (a % 2 = 0 → (a + 1) % 2 = 1) ∧
    (a % 2 = 1 → (a + 1) % 2 = 0) := by
  rw [← UInt32.toNat_inj, ← UInt32.toNat_inj, ← UInt32.toNat_inj, ← UInt32.toNat_inj,
    UInt32.toNat_mod, UInt32.toNat_mod, UInt32.toNat_add]
  show (a.toNat % 2 = 0 → (a.toNat + 1) % 2 ^ 32 % 2 = 1) ∧
    (a.toNat % 2 = 1 → (a.toNat + 1) % 2 ^ 32 % 2 = 0)
  omega

theorem not_even_of_odd (hodd : a % 2 = 1) : ¬ a % 2 = 0 := by
  rw [hodd]
  decide

theorem even_of_not_odd (hodd : ¬ a % 2 = 1) : a % 2 = 0 := by
  rw [← UInt32.toNat_inj, UInt32.toNat_mod] at hodd ⊢
  have hne : ¬ a.toNat % 2 = 1 := hodd
  show a.toNat % 2 = 0
  omega

/-! ## the log grows -/

theorem Holds.mono {f : Field} (h : Holds log f) : Holds (log ++ more) f := by
  obtain ⟨components, now, hmem, hc, ht⟩ := h
  exact ⟨components, now, mem_append_left _ hmem, hc, ht⟩

theorem ReaderKnows.mono {r : Reader} (h : ReaderKnows moduleId cf log r) :
    ReaderKnows moduleId cf (log ++ more) r := by
  intro bytes hbytes
  obtain ⟨hholds, hrest⟩ := h bytes hbytes
  exact ⟨hholds.mono, hrest⟩

theorem readerKnows_of_odd {r : Reader} (heven : r.Even) (hodd : cf.sequence % 2 = 1) :
    ReaderKnows moduleId cf log r := by
  intro bytes hbytes
  have hne {a : UInt32} (ha : a % 2 = 0) (he : a = cf.sequence) : False := by
    rw [he, hodd] at ha
    exact absurd ha (by decide)
  cases r with
  | idle => exact hbytes.elim
  | loaded now seqBefore => exact hbytes.elim
  | checked now seqBefore => exact (hne heven hbytes.1).elim
  | copying seqBefore age copied => exact (hne heven hbytes.1).elim

/-! ## the steps -/

variable {s : State n}

theorem Inv.odd (h : Inv moduleId s log) {w : Writer} (hodd : cf.sequence % 2 = 1)
    (hw : WriterKnows moduleId cf w)
    (hsource : cf.field.source = moduleId ∨ cf.field.source = invalidModuleId) :
    Inv moduleId { s with cf := cf, writer := w } log where
  writer := hw
  source := hsource
  settled heven := absurd heven (not_even_of_odd hodd)
  even := h.even
  readers r := readerKnows_of_odd (h.even r) hodd
  samples := h.samples

theorem Inv.close (h : Inv moduleId s log) {components : Vector Int32 6} {now : TimeUs}
    (hodd : s.cf.sequence % 2 = 1) (hall : ∀ a, Agrees moduleId components now s.cf.field a)
    (hquiet : ∀ r bytes, ¬ (s.readers r).Holds { s.cf with sequence := s.cf.sequence + 1 } bytes) :
    Inv moduleId { s with cf := { s.cf with sequence := s.cf.sequence + 1 }, writer := .idle }
      (log ++ [.published components now]) where
  writer := mod_two_succ.2 hodd
  source := h.source
  settled _ := Or.inr ⟨components, now, mem_concat_self,
    Vector.ext fun i hi => hall (.component ⟨i, hi⟩), hall .timestamp⟩
  even := h.even
  readers r bytes hbytes := absurd hbytes (hquiet r bytes)
  samples r copy age hmem := by
    obtain ⟨hsource, hholds⟩ := h.samples r copy age (by
      rcases mem_append.mp hmem with hlog | hlast
      · exact hlog
      · exact nomatch mem_singleton.mp hlast)
    exact ⟨hsource, hholds.mono⟩

theorem Inv.write (h : Inv moduleId s log) (hquiet : Quiet s .write) :
    Inv moduleId (step moduleId s .write).1 (log ++ (step moduleId s .write).2) := by
  have hw := h.writer
  obtain ⟨cf, writer, collector, readers⟩ := s
  cases writer with
  | idle =>
    rw [show (step moduleId ⟨cf, .idle, collector, readers⟩ .write).2 = [] from rfl,
      append_nil]
    exact h
  | opening components now sequence =>
    obtain ⟨heven, hseq⟩ := hw
    obtain rfl : sequence = cf.sequence := hseq
    rw [show (step moduleId ⟨cf, .opening components now cf.sequence, collector, readers⟩
      .write).2 = [] from rfl, append_nil]
    have hodd := mod_two_succ.1 heven
    exact h.odd hodd ⟨hodd, fun a ha => absurd (members_complete a) ha⟩ h.source
  | storing components now todo =>
    obtain ⟨hodd, hstored⟩ := hw
    cases todo with
    | nil =>
      rw [show (step moduleId ⟨cf, .storing components now [], collector, readers⟩ .write).2 = []
        from rfl, append_nil]
      exact h.odd hodd ⟨hodd, fun a => hstored a not_mem_nil⟩ h.source
    | cons a todo =>
      rw [show (step moduleId ⟨cf, .storing components now (a :: todo), collector, readers⟩
        .write).2 = [] from rfl, append_nil]
      refine h.odd hodd ⟨hodd, fun b hb => Agrees.store a fun hne => ?_⟩ (source_store a h.source)
      exact hstored b fun hmem => (mem_cons.mp hmem).elim hne hb
  | tagging components now sequence =>
    obtain ⟨hodd, hall⟩ := hw
    rw [show (step moduleId ⟨cf, .tagging components now sequence, collector, readers⟩
      .write).2 = [] from rfl, append_nil]
    refine h.odd hodd ⟨hodd, fun a => ?_⟩ h.source
    have ha := hall a
    cases a <;> exact ha
  | stored components now =>
    obtain ⟨hodd, hall⟩ := hw
    rw [show (step moduleId ⟨cf, .stored components now, collector, readers⟩ .write).2 = []
      from rfl, append_nil]
    exact h.odd hodd ⟨hodd, rfl, hall⟩ h.source
  | closing components now sequence =>
    obtain ⟨hodd, hseq, hall⟩ := hw
    obtain rfl : sequence = cf.sequence := hseq
    exact h.close hodd hall (hquiet components now cf.sequence rfl)

theorem Inv.withCollector (h : Inv moduleId s log) (c : Collector) :
    Inv moduleId { s with collector := c } log :=
  ⟨h.writer, h.source, h.settled, h.even, h.readers, h.samples⟩

theorem Inv.clear (h : Inv moduleId s log) (hquiet : ∀ r bytes,
    (s.readers r).Holds s.cf bytes → sourceOffset < bytes.length) :
    Inv moduleId
      { s with
        cf := { s.cf with field := { s.cf.field with source := invalidModuleId } }
        collector := .idle } (log ++ [.cleared]) where
  writer := by
    have hw := h.writer
    cases hwriter : s.writer with
    | idle | opening components now sequence =>
      rw [hwriter] at hw
      exact hw
    | storing components now todo =>
      rw [hwriter] at hw
      exact ⟨hw.1, fun a ha => (hw.2 a ha).clear⟩
    | tagging components now sequence | stored components now =>
      rw [hwriter] at hw
      exact ⟨hw.1, fun a => (hw.2 a).clear⟩
    | closing components now sequence =>
      rw [hwriter] at hw
      exact ⟨hw.1, hw.2.1, fun a => (hw.2.2 a).clear⟩
  source := Or.inr rfl
  settled _ := Or.inl rfl
  even := h.even
  readers r bytes hbytes := by
    have hbefore : (s.readers r).Holds s.cf bytes := by
      cases hr : s.readers r <;> rw [hr] at hbytes <;> exact hbytes
    obtain ⟨hholds, hcopy, -⟩ := h.readers r bytes hbefore
    exact ⟨hholds.mono, hcopy, fun hle => absurd (hquiet r bytes hbefore) (Nat.not_lt.mpr hle)⟩
  samples r copy age hmem := by
    obtain ⟨hsource, hholds⟩ := h.samples r copy age (by
      rcases mem_append.mp hmem with hlog | hlast
      · exact hlog
      · exact nomatch mem_singleton.mp hlast)
    exact ⟨hsource, hholds.mono⟩

theorem Inv.collect (h : Inv moduleId s log) (hquiet : Quiet s .collect) :
    Inv moduleId (step moduleId s .collect).1 (log ++ (step moduleId s .collect).2) := by
  obtain ⟨cf, writer, collector, readers⟩ := s
  cases collector with
  | idle =>
    rw [show (step moduleId ⟨cf, writer, .idle, readers⟩ .collect).2 = [] from rfl,
      append_nil]
    exact h
  | valid now maxAgeUs =>
    rw [show (step moduleId ⟨cf, writer, .valid now maxAgeUs, readers⟩ .collect).2 = [] from rfl,
      append_nil]
    exact h.withCollector _
  | tooOld => exact h.clear (hquiet rfl)

theorem Inv.withReader (h : Inv moduleId s log) {reader : Reader} (heven : reader.Even)
    (hreader : ReaderKnows moduleId s.cf log reader)
    (houts : ∀ r' copy age, .sampled r' copy age ∈ outs → copy.source = moduleId ∧ Holds log copy) :
    Inv moduleId { s with readers := update s.readers r reader } (log ++ outs) where
  writer := h.writer
  source := h.source
  settled hev := (h.settled hev).imp_right Holds.mono
  even r' := by
    show (update s.readers r reader r').Even
    rw [update_apply]
    split_ifs
    · exact heven
    · exact h.even r'
  readers r' := by
    show ReaderKnows moduleId s.cf _ (update s.readers r reader r')
    rw [update_apply]
    split_ifs
    · exact hreader.mono
    · exact (h.readers r').mono
  samples r' copy age hmem := by
    obtain ⟨hsource, hholds⟩ : copy.source = moduleId ∧ Holds log copy := by
      rcases mem_append.mp hmem with hlog | hout
      · exact h.samples r' copy age hlog
      · exact houts r' copy age hout
    exact ⟨hsource, hholds.mono⟩

theorem Inv.giveUp (h : Inv moduleId s log) (r : Fin n)
    (houts : ∀ r' copy age, .sampled r' copy age ∉ outs) :
    Inv moduleId { s with readers := update s.readers r .idle } (log ++ outs) :=
  h.withReader trivial (fun _ hbytes => hbytes.elim) fun r' copy age hmem =>
    absurd hmem (houts r' copy age)

theorem Inv.goOn (h : Inv moduleId s log) {reader : Reader} (heven : reader.Even)
    (hreader : ReaderKnows moduleId s.cf log reader) :
    Inv moduleId { s with readers := update s.readers r reader } (log ++ []) :=
  h.withReader heven hreader nofun

theorem Inv.copyByte (h : Inv moduleId s log) {age : TimeUs}
    (hr : s.readers r = .copying seqBefore age bytes) (hlt : bytes.length < layout.size) :
    ReaderKnows moduleId s.cf log
      (.copying seqBefore age (bytes ++ [(layout.encode s.cf.field).getD bytes.length 0])) := by
  rintro _ ⟨hseq, rfl⟩
  obtain ⟨hholds, hcopy, hsource⟩ := h.readers r bytes (by
    rw [hr]
    exact ⟨hseq, rfl⟩)
  have hlen : (bytes ++ [(layout.encode s.cf.field).getD bytes.length 0]).length =
      bytes.length + 1 := length_append
  refine ⟨hholds, ?_, fun hle => hsource (by omega)⟩
  rw [hlen, take_succ_getD (by rw [Packed.length_encode]; exact hlt), ← hcopy,
    getD_encode_whole hlt hsource]

/-- **A whole copy.** The sequence number has not changed. -/
theorem Inv.copied (h : Inv moduleId s log) {age : TimeUs}
    (hr : s.readers r = .copying seqBefore age bytes) (hge : ¬ bytes.length < layout.size)
    (hseq : s.cf.sequence = seqBefore) :
    (layout.decode bytes).source = moduleId ∧ Holds log (layout.decode bytes) := by
  obtain ⟨hholds, hcopy, -⟩ := h.readers r bytes (by
    rw [hr]
    exact ⟨hseq.symm, rfl⟩)
  have hwhole : layout.decode bytes = whole moduleId s.cf.field := by
    rw [hcopy, take_of_length_le (by rw [Packed.length_encode]; exact Nat.le_of_not_lt hge),
      layout.decode_encode]
  rw [hwhole]
  exact ⟨rfl, hholds⟩

theorem Inv.read (h : Inv moduleId s log) (r : Fin n) :
    Inv moduleId (step moduleId s (.read r)).1 (log ++ (step moduleId s (.read r)).2) := by
  have heven := h.even r
  show Inv moduleId
    { s with readers := update s.readers r (Seqlock.read r s.cf (s.readers r)).1 }
    (log ++ (Seqlock.read r s.cf (s.readers r)).2)
  cases hr : s.readers r with
  | idle => exact h.goOn trivial fun _ hbytes => hbytes.elim
  | loaded now seqBefore =>
    rw [hr] at heven
    unfold Seqlock.read
    split_ifs with hsource
    · exact h.giveUp r (by simp)
    · refine h.goOn heven ?_
      rintro _ ⟨hseq, rfl, -⟩
      rw [show seqBefore = s.cf.sequence from hseq] at heven
      exact ⟨(h.settled heven).resolve_left hsource, rfl, fun _ => h.source.resolve_right hsource⟩
  | checked now seqBefore =>
    rw [hr] at heven
    unfold Seqlock.read
    dsimp only
    split_ifs with hage
    · exact h.giveUp r (by simp)
    · refine h.goOn heven ?_
      rintro _ ⟨hseq, rfl⟩
      exact h.readers r [] (by
        rw [hr]
        exact ⟨hseq, rfl, hage⟩)
  | copying seqBefore age bytes =>
    rw [hr] at heven
    unfold Seqlock.read
    dsimp only
    split_ifs with hlt hseq
    · exact h.goOn heven (h.copyByte hr hlt)
    · exact h.giveUp r (by simp)
    · refine h.withReader trivial (fun _ hbytes => hbytes.elim) fun r' copy age' hmem => ?_
      obtain ⟨-, rfl, -⟩ := Out.sampled.inj (mem_singleton.mp hmem)
      exact h.copied hr hlt (not_not.mp hseq)

/-- **A quiet step.** -/
theorem Inv.step (h : Inv moduleId s log) {e : Event n} (hquiet : Quiet s e) :
    Inv moduleId (step moduleId s e).1 (log ++ (step moduleId s e).2) := by
  have hstay : Inv moduleId s (log ++ []) := by
    rw [append_nil]
    exact h
  cases e with
  | publish components now =>
    unfold Seqlock.step
    dsimp only
    split
    next hidle =>
      rw [append_nil]
      have hw := h.writer
      rw [hidle] at hw
      exact ⟨⟨hw, rfl⟩, h.source, h.settled, h.even, h.readers, h.samples⟩
    next => exact hstay
  | write => exact h.write hquiet
  | gc now maxAgeUs =>
    unfold Seqlock.step
    dsimp only
    split
    next =>
      rw [append_nil]
      exact h.withCollector _
    next => exact hstay
  | collect => exact h.collect hquiet
  | sample r now =>
    unfold Seqlock.step
    dsimp only
    split
    next hidle =>
      split_ifs with hodd
      · have hgive : Inv moduleId _ (log ++ [.busy r]) := h.giveUp r (by simp)
        rw [← hidle, update_eq_self] at hgive
        exact hgive
      · refine h.goOn ?_ fun _ hbytes => hbytes.elim
        exact even_of_not_odd hodd
    next => exact hstay
  | read r => exact h.read r

theorem inv_initial (n : Nat) (moduleId : ModuleId) : Inv moduleId (initial n) [] :=
  ⟨(by decide : (0 : UInt32) % 2 = 0), Or.inr rfl, fun _ => Or.inl rfl, fun _ => trivial,
    fun _ _ hbytes => hbytes.elim, nofun⟩

/-! ## runs -/

/-- **No torn reads.** Every copy that a reader is given is what one call has published. -/
def Untorn (n : Nat) (moduleId : ModuleId) (es : List (Event n)) : Prop :=
  ∀ r copy age, .sampled r copy age ∈ (seqlock n moduleId).trace es →
    copy.source = moduleId ∧ ∃ components now,
      .published components now ∈ (seqlock n moduleId).trace es ∧
      copy.components = components ∧ copy.timestamp = now

def QuietRun (n : Nat) (moduleId : ModuleId) : List (Event n) → Prop :=
  EveryStep fun pre e => Quiet ((seqlock n moduleId).run pre) e

theorem inv_run (es : List (Event n)) (h : QuietRun n moduleId es) :
    Inv moduleId ((seqlock n moduleId).run es) ((seqlock n moduleId).trace es) := by
  refine Runs.history_induction (I := fun es => Inv moduleId ((seqlock n moduleId).run es)
    ((seqlock n moduleId).trace es)) (inv_initial n moduleId) (fun es e ih hquiet => ?_) es h
  rw [Machine.run_concat, Machine.trace_concat]
  exact ih.step hquiet

/-- **Main.** In every run of one publisher, the garbage collector and any number of readers whose
steps are all quiet, no sample is torn. -/
theorem untorn (n : Nat) (moduleId : ModuleId) (es : List (Event n))
    (h : QuietRun n moduleId es) : Untorn n moduleId es := by
  intro r copy age hmem
  obtain ⟨hsource, components, now, hlog, hc, ht⟩ := (inv_run es h).samples r copy age hmem
  exact ⟨hsource, components, now, hlog, hc, ht⟩

/-! ## a clear that is not quiet -/

def Event.isReaders : Event n → Bool
  | .sample _ _ | .read _ => true
  | _ => false

theorem quiet_of_isReaders (s : State n) {e : Event n} (he : e.isReaders = true) : Quiet s e := by
  cases e with
  | sample r now => trivial
  | read r => trivial
  | publish components now => trivial
  | gc now maxAgeUs => trivial
  | write => exact nomatch he
  | collect => exact nomatch he

theorem quiet_of_idle {s : State n} (hidle : ∀ r, s.readers r = .idle) (e : Event n) :
    Quiet s e := by
  have hnone (r : Fin n) (cf : CoordField) (bytes : List UInt8) :
      ¬ (s.readers r).Holds cf bytes := by
    rw [hidle r]
    exact id
  cases e with
  | write => exact fun _ _ _ _ r bytes => hnone r _ bytes
  | collect => exact fun _ r bytes hbytes => absurd hbytes (hnone r _ bytes)
  | publish components now => trivial
  | gc now maxAgeUs => trivial
  | sample r now => trivial
  | read r => trivial

def publishThenSample : List (Event 1) :=
  .publish (Vector.replicate 6 7) 5 :: List.replicate 13 .write ++
    .sample 0 6 :: List.replicate 37 (.read 0)

theorem quiet_publishThenSample : QuietRun 1 1 publishThenSample := by
  refine (Runs.everyStep_iff _ _).mpr fun k => ?_
  have hk : (publishThenSample.get k).isReaders = true ∨
      ∀ r, ((seqlock 1 1).run (publishThenSample.take k)).readers r = .idle := by
    revert k
    decide +kernel
  exact hk.elim (quiet_of_isReaders _) fun hidle => quiet_of_idle hidle _

/-- a sample that succeeds -/
theorem untorn_publishThenSample : Untorn 1 1 publishThenSample ∧
    .sampled 0 ⟨Vector.replicate 6 7, 5, 1, 1⟩ 1 ∈ (seqlock 1 1).trace publishThenSample :=
  ⟨untorn 1 1 _ quiet_publishThenSample, by decide +kernel⟩

/-- a publication; a reader finds it valid, the garbage collector clears it, and the reader copies
what is left -/
def clearThenCopy : List (Event 1) :=
  .publish (Vector.replicate 6 7) 5 :: List.replicate 13 .write ++
    [.sample 0 6, .read 0, .read 0, .gc 7 1, .collect, .collect] ++ List.replicate 35 (.read 0)

/-- the copy has the invalid source -/
theorem torn_clearThenCopy : ¬ Untorn 1 1 clearThenCopy := by
  intro h
  have hmem : .sampled 0 ⟨Vector.replicate 6 7, 5, 0, 1⟩ 1 ∈ (seqlock 1 1).trace clearThenCopy := by
    decide +kernel
  exact absurd (h 0 _ 1 hmem).1 (by decide)

end Seqlock
end EkKor
