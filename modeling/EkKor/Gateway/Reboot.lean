import EkKor.Gateway.Run

/-!
# The flash log across power cycles

The headers in flash never count entries, so that a start goes on at the first slot behind the
header of the newest sector.

* `Marked`            the headers in flash count no entries, and their sectors are in use;
* `scan_marked`, `cycle_eq`   what a start finds then;
* `Stale`             a power cycle came after an append;
* `Sound`             the invariant of the runs without an append on a stale log;
* `survives_iff`      the log survives exactly these runs.
-/

namespace EkKor
namespace Gateway
open Runs Function
open List hiding Vector

/-! ## headers -/

def headerAt (flash : Flash) (base : UInt32) (sector : Nat) : SectorHeader :=
  SectorHeader.layout.decode (flash.read (base + slotOffset sector 0))

def InUse (flash : Flash) (base : UInt32) (sector : Nat) : Prop :=
  flash.slot (base + slotOffset sector 1) ≠ none

/-- what is true of the headers in flash -/
structure Marked (flash : Flash) (base : UInt32) : Prop where
  empty : ∀ sector < maxSectors, (headerAt flash base sector).magic = sectorMagic →
    (headerAt flash base sector).entryCount = 0
  inUse : ∀ sector < maxSectors, (headerAt flash base sector).magic = sectorMagic →
    InUse flash base sector

theorem magic_erased (base : UInt32) (sector : Nat) :
    (headerAt Flash.erased base sector).magic ≠ sectorMagic := by
  show (SectorHeader.layout.decode (List.replicate 64 0xFF)).magic ≠ sectorMagic
  decide

theorem marked_erased (base : UInt32) : Marked Flash.erased base :=
  ⟨fun sector _ h => absurd h (magic_erased base sector),
    fun sector _ h => absurd h (magic_erased base sector)⟩

theorem headerAt_congr {flash flash' : Flash} {base : UInt32} {sector : Nat}
    (h : flash'.slot (base + slotOffset sector 0) = flash.slot (base + slotOffset sector 0)) :
    headerAt flash' base sector = headerAt flash base sector := by
  unfold headerAt Flash.read
  rw [h]

section
variable {s s₁ s' : Store} {live : List (UInt32 × FlashEntry)} {e : FlashEntry} {offset : UInt32}
  {outs : List HalOp} {sector : Nat}

theorem Stores.header (h : Stores s s₁ s' live e offset outs) (hcount : s.log.sectorCount ≤ maxSectors)
    (hs : sector < maxSectors) :
    headerAt s'.flash s.log.baseAddress sector = headerAt s₁.flash s.log.baseAddress sector := by
  refine headerAt_congr ?_
  rw [h.flash, update_of_ne]
  intro he
  have hoffset : slotOffset sector 0 = slotOffset s₁.log.currentSector s₁.log.sectorWritePos := by
    rw [← h.place]
    grind
  have hpos := (slotOffset_inj hs (by decide) (Nat.lt_of_lt_of_le h.inside hcount) h.room
    hoffset).2
  have hentry := h.entry
  rw [← hpos] at hentry
  exact absurd hentry (by decide)

theorem Stores.inUse_of (h : Stores s s₁ s' live e offset outs)
    (hs : InUse s₁.flash s.log.baseAddress sector ∨
      s₁.log.currentSector = sector ∧ s₁.log.sectorWritePos = 1) :
    InUse s'.flash s.log.baseAddress sector := by
  unfold InUse
  rw [h.flash]
  by_cases he : s.log.baseAddress + slotOffset sector 1 = s.log.baseAddress + offset
  · rw [he, update_self]
    exact Option.some_ne_none _
  · rw [update_of_ne he]
    cases hs with
    | inl hs => exact hs
    | inr hs =>
      rw [h.place, hs.1, hs.2] at he
      exact absurd rfl he

theorem Stores.inUse (h : Stores s s₁ s' live e offset outs) (hs : sector < maxSectors)
    (huse : InUse s.flash s.log.baseAddress sector) :
    InUse s'.flash s.log.baseAddress sector := by
  refine h.inUse_of ?_
  cases h.made with
  | inl hsame =>
    rw [hsame.1]
    exact .inl huse
  | inr hnew =>
    obtain ⟨next, header, hn, _, hslot, hcurrent, hpos⟩ := hnew.2.1
    by_cases hne : sector = next
    · exact .inr ⟨hcurrent.trans hne.symm, hpos⟩
    · unfold InUse
      rw [slot_of_other hn hs (by decide) hne hslot]
      exact .inl huse

theorem Stores.marked (h : Stores s s₁ s' live e offset outs)
    (hcount : s.log.sectorCount ≤ maxSectors) (hm : Marked s.flash s.log.baseAddress) :
    Marked s'.flash s.log.baseAddress := by
  have hcases : ∀ sector < maxSectors,
      (headerAt s'.flash s.log.baseAddress sector).entryCount = 0 ∧
        InUse s'.flash s.log.baseAddress sector ∨
      headerAt s'.flash s.log.baseAddress sector = headerAt s.flash s.log.baseAddress sector := by
    intro sector hs
    rw [h.header hcount hs]
    cases h.made with
    | inl hsame =>
      rw [hsame.1]
      exact .inr rfl
    | inr hnew =>
      obtain ⟨next, header, hn, hzero, hslot, hcurrent, hpos⟩ := hnew.2.1
      by_cases hne : sector = next
      · refine .inl ⟨?_, h.inUse_of (.inr ⟨hcurrent.trans hne.symm, hpos⟩)⟩
        unfold headerAt Flash.read
        rw [hne, hslot, ← sectorAddress_eq s.log hn, update_self, Option.getD_some,
          SectorHeader.layout.decode_encode]
        exact hzero
      · exact .inr (headerAt_congr (slot_of_other hn hs (by decide) hne hslot))
  constructor
  · intro sector hs hmagic
    cases hcases sector hs with
    | inl hnew => exact hnew.1
    | inr hsame =>
      rw [hsame] at hmagic ⊢
      exact hm.empty sector hs hmagic
  · intro sector hs hmagic
    cases hcases sector hs with
    | inl hnew => exact hnew.2
    | inr hsame =>
      rw [hsame] at hmagic
      exact h.inUse hs (hm.inUse sector hs hmagic)

end

/-! ## a start -/

theorem emptyLog_sectorCount (base : UInt32) :
    (emptyLog base flashLogCapacity).sectorCount = maxSectors := by
  show min maxSectors (flashLogCapacity / entriesPerSector).toNat = maxSectors
  decide

theorem scan_marked {flash : Flash} {base : UInt32} (h : Marked flash base) :
    let scan := scanSectors flash (emptyLog base flashLogCapacity)
    (∀ i, scan.entryCounts i = 0) ∧ scan.newestSector < maxSectors ∧
      (scan.newestSector = 0 ∨ (headerAt flash base scan.newestSector).magic = sectorMagic) := by
  have hfold (l : List Nat) (hl : ∀ i ∈ l, i < maxSectors) (scan : Scan)
      (hscan : (∀ i, scan.entryCounts i = 0) ∧ scan.newestSector < maxSectors ∧
        (scan.newestSector = 0 ∨ (headerAt flash base scan.newestSector).magic = sectorMagic)) :
      let scan' := l.foldl (scanSector flash (emptyLog base flashLogCapacity)) scan
      (∀ i, scan'.entryCounts i = 0) ∧ scan'.newestSector < maxSectors ∧
        (scan'.newestSector = 0 ∨ (headerAt flash base scan'.newestSector).magic = sectorMagic) := by
    induction l generalizing scan with
    | nil => exact hscan
    | cons i l ih =>
      have hi := hl i mem_cons_self
      refine ih (fun j hj => hl j (mem_cons_of_mem i hj)) _ ?_
      have hheader : SectorHeader.layout.decode
          (flash.read (sectorAddress (emptyLog base flashLogCapacity) i)) =
            headerAt flash base i := by
        rw [sectorAddress_eq _ hi]
        rfl
      unfold scanSector
      rw [hheader]
      dsimp only
      by_cases hmagic : (headerAt flash base i).magic = sectorMagic
      · rw [if_pos hmagic]
        refine ⟨fun j => ?_, ?_, ?_⟩
        · show update scan.entryCounts i (headerAt flash base i).entryCount j = 0
          rw [h.empty i hi hmagic]
          by_cases hj : j = i
          · rw [hj, update_self]
          · rw [update_of_ne hj]
            exact hscan.1 j
        · split_ifs
          · exact hi
          · exact hscan.2.1
        · split_ifs
          · exact .inr hmagic
          · exact hscan.2.2
      · rw [if_neg hmagic]
        exact hscan
  unfold scanSectors
  rw [emptyLog_sectorCount]
  exact hfold _ (fun i hi => mem_range.mp hi) _ ⟨fun _ => rfl, by decide, .inl rfl⟩

theorem cycle_eq {flash : Flash} {base : UInt32} (h : Marked flash base) (boot : Boot) :
    ∃ gw, gatewayStart flash boot.gatewayId base boot.capacity boot.time = (gw, []) ∧
      gw.store.flash = flash ∧ gw.store.log.baseAddress = base ∧
      gw.store.log.sectorCount = maxSectors ∧ gw.store.log.sectorWritePos = 1 ∧
      gw.store.log.currentSector < maxSectors ∧ (gw.store.log.currentSector = 0 ∨
        (headerAt flash base gw.store.log.currentSector).magic = sectorMagic) := by
  obtain ⟨hcounts, hlt, hnewest⟩ := scan_marked h
  unfold gatewayStart flashLogInit
  dsimp only
  generalize scanSectors flash (emptyLog base flashLogCapacity) = scan at *
  have hpos : scan.entryCounts scan.newestSector + 1 = 1 := by
    rw [hcounts]
    rfl
  have hroom : ¬ scan.entryCounts scan.newestSector + 1 ≥ entriesPerSector := by
    rw [hpos]
    decide
  rw [if_neg (show ¬ (recoveredLog (emptyLog base flashLogCapacity) scan).sectorWritePos ≥
    entriesPerSector from hroom)]
  refine ⟨_, rfl, rfl, rfl, emptyLog_sectorCount base, hpos, ?_, ?_⟩
  · exact hlt
  · exact hnewest

/-! ## histories -/

def Op.isAppend : Op → Bool
  | .append _ => true
  | .powerCycle _ => false

def Appended (ops : List Op) : Prop := ∃ op ∈ ops, op.isAppend = true

def Stale (ops : List Op) : Prop :=
  ∃ first second, ops = first ++ second ∧ Appended first ∧ ∃ op ∈ second, op.isAppend = false

theorem appended_concat (ops : List Op) (op : Op) :
    Appended (ops ++ [op]) ↔ Appended ops ∨ op.isAppend = true := by
  constructor
  · rintro ⟨o, ho, happend⟩
    cases mem_append.mp ho with
    | inl ho => exact .inl ⟨o, ho, happend⟩
    | inr ho =>
      obtain rfl := mem_singleton.mp ho
      exact .inr happend
  · rintro (⟨o, ho, happend⟩ | happend)
    · exact ⟨o, mem_append_left _ ho, happend⟩
    · exact ⟨op, mem_concat_self, happend⟩

theorem Stale.appended {ops : List Op} (h : Stale ops) : Appended ops := by
  obtain ⟨first, second, rfl, ⟨op, hop, happend⟩, _⟩ := h
  exact ⟨op, mem_append_left _ hop, happend⟩

theorem stale_concat (ops : List Op) (op : Op) :
    Stale (ops ++ [op]) ↔ Stale ops ∨ Appended ops ∧ op.isAppend = false := by
  constructor
  · rintro ⟨first, second, heq, hfirst, o, ho, hcycle⟩
    obtain ⟨second, last, rfl⟩ :=
      eq_nil_or_concat' second |>.resolve_left (ne_nil_of_mem ho)
    rw [← append_assoc] at heq
    obtain ⟨rfl, hlast⟩ := append_inj' heq rfl
    obtain rfl := singleton_inj.mp hlast
    cases mem_append.mp ho with
    | inl ho => exact .inl ⟨first, second, rfl, hfirst, o, ho, hcycle⟩
    | inr ho =>
      obtain rfl := mem_singleton.mp ho
      obtain ⟨o', ho', happend⟩ := hfirst
      exact .inr ⟨⟨o', mem_append_left _ ho', happend⟩, hcycle⟩
  · rintro (⟨first, second, rfl, hfirst, o, ho, hcycle⟩ | ⟨hops, hcycle⟩)
    · exact ⟨first, second ++ [op], append_assoc .., hfirst, o, mem_append_left _ ho,
        hcycle⟩
    · exact ⟨ops, [op], rfl, hops, op, mem_singleton_self op, hcycle⟩

/-! ## the invariant -/

/-- the gateway and the live entries after a history without an append on a stale log -/
structure Sound (base : UInt32) (gw : GatewayState) (live : List (UInt32 × FlashEntry))
    (ops : List Op) : Prop where
  address : gw.store.log.baseAddress = base
  count : gw.store.log.sectorCount = maxSectors
  marked : Marked gw.store.flash base
  stored : ∀ l ∈ live, flashEntryVerify l.2 = true ∧
    gw.store.flash.slot (base + l.1) = some (FlashEntry.layout.encode l.2)
  /-- before the first append -/
  fresh : ¬ Appended ops → gw.store.flash = Flash.erased ∧ live = [] ∧
    gw.store.log.currentSector = 0 ∧ gw.store.log.sectorWritePos = 1
  /-- from the first append on -/
  first : Appended ops → InUse gw.store.flash base 0
  tidy : ¬ Stale ops → Tidy gw.store live
  /-- the next slot is not erased -/
  stale : Stale ops → gw.store.log.sectorWritePos = 1 ∧
    InUse gw.store.flash base gw.store.log.currentSector

theorem stored_of_tidy {s : Store} {live : List (UInt32 × FlashEntry)} (h : Tidy s live) :
    ∀ l ∈ live, flashEntryVerify l.2 = true ∧
      s.flash.slot (s.log.baseAddress + l.1) = some (FlashEntry.layout.encode l.2) := by
  intro l hl
  obtain ⟨sector, p, hheld⟩ := h.held l hl
  exact ⟨hheld.valid, hheld.stored⟩

variable {base : UInt32} {gw : GatewayState} {live : List (UInt32 × FlashEntry)} {ops : List Op}

theorem sound_start (base : UInt32) (boot : Boot) :
    Sound base (gateway base boot).start [] [] := by
  have htidy := start_tidy base boot
  rw [start_eq] at htidy ⊢
  have hempty : ¬ Appended [] := fun ⟨op, hop, _⟩ => absurd hop not_mem_nil
  refine ⟨rfl, emptyLog_sectorCount base, marked_erased base, fun l hl => absurd hl not_mem_nil,
    fun _ => ⟨rfl, rfl, rfl, rfl⟩, fun h => absurd h hempty, fun _ => htidy, ?_⟩
  rintro ⟨first, second, heq, ⟨op, hop, _⟩, _⟩
  rw [(append_eq_nil_iff.mp heq.symm).1] at hop
  exact absurd hop not_mem_nil

theorem Sound.read (h : Sound base gw live ops) : ∀ l ∈ live,
    flashLogRead gw.store l.1 = (.ok l.2, gw.store) := by
  intro l hl
  obtain ⟨hvalid, hslot⟩ := h.stored l hl
  rw [← h.address] at hslot
  exact read_stored hvalid hslot

theorem Sound.append (h : Sound base gw live ops) (hstale : ¬ Stale ops) (a : Append) :
    Accepted (a.written gw).outs ∧
      Sound base (gatewayAppend gw a.moduleId a.event a.time).2.1
        (liveStep base live (a.written gw)) (ops ++ [.append a]) := by
  obtain ⟨s₁, offset, store, outs, heq, hwritten, hstores⟩ := append_eq (h.tidy hstale) a
  have hbase : gw.store.takeSequence.log.baseAddress = base := h.address
  have hcount : gw.store.takeSequence.log.sectorCount = maxSectors := h.count
  have htidy := hstores.tidy
  have hmarked := hstores.marked (Nat.le_of_eq hcount)
  have hstored := stored_of_tidy htidy
  have hinUse (sector : Nat) (hs : sector < maxSectors) := hstores.inUse hs
  rw [hstores.frame.base] at hstored
  rw [hbase] at htidy hmarked hstored hinUse
  rw [heq, hwritten]
  have happended : Appended (ops ++ [.append a]) := (appended_concat ops _).mpr (.inr rfl)
  refine ⟨hstores.accepted, hstores.frame.base.trans hbase, hstores.frame.count.trans hcount,
    hmarked h.marked, hstored, fun hn => absurd happended hn, fun _ => ?_, fun _ => htidy,
    fun hs => ?_⟩
  · by_cases hops : Appended ops
    · exact hinUse 0 (by decide) (h.first hops)
    · obtain ⟨_, _, hcurrent, hpos⟩ := h.fresh hops
      have hsame := hstores.made.resolve_right fun hnew => by
        have hfull : gw.store.log.sectorWritePos ≥ entriesPerSector := hnew.1
        rw [hpos] at hfull
        exact absurd hfull (by decide)
      have huse : InUse store.flash gw.store.takeSequence.log.baseAddress 0 :=
        hstores.inUse_of (.inr (hsame.1 ▸ ⟨hcurrent, hpos⟩))
      rw [hbase] at huse
      exact huse
  · cases (stale_concat ops _).mp hs with
    | inl hs => exact absurd hs hstale
    | inr hs => cases hs.2

theorem Sound.powerCycle (h : Sound base gw live ops) (boot : Boot) :
    (gatewayStart gw.store.flash boot.gatewayId base boot.capacity boot.time).2 = [] ∧
      (gatewayStart gw.store.flash boot.gatewayId base boot.capacity boot.time).1.store.flash =
        gw.store.flash ∧
      Sound base (gatewayStart gw.store.flash boot.gatewayId base boot.capacity boot.time).1 live
        (ops ++ [.powerCycle boot]) := by
  obtain ⟨gw', heq, hflash, hbase, hcount, hpos, hlt, hcurrent⟩ := cycle_eq h.marked boot
  have hsame : Appended (ops ++ [.powerCycle boot]) ↔ Appended ops :=
    (appended_concat ops _).trans ⟨fun h => h.resolve_right Bool.false_ne_true, .inl⟩
  rw [heq]
  refine ⟨rfl, hflash, hbase, hcount, hflash ▸ h.marked, hflash ▸ h.stored, fun hn => ?_,
    fun ha => hflash ▸ h.first (hsame.mp ha), fun hs => ?_, fun hs => ⟨hpos, ?_⟩⟩
  · obtain ⟨herased, hlive, _⟩ := h.fresh fun ha => hn (hsame.mpr ha)
    rw [herased] at hcurrent
    exact ⟨hflash.trans herased, hlive, hcurrent.resolve_right (magic_erased base _), hpos⟩
  · have hn : ¬ Appended ops := fun ha => hs ((stale_concat ops _).mpr (.inr ⟨ha, rfl⟩))
    obtain ⟨herased, hlive, _⟩ := h.fresh hn
    have hstart : (gateway base boot).start = gw' := by
      show (gatewayStart Flash.erased boot.gatewayId base boot.capacity boot.time).1 = gw'
      rw [← herased, heq]
    rw [hlive, ← hstart]
    exact start_tidy base boot
  · rw [hflash]
    cases hcurrent with
    | inl hzero =>
      rw [hzero]
      exact h.first (hsame.mp hs.appended)
    | inr hmagic => exact h.marked.inUse _ hlt hmagic

theorem Sound.refused (h : Sound base gw live ops) (hstale : Stale ops) (a : Append) :
    ¬ Accepted (a.written gw).outs := by
  obtain ⟨hpos, huse⟩ := h.stale hstale
  obtain ⟨bytes, hbytes⟩ := Option.ne_none_iff_exists'.mp huse
  rw [← hpos, ← h.address] at hbytes
  have hwrite : flashLogWrite gw.store.takeSequence (a.entry gw) a.time = (none,
      ⟨gw.store.flash, gw.store.takeSequence.log⟩, [] ++ [.program (gw.store.log.baseAddress +
        slotOffset gw.store.log.currentSector gw.store.log.sectorWritePos) false]) := by
    have hroom : ¬ gw.store.takeSequence.log.sectorWritePos ≥ entriesPerSector := by
      show ¬ gw.store.log.sectorWritePos ≥ entriesPerSector
      rw [hpos]
      decide
    unfold flashLogWrite Flash.write
    rw [if_neg hroom]
    dsimp only
    rw [show gw.store.takeSequence.flash.slot (gw.store.takeSequence.log.baseAddress +
      slotOffset gw.store.takeSequence.log.currentSector
        gw.store.takeSequence.log.sectorWritePos) = some bytes from hbytes]
    rfl
  unfold Append.written
  rw [hwrite]
  intro hok
  exact hok _ mem_cons_self

/-! ## the runs -/

def Allowed (pre : List Op) (op : Op) : Prop := op.isAppend = true → ¬ Stale pre

/-- what is promised of a step after `pre` -/
structure StepOk (base : UInt32) (boot : Boot) (pre : List Op) (op : Op) : Prop where
  /-- no write meets a slot that is not erased -/
  accepted : ∀ w ∈ (gateway base boot).outs ((gateway base boot).run pre) op, Accepted w.outs
  /-- a number assigned after a power cycle is above the numbers stored before it -/
  above : op.isAppend = true → ∀ first second, pre = first ++ second →
    (∃ o ∈ second, o.isAppend = false) →
    ∀ l ∈ liveEntries base ((gateway base boot).trace first),
      l.2.globalSeq < ((gateway base boot).run pre).store.log.globalSequence
  /-- a power cycle loses no entry -/
  kept : op.isAppend = false → ∀ l ∈ liveEntries base ((gateway base boot).trace pre),
    (flashLogRead ((gateway base boot).next ((gateway base boot).run pre) op).store l.1).1 = .ok l.2

def Survives (base : UInt32) (boot : Boot) (ops : List Op) : Prop :=
  EveryStep (StepOk base boot) ops

theorem sound_step (boot₀ : Boot) (h : Sound base gw live ops) (op : Op) (hop : Allowed ops op) :
    (∀ w ∈ (gateway base boot₀).outs gw op, Accepted w.outs) ∧
      Sound base ((gateway base boot₀).next gw op)
        (((gateway base boot₀).outs gw op).foldl (liveStep base) live) (ops ++ [op]) := by
  cases op with
  | append a =>
    obtain ⟨hok, hnext⟩ := h.append (hop rfl) a
    exact ⟨fun w hw => mem_singleton.mp hw ▸ hok, hnext⟩
  | powerCycle boot =>
    obtain ⟨houts, _, hnext⟩ := h.powerCycle boot
    rw [next_powerCycle, outs_powerCycle, houts]
    have hlive : [Written.mk none []].foldl (liveStep base) live = live :=
      (append_nil _).trans (filter_eq_self.mpr fun _ _ => rfl)
    rw [hlive]
    refine ⟨fun w hw => ?_, hnext⟩
    rw [mem_singleton.mp hw]
    exact fun _ => not_mem_nil

theorem sound_run (base : UInt32) (boot : Boot) (ops : List Op) (h : EveryStep Allowed ops) :
    Sound base ((gateway base boot).run ops) (liveEntries base ((gateway base boot).trace ops))
      ops := by
  refine history_induction (I := fun ops => Sound base ((gateway base boot).run ops)
    (liveEntries base ((gateway base boot).trace ops)) ops) (sound_start base boot)
    (fun ops op ih hop => ?_) ops h
  rw [Machine.run_concat, Machine.trace_concat, liveEntries, foldl_append]
  exact (sound_step boot ih op hop).2

theorem stepOk_of_allowed (base : UInt32) (boot : Boot) {pre : List Op} {op : Op}
    (hpre : EveryStep Allowed pre) (hop : Allowed pre op) : StepOk base boot pre op := by
  have hsound := sound_run base boot pre hpre
  constructor
  · exact (sound_step boot hsound op hop).1
  · intro happend first second heq hcycle l hl
    have hfirst : ¬ Appended first := fun ha => hop happend ⟨first, second, heq, ha, hcycle⟩
    have hlive := (sound_run base boot first (hpre.initial ⟨second, heq.symm⟩)).fresh hfirst
    rw [hlive.2.1] at hl
    exact absurd hl not_mem_nil
  · intro hcycle l hl
    cases op with
    | append a => cases hcycle
    | powerCycle boot' =>
      obtain ⟨_, _, hnext⟩ := hsound.powerCycle boot'
      rw [next_powerCycle, hnext.read l hl]

theorem not_stale_nil : ¬ Stale [] := by
  intro h
  obtain ⟨op, hop, _⟩ := h.appended
  exact absurd hop not_mem_nil

theorem allowed_of_stepOk {base : UInt32} {boot : Boot} {pre : List Op} {op : Op}
    (hpre : EveryStep Allowed pre) (hop : StepOk base boot pre op) : Allowed pre op := by
  intro happend hstale
  cases op with
  | powerCycle boot' => cases happend
  | append a =>
    exact (sound_run base boot pre hpre).refused hstale a (hop.accepted _ mem_cons_self)

/-- **Main.** The log survives a history of appends and power cycles exactly when nothing is
appended after a power cycle that came after an append. -/
theorem survives_iff (base : UInt32) (boot : Boot) (ops : List Op) :
    Survives base boot ops ↔ EveryStep Allowed ops := by
  constructor
  · intro h
    induction ops using List.reverseRecOn with
    | nil => exact everyStep_nil _
    | append_singleton ops op ih =>
      obtain ⟨hops, hop⟩ := (everyStep_concat _ ops op).mp h
      exact (everyStep_concat _ ops op).mpr ⟨ih hops, allowed_of_stepOk (ih hops) hop⟩
  · intro h pre op hp
    obtain ⟨hpre, hop⟩ := (everyStep_concat _ pre op).mp (h.initial hp)
    exact stepOk_of_allowed base boot hpre hop

/-- module 1 appends, the power is cycled, and module 1 appends again: the write is refused -/
theorem refused_after_powerCycle :
    let boot : Boot := ⟨1, ⟨16, by decide⟩, 0⟩
    let a : Append := ⟨1, ⟨1, 10, 0x10, 0, 1, 0, 1, Vector.replicate 20 0⟩, 0⟩
    ¬ Survives 0 boot [.append a, .powerCycle boot, .append a] := by
  intro boot a h
  have hlast : StepOk 0 boot [.append a, .powerCycle boot] (.append a) :=
    h [.append a, .powerCycle boot] (.append a) (prefix_refl _)
  have hone : EveryStep Allowed [.append a] :=
    (everyStep_concat Allowed [] (.append a)).mpr ⟨everyStep_nil _, fun _ => not_stale_nil⟩
  have htwo : EveryStep Allowed [.append a, .powerCycle boot] :=
    (everyStep_concat Allowed [.append a] (.powerCycle boot)).mpr
      ⟨hone, fun happend => by cases happend⟩
  exact allowed_of_stepOk htwo hlast rfl ⟨[.append a], [.powerCycle boot], rfl,
    ⟨_, mem_singleton_self _, rfl⟩, _, mem_singleton_self _, rfl⟩

end Gateway
end EkKor
