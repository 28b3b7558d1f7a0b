import EkKor.Gateway.Flash

/-!
# Flash read-back

Runs of the flash log on an erased flash.

* `Write`, `writer`, `liveEntries`   the calls, and the entries whose sectors were not erased since;
* `Tidy`              the invariant: every live entry is in a slot of its own before the write
                      position, and what is behind the write position is erased;
* `advance_tidy`, `write_tidy`   the two parts of a write;
* `readback_iff`      all entries can be read back exactly when there is a sector.
-/

namespace EkKor
namespace Gateway
open Runs Function
open List hiding Vector

/-! ## addresses -/

theorem slotOffset_toNat {sector : Nat} {p : UInt32} (hs : sector < maxSectors)
    (hp : p.toNat < 256) : (slotOffset sector p).toNat = (sector * 256 + p.toNat) * 64 := by
  show ((sector % 2 ^ 32 * 256 % 2 ^ 32 + p.toNat) % 2 ^ 32 * 64) % 2 ^ 32 = _
  unfold maxSectors at hs
  omega

theorem slotOffset_inj {sector sector' : Nat} {p p' : UInt32} (hs : sector < maxSectors)
    (hp : p.toNat < 256) (hs' : sector' < maxSectors) (hp' : p'.toNat < 256)
    (h : slotOffset sector p = slotOffset sector' p') : sector = sector' ∧ p = p' := by
  have hnat := congrArg UInt32.toNat h
  rw [slotOffset_toNat hs hp, slotOffset_toNat hs' hp'] at hnat
  exact ⟨by omega, UInt32.toNat_inj.mp (by omega)⟩

theorem sectorAddress_eq (log : FlashLog) {sector : Nat} (hs : sector < maxSectors) :
    sectorAddress log sector = log.baseAddress + slotOffset sector 0 := by
  unfold sectorAddress
  congr 1
  refine UInt32.toNat_inj.mp ?_
  rw [slotOffset_toNat hs (by decide), UInt32.toNat_mul, UInt32.toNat_ofNat']
  show sector % 2 ^ 32 * 16384 % 2 ^ 32 = (sector * 256 + 0) * 64
  unfold maxSectors at hs
  omega

theorem in_sector_iff (log : FlashLog) {sector sector' : Nat} {p : UInt32} (hs : sector < maxSectors)
    (hp : p.toNat < 256) (hs' : sector' < maxSectors) :
    log.baseAddress + slotOffset sector p - sectorAddress log sector' < sectorSize ↔
      sector = sector' := by
  rw [sectorAddress_eq log hs']
  have hdiff : log.baseAddress + slotOffset sector p - (log.baseAddress + slotOffset sector' 0) =
      slotOffset sector p - slotOffset sector' 0 := by grind
  rw [hdiff, UInt32.lt_iff_toNat_lt, UInt32.toNat_sub, slotOffset_toNat hs hp,
    slotOffset_toNat hs' (by decide)]
  show (2 ^ 32 - (sector' * 256 + 0) * 64 + (sector * 256 + p.toNat) * 64) % 2 ^ 32 < 16384 ↔ _
  unfold maxSectors at hs hs'
  constructor <;> intro h <;> omega

/-! ## live entries -/

def survives (base : UInt32) (outs : List HalOp) (offset : UInt32) : Bool :=
  outs.all fun out =>
    match out with
    | .erase address => !decide (base + offset - address < sectorSize)
    | .program .. => true

theorem survives_advance (base sector offset : UInt32) :
    survives base [.erase sector, .program sector true] offset =
      !decide (base + offset - sector < sectorSize) := by
  simp [survives]

/-- what a call did: the entry that it stored, with its offset, and what it did to the flash -/
structure Written where
  stored : Option (UInt32 × FlashEntry)
  outs : List HalOp

def liveStep (base : UInt32) (live : List (UInt32 × FlashEntry)) (w : Written) :
    List (UInt32 × FlashEntry) :=
  live.filter (fun l => survives base w.outs l.1) ++ w.stored.toList

theorem liveStep_program (base : UInt32) (live : List (UInt32 × FlashEntry))
    (l : UInt32 × FlashEntry) (outs : List HalOp) (address : UInt32) :
    liveStep base live ⟨some l, outs ++ [.program address true]⟩ =
      live.filter (fun l => survives base outs l.1) ++ [l] := by
  refine congrArg (· ++ [l]) (congrArg (fun f => live.filter f) (funext fun l => ?_))
  unfold survives
  rw [all_append]
  exact Bool.and_true _

def liveEntries (base : UInt32) (ws : List Written) : List (UInt32 × FlashEntry) :=
  ws.foldl (liveStep base) []

def NoErase (outs : List HalOp) : Prop := ∀ address, .erase address ∉ outs

theorem noErase_program (outs : List HalOp) (address : UInt32) (accepted : Bool) :
    NoErase (outs ++ [.program address accepted]) ↔ NoErase outs := by
  unfold NoErase
  simp

def Accepted (outs : List HalOp) : Prop := ∀ address, .program address false ∉ outs

/-! ## the invariant -/

/-- where a live entry is -/
structure Held (s : Store) (l : UInt32 × FlashEntry) (sector : Nat) (p : UInt32) : Prop where
  inside : sector < s.log.sectorCount
  entry : 1 ≤ p.toNat
  room : p.toNat < 256
  offset : l.1 = slotOffset sector p
  stored : s.flash.slot (s.log.baseAddress + l.1) = some (FlashEntry.layout.encode l.2)
  written : sector = s.log.currentSector → p.toNat < s.log.sectorWritePos.toNat
  valid : flashEntryVerify l.2 = true

/-- the live entries are in slots of their own before the write position -/
structure Tidy (s : Store) (live : List (UInt32 × FlashEntry)) : Prop where
  sectors : s.log.sectorCount ≤ maxSectors
  current : s.log.currentSector < s.log.sectorCount
  pos : 1 ≤ s.log.sectorWritePos.toNat ∧ s.log.sectorWritePos.toNat ≤ 256
  free : ∀ p : UInt32, s.log.sectorWritePos.toNat ≤ p.toNat → p.toNat < 256 →
    s.flash.slot (s.log.baseAddress + slotOffset s.log.currentSector p) = none
  held : ∀ l ∈ live, ∃ sector p, Held s l sector p
  distinct : (live.map Prod.fst).Nodup

variable {s : Store} {live : List (UInt32 × FlashEntry)}

theorem findMinEraseSector_lt (log : FlashLog) (exclude : Nat) (h : 0 < log.sectorCount) :
    findMinEraseSector log exclude < log.sectorCount := by
  have hfold (l : List Nat) (hl : ∀ i ∈ l, i < log.sectorCount) (best : UInt32 × Nat)
      (hbest : best.2 < log.sectorCount) :
      (l.foldl (minErase log exclude) best).2 < log.sectorCount := by
    induction l generalizing best with
    | nil => exact hbest
    | cons i l ih =>
      refine ih (fun j hj => hl j (mem_cons_of_mem i hj)) _ ?_
      unfold minErase
      split_ifs
      · exact hbest
      · exact hl i mem_cons_self
      · exact hbest
  exact hfold _ (fun i hi => mem_range.mp hi) _ h

theorem nextSector_lt (log : FlashLog) (h : 0 < log.sectorCount) :
    nextSector log < log.sectorCount := by
  unfold nextSector
  dsimp only
  split_ifs
  · exact findMinEraseSector_lt log _ h
  · exact Nat.mod_lt _ h

theorem Flash.write_erased {flash : Flash} {address : UInt32} (h : flash.slot address = none)
    (data : List UInt8) : flash.write address data =
      (.ok (), ⟨update flash.slot address (some data)⟩, [.program address true]) := by
  unfold Flash.write
  rw [h]

/-- what a call of the log leaves as it is -/
structure Frame (s s' : Store) : Prop where
  base : s'.log.baseAddress = s.log.baseAddress
  count : s'.log.sectorCount = s.log.sectorCount
  sequence : s'.log.globalSequence = s.log.globalSequence

/-- what `erase_and_init_sector` does -/
theorem eraseAndInit_eq (s : Store) (sector : Nat) (firstSeq time : UInt32) : ∃ s' header, eraseAndInitSector s sector firstSeq time =
      (.ok (), s', [.erase (sectorAddress s.log sector),
        .program (sectorAddress s.log sector) true]) ∧
      s'.flash.slot = update
        (s.flash.eraseSector (sectorAddress s.log sector)).1.slot (sectorAddress s.log sector)
        (some (SectorHeader.layout.encode header)) ∧
      header.entryCount = 0 ∧ Frame s s' := by
  have hself : sectorAddress s.log sector - sectorAddress s.log sector < sectorSize := by
    rw [UInt32.sub_self]
    decide
  have hfree : (s.flash.eraseSector (sectorAddress s.log sector)).1.slot
      (sectorAddress s.log sector) = none := if_pos hself
  unfold eraseAndInitSector
  simp only [sectorAddress] at hfree ⊢
  rw [Flash.write_erased hfree]
  exact ⟨_, _, rfl, rfl, rfl, rfl, rfl, rfl⟩

/-- what `advance_sector` does -/
theorem advanceSector_eq (s : Store) (time : UInt32) : ∃ s' header, advanceSector s time =
      (.ok (), s', [.erase (sectorAddress s.log (nextSector s.log)),
        .program (sectorAddress s.log (nextSector s.log)) true]) ∧
      s'.flash.slot = update
        (s.flash.eraseSector (sectorAddress s.log (nextSector s.log))).1.slot
        (sectorAddress s.log (nextSector s.log)) (some (SectorHeader.layout.encode header)) ∧
      header.entryCount = 0 ∧ Frame s s' ∧
      s'.log.currentSector = nextSector s.log ∧ s'.log.sectorWritePos = 1 := by
  obtain ⟨s', header, heq, hslot, hcount, hframe⟩ :=
    eraseAndInit_eq s (nextSector s.log) s.log.globalSequence time
  unfold advanceSector
  dsimp only
  rw [heq]
  exact ⟨_, header, rfl, hslot, hcount, ⟨hframe.base, hframe.count, hframe.sequence⟩, rfl, rfl⟩

section
variable {flash flash' : Flash} {log : FlashLog} {next sector : Nat} {p : UInt32}
  {header : List UInt8}

theorem slot_of_other (hn : next < maxSectors) (hs : sector < maxSectors) (hp : p.toNat < 256)
    (hne : sector ≠ next)
    (h : flash'.slot = update (flash.eraseSector (sectorAddress log next)).1.slot
      (sectorAddress log next) (some header)) :
    flash'.slot (log.baseAddress + slotOffset sector p) =
      flash.slot (log.baseAddress + slotOffset sector p) := by
  have haddress : log.baseAddress + slotOffset sector p ≠ sectorAddress log next := by
    intro he
    rw [sectorAddress_eq log hn] at he
    have hoffset : slotOffset sector p = slotOffset next 0 := by grind
    exact hne (slotOffset_inj hs hp hn (by decide) hoffset).1
  rw [h, update_of_ne haddress]
  exact if_neg fun hin => hne ((in_sector_iff log hs hp hn).mp hin)

theorem slot_of_next (hn : next < maxSectors) (h1 : 1 ≤ p.toNat) (hp : p.toNat < 256)
    (h : flash'.slot = update (flash.eraseSector (sectorAddress log next)).1.slot
      (sectorAddress log next) (some header)) :
    flash'.slot (log.baseAddress + slotOffset next p) = none := by
  have haddress : log.baseAddress + slotOffset next p ≠ sectorAddress log next := by
    intro he
    rw [sectorAddress_eq log hn] at he
    have hoffset : slotOffset next p = slotOffset next 0 := by grind
    rw [(slotOffset_inj hn hp hn (by decide) hoffset).2] at h1
    exact absurd h1 (by decide)
  rw [h, update_of_ne haddress]
  exact if_pos ((in_sector_iff log hn hp hn).mpr rfl)

end

def Renewed (s s' : Store) : Prop :=
  ∃ next header, next < maxSectors ∧ header.entryCount = 0 ∧
    s'.flash.slot = update (s.flash.eraseSector (sectorAddress s.log next)).1.slot
      (sectorAddress s.log next) (some (SectorHeader.layout.encode header)) ∧
    s'.log.currentSector = next ∧ s'.log.sectorWritePos = 1

theorem advance_tidy (h : Tidy s live) (time : UInt32) : ∃ s', advanceSector s time =
      (.ok (), s', [.erase (sectorAddress s.log (nextSector s.log)),
        .program (sectorAddress s.log (nextSector s.log)) true]) ∧
      Tidy s' (live.filter fun l => survives s.log.baseAddress
        [.erase (sectorAddress s.log (nextSector s.log)),
          .program (sectorAddress s.log (nextSector s.log)) true] l.1) ∧
      Renewed s s' ∧ Frame s s' := by
  obtain ⟨s', header, heq, hslot, hcount, hframe, hcurrent, hpos⟩ := advanceSector_eq s time
  have hnext : nextSector s.log < s.log.sectorCount :=
    nextSector_lt s.log (Nat.zero_lt_of_lt h.current)
  have hn := Nat.lt_of_lt_of_le hnext h.sectors
  refine ⟨s', heq, ?_, ⟨_, header, hn, hcount, hslot, hcurrent, hpos⟩, hframe⟩
  constructor
  · exact hframe.count ▸ h.sectors
  · rw [hframe.count, hcurrent]
    exact hnext
  · rw [hpos]
    exact ⟨by decide, by decide⟩
  · intro p h1 hp
    rw [hpos] at h1
    rw [hframe.base, hcurrent, slot_of_next hn h1 hp hslot]
  · intro l hl
    obtain ⟨hmem, hout⟩ := mem_filter.mp hl
    obtain ⟨sector, p, hheld⟩ := h.held l hmem
    have hs := Nat.lt_of_lt_of_le hheld.inside h.sectors
    have hne : sector ≠ nextSector s.log := by
      intro he
      have hin := (in_sector_iff s.log hs hheld.room hn).mpr he
      rw [← hheld.offset] at hin
      rw [survives_advance, decide_eq_true hin] at hout
      exact absurd hout Bool.false_ne_true
    refine ⟨sector, p, ?_, hheld.entry, hheld.room, hheld.offset, ?_, ?_, hheld.valid⟩
    · rw [hframe.count]
      exact hheld.inside
    · have hstored := hheld.stored
      rw [hheld.offset] at hstored ⊢
      rw [hframe.base, slot_of_other hn hs hheld.room hne hslot]
      exact hstored
    · intro he
      exact absurd (he.trans hcurrent) hne
  · exact h.distinct.sublist (filter_sublist.map _)

variable {e : FlashEntry} {capacity : UInt32}

theorem program_tidy (h : Tidy s live) (hroom : s.log.sectorWritePos.toNat < 256)
    (hv : flashEntryVerify e = true) (flash : Flash) (hflash : flash.slot = update s.flash.slot
    (s.log.baseAddress + slotOffset s.log.currentSector s.log.sectorWritePos) (some
    (FlashEntry.layout.encode e))) :
    Tidy ⟨flash, s.log.advance⟩
      (live ++ [(slotOffset s.log.currentSector s.log.sectorWritePos, e)]) := by
  have hc := Nat.lt_of_lt_of_le h.current h.sectors
  have hnext : (s.log.sectorWritePos + 1).toNat = s.log.sectorWritePos.toNat + 1 := by
    exact Nat.mod_eq_of_lt (by have := hroom; show s.log.sectorWritePos.toNat + 1 < 2 ^ 32; omega)
  have hother : ∀ {sector : Nat} {p : UInt32}, sector < maxSectors → p.toNat < 256 →
      (sector = s.log.currentSector → p ≠ s.log.sectorWritePos) →
      flash.slot (s.log.baseAddress + slotOffset sector p) =
        s.flash.slot (s.log.baseAddress + slotOffset sector p) := by
    intro sector p hs hp hne
    rw [hflash, update_of_ne]
    intro he
    have hoffset : slotOffset sector p = slotOffset s.log.currentSector s.log.sectorWritePos := by
      grind
    obtain ⟨h1, h2⟩ := slotOffset_inj hs hp hc hroom hoffset
    exact hne h1 h2
  constructor
  · exact h.sectors
  · exact h.current
  · show 1 ≤ (s.log.sectorWritePos + 1).toNat ∧ (s.log.sectorWritePos + 1).toNat ≤ 256
    omega
  · intro p h1 hp
    change (s.log.sectorWritePos + 1).toNat ≤ p.toNat at h1
    refine (hother hc hp fun _ he => ?_).trans (h.free p (by omega) hp)
    rw [he] at h1
    omega
  · intro l hl
    cases mem_append.mp hl with
    | inl hl =>
      obtain ⟨sector, p, hheld⟩ := h.held l hl
      have hs := Nat.lt_of_lt_of_le hheld.inside h.sectors
      refine ⟨sector, p, hheld.inside, hheld.entry, hheld.room, hheld.offset, ?_, ?_, hheld.valid⟩
      · have hstored := hheld.stored
        rw [hheld.offset] at hstored ⊢
        refine (hother hs hheld.room fun he hp => ?_).trans hstored
        have hlt := hheld.written he
        rw [hp] at hlt
        exact absurd hlt (Nat.lt_irrefl _)
      · intro he
        show p.toNat < (s.log.sectorWritePos + 1).toNat
        rw [hnext]
        exact Nat.lt_succ_of_lt (hheld.written he)
    | inr hl =>
      obtain rfl := mem_singleton.mp hl
      refine ⟨s.log.currentSector, s.log.sectorWritePos, h.current, h.pos.1, hroom, rfl, ?_, ?_, hv⟩
      · exact (congrFun hflash _).trans (update_self ..)
      · intro _
        show s.log.sectorWritePos.toNat < (s.log.sectorWritePos + 1).toNat
        omega
  · rw [map_append]
    refine nodup_append.mpr ⟨h.distinct, pairwise_singleton _ _, ?_⟩
    intro offset hmem offset' hmem' he
    obtain ⟨l, hl, rfl⟩ := mem_map.mp hmem
    obtain ⟨sector, p, hheld⟩ := h.held l hl
    have hs := Nat.lt_of_lt_of_le hheld.inside h.sectors
    rw [mem_singleton.mp hmem', hheld.offset] at he
    obtain ⟨h1, h2⟩ := slotOffset_inj hs hheld.room hc hroom he
    have hlt := hheld.written h1
    rw [h2] at hlt
    exact absurd hlt (Nat.lt_irrefl _)

def EntrySlot (sectorCount : Nat) (offset : UInt32) : Prop :=
  ∃ sector, ∃ p : UInt32, sector < sectorCount ∧ 1 ≤ p.toNat ∧ p.toNat < 256 ∧
    offset = slotOffset sector p

def Made (s s' : Store) (outs : List HalOp) : Prop :=
  s' = s ∧ NoErase outs ∨
    s.log.sectorWritePos ≥ entriesPerSector ∧ Renewed s s' ∧ ¬ NoErase outs

theorem make_room (h : Tidy s live) (time : UInt32) : ∃ s' outs,
      (if s.log.sectorWritePos ≥ entriesPerSector then advanceSector s time
        else (.ok (), s, [])) = (.ok (), s', outs) ∧
      Accepted outs ∧ Tidy s' (live.filter fun l => survives s.log.baseAddress outs l.1) ∧
      s'.log.sectorWritePos.toNat < 256 ∧ Frame s s' ∧ Made s s' outs := by
  by_cases hfull : s.log.sectorWritePos ≥ entriesPerSector
  · obtain ⟨s', heq, htidy, hrenewed, hframe⟩ := advance_tidy h time
    refine ⟨s', _, (if_pos hfull).trans heq, ?_, htidy, ?_, hframe,
      .inr ⟨hfull, hrenewed, fun hno => hno _ mem_cons_self⟩⟩
    · intro address
      simp
    · obtain ⟨_, _, _, _, _, _, hpos⟩ := hrenewed
      rw [hpos]
      decide
  · refine ⟨s, [], if_neg hfull, fun _ => not_mem_nil, ?_,
      UInt32.lt_iff_toNat_lt.mp (UInt32.not_le.mp hfull), ⟨rfl, rfl, rfl⟩,
      .inl ⟨rfl, fun _ => not_mem_nil⟩⟩
    rw [show live.filter (fun l => survives s.log.baseAddress [] l.1) = live from
      filter_eq_self.mpr fun _ _ => rfl]
    exact h

/-- what a write does that finds room in `s₁` -/
structure Stores (s s₁ s' : Store) (live : List (UInt32 × FlashEntry)) (e : FlashEntry)
    (offset : UInt32) (outs : List HalOp) : Prop where
  accepted : Accepted outs
  tidy : Tidy s' (liveStep s.log.baseAddress live ⟨some (offset, e), outs⟩)
  frame : Frame s s'
  made : Made s s₁ outs
  inside : s₁.log.currentSector < s.log.sectorCount
  entry : 1 ≤ s₁.log.sectorWritePos.toNat
  room : s₁.log.sectorWritePos.toNat < 256
  place : offset = slotOffset s₁.log.currentSector s₁.log.sectorWritePos
  log : s'.log = s₁.log.advance
  flash : s'.flash.slot = update s₁.flash.slot (s.log.baseAddress + offset)
    (some (FlashEntry.layout.encode e))

theorem write_tidy (h : Tidy s live) (hv : flashEntryVerify e = true) (time : UInt32) :
    ∃ s₁ offset s' outs, flashLogWrite s e time = (some offset, s', outs) ∧
      Stores s s₁ s' live e offset outs := by
  obtain ⟨s₁, outs, heq, hok, htidy, hroom, hframe, hcase⟩ := make_room h time
  have hprogram := Flash.write_erased (htidy.free s₁.log.sectorWritePos (Nat.le_refl _) hroom)
    (FlashEntry.layout.encode e)
  unfold flashLogWrite
  rw [heq]
  dsimp only
  rw [hprogram]
  refine ⟨s₁, _, _, _, rfl, ?_, ?_, ⟨hframe.base, hframe.count, hframe.sequence⟩, ?_,
    hframe.count ▸ htidy.current, htidy.pos.1, hroom, rfl, rfl,
    congrArg (fun base => update s₁.flash.slot (base + _) _) hframe.base⟩
  · intro address hmem
    cases mem_append.mp hmem with
    | inl hmem => exact hok address hmem
    | inr hmem => cases mem_singleton.mp hmem
  · rw [liveStep_program]
    exact program_tidy htidy hroom hv ⟨_⟩ rfl
  · unfold Made
    rw [noErase_program]
    exact hcase

/-! ## runs -/

/-- a call of `ekk_flash_log_write` -/
structure Write where
  entry : FlashEntry
  time : UInt32

/-- `ekk_flash_log_init` on an erased flash, and then writes -/
def writer (base capacity time : UInt32) : Machine Store Write Written where
  start := (flashLogInit Flash.erased base capacity time).1
  step s w :=
    let r := flashLogWrite s w.entry w.time
    (r.2.1, [⟨r.1.map fun offset => (offset, w.entry), r.2.2⟩])

theorem scan_erased (log : FlashLog) : scanSectors Flash.erased log = ⟨fun _ => 0, fun _ => 0, 0, 0⟩ := by
  have hfold (l : List Nat) (scan : Scan) :
      l.foldl (scanSector Flash.erased log) scan = scan := by
    induction l with
    | nil => rfl
    | cons i l ih => exact ih
  exact hfold _ _

theorem init_erased (base capacity time : UInt32) : flashLogInit Flash.erased base capacity time =
    (⟨Flash.erased, { emptyLog base capacity with sectorWritePos := 1 }⟩, []) := by
  unfold flashLogInit
  dsimp only
  rw [scan_erased]
  rfl

theorem sectors_pos_iff (base capacity : UInt32) :
    0 < (emptyLog base capacity).sectorCount ↔ 256 ≤ capacity := by
  show 0 < min maxSectors (capacity / entriesPerSector).toNat ↔ _
  rw [UInt32.toNat_div, UInt32.le_iff_toNat_le, Nat.lt_min]
  show 0 < 1024 ∧ 0 < capacity.toNat / 256 ↔ 256 ≤ capacity.toNat
  omega

theorem init_tidy {base : UInt32} (h : 256 ≤ capacity) (time : UInt32) :
    Tidy (flashLogInit Flash.erased base capacity time).1 [] := by
  rw [init_erased]
  constructor
  · exact Nat.min_le_left _ _
  · exact (sectors_pos_iff base capacity).mpr h
  · show 1 ≤ (1 : UInt32).toNat ∧ (1 : UInt32).toNat ≤ 256
    exact ⟨by decide, by decide⟩
  · intro p _ _
    rfl
  · intro l hl
    exact absurd hl not_mem_nil
  · exact nodup_nil

theorem EntrySlot.bounds {sectorCount : Nat} {offset : UInt32} (hcount : sectorCount ≤ maxSectors)
    (h : EntrySlot sectorCount offset) : offset.toNat < sectorCount * 16384 ∧
      ∀ sector, offset.toNat + 64 ≤ sector * 16384 ∨ sector * 16384 + 64 ≤ offset.toNat := by
  obtain ⟨sector, p, hs, h1, hp, rfl⟩ := h
  rw [slotOffset_toNat (Nat.lt_of_lt_of_le hs hcount) hp]
  exact ⟨by omega, fun sector' => by omega⟩

theorem read_stored {offset : UInt32} (hv : flashEntryVerify e = true)
    (h : s.flash.slot (s.log.baseAddress + offset) = some (FlashEntry.layout.encode e)) :
    flashLogRead s offset = (.ok e, s) := by
  have hdecode : FlashEntry.layout.decode (s.flash.read (s.log.baseAddress + offset)) = e := by
    unfold Flash.read
    rw [h]
    exact FlashEntry.layout.decode_encode e
  unfold flashLogRead
  rw [hdecode]
  exact if_pos hv

theorem read_held {l : UInt32 × FlashEntry} {sector : Nat} {p : UInt32} (h : Held s l sector p) :
    flashLogRead s l.1 = (.ok l.2, s) :=
  read_stored h.valid h.stored

/-- all entries can be read back after a run -/
structure ReadBack (base capacity time : UInt32) (ws : List Write) : Prop where
  /-- a write returns an offset in the sectors and beside their headers -/
  written : ∀ w ∈ (writer base capacity time).trace ws, ∃ l, w.stored = some l ∧
    l.1.toNat < ((writer base capacity time).run ws).log.sectorCount * 16384 ∧
    ∀ sector, l.1.toNat + 64 ≤ sector * 16384 ∨ sector * 16384 + 64 ≤ l.1.toNat
  /-- what was written and not erased since is read -/
  read : ∀ l ∈ liveEntries base ((writer base capacity time).trace ws),
    (flashLogRead ((writer base capacity time).run ws) l.1).1 = .ok l.2
  distinct : ((liveEntries base ((writer base capacity time).trace ws)).map Prod.fst).Nodup

theorem liveEntries_concat (base : UInt32) (ws : List Written) (w : Written) :
    liveEntries base (ws ++ [w]) = liveStep base (liveEntries base ws) w :=
  foldl_concat ..

theorem writer_tidy (base : UInt32) (h : 256 ≤ capacity) (time : UInt32) (ws : List Write)
    (hws : ∀ w ∈ ws, flashEntryVerify w.entry = true) : let s := (writer base capacity time).run ws
    let written := (writer base capacity time).trace ws
    Tidy s (liveEntries base written) ∧ s.log.baseAddress = base ∧
      ∀ w ∈ written, Accepted w.outs ∧
        ∃ l, w.stored = some l ∧ EntrySlot s.log.sectorCount l.1 := by
  induction ws using List.reverseRecOn with
  | nil =>
    refine ⟨init_tidy h time, ?_, fun w hw => absurd hw not_mem_nil⟩
    show (flashLogInit Flash.erased base capacity time).1.log.baseAddress = base
    rw [init_erased]
    rfl
  | append_singleton ws w ih =>
    obtain ⟨htidy, hbase, hwritten⟩ := ih fun w' hw' => hws w' (mem_append_left _ hw')
    obtain ⟨s₁, offset, s', outs, heq, hstores⟩ :=
      write_tidy htidy (hws w mem_concat_self) w.time
    have hstep : (writer base capacity time).step ((writer base capacity time).run ws) w =
        (s', [⟨some (offset, w.entry), outs⟩]) := by
      show (_, [Written.mk _ _]) = _
      rw [heq]
      rfl
    dsimp only
    rw [Machine.run_concat, Machine.trace_concat, Machine.next, Machine.outs, hstep,
      liveEntries_concat]
    have hnext := hstores.tidy
    rw [hbase] at hnext
    refine ⟨hnext, hstores.frame.base.trans hbase, fun w' hw' => ?_⟩
    rw [hstores.frame.count]
    cases mem_append.mp hw' with
    | inl hw' => exact hwritten w' hw'
    | inr hw' =>
      obtain rfl := mem_singleton.mp hw'
      exact ⟨hstores.accepted, _, rfl, _, _, hstores.inside, hstores.entry, hstores.room,
        hstores.place⟩

theorem readback {base : UInt32} (h : 256 ≤ capacity) (time : UInt32) (ws : List Write)
    (hws : ∀ w ∈ ws, flashEntryVerify w.entry = true) : ReadBack base capacity time ws := by
  obtain ⟨htidy, _, hwritten⟩ := writer_tidy base h time ws hws
  constructor
  · intro w hw
    obtain ⟨_, l, heq, hslot⟩ := hwritten w hw
    exact ⟨l, heq, hslot.bounds htidy.sectors⟩
  · intro l hl
    obtain ⟨sector, p, hheld⟩ := htidy.held l hl
    rw [read_held hheld]
  · exact htidy.distinct

def zeroEntry : FlashEntry :=
  let e : FlashEntry := ⟨0, 0, 0, 0, 0, 0, 0, Vector.replicate 44 0⟩
  { e with crc32 := flashEntryCrc (FlashEntry.layout.encode e) }

theorem zeroEntry_valid (w : Write) (h : w ∈ [Write.mk zeroEntry 0]) :
    flashEntryVerify w.entry = true := by
  rw [mem_singleton.mp h]
  exact flashEntryVerify_crc _

theorem write_sectorCount (s : Store) (e : FlashEntry) (time : UInt32) :
    (flashLogWrite s e time).2.1.log.sectorCount = s.log.sectorCount := by
  unfold flashLogWrite Flash.write
  by_cases hfull : s.log.sectorWritePos ≥ entriesPerSector
  · obtain ⟨s', _, heq, _, _, hframe, _⟩ := advanceSector_eq s time
    rw [if_pos hfull, heq]
    dsimp only
    rw [← hframe.count]
    cases s'.flash.slot (s'.log.baseAddress +
      slotOffset s'.log.currentSector s'.log.sectorWritePos) with
    | none => rfl
    | some bytes => rfl
  · rw [if_neg hfull]
    dsimp only
    cases s.flash.slot (s.log.baseAddress +
      slotOffset s.log.currentSector s.log.sectorWritePos) with
    | none => rfl
    | some bytes => rfl

theorem writer_one (base capacity time : UInt32) (w : Write) :
    (writer base capacity time).trace [w] ≠ [] ∧
      ((writer base capacity time).run [w]).log.sectorCount =
        (emptyLog base capacity).sectorCount := by
  refine ⟨cons_ne_nil _ _, ?_⟩
  have hnext (s : Store) : (writer base capacity time).next s w =
      (flashLogWrite s w.entry w.time).2.1 := rfl
  have hstart : (writer base capacity time).run [] =
      (flashLogInit Flash.erased base capacity time).1 := rfl
  rw [← nil_append [w], Machine.run_concat, hnext, write_sectorCount, hstart, init_erased]

/-- **Main.** All entries can be read back, at offsets in the sectors, exactly when the capacity is
at least one sector. -/
theorem readback_iff (base capacity time : UInt32) :
    (∀ ws : List Write, (∀ w ∈ ws, flashEntryVerify w.entry = true) →
      ReadBack base capacity time ws) ↔ 256 ≤ capacity := by
  constructor
  · intro h
    have hw := h [⟨zeroEntry, 0⟩] zeroEntry_valid
    obtain ⟨hne, hcount⟩ := writer_one base capacity time ⟨zeroEntry, 0⟩
    obtain ⟨written, hmem⟩ := exists_mem_of_ne_nil _ hne
    obtain ⟨offset, _, hlt, _⟩ := hw.written written hmem
    refine (sectors_pos_iff base capacity).mp (Nat.pos_of_ne_zero fun h0 => ?_)
    omega
  · intro h ws hws
    exact readback h time ws hws

/-- a log without a sector returns the offset 64 -/
theorem offset_without_sectors : ¬ ∀ (capacity : UInt32) (ws : List Write),
    (∀ w ∈ ws, flashEntryVerify w.entry = true) → ReadBack 0 capacity 0 ws := by
  intro h
  have h0 := h 255 [⟨zeroEntry, 0⟩] zeroEntry_valid
  obtain ⟨offset, _, hlt, _⟩ := h0.written _ mem_cons_self
  exact absurd hlt (Nat.not_lt_zero _)

end Gateway
end EkKor
