import EkKor.Fs.Layout
import EkKor.Lib.Crc
import EkKor.Lib.Packed
import EkKor.Lib.Runs
import EkKor.Types

/-!
# The flash log and its checksums (`ekk_gateway.c`, `ekk_flash_log.c`)

* `crc32Compute`   the checksum of an entry;
* `FlashLog`       the log.
-/

/-!
# The checksums of the gateway and of the file system (`ekk_gateway.c`, `ekkfs.c`)

* `crc32Compute`, `flashEntryCrc`   the gateway's checksums;
* `bitwiseCrc`            CRC-32 bit by bit: polynomial `0xEDB88320`, start and final xor `0xFFFFFFFF`;
* `crc32Compute_eq`       the gateway computes it;
* `all_crcs_agree_iff`    `ekkfs_crc32` computes it exactly for the byte strings whose look-ups of the
                          wrong entry 245 leave no residue.
-/

namespace EkKor
namespace Gateway
open Crc

/-- `crc32_table` of the gateway -/
def crc32Table : Array UInt32 :=
  #[
    0x00000000, 0x77073096, 0xEE0E612C, 0x990951BA, 0x076DC419, 0x706AF48F,
    0xE963A535, 0x9E6495A3, 0x0EDB8832, 0x79DCB8A4, 0xE0D5E91E, 0x97D2D988,
    0x09B64C2B, 0x7EB17CBD, 0xE7B82D07, 0x90BF1D91, 0x1DB71064, 0x6AB020F2,
    0xF3B97148, 0x84BE41DE, 0x1ADAD47D, 0x6DDDE4EB, 0xF4D4B551, 0x83D385C7,
    0x136C9856, 0x646BA8C0, 0xFD62F97A, 0x8A65C9EC, 0x14015C4F, 0x63066CD9,
    0xFA0F3D63, 0x8D080DF5, 0x3B6E20C8, 0x4C69105E, 0xD56041E4, 0xA2677172,
    0x3C03E4D1, 0x4B04D447, 0xD20D85FD, 0xA50AB56B, 0x35B5A8FA, 0x42B2986C,
    0xDBBBC9D6, 0xACBCF940, 0x32D86CE3, 0x45DF5C75, 0xDCD60DCF, 0xABD13D59,
    0x26D930AC, 0x51DE003A, 0xC8D75180, 0xBFD06116, 0x21B4F4B5, 0x56B3C423,
    0xCFBA9599, 0xB8BDA50F, 0x2802B89E, 0x5F058808, 0xC60CD9B2, 0xB10BE924,
    0x2F6F7C87, 0x58684C11, 0xC1611DAB, 0xB6662D3D, 0x76DC4190, 0x01DB7106,
    0x98D220BC, 0xEFD5102A, 0x71B18589, 0x06B6B51F, 0x9FBFE4A5, 0xE8B8D433,
    0x7807C9A2, 0x0F00F934, 0x9609A88E, 0xE10E9818, 0x7F6A0DBB, 0x086D3D2D,
    0x91646C97, 0xE6635C01, 0x6B6B51F4, 0x1C6C6162, 0x856530D8, 0xF262004E,
    0x6C0695ED, 0x1B01A57B, 0x8208F4C1, 0xF50FC457, 0x65B0D9C6, 0x12B7E950,
    0x8BBEB8EA, 0xFCB9887C, 0x62DD1DDF, 0x15DA2D49, 0x8CD37CF3, 0xFBD44C65,
    0x4DB26158, 0x3AB551CE, 0xA3BC0074, 0xD4BB30E2, 0x4ADFA541, 0x3DD895D7,
    0xA4D1C46D, 0xD3D6F4FB, 0x4369E96A, 0x346ED9FC, 0xAD678846, 0xDA60B8D0,
    0x44042D73, 0x33031DE5, 0xAA0A4C5F, 0xDD0D7CC9, 0x5005713C, 0x270241AA,
    0xBE0B1010, 0xC90C2086, 0x5768B525, 0x206F85B3, 0xB966D409, 0xCE61E49F,
    0x5EDEF90E, 0x29D9C998, 0xB0D09822, 0xC7D7A8B4, 0x59B33D17, 0x2EB40D81,
    0xB7BD5C3B, 0xC0BA6CAD, 0xEDB88320, 0x9ABFB3B6, 0x03B6E20C, 0x74B1D29A,
    0xEAD54739, 0x9DD277AF, 0x04DB2615, 0x73DC1683, 0xE3630B12, 0x94643B84,
    0x0D6D6A3E, 0x7A6A5AA8, 0xE40ECF0B, 0x9309FF9D, 0x0A00AE27, 0x7D079EB1,
    0xF00F9344, 0x8708A3D2, 0x1E01F268, 0x6906C2FE, 0xF762575D, 0x806567CB,
    0x196C3671, 0x6E6B06E7, 0xFED41B76, 0x89D32BE0, 0x10DA7A5A, 0x67DD4ACC,
    0xF9B9DF6F, 0x8EBEEFF9, 0x17B7BE43, 0x60B08ED5, 0xD6D6A3E8, 0xA1D1937E,
    0x38D8C2C4, 0x4FDFF252, 0xD1BB67F1, 0xA6BC5767, 0x3FB506DD, 0x48B2364B,
    0xD80D2BDA, 0xAF0A1B4C, 0x36034AF6, 0x41047A60, 0xDF60EFC3, 0xA867DF55,
    0x316E8EEF, 0x4669BE79, 0xCB61B38C, 0xBC66831A, 0x256FD2A0, 0x5268E236,
    0xCC0C7795, 0xBB0B4703, 0x220216B9, 0x5505262F, 0xC5BA3BBE, 0xB2BD0B28,
    0x2BB45A92, 0x5CB36A04, 0xC2D7FFA7, 0xB5D0CF31, 0x2CD99E8B, 0x5BDEAE1D,
    0x9B64C2B0, 0xEC63F226, 0x756AA39C, 0x026D930A, 0x9C0906A9, 0xEB0E363F,
    0x72076785, 0x05005713, 0x95BF4A82, 0xE2B87A14, 0x7BB12BAE, 0x0CB61B38,
    0x92D28E9B, 0xE5D5BE0D, 0x7CDCEFB7, 0x0BDBDF21, 0x86D3D2D4, 0xF1D4E242,
    0x68DDB3F8, 0x1FDA836E, 0x81BE16CD, 0xF6B9265B, 0x6FB077E1, 0x18B74777,
    0x88085AE6, 0xFF0F6A70, 0x66063BCA, 0x11010B5C, 0x8F659EFF, 0xF862AE69,
    0x616BFFD3, 0x166CCF45, 0xA00AE278, 0xD70DD2EE, 0x4E048354, 0x3903B3C2,
    0xA7672661, 0xD06016F7, 0x4969474D, 0x3E6E77DB, 0xAED16A4A, 0xD9D65ADC,
    0x40DF0B66, 0x37D83BF0, 0xA9BCAE53, 0xDEBB9EC5, 0x47B2CF7F, 0x30B5FFE9,
    0xBDBDF21C, 0xCABAC28A, 0x53B39330, 0x24B4A3A6, 0xBAD03605, 0xCDD70693,
    0x54DE5729, 0x23D967BF, 0xB3667A2E, 0xC4614AB8, 0x5D681B02, 0x2A6F2B94,
    0xB40BBE37, 0xC30C8EA1, 0x5A05DF1B, 0x2D02EF8D]

/-- `crc32_compute` -/
def crc32Compute (data : List UInt8) : UInt32 :=
  let crc := data.foldl (fun (crc : UInt32) (byte : UInt8) =>
    crc32Table.getD ((crc ^^^ byte.toUInt32) &&& 0xFF).toNat 0 ^^^ (crc >>> 8)) 0xFFFFFFFF
  crc ^^^ 0xFFFFFFFF

/-- `ekk_flash_entry_crc` on the 64 bytes of an entry: `global_seq` at 0, `crc32` at 4, `length` at
8 -/
def flashEntryCrc (entry : List UInt8) : UInt32 :=
  let crc := (entry.take 4).foldl (fun (crc : UInt32) (byte : UInt8) =>
    crc32Table.getD ((crc ^^^ byte.toUInt32) &&& 0xFF).toNat 0 ^^^ (crc >>> 8)) 0xFFFFFFFF
  let crc := ((entry.drop 8).take (64 - 8)).foldl (fun (crc : UInt32) (byte : UInt8) =>
    crc32Table.getD ((crc ^^^ byte.toUInt32) &&& 0xFF).toNat 0 ^^^ (crc >>> 8)) crc
  crc ^^^ 0xFFFFFFFF

/-! ## bit by bit -/

abbrev polynomial : UInt32 := 0xEDB88320

def bitwiseCrc (data : List UInt8) : UInt32 :=
  bitwise polynomial 0xFFFFFFFF data ^^^ 0xFFFFFFFF

def entryOf (table : Array UInt32) (i : UInt32) : UInt32 := table.getD i.toNat 0

/-- by how much an entry of `crc32_table` in `ekkfs.c` is wrong -/
def entryError (i : UInt32) : UInt32 := if i = 245 then 0x20 else 0

theorem forall_entries {P : UInt32 → Prop} (h : ∀ i : Fin 256, P (UInt32.ofNat i)) :
    ∀ i < 256, P i := by
  intro i hi
  have hlt : i.toNat < 256 := UInt32.lt_iff_toNat_lt.mp hi
  have hi' := h ⟨i.toNat, hlt⟩
  rwa [UInt32.ofNat_toNat] at hi'

theorem gateway_entries : ∀ i < 256,
    entryOf crc32Table i = shift8 polynomial i ^^^ (fun _ : UInt32 => 0) i :=
  forall_entries (by decide +kernel)

theorem crc32Compute_eq (data : List UInt8) : crc32Compute data = bitwiseCrc data := by
  have htable := tabled_eq gateway_entries 0xFFFFFFFF 0 data
  rw [residue_nil fun _ _ => rfl, UInt32.xor_zero, UInt32.xor_zero] at htable
  exact congrArg (· ^^^ 0xFFFFFFFF) htable

theorem flashEntryCrc_eq (entry : List UInt8) (h : entry.length = 64) :
    flashEntryCrc entry = bitwiseCrc (entry.take 4 ++ entry.drop 8) := by
  have htake : (entry.drop 8).take (64 - 8) = entry.drop 8 :=
    List.take_of_length_le (by rw [List.length_drop, h])
  rw [← crc32Compute_eq, flashEntryCrc, htake, crc32Compute, List.foldl_append]

theorem entryError_eq_zero {i : UInt32} (h : i ≠ 245) : entryError i = 0 := if_neg h

theorem residue_without {idxs : List UInt32} (h : 245 ∉ idxs) :
    residue polynomial entryError 0 idxs = 0 :=
  residue_nil fun _ hi => entryError_eq_zero (ne_of_mem_of_not_mem hi h)

theorem residue_with_one {before after : List UInt32} (h : 245 ∉ before) (h' : 245 ∉ after) :
    residue polynomial entryError 0 (before ++ 245 :: after) ≠ 0 :=
  residue_once (by decide) (fun _ hi => entryError_eq_zero (ne_of_mem_of_not_mem hi h)) (by decide)
    fun _ hi => entryError_eq_zero (ne_of_mem_of_not_mem hi h')

end Gateway
end EkKor

/-!
# The flash log (`ekk_flash_log.c`)

The flash of the HAL has slots of 64 bytes.  An erased slot can be written once; nothing else goes
wrong.  What a function does to the flash is an output, also a write that is refused.

* `FlashEntry`, `SectorHeader`   the contents of a slot, with their bytes;
* `Flash`, `HalOp`    the device;
* `FlashLog`, `Store` the log with the variables of the file, and the device;
* `advanceSector`     the next sector, with wear-leveling;
* `flashLogInit`, `flashLogWrite`, `flashLogRead`   the API.

`time` is the value of `ekk_hal_time_us` when a sector header is written.
-/

namespace EkKor
namespace Gateway

/-! ## slots -/

/-- `EKK_FLASH_SECTOR_SIZE` -/
abbrev sectorSize : UInt32 := 16384

/-- `ENTRIES_PER_SECTOR` -/
abbrev entriesPerSector : UInt32 := 256

/-- `MAX_SECTORS` -/
abbrev maxSectors : Nat := 1024

/-- `SECTOR_MAGIC` -/
abbrev sectorMagic : UInt32 := 0x454B4B31

abbrev slotSize : UInt32 := 64

/-- `ekk_flash_entry_t` -/
structure FlashEntry where
  globalSeq : UInt32
  crc32 : UInt32
  length : UInt16
  streamId : ModuleId
  eventType : UInt8
  timestampUs : UInt32
  originSeq : UInt32
  data : Vector UInt8 44
  deriving DecidableEq

open Packed in
def FlashEntry.fields :
    Packed (UInt16 × UInt8 × UInt8 × UInt32 × UInt32 × Vector UInt8 44) :=
  u16.pair (u8.pair (u8.pair (u32.pair (u32.pair (bytes 44)))))

open Packed in
def FlashEntry.layout : Packed FlashEntry :=
  (u32.pair (u32.pair fields)).map
    (fun (globalSeq, crc32, length, streamId, eventType, timestampUs, originSeq, data) =>
      ⟨globalSeq, crc32, length, streamId, eventType, timestampUs, originSeq, data⟩)
    (fun e => (e.globalSeq, e.crc32, e.length, e.streamId, e.eventType, e.timestampUs, e.originSeq,
      e.data))
    (fun _ => rfl)

/-- `ekk_sector_header_t` -/
structure SectorHeader where
  magic : UInt32
  sectorId : UInt32
  eraseCount : UInt32
  firstSeq : UInt32
  entryCount : UInt32
  timestampUs : UInt32
  reserved : Vector UInt8 40

open Packed in
def SectorHeader.layout : Packed SectorHeader :=
  (u32.pair (u32.pair (u32.pair (u32.pair (u32.pair (u32.pair (bytes 40))))))).map
    (fun (magic, sectorId, eraseCount, firstSeq, entryCount, timestampUs, reserved) =>
      ⟨magic, sectorId, eraseCount, firstSeq, entryCount, timestampUs, reserved⟩)
    (fun h => (h.magic, h.sectorId, h.eraseCount, h.firstSeq, h.entryCount, h.timestampUs,
      h.reserved))
    (fun _ => rfl)

/-- `ekk_flash_entry_verify` -/
def flashEntryVerify (e : FlashEntry) : Bool :=
  e.crc32 == flashEntryCrc (FlashEntry.layout.encode e)

theorem flashEntryVerify_crc (e : FlashEntry) :
    flashEntryVerify { e with crc32 := flashEntryCrc (FlashEntry.layout.encode e) } = true := by
  exact beq_self_eq_true _

/-! ## the device -/

/-- the slots by their addresses; `none` for an erased one -/
structure Flash where
  slot : UInt32 → Option (List UInt8)

def Flash.erased : Flash := ⟨fun _ => none⟩

/-- what is done to the flash -/
inductive HalOp where
  | erase (address : UInt32)
  | program (address : UInt32) (accepted : Bool)
  deriving DecidableEq

/-- `ekk_hal_flash_read`: an erased slot reads as ones -/
def Flash.read (flash : Flash) (address : UInt32) : List UInt8 :=
  (flash.slot address).getD (List.replicate 64 0xFF)

/-- `ekk_hal_flash_write` -/
def Flash.write (flash : Flash) (address : UInt32) (data : List UInt8) :
    Except Err Unit × Flash × List HalOp :=
  match flash.slot address with
  | none => (.ok (), ⟨Function.update flash.slot address (some data)⟩, [.program address true])
  | some _ => (.error .halFailure, flash, [.program address false])

/-- `ekk_hal_flash_erase_sector` -/
def Flash.eraseSector (flash : Flash) (address : UInt32) : Flash × List HalOp :=
  (⟨fun a => if a - address < sectorSize then none else flash.slot a⟩, [.erase address])

/-! ## the log -/

/-- `ekk_flash_log_t` and, from `sector_erase_counts` on, the variables of the file -/
structure FlashLog where
  baseAddress : UInt32
  capacity : UInt32
  sectorCount : Nat
  writeHead : UInt32
  writeSector : Nat
  globalSequence : UInt32
  totalWrites : UInt32
  totalErases : UInt32
  crcErrors : UInt32
  sectorEraseCounts : Nat → UInt32
  sectorEntryCounts : Nat → UInt32
  currentSector : Nat
  sectorWritePos : UInt32

structure Store where
  flash : Flash
  log : FlashLog

/-! ## internal helpers -/

/-- `sector_address` -/
def sectorAddress (log : FlashLog) (sector : Nat) : UInt32 :=
  log.baseAddress + UInt32.ofNat sector * sectorSize

/-- what the loop of `find_min_erase_sector` does with a sector -/
def minErase (log : FlashLog) (exclude : Nat) (best : UInt32 × Nat) (i : Nat) : UInt32 × Nat :=
  if i = exclude then best
  else if log.sectorEraseCounts i < best.1 then (log.sectorEraseCounts i, i)
  else best

/-- `find_min_erase_sector` -/
def findMinEraseSector (log : FlashLog) (exclude : Nat) : Nat :=
  ((List.range log.sectorCount).foldl (minErase log exclude) (0xFFFFFFFF, 0)).2

/-- `erase_and_init_sector` -/
def eraseAndInitSector (s : Store) (sector : Nat) (firstSeq time : UInt32) :
    Except Err Unit × Store × List HalOp :=
  let erased := s.flash.eraseSector (sectorAddress s.log sector)
  let log : FlashLog :=
    { s.log with
      sectorEraseCounts :=
        Function.update s.log.sectorEraseCounts sector (s.log.sectorEraseCounts sector + 1)
      totalErases := s.log.totalErases + 1 }
  let header : SectorHeader :=
    { magic := sectorMagic
      sectorId := UInt32.ofNat sector
      eraseCount := log.sectorEraseCounts sector
      firstSeq := firstSeq
      entryCount := 0
      timestampUs := time
      reserved := Vector.replicate 40 0 }
  match erased.1.write (sectorAddress log sector) (SectorHeader.layout.encode header) with
  | (.error err, flash, outs) => (.error err, ⟨flash, log⟩, erased.2 ++ outs)
  | (.ok (), flash, outs) =>
    (.ok (),
      ⟨flash, { log with sectorEntryCounts := Function.update log.sectorEntryCounts sector 0 }⟩,
      erased.2 ++ outs)

/-- the sector that `advance_sector` takes; with no sectors the source divides by zero -/
def nextSector (log : FlashLog) : Nat :=
  let next := (log.currentSector + 1) % log.sectorCount
  if log.sectorEntryCounts next > 0 then findMinEraseSector log log.currentSector else next

/-- `advance_sector` -/
def advanceSector (s : Store) (time : UInt32) : Except Err Unit × Store × List HalOp :=
  let next := nextSector s.log
  match eraseAndInitSector s next s.log.globalSequence time with
  | (.error err, s, outs) => (.error err, s, outs)
  | (.ok (), s, outs) =>
    (.ok (),
      { s with
        log :=
          { s.log with
            currentSector := next
            sectorWritePos := 1
            writeSector := next } }, outs)

/-! ## initialisation -/

/-- what the scan of the sectors finds -/
structure Scan where
  eraseCounts : Nat → UInt32
  entryCounts : Nat → UInt32
  maxSeq : UInt32
  newestSector : Nat

/-- a sector in the scan of `ekk_flash_log_init` -/
def scanSector (flash : Flash) (log : FlashLog) (scan : Scan) (s : Nat) : Scan :=
  let header := SectorHeader.layout.decode (flash.read (sectorAddress log s))
  if header.magic = sectorMagic then
    let sectorMaxSeq := header.firstSeq + header.entryCount
    { eraseCounts := Function.update scan.eraseCounts s header.eraseCount
      entryCounts := Function.update scan.entryCounts s header.entryCount
      maxSeq := if sectorMaxSeq > scan.maxSeq then sectorMaxSeq else scan.maxSeq
      newestSector := if sectorMaxSeq > scan.maxSeq then s else scan.newestSector }
  else scan

def emptyLog (baseAddress capacity : UInt32) : FlashLog where
  baseAddress := baseAddress
  capacity := capacity
  sectorCount := min maxSectors (capacity / entriesPerSector).toNat
  writeHead := 0
  writeSector := 0
  globalSequence := 0
  totalWrites := 0
  totalErases := 0
  crcErrors := 0
  sectorEraseCounts := fun _ => 0
  sectorEntryCounts := fun _ => 0
  currentSector := 0
  sectorWritePos := 0

/-- the scan of `ekk_flash_log_init` -/
def scanSectors (flash : Flash) (log : FlashLog) : Scan :=
  (List.range log.sectorCount).foldl (scanSector flash log) ⟨fun _ => 0, fun _ => 0, 0, 0⟩

def recoveredLog (log : FlashLog) (scan : Scan) : FlashLog :=
  { log with
    sectorEraseCounts := scan.eraseCounts
    sectorEntryCounts := scan.entryCounts
    currentSector := scan.newestSector
    sectorWritePos := scan.entryCounts scan.newestSector + 1
    writeSector := scan.newestSector
    globalSequence := scan.maxSeq }

/-- `ekk_flash_log_init`, which does not look at the result of `advance_sector` -/
def flashLogInit (flash : Flash) (baseAddress capacity time : UInt32) : Store × List HalOp :=
  let log := emptyLog baseAddress capacity
  let log := recoveredLog log (scanSectors flash log)
  if log.sectorWritePos ≥ entriesPerSector then (advanceSector ⟨flash, log⟩ time).2
  else (⟨flash, log⟩, [])

/-! ## writing and reading -/

def slotOffset (sector : Nat) (pos : UInt32) : UInt32 :=
  (UInt32.ofNat sector * entriesPerSector + pos) * slotSize

def FlashLog.advance (log : FlashLog) : FlashLog :=
  { log with
    sectorWritePos := log.sectorWritePos + 1
    sectorEntryCounts := Function.update log.sectorEntryCounts log.currentSector
      (log.sectorEntryCounts log.currentSector + 1)
    writeHead := log.writeHead + 1
    totalWrites := log.totalWrites + 1 }

/-- `ekk_flash_log_write`; `none` for `0xFFFFFFFF` -/
def flashLogWrite (s : Store) (entry : FlashEntry) (time : UInt32) :
    Option UInt32 × Store × List HalOp :=
  let advanced :=
    if s.log.sectorWritePos ≥ entriesPerSector then advanceSector s time else (.ok (), s, [])
  match advanced with
  | (.error _, s, outs) => (none, s, outs)
  | (.ok (), s, outs) =>
    let offset := slotOffset s.log.currentSector s.log.sectorWritePos
    match s.flash.write (s.log.baseAddress + offset) (FlashEntry.layout.encode entry) with
    | (.error _, flash, more) => (none, ⟨flash, s.log⟩, outs ++ more)
    | (.ok (), flash, more) => (some offset, ⟨flash, s.log.advance⟩, outs ++ more)

/-- `ekk_flash_log_read`: an entry with a wrong checksum is counted -/
def flashLogRead (s : Store) (offset : UInt32) : Except Err FlashEntry × Store :=
  let entry := FlashEntry.layout.decode (s.flash.read (s.log.baseAddress + offset))
  if flashEntryVerify entry then (.ok entry, s)
  else (.error .invalidArg, { s with log := { s.log with crcErrors := s.log.crcErrors + 1 } })

end Gateway
end EkKor
