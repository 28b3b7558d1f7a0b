import Mathlib.Algebra.Group.Nat.Defs
import EkKor.Types

/-!
# The memory protection unit (`jezgro_mpu.c`)

The registers are those of the simulated unit, which has 8 regions.  Pointers have 32 bits.

* `RegionConfig`, `ServiceDesc`, `Context`, `Mpu`   the data;
* `sizeToMpuSize`, `buildRasr`, `configureRegion`   how a region is written;
* `init`, `registerService`, `switchContext`        the API;
* `RegionRegs.Covers`, `GrantsWrite`, `GrantsExecute`, `Mpu.Writable`   what the unit allows.
-/

namespace EkKor
namespace Jezgro

/-! ## types -/

/-- `JEZGRO_MPU_MAX_REGIONS` -/
abbrev maxRegions : Nat := 8

/-- `JEZGRO_MAX_SERVICES` -/
abbrev maxServices : Nat := 3

/-- `jezgro_region_id_t`, with its values -/
abbrev regionKernelCode : Nat := 0
abbrev regionKernelData : Nat := 1
abbrev regionService1Code : Nat := 3
abbrev regionService1Data : Nat := 4
abbrev regionPeripherals : Nat := 7

/-- `jezgro_access_perm_t` -/
inductive AccessPerm where
  | noAccess
  | privRw
  | privRwUnprivRo
  | fullAccess
  | privRo
  | ro
  deriving DecidableEq, Repr

/-- the value of an `AP` field -/
def AccessPerm.value : AccessPerm → UInt32
  | .noAccess => 0
  | .privRw => 1
  | .privRwUnprivRo => 2
  | .fullAccess => 3
  | .privRo => 5
  | .ro => 6

/-- `jezgro_mem_type_t` -/
inductive MemType where
  | normal
  | device
  | stronglyOrd
  deriving DecidableEq, Repr

/-- `jezgro_mpu_region_t` -/
structure RegionConfig where
  baseAddr : UInt32
  size : UInt32
  ap : AccessPerm
  memType : MemType
  executeNever : Bool
  shareable : Bool
  enabled : Bool
  deriving DecidableEq, Repr

/-- `jezgro_privilege_t` -/
inductive Privilege where
  | kernel
  | user
  deriving DecidableEq, Repr

/-- `jezgro_service_desc_t`, without the name, the stack pointer and the entry point, which no
function uses -/
structure ServiceDesc where
  id : UInt8
  priv : Privilege
  codeStart : UInt32
  codeSize : UInt32
  dataStart : UInt32
  dataSize : UInt32
  stackSize : UInt32
  deriving DecidableEq, Repr

def userService (id : UInt8) (codeStart dataStart : UInt32) : ServiceDesc :=
  { id := id
    priv := .user
    codeStart := codeStart
    codeSize := 4096
    dataStart := dataStart
    dataSize := 3072
    stackSize := 1024 }

/-- `jezgro_mpu_context_t`, with its two regions -/
structure Context where
  serviceId : UInt8
  privileged : Bool
  code : RegionConfig
  data : RegionConfig
  deriving DecidableEq, Repr

/-- `MPU_RBAR` and `MPU_RASR` of a region -/
structure RegionRegs where
  rbar : UInt32
  rasr : UInt32
  deriving DecidableEq, Repr

/-- the registers and the variables of the file; `contexts` are those of the registered services -/
structure Mpu where
  regions : Nat → RegionRegs
  ctrl : UInt32
  contexts : List Context
  currentService : UInt8
  initialized : Bool

def Mpu.reset : Mpu := ⟨fun _ => ⟨0, 0⟩, 0, [], 0, false⟩

/-! ## utility functions -/

/-- `1u << n`; a shift by 32, which C leaves open, is one by 0 as on x86 -/
def bit (n : Nat) : UInt32 := 1 <<< UInt32.ofNat n

/-- the loop of `size_to_mpu_size`: the highest bit at or below `msb` that is set -/
def highestBit (size : UInt32) : Nat → Nat
  | 0 => 0
  | msb + 1 => if size &&& bit (msb + 1) = 0 then highestBit size msb else msb + 1

/-- `size_to_mpu_size` -/
def sizeToMpuSize (size : UInt32) : Nat :=
  if size < 32 then 4
  else
    let msb := highestBit size 31
    (if size > bit msb then msb + 1 else msb) - 1

/-- `is_aligned` -/
def isAligned (addr size : UInt32) : Bool := addr &&& (size - 1) == 0

/-- the memory type attributes: `TEX`, `C` and `B` -/
def memAttributes : MemType → UInt32
  | .normal => bit 19 ||| bit 17 ||| bit 16
  | .device => bit 16
  | .stronglyOrd => 0

/-- `build_rasr` -/
def buildRasr (config : RegionConfig) : UInt32 :=
  (if config.enabled then bit 0 else 0) |||
    (UInt32.ofNat (sizeToMpuSize config.size) <<< 1) |||
    (config.ap.value <<< 24) |||
    (if config.executeNever then bit 28 else 0) |||
    memAttributes config.memType |||
    (if config.shareable then bit 18 else 0)

/-- `actual_size` -/
def actualSize (config : RegionConfig) : UInt32 := bit (sizeToMpuSize config.size + 1)

def RegionConfig.aligned (config : RegionConfig) : Bool :=
  isAligned config.baseAddr (actualSize config)

def RegionConfig.regs (regionId : Nat) (config : RegionConfig) : RegionRegs where
  rbar := (config.baseAddr &&& ~~~(0x1F : UInt32)) ||| bit 4 ||| UInt32.ofNat regionId
  rasr := buildRasr config

/-- `jezgro_mpu_configure_region` -/
def configureRegion (m : Mpu) (regionId : Nat) (config : RegionConfig) : Except Err Unit × Mpu :=
  if regionId ≥ maxRegions then (.error .invalidArg, m)
  else if !config.aligned then (.error .invalidArg, m)
  else (.ok (), { m with regions := Function.update m.regions regionId (config.regs regionId) })

/-! ## initialisation -/

/-- `MPU_TYPE` of the simulated unit -/
abbrev mpuType : UInt32 := 0x00000800

/-- `jezgro_mpu_num_regions` -/
def numRegions : Nat := ((mpuType >>> 8) &&& 0xFF).toNat

/-- `jezgro_mpu_available` -/
def available : Bool := numRegions > 0

def kernelCode : RegionConfig :=
  { baseAddr := 0x08000000
    size := 512 * 1024
    ap := .privRo
    memType := .normal
    executeNever := false
    shareable := false
    enabled := true }

def kernelData : RegionConfig :=
  { baseAddr := 0x20000000
    size := 128 * 1024
    ap := .privRw
    memType := .normal
    executeNever := true
    shareable := false
    enabled := true }

def peripherals : RegionConfig :=
  { baseAddr := 0x40000000
    size := 512 * 1024 * 1024
    ap := .privRw
    memType := .device
    executeNever := true
    shareable := false
    enabled := true }

/-- `jezgro_mpu_init` -/
def init (m : Mpu) : Except Err Unit × Mpu :=
  if m.initialized then (.ok (), m)
  else if !available then (.error .notSupported, m)
  else
    let m := { m with
      ctrl := 0
      regions := fun i => if i < numRegions then ⟨0, 0⟩ else m.regions i }
    let m := (configureRegion m regionKernelCode kernelCode).2
    let m := (configureRegion m regionKernelData kernelData).2
    let m := (configureRegion m regionPeripherals peripherals).2
    (.ok (), { m with initialized := true, currentService := 0, contexts := [] })

/-! ## services -/

def codeRegion (desc : ServiceDesc) : RegionConfig where
  baseAddr := desc.codeStart
  size := desc.codeSize
  ap := if desc.priv = .kernel then .privRo else .ro
  memType := .normal
  executeNever := false
  shareable := false
  enabled := true

def dataRegion (desc : ServiceDesc) : RegionConfig where
  baseAddr := desc.dataStart
  size := desc.dataSize + desc.stackSize
  ap := if desc.priv = .kernel then .privRw else .fullAccess
  memType := .normal
  executeNever := true
  shareable := false
  enabled := true

def contextOf (desc : ServiceDesc) : Context where
  serviceId := desc.id
  privileged := desc.priv = .kernel
  code := codeRegion desc
  data := dataRegion desc

/-- `jezgro_mpu_register_service`; a region that is not aligned is left as it is -/
def registerService (m : Mpu) (desc : ServiceDesc) : Except Err Unit × Mpu :=
  if desc.id = 0 then (.error .invalidArg, m)
  else if m.contexts.length ≥ maxServices then (.error .limit, m)
  else
    let codeRegionId := regionService1Code + m.contexts.length * 2
    let dataRegionId := regionService1Data + m.contexts.length * 2
    if dataRegionId ≥ maxRegions then (.error .limit, m)
    else
      let ctx := contextOf desc
      let m := (configureRegion m codeRegionId ctx.code).2
      let m := (configureRegion m dataRegionId ctx.data).2
      (.ok (), { m with contexts := m.contexts ++ [ctx] })

def Mpu.findContext (m : Mpu) (serviceId : UInt8) : Option Context :=
  m.contexts.find? fun ctx => ctx.serviceId == serviceId

/-- `MPU_CTRL_ENABLE` and `MPU_CTRL_PRIVDEFENA` -/
def ctrlEnabled : UInt32 := bit 0 ||| bit 2

/-- `jezgro_mpu_switch_context` -/
def switchContext (m : Mpu) (serviceId : UInt8) : Except Err Unit × Mpu :=
  if serviceId = 0 then (.ok (), { m with ctrl := ctrlEnabled, currentService := 0 })
  else
    match m.findContext serviceId with
    | none => (.error .notFound, m)
    | some ctx =>
      let m := (configureRegion m regionService1Code ctx.code).2
      let m := (configureRegion m regionService1Data ctx.data).2
      (.ok (), { m with ctrl := ctrlEnabled, currentService := serviceId })

/-! ## what the unit allows -/

namespace RegionRegs

def enabled (r : RegionRegs) : Bool := r.rasr &&& 1 == 1

/-- the size is `2 ^ sizeLog` -/
def sizeLog (r : RegionRegs) : Nat := ((r.rasr >>> 1) &&& 31).toNat + 1

/-- the `AP` field -/
def ap (r : RegionRegs) : UInt32 := (r.rasr >>> 24) &&& 7

/-- the `XN` field -/
def executeNever (r : RegionRegs) : Bool := (r.rasr >>> 28) &&& 1 == 1

def Covers (r : RegionRegs) (addr : UInt32) : Prop :=
  r.enabled = true ∧ addr.toNat / 2 ^ r.sizeLog = r.rbar.toNat / 2 ^ r.sizeLog

instance instDecidableCovers (r : RegionRegs) (addr : UInt32) : Decidable (r.Covers addr) :=
  inferInstanceAs (Decidable (_ ∧ _))

def GrantsWrite (r : RegionRegs) : Prop := r.ap = 3

instance instDecidableGrantsWrite (r : RegionRegs) : Decidable r.GrantsWrite :=
  inferInstanceAs (Decidable (_ = _))

def GrantsExecute (r : RegionRegs) : Prop :=
  (r.ap = 2 ∨ r.ap = 3 ∨ r.ap = 6 ∨ r.ap = 7) ∧ r.executeNever = false

instance instDecidableGrantsExecute (r : RegionRegs) : Decidable r.GrantsExecute :=
  inferInstanceAs (Decidable (_ ∧ _))

end RegionRegs

/-- unprivileged code may write to the address: the highest region that covers it decides, and
without one nothing is allowed -/
def Mpu.Writable (m : Mpu) (addr : UInt32) : Prop :=
  ∃ i < maxRegions, (m.regions i).Covers addr ∧ (m.regions i).GrantsWrite ∧
    ∀ j < maxRegions, i < j → ¬ (m.regions j).Covers addr

instance instDecidableWritable (m : Mpu) (addr : UInt32) : Decidable (m.Writable addr) :=
  inferInstanceAs (Decidable (∃ i < maxRegions, _))

end Jezgro
end EkKor
