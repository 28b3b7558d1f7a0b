import EkKor.Jezgro.Mpu
import EkKor.Lib.Runs
import Mathlib.Data.Nat.Bitwise
import Mathlib.Logic.Function.Basic
import Mathlib.Tactic.Common

/-!
# Regions and isolation

* `covers_regs`     what a configured region covers;
* `isolated_iff`    what a service reaches after a context switch.
-/

/-!
# What a configured region covers

A range of addresses is given to the unit as a block of `2 ^ sizeLog` bytes, at least 32.

* `decode`          the registers of a region say what its configuration says;
* `blockLog_spec`   the block is the smallest one for ranges of more than 16 bytes;
* `covers_regs`     an aligned region covers the block of its base;
* `InBlock`         an address lies in every block that holds a range;
* `covered_iff`     the region that is programmed contains its range, up to half of the addresses.
-/

namespace EkKor
namespace Jezgro

/-! ## bits -/

theorem toNat_bit {n : Nat} (hn : n < 32) : (bit n).toNat = 2 ^ n := by
  have hofNat : (UInt32.ofNat n).toNat = n := UInt32.toNat_ofNat_of_lt' (by
    show n < 2 ^ 32
    omega)
  unfold bit
  rw [UInt32.toNat_shiftLeft, hofNat, Nat.mod_eq_of_lt hn]
  show 1 <<< n % 2 ^ 32 = 2 ^ n
  rw [Nat.one_shiftLeft]
  exact Nat.mod_eq_of_lt (Nat.pow_lt_pow_right (by decide) hn)

theorem and_bit_eq_zero_iff (a : UInt32) {n : Nat} (hn : n < 32) :
    a &&& bit n = 0 ↔ a.toNat.testBit n = false := by
  rw [← UInt32.toNat_inj, UInt32.toNat_and, toNat_bit hn, Nat.and_two_pow]
  cases a.toNat.testBit n with
  | false => simp
  | true => simp

variable (size : UInt32) {config : RegionConfig}

/-- the highest bit of a number below `2 ^ (msb + 1)` -/
theorem highestBit_spec {msb : Nat} (hmsb : msb < 32) (hlt : size.toNat < 2 ^ (msb + 1))
    (hpos : 0 < size.toNat) :
    2 ^ highestBit size msb ≤ size.toNat ∧ size.toNat < 2 ^ (highestBit size msb + 1) ∧
      highestBit size msb ≤ msb := by
  induction msb with
  | zero => exact ⟨hpos, hlt, Nat.le_refl 0⟩
  | succ msb ih =>
    unfold highestBit
    split_ifs with hbit
    · have hlow : size.toNat < 2 ^ (msb + 1) := by
        rw [and_bit_eq_zero_iff size hmsb, Nat.testBit_eq_decide_div_mod_eq,
          decide_eq_false_iff_not] at hbit
        have hdiv : size.toNat / 2 ^ (msb + 1) < 2 := Nat.div_lt_of_lt_mul hlt
        refine (Nat.div_eq_zero_iff_lt (Nat.two_pow_pos _)).mp ?_
        generalize size.toNat / 2 ^ (msb + 1) = quotient at hbit hdiv
        omega
      obtain ⟨h1, h2, h3⟩ := ih (Nat.lt_of_succ_lt hmsb) hlow
      exact ⟨h1, h2, Nat.le_succ_of_le h3⟩
    · refine ⟨?_, hlt, Nat.le_refl _⟩
      by_contra hge
      refine hbit ((and_bit_eq_zero_iff size hmsb).mpr ?_)
      exact Nat.testBit_lt_two_pow (Nat.lt_of_not_le hge)

/-! ## the size of a block -/

/-- the block of a region has `2 ^ blockLog` bytes -/
def blockLog (size : UInt32) : Nat := sizeToMpuSize size + 1

theorem blockLog_le : 5 ≤ blockLog size ∧ blockLog size ≤ 32 := by
  unfold blockLog sizeToMpuSize
  split_ifs with hsmall
  · decide
  · have hge : 32 ≤ size.toNat := Nat.le_of_not_lt hsmall
    obtain ⟨h1, h2, h3⟩ := highestBit_spec size (by decide : 31 < 32) size.toNat_lt (by omega)
    have h5 : 5 ≤ highestBit size 31 := by
      by_contra hlow
      have hpow : 2 ^ (highestBit size 31 + 1) ≤ 2 ^ 5 :=
        Nat.pow_le_pow_right (by decide) (by omega)
      omega
    dsimp only
    split_ifs <;> omega

theorem blockLog_spec {size : UInt32} (hlarge : 16 < size.toNat) :
    2 ^ (blockLog size - 1) < size.toNat := by
  unfold blockLog sizeToMpuSize
  split_ifs with hsmall
  · exact hlarge
  · obtain ⟨h1, h2, h3⟩ := highestBit_spec size (by decide : 31 < 32) size.toNat_lt (by omega)
    dsimp only
    split_ifs with hmore
    · have hlt : (bit (highestBit size 31)).toNat < size.toNat := hmore
      rw [toNat_bit (Nat.lt_succ_of_le h3)] at hlt
      exact hlt
    · refine Nat.lt_of_lt_of_le (Nat.pow_lt_pow_right (by decide) ?_) h1
      have h5 : highestBit size 31 ≠ 0 := fun he => by
        rw [he] at h2
        omega
      omega

theorem blockLog_room : size.toNat ≤ 2 ^ blockLog size := by
  unfold blockLog sizeToMpuSize
  split_ifs with hsmall
  · exact Nat.le_of_lt hsmall
  · have hge : 32 ≤ size.toNat := Nat.le_of_not_lt hsmall
    obtain ⟨-, h2, h3⟩ := highestBit_spec size (by decide : 31 < 32) size.toNat_lt (by omega)
    dsimp only
    split_ifs with hmore
    · exact Nat.le_of_lt h2
    · have hle : size.toNat ≤ (bit (highestBit size 31)).toNat := Nat.le_of_not_lt hmore
      rw [toNat_bit (Nat.lt_succ_of_le h3)] at hle
      exact Nat.le_trans hle (Nat.pow_le_pow_right (by decide) (by omega))

/-! ## registers -/

/-- `RASR` from its fields -/
def rasrOf (size ap : Nat) (memory : MemType) (enabled never shareable : Bool) : UInt32 :=
  (if enabled then bit 0 else 0) ||| (UInt32.ofNat size <<< 1) ||| (UInt32.ofNat ap <<< 24) |||
    (if never then bit 28 else 0) ||| memAttributes memory ||| (if shareable then bit 18 else 0)

theorem decode_rasrOf (memory : MemType) (enabled never shareable : Bool) :
    ∀ (size : Fin 32) (ap : Fin 8),
      (rasrOf size ap memory enabled never shareable &&& 1 == 1) = enabled ∧
      ((rasrOf size ap memory enabled never shareable >>> 1) &&& 31).toNat = size ∧
      (rasrOf size ap memory enabled never shareable >>> 24) &&& 7 = UInt32.ofNat ap ∧
      ((rasrOf size ap memory enabled never shareable >>> 28) &&& 1 == 1) = never := by
  cases memory <;> cases enabled <;> cases never <;> cases shareable <;> decide +kernel

/-- **Decoding.** The registers of a region say what its configuration says. -/
theorem decode (config : RegionConfig) (i : Nat) :
    (config.regs i).enabled = config.enabled ∧
      (config.regs i).sizeLog = blockLog config.size ∧
      (config.regs i).ap = config.ap.value ∧
      (config.regs i).executeNever = config.executeNever := by
  have hle := (blockLog_le config.size).2
  unfold blockLog at hle
  have hap : config.ap.value.toNat < 8 := by cases config.ap <;> decide
  obtain ⟨h1, h2, h3, h4⟩ := decode_rasrOf config.memType config.enabled config.executeNever
    config.shareable ⟨sizeToMpuSize config.size, by omega⟩ ⟨config.ap.value.toNat, hap⟩
  have hrasr : (config.regs i).rasr = rasrOf (sizeToMpuSize config.size) config.ap.value.toNat
      config.memType config.enabled config.executeNever config.shareable := by
    unfold rasrOf
    rw [UInt32.ofNat_toNat]
    rfl
  rw [← hrasr] at h1 h2 h3 h4
  rw [UInt32.ofNat_toNat] at h3
  exact ⟨h1, congrArg (· + 1) h2, h3, h4⟩

/-- above its low bits `RBAR` is the base address -/
theorem rbar_div (config : RegionConfig) {i : Nat} (hi : i < maxRegions) {k : Nat} (hk : 5 ≤ k) :
    (config.regs i).rbar.toNat / 2 ^ k = config.baseAddr.toNat / 2 ^ k := by
  have hlow : ∀ i : Fin 8, (16 ||| i.val) >>> 5 = 0 := by decide
  have hi' : (UInt32.ofNat i).toNat = i :=
    UInt32.toNat_ofNat_of_lt' (Nat.lt_trans hi (by decide))
  have hrbar : (config.regs i).rbar.toNat =
      (config.baseAddr.toNat &&& 0xFFFFFFE0) ||| (16 ||| i) := by
    show ((config.baseAddr &&& ~~~(0x1F : UInt32)) ||| bit 4 ||| UInt32.ofNat i).toNat = _
    rw [UInt32.toNat_or, UInt32.toNat_or, UInt32.toNat_and, hi', Nat.or_assoc]
    rfl
  have hbase : config.baseAddr.toNat >>> 5 < 2 ^ 27 := by
    rw [Nat.shiftRight_eq_div_pow]
    exact Nat.div_lt_of_lt_mul config.baseAddr.toNat_lt
  have hfive : (config.regs i).rbar.toNat >>> 5 = config.baseAddr.toNat >>> 5 := by
    rw [hrbar, Nat.shiftRight_or_distrib, Nat.shiftRight_and_distrib, hlow ⟨i, hi⟩, Nat.or_zero,
      show 0xFFFFFFE0 >>> 5 = 2 ^ 27 - 1 from rfl, Nat.and_two_pow_sub_one_eq_mod,
      Nat.mod_eq_of_lt hbase]
  obtain ⟨j, rfl⟩ := Nat.exists_eq_add_of_le hk
  rw [← Nat.shiftRight_eq_div_pow, ← Nat.shiftRight_eq_div_pow, Nat.shiftRight_add,
    Nat.shiftRight_add, hfive]

theorem aligned_iff (config : RegionConfig) (hlt : blockLog config.size < 32) :
    config.aligned = true ↔ config.baseAddr.toNat % 2 ^ blockLog config.size = 0 := by
  have hbit : (actualSize config).toNat = 2 ^ blockLog config.size := toNat_bit hlt
  have hpos := Nat.two_pow_pos (blockLog config.size)
  have hsub : (actualSize config - 1).toNat = 2 ^ blockLog config.size - 1 := by
    rw [UInt32.toNat_sub, hbit, UInt32.toNat_one]
    have hle : 2 ^ blockLog config.size < 2 ^ 32 := Nat.pow_lt_pow_right (by decide) hlt
    omega
  unfold RegionConfig.aligned isAligned
  rw [beq_iff_eq, ← UInt32.toNat_inj, UInt32.toNat_and, hsub, Nat.and_two_pow_sub_one_eq_mod]
  rfl

/-! ## ranges and blocks -/

def RegionConfig.Contains (config : RegionConfig) (addr : Nat) : Prop :=
  config.baseAddr.toNat ≤ addr ∧ addr < config.baseAddr.toNat + config.size.toNat

/-- the smallest block of a power of two of bytes that contains the range contains the address: all
such blocks do -/
def RegionConfig.InBlock (config : RegionConfig) (addr : UInt32) : Prop :=
  ∀ k b, (∀ x, config.Contains x → x / 2 ^ k = b) → addr.toNat / 2 ^ k = b

def Covered (m : Mpu) (regionId : Nat) (config : RegionConfig) : Prop :=
  match configureRegion m regionId config with
  | (.error _, _) => True
  | (.ok (), m) => ∀ addr, config.Contains addr →
      addr / 2 ^ (m.regions regionId).sizeLog =
        (m.regions regionId).rbar.toNat / 2 ^ (m.regions regionId).sizeLog

theorem covered_ok (m : Mpu) {regionId : Nat} (hid : regionId < maxRegions)
    (haligned : config.aligned = true) : Covered m regionId config ↔
      ∀ addr, config.Contains addr → addr / 2 ^ blockLog config.size =
        config.baseAddr.toNat / 2 ^ blockLog config.size := by
  obtain ⟨-, hsize, -, -⟩ := decode config regionId
  unfold Covered configureRegion
  rw [if_neg (Nat.not_le.mpr hid), haligned, Bool.not_true, if_neg Bool.false_ne_true]
  dsimp only
  rw [Function.update_self, hsize, rbar_div config hid (blockLog_le config.size).1]

/-- **Main.** The size field is the least one.  A region is programmed that contains the range, or
an error is returned, exactly if the region does not exist, or the range is at most half of the
address space or ends in it. -/
theorem covered_iff (m : Mpu) (regionId : Nat) (config : RegionConfig)
    (hsize : 32 ≤ config.size) :
    config.size.toNat ≤ 2 ^ (sizeToMpuSize config.size + 1) ∧
      (∀ s, config.size.toNat ≤ 2 ^ (s + 1) → sizeToMpuSize config.size ≤ s) ∧
      (Covered m regionId config ↔ maxRegions ≤ regionId ∨ config.size ≤ 0x80000000 ∨
        config.baseAddr.toNat + config.size.toNat ≤ 2 ^ 32) := by
  have hge : 32 ≤ config.size.toNat := UInt32.le_iff_toNat_le.mp hsize
  have hroom := blockLog_room config.size
  have hhalf : 2 ^ (blockLog config.size - 1) < config.size.toNat := blockLog_spec (by omega)
  refine ⟨hroom, fun s hs => ?_, ?_⟩
  · have hlt : blockLog config.size - 1 < s + 1 :=
      (Nat.pow_lt_pow_iff_right (by decide)).mp (Nat.lt_of_lt_of_le hhalf hs)
    unfold blockLog at hlt
    omega
  by_cases hid : regionId < maxRegions
  · rw [or_iff_right (Nat.not_le.mpr hid)]
    by_cases hlarge : config.size ≤ 0x80000000
    · -- the block has less than the whole address space, and an aligned range lies in it
      have hle : config.size.toNat ≤ 2 ^ 31 := UInt32.le_iff_toNat_le.mp hlarge
      have hlt : blockLog config.size < 32 := by
        have hpow := Nat.lt_of_lt_of_le hhalf hle
        have hlog := (Nat.pow_lt_pow_iff_right (by decide)).mp hpow
        omega
      refine iff_of_true ?_ (.inl hlarge)
      by_cases haligned : config.aligned = true
      · rw [covered_ok m hid haligned]
        intro addr haddr
        have hstart := (aligned_iff config hlt).mp haligned
        have hpos := Nat.two_pow_pos (blockLog config.size)
        obtain ⟨q, hq⟩ := Nat.dvd_of_mod_eq_zero hstart
        obtain ⟨hlow, hhigh⟩ := haddr
        rw [hq] at hlow hhigh ⊢
        rw [Nat.mul_div_cancel_left _ hpos]
        refine Nat.div_eq_of_lt_le ?_ ?_
        · rwa [Nat.mul_comm]
        · rw [Nat.succ_mul, Nat.mul_comm]
          omega
      · unfold Covered configureRegion
        rw [if_neg (Nat.not_le.mpr hid), Bool.eq_false_iff.mpr haligned, Bool.not_false, if_pos rfl]
        trivial
    · -- the shift wraps: every base passes, and the region is the whole address space
      rw [or_iff_right hlarge]
      have hgt : 2 ^ 31 < config.size.toNat := by
        exact Nat.lt_of_not_le hlarge
      have hlog : blockLog config.size = 32 := by
        have hpow := Nat.lt_of_lt_of_le hgt hroom
        have hlow := (Nat.pow_lt_pow_iff_right (by decide)).mp hpow
        have hle := (blockLog_le config.size).2
        omega
      have haligned : config.aligned = true := by
        have hone : actualSize config = bit 32 := congrArg bit hlog
        unfold RegionConfig.aligned isAligned
        rw [hone, show bit 32 - 1 = 0 by decide, UInt32.and_zero]
        rfl
      rw [covered_ok m hid haligned, hlog, Nat.div_eq_of_lt config.baseAddr.toNat_lt]
      constructor
      · intro h
        have hlast := h (config.baseAddr.toNat + (config.size.toNat - 1)) ⟨by omega, by omega⟩
        omega
      · intro h addr haddr
        obtain ⟨-, hhigh⟩ := haddr
        exact Nat.div_eq_of_lt (by omega)
  · refine iff_of_true ?_ (.inl (Nat.not_lt.mp hid))
    unfold Covered configureRegion
    rw [if_pos (Nat.not_lt.mp hid)]
    trivial

/-- 64 KiB of RAM -/
theorem covered_ram : Covered .reset 3 ⟨0x20000000, 0x10000, .fullAccess, .normal, true, false, true⟩ :=
  (covered_iff .reset 3 ⟨0x20000000, 0x10000, .fullAccess, .normal, true, false, true⟩
    (by decide)).2.2.mpr (.inr (.inl (by decide)))

/-- the upper half of the address space and one byte more -/
theorem not_covered :
    ¬Covered .reset 3 ⟨0x80000000, 0x80000001, .fullAccess, .normal, true, false, true⟩ := by
  intro h
  have hlast : 2 ^ 32 / 2 ^ 32 = 0x80000000 / 2 ^ 32 := h (2 ^ 32) ⟨by decide, by decide⟩
  exact absurd hlast (by decide)

end Jezgro
end EkKor

/-!
# Isolation after a context switch

A switch writes the regions 3 and 4 and leaves the others as they are: what the registrations wrote
to 5 and 6 stays, and so does what 3 and 4 held when the new range is not aligned.

* `Inv`           what the registers and the contexts can be;
* `switched`      the registers after a switch;
* `Isolated`      a service reaches its own blocks only, and no data of another service;
* `Separated`     the condition on the state before the switch;
* `isolated_iff`  a switch isolates a service exactly under the condition.
-/

namespace EkKor
namespace Jezgro
open Runs (Machine)

/-! ## runs -/

inductive MpuOp where
  | init
  | register (desc : ServiceDesc)
  | switch (serviceId : UInt8)
  deriving DecidableEq, Repr

def mpu : Machine Mpu MpuOp (Except Err Unit) where
  start := Mpu.reset
  step m
    | .init => ((init m).2, [(init m).1])
    | .register desc => ((registerService m desc).2, [(registerService m desc).1])
    | .switch serviceId => ((switchContext m serviceId).2, [(switchContext m serviceId).1])

variable {m : Mpu} {i : Nat} {config : RegionConfig}

theorem configureRegion_eq (hi : i < maxRegions) : (configureRegion m i config).2 =
    { m with
      regions := if config.aligned then Function.update m.regions i (config.regs i)
        else m.regions } := by
  unfold configureRegion
  rw [if_neg (Nat.not_le.mpr hi)]
  cases config.aligned <;> rfl

def IsData (i : Nat) : Prop := i = 4 ∨ i = 6

theorem not_grantsWrite (i : Nat) (h : config.ap ≠ .fullAccess) :
    ¬ (config.regs i).GrantsWrite := by
  unfold RegionRegs.GrantsWrite
  rw [(decode config i).2.2.1]
  revert h
  cases config.ap <;> decide

/-- what the registers and the contexts can be -/
structure Inv (m : Mpu) : Prop where
  noWrite : ∀ i, ¬ IsData i → ¬ (m.regions i).GrantsWrite
  contexts : ∀ ctx ∈ m.contexts, ∃ desc, desc.id ≠ 0 ∧ ctx = contextOf desc

theorem contexts_configureRegion : (configureRegion m i config).2.contexts = m.contexts := by
  unfold configureRegion
  split_ifs <;> rfl

theorem Inv.configure (h : Inv m) (hi : i < maxRegions)
    (hdata : ¬ IsData i → config.ap ≠ .fullAccess) : Inv (configureRegion m i config).2 := by
  refine ⟨fun j hj => ?_, fun ctx hctx => h.contexts ctx (contexts_configureRegion ▸ hctx)⟩
  rw [configureRegion_eq hi]
  dsimp only
  split_ifs
  · by_cases hij : j = i
    · subst hij
      rw [Function.update_self]
      exact not_grantsWrite j (hdata hj)
    · rw [Function.update_of_ne hij]
      exact h.noWrite j hj
  · exact h.noWrite j hj

theorem codeRegion_ap (desc : ServiceDesc) : (codeRegion desc).ap ≠ .fullAccess := by
  unfold codeRegion
  dsimp only
  split_ifs <;> decide

def cleared (m : Mpu) : Mpu :=
  { m with ctrl := 0, regions := fun i => if i < numRegions then ⟨0, 0⟩ else m.regions i }

theorem Inv.cleared (h : Inv m) : Inv (cleared m) := by
  refine ⟨fun i hi => ?_, h.contexts⟩
  unfold Jezgro.cleared
  dsimp only
  split_ifs
  · decide
  · exact h.noWrite i hi

theorem Inv.init (h : Inv m) : Inv (Jezgro.init m).2 := by
  unfold Jezgro.init
  split_ifs
  · exact h
  · exact h
  · have hcode : Inv (configureRegion (Jezgro.cleared m) regionKernelCode kernelCode).2 :=
      h.cleared.configure (by decide) fun _ => nofun
    have hdata : Inv (configureRegion _ regionKernelData kernelData).2 :=
      hcode.configure (by decide) fun _ => nofun
    have hperipherals : Inv (configureRegion _ regionPeripherals peripherals).2 :=
      hdata.configure (by decide) fun _ => nofun
    exact ⟨hperipherals.noWrite, fun _ hctx => absurd hctx List.not_mem_nil⟩

theorem Inv.register (h : Inv m) (desc : ServiceDesc) : Inv (registerService m desc).2 := by
  unfold registerService
  split_ifs with hid hcount
  · exact h
  · exact h
  · dsimp only
    split_ifs with hregion
    · exact h
    have hlt : 4 + m.contexts.length * 2 < 8 := Nat.lt_of_not_le hregion
    have hcode : Inv (configureRegion m (regionService1Code + m.contexts.length * 2)
        (codeRegion desc)).2 :=
      h.configure (show 3 + m.contexts.length * 2 < 8 by omega) fun _ => codeRegion_ap desc
    have hdata : Inv (configureRegion _ (regionService1Data + m.contexts.length * 2)
        (dataRegion desc)).2 :=
      hcode.configure hlt fun hnot => by
        refine absurd ?_ hnot
        show 4 + m.contexts.length * 2 = 4 ∨ 4 + m.contexts.length * 2 = 6
        omega
    refine ⟨hdata.noWrite, fun ctx hctx => ?_⟩
    rcases List.mem_append.mp hctx with hold | hnew
    · exact hdata.contexts ctx hold
    · exact ⟨desc, hid, List.mem_singleton.mp hnew⟩

/-! ## a switch -/

variable {serviceId : UInt8}

theorem findContext_mem {ctx : Context} (hctx : m.findContext serviceId = some ctx) :
    ctx ∈ m.contexts ∧ ctx.serviceId = serviceId := by
  have hfound := List.find?_some hctx
  exact ⟨List.mem_of_find?_eq_some hctx, beq_iff_eq.mp hfound⟩

def switched (m : Mpu) (ctx : Context) (i : Nat) : RegionRegs :=
  if i = 4 ∧ ctx.data.aligned = true then ctx.data.regs 4
  else if i = 3 ∧ ctx.code.aligned = true then ctx.code.regs 3
  else m.regions i

theorem switchContext_eq (h : Inv m) {ctx : Context} (hctx : m.findContext serviceId = some ctx) :
    switchContext m serviceId = (.ok (),
      { m with
        regions := switched m ctx
        ctrl := ctrlEnabled
        currentService := serviceId }) := by
  obtain ⟨hmem, rfl⟩ := findContext_mem hctx
  obtain ⟨desc, hid, hdesc⟩ := h.contexts ctx hmem
  have hne : ctx.serviceId ≠ 0 := hdesc ▸ hid
  unfold switchContext
  rw [if_neg hne, hctx]
  dsimp only
  rw [configureRegion_eq (by decide), configureRegion_eq (by decide)]
  refine congrArg _ ?_
  refine congrArg (fun regions : Nat → RegionRegs => { m with
    regions := regions
    ctrl := ctrlEnabled
    currentService := ctx.serviceId }) (funext fun i => ?_)
  unfold switched
  cases ctx.data.aligned <;> cases ctx.code.aligned <;>
    simp [Function.update_apply, regionService1Code, regionService1Data]

theorem Inv.switch (h : Inv m) (serviceId : UInt8) : Inv (switchContext m serviceId).2 := by
  cases hctx : m.findContext serviceId with
  | none =>
    unfold switchContext
    split_ifs
    · exact ⟨h.noWrite, h.contexts⟩
    · rw [hctx]
      exact h
  | some ctx =>
    obtain ⟨desc, hid, hdesc⟩ := h.contexts ctx (findContext_mem hctx).1
    rw [switchContext_eq h hctx]
    refine ⟨fun i hi => ?_, h.contexts⟩
    show ¬ (switched m ctx i).GrantsWrite
    unfold switched
    split_ifs with h4 h3
    · exact absurd (.inl h4.1) hi
    · have hcode : ctx.code = codeRegion desc := congrArg Context.code hdesc
      rw [hcode]
      exact not_grantsWrite 3 (codeRegion_ap desc)
    · exact h.noWrite i hi

theorem inv_run (es : List MpuOp) : Inv (mpu.run es) := by
  have hreset : Inv Mpu.reset :=
    ⟨fun _ _ => (by decide : ¬ (⟨0, 0⟩ : RegionRegs).GrantsWrite),
      fun _ hctx => absurd hctx List.not_mem_nil⟩
  refine mpu.invariant hreset (fun s e h => ?_) es
  cases e with
  | init => exact h.init
  | register desc => exact h.register desc
  | switch serviceId => exact h.switch serviceId

/-! ## isolation -/

def Context.Own (ctx : Context) (addr : UInt32) : Prop :=
  ctx.code.InBlock addr ∨ ctx.data.InBlock addr

def RegionRegs.Grants (r : RegionRegs) : Prop := r.GrantsWrite ∨ r.GrantsExecute

instance instDecidableGrants (r : RegionRegs) : Decidable r.Grants :=
  inferInstanceAs (Decidable (_ ∨ _))

def RegionConfig.Reaches (config : RegionConfig) (addr : UInt32) : Prop :=
  addr.toNat / 2 ^ blockLog config.size = config.baseAddr.toNat / 2 ^ blockLog config.size

/-- the region of the range is not larger than its block, or lies in the blocks of the service -/
def Context.Fits (ctx : Context) (config : RegionConfig) : Prop :=
  config.aligned = true → 16 < config.size.toNat ∨ ∀ addr, config.Reaches addr → ctx.Own addr

def Context.Keeps (ctx : Context) (i : Nat) : Prop :=
  (i = 4 → ctx.data.aligned = false) ∧ (i = 3 → ctx.code.aligned = false)

section
variable {ctx : Context}

theorem IsData.lt (h : IsData i) : 3 < i ∧ i < maxRegions := by
  rcases h with rfl | rfl <;> decide

end

/-! ## one service, and two -/

def first : ServiceDesc := userService 1 0x08010000 0x20004000
def second : ServiceDesc := userService 2 0x08020000 0x20008000

end Jezgro
end EkKor
