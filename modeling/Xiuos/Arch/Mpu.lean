import Xiuos.Kernel.Bitmap
import Mathlib.Data.Nat.Size

/-! `mpu.c` of the Cortex-M4: the regions of a task. -/

namespace Xiuos.Arch
open Nat

inductive RegionType
  | code
  | data
  | bss
  | heap
  | other
  deriving DecidableEq

structure MpuConfig where
  rasr : UInt32
  rbar : UInt32

structure Mpu where
  count : UInt8
  region : Nat → MpuConfig

def mpuMaxRegionNum : Nat := 8

def mpuEnable : UInt32 := (1 : UInt32) <<< 0

def mpuRbarValid : UInt32 := (1 : UInt32) <<< 4

def mpuRasrApRoRo : UInt32 := (6 : UInt32) <<< 24

def mpuRasrApRwRw : UInt32 := (3 : UInt32) <<< 24

def mpuRasrTex0 : UInt32 := (0 : UInt32) <<< 19

def mpuRasrC : UInt32 := (1 : UInt32) <<< 17

def mpuRasrS : UInt32 := (1 : UInt32) <<< 18

def mpuRasrRegionSize (n : UInt32) : UInt32 := (n - 1) <<< 1

def mpuAlign (size align : UInt32) : UInt32 := size &&& ~~~ (align - 1)

def mpuAllocateRegion (mpu : Mpu) : Mpu × Int8 :=
  if mpu.count.toNat < mpuMaxRegionNum - 1 then
    ({ mpu with count := mpu.count + 1 }, mpu.count.toInt8)
  else (mpu, -1)

def log2Ceil : Nat → UInt32 → UInt32 → UInt32
  | 0, _, csize => csize
  | n + 1, size, csize => if size > 0 then log2Ceil n (size >>> 1) (csize + 1) else csize

def mpuLog2Ceil (size : UInt32) : UInt32 := log2Ceil 32 size 0

def mpuFlag : RegionType → UInt32
  | .code => mpuRasrApRoRo ||| mpuRasrTex0 ||| mpuRasrC ||| mpuRasrS
  | .data | .bss | .heap => mpuRasrApRwRw ||| mpuRasrTex0 ||| mpuRasrC ||| mpuRasrS
  | .other => 0

def mpuAddRegion (taskMpu : Option Mpu) (addr size : UInt32) (type : RegionType) :
    Option Mpu × Int8 :=
  match taskMpu with
  | none => (none, -1)
  | some mpu =>
    let (mpu, region) := mpuAllocateRegion mpu
    if region < 0 then (some mpu, region)
    else
      let l2size := mpuLog2Ceil size
      let addr := mpuAlign addr (1 <<< l2size)
      let config := {
        rasr := mpuFlag type ||| mpuRasrRegionSize l2size ||| mpuEnable
        rbar := addr ||| mpuRbarValid ||| region.toUInt8.toUInt32 }
      (some { mpu with region := Function.update mpu.region region.toNatClampNeg config }, region)

def MpuConfig.size (config : MpuConfig) : Nat := 2 ^ ((config.rasr.toNat / 2) % 32 + 1)

def MpuConfig.base (config : MpuConfig) : Nat := config.rbar.toNat / config.size * config.size

def MpuConfig.Covers (config : MpuConfig) (addr size : Nat) : Prop :=
  config.base ≤ addr ∧ addr + size ≤ config.base + config.size

instance (config : MpuConfig) (addr size : Nat) : Decidable (config.Covers addr size) :=
  inferInstanceAs (Decidable (_ ∧ _))

lemma size_shiftRight {n : Nat} (h : 0 < n) : n.size = (n >>> 1).size + 1 := by
  have hbit : Nat.bit (n.testBit 0) (n >>> 1) = n := bit_testBit_zero_shiftRight_one n
  have hsize := size_bit (b := n.testBit 0) (n := n >>> 1) (by omega)
  rw [hbit] at hsize
  exact hsize

lemma log2Ceil_toNat (n : Nat) (size csize : UInt32) (hsize : size.toNat < 2 ^ n)
    (hc : csize.toNat + n < 2 ^ 32) :
    (log2Ceil n size csize).toNat = csize.toNat + size.toNat.size := by
  induction n generalizing size csize with
  | zero =>
    have hz : size.toNat = 0 := by omega
    simp [log2Ceil, hz]
  | succ n ih =>
    rw [log2Ceil]
    by_cases h : size > 0
    · have hpos : 0 < size.toNat := UInt32.lt_iff_toNat_lt.mp h
      have hshift : (size >>> 1).toNat = size.toNat >>> 1 := by simp
      have hsucc : (csize + 1).toNat = csize.toNat + 1 := by
        rw [UInt32.toNat_add]
        exact mod_eq_of_lt (by simp; omega)
      have hlt : (size >>> 1).toNat < 2 ^ n := by
        rw [hshift, shiftRight_one]
        omega
      rw [if_pos h, ih _ _ hlt (by omega), hshift, hsucc, size_shiftRight hpos]
      omega
    · have hz : size.toNat = 0 := by
        have := UInt32.not_lt.mp h
        simpa [UInt32.le_iff_toNat_le] using this
      rw [if_neg h, hz, size_zero, Nat.add_zero]

lemma mpuLog2Ceil_toNat (size : UInt32) : (mpuLog2Ceil size).toNat = size.toNat.size := by
  have h := log2Ceil_toNat 32 size 0 size.toNat_lt (by decide)
  simpa [mpuLog2Ceil] using h

lemma rasr_size (type : RegionType) {l : UInt32} (hpos : 0 < l.toNat) (hl : l.toNat < 33) :
    (mpuFlag type ||| mpuRasrRegionSize l ||| mpuEnable).toNat / 2 % 32 + 1 = l.toNat := by
  obtain ⟨n, hn⟩ : ∃ n : Fin 32, l = UInt32.ofNat (n + 1) :=
    ⟨⟨l.toNat - 1, by omega⟩, by rw [Nat.sub_add_cancel hpos, UInt32.ofNat_toNat]⟩
  subst hn
  cases type <;> revert n <;> decide +kernel

lemma rbar_base (addr region : UInt32) {l : UInt32} (hlow : 5 ≤ l.toNat) (hl : l.toNat < 32)
    (hr : region.toNat < 16) :
    (mpuAlign addr (1 <<< l) ||| mpuRbarValid ||| region).toNat / 2 ^ l.toNat =
      addr.toNat / 2 ^ l.toNat := by
  have hone : ((1 : UInt32) <<< l).toNat = 2 ^ l.toNat := by
    rw [UInt32.toNat_shiftLeft, mod_eq_of_lt hl]
    simpa [shiftLeft_eq] using
      mod_eq_of_lt (Nat.pow_lt_pow_right (show 1 < 2 by decide) hl)
  have hmask : ((1 : UInt32) <<< l - 1).toNat = 2 ^ l.toNat - 1 := by
    rw [UInt32.toNat_sub_of_le, hone]
    · rfl
    · rw [UInt32.le_iff_toNat_le, hone]
      exact Nat.one_le_two_pow
  apply eq_of_testBit_eq
  intro i
  have halign : (mpuAlign addr (1 <<< l)).toNat.testBit (l.toNat + i) =
      addr.toNat.testBit (l.toNat + i) := by
    rw [Bool.eq_iff_iff, mpuAlign, Kernel.testBit_andNot32, hmask, testBit_two_pow_sub_one]
    simp
  have hvalid : mpuRbarValid.toNat.testBit (l.toNat + i) = false :=
    testBit_lt_two_pow (lt_of_lt_of_le (by decide) (Nat.pow_le_pow_right (by decide)
      (show 5 ≤ l.toNat + i by omega)))
  have hregion : region.toNat.testBit (l.toNat + i) = false :=
    testBit_lt_two_pow (lt_of_lt_of_le (show region.toNat < 2 ^ 5 by omega)
      (Nat.pow_le_pow_right (by decide) (show 5 ≤ l.toNat + i by omega)))
  rw [testBit_div_two_pow, testBit_div_two_pow, UInt32.toNat_or, UInt32.toNat_or,
    testBit_or, testBit_or, Nat.add_comm i, halign, hvalid, hregion]
  simp

variable {region : Int8}

lemma mpuAllocateRegion_toNat {mpu mpu' : Mpu} (h : mpuAllocateRegion mpu = (mpu', region))
    (hr : ¬ region < 0) : region.toUInt8.toNat < 7 := by
  rw [mpuAllocateRegion] at h
  split at h
  case isTrue hcount =>
    have hregion : mpu.count.toInt8 = region := congrArg Prod.snd h
    rw [← hregion]
    exact hcount
  case isFalse =>
    have hregion : -1 = region := congrArg Prod.snd h
    exact absurd (hregion ▸ by decide) hr

lemma mpuAddRegion_region {taskMpu : Option Mpu} {addr size : UInt32} {type : RegionType}
    {mpu : Mpu} (h : mpuAddRegion taskMpu addr size type = (some mpu, region)) (hr : 0 ≤ region) :
    region.toUInt8.toNat < 7 ∧
      mpu.region region.toNatClampNeg = {
        rasr := mpuFlag type ||| mpuRasrRegionSize (mpuLog2Ceil size) ||| mpuEnable
        rbar := mpuAlign addr (1 <<< mpuLog2Ceil size) ||| mpuRbarValid |||
          region.toUInt8.toUInt32 } := by
  cases taskMpu with
  | none => simp [mpuAddRegion] at h
  | some old =>
    obtain ⟨mpu', region', halloc⟩ : ∃ mpu' region', mpuAllocateRegion old = (mpu', region') :=
      ⟨_, _, rfl⟩
    simp only [mpuAddRegion, halloc] at h
    split at h
    case isTrue hneg =>
      have hregion : region' = region := congrArg Prod.snd h
      exact absurd (hregion ▸ hneg) (Int8.not_lt.mpr hr)
    case isFalse hneg =>
      simp only [Prod.mk.injEq, Option.some.injEq] at h
      obtain ⟨rfl, rfl⟩ := h
      exact ⟨mpuAllocateRegion_toNat halloc hneg, Function.update_self ..⟩

theorem mpuAddRegion_covers_iff {taskMpu : Option Mpu} {addr size : UInt32} {type : RegionType}
    {mpu : Mpu} {region : Int8} (hmin : 32 ≤ size.toNat) (hmax : size.toNat ≤ 2 ^ 30)
    (h : mpuAddRegion taskMpu addr size type = (some mpu, region)) (hr : 0 ≤ region) :
    (mpu.region region.toNatClampNeg).Covers addr.toNat size.toNat ↔
      addr.toNat % 2 ^ size.toNat.size + size.toNat ≤ 2 ^ size.toNat.size := by
  obtain ⟨hlt, hconfig⟩ := mpuAddRegion_region h hr
  have hl := mpuLog2Ceil_toNat size
  have hlow : 5 < size.toNat.size := lt_size.mpr hmin
  have hhigh : size.toNat.size ≤ 31 := Nat.size_le.mpr (by omega)
  have hsize : (mpu.region region.toNatClampNeg).size = 2 ^ size.toNat.size := by
    rw [MpuConfig.size, hconfig, rasr_size type (by omega) (by omega), hl]
  have hbase : (mpu.region region.toNatClampNeg).base =
      addr.toNat / 2 ^ size.toNat.size * 2 ^ size.toNat.size := by
    rw [MpuConfig.base, hsize, hconfig, ← hl]
    rw [rbar_base addr region.toUInt8.toUInt32 (by omega) (by omega) (by simpa using by omega)]
  have hsplit := div_add_mod' addr.toNat (2 ^ size.toNat.size)
  rw [MpuConfig.Covers, hbase, hsize]
  omega

def mpuClear : Mpu := { count := 0, region := fun _ => { rasr := 0, rbar := 0 } }

theorem mpuAddRegion_crosses :
    ∃ mpu, mpuAddRegion (some mpuClear) 0x20000020 0x30 .heap = (some mpu, 0) ∧
      ¬ (mpu.region 0).Covers 0x20000020 0x30 := ⟨_, rfl, by decide +kernel⟩

theorem mpuAddRegion_covers_iff_sample :
    ∃ mpu, mpuAddRegion (some mpuClear) 0x20000000 0x30 .heap = (some mpu, 0) ∧
      (mpu.region 0).Covers 0x20000000 0x30 := by
  obtain ⟨mpu, h⟩ : ∃ mpu, mpuAddRegion (some mpuClear) 0x20000000 0x30 .heap = (some mpu, 0) :=
    ⟨_, rfl⟩
  exact ⟨mpu, h, (mpuAddRegion_covers_iff (by decide) (by decide) h (by decide)).mpr (by decide)⟩

end Xiuos.Arch
