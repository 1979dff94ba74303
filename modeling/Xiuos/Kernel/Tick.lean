import Mathlib.Algebra.Order.Field.Basic
import Mathlib.Tactic.Linarith
import Mathlib.Tactic.Ring

namespace Xiuos.Kernel
open Nat

def waitingForever : UInt32 := 0xffffffff

def minTicks : UInt32 := 1

variable (tickPerSecond ms : UInt32)

def calculteTickFromTimeMs (tickPerSecond ms : UInt32) : UInt32 :=
  let product := (ms * tickPerSecond).toUInt64
  let ticks := (product / 1000).toUInt32
  if 0 = ticks then minTicks
  else
    let tmp := (product % 1000).toUInt32
    if tmp ≥ 5 ∧ tmp ≤ 9 then ticks + minTicks else ticks

variable (product : Nat)

def RoundsUp (product : Nat) : Prop :=
  1000 ≤ product ∧ 5 ≤ product % 1000 ∧ product % 1000 ≤ 9

instance (product : Nat) : Decidable (RoundsUp product) := inferInstanceAs (Decidable (_ ∧ _ ∧ _))

def ticksOf (product : Nat) : Nat :=
  if product < 1000 then 1 else product / 1000 + if RoundsUp product then 1 else 0

def product32 (tickPerSecond ms : UInt32) : Nat := ms.toNat * tickPerSecond.toNat % 2 ^ 32

lemma calculteTickFromTimeMs_toNat :
    (calculteTickFromTimeMs tickPerSecond ms).toNat = ticksOf (product32 tickPerSecond ms) := by
  have hlt : product32 tickPerSecond ms < 2 ^ 32 := mod_lt _ (by decide)
  have hproduct : (ms * tickPerSecond).toUInt64.toNat = product32 tickPerSecond ms := by
    rw [UInt32.toNat_toUInt64, UInt32.toNat_mul, product32]
  have hthousand : (1000 : UInt64).toNat = 1000 := rfl
  have hticks : ((ms * tickPerSecond).toUInt64 / 1000).toUInt32.toNat =
      product32 tickPerSecond ms / 1000 := by
    rw [UInt64.toNat_toUInt32, UInt64.toNat_div, hproduct, hthousand]
    exact mod_eq_of_lt (by omega)
  have htmp : ((ms * tickPerSecond).toUInt64 % 1000).toUInt32.toNat =
      product32 tickPerSecond ms % 1000 := by
    rw [UInt64.toNat_toUInt32, UInt64.toNat_mod, hproduct, hthousand]
    exact mod_eq_of_lt (by omega)
  have hmin : minTicks.toNat = 1 := rfl
  have hfive : (5 : UInt32).toNat = 5 := rfl
  have hnine : (9 : UInt32).toNat = 9 := rfl
  have hempty : 0 = ((ms * tickPerSecond).toUInt64 / 1000).toUInt32 ↔
      product32 tickPerSecond ms < 1000 := by
    rw [← UInt32.toNat_inj, hticks, UInt32.toNat_zero]
    omega
  have hup : ¬ product32 tickPerSecond ms < 1000 →
      (((ms * tickPerSecond).toUInt64 % 1000).toUInt32 ≥ 5 ∧
        ((ms * tickPerSecond).toUInt64 % 1000).toUInt32 ≤ 9 ↔
      RoundsUp (product32 tickPerSecond ms)) := by
    intro hlarge
    rw [ge_iff_le, UInt32.le_iff_toNat_le, UInt32.le_iff_toNat_le, htmp, hfive, hnine, RoundsUp]
    omega
  rw [calculteTickFromTimeMs, ticksOf]
  simp only [hempty]
  split
  · exact hmin
  · rename_i hlarge
    simp only [hup hlarge]
    split
    · rw [UInt32.toNat_add, hticks, hmin]
      omega
    · exact hticks

structure Converts (tickPerSecond ms ms' : UInt32) : Prop where
  one_le : 1 ≤ calculteTickFromTimeMs tickPerSecond ms
  mono : calculteTickFromTimeMs tickPerSecond ms ≤ calculteTickFromTimeMs tickPerSecond ms'
  close : calculteTickFromTimeMs tickPerSecond ms = 1 ∨
    |((calculteTickFromTimeMs tickPerSecond ms).toNat : ℚ) -
      ms.toNat * tickPerSecond.toNat / 1000| < 1

def ProductFits (tickPerSecond ms : UInt32) : Prop :=
  ms.toNat * tickPerSecond.toNat < 2 ^ 32 ∨
    product32 tickPerSecond ms < 2000 ∧ ¬ RoundsUp (product32 tickPerSecond ms)

def RoundsInOrder (product product' : Nat) : Prop :=
  product / 1000 < product' / 1000 ∨
  product / 1000 = product' / 1000 ∧ (RoundsUp product → RoundsUp product') ∨
  product / 1000 = product' / 1000 + 1 ∧ ¬ RoundsUp product ∧
    (product' < 1000 ∨ RoundsUp product')

lemma one_le_ticksOf : 1 ≤ ticksOf product := by
  rw [ticksOf]
  split <;> omega

lemma ticksOf_eq_one_iff : ticksOf product = 1 ↔ product < 2000 ∧ ¬ RoundsUp product := by
  rw [ticksOf]
  split_ifs <;>
  · unfold RoundsUp at *
    omega

lemma ticksOf_le_iff (product product' : Nat) :
    ticksOf product ≤ ticksOf product' ↔ RoundsInOrder product product' := by
  rw [ticksOf, ticksOf]
  split_ifs <;>
  · simp only [RoundsInOrder, RoundsUp] at *
    omega

lemma abs_sub_div_lt_one_iff (n m : Nat) :
    |(n : ℚ) - m / 1000| < 1 ↔ 1000 * n < m + 1000 ∧ m < 1000 * n + 1000 := by
  have hcast : (n : ℚ) - m / 1000 = ((1000 * n : ℕ) - (m : ℕ)) / 1000 := by
    push_cast
    ring
  rw [hcast, abs_div, abs_of_pos (by norm_num : (0 : ℚ) < 1000), div_lt_one (by norm_num), abs_lt]
  constructor
  · rintro ⟨hlow, hhigh⟩
    exact ⟨by exact_mod_cast (by linarith : ((1000 * n : ℕ) : ℚ) < m + 1000),
      by exact_mod_cast (by linarith : (m : ℚ) < (1000 * n : ℕ) + 1000)⟩
  · rintro ⟨hhigh, hlow⟩
    have hhigh' : ((1000 * n : ℕ) : ℚ) < m + 1000 := by exact_mod_cast hhigh
    have hlow' : (m : ℚ) < (1000 * n : ℕ) + 1000 := by exact_mod_cast hlow
    exact ⟨by linarith, by linarith⟩

lemma close_iff :
    ticksOf (product32 tickPerSecond ms) = 1 ∨
      |(ticksOf (product32 tickPerSecond ms) : ℚ) - ms.toNat * tickPerSecond.toNat / 1000| < 1 ↔
    ProductFits tickPerSecond ms := by
  rw [ProductFits, ← ticksOf_eq_one_iff, ← cast_mul, abs_sub_div_lt_one_iff, or_comm]
  refine or_congr_left' fun hne => ?_
  have hmod := div_add_mod (ms.toNat * tickPerSecond.toNat) (2 ^ 32)
  rw [product32] at hne ⊢
  generalize ms.toNat * tickPerSecond.toNat = product at hne hmod ⊢
  generalize hleft : product % 2 ^ 32 = left at hne hmod ⊢
  have hlt : left < 2 ^ 32 := hleft ▸ mod_lt _ (by decide)
  have hlarge : ¬ left < 1000 := fun h => hne (by rw [ticksOf, if_pos h])
  rw [ticksOf, if_neg hlarge]
  split
  · rename_i hup
    have := hup.2
    omega
  · omega

theorem converts_iff (tickPerSecond ms ms' : UInt32) : Converts tickPerSecond ms ms' ↔
    ProductFits tickPerSecond ms ∧
      RoundsInOrder (product32 tickPerSecond ms) (product32 tickPerSecond ms') := by
  have hone : (1 : UInt32).toNat = 1 := rfl
  rw [← close_iff, ← ticksOf_le_iff]
  constructor
  · intro h
    have hclose := h.close
    have hmono := h.mono
    rw [← UInt32.toNat_inj, calculteTickFromTimeMs_toNat, hone] at hclose
    rw [UInt32.le_iff_toNat_le, calculteTickFromTimeMs_toNat, calculteTickFromTimeMs_toNat] at hmono
    exact ⟨hclose, hmono⟩
  · rintro ⟨hclose, hmono⟩
    constructor
    · rw [UInt32.le_iff_toNat_le, calculteTickFromTimeMs_toNat, hone]
      exact one_le_ticksOf _
    · rwa [UInt32.le_iff_toNat_le, calculteTickFromTimeMs_toNat, calculteTickFromTimeMs_toNat]
    · rwa [← UInt32.toNat_inj, calculteTickFromTimeMs_toNat, hone]

theorem calculteTick_decreases : (42949672 : UInt32) ≤ 42949673 ∧
    (42949673 : UInt32) ≠ waitingForever ∧ ¬ Converts 100 42949672 42949673 := by
  refine ⟨by decide, by decide, fun h => ?_⟩
  have hmono := h.mono
  revert hmono
  decide

end Xiuos.Kernel
