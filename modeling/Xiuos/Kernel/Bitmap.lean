import Mathlib

/-! The bitmap of ready priorities: `bitmap.c`, the site of a priority in it, and the flags that
`assign.c` merges and clears. -/

namespace Xiuos.Kernel
open Function Nat

def leaderZeroCount : List Nat :=
  [8, 7, 6, 6, 5, 5, 5, 5, 4, 4, 4, 4, 4, 4, 4, 4] ++ List.replicate 16 3 ++
    List.replicate 32 2 ++ List.replicate 64 1 ++ List.replicate 128 0

def prioCaculate (bitmap : UInt32) : Nat :=
  if bitmap &&& 0xff000000 ≠ 0 then
    31 - leaderZeroCount.getD ((bitmap &&& 0xff000000) >>> 24).toNat 0
  else if bitmap &&& 0xff0000 ≠ 0 then
    23 - leaderZeroCount.getD ((bitmap &&& 0xff0000) >>> 16).toNat 0
  else if bitmap &&& 0xff00 ≠ 0 then
    15 - leaderZeroCount.getD ((bitmap &&& 0xff00) >>> 8).toNat 0
  else if bitmap &&& 0xff ≠ 0 then 7 - leaderZeroCount.getD (bitmap &&& 0xff).toNat 0
  else 0

lemma leaderZeroCount_eq {b : Nat} (hb : b < 256) (hne : b ≠ 0) :
    leaderZeroCount.getD b 0 = 7 - b.log2 := by
  have h : ∀ b : Fin 256, b.val ≠ 0 → leaderZeroCount.getD b.val 0 = 7 - b.val.log2 := by
    decide +kernel
  exact h ⟨b, hb⟩ hne

lemma log2_div {n k : Nat} (h : n / 2 ^ k ≠ 0) : n.log2 = (n / 2 ^ k).log2 + k := by
  have hn : n ≠ 0 := by
    rintro rfl
    simp at h
  rw [log2_eq_iff hn]
  have h1 := log2_self_le h
  have h2 := @Nat.lt_log2_self (n / 2 ^ k)
  rw [Nat.le_div_iff_mul_le (by positivity), ← pow_add] at h1
  rw [Nat.div_lt_iff_lt_mul (by positivity), ← pow_add] at h2
  exact ⟨h1, by rwa [Nat.add_right_comm]⟩

section
variable (bitmap : UInt32)
include bitmap
variable {k : Nat} {mask : UInt32}

lemma toNat_and_mask (hm : mask.toNat = 255 <<< k) :
    (bitmap &&& mask).toNat = (bitmap.toNat / 2 ^ k % 256) * 2 ^ k := by
  have hbits : bitmap.toNat &&& 255 <<< k = ((bitmap.toNat >>> k) &&& 255) <<< k := by
    apply eq_of_testBit_eq
    intro i
    by_cases hi : k ≤ i
    · simp [testBit_shiftLeft, hi]
    · simp [testBit_shiftLeft, hi]
  rw [UInt32.toNat_and, hm, hbits, shiftLeft_eq, shiftRight_eq_div_pow,
    and_two_pow_sub_one_eq_mod _ 8]

lemma prio_byte {mask s : UInt32} (hm : mask.toNat = 255 <<< k) (hs : s.toNat = k) (hk : k ≤ 24)
    (htop : bitmap.toNat / 2 ^ (k + 8) = 0) (hne : bitmap &&& mask ≠ 0) :
    (k + 7) - leaderZeroCount.getD ((bitmap &&& mask) >>> s).toNat 0 = bitmap.toNat.log2 := by
  have hbyte : bitmap.toNat / 2 ^ k % 256 = bitmap.toNat / 2 ^ k := by
    apply mod_eq_of_lt
    rw [Nat.div_lt_iff_lt_mul (by positivity), mul_comm, show 256 = 2 ^ 8 from rfl, ← pow_add]
    exact (div_eq_zero_iff_lt (by positivity)).mp htop
  have hand := toNat_and_mask bitmap hm
  rw [hbyte] at hand
  have hdiv : bitmap.toNat / 2 ^ k ≠ 0 := by
    intro h0
    rw [h0, Nat.zero_mul] at hand
    exact hne (UInt32.toNat_inj.mp hand)
  have hlt : bitmap.toNat / 2 ^ k < 256 := hbyte ▸ mod_lt _ (by decide)
  have hlog : (bitmap.toNat / 2 ^ k).log2 < 8 := (log2_lt hdiv).mpr hlt
  rw [UInt32.toNat_shiftRight, hs, mod_eq_of_lt (by omega), hand, shiftRight_eq_div_pow,
    Nat.mul_div_cancel _ (by positivity), leaderZeroCount_eq hlt hdiv, log2_div hdiv]
  omega

lemma div_eq_zero_of_and_mask (hm : mask.toNat = 255 <<< k)
    (htop : bitmap.toNat / 2 ^ (k + 8) = 0) (h : ¬ bitmap &&& mask ≠ 0) :
    bitmap.toNat / 2 ^ k = 0 := by
  have hand := toNat_and_mask bitmap hm
  rw [not_not.mp h, UInt32.toNat_zero, eq_comm, Nat.mul_eq_zero] at hand
  have hzero := hand.resolve_right (by positivity)
  rw [pow_add, ← Nat.div_div_eq_div_mul] at htop
  have := div_add_mod (bitmap.toNat / 2 ^ k) 256
  omega

lemma prioCaculate_eq : prioCaculate bitmap = bitmap.toNat.log2 := by
  have hlt := bitmap.toNat_lt
  have h24 : bitmap.toNat / 2 ^ (24 + 8) = 0 := div_eq_of_lt hlt
  rw [prioCaculate]
  split
  · exact prio_byte bitmap rfl rfl (by decide) h24 ‹_›
  · have h16 := div_eq_zero_of_and_mask bitmap rfl h24 ‹_›
    split
    · exact prio_byte bitmap rfl rfl (by decide) h16 ‹_›
    · have h8 := div_eq_zero_of_and_mask bitmap rfl h16 ‹_›
      split
      · exact prio_byte bitmap rfl rfl (by decide) h8 ‹_›
      · have h0 := div_eq_zero_of_and_mask bitmap rfl h8 ‹_›
        split
        · have h := prio_byte bitmap (rfl : (0xff : UInt32).toNat = 255 <<< 0)
            (rfl : (0 : UInt32).toNat = 0) (by decide) h0 ‹_›
          rwa [UInt32.shiftRight_zero] at h
        · have h := div_eq_zero_of_and_mask bitmap (rfl : (0xff : UInt32).toNat = 255 <<< 0) h0 ‹_›
          rw [pow_zero, Nat.div_one] at h
          rw [h]
          rfl

lemma prioCaculate_lt : prioCaculate bitmap < 32 := by
  rw [prioCaculate_eq]
  by_cases h : bitmap.toNat = 0
  · rw [h]
    decide
  · exact (log2_lt h).mpr bitmap.toNat_lt

end

structure BitmapSite where
  offset : Fin 32
  row : UInt8
  column : UInt32
  deriving DecidableEq

def BitmapSite.zero : BitmapSite := ⟨0, 0, 0⟩

variable (prioMax : Nat)

def bitmapSiteMask (prioMax : Nat) (prio : UInt8) (site : BitmapSite) : BitmapSite :=
  if 32 < prioMax then
    ⟨⟨prio.toNat / 8, by have := prio.toNat_lt; omega⟩, 1 <<< (prio &&& 0x7),
      1 <<< (prio / 8).toUInt32⟩
  else { site with column := 1 <<< prio.toUInt32 }

/-- The ready table without its lists.  `readyVector` is there with 256 priorities only. -/
structure OsAssignReadyVector where
  priorityReadyGroup : UInt32
  readyVector : Fin 32 → UInt8
  highestPrio : Nat
  deriving DecidableEq

def OsAssignReadyVector.zero : OsAssignReadyVector := ⟨0, fun _ => 0, 0⟩

variable (v : OsAssignReadyVector) (site : BitmapSite)

def mergeFlags (prioMax : Nat) (v : OsAssignReadyVector) (site : BitmapSite) :
    OsAssignReadyVector :=
  let v := if 32 < prioMax then
      { v with
        readyVector := update v.readyVector site.offset (v.readyVector site.offset ||| site.row) }
    else v
  { v with priorityReadyGroup := v.priorityReadyGroup ||| site.column }

def clearFlags (prioMax : Nat) (v : OsAssignReadyVector) (site : BitmapSite) :
    OsAssignReadyVector :=
  if 32 < prioMax then
    let ready := update v.readyVector site.offset (v.readyVector site.offset &&& ~~~site.row)
    let group := if ready site.offset = 0 then v.priorityReadyGroup &&& ~~~site.column
      else v.priorityReadyGroup
    let number := prioCaculate group
    ⟨group, ready, number * 8 + prioCaculate (ready ⟨number, prioCaculate_lt _⟩).toUInt32⟩
  else
    let group := v.priorityReadyGroup &&& ~~~site.column
    ⟨group, v.readyVector, prioCaculate group⟩

structure Marks (prioMax : Nat) (v : OsAssignReadyVector) (S : Set Nat) : Prop where
  single : prioMax ≤ 32 → ∀ p, v.priorityReadyGroup.toNat.testBit p ↔ p ∈ S
  row : 32 < prioMax → ∀ (i : Fin 32), ∀ j < 8, (v.readyVector i).toNat.testBit j ↔ 8 * i + j ∈ S
  column : 32 < prioMax → ∀ i, v.priorityReadyGroup.toNat.testBit i ↔ ∃ j < 8, 8 * i + j ∈ S
  highest : (S = ∅ ∧ v.highestPrio = 0) ∨ IsGreatest S v.highestPrio

lemma marks_zero : Marks prioMax .zero ∅ where
  single _ p := by simp [OsAssignReadyVector.zero]
  row _ i j _ := by simp [OsAssignReadyVector.zero]
  column _ i := by simp [OsAssignReadyVector.zero]
  highest := .inl ⟨rfl, rfl⟩

structure IsSite (prioMax : Nat) (site : BitmapSite) (p : Nat) : Prop where
  single : prioMax ≤ 32 → ∀ q, site.column.toNat.testBit q ↔ q = p
  offset : 32 < prioMax → (site.offset : Nat) = p / 8
  row : 32 < prioMax → ∀ j, site.row.toNat.testBit j ↔ j = p % 8
  column : 32 < prioMax → ∀ i, site.column.toNat.testBit i ↔ i = p / 8

lemma testBit_one_shiftLeft32 {k : UInt32} (hk : k.toNat < 32) (i : Nat) :
    ((1 : UInt32) <<< k).toNat.testBit i ↔ i = k.toNat := by
  rw [UInt32.toNat_shiftLeft, UInt32.toNat_one, shiftLeft_eq, Nat.one_mul,
    mod_eq_of_lt hk, mod_eq_of_lt (Nat.pow_lt_pow_right (by decide) hk),
    testBit_two_pow, decide_eq_true_eq, eq_comm]

lemma testBit_one_shiftLeft8 {k : UInt8} (hk : k.toNat < 8) (i : Nat) :
    ((1 : UInt8) <<< k).toNat.testBit i ↔ i = k.toNat := by
  rw [UInt8.toNat_shiftLeft, UInt8.toNat_one, shiftLeft_eq, Nat.one_mul,
    mod_eq_of_lt hk, mod_eq_of_lt (Nat.pow_lt_pow_right (by decide) hk),
    testBit_two_pow, decide_eq_true_eq, eq_comm]

lemma bitmapSiteMask_isSite {prioMax : Nat} {prio : UInt8} (h : prio.toNat < prioMax)
    (site : BitmapSite) : IsSite prioMax (bitmapSiteMask prioMax prio site) prio.toNat := by
  have hlt := prio.toNat_lt
  have hand : (prio &&& 0x7).toNat = prio.toNat % 8 := by
    rw [UInt8.toNat_and]
    exact and_two_pow_sub_one_eq_mod _ 3
  have hdiv : (prio / 8).toUInt32.toNat = prio.toNat / 8 := by
    rw [UInt8.toNat_toUInt32, UInt8.toNat_div]
    rfl
  rw [bitmapSiteMask]
  split
  · rename_i hmax
    refine ⟨by omega, fun _ => rfl, fun _ j => ?_, fun _ i => ?_⟩
    · rw [testBit_one_shiftLeft8 (by omega), hand]
    · rw [testBit_one_shiftLeft32 (by omega), hdiv]
  · rename_i hmax
    refine ⟨fun _ q => ?_, by omega, by omega, by omega⟩
    rw [testBit_one_shiftLeft32 (by rw [UInt8.toNat_toUInt32]; omega), UInt8.toNat_toUInt32]

lemma testBit_andNot {w x m : Nat} (hx : x < 2 ^ w) (hm : m < 2 ^ w) (i : Nat) :
    (x &&& (2 ^ w - 1 - m)).testBit i ↔ x.testBit i ∧ ¬ m.testBit i := by
  rw [testBit_and, Nat.sub_sub, Nat.add_comm, testBit_two_pow_sub_succ hm]
  by_cases hi : i < w
  · simp [hi]
  · have hxi : x.testBit i = false :=
      testBit_lt_two_pow (hx.trans_le (Nat.pow_le_pow_right (by decide) (by omega)))
    simp [hi, hxi]

lemma testBit_andNot32 (x m : UInt32) (i : Nat) :
    (x &&& ~~~m).toNat.testBit i ↔ x.toNat.testBit i ∧ ¬ m.toNat.testBit i := by
  rw [UInt32.toNat_and, UInt32.toNat_not]
  exact testBit_andNot x.toNat_lt m.toNat_lt i

lemma testBit_andNot8 (x m : UInt8) (i : Nat) :
    (x &&& ~~~m).toNat.testBit i ↔ x.toNat.testBit i ∧ ¬ m.toNat.testBit i := by
  rw [UInt8.toNat_and, UInt8.toNat_not]
  exact testBit_andNot x.toNat_lt m.toNat_lt i

lemma isGreatest_log2 {n : Nat} (h : n ≠ 0) : IsGreatest {i | n.testBit i} n.log2 :=
  ⟨testBit_log2 h, fun _ hi => (le_log2 h).mpr (ge_two_pow_of_testBit hi)⟩

lemma isGreatest_log2_of_iff {n : Nat} {S : Set Nat} (h : ∀ q, n.testBit q ↔ q ∈ S) :
    (S = ∅ ∧ n.log2 = 0) ∨ IsGreatest S n.log2 := by
  have hS : {i | n.testBit i} = S := Set.ext h
  by_cases hn : n = 0
  · subst hn
    exact .inl ⟨by simpa using hS.symm, rfl⟩
  · exact .inr (hS ▸ isGreatest_log2 hn)

lemma ne_zero_iff_testBit (w : UInt8) : w ≠ 0 ↔ ∃ j < 8, w.toNat.testBit j := by
  constructor
  · intro h
    have hn : w.toNat ≠ 0 := fun h0 => h (UInt8.toNat_inj.mp h0)
    exact ⟨_, (log2_lt hn).mpr w.toNat_lt, testBit_log2 hn⟩
  · rintro ⟨j, -, hj⟩ rfl
    simp at hj

lemma isGreatest_rows {group : UInt32} {ready : Fin 32 → UInt8} {S : Set Nat}
    (hrow : ∀ (i : Fin 32), ∀ j < 8, (ready i).toNat.testBit j ↔ 8 * i + j ∈ S)
    (hcol : ∀ i, group.toNat.testBit i ↔ ∃ j < 8, 8 * i + j ∈ S) :
    let number := prioCaculate group
    let prio := number * 8 + prioCaculate (ready ⟨number, prioCaculate_lt _⟩).toUInt32
    (S = ∅ ∧ prio = 0) ∨ IsGreatest S prio := by
  intro number prio
  have hnum : number = group.toNat.log2 := prioCaculate_eq group
  obtain ⟨w, hw⟩ : ∃ w, w = ready ⟨number, prioCaculate_lt _⟩ := ⟨_, rfl⟩
  have hbits : ∀ j < 8, w.toNat.testBit j ↔ 8 * number + j ∈ S := fun j hj => by
    rw [hw, hrow _ j hj]
  have hprio : prio = 8 * number + w.toNat.log2 := by
    simp only [prio, ← hw, prioCaculate_eq, UInt8.toNat_toUInt32]
    rw [Nat.mul_comm]
  have hsplit : ∀ q ∈ S, ∃ j < 8, 8 * (q / 8) + j ∈ S := by
    intro q hq
    exact ⟨q % 8, by omega, by rwa [div_add_mod]⟩
  rw [hprio]
  by_cases hg : group.toNat = 0
  · left
    have hS : S = ∅ := by
      rw [Set.eq_empty_iff_forall_notMem]
      intro q hq
      have h := (hcol _).mpr (hsplit q hq)
      simp [hg] at h
    have h0 : number = 0 := by
      rw [hnum, hg]
      rfl
    have hr : w = 0 := by
      by_contra hne
      obtain ⟨j, hj, hb⟩ := (ne_zero_iff_testBit _).mp hne
      rw [hbits j hj, hS] at hb
      exact hb
    refine ⟨hS, ?_⟩
    rw [h0, hr]
    rfl
  · right
    have hgreat := isGreatest_log2 hg
    rw [← hnum] at hgreat
    obtain ⟨j, hj, hm⟩ := (hcol _).mp hgreat.1
    rw [← hbits j hj] at hm
    have hne : w.toNat ≠ 0 := by
      intro h0
      simp [h0] at hm
    have hwg := isGreatest_log2 hne
    refine ⟨(hbits _ ((log2_lt hne).mpr w.toNat_lt)).mp hwg.1, fun q hq => ?_⟩
    have hle : q / 8 ≤ number := hgreat.2 ((hcol _).mpr (hsplit q hq))
    rcases hle.lt_or_eq with hlt | heq
    · omega
    · have hb : w.toNat.testBit (q % 8) := by
        rw [hbits _ (by omega), ← heq, div_add_mod]
        exact hq
      have := hwg.2 hb
      omega

namespace Marks
variable {prioMax : Nat} {v : OsAssignReadyVector} {S : Set Nat} {site : BitmapSite} {p : Nat}

lemma merge (hv : Marks prioMax v S) (hsite : IsSite prioMax site p) :
    Marks prioMax (mergeFlags prioMax
      (if v.highestPrio < p then { v with highestPrio := p } else v) site) (insert p S) := by
  have hhigh : IsGreatest (insert p S) (max v.highestPrio p) := by
    obtain ⟨rfl, h0⟩ | hg := hv.highest
    · simp [h0]
    · rw [max_comm]
      exact hg.insert p
  have hv0 : (if v.highestPrio < p then { v with highestPrio := p } else v) =
      { v with highestPrio := max v.highestPrio p } := by
    split
    · rw [max_eq_right (by omega)]
    · rw [max_eq_left (by omega)]
  rw [hv0]
  by_cases hmax : 32 < prioMax
  · have ho := hsite.offset hmax
    simp only [mergeFlags, hmax, if_true]
    refine ⟨by omega, fun _ i j hj => ?_, fun _ i => ?_, .inr hhigh⟩
    · dsimp only
      by_cases hi : i = site.offset
      · subst hi
        have hp : 8 * (site.offset : Nat) + j = p ↔ j = p % 8 := by omega
        rw [update_self, UInt8.toNat_or, testBit_or, Bool.or_eq_true, hsite.row hmax,
          Set.mem_insert_iff, hp, or_comm, hv.row hmax _ j hj]
      · have hp : 8 * (i : Nat) + j ≠ p := by
          have := Fin.val_ne_of_ne hi
          omega
        rw [update_of_ne hi, Set.mem_insert_iff, or_iff_right hp, hv.row hmax _ j hj]
    · rw [UInt32.toNat_or, testBit_or, Bool.or_eq_true, hsite.column hmax, hv.column hmax]
      simp only [Set.mem_insert_iff]
      constructor
      · rintro (⟨j, hj, hm⟩ | rfl)
        · exact ⟨j, hj, .inr hm⟩
        · exact ⟨p % 8, by omega, .inl (by omega)⟩
      · rintro ⟨j, hj, he | hm⟩
        · exact .inr (by omega)
        · exact .inl ⟨j, hj, hm⟩
  · simp only [mergeFlags, hmax, if_false]
    refine ⟨fun h q => ?_, by omega, by omega, .inr hhigh⟩
    rw [UInt32.toNat_or, testBit_or, Bool.or_eq_true, hsite.single h, hv.single h,
      Set.mem_insert_iff, or_comm]

lemma clear_single (hmax : ¬ 32 < prioMax) (hv : Marks prioMax v S)
    (hsite : ∀ q ∈ S, site.column.toNat.testBit q ↔ q = p) :
    Marks prioMax (clearFlags prioMax v site) (S \ {p}) := by
  have hbits : ∀ q, (v.priorityReadyGroup &&& ~~~site.column).toNat.testBit q ↔ q ∈ S \ {p} := by
    intro q
    rw [testBit_andNot32, hv.single (by omega), Set.mem_sdiff, Set.mem_singleton_iff]
    exact and_congr_right fun hq => not_congr (hsite q hq)
  rw [clearFlags, if_neg hmax]
  refine ⟨fun _ => hbits, by omega, by omega, ?_⟩
  have hhigh := isGreatest_log2_of_iff hbits
  rwa [← prioCaculate_eq] at hhigh

lemma clear_rows (hmax : 32 < prioMax) (hv : Marks prioMax v S)
    (hrow : ∀ j < 8, 8 * (site.offset : Nat) + j ∈ S →
      (site.row.toNat.testBit j ↔ 8 * (site.offset : Nat) + j = p))
    (hout : ∀ i ≠ (site.offset : Nat), ∀ j < 8, 8 * i + j ∈ S → 8 * i + j ≠ p)
    (hcol : ∀ i, site.column.toNat.testBit i → i = site.offset)
    (hset : ¬ site.column.toNat.testBit site.offset → p ∉ S) :
    Marks prioMax (clearFlags prioMax v site) (S \ {p}) := by
  have hready : ∀ (i : Fin 32), ∀ j < 8, (update v.readyVector site.offset
      (v.readyVector site.offset &&& ~~~site.row) i).toNat.testBit j ↔ 8 * i + j ∈ S \ {p} := by
    intro i j hj
    rw [Set.mem_sdiff, Set.mem_singleton_iff]
    by_cases hi : i = site.offset
    · subst hi
      rw [update_self, testBit_andNot8, hv.row hmax _ j hj]
      exact and_congr_right fun hm => not_congr (hrow j hj hm)
    · rw [update_of_ne hi, hv.row hmax i j hj]
      exact (and_iff_left_of_imp fun hm => hout i (Fin.val_ne_of_ne hi) j hj hm).symm
  have hgroup : ∀ i, (if update v.readyVector site.offset
      (v.readyVector site.offset &&& ~~~site.row) site.offset = 0 then
        v.priorityReadyGroup &&& ~~~site.column else v.priorityReadyGroup).toNat.testBit i ↔
      ∃ j < 8, 8 * i + j ∈ S \ {p} := by
    intro i
    by_cases hi : i = site.offset
    · subst hi
      have hbits := fun j hj => hready site.offset j hj
      split
      · rename_i h0
        simp only [h0, UInt8.toNat_zero, zero_testBit, Bool.false_eq_true, false_iff] at hbits
        rw [testBit_andNot32, hv.column hmax]
        constructor
        · rintro ⟨⟨j, hj, hm⟩, hc⟩
          exact absurd ⟨hm, fun he => hset hc (he ▸ hm)⟩ (hbits j hj)
        · rintro ⟨j, hj, hm⟩
          exact absurd hm (hbits j hj)
      · rename_i hne
        obtain ⟨j, hj, hb⟩ := (ne_zero_iff_testBit _).mp hne
        have hm := (hready _ j hj).mp hb
        rw [hv.column hmax]
        exact iff_of_true ⟨j, hj, hm.1⟩ ⟨j, hj, hm⟩
    · have hsame : (∃ j < 8, 8 * i + j ∈ S) ↔ ∃ j < 8, 8 * i + j ∈ S \ {p} :=
        exists_congr fun j => and_congr_right fun hj =>
          (and_iff_left_of_imp fun hm => hout i hi j hj hm).symm
      rw [← hsame, ← hv.column hmax]
      split
      · rw [testBit_andNot32]
        exact and_iff_left fun hc => hi (hcol i hc)
      · rfl
  rw [clearFlags, if_pos hmax]
  exact ⟨by omega, fun _ => hready, fun _ => hgroup, isGreatest_rows hready hgroup⟩

lemma clear (hv : Marks prioMax v S)
    (hsite : IsSite prioMax site p ∨ (site.row = 0 ∧ site.column = 0 ∧ p ∉ S)) :
    Marks prioMax (clearFlags prioMax v site) (S \ {p}) := by
  by_cases hmax : 32 < prioMax
  · obtain hs | ⟨hr, hc, hp⟩ := hsite
    · have ho := hs.offset hmax
      refine hv.clear_rows hmax (fun j hj _ => ?_) (fun i hi j hj _ => ?_) (fun i hb => ?_)
        fun hn => ?_
      · rw [hs.row hmax]
        omega
      · omega
      · rw [ho]
        exact (hs.column hmax i).mp hb
      · exact absurd ((hs.column hmax _).mpr ho) hn
    · refine hv.clear_rows hmax (fun j _ hm => ?_) (fun i _ j _ hm he => hp (he ▸ hm))
        (fun i hb => ?_) fun _ => hp
      · rw [hr]
        simp only [UInt8.toNat_zero, zero_testBit, Bool.false_eq_true, false_iff]
        exact fun he => hp (he ▸ hm)
      · simp [hc] at hb
  · refine hv.clear_single hmax fun q hq => ?_
    obtain hs | ⟨-, hc, hp⟩ := hsite
    · exact hs.single (by omega) q
    · rw [hc]
      simp only [UInt32.toNat_zero, zero_testBit, Bool.false_eq_true, false_iff]
      exact fun he => hp (he ▸ hq)

end Marks
end Xiuos.Kernel
