import Mathlib

/-! Reduction modulo `p` by multiples of `p` that are aligned with the leading bit. A flag remembers
how often the order of a difference was turned, and zero ends the reduction without a result. -/

namespace Xiuos.Lib.AlignedReduce
open Nat Option

structure State where
  value : Nat
  turn : Bool

def State.signed (s : State) : ℤ := if s.turn then -s.value else s.value

def aligned (p v : Nat) : Nat := p * 2 ^ (v.log2 - p.log2)

def step (p : Nat) (s : State) : State :=
  if aligned p s.value ≤ s.value then ⟨s.value - aligned p s.value, s.turn⟩
  else ⟨aligned p s.value - s.value, !s.turn⟩

def loop (p : Nat) : Nat → State → Option State
  | 0, _ => none
  | fuel + 1, s =>
    if s.value.log2 ≤ p.log2 then some s
    else if (step p s).value = 0 then none
    else loop p fuel (step p s)

def finish (p : Nat) (s : State) : Nat :=
  if s.turn then p - s.value % p else s.value % p

/-- Below bit `i + 1` the multiple `j * p` is nearer to the aligned power above it. -/
def Above (p j i : Nat) : Prop := 2 ^ (p.log2 + i + 1) ≤ j % 2 ^ (i + 1) * p

def Below (p j i : Nat) : Prop := 2 ^ (p.log2 + i + 1) ≤ (2 ^ (i + 1) - j % 2 ^ (i + 1)) * p

/-- The cofactor `j` is odd, and the lowest bit at which it is above or below, if there is one, is
one at which it is below. -/
def Unturned (p j : Nat) : Prop := j % 2 = 1 ∧ ∀ i, Above p j i → ∃ i' < i, Below p j i'

variable {j : Nat}

section
variable {p i g : Nat}

lemma Above.lt (h : Above p j i) (hlt : j * p < 2 ^ (p.log2 + g + 1)) : i < g := by
  refine Nat.lt_of_not_le fun hle => ?_
  have hmul := mul_le_mul_right p (mod_le j (2 ^ (i + 1)))
  have hpow : 2 ^ (p.log2 + g + 1) ≤ 2 ^ (p.log2 + i + 1) :=
    Nat.pow_le_pow_right (by decide) (by omega)
  rw [Above] at h
  omega

lemma Above.not_below (h : Above p j i) : ¬ Below p j i := by
  intro h'
  have hp := Nat.mul_lt_mul_of_pos_left (@Nat.lt_log2_self p) (Nat.two_pow_pos (i + 1))
  have hle := (mod_lt j (Nat.two_pow_pos (i + 1))).le
  have hsum : j % 2 ^ (i + 1) * p + (2 ^ (i + 1) - j % 2 ^ (i + 1)) * p = 2 ^ (i + 1) * p := by
    rw [← add_mul, Nat.add_sub_cancel' hle]
  have hpow : 2 ^ (i + 1) * 2 ^ (p.log2 + 1) = 2 * 2 ^ (p.log2 + i + 1) := by
    rw [← pow_add, ← pow_succ']
    congr 1
    omega
  rw [Above] at h
  rw [Below] at h'
  omega

lemma unturned_one (p : Nat) : Unturned p 1 :=
  ⟨rfl, fun i h => absurd (h.lt (g := 0) (by simpa using lt_log2_self)) i.not_lt_zero⟩

lemma sub_two_pow_mod (hle : 2 ^ g ≤ j) (hi : i < g) :
    (j - 2 ^ g) % 2 ^ (i + 1) = j % 2 ^ (i + 1) := by
  obtain ⟨q, hq⟩ : 2 ^ (i + 1) ∣ 2 ^ g := pow_dvd_pow 2 hi
  rw [hq, sub_mul_mod (hq ▸ hle)]

lemma unturned_sub (hg : g ≠ 0) (hle : 2 ^ g ≤ j) (hlt : j * p < 2 ^ (p.log2 + g + 1)) :
    Unturned p (j - 2 ^ g) ↔ Unturned p j := by
  have hmod {i : Nat} (hi : i < g) := sub_two_pow_mod hle hi
  have hodd : (j - 2 ^ g) % 2 = j % 2 := hmod (Nat.pos_of_ne_zero hg)
  refine and_congr (by rw [hodd]) ⟨fun h i hi => ?_, fun h i hi => ?_⟩
  · have hig := hi.lt hlt
    rw [Above, ← hmod hig] at hi
    obtain ⟨i', hi', hb⟩ := h i hi
    rw [Below, hmod (hi'.trans hig)] at hb
    exact ⟨i', hi', hb⟩
  · have hig := hi.lt ((mul_le_mul_right p (sub_le j _)).trans_lt hlt)
    rw [Above, hmod hig] at hi
    obtain ⟨i', hi', hb⟩ := h i hi
    rw [Below, ← hmod (hi'.trans hig)] at hb
    exact ⟨i', hi', hb⟩

lemma two_pow_sub_mod (hodd : j % 2 = 1) (hlt : j < 2 ^ g) (hi : i < g) :
    (2 ^ g - j) % 2 ^ (i + 1) = 2 ^ (i + 1) - j % 2 ^ (i + 1) := by
  have hne : j % 2 ^ (i + 1) ≠ 0 := fun h => by
    have hdvd : 2 ∣ j := (dvd_pow_self 2 (succ_ne_zero i)).trans (dvd_of_mod_eq_zero h)
    omega
  obtain ⟨q, hq⟩ : 2 ^ (i + 1) ∣ 2 ^ g := pow_dvd_pow 2 hi
  have hdiv := div_add_mod j (2 ^ (i + 1))
  have hr := mod_lt j (Nat.two_pow_pos (i + 1))
  have hjq : j / 2 ^ (i + 1) < q := Nat.div_lt_of_lt_mul (hq ▸ hlt)
  obtain ⟨d, rfl⟩ := Nat.exists_eq_add_of_lt hjq
  have hsplit : 2 ^ g - j = 2 ^ (i + 1) * d + (2 ^ (i + 1) - j % 2 ^ (i + 1)) := by
    rw [hq, mul_add, mul_add, mul_one]
    omega
  rw [hsplit, mul_add_mod, mod_eq_of_lt (by omega)]

/-- Turning the difference exchanges the two kinds of bits, so that the lowest of them decides for
one of the two orders. -/
lemma unturned_rsub (hodd : j % 2 = 1) (hlt : j < 2 ^ g) (hle : 2 ^ (p.log2 + g) ≤ j * p)
    (hlt' : j * p < 2 ^ (p.log2 + g + 1)) : Unturned p (2 ^ g - j) ↔ ¬ Unturned p j := by
  have hmod {i : Nat} (hi : i < g) := two_pow_sub_mod hodd hlt hi
  have habove {i : Nat} (hi : i < g) : Above p (2 ^ g - j) i ↔ Below p j i := by
    rw [Above, Below, hmod hi]
  have hbelow {i : Nat} (hi : i < g) : Below p (2 ^ g - j) i ↔ Above p j i := by
    rw [Above, Below, hmod hi, Nat.sub_sub_self (mod_lt _ (Nat.two_pow_pos _)).le]
  have hlow {i : Nat} (h : Above p (2 ^ g - j) i) : i < g := by
    refine h.lt ?_
    calc (2 ^ g - j) * p ≤ 2 ^ g * p := mul_le_mul_right p (sub_le ..)
      _ < 2 ^ g * 2 ^ (p.log2 + 1) :=
        Nat.mul_lt_mul_of_pos_left lt_log2_self (Nat.two_pow_pos g)
      _ = 2 ^ (p.log2 + g + 1) := by rw [← pow_add]; congr 1; omega
  have hpos : g ≠ 0 := by
    rintro rfl
    rw [pow_zero] at hlt
    omega
  have hodd' : (2 ^ g - j) % 2 = 1 := by
    obtain ⟨g, rfl⟩ := exists_eq_succ_of_ne_zero hpos
    rw [pow_succ'] at hlt ⊢
    omega
  constructor
  · classical
    rintro ⟨-, h'⟩ ⟨-, h⟩
    have htop : ∃ i, Above p j i := ⟨g - 1, by
      rwa [Above, Nat.add_assoc, Nat.sub_add_cancel (Nat.one_le_iff_ne_zero.mpr hpos),
        mod_eq_of_lt hlt]⟩
    obtain ⟨i, hi, hb⟩ := h _ (Nat.find_spec htop)
    have hig : i < g := hi.trans ((Nat.find_spec htop).lt hlt')
    obtain ⟨i', hi', ha⟩ := h' i ((habove hig).mpr hb)
    exact Nat.find_min htop (hi'.trans hi) ((hbelow (hi'.trans hig)).mp ha)
  · intro h
    refine ⟨hodd', fun i hi => ?_⟩
    by_contra hnone
    refine h ⟨hodd, fun k hk => ⟨i, ?_, (habove (hlow hi)).mp hi⟩⟩
    obtain hki | rfl | hik := lt_trichotomy k i
    · exact absurd ⟨k, hki, (hbelow (hki.trans (hlow hi))).mpr hk⟩ hnone
    · exact absurd ((habove (hlow hi)).mp hi) hk.not_below
    · exact hik

lemma unturned_iff_of_three (h3 : 2 ^ (p.log2 + 2) ≤ 3 * p) : Unturned p j ↔ j % 4 = 1 := by
  have hlt := @Nat.lt_log2_self p
  have hpow : 2 ^ (p.log2 + 2) = 2 * 2 ^ (p.log2 + 1) := pow_succ'
  have hzero : ¬ Below p j 0 ∨ j % 2 = 0 := by
    by_cases h : j % 2 = 0
    · exact .inr h
    · refine .inl fun hb => ?_
      have hone : 2 - j % 2 = 1 := by omega
      simp only [Below, add_zero, zero_add, pow_one, hone, one_mul] at hb
      omega
  constructor
  · rintro ⟨hodd, h⟩
    by_contra hne
    have hthree : j % 4 = 3 := by omega
    obtain ⟨i, hi, hb⟩ := h 1 (by simpa [Above, hthree] using h3)
    obtain rfl : i = 0 := by omega
    exact hzero.elim (· hb) (by omega)
  · intro h
    refine ⟨by omega, fun i hi => ⟨1, ?_, by simpa [Below, h] using h3⟩⟩
    by_contra hle
    obtain rfl | rfl : i = 0 ∨ i = 1 := by omega
    · have hone : Above p 1 0 := by simpa [Above, show j % 2 = 1 by omega] using hi
      exact Nat.lt_irrefl 0 (hone.lt (by simpa using hlt))
    · simp only [Above, show j % 2 ^ (1 + 1) = 1 from h, one_mul] at hi
      omega

lemma unturned_two_pow_iff (n : Nat) : Unturned (2 ^ n) j ↔ j % 2 = 1 := by
  refine and_iff_left fun i hi => absurd hi ?_
  rw [Above, log2_two_pow, Nat.add_assoc, pow_add, Nat.mul_comm, Nat.mul_le_mul_right_iff
    (Nat.two_pow_pos n)]
  exact not_le.mpr (mod_lt _ (Nat.two_pow_pos _))

end

section
variable {p : Nat} {s : State} {d : Nat}

lemma dvd_signed_iff : (d : ℤ) ∣ s.signed ↔ d ∣ s.value := by
  rw [State.signed]
  split
  · rw [dvd_neg, Int.natCast_dvd_natCast]
  · rw [Int.natCast_dvd_natCast]

lemma step_value : (step p s).value =
    if aligned p s.value ≤ s.value then s.value - aligned p s.value
    else aligned p s.value - s.value := by
  rw [step]
  split <;> rfl

lemma step_signed : (step p s).signed =
    s.signed - if s.turn then -(aligned p s.value : ℤ) else aligned p s.value := by
  rw [step]
  split
  · rename_i h
    simp only [State.signed, cast_sub h]
    split <;> ring
  · rename_i h
    simp only [State.signed, cast_sub (Nat.le_of_not_le h)]
    cases s.turn <;> simp
    ring

lemma step_modEq (h : d ∣ aligned p s.value) : (step p s).signed ≡ s.signed [ZMOD d] := by
  rw [step_signed, Int.modEq_iff_dvd]
  have hd : (d : ℤ) ∣ aligned p s.value := Int.natCast_dvd_natCast.mpr h
  split
  · simpa using hd
  · simpa using hd

lemma step_value_mul (h : s.value = p * j) :
    (step p s).value = p * (if 2 ^ (s.value.log2 - p.log2) ≤ j
      then j - 2 ^ (s.value.log2 - p.log2) else 2 ^ (s.value.log2 - p.log2) - j) := by
  rw [step_value, aligned]
  generalize 2 ^ (s.value.log2 - p.log2) = m
  rw [h]
  by_cases hm : m ≤ j
  · rw [if_pos hm, if_pos (Nat.mul_le_mul_left p hm), Nat.mul_sub]
  · rw [if_neg hm]
    split
    · rename_i hle
      have hp : p = 0 := by
        by_contra hp
        exact hm (le_of_mul_le_mul_left hle (Nat.pos_of_ne_zero hp))
      simp [hp]
    · rw [Nat.mul_sub]

lemma dvd_aligned (p v : Nat) : p ∣ aligned p v := dvd_mul_right p _

lemma step_lt (hp : p ≠ 0) (hs : s.value ≠ 0) (hle : p.log2 ≤ s.value.log2) :
    (step p s).value < 2 ^ s.value.log2 := by
  have hpow : 2 ^ p.log2 * 2 ^ (s.value.log2 - p.log2) = 2 ^ s.value.log2 := by
    rw [← pow_add, Nat.add_sub_cancel' hle]
  have hlo : 2 ^ s.value.log2 ≤ aligned p s.value := by
    rw [← hpow]
    exact mul_le_mul_right _ (log2_self_le hp)
  have hhi : aligned p s.value < 2 * 2 ^ s.value.log2 := by
    rw [← hpow, ← mul_assoc, ← pow_succ']
    exact mul_lt_mul_of_pos_right lt_log2_self (by positivity)
  have hv := log2_self_le hs
  have hv' := @Nat.lt_log2_self s.value
  rw [pow_succ'] at hv'
  rw [step_value]
  split <;> omega

lemma step_log2_lt (hp : p ≠ 0) (hs : s.value ≠ 0) (hle : p.log2 ≤ s.value.log2)
    (hne : (step p s).value ≠ 0) : (step p s).value.log2 < s.value.log2 :=
  (log2_lt hne).mpr (step_lt hp hs hle)

variable {fuel : Nat} {s' : State}

lemma loop_log2_le (h : loop p fuel s = some s') : s'.value.log2 ≤ p.log2 := by
  induction fuel generalizing s with
  | zero => simp [loop] at h
  | succ fuel ih =>
    rw [loop] at h
    split at h
    · cases h
      assumption
    · split at h
      · cases h
      · exact ih h

variable {fuel' : Nat}

lemma loop_mono (hle : fuel ≤ fuel') (h : loop p fuel s = some s') :
    loop p fuel' s = some s' := by
  induction fuel generalizing s fuel' with
  | zero => simp [loop] at h
  | succ fuel ih =>
    obtain ⟨k, rfl⟩ := Nat.exists_eq_add_of_le' hle
    rw [loop] at h
    rw [← Nat.add_assoc, loop]
    split at h
    · rw [if_pos ‹_›, h]
    · rw [if_neg ‹_›]
      split at h
      · cases h
      · rw [if_neg ‹_›]
        exact ih (le_add_left fuel k) h

variable (hp : p ≠ 0)
include hp

lemma loop_spec (hs : s.value ≠ 0) (hf : s.value.log2 < fuel) (hnd : ¬ p ∣ s.value) :
    ∃ s', loop p fuel s = some s' ∧ s'.signed ≡ s.signed [ZMOD p] := by
  induction fuel generalizing s with
  | zero => omega
  | succ fuel ih =>
    rw [loop]
    by_cases hle : s.value.log2 ≤ p.log2
    · exact ⟨s, by rw [if_pos hle], Int.ModEq.refl _⟩
    · rw [if_neg hle]
      have hmod := step_modEq (s := s) (dvd_aligned p s.value)
      have hnd' : ¬ p ∣ (step p s).value := by rwa [← dvd_signed_iff, hmod.dvd_iff, dvd_signed_iff]
      have hne : (step p s).value ≠ 0 := fun h => hnd' (h ▸ dvd_zero p)
      have hlt := step_log2_lt hp hs (by omega) hne
      rw [if_neg hne]
      obtain ⟨s', h1, h2⟩ := ih hne (by omega) hnd'
      exact ⟨s', h1, h2.trans hmod⟩

lemma log2_lt_of_mul (h : s.value = p * j) (hj : 2 ≤ j) : p.log2 < s.value.log2 := by
  have hle : 2 ^ (p.log2 + 1) ≤ s.value := by
    rw [h, pow_succ]
    exact Nat.mul_le_mul (log2_self_le hp) hj
  exact (le_log2 (Nat.ne_of_gt ((Nat.two_pow_pos _).trans_le hle))).mpr hle

lemma loop_even_mul (h : s.value = p * j) (hj : j ≠ 0) (heven : j % 2 = 0) :
    loop p fuel s = none := by
  induction fuel generalizing s j with
  | zero => rfl
  | succ fuel ih =>
    have hlog := log2_lt_of_mul hp h (by omega)
    rw [loop, if_neg (by omega)]
    split
    · rfl
    · rename_i hne
      have hstep := step_value_mul h
      obtain ⟨g, hg⟩ : ∃ g, s.value.log2 - p.log2 = g + 1 := ⟨_, (succ_pred (by omega)).symm⟩
      rw [hg, pow_succ'] at hstep
      refine ih hstep (fun h0 => hne (by rw [hstep, h0, mul_zero])) ?_
      split <;> omega

lemma loop_odd_mul (h : s.value = p * j) (hodd : j % 2 = 1) (hf : s.value.log2 < fuel) :
    ∃ s', loop p fuel s = some s' ∧ s'.value = p ∧ (s'.turn = s.turn ↔ Unturned p j) := by
  induction fuel generalizing s j with
  | zero => omega
  | succ fuel ih =>
    by_cases hj : j = 1
    · subst hj
      rw [mul_one] at h
      exact ⟨s, by rw [loop, if_pos (by rw [h])], h, iff_of_true rfl (unturned_one p)⟩
    have hlog := log2_lt_of_mul hp h (by omega)
    have hs : s.value ≠ 0 := by
      rw [h]
      exact mul_ne_zero hp (by omega)
    have hstep := step_value_mul h
    obtain ⟨g, hg⟩ : ∃ g, s.value.log2 = p.log2 + (g + 1) := ⟨s.value.log2 - p.log2 - 1, by omega⟩
    have hlo := log2_self_le hs
    have hhi := @Nat.lt_log2_self s.value
    rw [hg, h, Nat.mul_comm] at hlo hhi
    rw [hg, Nat.add_sub_cancel_left] at hstep
    have hodd' : (if 2 ^ (g + 1) ≤ j then j - 2 ^ (g + 1) else 2 ^ (g + 1) - j) % 2 = 1 := by
      rw [pow_succ']
      split <;> omega
    have hne : (step p s).value ≠ 0 := by
      rw [hstep]
      exact mul_ne_zero hp (by omega)
    have hlt := step_log2_lt hp hs (by omega) hne
    rw [loop, if_neg (by omega), if_neg hne]
    obtain ⟨s', hs', hval, hturn⟩ := ih hstep hodd' (by omega)
    refine ⟨s', hs', hval, ?_⟩
    have hal : aligned p s.value ≤ s.value ↔ 2 ^ (g + 1) ≤ j := by
      rw [aligned, hg, Nat.add_sub_cancel_left, h]
      exact Nat.mul_le_mul_left_iff (Nat.pos_of_ne_zero hp)
    rw [step] at hturn
    simp only [hal] at hturn
    by_cases hle : 2 ^ (g + 1) ≤ j
    · simp only [if_pos hle] at hturn
      exact hturn.trans (unturned_sub (succ_ne_zero g) hle hhi)
    · simp only [if_neg hle] at hturn
      rw [unturned_rsub hodd (Nat.lt_of_not_le hle) hlo hhi] at hturn
      rw [← not_iff_not, ← hturn]
      cases s'.turn <;> cases s.turn <;> decide

end

lemma finish_eq {p v : Nat} {s : State} (hp : p ≠ 0) (h : s.signed ≡ v [ZMOD p])
    (hv : v % p ≠ 0) : finish p s = v % p := by
  have hlt := mod_lt s.value (Nat.pos_of_ne_zero hp)
  rw [finish]
  cases ht : s.turn
  · rw [State.signed, ht, if_neg Bool.false_ne_true, Int.natCast_modEq_iff] at h
    exact h
  · have hv' := mod_lt v (Nat.pos_of_ne_zero hp)
    have hd : p ∣ s.value % p + v % p := by
      rw [State.signed, ht, if_pos rfl, Int.modEq_iff_dvd, sub_neg_eq_add, ← cast_add,
        Int.natCast_dvd_natCast, dvd_iff_mod_eq_zero, add_mod] at h
      rw [add_comm]
      exact dvd_of_mod_eq_zero h
    have he : s.value % p + v % p = p := eq_of_dvd_of_lt_two_mul (by omega) hd (by omega)
    rw [if_pos rfl]
    omega

lemma finish_le {p : Nat} {s : State} (hp : p ≠ 0) : finish p s ≤ p := by
  rw [finish]
  split
  · exact sub_le _ _
  · exact (mod_lt _ (Nat.pos_of_ne_zero hp)).le

lemma loop_cases {p v fuel : Nat} (hp : p ≠ 0) (hv : v ≠ 0) (hf : v.log2 < fuel) :
    (v % p = 0 ∧ v / p % 2 = 0 ∧ loop p fuel ⟨v, false⟩ = none) ∨
    ∃ s, loop p fuel ⟨v, false⟩ = some s ∧ (v % p ≠ 0 ∧ finish p s = v % p ∨ v % p = 0 ∧
      v / p % 2 = 1 ∧ (finish p s = 0 ∧ Unturned p (v / p) ∨
        finish p s = p ∧ ¬ Unturned p (v / p))) := by
  by_cases hd : v % p = 0
  · have hj : v = p * (v / p) := (Nat.mul_div_cancel' (dvd_of_mod_eq_zero hd)).symm
    rcases mod_two_eq_zero_or_one (v / p) with heven | hodd
    · refine .inl ⟨hd, heven, loop_even_mul hp hj ?_ heven⟩
      rintro h0
      rw [h0, mul_zero] at hj
      exact hv hj
    · obtain ⟨s, hs, hval, hturn⟩ := loop_odd_mul (s := ⟨v, false⟩) hp hj hodd hf
      refine .inr ⟨s, hs, .inr ⟨hd, hodd, ?_⟩⟩
      rw [finish, hval, mod_self, Nat.sub_zero, ← hturn]
      cases s.turn <;> simp
  · obtain ⟨s, hs, hmod⟩ := loop_spec hp (s := ⟨v, false⟩) hv hf
      (fun h => hd (mod_eq_zero_of_dvd h))
    exact .inr ⟨s, hs, .inl ⟨hd, finish_eq hp hmod hd⟩⟩

lemma finish_eq_self_iff {p v fuel : Nat} {s : State} (hp : p ≠ 0)
    (h3 : 2 ^ (p.log2 + 2) ≤ 3 * p) (hv : v ≠ 0) (h : loop p fuel ⟨v, false⟩ = some s) :
    finish p s = p ↔ v % p = 0 ∧ v / p % 4 = 3 := by
  have hbig := loop_mono (le_add_right fuel (v.log2 + 1)) h
  have hlt := mod_lt v (Nat.pos_of_ne_zero hp)
  obtain ⟨-, -, hnone⟩ | ⟨s', hs, hcase⟩ := loop_cases hp hv
    (by omega : v.log2 < fuel + (v.log2 + 1))
  · rw [hnone] at hbig
    cases hbig
  · rw [hs, Option.some.injEq] at hbig
    subst hbig
    rw [unturned_iff_of_three h3] at hcase
    omega

lemma loop_finish_iff {p v fuel : Nat} (hp : p ≠ 0) (hv : v ≠ 0) (hf : v.log2 < fuel) :
    (loop p fuel ⟨v, false⟩).map (finish p) = some (v % p) ↔
      v % p ≠ 0 ∨ Unturned p (v / p) := by
  obtain ⟨hd, heven, hnone⟩ | ⟨s, hs, hcase⟩ := loop_cases hp hv hf
  · have hturned : ¬ Unturned p (v / p) := fun h => by
      have hodd := h.1
      omega
    simp [hnone, hd, hturned]
  · rw [hs, map_some, Option.some.injEq]
    obtain ⟨hd, hfin⟩ | ⟨hd, -, ⟨hfin, h⟩ | ⟨hfin, h⟩⟩ := hcase
    · exact iff_of_true hfin (.inl hd)
    · exact iff_of_true (hfin.trans hd.symm) (.inr h)
    · simp [hfin, hd, hp, h]

end Xiuos.Lib.AlignedReduce
