import Xiuos.Sm9.BignumLaws

namespace Xiuos.Sm9
open Lib Nat Big8w
variable {bn1 bn2 : Big8w}

lemma addWords_of_lt (h : bn1.val + bn2.val < 2 ^ 256) :
    addWords bn1 bn2 = (.ofNat (bn1.val + bn2.val), false) := by
  have hv := addWords_val bn1 bn2
  have hlt := (addWords bn1 bn2).1.val_lt
  have hf : (addWords bn1 bn2).2 = false := by
    cases hc : (addWords bn1 bn2).2
    · rfl
    · rw [hc, Bool.toNat_true] at hv
      omega
  rw [hf, Bool.toNat_false, Nat.mul_zero, Nat.add_zero] at hv
  exact Prod.ext (eq_ofNat hv) hf

lemma addWords_of_ge (h : 2 ^ 256 ≤ bn1.val + bn2.val) :
    addWords bn1 bn2 = (.ofNat (bn1.val + bn2.val - 2 ^ 256), true) := by
  have hv := addWords_val bn1 bn2
  have hlt := (addWords bn1 bn2).1.val_lt
  have hf : (addWords bn1 bn2).2 = true := by
    cases hc : (addWords bn1 bn2).2
    · rw [hc, Bool.toNat_false] at hv
      omega
    · rfl
  rw [hf, Bool.toNat_true, Nat.mul_one] at hv
  exact Prod.ext (eq_ofNat (by omega)) hf

lemma reduce_once {ret p : Big8w} :
    (if big8wBigThan ret p then big8wMinusMod ret p p else some ret) =
      some (.ofNat (if p.val ≤ ret.val then ret.val - p.val else ret.val)) := by
  rw [big8wBigThan_eq]
  split
  · rename_i h
    rw [decide_eq_true_eq] at h
    rw [big8wMinusMod_of_le p h, if_pos h]
  · rename_i h
    rw [decide_eq_true_eq] at h
    rw [if_neg h, ← eq_ofNat rfl]

/-- What `Big8wAddMod` computes on every pair of reduced operands.  When the sum carries out
of the eight words and agrees with `p` in its low word, `2 ^ 32 - 1` is added to the result
before the last comparison. -/
lemma big8wAddMod_eq {bn1 bn2 p : Big8w} (h1 : bn1.val < p.val) (h2 : bn2.val < p.val) :
    let ret := if bn1.val + bn2.val < 2 ^ 256 then bn1.val + bn2.val
      else if (bn1.val + bn2.val) % 2 ^ 32 = p.val % 2 ^ 32 then
        bn1.val + bn2.val - p.val + (2 ^ 32 - 1)
      else bn1.val + bn2.val - p.val
    big8wAddMod bn1 bn2 p = some (.ofNat (if p.val ≤ ret then ret - p.val else ret)) := by
  intro ret
  have hp := p.val_lt
  by_cases hs : bn1.val + bn2.val < 2 ^ 256
  · have hr : ret = bn1.val + bn2.val := if_pos hs
    rw [big8wAddMod, addWords_of_lt hs]
    simp only [Bool.false_eq_true, if_false, Option.bind_eq_bind, Option.bind_some]
    rw [reduce_once, val_ofNat hs, hr]
  · have hge : 2 ^ 256 ≤ bn1.val + bn2.val := by omega
    have hv : (Big8w.ofNat (bn1.val + bn2.val - 2 ^ 256)).val = bn1.val + bn2.val - 2 ^ 256 :=
      val_ofNat (by omega)
    have hd : (Big8w.ofNat (p.val - (bn1.val + bn2.val - 2 ^ 256))).val =
        p.val - (bn1.val + bn2.val - 2 ^ 256) := val_ofNat (by omega)
    have hc := complement_val (.ofNat (p.val - (bn1.val + bn2.val - 2 ^ 256)))
    rw [hd] at hc
    have hr : (if (complement (.ofNat (p.val - (bn1.val + bn2.val - 2 ^ 256)))).val % 2 ^ 32 =
        2 ^ 32 - 1 then (complement (.ofNat (p.val - (bn1.val + bn2.val - 2 ^ 256)))).val + 2 ^ 32
        else (complement (.ofNat (p.val - (bn1.val + bn2.val - 2 ^ 256)))).val + 1) = ret := by
      simp only [ret, hc, hs, if_false]
      split <;> split <;> omega
    rw [big8wAddMod, addWords_of_ge hge]
    simp only [if_true, Option.bind_eq_bind, Option.bind_some]
    rw [big8wMinusMod_of_le p (by omega), hv, Option.bind_some, plusOne_val (by omega), hr,
      Option.bind_some, reduce_once, val_ofNat]
    simp only [ret, hs, if_false]
    split <;> omega

theorem big8wAddMod_exact_iff (bn1 bn2 p : Big8w) (h1 : bn1.val < p.val) (h2 : bn2.val < p.val) :
    (∃ ret, big8wAddMod bn1 bn2 p = some ret ∧ ret.val = (bn1.val + bn2.val) % p.val) ↔
      (bn1.val + bn2.val < 2 ^ 256 ∨ (bn1.val + bn2.val) % 2 ^ 32 ≠ p.val % 2 ^ 32) := by
  have hp := p.val_lt
  have hmod : (bn1.val + bn2.val) % p.val =
      if p.val ≤ bn1.val + bn2.val then bn1.val + bn2.val - p.val else bn1.val + bn2.val := by
    split
    · rename_i h
      rw [mod_eq_sub_mod h, mod_eq_of_lt (by omega)]
    · rename_i h
      exact mod_eq_of_lt (by omega)
  have heq := big8wAddMod_eq h1 h2
  simp only [heq, Option.some.injEq, exists_eq_left', hmod]
  rw [Big8w.val_ofNat (by split <;> split <;> first | omega | (split <;> omega))]
  by_cases hs : bn1.val + bn2.val < 2 ^ 256
  · simp only [hs, if_true, true_or]
  · by_cases hlow : (bn1.val + bn2.val) % 2 ^ 32 = p.val % 2 ^ 32
    · simp only [hs, hlow, if_true, if_false, ne_eq, not_true_eq_false, or_self, iff_false]
      split <;> split <;> omega
    · simp only [hs, hlow, if_false, ne_eq, not_false_eq_true, or_true, iff_true]
      rw [if_neg (by omega), if_pos (by omega)]

theorem big8wAddMod_wrong :
    2 ^ 255 ≤ (Big8w.ofNat (2 ^ 255 + 2 ^ 32)).val ∧
    (Big8w.ofNat (2 ^ 255 + 2 ^ 32 - 1)).val < (Big8w.ofNat (2 ^ 255 + 2 ^ 32)).val ∧
    (Big8w.ofNat (2 ^ 255 + 1)).val < (Big8w.ofNat (2 ^ 255 + 2 ^ 32)).val ∧
    ¬ ∃ ret, big8wAddMod (.ofNat (2 ^ 255 + 2 ^ 32 - 1)) (.ofNat (2 ^ 255 + 1))
        (.ofNat (2 ^ 255 + 2 ^ 32)) = some ret ∧
      ret.val = (2 ^ 255 + 2 ^ 32 - 1 + (2 ^ 255 + 1)) % (2 ^ 255 + 2 ^ 32) := by
  have hrun : big8wAddMod (.ofNat (2 ^ 255 + 2 ^ 32 - 1)) (.ofNat (2 ^ 255 + 1))
      (.ofNat (2 ^ 255 + 2 ^ 32)) = some (.ofNat (2 ^ 255 + 2 ^ 32 - 1)) := by decide +kernel
  refine ⟨by decide +kernel, by decide +kernel, by decide +kernel, ?_⟩
  rintro ⟨ret, hret, hval⟩
  rw [hrun, Option.some.injEq] at hret
  subst hret
  exact absurd hval (by decide +kernel)

theorem big8wAddMod_exact_carry :
    ∃ ret, big8wAddMod (.ofNat (2 ^ 255)) (.ofNat (2 ^ 255)) (.ofNat (2 ^ 255 + 1)) = some ret ∧
      ret.val = 2 ^ 255 - 1 := by
  obtain ⟨ret, hret, hval⟩ := (big8wAddMod_exact_iff (.ofNat (2 ^ 255)) (.ofNat (2 ^ 255))
    (.ofNat (2 ^ 255 + 1)) (by decide +kernel) (by decide +kernel)).mpr (.inr (by decide +kernel))
  exact ⟨ret, hret, hval.trans (by decide +kernel)⟩

end Xiuos.Sm9
