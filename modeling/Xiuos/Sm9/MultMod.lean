import Xiuos.Lib.Montgomery
import Xiuos.Sm9.Para

namespace Xiuos.Sm9
open Lib Bool List Nat Option Limbs Montgomery

lemma toNat_toUInt64 (b : Bool) : b.toUInt64.toNat = b.toNat := by cases b <;> rfl

lemma toNat_low_add_high (t : UInt64) :
    t.toUInt32.toNat + 2 ^ 32 * (t >>> 32).toUInt32.toNat = t.toNat := by
  have ht := t.toNat_lt
  have hs : (t >>> 32).toNat = t.toNat / 2 ^ 32 := by
    rw [UInt64.toNat_shiftRight]
    simp [shiftRight_eq_div_pow]
  rw [UInt64.toNat_toUInt32, UInt64.toNat_toUInt32, hs]
  omega

lemma u32AddStep_isCarry : IsCarry u32AddStep := by
  intro x y c
  have hx := x.toNat_lt
  have hy := y.toNat_lt
  have hc := c.toNat_le
  have ht : (x.toUInt64 + y.toUInt64 + c.toUInt64).toNat = x.toNat + y.toNat + c.toNat := by
    rw [UInt64.toNat_add, UInt64.toNat_add, UInt32.toNat_toUInt64, UInt32.toNat_toUInt64,
      toNat_toUInt64]
    omega
  have hs : ((x.toUInt64 + y.toUInt64 + c.toUInt64) >>> 32).toNat =
      (x.toNat + y.toNat + c.toNat) / 2 ^ 32 := by
    rw [UInt64.toNat_shiftRight, ht]
    simp [shiftRight_eq_div_pow]
  have hb : ((x.toUInt64 + y.toUInt64 + c.toUInt64) >>> 32 != 0).toNat =
      (x.toNat + y.toNat + c.toNat) / 2 ^ 32 := by
    cases hb : ((x.toUInt64 + y.toUInt64 + c.toUInt64) >>> 32 != 0)
    · rw [bne_eq_false_iff_eq] at hb
      rw [← hs, hb]
      rfl
    · rw [bne_iff_ne, ne_eq, ← UInt64.toNat_inj, hs, UInt64.toNat_zero] at hb
      rw [toNat_true]
      omega
  simp only [u32AddStep, UInt64.toNat_toUInt32, ht, hb]
  omega

lemma u32MinusStep_isBorrow : IsBorrow u32MinusStep := by
  intro x y c
  have hx := x.toNat_lt
  have hy := y.toNat_lt
  have hc := c.toNat_le
  simp only [u32MinusStep, UInt64.lt_iff_toNat_lt, UInt64.toNat_add, UInt32.toNat_toUInt64,
    toNat_toUInt64, UInt32.toNat_sub, toNat_toUInt32]
  by_cases h : x.toNat < (y.toNat + c.toNat) % 2 ^ 64
  · simp only [h, decide_true, toNat_true]
    omega
  · simp only [h, decide_false, toNat_false]
    omega

variable {xs ys : List UInt32}

lemma u32CMP_eq (hl : xs.length = ys.length) :
    u32CMP xs ys = decide (val ys ≤ val xs) := by
  rw [u32CMP, geDown_eq (by simp [hl])]
  simp only [reverse_reverse]

lemma multNumLoop_length (elem : UInt32) (ws : List UInt32) (overflow : UInt32) :
    (multNumLoop elem ws overflow).1.length = ws.length := by
  induction ws generalizing overflow with
  | nil => rfl
  | cons w ws ih => simp [multNumLoop, ih]

lemma multNumLoop_val (elem : UInt32) (ws : List UInt32) (overflow : UInt32) :
    val (multNumLoop elem ws overflow).1 +
      2 ^ (32 * ws.length) * (multNumLoop elem ws overflow).2.toNat =
      val ws * elem.toNat + overflow.toNat := by
  induction ws generalizing overflow with
  | nil => simp [multNumLoop]
  | cons w ws ih =>
    have hw := w.toNat_lt
    have he := elem.toNat_lt
    have ho := overflow.toNat_lt
    have hm : elem.toNat * w.toNat ≤ (2 ^ 32 - 1) * (2 ^ 32 - 1) :=
      Nat.mul_le_mul (by omega) (by omega)
    have ht : (elem.toUInt64 * w.toUInt64 + overflow.toUInt64).toNat =
        elem.toNat * w.toNat + overflow.toNat := by
      rw [UInt64.toNat_add, UInt64.toNat_mul, UInt32.toNat_toUInt64, UInt32.toNat_toUInt64,
        UInt32.toNat_toUInt64, mod_eq_of_lt (a := _ * _) (by omega), mod_eq_of_lt (by omega)]
    have hsplit := toNat_low_add_high (elem.toUInt64 * w.toUInt64 + overflow.toUInt64)
    have hrest := ih ((elem.toUInt64 * w.toUInt64 + overflow.toUInt64) >>> 32).toUInt32
    rw [ht] at hsplit
    simp only [multNumLoop, pow_length_cons, val_cons]
    calc _ = _ + 2 ^ 32 * (val (multNumLoop elem ws
              ((elem.toUInt64 * w.toUInt64 + overflow.toUInt64) >>> 32).toUInt32).1 +
            2 ^ (32 * ws.length) * (multNumLoop elem ws
              ((elem.toUInt64 * w.toUInt64 + overflow.toUInt64) >>>
                32).toUInt32).2.toNat) := by ring
      _ = _ := by rw [hrest, Nat.mul_add, ← Nat.add_assoc, Nat.add_right_comm, hsplit]; ring

lemma big8wMultNum_length (bn : Big8w) (elem : UInt32) : (big8wMultNum bn elem).length = 10 := by
  simp [big8wMultNum, multNumLoop_length, bn.size]

lemma big8wMultNum_val (bn : Big8w) (elem : UInt32) :
    val (big8wMultNum bn elem) = bn.val * elem.toNat := by
  have h := multNumLoop_val elem bn.word 0
  simp only [big8wMultNum, Big8w.val, val_append, multNumLoop_length]
  simpa using h

section
variable (hx : xs.length = 10)
include hx
variable (hy : ys.length = 10)
include hy

lemma u32Add_length : (u32Add xs ys).length = 10 := by
  rw [u32Add, ripple_length _ (hx.trans hy.symm), hx]

lemma u32Add_val (h : val xs + val ys < 2 ^ (32 * 10)) :
    val (u32Add xs ys) = val xs + val ys := by
  have hr := ripple_carry u32AddStep_isCarry (hx.trans hy.symm) false
  rw [hx, toNat_false] at hr
  rw [u32Add]
  generalize 2 ^ (32 * 10) = M at *
  cases hc : (ripple u32AddStep xs ys false).2
  · simpa [hc] using hr
  · rw [hc, toNat_true] at hr
    omega

lemma u32Minus_val (h : val ys ≤ val xs) :
    val (u32Minus xs ys) = val xs - val ys := by
  have hr := ripple_borrow u32MinusStep_isBorrow (hx.trans hy.symm) false
  have hlt := val_lt (ripple u32MinusStep xs ys false).1
  rw [ripple_length _ (hx.trans hy.symm), hx] at hlt
  rw [hx, toNat_false] at hr
  rw [u32Minus]
  generalize 2 ^ (32 * 10) = M at *
  cases hb : (ripple u32MinusStep xs ys false).2
  · rw [hb, toNat_false] at hr
    omega
  · rw [hb, toNat_true] at hr
    omega

end

/-- The two sums that one round of `Big8wMontMult` writes to its accumulator `ret`, taken
exactly, fit its ten words. -/
def MontFits (bn1 p : Big8w) (fill : UInt32) (ret : List UInt32) (elem : UInt32) : Prop :=
  val (big8wMultNum bn1 elem) + val ret < 2 ^ (32 * 10) ∧
  val (big8wMultNum p (fill * (montAdd bn1 elem ret).headD 0)) +
    val (montAdd bn1 elem ret) < 2 ^ (32 * 10)

def MontPassFits (bn1 bn2 p : Big8w) (fill : UInt32) : Prop :=
  ∀ elems elem rest, bn2.word = elems ++ elem :: rest →
    MontFits bn1 p fill (montLoop bn1 p fill elems) elem

def IsFill (p : Big8w) (fill : UInt32) : Prop := (fill.toNat * p.val + 1) % 2 ^ 32 = 0

instance (p : Big8w) (fill : UInt32) : Decidable (IsFill p fill) :=
  inferInstanceAs (Decidable (_ = _))

section
variable {bn1 p : Big8w} {fill elem : UInt32} {ret : List UInt32} {ws : List UInt32}

lemma headD_toNat (h : ws ≠ []) : (ws.headD 0).toNat = val ws % 2 ^ 32 := by
  obtain ⟨w, ws, rfl⟩ := exists_cons_of_ne_nil h
  have hw := w.toNat_lt
  simp only [headD_cons, val_cons]
  omega

lemma tail_val (h : ws ≠ []) : val (ws.tail ++ [0]) = val ws / 2 ^ 32 := by
  obtain ⟨w, ws, rfl⟩ := exists_cons_of_ne_nil h
  have hw := w.toNat_lt
  simp only [tail_cons, val_append, val_cons, val_nil, UInt32.toNat_zero]
  omega

lemma montAdd_length (hret : ret.length = 10) : (montAdd bn1 elem ret).length = 10 :=
  u32Add_length (big8wMultNum_length _ _) hret

lemma montStep_length (hret : ret.length = 10) : (montStep bn1 p fill ret elem).length = 10 := by
  simp [montStep, montFill, u32Add_length (big8wMultNum_length _ _) (montAdd_length hret)]

lemma toNat_fill_mul_headD (h : ws ≠ []) :
    (fill * ws.headD 0).toNat = fill.toNat * val ws % 2 ^ 32 := by
  rw [UInt32.toNat_mul, headD_toNat h, mul_mod_mod]

lemma two_mul_radix_mul_lt (p : Big8w) : 2 * 2 ^ 32 * p.val < 2 ^ (32 * 10) := by
  calc 2 * 2 ^ 32 * p.val < 2 ^ 33 * 2 ^ 256 := by
        have := p.val_lt
        omega
    _ = 2 ^ (33 + 256) := (pow_add 2 33 256).symm
    _ ≤ 2 ^ (32 * 10) := by gcongr <;> decide

variable (hret : ret.length = 10) (hbn1 : bn1.val < p.val) (hlt : val ret < 2 * p.val)
include hbn1 hlt

lemma round_sum_lt (fill : Nat) :
    val ret + bn1.val * elem.toNat +
      p.val * (fill * (val ret + bn1.val * elem.toNat) % 2 ^ 32) < 2 ^ (32 * 10) :=
  (sum_lt fill (by norm_num) hlt hbn1 elem.toNat_lt).trans (two_mul_radix_mul_lt p)

lemma mult_add_lt : val (big8wMultNum bn1 elem) + val ret < 2 ^ (32 * 10) := by
  rw [big8wMultNum_val, Nat.add_comm]
  exact (Nat.le_add_right _ _).trans_lt (round_sum_lt hbn1 hlt 0)

include hret

lemma montAdd_val : val (montAdd bn1 elem ret) = val ret + bn1.val * elem.toNat := by
  rw [montAdd, u32Add_val (big8wMultNum_length _ _) hret (mult_add_lt hbn1 hlt), big8wMultNum_val,
    Nat.add_comm]

lemma fill_add_val :
    val (big8wMultNum p (fill * (montAdd bn1 elem ret).headD 0)) +
      val (montAdd bn1 elem ret) = val ret + bn1.val * elem.toNat +
        p.val * (fill.toNat * (val ret + bn1.val * elem.toNat) % 2 ^ 32) := by
  have hne : montAdd bn1 elem ret ≠ [] := by
    rw [ne_eq, ← length_eq_zero_iff, montAdd_length hret]
    decide
  rw [big8wMultNum_val, toNat_fill_mul_headD hne, montAdd_val hret hbn1 hlt, Nat.add_comm]

lemma montFits : MontFits bn1 p fill ret elem := by
  refine ⟨mult_add_lt hbn1 hlt, ?_⟩
  rw [fill_add_val hret hbn1 hlt]
  exact round_sum_lt hbn1 hlt _

lemma montStep_val : val (montStep bn1 p fill ret elem) =
    Montgomery.round (2 ^ 32) p.val fill.toNat bn1.val (val ret) elem.toNat := by
  have hne : montFill p fill (montAdd bn1 elem ret) ≠ [] := by
    rw [ne_eq, ← length_eq_zero_iff, montFill,
      u32Add_length (big8wMultNum_length _ _) (montAdd_length hret)]
    decide
  rw [montStep, tail_val hne, montFill, u32Add_val (big8wMultNum_length _ _) (montAdd_length hret)
    (montFits hret hbn1 hlt).2, fill_add_val hret hbn1 hlt, Montgomery.round]

end

section
variable {bn1 bn2 p : Big8w} {fill : UInt32} (elems : List UInt32)

lemma montLoop_snoc (elem : UInt32) :
    montLoop bn1 p fill (elems ++ [elem]) = montStep bn1 p fill
      (montLoop bn1 p fill elems) elem := by simp [montLoop]

variable (bn1 p fill) in

lemma montLoop_length : (montLoop bn1 p fill elems).length = 10 := by
  induction elems using reverseRecOn with
  | nil => rfl
  | append_singleton elems elem ih =>
    rw [montLoop_snoc]
    exact montStep_length ih

lemma toNat_lt_of_mem_map : ∀ x ∈ elems.map UInt32.toNat, x < 2 ^ 32 := by
  intro x hx
  obtain ⟨w, -, rfl⟩ := List.mem_map.mp hx
  exact w.toNat_lt

lemma montLoop_val (fill : UInt32) (hbn1 : bn1.val < p.val) (elems : List UInt32) :
    val (montLoop bn1 p fill elems) =
        (elems.map UInt32.toNat).foldl (Montgomery.round (2 ^ 32) p.val fill.toNat bn1.val) 0 ∧
      val (montLoop bn1 p fill elems) < 2 * p.val := by
  have key : val (montLoop bn1 p fill elems) =
      (elems.map UInt32.toNat).foldl (Montgomery.round (2 ^ 32) p.val fill.toNat bn1.val) 0 := by
    induction elems using reverseRecOn with
    | nil => rfl
    | append_singleton elems elem ih =>
      have hlt := foldl_round_lt fill.toNat (t := 0) (by norm_num) (by omega) hbn1
        (toNat_lt_of_mem_map elems)
      rw [montLoop_snoc, montStep_val (montLoop_length _ _ _ elems) hbn1 (by rwa [ih]), ih]
      simp
  refine ⟨key, ?_⟩
  rw [key]
  exact foldl_round_lt _ (by norm_num) (by omega) hbn1 (toNat_lt_of_mem_map elems)

lemma montPassFits (hbn1 : bn1.val < p.val) : MontPassFits bn1 bn2 p fill := by
  intro elems elem rest _
  exact montFits (montLoop_length _ _ _ elems) hbn1 (montLoop_val fill hbn1 elems).2

lemma ofDigits_map_toNat (ws : List UInt32) :
    Nat.ofDigits (2 ^ 32) (ws.map UInt32.toNat) = val ws := by
  induction ws with
  | nil => rfl
  | cons w ws ih =>
    rw [map_cons, ofDigits_cons, ih, val_cons]

lemma big8wMontMult_spec (hfill : IsFill p fill) (hbn1 : bn1.val < p.val) (hbn2 : bn2.val ≠ 0) :
    ∃ res, big8wMontMult bn1 bn2 p fill = some res ∧ val res < p.val ∧ res.length = 10 ∧
      val res * 2 ^ 256 ≡ bn1.val * bn2.val [MOD p.val] := by
  have hv := (montLoop_val fill hbn1 bn2.word).1
  have hlt := (montLoop_val fill hbn1 bn2.word).2
  have hl := montLoop_length bn1 p fill bn2.word
  have hcong := foldl_round_mul (a := bn1.val) hfill (bn2.word.map UInt32.toNat)
  have hp : val (p.word ++ [0, 0]) = p.val := by simp [Big8w.val]
  have hpl : (p.word ++ [0, 0]).length = 10 := by simp [p.size]
  rw [← hv, ofDigits_map_toNat, length_map, bn2.size, ← pow_mul] at hcong
  obtain ⟨i, hi⟩ := ne_none_iff_exists'.mp (mt (topIndex_eq_none bn2.word).mp hbn2)
  rw [big8wMontMult, hi]
  simp only [bind_eq_bind, bind_some, u32CMP_eq (hl.trans hpl.symm), hp, decide_eq_true_eq]
  split
  · rename_i hge
    have hm := u32Minus_val hl hpl (by rwa [hp])
    rw [hp] at hm
    refine ⟨_, rfl, by omega, ?_, ?_⟩
    · rw [u32Minus, ripple_length _ (hl.trans hpl.symm), hl]
    · have hs : val (u32Minus (montLoop bn1 p fill bn2.word) (p.word ++ [0, 0])) + p.val =
          val (montLoop bn1 p fill bn2.word) := by omega
      rw [← hs] at hcong
      exact ((add_modulus_modEq_iff.mpr (Nat.ModEq.refl _)).symm.mul_right _).trans hcong
  · exact ⟨_, rfl, by omega, hl, hcong⟩

end

structure IsModulus (p k : Big8w) (fill : UInt32) : Prop where
  isFill : IsFill p fill
  coprime : (2 ^ 256).Coprime p.val
  k_ne_zero : k.val ≠ 0
  k_modEq : k.val ≡ 2 ^ 256 * 2 ^ 256 [MOD p.val]

lemma isModulus_q : IsModulus sm9Q sm9Q2k qlowReverse where
  isFill := by decide +kernel
  coprime := Nat.Coprime.pow_left _ (by decide +kernel)
  k_ne_zero := by decide +kernel
  k_modEq := by decide +kernel

lemma isModulus_N : IsModulus sm9N sm9N2k nlowReverse where
  isFill := by decide +kernel
  coprime := Nat.Coprime.pow_left _ (by decide +kernel)
  k_ne_zero := by decide +kernel
  k_modEq := by decide +kernel

lemma montMult_twice {bn1 bn2 p k : Big8w} {fill : UInt32} (hp : IsModulus p k fill)
    (hbn1 : bn1.val < p.val) (hbn2 : bn2.val ≠ 0) :
    ∃ res res', big8wMontMult bn1 bn2 p fill = some res ∧
      big8wMontMult (firstWords res) k p fill = some res' ∧
      (firstWords res).val < p.val ∧ (firstWords res').val = bn1.val * bn2.val % p.val := by
  have hlt := p.val_lt
  obtain ⟨res, hres, hres_lt, hlen, hmod⟩ := big8wMontMult_spec hp.isFill hbn1 hbn2
  have hv : (firstWords res).val = val res := firstWords_val (by omega) (by omega)
  obtain ⟨res', hres', hres'_lt, hlen', hmod'⟩ :=
    big8wMontMult_spec hp.isFill (by rwa [hv]) hp.k_ne_zero
  have hv' : (firstWords res').val = val res' := firstWords_val (by omega) (by omega)
  refine ⟨res, res', hres, hres', by rwa [hv], ?_⟩
  rw [hv] at hmod'
  rw [hv']
  exact eq_mul_mod hp.coprime hmod hp.k_modEq hmod' hres'_lt

def MultModFits (g : Globals) (bn1 bn2 p : Big8w) : Prop :=
  let fill := if big8wEqual p g.q then qlowReverse else nlowReverse
  let k := if big8wEqual p g.q then g.q2k else g.N2k
  MontPassFits bn1 bn2 p fill ∧
    ∀ res, big8wMontMult bn1 bn2 p fill = some res → MontPassFits (firstWords res) k p fill

lemma isModulus_sm9Init {p : Big8w} (hp : p = sm9Init.q ∨ p = sm9Init.N) :
    IsModulus p (if big8wEqual p sm9Init.q then sm9Init.q2k else sm9Init.N2k)
      (if big8wEqual p sm9Init.q then qlowReverse else nlowReverse) := by
  rcases hp with rfl | rfl
  · rw [big8wEqual_eq, decide_eq_true rfl]
    exact isModulus_q
  · rw [big8wEqual_eq, decide_eq_false (by decide +kernel)]
    exact isModulus_N

lemma big8wMultMod_eq {p : Big8w} (hp : p = sm9Init.q ∨ p = sm9Init.N) {bn1 bn2 : Big8w}
    (h1 : bn1.val < p.val) :
    big8wMultMod sm9Init bn1 bn2 p = some (.ofNat (bn1.val * bn2.val % p.val)) := by
  rw [big8wMultMod, big8wIsZero_eq, big8wIsZero_eq]
  by_cases hz : bn1 = .zero ∨ bn2 = .zero
  · have hv : bn1.val * bn2.val = 0 := by
      rcases hz with rfl | rfl <;> simp
    simp only [← decide_or, hz, decide_true, if_true, hv, zero_mod]
    rw [← Big8w.eq_ofNat Big8w.val_zero]
  · have hbn2 : bn2.val ≠ 0 := by
      rw [← Big8w.val_zero, ne_eq, Big8w.val_inj]
      tauto
    obtain ⟨res, res', hres, hres', -, hval⟩ := montMult_twice (isModulus_sm9Init hp) h1 hbn2
    simp only [← decide_or, hz, decide_false, false_eq_true, if_false, hres,
      bind_eq_bind, bind_some]
    rw [← Big8w.eq_ofNat hval]
    split at hres' <;> simp_all

/-- Multiplication modulo `q` or `N` with the loaded constants is exact and reduced, and
nothing is lost from the accumulator on the way. -/
theorem big8wMultMod_exact (bn1 bn2 p : Big8w) (hp : p = sm9Init.q ∨ p = sm9Init.N)
    (h1 : bn1.val < p.val) (h2 : bn2.val < p.val) :
    (∃ ret, big8wMultMod sm9Init bn1 bn2 p = some ret ∧ ret.val < p.val ∧
      ret.val = bn1.val * bn2.val % p.val) ∧ MultModFits sm9Init bn1 bn2 p := by
  have hmod : bn1.val * bn2.val % p.val < p.val := mod_lt _ (by omega)
  have hv := Big8w.val_ofNat (hmod.trans p.val_lt)
  refine ⟨⟨_, big8wMultMod_eq hp h1, by rwa [hv], hv⟩, montPassFits h1, ?_⟩
  intro res hres
  by_cases hbn2 : bn2.val = 0
  · simp [big8wMontMult, (topIndex_eq_none bn2.word).mpr hbn2] at hres
  · obtain ⟨_, _, hres', -, hlt, -⟩ := montMult_twice (isModulus_sm9Init hp) h1 hbn2
    rw [hres, Option.some.injEq] at hres'
    subst hres'
    exact montPassFits hlt

theorem big8wMultMod_exact_sample :
    (∃ ret, big8wMultMod sm9Init .one .one sm9Init.N = some ret ∧ ret.val < sm9Init.N.val ∧
      ret.val = Big8w.one.val * Big8w.one.val % sm9Init.N.val) ∧
      MultModFits sm9Init .one .one sm9Init.N :=
  big8wMultMod_exact .one .one sm9Init.N (.inr rfl) (by decide +kernel) (by decide +kernel)

end Xiuos.Sm9
