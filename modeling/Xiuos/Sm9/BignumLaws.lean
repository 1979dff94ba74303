import Xiuos.Sm9.Bignum

namespace Xiuos.Sm9
open Lib List Nat Option Limbs

lemma toNat_shift_or {rest : UInt32} (hpos : 0 < rest.toNat) (hlt : rest.toNat < 32)
    (w v : UInt32) :
    (w >>> rest ||| v <<< (32 - rest)).toNat =
      w.toNat / 2 ^ rest.toNat + 2 ^ (32 - rest.toNat) * (v.toNat % 2 ^ rest.toNat) := by
  have hw := w.toNat_lt
  have hs : (32 - rest).toNat = 32 - rest.toNat := by
    rw [UInt32.toNat_sub, show (32 : UInt32).toNat = 32 from rfl]
    omega
  have hpow : 2 ^ rest.toNat * 2 ^ (32 - rest.toNat) = 2 ^ 32 := pow_mul_pow_sub 2 hlt.le
  have hlow : w.toNat / 2 ^ rest.toNat < 2 ^ (32 - rest.toNat) := by
    rw [Nat.div_lt_iff_lt_mul (by positivity), mul_comm, hpow]
    exact hw
  have hhigh : v.toNat <<< (32 - rest.toNat) % 2 ^ 32 =
      (v.toNat % 2 ^ rest.toNat) <<< (32 - rest.toNat) := by
    rw [shiftLeft_eq, shiftLeft_eq, ← hpow, mul_mod_mul_right]
  rw [UInt32.toNat_or, UInt32.toNat_shiftRight, UInt32.toNat_shiftLeft, hs,
    mod_eq_of_lt hlt, mod_eq_of_lt (by omega : 32 - rest.toNat < 32), hhigh,
    shiftRight_eq_div_pow, lor_comm, ← shiftLeft_add_eq_or_of_lt hlow,
    shiftLeft_eq, Nat.add_comm, Nat.mul_comm (2 ^ (32 - rest.toNat))]

lemma Big8w.val_lt (bn : Big8w) : bn.val < 2 ^ 256 := by
  have h := Limbs.val_lt bn.word
  rwa [bn.size] at h

lemma Big8w.val_injective : Function.Injective Big8w.val := by
  intro ⟨ws, hw⟩ ⟨vs, hv⟩ h
  have : ws = vs := Limbs.val_injective (hw.trans hv.symm) h
  subst this
  rfl

variable {bn1 bn2 : Big8w}

@[simp] lemma Big8w.val_inj : bn1.val = bn2.val ↔ bn1 = bn2 := Big8w.val_injective.eq_iff

@[simp] lemma Big8w.val_zero : Big8w.zero.val = 0 := rfl

@[simp] lemma Big8w.val_one : Big8w.one.val = 1 := rfl

def wordsOfNat : Nat → Nat → List UInt32
  | 0, _ => []
  | k + 1, n => n.toUInt32 :: wordsOfNat k (n / 2 ^ 32)

lemma wordsOfNat_length (k n : Nat) : (wordsOfNat k n).length = k := by
  induction k generalizing n with
  | zero => rfl
  | succ k ih => simp [wordsOfNat, ih]

lemma val_wordsOfNat {k n : Nat} (h : n < 2 ^ (32 * k)) : Limbs.val (wordsOfNat k n) = n := by
  induction k generalizing n with
  | zero => simp at h; simp [wordsOfNat, h]
  | succ k ih =>
    have hn : n / 2 ^ 32 < 2 ^ (32 * k) := by
      rw [Nat.div_lt_iff_lt_mul (by norm_num), ← pow_add]
      exact h
    rw [wordsOfNat, val_cons, ih hn, UInt32.toNat_ofNat']
    exact mod_add_div n (2 ^ 32)

def Big8w.ofNat (n : Nat) : Big8w := ⟨wordsOfNat 8 n, wordsOfNat_length 8 n⟩

lemma Big8w.val_ofNat {n : Nat} (h : n < 2 ^ 256) : (Big8w.ofNat n).val = n := val_wordsOfNat h

variable {bn : Big8w}

lemma Big8w.eq_ofNat {n : Nat} (h : bn.val = n) : bn = .ofNat n := by
  apply Big8w.val_injective
  rw [Big8w.val_ofNat (h ▸ bn.val_lt), h]

lemma big8wBigThan_eq (bn1 bn2 : Big8w) : big8wBigThan bn1 bn2 = decide (bn2.val ≤ bn1.val) := by
  rw [big8wBigThan, geDown_eq (by simp [bn1.size, bn2.size])]
  simp only [reverse_reverse]
  rfl

lemma big8wEqual_eq (bn1 bn2 : Big8w) : big8wEqual bn1 bn2 = decide (bn1 = bn2) := by
  rw [big8wEqual, eqDown_eq (by simp [bn1.size, bn2.size])]
  cases bn1
  cases bn2
  simp

lemma big8wIsZero_eq (bn : Big8w) : big8wIsZero bn = decide (bn = .zero) := by
  rw [Bool.eq_iff_iff, decide_eq_true_eq]
  constructor
  · intro h
    have hw : bn.word = replicate 8 0 := by
      rw [eq_replicate_iff]
      exact ⟨bn.size, by simpa [big8wIsZero] using h⟩
    cases bn
    simp_all [Big8w.zero]
  · rintro rfl
    rfl

lemma topIndex_eq_none (ws : List UInt32) : topIndex ws = none ↔ Limbs.val ws = 0 := by
  induction ws with
  | nil => simp [topIndex]
  | cons w ws ih =>
    rw [topIndex]
    cases h : topIndex ws with
    | none =>
      have hw : w = 0 ↔ w.toNat = 0 := by rw [← UInt32.toNat_inj, UInt32.toNat_zero]
      simp [ih.mp h, hw]
    | some i =>
      have := mt ih.mpr (by simp [h])
      simp only [val_cons, reduceCtorEq, false_iff]
      omega

lemma log2_add_word {w v : Nat} (hw : w < 2 ^ 32) (hv : v ≠ 0) :
    (w + 2 ^ 32 * v).log2 = 32 + v.log2 := by
  have h1 := log2_self_le hv
  have h2 := @Nat.lt_log2_self v
  rw [log2_eq_iff (by omega), pow_add, Nat.add_assoc, pow_add]
  constructor
  · omega
  · rw [pow_succ'] at h2 ⊢
    omega

variable {ws : List UInt32} {i : Nat}

lemma topIndex_log2 (h : topIndex ws = some i) :
    ∃ w, ws[i]? = some w ∧ w ≠ 0 ∧ (Limbs.val ws).log2 = 32 * i + w.toNat.log2 := by
  induction ws generalizing i with
  | nil => simp [topIndex] at h
  | cons v ws ih =>
    rw [topIndex] at h
    cases ht : topIndex ws with
    | none =>
      simp only [ht] at h
      split at h
      · cases h
      · rename_i hv
        cases h
        exact ⟨v, rfl, hv, by simp [(topIndex_eq_none ws).mp ht]⟩
    | some j =>
      simp only [ht, Option.some.injEq] at h
      subst h
      obtain ⟨w, hw, hne, hlog⟩ := ih ht
      have hval : Limbs.val ws ≠ 0 := mt (topIndex_eq_none ws).mpr (by simp [ht])
      refine ⟨w, by simpa using hw, hne, ?_⟩
      rw [val_cons, log2_add_word v.toNat_lt hval, hlog]
      omega

lemma topIndex_eq_log2_div (h : topIndex ws = some i) : i = (Limbs.val ws).log2 / 32 := by
  obtain ⟨w, -, hw, hlog⟩ := topIndex_log2 h
  have hne : w.toNat ≠ 0 := by rwa [ne_eq, ← UInt32.toNat_zero, UInt32.toNat_inj]
  have := (log2_lt hne).mpr w.toNat_lt
  omega

lemma topIndex_of_ne_zero (h : Limbs.val ws ≠ 0) :
    topIndex ws = some ((Limbs.val ws).log2 / 32) := by
  obtain ⟨i, hi⟩ := ne_none_iff_exists'.mp (mt (topIndex_eq_none ws).mp h)
  rw [hi, topIndex_eq_log2_div hi]

lemma bitFrom_eq {elem : UInt32} (hne : elem ≠ 0) (hi : i < 32) (hlt : elem.toNat < 2 ^ (i + 1)) :
    bitFrom elem i = elem.toNat.log2 := by
  have hne' : elem.toNat ≠ 0 := by rwa [ne_eq, ← UInt32.toNat_zero, UInt32.toNat_inj]
  induction i with
  | zero =>
    rw [bitFrom, show elem.toNat = 1 by omega]
    rfl
  | succ i ih =>
    have hbit : (elem >>> (i + 1).toUInt32) &&& 1 = 1 ↔ 2 ^ (i + 1) ≤ elem.toNat := by
      have hs : (i + 1).toUInt32.toNat % 32 = i + 1 := by
        rw [UInt32.toNat_ofNat']
        omega
      rw [← UInt32.toNat_inj, UInt32.toNat_and, UInt32.toNat_shiftRight, hs,
        shiftRight_eq_div_pow, UInt32.toNat_one, and_one_is_mod]
      rw [pow_succ'] at hlt
      have hlt2 : elem.toNat / 2 ^ (i + 1) < 2 := (Nat.div_lt_iff_lt_mul (by positivity)).mpr hlt
      rw [← Nat.one_le_div_iff (by positivity)]
      generalize elem.toNat / 2 ^ (i + 1) = q at *
      omega
    rw [bitFrom]
    simp only [hbit]
    split
    · rename_i hge
      exact ((log2_eq_iff hne').mpr ⟨hge, hlt⟩).symm
    · rename_i hge
      exact ih (by omega) (by omega)

lemma bitFrom_le (elem : UInt32) (i : Nat) : bitFrom elem i ≤ i := by
  induction i with
  | zero => simp [bitFrom]
  | succ i ih =>
    rw [bitFrom]
    split
    · exact le_refl _
    · exact ih.trans (le_succ i)

lemma toNat_ne_zero {w : UInt32} (h : w ≠ 0) : w.toNat ≠ 0 := by
  rwa [ne_eq, ← UInt32.toNat_zero, UInt32.toNat_inj]

lemma find_reverse_ne_zero (h : topIndex ws = some i) : ws.reverse.find? (· ≠ 0) = ws[i]? := by
  induction ws generalizing i with
  | nil => simp [topIndex] at h
  | cons v ws ih =>
    rw [topIndex] at h
    rw [reverse_cons, find?_append]
    cases ht : topIndex ws with
    | none =>
      have hws : ws = replicate ws.length 0 := by
        apply val_injective (by simp)
        rw [(topIndex_eq_none ws).mp ht, val_replicate_zero]
      have hnone : ws.reverse.find? (· ≠ 0) = none := by
        rw [hws, reverse_replicate, find?_eq_none]
        intro x hx
        simp [(mem_replicate.mp hx).2]
      simp only [ht] at h
      split at h
      · cases h
      · rename_i hv
        cases h
        rw [hnone, none_or]
        simp [hv]
    | some j =>
      simp only [ht, Option.some.injEq] at h
      subst h
      obtain ⟨w, hw, -⟩ := topIndex_log2 ht
      rw [ih ht, hw, some_or, getElem?_cons_succ, hw]

lemma big8wHighestbit_of_ne_zero (stray : Nat → UInt32) (h : bn.val ≠ 0) :
    big8wHighestbit stray bn = some (bn.val.log2 % 32) := by
  have ht := topIndex_of_ne_zero h
  obtain ⟨w, hw, hne, hlog⟩ := topIndex_log2 ht
  have hlt := (log2_lt (toNat_ne_zero hne)).mpr w.toNat_lt
  rw [big8wHighestbit, find?_append, find_reverse_ne_zero ht, hw, some_or,
    map_some, bitFrom_eq hne (by decide) w.toNat_lt]
  rw [← Big8w.val] at hlog
  congr 1
  omega

lemma toNat_toUInt32 (b : Bool) : b.toUInt32.toNat = b.toNat := by cases b <;> rfl

lemma minusStep_isBorrow : Limbs.IsBorrow minusStep := by
  intro x y c
  have hx := x.toNat_lt
  have hy := y.toNat_lt
  have hr : (x - y - c.toUInt32).toNat =
      if y.toNat + c.toNat ≤ x.toNat then x.toNat - y.toNat - c.toNat
      else x.toNat + 2 ^ 32 - y.toNat - c.toNat := by
    have hc := c.toNat_le
    simp only [UInt32.toNat_sub, toNat_toUInt32]
    split <;> omega
  simp only [minusStep, Bool.or_eq_true, Bool.and_eq_true, decide_eq_true_eq, beq_iff_eq,
    UInt32.lt_iff_toNat_lt, ← UInt32.toNat_inj, hr]
  cases c <;> simp only [Bool.toNat_false, Bool.toNat_true, Nat.add_zero, reduceCtorEq, and_true,
    and_false, or_false] <;> split <;> split <;>
    simp only [Bool.toNat_false, Bool.toNat_true] <;> omega

lemma addStep_isCarry : Limbs.IsCarry addStep := by
  intro x y c
  have hx := x.toNat_lt
  have hy := y.toNat_lt
  have hr : (x + y + c.toUInt32).toNat =
      if x.toNat + y.toNat + c.toNat < 2 ^ 32 then x.toNat + y.toNat + c.toNat
      else x.toNat + y.toNat + c.toNat - 2 ^ 32 := by
    have hc := c.toNat_le
    simp only [UInt32.toNat_add, toNat_toUInt32]
    split <;> omega
  simp only [addStep, Bool.or_eq_true, Bool.and_eq_true, decide_eq_true_eq, beq_iff_eq, gt_iff_lt,
    UInt32.lt_iff_toNat_lt, ← UInt32.toNat_inj, hr]
  cases c <;> simp only [Bool.toNat_false, Bool.toNat_true, Nat.add_zero, reduceCtorEq, and_true,
    and_false, or_false] <;> split <;> split <;>
    simp only [Bool.toNat_false, Bool.toNat_true] <;> omega

lemma minusWords_val (h : bn2.val ≤ bn1.val) : (minusWords bn1 bn2).val = bn1.val - bn2.val := by
  have hr := ripple_borrow minusStep_isBorrow (bn1.size.trans bn2.size.symm) false
  have hlt := (minusWords bn1 bn2).val_lt
  rw [bn1.size] at hr
  simp only [Big8w.val, minusWords, Bool.toNat_false] at *
  cases hb : (Limbs.ripple minusStep bn1.word bn2.word false).2 <;> simp [hb] at hr <;> omega

lemma addWords_val (bn1 bn2 : Big8w) :
    (addWords bn1 bn2).1.val + 2 ^ 256 * (addWords bn1 bn2).2.toNat = bn1.val + bn2.val := by
  have hr := ripple_carry addStep_isCarry (bn1.size.trans bn2.size.symm) false
  rw [bn1.size] at hr
  simpa [Big8w.val, addWords] using hr

lemma minusModRec_of_le {depth : Nat} (p : Big8w) (h : bn2.val ≤ bn1.val) :
    minusModRec (depth + 1) bn1 bn2 p = some (.ofNat (bn1.val - bn2.val)) := by
  rw [minusModRec, big8wEqual_eq, big8wBigThan_eq]
  by_cases he : bn2 = bn1
  · subst he
    simp only [decide_true, if_true, Nat.sub_self]
    rw [← Big8w.eq_ofNat Big8w.val_zero]
  · have hne : bn2.val ≠ bn1.val := fun hv => he (Big8w.val_injective hv)
    simp only [he, decide_false, Bool.false_eq_true, if_false, decide_eq_true_eq]
    rw [if_neg (by omega), ← Big8w.eq_ofNat (minusWords_val h)]

lemma big8wMinusMod_of_le (p : Big8w) (h : bn2.val ≤ bn1.val) :
    big8wMinusMod bn1 bn2 p = some (.ofNat (bn1.val - bn2.val)) := minusModRec_of_le p h

lemma big8wMinusMod_of_lt {bn1 bn2 p : Big8w} (h : bn1.val < bn2.val)
    (hp : bn2.val - bn1.val ≤ p.val) :
    big8wMinusMod bn1 bn2 p = some (.ofNat (p.val + bn1.val - bn2.val)) := by
  have hne : bn2 ≠ bn1 := fun he => by simp [he] at h
  have hd : (Big8w.ofNat (bn2.val - bn1.val)).val = bn2.val - bn1.val :=
    Big8w.val_ofNat (lt_of_le_of_lt (sub_le _ _) bn2.val_lt)
  rw [big8wMinusMod, minusModRec, big8wEqual_eq, big8wBigThan_eq]
  simp only [hne, h.le, decide_false, decide_true, Bool.false_eq_true, if_false, if_true]
  rw [minusModRec_of_le p h.le, bind_eq_bind, bind_some, minusModRec_of_le p (by rwa [hd]), hd]
  congr 2
  omega

lemma complement_val (bn : Big8w) : (complement bn).val = 2 ^ 256 - 1 - bn.val := by
  have key : ∀ ws : List UInt32, Limbs.val (ws.map (0xffffffff - ·)) + Limbs.val ws + 1 =
      2 ^ (32 * ws.length) := by
    intro ws
    induction ws with
    | nil => rfl
    | cons w ws ih =>
      have hw := w.toNat_lt
      have hc : ((0xffffffff : UInt32) - w).toNat = 2 ^ 32 - 1 - w.toNat := by
        rw [UInt32.toNat_sub, show (0xffffffff : UInt32).toNat = 2 ^ 32 - 1 from rfl]
        omega
      rw [map_cons, pow_length_cons, val_cons, val_cons, hc]
      omega
  have h := key bn.word
  rw [bn.size] at h
  simp only [Big8w.val, complement]
  omega

lemma isMax_iff (w : UInt32) : isMax w = true ↔ w.toNat = 2 ^ 32 - 1 := by
  rw [isMax, beq_iff_eq, ← UInt32.toNat_inj]
  rfl

lemma val_of_takeWhile_isMax (ws : List UInt32) (h : ws.length ≤ (ws.takeWhile isMax).length) :
    Limbs.val ws + 1 = 2 ^ (32 * ws.length) := by
  induction ws with
  | nil => rfl
  | cons w ws ih =>
    by_cases hm : isMax w
    · have hv := ih (by simpa [takeWhile_cons, hm] using h)
      rw [pow_length_cons, val_cons, (isMax_iff w).mp hm, ← hv]
      omega
    · simp [hm] at h

lemma val_mapIdx_increment (ws : List UInt32) (h : (ws.takeWhile isMax).length < ws.length) :
    Limbs.val (ws.mapIdx fun j w => if j = (ws.takeWhile isMax).length then w + 1
      else if j < (ws.takeWhile isMax).length then 0 else w) = Limbs.val ws + 1 := by
  induction ws with
  | nil => simp at h
  | cons w ws ih =>
    have hw := w.toNat_lt
    by_cases hm : isMax w
    · have hw' := (isMax_iff w).mp hm
      simp only [takeWhile_cons, hm, if_true, length_cons, Nat.add_lt_add_iff_right,
        mapIdx_cons, Nat.add_right_cancel_iff, val_cons] at h ⊢
      rw [ih h, if_neg (by omega), if_pos (by omega), hw']
      simp
      omega
    · have hw' := mt (isMax_iff w).mpr hm
      have hid : ws.mapIdx (fun _ w => w) = ws := ext_getElem? (by simp)
      simp only [takeWhile_cons, hm, mapIdx_cons, val_cons]
      simp [UInt32.toNat_add, hid]
      omega

lemma plusOne_val (h : bn.val + 1 < 2 ^ 256) :
    plusOne bn = some (.ofNat (if bn.val % 2 ^ 32 = 2 ^ 32 - 1 then bn.val + 2 ^ 32
      else bn.val + 1)) := by
  obtain ⟨ws, hs⟩ := bn
  obtain ⟨w, vs, rfl⟩ := exists_cons_of_length_eq_add_one hs
  have hvs : vs.length = 7 := by simpa using hs
  have hi : ((w :: vs).takeWhile isMax).length < 8 := by
    by_contra hc
    have hv := val_of_takeWhile_isMax (w :: vs) (by omega)
    rw [hs] at hv
    exact absurd h (by simp only [Big8w.val]; omega)
  have hlow : Big8w.val ⟨w :: vs, hs⟩ % 2 ^ 32 = w.toNat := by
    have hw := w.toNat_lt
    simp only [Big8w.val, val_cons]
    omega
  rw [plusOne, if_pos hi, hlow]
  congr 1
  apply Big8w.eq_ofNat
  by_cases hm : isMax w
  · have hi' : (vs.takeWhile isMax).length + 1 < 8 := by simpa [takeWhile_cons, hm] using hi
    have hinc := val_mapIdx_increment vs (by omega)
    rw [if_pos ((isMax_iff w).mp hm)]
    simp only [Big8w.val, takeWhile_cons, hm, if_true, length_cons, mapIdx_cons,
      val_cons, Nat.add_right_cancel_iff, Nat.add_lt_add_iff_right, succ_pos, true_and, hinc]
    rw [if_neg (by omega), if_neg (by omega)]
    omega
  · have hinc := val_mapIdx_increment (w :: vs) (by rw [hs]; exact hi)
    rw [if_neg (mt (isMax_iff w).mpr hm), Big8w.val, Big8w.val, ← hinc]
    simp [hm]

end Xiuos.Sm9
