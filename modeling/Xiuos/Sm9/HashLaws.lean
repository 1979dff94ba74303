import Xiuos.Lib.AlignedReduce
import Xiuos.Sm9.Hash

namespace Xiuos.Sm9
open Lib List Nat Option AlignedReduce Limbs
variable {rest : UInt32}

lemma toNat_shiftLeft_or (hpos : 0 < rest.toNat) (hlt : rest.toNat < 32) (w prev : UInt32) :
    (w <<< rest ||| prev >>> (32 - rest)).toNat + 2 ^ 32 * (w.toNat / 2 ^ (32 - rest.toNat)) =
      2 ^ rest.toNat * w.toNat + prev.toNat / 2 ^ (32 - rest.toNat) := by
  have hs : (32 - rest).toNat = 32 - rest.toNat := by
    rw [UInt32.toNat_sub, show (32 : UInt32).toNat = 32 from rfl]
    omega
  have hpow : 2 ^ rest.toNat * 2 ^ (32 - rest.toNat) = 2 ^ 32 := pow_mul_pow_sub 2 hlt.le
  have hor := toNat_shift_or (by omega : 0 < (32 - rest).toNat) (by omega) prev w
  rw [sub_sub_cancel, UInt32.or_comm, hs, Nat.sub_sub_self hlt.le] at hor
  rw [hor, ← hpow]
  nth_rewrite 3 [← mod_add_div w.toNat (2 ^ (32 - rest.toNat))]
  ring

lemma shiftLeftWords_val (hpos : 0 < rest.toNat) (hlt : rest.toNat < 32) (prev : UInt32)
    (ws : List UInt32) :
    Limbs.val (shiftLeftWords rest prev (ws ++ [0])) =
      2 ^ rest.toNat * Limbs.val ws + prev.toNat / 2 ^ (32 - rest.toNat) := by
  induction ws generalizing prev with
  | nil =>
    have h := toNat_shiftLeft_or hpos hlt 0 prev
    simpa [shiftLeftWords] using h
  | cons w ws ih =>
    have h := toNat_shiftLeft_or hpos hlt w prev
    rw [cons_append, shiftLeftWords, val_cons, ih, val_cons, mul_add, mul_add]
    linarith

/-- The stored length is the index of the top nonzero word. -/
def Big16w.Normal (bn : Big16w) : Prop := topIndex bn.word = some bn.length

namespace Big16w.Normal
variable {bn : Big16w} (hn : bn.Normal)
include hn

lemma val_ne_zero : bn.val ≠ 0 := by
  intro h
  rw [Big16w.Normal, (topIndex_eq_none bn.word).mpr h] at hn
  cases hn

lemma length_eq : bn.length = bn.val.log2 / 32 := topIndex_eq_log2_div hn

lemma val_lt : bn.val < 2 ^ (32 * (bn.length + 1)) := by
  rw [← log2_lt hn.val_ne_zero, hn.length_eq]
  omega

lemma le_val : 2 ^ (32 * bn.length) ≤ bn.val := by
  rw [← le_log2 hn.val_ne_zero, hn.length_eq]
  omega

lemma length_lt : bn.length < 16 := by
  obtain ⟨w, hw, -⟩ := topIndex_log2 hn
  have := (List.getElem?_eq_some_iff.mp hw).1
  rwa [bn.size] at this

lemma val_take : Limbs.val (bn.word.take (bn.length + 1)) = bn.val := val_take_of_lt hn.val_lt

lemma big16wHighestbit_eq : big16wHighestbit bn = some (bn.val.log2 % 32) := by
  obtain ⟨w, hw, hne, hlog⟩ := topIndex_log2 hn
  have hne' : w.toNat ≠ 0 := by rwa [ne_eq, ← UInt32.toNat_zero, UInt32.toNat_inj]
  have hlt := (log2_lt hne').mpr w.toNat_lt
  rw [big16wHighestbit, hw]
  simp only [bind_eq_bind, bind_some, hne, and_false, if_false,
    bitFrom_eq hne (by decide) w.toNat_lt, Big16w.val, hlog]
  congr 1
  omega

end Big16w.Normal

variable {bn1 bn2 : Big16w}

lemma big16wBigThan_eq (h1 : bn1.Normal) (h2 : bn2.Normal) :
    big16wBigThan bn1 bn2 = decide (bn2.val ≤ bn1.val) := by
  rw [big16wBigThan]
  by_cases hgt : bn1.length > bn2.length
  · have hpow : 2 ^ (32 * (bn2.length + 1)) ≤ 2 ^ (32 * bn1.length) :=
      Nat.pow_le_pow_right (by decide) (by omega)
    have hle := h1.le_val
    have hlt := h2.val_lt
    rw [if_pos hgt, decide_eq_true (by omega)]
  · by_cases hlt : bn1.length < bn2.length
    · have hpow : 2 ^ (32 * (bn1.length + 1)) ≤ 2 ^ (32 * bn2.length) :=
        Nat.pow_le_pow_right (by decide) (by omega)
      have hle := h2.le_val
      have hlt' := h1.val_lt
      rw [if_neg hgt, if_pos hlt, decide_eq_false (by omega)]
    · have hlen : bn1.length = bn2.length := by omega
      rw [if_neg hgt, if_neg hlt, geDown_eq (by simp [bn1.size, bn2.size])]
      simp only [reverse_reverse, h1.val_take]
      rw [hlen, h2.val_take]

lemma big16wMinus_eq (h1 : bn1.Normal) (hle : bn2.val ≤ bn1.val) :
    (bn1.val = bn2.val → big16wMinus bn1 bn2 = none) ∧
      (bn1.val ≠ bn2.val →
        ∃ ret, big16wMinus bn1 bn2 = some ret ∧ ret.Normal ∧ ret.val = bn1.val - bn2.val) := by
  have ht1 := h1.val_take
  have ht2 : Limbs.val (bn2.word.take (bn1.length + 1)) = bn2.val :=
    val_take_of_lt (hle.trans_lt h1.val_lt)
  have hlen : (bn1.word.take (bn1.length + 1)).length =
    (bn2.word.take (bn1.length + 1)).length := by simp [bn1.size, bn2.size]
  have hval : Limbs.val (minusLow bn1 bn2) = bn1.val - bn2.val := by
    have hr := ripple_borrow minusStep_isBorrow hlen false
    have hlt := val_lt (minusLow bn1 bn2)
    rw [minusLow, ripple_length _ hlen] at hlt
    rw [ht1, ht2] at hr
    rw [minusLow]
    cases hb : (Limbs.ripple minusStep (bn1.word.take (bn1.length + 1))
      (bn2.word.take (bn1.length + 1)) false).2 <;> simp [hb] at hr hlt <;> omega
  constructor
  · intro heq
    rw [big16wMinus, (topIndex_eq_none _).mpr (by omega)]
    rfl
  · intro hne
    have ht := topIndex_of_ne_zero (by omega : Limbs.val (minusLow bn1 bn2) ≠ 0)
    rw [big16wMinus, ht]
    refine ⟨_, rfl, ?_, ?_⟩
    · rw [Big16w.Normal]
      rw [topIndex_of_ne_zero] <;> simp [hval]
      omega
    · simp [Big16w.val, hval]

lemma big16wLeftShift_eq {p : Big8w} (hp : 2 ^ 255 ≤ p.val) {gap : Nat} (hgap : gap ≤ 256) :
    ∃ temp, big16wLeftShift p (gap >>> 5) (gap &&& 0x1f).toUInt32 7 31 = some temp ∧ temp.Normal ∧
      temp.val = p.val * 2 ^ gap := by
  have hk : gap >>> 5 = gap / 32 := shiftRight_eq_div_pow gap 5
  have hrest : (gap &&& 0x1f).toUInt32.toNat = gap % 32 := by
    rw [UInt32.toNat_ofNat', and_two_pow_sub_one_eq_mod gap 5]
    omega
  have hzero : (gap &&& 0x1f).toUInt32 = 0 ↔ gap % 32 = 0 := by
    rw [← UInt32.toNat_inj, hrest, UInt32.toNat_zero]
  have hlog : (p.val * 2 ^ gap).log2 = 255 + gap := by
    have hlt := p.val_lt
    rw [log2_eq_iff (by positivity), pow_add, Nat.add_assoc, Nat.add_comm gap 1,
      ← Nat.add_assoc, pow_add]
    exact ⟨Nat.mul_le_mul_right _ hp, Nat.mul_lt_mul_of_pos_right hlt (by positivity)⟩
  have hnormal : ∀ {word : List UInt32} (hs : word.length = 16) {len : Nat},
      Limbs.val word = p.val * 2 ^ gap → len = (255 + gap) / 32 →
        Big16w.Normal ⟨word, hs, len⟩ := by
    intro word hs len hval hlen
    rw [Big16w.Normal, topIndex_of_ne_zero (by rw [hval]; positivity), hval, hlog, hlen]
  have hword : (replicate (gap / 32) 0 ++ p.word.take (7 + 1) ++
      replicate 16 (0 : UInt32)).take 16 =
      replicate (gap / 32) 0 ++ (p.word ++ replicate (8 - gap / 32) 0) := by
    rw [append_assoc, take_append, take_append,
      take_of_length_le (l := p.word) (i := 7 + 1) p.size.le, p.size, length_replicate,
      take_of_length_le (by simp; omega), take_of_length_le (by rw [p.size]; omega), take_replicate]
    congr 3
    omega
  rw [big16wLeftShift]
  simp only [hk, hrest, hword]
  by_cases h0 : gap % 32 = 0
  · have hval : Limbs.val (replicate (gap / 32) 0 ++
        (p.word ++ replicate (8 - gap / 32) 0)) = p.val * 2 ^ gap := by
      rw [val_append, val_append, val_replicate_zero, val_replicate_zero,
        length_replicate, Nat.mul_div_cancel' (dvd_of_mod_eq_zero h0), Big8w.val]
      ring
    simp only [hzero.mpr h0, ne_eq, not_true_eq_false, false_and, if_false, if_true]
    rw [dif_pos (by omega)]
    exact ⟨_, rfl, hnormal _ hval (by omega), hval⟩
  · have hlow : (replicate (gap / 32) 0 ++ (p.word ++ replicate (8 - gap / 32) 0)).take
        (gap / 32) = replicate (gap / 32) (0 : UInt32) := by rw [take_left' (by simp)]
    have hmid : ((replicate (gap / 32) 0 ++ (p.word ++ replicate (8 - gap / 32) 0)).drop
        (gap / 32)).take 9 = p.word ++ [(0 : UInt32)] := by
      rw [drop_left' (by simp), take_append, take_of_length_le (by simp [p.size]),
        p.size, take_replicate, show min (9 - 8) (8 - gap / 32) = 1 by omega]
      rfl
    have hhigh : (replicate (gap / 32) 0 ++ (p.word ++ replicate (8 - gap / 32) 0)).drop
        (7 + gap / 32 + 1 + 1) = replicate (7 - gap / 32) (0 : UInt32) := by
      rw [drop_append, drop_append, drop_replicate, drop_replicate,
        drop_of_length_le (by simp [p.size]; omega), p.size, length_replicate,
        show gap / 32 - (7 + gap / 32 + 1 + 1) = 0 by omega,
        show 8 - gap / 32 - (7 + gap / 32 + 1 + 1 - gap / 32 - 8) = 7 - gap / 32 by omega]
      rfl
    have hval : Limbs.val (replicate (gap / 32) 0 ++
        (shiftLeftWords (gap &&& 0x1f).toUInt32 0 (p.word ++ [0]) ++
          replicate (7 - gap / 32) 0)) = p.val * 2 ^ gap := by
      rw [val_append, val_append, val_replicate_zero, val_replicate_zero,
        length_replicate, shiftLeftWords_val (by omega) (by omega), hrest]
      conv => rhs; rw [← div_add_mod gap 32, pow_add]
      simp [Big8w.val]
      ring
    simp only [mt hzero.mp h0, ne_eq, not_false_eq_true, true_and, if_false,
      if_pos (by omega : gap % 32 + 31 > 31), hlow, hhigh,
      show 7 + gap / 32 + 1 + 1 - gap / 32 = 9 by omega, hmid]
    rw [dif_pos (by omega)]
    exact ⟨_, rfl, hnormal _ hval (by omega), hval⟩

variable {fuel : Nat} {stray : Nat → UInt32} {ret : Big16w}

section
variable {p : Big8w} (hp : 2 ^ 255 ≤ p.val)
include hp

lemma log2_modulus : p.val.log2 = 255 := by
  rw [log2_eq_iff (by omega)]
  exact ⟨hp, p.val_lt⟩

lemma mod8wLoop_refines (fuel : Nat) {bn : Big16w} (turn : Bool) (hn : bn.Normal) :
    (mod8wLoop p 7 31 fuel bn turn).map (fun r => (⟨r.1.val, r.2⟩ : State)) =
      loop p.val fuel ⟨bn.val, turn⟩ := by
  induction fuel generalizing bn turn with
  | zero => rfl
  | succ fuel ih =>
    have hlen := hn.length_eq
    rw [mod8wLoop, loop, log2_modulus hp]
    dsimp only
    by_cases hgt : bn.length > 7
    · have hlt := hn.length_lt
      obtain ⟨temp, htemp, hnt, hval⟩ := big16wLeftShift_eq hp (by omega : bn.val.log2 - 255 ≤ 256)
      have hgap : bn.length * 32 + bn.val.log2 % 32 - 255 = bn.val.log2 - 255 := by omega
      have hal : aligned p.val bn.val = temp.val := by
        rw [aligned, log2_modulus hp, hval]
      rw [if_pos hgt, if_neg (by omega), hn.big16wHighestbit_eq]
      simp only [bind_eq_bind, bind_some, hgap, htemp, big16wBigThan_eq hn hnt,
        decide_eq_true_eq, step, hal]
      by_cases hle : temp.val ≤ bn.val
      · obtain ⟨hnone, hsome⟩ := big16wMinus_eq hn hle
        simp only [hle, if_true]
        by_cases heq : bn.val = temp.val
        · rw [hnone heq, if_pos (by omega)]
          rfl
        · obtain ⟨ret, hret, hnret, hvret⟩ := hsome heq
          rw [hret, if_neg (by omega), ← hvret]
          exact ih _ hnret
      · obtain ⟨hnone, hsome⟩ := big16wMinus_eq hnt (Nat.le_of_not_le hle)
        obtain ⟨ret, hret, hnret, hvret⟩ := hsome (by omega)
        simp only [hle, if_false]
        rw [hret, if_neg (by omega), ← hvret]
        exact ih _ hnret
    · rw [if_neg hgt, if_pos (by omega)]
      rfl

lemma subtractLoop_eq (hf : 2 ≤ fuel) (ret : Big8w) :
    subtractLoop p fuel ret = some (.ofNat (ret.val % p.val)) := by
  obtain ⟨k, rfl⟩ := Nat.exists_eq_add_of_le' hf
  have hr := ret.val_lt
  rw [subtractLoop, big8wBigThan_eq]
  by_cases hle : p.val ≤ ret.val
  · have hv : (Big8w.ofNat (ret.val - p.val)).val = ret.val - p.val := Big8w.val_ofNat (by omega)
    simp only [hle, decide_true, if_true, big8wMinusMod_of_le p hle, bind_eq_bind, bind_some]
    rw [subtractLoop, big8wBigThan_eq, hv, decide_eq_false (by omega), mod_eq_sub_mod hle,
      mod_eq_of_lt (by omega)]
    rfl
  · rw [decide_eq_false hle, mod_eq_of_lt (by omega), ← Big8w.eq_ofNat rfl]
    rfl

lemma topIndex_modulus : topIndex p.word = some 7 := by
  have hlog := log2_modulus hp
  rw [Big8w.val] at hlog hp
  rw [topIndex_of_ne_zero (by omega), hlog]

lemma big8wHighestbit_modulus (stray : Nat → UInt32) : big8wHighestbit stray p = some 31 := by
  rw [big8wHighestbit_of_ne_zero stray (by omega), log2_modulus hp]

lemma subtractLoop_sound {ret x : Big8w} (h : subtractLoop p fuel ret = some x) :
    x = .ofNat (ret.val % p.val) := by
  have h2 : subtractLoop p (fuel + 2) ret = some x := by
    induction fuel generalizing ret with
    | zero => cases h
    | succ fuel ih =>
      rw [subtractLoop] at h ⊢
      split at h
      · rw [if_pos ‹_›]
        cases hm : big8wMinusMod ret p p with
        | none => simp [hm] at h
        | some y =>
          rw [hm] at h
          exact ih h
      · rw [if_neg ‹_›, h]
  rw [subtractLoop_eq hp (by omega), Option.some.injEq] at h2
  exact h2.symm

lemma finish_words (hret : ret.val < 2 ^ 256) (turn : Bool) :
    (if turn then big8wMinusMod p (.ofNat ((firstWords ret.word).val % p.val)) p
      else some (.ofNat ((firstWords ret.word).val % p.val))) =
      some (.ofNat (finish p.val ⟨ret.val, turn⟩)) := by
  have hmod : ret.val % p.val < p.val := mod_lt _ (by omega)
  have hv : (Big8w.ofNat (ret.val % p.val)).val = ret.val % p.val :=
    Big8w.val_ofNat (hmod.trans p.val_lt)
  have hfirst : (firstWords ret.word).val = ret.val :=
    firstWords_val (by rw [ret.size]; decide) hret
  rw [hfirst, finish]
  cases turn
  · rfl
  · rw [if_pos rfl, if_pos rfl, big8wMinusMod_of_le p (by omega), hv]

lemma mod8wLoop_val_lt {bn : Big16w} (hn : bn.Normal) {turn : Bool}
    (h : mod8wLoop p 7 31 fuel bn false = some (ret, turn)) :
    loop p.val fuel ⟨bn.val, false⟩ = some ⟨ret.val, turn⟩ ∧ ret.val < 2 ^ 256 := by
  have hloop := mod8wLoop_refines hp fuel false hn
  rw [h, map_some] at hloop
  have hlog := loop_log2_le hloop.symm
  rw [log2_modulus hp] at hlog
  exact ⟨hloop.symm, lt_of_lt_of_le lt_log2_self
    (Nat.pow_le_pow_right (by decide) (succ_le_succ hlog))⟩

lemma finish_val (s : State) :
    (Big8w.ofNat (finish p.val s)).val = finish p.val s :=
  Big8w.val_ofNat ((finish_le (by omega)).trans_lt p.val_lt)

lemma big16wmod8w_eq (stray : Nat → UInt32) (hf : 2 ≤ fuel) {bn : Big16w} (hn : bn.Normal) :
    (big16wmod8w stray fuel bn p).map Big8w.val =
      (loop p.val fuel ⟨bn.val, false⟩).map (finish p.val) := by
  rw [big16wmod8w, big8wHighestbit_modulus hp, topIndex_modulus hp,
    ← mod8wLoop_refines hp fuel false hn]
  simp only [bind_eq_bind, bind_some]
  cases hr : mod8wLoop p 7 31 fuel bn false with
  | none => rfl
  | some r =>
    simp only [bind_some, subtractLoop_eq hp hf,
      finish_words hp (mod8wLoop_val_lt hp hn hr).2, map_some, finish_val hp]

lemma big16wmod8w_sound {bn : Big16w} {x : Big8w} (hn : bn.Normal)
    (h : big16wmod8w stray fuel bn p = some x) :
    ∃ s, loop p.val fuel ⟨bn.val, false⟩ = some s ∧
      x.val = finish p.val s := by
  rw [big16wmod8w, big8wHighestbit_modulus hp, topIndex_modulus hp] at h
  simp only [bind_eq_bind, bind_some] at h
  obtain ⟨⟨ret, turn⟩, hr, h⟩ := bind_eq_some_iff.mp h
  obtain ⟨y, hy, h⟩ := bind_eq_some_iff.mp h
  obtain ⟨hloop, hlt⟩ := mod8wLoop_val_lt hp hn hr
  rw [subtractLoop_sound hp hy, finish_words hp hlt, Option.some.injEq] at h
  exact ⟨_, hloop, by rw [← h, finish_val hp]⟩

end

/-- The residue is returned for every number that is not a multiple of `p`.  For a multiple it is
returned when the cofactor is odd and the lowest bit at which the cofactor leaves the aligned power
is one at which it is below it: otherwise `p` is returned, or a difference of zero leads out of the
array.  For the larger moduli, and for the smallest, the low bits of the cofactor decide. -/
theorem big16wmod8w_iff (stray : Nat → UInt32) {p : Big8w} (hp : 2 ^ 255 ≤ p.val) {bn : Big16w}
    (hn : bn.Normal) :
    ((∃ fuel₀, ∀ fuel ≥ fuel₀, ∃ ret, big16wmod8w stray fuel bn p = some ret ∧
        ret.val = bn.val % p.val) ↔
      bn.val % p.val ≠ 0 ∨ Unturned p.val (bn.val / p.val)) ∧
    (2 ^ 257 ≤ 3 * p.val →
      (Unturned p.val (bn.val / p.val) ↔ bn.val / p.val % 4 = 1)) ∧
    (p.val = 2 ^ 255 →
      (Unturned p.val (bn.val / p.val) ↔ bn.val / p.val % 2 = 1)) := by
  have hp0 : p.val ≠ 0 := by omega
  have hiff {fuel : Nat} (hf : bn.val.log2 + 2 ≤ fuel) :
      (∃ ret, big16wmod8w stray fuel bn p = some ret ∧ ret.val = bn.val % p.val) ↔
        bn.val % p.val ≠ 0 ∨ Unturned p.val (bn.val / p.val) := by
    have hlog : bn.val.log2 < fuel := by omega
    rw [← loop_finish_iff hp0 hn.val_ne_zero hlog,
      ← big16wmod8w_eq hp stray (by omega) hn, map_eq_some_iff]
  refine ⟨⟨?_, fun h => ⟨_, fun fuel hf => (hiff hf).mpr h⟩⟩, fun h3 => ?_, fun h => ?_⟩
  · rintro ⟨fuel₀, h⟩
    exact (hiff (Nat.le_add_left ..)).mp (h (fuel₀ + (bn.val.log2 + 2)) (by omega))
  · exact unturned_iff_of_three (by rwa [log2_modulus hp])
  · rw [h]
    exact unturned_two_pow_iff 255

def halfRange : Big8w := ⟨List.replicate 7 0 ++ [0x80000000], rfl⟩

theorem big16wmod8w_leaves_array :
    Big16w.Normal ⟨List.replicate 8 0 ++ 1 :: List.replicate 7 0, rfl, 8⟩ ∧
    ¬ ∃ fuel₀, ∀ fuel ≥ fuel₀, ∃ ret,
      big16wmod8w (fun _ => 0) fuel ⟨List.replicate 8 0 ++ 1 :: List.replicate 7 0, rfl, 8⟩
        halfRange = some ret ∧
      ret.val = Big16w.val ⟨List.replicate 8 0 ++ 1 :: List.replicate 7 0, rfl, 8⟩ %
        halfRange.val := by
  refine ⟨rfl, ?_⟩
  rintro ⟨fuel₀, h⟩
  obtain ⟨ret, hret, -⟩ := h (fuel₀ + 1) (by omega)
  have hnone : (big16wmod8w (fun _ => 0) (fuel₀ + 1)
      ⟨List.replicate 8 0 ++ 1 :: List.replicate 7 0, rfl, 8⟩ halfRange) = none := by rfl
  rw [hnone] at hret
  cases hret

theorem big16wmod8w_three_times :
    Big16w.val ⟨List.replicate 7 0 ++ 0x80000000 :: 1 :: List.replicate 7 0, rfl, 8⟩ =
      3 * halfRange.val ∧
    ∃ fuel₀, ∀ fuel ≥ fuel₀, ∃ ret,
      big16wmod8w (fun _ => 0) fuel
        ⟨List.replicate 7 0 ++ 0x80000000 :: 1 :: List.replicate 7 0, rfl, 8⟩
        halfRange = some ret ∧
      ret.val =
        Big16w.val ⟨List.replicate 7 0 ++ 0x80000000 :: 1 :: List.replicate 7 0, rfl, 8⟩ %
          halfRange.val :=
  ⟨by decide +kernel, (big16wmod8w_iff _ (by decide +kernel) (by exact rfl)).1.mpr
    (.inr (((big16wmod8w_iff (fun _ => 0) (by decide +kernel) (by exact rfl)).2.2
      (by decide +kernel)).mpr (by decide +kernel)))⟩

def hashNum (ha ha2 : Digest) : Nat := Limbs.bigEndian (hashBytes ha ha2)

lemma hashBytes_length (ha ha2 : Digest) : (hashBytes ha ha2).length = 40 := by simp [hashBytes]

section
variable (ha ha2 : Digest)

lemma hashLoad_word_val :
    Limbs.val ((getWords 10 (hashBytes ha ha2)).reverse ++ replicate 6 0) = hashNum ha ha2 := by
  rw [val_append, val_replicate_zero, Nat.mul_zero, Nat.add_zero,
    getWords_val (hashBytes_length ha ha2).ge, hashNum,
    take_of_length_le (hashBytes_length ha ha2).le]

lemma hashLoad_take_val :
    Limbs.val (((getWords 10 (hashBytes ha ha2)).reverse ++ replicate 6 0).take 11) =
      hashNum ha ha2 := by
  have hlt := bigEndian_lt (hashBytes ha ha2)
  rw [hashBytes_length] at hlt
  rw [val_take_of_lt, hashLoad_word_val]
  rw [hashLoad_word_val]
  calc hashNum ha ha2 < 2 ^ (8 * 40) := hlt
    _ ≤ 2 ^ (32 * 11) := pow_le_pow_right₀ one_le_two (by decide)

variable {ha ha2}

lemma hashLoad_eq_none (h : hashNum ha ha2 = 0) : hashLoad ha ha2 = none := by
  rw [hashLoad, (topIndex_eq_none _).mpr (by rw [hashLoad_take_val, h])]
  rfl

lemma hashLoad_eq_some (h : hashNum ha ha2 ≠ 0) :
    ∃ ret, hashLoad ha ha2 = some ret ∧ ret.Normal ∧ ret.val = hashNum ha ha2 := by
  rw [hashLoad, topIndex_of_ne_zero (by rwa [hashLoad_take_val])]
  refine ⟨_, rfl, ?_, hashLoad_word_val ha ha2⟩
  rw [Big16w.Normal, topIndex_of_ne_zero (by rwa [hashLoad_word_val]), hashLoad_word_val,
    hashLoad_take_val]

end

lemma hashIncrement_eq (tmp : Big8w) : hashIncrement tmp =
    if tmp.val % 2 ^ 32 = 2 ^ 32 - 1 then none else some (.ofNat (tmp.val + 1)) := by
  obtain ⟨ws, hs⟩ := tmp
  obtain ⟨w, vs, rfl⟩ := exists_cons_of_length_eq_add_one hs
  have hw := w.toNat_lt
  have hlow : Big8w.val ⟨w :: vs, hs⟩ % 2 ^ 32 = w.toNat := by
    simp only [Big8w.val, val_cons]
    omega
  have hmax : w = 0xffffffff ↔ w.toNat = 2 ^ 32 - 1 := by
    rw [← UInt32.toNat_inj]
    rfl
  rw [hashIncrement, hlow]
  simp only [headD_cons, hmax]
  split
  · rfl
  · congr 1
    apply Big8w.eq_ofNat
    simp only [Big8w.val, modify_zero_cons, val_cons, UInt32.toNat_add, UInt32.toNat_one]
    omega

lemma nMinusOne_val : (nMinusOne sm9Init).val = sm9Init.N.val - 1 := by decide +kernel

lemma two_pow_le_nMinusOne : 2 ^ 255 ≤ (nMinusOne sm9Init).val := by decide +kernel

lemma two_pow_le_three_mul_nMinusOne :
    2 ^ ((nMinusOne sm9Init).val.log2 + 2) ≤ 3 * (nMinusOne sm9Init).val := by
  rw [log2_modulus two_pow_le_nMinusOne]
  decide +kernel

lemma hashDigests_sound {ha ha2 : Digest} {ret : Big8w}
    (h : hashDigests stray fuel sm9Init ha ha2 = some ret) :
    1 ≤ ret.val ∧ ret.val ≤ sm9Init.N.val ∧ (ret.val = sm9Init.N.val ↔
      hashNum ha ha2 % (sm9Init.N.val - 1) = 0 ∧ hashNum ha ha2 / (sm9Init.N.val - 1) % 4 = 3) := by
  have hp := two_pow_le_nMinusOne
  have hN := nMinusOne_val
  have hn : hashNum ha ha2 ≠ 0 := by
    intro h0
    rw [hashDigests, hashLoad_eq_none h0] at h
    cases h
  obtain ⟨bn, hload, hnorm, hval⟩ := hashLoad_eq_some hn
  rw [hashDigests, hload, bind_eq_bind, bind_some] at h
  obtain ⟨t, ht, h⟩ := bind_eq_some_iff.mp h
  obtain ⟨s, hs, htv⟩ := big16wmod8w_sound hp hnorm ht
  rw [hval] at hs
  have hle := finish_le (s := s) (by omega : (nMinusOne sm9Init).val ≠ 0)
  have hiff := finish_eq_self_iff (by omega) two_pow_le_three_mul_nMinusOne hn hs
  rw [hashIncrement_eq] at h
  split at h
  · cases h
  · cases h
    have hlt := sm9Init.N.val_lt
    rw [hN] at hiff htv hle
    rw [Big8w.val_ofNat (by omega), ← hiff, htv]
    omega

lemma hashDigests_result_iff (stray : Nat → UInt32) {ha ha2 : Digest} (hf : 2 ≤ fuel)
    (hlog : (hashNum ha ha2).log2 < fuel) (hn : hashNum ha ha2 ≠ 0) :
    (∃ ret, hashDigests stray fuel sm9Init ha ha2 = some ret ∧
      ret.val = hashNum ha ha2 % (sm9Init.N.val - 1) + 1) ↔
    hashNum ha ha2 % (sm9Init.N.val - 1) % 2 ^ 32 ≠ 2 ^ 32 - 1 ∧
      (hashNum ha ha2 % (sm9Init.N.val - 1) ≠ 0 ∨
        hashNum ha ha2 / (sm9Init.N.val - 1) % 4 = 1) := by
  obtain ⟨ret, hload, hnorm, hval⟩ := hashLoad_eq_some hn
  have hmod := big16wmod8w_eq two_pow_le_nMinusOne stray hf hnorm
  have hiff := loop_finish_iff (p := (nMinusOne sm9Init).val)
    (by have := two_pow_le_nMinusOne; omega) hn hlog
  rw [unturned_iff_of_three two_pow_le_three_mul_nMinusOne] at hiff
  rw [hval] at hmod
  rw [← hmod, nMinusOne_val] at hiff
  rw [← hiff, hashDigests, hload]
  simp only [bind_eq_bind, bind_some]
  cases ht : big16wmod8w stray fuel ret (nMinusOne sm9Init) with
  | none => simp
  | some t =>
    have hlt := t.val_lt
    simp only [bind_some, hashIncrement_eq, map_some, Option.some.injEq]
    split
    · rename_i hmax
      simp only [reduceCtorEq, false_and, exists_false, false_iff, not_and]
      intro hne heq
      exact hne (heq ▸ hmax)
    · rename_i hmax
      have hv : (Big8w.ofNat (t.val + 1)).val = t.val + 1 := Big8w.val_ofNat (by omega)
      simp only [Option.some.injEq, exists_eq_left', hv]
      constructor
      · intro h
        have heq : t.val = hashNum ha ha2 % (sm9Init.N.val - 1) := by omega
        exact ⟨heq ▸ hmax, heq⟩
      · rintro ⟨-, heq⟩
        rw [heq]

/-- `H` on any two digests, with enough passes of its loops: the residue of `Ha` plus one is
returned unless the residue ends in a word of all ones, where the increment loops forever, or is
zero with a cofactor other than one modulo four. -/
theorem hashDigests_iff (stray : Nat → UInt32) (ha ha2 : Digest) :
    (∃ fuel₀, ∀ fuel ≥ fuel₀, ∃ ret, hashDigests stray fuel sm9Init ha ha2 = some ret ∧
      ret.val = hashNum ha ha2 % (sm9Init.N.val - 1) + 1 ∧
      1 ≤ ret.val ∧ ret.val ≤ sm9Init.N.val - 1) ↔
    hashNum ha ha2 % (sm9Init.N.val - 1) % 2 ^ 32 ≠ 2 ^ 32 - 1 ∧
      (hashNum ha ha2 % (sm9Init.N.val - 1) ≠ 0 ∨
        hashNum ha ha2 / (sm9Init.N.val - 1) % 4 = 1) := by
  by_cases hn : hashNum ha ha2 = 0
  · simp only [hn, zero_mod, Nat.zero_div, ne_eq, not_true_eq_false, false_or, zero_ne_one,
      and_false, iff_false, not_exists]
    intro fuel₀ h
    obtain ⟨ret, hret, -⟩ := h fuel₀ le_rfl
    rw [hashDigests, hashLoad_eq_none hn] at hret
    cases hret
  · have hpos := two_pow_le_nMinusOne
    rw [nMinusOne_val] at hpos
    have hlt : hashNum ha ha2 % (sm9Init.N.val - 1) < sm9Init.N.val - 1 := mod_lt _ (by omega)
    constructor
    · rintro ⟨fuel₀, h⟩
      obtain ⟨ret, hret, hval, -⟩ := h (fuel₀ + (hashNum ha ha2).log2 + 2) (by omega)
      exact (hashDigests_result_iff stray (by omega) (by omega) hn).mp ⟨ret, hret, hval⟩
    · intro h
      refine ⟨(hashNum ha ha2).log2 + 2, fun fuel hf => ?_⟩
      have h2 : 2 ≤ fuel := by omega
      obtain ⟨ret, hret, hval⟩ := (hashDigests_result_iff stray h2 (by omega) hn).mpr h
      exact ⟨ret, hret, hval, by omega, by omega⟩

theorem hashDigests_loops :
    ¬ ∃ fuel₀, ∀ fuel ≥ fuel₀, ∃ ret, hashDigests (fun _ => 0) fuel sm9Init (.replicate 32 0)
        ⟨#[0, 0, 0, 0, 255, 255, 255, 255] ++ Array.replicate 24 0, rfl⟩ = some ret ∧
      ret.val = hashNum (.replicate 32 0)
        ⟨#[0, 0, 0, 0, 255, 255, 255, 255] ++ Array.replicate 24 0, rfl⟩ %
          (sm9Init.N.val - 1) + 1 ∧ 1 ≤ ret.val ∧ ret.val ≤ sm9Init.N.val - 1 := by
  rintro ⟨fuel₀, h⟩
  obtain ⟨ret, hret, hval, -⟩ := h (fuel₀ + 32) (by omega)
  have hlog : (hashNum (.replicate 32 0)
      ⟨#[0, 0, 0, 0, 255, 255, 255, 255] ++ Array.replicate 24 0, rfl⟩).log2 < 32 := by
    decide +kernel
  have hcond := (hashDigests_result_iff _ (by omega) (hlog.trans_le (by omega))
    (by decide +kernel)).mp
    ⟨ret, hret, hval⟩
  exact absurd hcond (by decide +kernel)

end Xiuos.Sm9
