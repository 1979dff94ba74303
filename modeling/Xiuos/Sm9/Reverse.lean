import Xiuos.Lib.BinaryInverse
import Xiuos.Sm9.BignumLaws

namespace Xiuos.Sm9
open Lib Bool List Nat Option Limbs BinaryInverse

lemma shiftRightWords_val {rest : UInt32} (hpos : 0 < rest.toNat) (hlt : rest.toNat < 32)
    (ws : List UInt32) : Limbs.val (shiftRightWords rest ws) = Limbs.val ws / 2 ^ rest.toNat := by
  induction ws with
  | nil => simp [shiftRightWords]
  | cons w ws ih =>
    cases ws with
    | nil =>
      simp [shiftRightWords, UInt32.toNat_shiftRight, shiftRight_eq_div_pow, mod_eq_of_lt hlt]
    | cons v ws =>
      have hpow : 2 ^ 32 = 2 ^ rest.toNat * 2 ^ (32 - rest.toNat) := by
        rw [← pow_add]
        congr 1
        omega
      have hv : v.toNat % 2 ^ rest.toNat = Limbs.val (v :: ws) % 2 ^ rest.toNat := by
        rw [val_cons, hpow, mul_assoc, add_mul_mod_self_left]
      rw [shiftRightWords, val_cons, ih, toNat_shift_or hpos hlt, hv, val_cons w]
      generalize Limbs.val (v :: ws) = X
      calc w.toNat / 2 ^ rest.toNat + 2 ^ (32 - rest.toNat) * (X % 2 ^ rest.toNat) +
            2 ^ 32 * (X / 2 ^ rest.toNat)
          = w.toNat / 2 ^ rest.toNat + 2 ^ (32 - rest.toNat) *
            (X % 2 ^ rest.toNat + 2 ^ rest.toNat * (X / 2 ^ rest.toNat)) := by
            rw [hpow]
            ring
        _ = w.toNat / 2 ^ rest.toNat + 2 ^ (32 - rest.toNat) * X := by rw [mod_add_div]
        _ = (w.toNat + 2 ^ 32 * X) / 2 ^ rest.toNat := by
            rw [hpow, mul_assoc, add_mul_div_left _ _ (by positivity)]

lemma drop_val (ws : List UInt32) (k : Nat) (hk : k ≤ ws.length) :
    Limbs.val (ws.drop k) = Limbs.val ws / 2 ^ (32 * k) := by
  have h := val_append (ws.take k) (ws.drop k)
  have hlt := val_lt (ws.take k)
  rw [length_take, Nat.min_eq_left hk] at h hlt
  rw [take_append_drop] at h
  rw [h, add_mul_div_left _ _ (by positivity), div_eq_of_lt hlt, Nat.zero_add]

lemma big8wRightShift_val (bn : Big8w) (round : UInt8) :
    (big8wRightShift bn round).val = bn.val / 2 ^ round.toNat := by
  have hr := round.toNat_lt
  have hk : (round >>> 5).toNat = round.toNat / 2 ^ 5 := by
    rw [UInt8.toNat_shiftRight]
    simp [shiftRight_eq_div_pow]
  have hrest : (round &&& 0x1f).toUInt32.toNat = round.toNat % 2 ^ 5 := by
    rw [UInt8.toNat_toUInt32, UInt8.toNat_and]
    exact and_two_pow_sub_one_eq_mod _ 5
  have hv : Limbs.val ((bn.word ++ replicate (round >>> 5).toNat 0).drop (round >>> 5).toNat) =
      bn.val / 2 ^ (32 * (round.toNat / 2 ^ 5)) := by
    rw [drop_append_of_le_length (by rw [bn.size, hk]; omega), val_append,
      val_replicate_zero, Nat.mul_zero, Nat.add_zero,
      drop_val _ _ (by rw [bn.size, hk]; omega), hk, Big8w.val]
  have hsplit : 32 * (round.toNat / 2 ^ 5) + round.toNat % 2 ^ 5 = round.toNat := by omega
  rw [big8wRightShift]
  split
  · rename_i h
    rw [← UInt32.toNat_inj, hrest, UInt32.toNat_zero] at h
    rw [Big8w.val, hv]
    congr 2
    omega
  · rename_i h
    rw [← UInt32.toNat_inj, hrest, UInt32.toNat_zero] at h
    rw [Big8w.val, shiftRightWords_val (by omega) (by omega), hv, hrest, Nat.div_div_eq_div_mul,
      ← pow_add, hsplit]

lemma setTopBit_val {bn : Big8w} (h : bn.val < 2 ^ 255) :
    (setTopBit bn).val = bn.val + 2 ^ 255 := by
  obtain ⟨ws, hs⟩ := bn
  obtain ⟨lo, w, rfl⟩ := eq_nil_or_concat ws |>.resolve_left (by rintro rfl; simp at hs)
  have hlo : lo.length = 7 := by simpa using hs
  have hmod : (lo ++ [w]).modify 7 (· ||| 0x80000000) = lo ++ [w ||| 0x80000000] := by
    rw [← hlo]
    simp [modify_eq_take_cons_drop]
  simp only [Big8w.val, setTopBit, concat_eq_append, hmod, val_append, val_cons,
    val_nil, hlo] at h ⊢
  have hw : w.toNat < 2 ^ 31 := by omega
  have hor : (w ||| 0x80000000).toNat = 2 ^ 31 + w.toNat := by
    rw [UInt32.toNat_or, lor_comm]
    exact (shiftLeft_add_eq_or_of_lt hw 1).symm
  rw [hor]
  omega

lemma plusAndRightShiftOne_val (bn N : Big8w) :
    (plusAndRightShiftOne bn N).val = (bn.val + N.val) / 2 := by
  have hv := addWords_val bn N
  have hs := big8wRightShift_val (addWords bn N).1 1
  have hlt := (addWords bn N).1.val_lt
  have hlt1 := bn.val_lt
  have hlt2 := N.val_lt
  rw [show (1 : UInt8).toNat = 1 from rfl, pow_one] at hs
  cases hc : (addWords bn N).2
  · rw [hc, toNat_false] at hv
    simp only [plusAndRightShiftOne, hc, false_eq_true, if_false, hs]
    omega
  · rw [hc, toNat_true] at hv
    simp only [plusAndRightShiftOne, hc, if_true]
    rw [setTopBit_val (by omega), hs]
    omega

lemma isEven_eq (bn : Big8w) : isEven bn = decide (bn.val % 2 = 0) := by
  obtain ⟨ws, hs⟩ := bn
  obtain ⟨w, vs, rfl⟩ := exists_cons_of_length_eq_add_one hs
  have hand : (w &&& 1).toNat = w.toNat % 2 := by
    rw [UInt32.toNat_and]
    exact and_two_pow_sub_one_eq_mod _ 1
  rw [isEven, Big8w.val, val_cons, headD_cons, Bool.eq_iff_iff, beq_iff_eq,
    decide_eq_true_eq, ← UInt32.toNat_inj, hand, UInt32.toNat_zero]
  omega

lemma halve_val (N x y : Big8w) :
    ((halve N x y).1.val, (halve N x y).2.val) = BinaryInverse.halve N.val x.val y.val := by
  have hx := big8wRightShift_val x 1
  have hy := big8wRightShift_val y 1
  have hyN := plusAndRightShiftOne_val y N
  rw [show (1 : UInt8).toNat = 1 from rfl, pow_one] at hx hy
  rw [halve, BinaryInverse.halve, isEven_eq, isEven_eq]
  by_cases hex : x.val % 2 = 0 <;> by_cases hey : y.val % 2 = 0 <;> simp [hex, hey, hx, hy, hyN]

def ReverseState.toNat (s : ReverseState) : State :=
  ⟨s.x1.val, s.y1.val, s.x2.val, s.y2.val⟩

lemma halve_snd_lt {N x y : Big8w} (h : y.val < N.val) : (halve N x y).2.val < N.val := by
  have e := congrArg Prod.snd (halve_val N x y)
  simp only at e
  rw [e]
  exact BinaryInverse.halve_snd_lt h

lemma big8wMinusMod_pair {x1 y1 x2 y2 N : Big8w} (hle : x2.val ≤ x1.val) (h1 : y1.val < N.val)
    (h2 : y2.val < N.val) :
    ∃ x y, big8wMinusMod x1 x2 N = some x ∧ big8wMinusMod y1 y2 N = some y ∧
      x.val = x1.val - x2.val ∧ y.val = subMod N.val y1.val y2.val := by
  have hx := Big8w.val_ofNat ((sub_le _ x2.val).trans_lt x1.val_lt)
  have hy := Big8w.val_ofNat ((subMod_lt h1 y2.val).trans N.val_lt)
  refine ⟨_, _, big8wMinusMod_of_le N hle, ?_, hx, hy⟩
  rw [subMod]
  split
  · rename_i hle
    exact big8wMinusMod_of_le N hle
  · exact big8wMinusMod_of_lt (by omega) (by omega)

lemma big8wEqual_one (x : Big8w) : big8wEqual x .one = decide (x.val = 1) := by
  rw [big8wEqual_eq, ← Big8w.val_one]
  simp only [Big8w.val_inj]

variable {s : ReverseState} {N : Big8w}

lemma reverseStep_refines (h1 : s.y1.val < N.val) (h2 : s.y2.val < N.val) :
    ∃ r, reverseStep N s = some r ∧
      r.map Big8w.val ReverseState.toNat = step N.val s.toNat := by
  have e1 := halve_val N s.x1 s.y1
  have e2 := halve_val N s.x2 s.y2
  have hy1 := halve_snd_lt (x := s.x1) h1
  have hy2 := halve_snd_lt (x := s.x2) h2
  rw [reverseStep, step]
  simp only [ReverseState.toNat, ← e1, ← e2, big8wEqual_one, big8wBigThan_eq, decide_eq_true_eq]
  generalize (halve N s.x1 s.y1).1 = x1, (halve N s.x1 s.y1).2 = y1 at *
  generalize (halve N s.x2 s.y2).1 = x2, (halve N s.x2 s.y2).2 = y2 at *
  by_cases hone1 : x1.val = 1
  · exact ⟨.inl y1, by simp [hone1], by simp [hone1]⟩
  by_cases hone2 : x2.val = 1
  · exact ⟨.inl y2, by simp [hone1, hone2], by simp [hone1, hone2]⟩
  simp only [hone1, hone2, if_false]
  by_cases hge : x2.val ≤ x1.val
  · obtain ⟨x, y, hx, hy, hxv, hyv⟩ := big8wMinusMod_pair hge hy1 hy2
    simp only [hge, if_true, hx, hy, ← hxv, ← hyv, bind_eq_bind, bind_some]
    split <;> exact ⟨_, rfl, rfl⟩
  · obtain ⟨x, y, hx, hy, hxv, hyv⟩ := big8wMinusMod_pair (Nat.le_of_not_le hge) hy2 hy1
    simp only [hge, if_false, hx, hy, ← hxv, ← hyv, bind_eq_bind, bind_some]
    split <;> exact ⟨_, rfl, rfl⟩

lemma reverseLoop_refines {a fuel : Nat} (hodd : N.val % 2 = 1) (hN : 1 < N.val)
    (h : Inv N.val a s.toNat) :
    (reverseLoop N fuel s).map Big8w.val = loop N.val fuel s.toNat := by
  induction fuel generalizing s with
  | zero => rfl
  | succ fuel ih =>
    obtain ⟨r, hr, hstep⟩ := reverseStep_refines h.cofactor1.lt h.cofactor2.lt
    rw [reverseLoop, loop, hr, ← hstep]
    cases r with
    | inl ret => rfl
    | inr s' =>
      rcases step_spec hodd hN h with ⟨r, hs, -⟩ | ⟨t, hs, hinv, -⟩
      · rw [← hstep] at hs
        cases hs
      · rw [← hstep] at hs
        cases hs
        exact ih hinv

/-- `Big8wReverse` returns, with some number of passes through its loop and with any larger
one, and what it returns is the reduced inverse. -/
theorem big8wReverse_inverse (bn N : Big8w) (hodd : N.val % 2 = 1) (hN : 1 < N.val)
    (hpos : 0 < bn.val) (hcop : bn.val.gcd N.val = 1) :
    ∃ r : Big8w, (∃ fuel₀, ∀ fuel ≥ fuel₀, big8wReverse fuel bn N = some r) ∧
      r.val < N.val ∧ bn.val * r.val % N.val = 1 := by
  have hinv : Inv N.val bn.val ⟨bn.val, 1, N.val, 0⟩ := .init hN hpos hcop
  have hrun : ∀ fuel, (big8wReverse fuel bn N).map Big8w.val =
      loop N.val fuel ⟨bn.val, 1, N.val, 0⟩ := fun fuel =>
    reverseLoop_refines (s := ⟨bn, .one, N, .zero⟩) hodd hN hinv
  obtain ⟨r, hr, hlt, hmul⟩ := loop_spec hodd hN hinv (lt_succ_self (bn.val + N.val))
  refine ⟨.ofNat r, ⟨bn.val + N.val + 1, fun fuel hf => ?_⟩, ?_⟩
  · have hr' := loop_mono hf hr
    rw [← hrun, map_eq_some_iff] at hr'
    obtain ⟨r', hret, hval⟩ := hr'
    rw [hret, Big8w.eq_ofNat hval]
  · rw [Big8w.val_ofNat (hlt.trans N.val_lt)]
    exact ⟨hlt, hmul⟩

theorem big8wReverse_inverse_five :
    ∃ r : Big8w, (∃ fuel₀, ∀ fuel ≥ fuel₀,
      big8wReverse fuel (.ofNat 5) (.ofNat (2 ^ 255 + 1)) = some r) ∧
      r.val < (Big8w.ofNat (2 ^ 255 + 1)).val ∧
      (Big8w.ofNat 5).val * r.val % (Big8w.ofNat (2 ^ 255 + 1)).val = 1 :=
  big8wReverse_inverse (.ofNat 5) (.ofNat (2 ^ 255 + 1)) (by decide +kernel) (by decide +kernel)
    (by decide +kernel) (by decide +kernel)

end Xiuos.Sm9
