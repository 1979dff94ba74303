import Xiuos.Sm9.BignumLaws

/-! Multiples of points and powers, over the operation they are built on: `G1pointMult` of
`ecc.c`, `G2PointMult` and `Q12PowerMod` of `qn.c`. -/

namespace Xiuos.Sm9
open Lib List Nat Option Limbs

section
variable {G GT : Type}

def powerBits [Mul GT] (g : GT) (elem : UInt32) : Nat → GT → GT
  | 0, temp => temp
  | bitindex + 1, temp =>
    let ret := temp * temp
    powerBits g elem bitindex
      (if (elem >>> bitindex.toUInt32) &&& 1 = 1 then ret * g else ret)

/-- `Q12PowerMod`: the loop over the words stops at `word[0]`, so that a zero exponent is
treated as one whose leading bit is where `Big8wHighestbit` found one. -/
def q12PowerMod [Mul GT] (stray : Nat → UInt32) (g : GT) (r : Big8w) : Option GT := do
  let bitindex ← big8wHighestbit stray r
  let i := (topIndex r.word).getD 0
  let ret := powerBits g (r.word.getD i 0) bitindex g
  some ((r.word.take i).reverse.foldl (fun temp elem => powerBits g elem 32 temp) ret)

def pointBits (add : G → G → G) (point : G) (elem : UInt32) : Nat → G → G
  | 0, temp => temp
  | index + 1, temp =>
    let ret := add temp temp
    pointBits add point elem index
      (if (elem >>> index.toUInt32) &&& 1 = 1 then add ret point else ret)

/-- `while (word[i] == 0) i--` leaves the array when the number is zero. -/
def pointMult (add : G → G → G) (stray : Nat → UInt32) (bignum : Big8w) (point : G) : Option G := do
  let index ← big8wHighestbit stray bignum
  let i ← topIndex bignum.word
  let ret := pointBits add point (bignum.word.getD i 0) index point
  some ((bignum.word.take i).reverse.foldl (fun temp elem => pointBits add point elem 32 temp) ret)

def g1pointMult (g1pointAdd : G → G → G) (stray : Nat → UInt32) (bignum : Big8w) (point : G) :
    Option G :=
  pointMult g1pointAdd stray bignum point

def g2PointMult (g2PointAdd : G → G → G) (stray : Nat → UInt32) (num : Big8w) (point : G) :
    Option G :=
  pointMult g2PointAdd stray num point

end

lemma shiftRight_and_one_iff (elem : UInt32) {i : Nat} (hi : i < 32) :
    (elem >>> i.toUInt32) &&& 1 = 1 ↔ elem.toNat / 2 ^ i % 2 = 1 := by
  have hs : i.toUInt32.toNat % 32 = i := by
    rw [UInt32.toNat_ofNat']
    omega
  rw [← UInt32.toNat_inj, UInt32.toNat_and, UInt32.toNat_shiftRight, hs,
    shiftRight_eq_div_pow, UInt32.toNat_one, and_one_is_mod]

section

variable {G : Type} {add : G → G → G} {point : G} {f : Nat → G}
  (hdouble : ∀ m, add (f m) (f m) = f (2 * m)) (hadd : ∀ m, add (f m) point = f (m + 1))

include hdouble hadd

lemma pointBits_eq (elem : UInt32) {k : Nat} (hk : k ≤ 32) (m : Nat) :
    pointBits add point elem k (f m) = f (2 ^ k * m + elem.toNat % 2 ^ k) := by
  induction k generalizing m with
  | zero => simp [pointBits, mod_one]
  | succ k ih =>
    have hmod : elem.toNat % 2 ^ (k + 1) =
        2 ^ k * (elem.toNat / 2 ^ k % 2) + elem.toNat % 2 ^ k := by
      rw [pow_succ, mod_mul, Nat.add_comm]
    rw [pointBits]
    simp only [shiftRight_and_one_iff elem (by omega : k < 32), hdouble, hadd]
    by_cases hbit : elem.toNat / 2 ^ k % 2 = 1
    · rw [if_pos hbit, ih (by omega), hmod, hbit]
      congr 1
      ring
    · have h0 : elem.toNat / 2 ^ k % 2 = 0 := by omega
      rw [if_neg hbit, ih (by omega), hmod, h0]
      congr 1
      ring

lemma foldl_pointBits (ws : List UInt32) (m : Nat) :
    ws.reverse.foldl (fun temp elem => pointBits add point elem 32 temp) (f m) =
      f (2 ^ (32 * ws.length) * m + Limbs.val ws) := by
  induction ws using reverseRecOn generalizing m with
  | nil => simp
  | append_singleton ws w ih =>
    have hexp : 2 ^ (32 * ws.length) * (2 ^ 32 * m + w.toNat) + Limbs.val ws =
        2 ^ (32 * (ws ++ [w]).length) * m + Limbs.val (ws ++ [w]) := by
      rw [length_append, length_singleton, mul_succ, pow_add, val_append, val_cons, val_nil]
      ring
    rw [reverse_append, reverse_singleton, singleton_append, foldl_cons,
      pointBits_eq hdouble hadd w le_rfl, ih, mod_eq_of_lt w.toNat_lt, hexp]

lemma pointMult_eq (hone : f 1 = point) (stray : Nat → UInt32) {r : Big8w} (hr : r.val ≠ 0) :
    pointMult add stray r point = some (f r.val) := by
  have ht := topIndex_of_ne_zero hr
  rw [← Big8w.val] at ht
  obtain ⟨w, hw, hne, hlog⟩ := topIndex_log2 ht
  rw [← Big8w.val] at hlog
  have hlt := (log2_lt (toNat_ne_zero hne)).mpr w.toNat_lt
  have hbit : r.val.log2 % 32 = w.toNat.log2 := by omega
  have htop : 2 ^ w.toNat.log2 * 1 + w.toNat % 2 ^ w.toNat.log2 = w.toNat := by
    have h1 := log2_self_le (toNat_ne_zero hne)
    have h2 := @Nat.lt_log2_self w.toNat
    rw [pow_succ'] at h2
    rw [mod_eq_sub_mod h1, mod_eq_of_lt (by omega)]
    omega
  have hval : 2 ^ (32 * (r.word.take (r.val.log2 / 32)).length) * w.toNat +
      Limbs.val (r.word.take (r.val.log2 / 32)) = r.val := by
    have htake : r.word.take (r.val.log2 / 32 + 1) = r.word.take (r.val.log2 / 32) ++ [w] := by
      rw [take_add_one, hw]
      rfl
    have hfit : r.val < 2 ^ (32 * (r.val.log2 / 32 + 1)) := (log2_lt hr).mp (by omega)
    have h := val_take_of_lt hfit
    rw [htake, val_append, val_cons, val_nil, Nat.mul_zero, Nat.add_zero] at h
    rw [Nat.add_comm]
    exact h
  have hstart := pointBits_eq hdouble hadd w hlt.le 1
  rw [hone, htop] at hstart
  rw [pointMult, big8wHighestbit_of_ne_zero stray hr, hbit, ht]
  simp only [bind_eq_bind, bind_some, getD_eq_getElem?_getD, hw, getD_some, hstart]
  rw [foldl_pointBits hdouble hadd, hval]

end

lemma pointMult_nsmul {G : Type} [AddMonoid G] {add : G → G → G}
    (h : ∀ P Q, P = 0 ∨ Q ≠ 0 → add P Q = P + Q) (stray : Nat → UInt32) {n : Big8w}
    (hn : n.val ≠ 0) (P : G) : pointMult add stray n P = some (n.val • P) := by
  refine pointMult_eq (f := (· • P)) (fun m => ?_) (fun m => ?_) (one_nsmul P) stray hn
  · rw [h _ _ (Classical.em _), two_mul, add_nsmul]
  · refine (h _ _ ?_).trans (succ_nsmul P m).symm
    by_cases hP : P = 0
    · exact .inl (by rw [hP, nsmul_zero])
    · exact .inr hP

section
variable {GT : Type} [Monoid GT] (g : GT) (elem : UInt32)

lemma powerBits_eq (k : Nat) (temp : GT) :
    powerBits g elem k temp = pointBits (· * ·) g elem k temp := by
  induction k generalizing temp with
  | zero => rfl
  | succ k ih => exact ih _

lemma powerBits_pow {k : Nat} (hk : k ≤ 32) (m : Nat) :
    powerBits g elem k (g ^ m) = g ^ (2 ^ k * m + elem.toNat % 2 ^ k) := by
  rw [powerBits_eq]
  exact pointBits_eq (f := (g ^ ·)) (fun m => by rw [← pow_add, two_mul])
    (fun m => (pow_succ g m).symm) elem hk m

variable (stray : Nat → UInt32)

lemma q12PowerMod_of_ne_zero {r : Big8w} (hr : r.val ≠ 0) :
    q12PowerMod stray g r = some (g ^ r.val) := by
  have h := pointMult_eq (f := (g ^ ·)) (fun m => by rw [← pow_add, two_mul])
    (fun m => (pow_succ g m).symm) (pow_one g) stray hr
  rw [← h, q12PowerMod, pointMult, topIndex_of_ne_zero hr]
  simp only [getD_some, bind_eq_bind, bind_some, powerBits_eq]

lemma q12PowerMod_zero :
    q12PowerMod stray g .zero = (big8wHighestbit stray .zero).map fun b => g ^ 2 ^ b := by
  rw [q12PowerMod]
  cases hb : big8wHighestbit stray .zero with
  | none => rfl
  | some b =>
    have hle : b ≤ 32 := by
      obtain ⟨elem, -, rfl⟩ := map_eq_some_iff.mp hb
      exact (bitFrom_le elem 31).trans (by decide)
    have h := powerBits_pow g 0 hle 1
    rw [pow_one, UInt32.toNat_zero, zero_mod, Nat.add_zero, Nat.mul_one] at h
    exact congrArg some h

end

/-- Multiples and powers by any number from one on, where an addition has to be right only as
long as zero is not its second operand alone. -/
theorem multiples_exact {G1 G2 GT : Type} [AddMonoid G1] [AddMonoid G2] [Monoid GT]
    {g1pointAdd : G1 → G1 → G1} {g2PointAdd : G2 → G2 → G2}
    (h1 : ∀ P Q, P = 0 ∨ Q ≠ 0 → g1pointAdd P Q = P + Q)
    (h2 : ∀ P Q, P = 0 ∨ Q ≠ 0 → g2PointAdd P Q = P + Q) (stray : Nat → UInt32) {n : Big8w}
    (hn : 1 ≤ n.val) :
    (∀ P, g1pointMult g1pointAdd stray n P = some (n.val • P)) ∧
    (∀ P, g2PointMult g2PointAdd stray n P = some (n.val • P)) ∧
    ∀ g : GT, q12PowerMod stray g n = some (g ^ n.val) := by
  have hne : n.val ≠ 0 := by omega
  exact ⟨pointMult_nsmul h1 stray hne, pointMult_nsmul h2 stray hne,
    fun g => q12PowerMod_of_ne_zero g stray hne⟩

theorem multiples_exact_two_words :
    let n : Big8w := ⟨[5, 2, 0, 0, 0, 0, 0, 0], rfl⟩
    n.val = 2 ^ 33 + 5 ∧
    g1pointMult (· + ·) (fun _ => 0) n (3 : ℤ) = some (n.val • 3) ∧
    g2PointMult (· + ·) (fun _ => 0) n (3 : ZMod 5) = some (n.val • 3) ∧
    q12PowerMod (fun _ => 0) (3 : ZMod 7) n = some (3 ^ n.val) := by
  intro n
  have hn : n.val = 2 ^ 33 + 5 := by decide +kernel
  have h := @multiples_exact ℤ (ZMod 5) (ZMod 7) _ _ _ (· + ·) (· + ·) (fun _ _ _ => rfl)
    (fun _ _ _ => rfl) (fun _ => 0) n (by omega)
  exact ⟨hn, h.1 3, h.2.1 3, h.2.2 3⟩

end Xiuos.Sm9
