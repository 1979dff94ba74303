import Mathlib

/-! Bilinear maps from two additive groups to a multiplicative one. -/

namespace Xiuos.Lib
variable {G1 G2 GT : Type} [AddCommGroup G1] [AddCommGroup G2] [CommGroup GT]

structure Bilinear (e : G1 → G2 → GT) : Prop where
  add_left : ∀ P P' Q, e (P + P') Q = e P Q * e P' Q
  add_right : ∀ P Q Q', e P (Q + Q') = e P Q * e P Q'

namespace Bilinear
variable {e : G1 → G2 → GT} (he : Bilinear e)
include he

lemma zero_left (Q : G2) : e 0 Q = 1 := by
  have h := he.add_left 0 0 Q
  rw [add_zero] at h
  exact left_eq_mul.mp h

lemma zero_right (P : G1) : e P 0 = 1 := by
  have h := he.add_right P 0 0
  rw [add_zero] at h
  exact left_eq_mul.mp h

lemma nsmul_left (n : Nat) (P : G1) (Q : G2) : e (n • P) Q = e P Q ^ n := by
  induction n with
  | zero => rw [zero_nsmul, he.zero_left, pow_zero]
  | succ n ih => rw [succ_nsmul, he.add_left, ih, pow_succ]

lemma nsmul_right (n : Nat) (P : G1) (Q : G2) : e P (n • Q) = e P Q ^ n := by
  induction n with
  | zero => rw [zero_nsmul, he.zero_right, pow_zero]
  | succ n ih => rw [succ_nsmul, he.add_right, ih, pow_succ]

lemma pow_eq_one {N : Nat} {P : G1} (hP : N • P = 0) (Q : G2) : e P Q ^ N = 1 := by
  rw [← he.nsmul_left, hP, he.zero_left]

lemma pow_congr {N a b : Nat} {P : G1} (hP : N • P = 0) (Q : G2) (h : a ≡ b [MOD N]) :
    e P Q ^ a = e P Q ^ b := by
  have hN := he.pow_eq_one hP Q
  rw [← Nat.mod_add_div a N, ← Nat.mod_add_div b N, pow_add, pow_add, pow_mul, pow_mul, hN,
    one_pow, one_pow, mul_one, mul_one, h]

end Bilinear
end Xiuos.Lib
