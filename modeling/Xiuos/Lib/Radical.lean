import Mathlib.RingTheory.AdjoinRoot

/-! A commutative ring with an `n`-th root of one of its elements. -/

namespace Xiuos.Lib
open Polynomial

/-- `R[x] / (x ^ n - c)` -/
abbrev Radical {R : Type} [CommRing R] (n : ℕ) (c : R) : Type := AdjoinRoot (X ^ n - C c)

namespace Radical
variable {R : Type} [CommRing R] {n : ℕ} {c : R}

noncomputable def of : R →+* Radical n c := AdjoinRoot.of _

noncomputable def root : Radical n c := AdjoinRoot.root _

lemma root_pow : (root : Radical n c) ^ n = of c := by
  have h := AdjoinRoot.eval₂_root (X ^ n - C c)
  simp only [eval₂_sub, eval₂_X_pow, eval₂_C] at h
  exact sub_eq_zero.mp h

section
variable (φ : R →+* R) (a : R) (h : a ^ n * c = φ c)

/-- A map of the ring goes on to its extension, where it takes the root to a multiple. -/
noncomputable def twist : Radical n c →+* Radical n c :=
  AdjoinRoot.lift (of.comp φ) (of a * root) (by
    simp [eval₂_sub, mul_pow, root_pow, ← h])

@[simp] lemma twist_of (x : R) : twist φ a h (of x) = of (φ x) := AdjoinRoot.lift_of _

@[simp] lemma twist_root : twist φ a h root = of a * root := AdjoinRoot.lift_root _

end

lemma mk_injective (hn : n ≠ 0) {f g : R[X]} (hf : f.degree < n) (hg : g.degree < n)
    (h : AdjoinRoot.mk (X ^ n - C c) f = AdjoinRoot.mk (X ^ n - C c) g) : f = g := by
  nontriviality R
  by_contra hne
  refine AdjoinRoot.mk_ne_zero_of_degree_lt (monic_X_pow_sub_C c hn) (sub_ne_zero.mpr hne) ?_ ?_
  · rw [degree_X_pow_sub_C (Nat.pos_of_ne_zero hn)]
    exact (degree_sub_le f g).trans_lt (max_lt hf hg)
  · rw [map_sub, h, sub_self]

lemma linear_injective {c a b a' b' : R}
    (h : of a * root + of b = (of a' * root + of b' : Radical 2 c)) : a = a' ∧ b = b' := by
  have hpoly := mk_injective (c := c) two_ne_zero (degree_linear_lt (a := a) (b := b))
    (degree_linear_lt (a := a') (b := b')) (by simpa [of, root] using h)
  have hone := congrArg (coeff · 1) hpoly
  have hzero := congrArg (coeff · 0) hpoly
  simp at hone hzero
  exact ⟨hone, hzero⟩

lemma quadratic_injective {c x y z x' y' z' : R}
    (h : of x * root ^ 2 + of y * root + of z =
      (of x' * root ^ 2 + of y' * root + of z' : Radical 3 c)) : x = x' ∧ y = y' ∧ z = z' := by
  have hpoly := mk_injective (c := c) three_ne_zero (degree_quadratic_lt (a := x) (b := y) (c := z))
    (degree_quadratic_lt (a := x') (b := y') (c := z')) (by simpa [of, root] using h)
  have htwo := congrArg (coeff · 2) hpoly
  have hone := congrArg (coeff · 1) hpoly
  have hzero := congrArg (coeff · 0) hpoly
  simp [coeff_X, coeff_C] at htwo hone hzero
  exact ⟨htwo, hone, hzero⟩

end Radical
end Xiuos.Lib
