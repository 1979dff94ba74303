import Mathlib.AlgebraicGeometry.EllipticCurve.Affine.Point

/-! Points of a curve `y ^ 2 = x ^ 3 + b` as pairs of coordinates, where a pair of zeros is the
point at infinity. -/

namespace Xiuos.Lib
open WeierstrassCurve Affine

structure Coords (E : Type) where
  x : E
  y : E
  deriving DecidableEq

variable {E F : Type} [Field F]

def shortCurve (b : F) : Affine F := ⟨0, 0, 0, 0, b⟩

/-- `val` is the element of the field that a coordinate stands for. -/
inductive Coords.Encodes (val : E → F) (zero : E) (b : F) :
    Coords E → (shortCurve b).Point → Prop
  | zero : Encodes val zero b ⟨zero, zero⟩ 0
  | some (x y : E) (h : (shortCurve b).Nonsingular (val x) (val y)) :
    Encodes val zero b ⟨x, y⟩ (.some _ _ h)

lemma Coords.Encodes.val_eq {b x y : F} {val : E → F} {zero : E} {P : Coords E}
    {h : (shortCurve b).Nonsingular x y} (hP : P.Encodes val zero b (.some _ _ h)) :
    val P.x = x ∧ val P.y = y := by
  cases hP
  exact ⟨rfl, rfl⟩

namespace ShortCurve

variable {b x₁ x₂ y₁ y₂ : F} {val : E → F} {zero : E} {P : Coords E}
  {A B : (shortCurve b).Point} (x y : F)

lemma negY_eq : (shortCurve b).negY x y = -y := by simp [negY, shortCurve]

lemma equation_iff' : (shortCurve b).Equation x y ↔ y ^ 2 = x ^ 3 + b := by
  simp [equation_iff, shortCurve]

lemma nonsingular_of_ne {x y : F} (h : y ^ 2 = x ^ 3 + b) (hy : y ≠ -y) :
    (shortCurve b).Nonsingular x y :=
  (nonsingular_iff ..).mpr ⟨(equation_iff' x y).mpr h, .inr (by simpa [shortCurve] using hy)⟩

lemma not_nonsingular_zero : ¬ (shortCurve b).Nonsingular 0 0 := by
  simp [nonsingular_iff, shortCurve]

lemma encodes_unique (hzero : val zero = 0) (hA : P.Encodes val zero b A)
    (hB : P.Encodes val zero b B) : A = B := by
  cases hA with
  | zero =>
    cases hB with
    | zero => rfl
    | some _ _ h => exact absurd (hzero ▸ h) not_nonsingular_zero
  | some _ _ h =>
    cases hB with
    | zero => exact absurd (hzero ▸ h) not_nonsingular_zero
    | some => rfl

variable [DecidableEq F] {h₁ : (shortCurve b).Nonsingular x₁ y₁}
  {h₂ : (shortCurve b).Nonsingular x₂ y₂}

lemma add_eq_zero_of_ne (hx : x₁ = x₂) (hy : y₁ ≠ y₂) :
    Point.some _ _ h₁ + Point.some _ _ h₂ = 0 :=
  Point.add_of_Y_eq hx ((Y_eq_of_X_eq h₁.1 h₂.1 hx).resolve_left hy)

lemma encodes_add {x y : E} {l : F} (hxy : ¬ (x₁ = x₂ ∧ y₁ = -y₂))
    (hl : l = (shortCurve b).slope x₁ x₂ y₁ y₂) (hx : val x = l ^ 2 - x₁ - x₂)
    (hy : val y = l * (x₁ - val x) - y₁) :
    Coords.Encodes val zero b ⟨x, y⟩ (Point.some _ _ h₁ + Point.some _ _ h₂) := by
  have hX : val x = (shortCurve b).addX x₁ x₂ ((shortCurve b).slope x₁ x₂ y₁ y₂) := by
    simp [addX, hx, hl, shortCurve]
  have hY : val y = (shortCurve b).addY x₁ x₂ y₁ ((shortCurve b).slope x₁ x₂ y₁ y₂) := by
    rw [hy, addY, negAddY, negY_eq, ← hX, hl]
    ring
  rw [Point.add_some (by rwa [negY_eq])]
  generalize_proofs hns
  revert hns
  rw [← hX, ← hY]
  exact .some x y

lemma slope_tangent (hx : x₁ = x₂) (hy : y₁ = y₂) (h2 : y₁ + y₁ ≠ 0) :
    (shortCurve b).slope x₁ x₂ y₁ y₂ = 3 * x₁ ^ 2 * (y₁ + y₁)⁻¹ := by
  have hne : y₁ ≠ (shortCurve b).negY x₂ y₂ := by
    rw [negY_eq, ← hy]
    exact fun h => h2 (add_eq_zero_iff_eq_neg.mpr h)
  rw [slope_of_Y_ne hx hne, negY_eq, sub_neg_eq_add, div_eq_mul_inv]
  simp [shortCurve]

lemma slope_chord (hx : x₁ ≠ x₂) :
    (shortCurve b).slope x₁ x₂ y₁ y₂ = (y₁ - y₂) * (x₁ - x₂)⁻¹ := by
  rw [slope_of_X_ne hx, div_eq_mul_inv]

end ShortCurve
end Xiuos.Lib
