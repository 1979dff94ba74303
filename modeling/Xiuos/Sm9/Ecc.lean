import Xiuos.Lib.ShortCurve
import Xiuos.Sm9.Qn

/-! Addition of points: `ecc.c`, and `G2PointAdd` and `Line` of `qn.c`.  Two numbers are equal
when their words are. -/

namespace Xiuos.Sm9
open Lib ShortCurve WeierstrassCurve.Affine

section
variable {α : Type} [DecidableEq α] (k : BaseField α) (zero : α)

def pointInG1 (b : α) (point : Coords α) : Bool :=
  let yPower2 := k.multMod point.y point.y
  let temp := k.multMod (k.multMod point.x point.x) point.x
  yPower2 = k.addMod temp b

def g1Third (lambda : α) (point1 point2 : Coords α) : Coords α :=
  let x := k.minusMod (k.multMod lambda lambda) (k.addMod point1.x point2.x)
  ⟨x, k.minusMod (k.multMod lambda (k.minusMod point1.x x)) point1.y⟩

/-- The second test is made of `point1` again, and not of `point2`. -/
def g1pointAdd (point1 point2 : Coords α) : Coords α :=
  if point1.x = zero ∧ point1.y = zero then point2
  else if point1.x = zero ∧ point1.y = zero then point1
  else if point1.x = point2.x then
    if point1.y ≠ point2.y then ⟨zero, zero⟩
    else
      let temp := k.reverse (k.addMod point1.y point1.y)
      let temp := k.multMod point1.x temp
      let temp := k.multMod point1.x temp
      g1Third k (k.addMod temp (k.addMod temp temp)) point1 point2
  else
    let temp := k.reverse (k.minusMod point1.x point2.x)
    g1Third k (k.multMod temp (k.minusMod point1.y point2.y)) point1 point2

def g2Third (lambda : Q2 α) (point1 point2 : Coords (Q2 α)) : Coords (Q2 α) :=
  let x := q2Minus k (q2Minus k (q2Mult k lambda lambda) point1.x) point2.x
  ⟨x, q2Minus k (q2Mult k lambda (q2Minus k point1.x x)) point1.y⟩

def g2PointAdd (point1 point2 : Coords (Q2 α)) : Coords (Q2 α) :=
  let temp : Q2 α := ⟨zero, zero⟩
  if point1.x = temp ∧ point1.y = temp then point2
  else if point2.x = temp ∧ point2.y = temp then point1
  else if point1.x = point2.x then
    if point1.y ≠ point2.y then ⟨temp, temp⟩
    else
      let temp := q2Mult k point1.x point1.x
      let lambda := q2Add k (q2Add k temp temp) temp
      g2Third k (q2Mult k lambda (q2Reverse k (q2Add k point1.y point1.y))) point1 point2
  else
    g2Third k (q2Mult k (q2Minus k point1.y point2.y) (q2Reverse k (q2Minus k point1.x point2.x)))
      point1 point2

def q12Zero : Q12 α :=
  let z : Q4 α := ⟨⟨zero, zero⟩, ⟨zero, zero⟩⟩
  ⟨z, z, z⟩

/-- The end of `Line`, with what the branch before has left in `temp` and `ret`. -/
def lineEnd (qnr : α) (P : Coords α) (T Q : Coords (Q2 α)) (lambda temp : Q2 α) (ret f : Q12 α) :
    Coords (Q2 α) × Q12 α :=
  let temp := { temp with high := qnr }
  let hh : Q2 α := ⟨k.multMod lambda.high P.x, k.multMod lambda.low P.x⟩
  let lh := q2Mult k temp (q2Minus k T.y (q2Mult k lambda T.x))
  let ret : Q12 α :=
    { ret with
      high := { ret.high with high := q2Mult k hh temp }
      low := ⟨lh, { ret.low.low with low := k.minusMod k.q P.y }⟩ }
  (g2PointAdd k zero Q T, q12MultMod k ret f)

def verticalLine (qnr : α) (P : Coords α) (Q : Coords (Q2 α)) : Q12 α :=
  let ret := q12Zero zero
  { ret with
    mid := { ret.mid with high := q2Negate k (q2Mult k ⟨qnr, zero⟩ Q.x) }
    low := { ret.low with low := ⟨zero, P.x⟩ } }

/-- The branch for a vertical line does not return. -/
def line (qnr : α) (P : Coords α) (T Q : Coords (Q2 α)) (doubleflag : Bool) (f : Q12 α) :
    Coords (Q2 α) × Q12 α :=
  let temp : Q2 α := ⟨zero, zero⟩
  if doubleflag then
    if Q.x = temp ∧ Q.y = temp then (T, f)
    else
      let lambda := q2Mult k Q.x Q.x
      let lambda := q2Add k lambda (q2Add k lambda lambda)
      let lambda := q2Mult k lambda (q2Reverse k (q2Add k Q.y Q.y))
      lineEnd k zero qnr P T Q lambda temp (q12Zero zero) f
  else if T.x = Q.x then
    let T : Coords (Q2 α) := ⟨temp, temp⟩
    let ret := verticalLine k zero qnr P Q
    let f := q12MultMod k f ret
    let lambda := q2Mult k (q2Minus k T.y Q.y) (q2Reverse k (q2Minus k T.x Q.x))
    lineEnd k zero qnr P T Q lambda ret.mid.high ret f
  else if T.x = temp ∧ T.y = temp then (Q, f)
  else if Q.x = temp ∧ Q.y = temp then (T, f)
  else
    let lambda := q2Mult k (q2Minus k T.y Q.y) (q2Reverse k (q2Minus k T.x Q.x))
    lineEnd k zero qnr P T Q lambda temp (q12Zero zero) f

variable {k zero} {f : Q12 α}

lemma line_fst {qnr : α} {P : Coords α} {T Q : Coords (Q2 α)} (h : T = Q ∨ T.x ≠ Q.x) :
    (line k zero qnr P T Q (decide (T = Q)) f).1 = g2PointAdd k zero Q T := by
  obtain rfl | hx := h
  · rw [line, decide_eq_true rfl, if_pos rfl]
    split
    · rename_i h0
      rw [g2PointAdd, if_pos h0]
    · rfl
  · have hne : T ≠ Q := fun h => hx (congrArg _ h)
    rw [line, decide_eq_false hne, if_neg Bool.false_ne_true, if_neg hx]
    split
    · rename_i h0
      rw [g2PointAdd, if_pos h0, if_neg fun h => hx (h0.1.trans h.1.symm)]
    · split
      · rename_i h0
        rw [g2PointAdd, if_pos h0]
      · rfl

lemma line_vertical {qnr : α} {P : Coords α} {T Q : Coords (Q2 α)} (hne : T ≠ Q) (hx : T.x = Q.x)
    : (line k zero qnr P T Q (decide (T = Q)) f).1 = Q := by
  rw [line, decide_eq_false hne, if_neg Bool.false_ne_true, if_pos hx]
  simp only [lineEnd, g2PointAdd]
  split
  · cases Q
    simp_all
  · rfl

end

section

lemma add_self_ne_zero {F : Type} [Field F] (h2 : (2 : F) ≠ 0) {y : F} (hy : y ≠ 0) :
    y + y ≠ 0 := by
  rw [← two_mul]
  exact mul_ne_zero h2 hy

variable {α : Type} {k : BaseField α} {zero : α} {q : ℕ} [Fact q.Prime] {val : α → ZMod q}
  (hk : k.Exact val) (h2 : (2 : ZMod q) ≠ 0) {b : ZMod q}

include hk

lemma reverse_eq_inv {a : α} (ha : val a ≠ 0) : val (k.reverse a) = (val a)⁻¹ :=
  eq_inv_of_mul_eq_one_left (hk.reverse a ha)

lemma encodes_g1Third {x₁ y₁ x₂ y₂ l : α} {h₁ : (shortCurve b).Nonsingular (val x₁) (val y₁)}
    {h₂ : (shortCurve b).Nonsingular (val x₂) (val y₂)}
    (hxy : ¬ (val x₁ = val x₂ ∧ val y₁ = -val y₂))
    (hl : val l = (shortCurve b).slope (val x₁) (val x₂) (val y₁) (val y₂)) :
    (g1Third k l ⟨x₁, y₁⟩ ⟨x₂, y₂⟩).Encodes val zero b (.some _ _ h₁ + .some _ _ h₂) := by
  refine encodes_add hxy hl ?_ ?_
  · simp only [hk.minus, hk.mult, hk.add]
    ring
  · simp only [hk.minus, hk.mult]

variable [DecidableEq α]
include h2

lemma encodes_of_pointInG1 {P : Coords α} {five : α} (h : pointInG1 k five P)
    (hy : val P.y ≠ 0) : ∃ A ≠ 0, P.Encodes val zero (val five) A := by
  have heq : val P.y ^ 2 = val P.x ^ 3 + val five := by
    have h := congrArg val (of_decide_eq_true h)
    simp only [hk.mult, hk.add] at h
    rw [sq, h]
    ring
  refine ⟨_, Point.some_ne_zero _, .some P.x P.y (nonsingular_of_ne heq fun h => ?_)⟩
  exact add_self_ne_zero h2 hy (add_eq_zero_iff_eq_neg.mpr h)

variable (hinj : Function.Injective val) (hzero : val zero = 0)
include hinj hzero

lemma encodes_g1pointAdd {x₁ y₁ x₂ y₂ : α} (h₁ : (shortCurve b).Nonsingular (val x₁) (val y₁))
    (h₂ : (shortCurve b).Nonsingular (val x₂) (val y₂)) (hy : y₁ ≠ zero) :
    (g1pointAdd k zero ⟨x₁, y₁⟩ ⟨x₂, y₂⟩).Encodes val zero b (.some _ _ h₁ + .some _ _ h₂) := by
  have hy0 : val y₁ + val y₁ ≠ 0 := add_self_ne_zero h2 fun h => hy (hinj (h.trans hzero.symm))
  rw [g1pointAdd, if_neg (by simp [hy]), if_neg (by simp [hy])]
  split
  · rename_i hx
    have hx' : val x₁ = val x₂ := congrArg val hx
    split
    · rename_i hne
      rw [add_eq_zero_of_ne hx' (hinj.ne hne)]
      exact .zero
    · rename_i heq
      have hy' : val y₁ = val y₂ := congrArg val (not_not.mp heq)
      refine encodes_g1Third hk (fun h => hy0 ?_) ?_
      · rw [← hy'] at h
        exact add_eq_zero_iff_eq_neg.mpr h.2
      · rw [slope_tangent hx' hy' hy0]
        simp only [hk.add, hk.mult, reverse_eq_inv hk (by rwa [hk.add] : val (k.addMod y₁ y₁) ≠ 0)]
        ring
  · rename_i hx
    have hx' := hinj.ne hx
    refine encodes_g1Third hk (fun h => hx' h.1) ?_
    have hsub : val (k.minusMod x₁ x₂) ≠ 0 := by
      rw [hk.minus]
      exact sub_ne_zero.mpr hx'
    rw [slope_chord hx']
    simp only [hk.mult, reverse_eq_inv hk hsub, hk.minus]
    ring

lemma not_encodes_g1pointAdd_zero {x y : α} (h : (shortCurve b).Nonsingular (val x) (val y))
    (hy : y ≠ zero) : ¬ (g1pointAdd k zero ⟨x, y⟩ ⟨zero, zero⟩).Encodes val zero b
      (.some _ _ h) := by
  have hy0 : val y ≠ 0 := fun h => hy (hinj (h.trans hzero.symm))
  intro henc
  rw [g1pointAdd, if_neg (by simp [hy]), if_neg (by simp [hy])] at henc
  split at henc
  · exact Point.some_ne_zero h (encodes_unique hzero henc .zero)
  · obtain ⟨hX, hY⟩ := henc.val_eq
    simp only [g1Third] at hX hY
    rw [hk.minus, hk.mult, hk.minus, hX, sub_self, mul_zero, zero_sub] at hY
    exact add_self_ne_zero h2 hy0 (add_eq_zero_iff_eq_neg.mpr hY.symm)

/-- Points are added as on the curve unless the point at infinity is the second one alone. -/
theorem g1pointAdd_iff {P₁ P₂ : Coords α} {A₁ A₂ : (shortCurve (5 : ZMod q)).Point}
    (h₁ : P₁.Encodes val zero 5 A₁) (h₂ : P₂.Encodes val zero 5 A₂)
    (hy₁ : A₁ ≠ 0 → P₁.y ≠ zero) :
    (g1pointAdd k zero P₁ P₂).Encodes val zero 5 (A₁ + A₂) ↔ A₂ ≠ 0 ∨ A₁ = 0 := by
  cases h₁ with
  | zero =>
    rw [zero_add]
    simpa [g1pointAdd] using h₂
  | some x₁ y₁ hn₁ =>
    have hy := hy₁ (Point.some_ne_zero hn₁)
    cases h₂ with
    | zero =>
      rw [add_zero]
      simpa using not_encodes_g1pointAdd_zero hk h2 hinj hzero hn₁ hy
    | some x₂ y₂ hn₂ =>
      simpa using encodes_g1pointAdd hk h2 hinj hzero hn₁ hn₂ hy

end

/-- The numbers modulo 7, where the curve has the points `(3, ±2)`, `(5, ±2)` and `(6, ±2)`. -/
def sevenField : BaseField (ZMod 7) := ⟨0, (· + ·), (· - ·), (· * ·), (· ^ 5)⟩

lemma sevenField_exact : sevenField.Exact (id : ZMod 7 → ZMod 7) :=
  ⟨⟨rfl, fun _ _ => rfl, fun _ _ => rfl, fun _ _ => rfl⟩, by decide⟩

instance prime_seven : Fact (Nat.Prime 7) := ⟨by decide⟩

theorem g1pointAdd_zero_lost :
    pointInG1 sevenField 5 ⟨3, 2⟩ ∧ g1pointAdd sevenField 0 ⟨0, 0⟩ ⟨3, 2⟩ = ⟨3, 2⟩ ∧
      g1pointAdd sevenField 0 ⟨3, 2⟩ ⟨0, 0⟩ ≠ ⟨3, 2⟩ := by
  decide

theorem g1pointAdd_iff_seven : ∃ A : (shortCurve (5 : ZMod 7)).Point, A ≠ 0 ∧
    (g1pointAdd sevenField 0 ⟨3, 2⟩ ⟨3, 2⟩).Encodes id 0 5 (A + A) := by
  obtain ⟨A, hA, hP⟩ : ∃ A ≠ 0, Coords.Encodes id 0 (id 5) (⟨3, 2⟩ : Coords (ZMod 7)) A :=
    encodes_of_pointInG1 sevenField_exact (by decide) (by decide) (by decide)
  exact ⟨A, hA, (g1pointAdd_iff sevenField_exact (by decide) Function.injective_id rfl hP hP
    (fun _ => by decide)).mpr (.inl hA)⟩

section

structure Q2Exact {α F : Type} [Field F] (k : BaseField α) (zero : α) (val : Q2 α → F) : Prop where
  injective : Function.Injective val
  zero : val ⟨zero, zero⟩ = 0
  add (x y : Q2 α) : val (q2Add k x y) = val x + val y
  minus (x y : Q2 α) : val (q2Minus k x y) = val x - val y
  mult (x y : Q2 α) : val (q2Mult k x y) = val x * val y
  reverse (x : Q2 α) : val x ≠ 0 → val (q2Reverse k x) = (val x)⁻¹

variable {α F : Type} {k : BaseField α} {zero : α} [Field F] {val : Q2 α → F} {b : F}
  (hk : Q2Exact k zero val)

include hk

lemma not_both_zero {x y : Q2 α} (h : (shortCurve b).Nonsingular (val x) (val y)) :
    ¬ (x = ⟨zero, zero⟩ ∧ y = ⟨zero, zero⟩) := by
  rintro ⟨rfl, rfl⟩
  rw [hk.zero] at h
  exact not_nonsingular_zero h

section

variable {T Q : Coords (Q2 α)} {A B : (shortCurve b).Point}
  (hT : T.Encodes val ⟨zero, zero⟩ b A) (hQ : Q.Encodes val ⟨zero, zero⟩ b B)

include hT hQ

lemma encodes_eq_iff : T = Q ↔ A = B := by
  constructor
  · rintro rfl
    exact encodes_unique hk.zero hT hQ
  · rintro rfl
    cases hT with
    | zero =>
      cases hQ
      rfl
    | some x y h =>
      obtain ⟨hx, hy⟩ := hQ.val_eq
      cases Q
      rw [Coords.mk.injEq]
      exact ⟨hk.injective hx.symm, hk.injective hy.symm⟩

lemma x_eq_of_eq_neg (hA : A ≠ 0) (h : A = -B) : T.x = Q.x := by
  cases hT with
  | zero => exact absurd rfl hA
  | some x y hn =>
    cases hQ with
    | zero => exact absurd h hA
    | some x' y' hn' =>
      rw [Point.neg_some, Point.some.injEq] at h
      exact hk.injective h.1

end

variable [DecidableEq F]

lemma encodes_g2Third {x₁ y₁ x₂ y₂ l : Q2 α} {h₁ : (shortCurve b).Nonsingular (val x₁) (val y₁)}
    {h₂ : (shortCurve b).Nonsingular (val x₂) (val y₂)}
    (hxy : ¬ (val x₁ = val x₂ ∧ val y₁ = -val y₂))
    (hl : val l = (shortCurve b).slope (val x₁) (val x₂) (val y₁) (val y₂)) :
    (g2Third k l ⟨x₁, y₁⟩ ⟨x₂, y₂⟩).Encodes val ⟨zero, zero⟩ b
      (.some _ _ h₁ + .some _ _ h₂) := by
  refine encodes_add hxy hl ?_ ?_
  · simp only [hk.minus, hk.mult]
    ring
  · simp only [hk.minus, hk.mult]

variable [DecidableEq α]

lemma encodes_g2PointAdd {P₁ P₂ : Coords (Q2 α)} {A₁ A₂ : (shortCurve b).Point}
    (h₁ : P₁.Encodes val ⟨zero, zero⟩ b A₁) (h₂ : P₂.Encodes val ⟨zero, zero⟩ b A₂)
    (hodd : P₁ = P₂ → A₁ + A₁ = 0 → A₁ = 0) :
    (g2PointAdd k zero P₁ P₂).Encodes val ⟨zero, zero⟩ b (A₁ + A₂) := by
  cases h₁ with
  | zero =>
    rw [zero_add]
    simpa [g2PointAdd] using h₂
  | some x₁ y₁ hn₁ =>
    rw [g2PointAdd, if_neg (not_both_zero hk hn₁)]
    cases h₂ with
    | zero =>
      rw [if_pos ⟨rfl, rfl⟩, add_zero]
      exact .some x₁ y₁ hn₁
    | some x₂ y₂ hn₂ =>
      rw [if_neg (not_both_zero hk hn₂)]
      split
      · rename_i hx
        obtain rfl : x₁ = x₂ := hx
        split
        · rename_i hy
          rw [add_eq_zero_of_ne rfl (hk.injective.ne hy)]
          exact .zero
        · rename_i hy
          obtain rfl : y₁ = y₂ := not_not.mp hy
          have hy0 : val y₁ + val y₁ ≠ 0 := by
            intro h
            refine Point.some_ne_zero hn₁ (hodd rfl (Point.add_of_Y_eq rfl ?_))
            rw [negY_eq]
            exact add_eq_zero_iff_eq_neg.mp h
          refine encodes_g2Third hk (fun h => hy0 (add_eq_zero_iff_eq_neg.mpr h.2)) ?_
          rw [slope_tangent rfl rfl hy0, hk.mult, hk.reverse _ (by rwa [hk.add]), hk.add]
          simp only [hk.add, hk.mult]
          ring
      · rename_i hx
        have hx' := hk.injective.ne hx
        refine encodes_g2Third hk (fun h => hx' h.1) ?_
        rw [slope_chord hx', hk.mult, hk.reverse _ (by rwa [hk.minus, sub_ne_zero]), hk.minus,
          hk.minus]

variable {T Q : Coords (Q2 α)} {A B : (shortCurve b).Point}
  (hT : T.Encodes val ⟨zero, zero⟩ b A) (hQ : Q.Encodes val ⟨zero, zero⟩ b B)

include hT hQ

/-- The point is the sum unless the line is vertical: there it becomes `Q`, as the branch does not
return.  `G2` has an odd order. -/
theorem line_iff (qnr : α) (P : Coords α) (f : Q12 α) {n : ℕ} (hn : Odd n) (hA : n • A = 0) :
    ((line k zero qnr P T Q (decide (T = Q)) f).1.Encodes val ⟨zero, zero⟩ b (A + B) ∧
      (A ≠ 0 → A = -B → (line k zero qnr P T Q (decide (T = Q)) f).2 =
        q12MultMod k f (verticalLine k zero qnr P Q))) ↔ T = Q ∨ T.x ≠ Q.x ∨ A = 0 := by
  have hodd : A + A = 0 → A = 0 := by
    intro h
    obtain ⟨m, rfl⟩ := hn
    rwa [add_nsmul, mul_nsmul, two_nsmul, h, nsmul_zero, zero_add, one_nsmul] at hA
  by_cases hv : T = Q ∨ T.x ≠ Q.x
  · refine iff_of_true ⟨?_, fun h0 hneg => ?_⟩ (by tauto)
    · rw [line_fst hv, add_comm]
      refine encodes_g2PointAdd hk hQ hT fun heq => ?_
      rwa [← (encodes_eq_iff hk hT hQ).mp heq.symm]
    · have hAB := (encodes_eq_iff hk hT hQ).mp (hv.resolve_right
        (not_not.mpr (x_eq_of_eq_neg hk hT hQ h0 hneg)))
      rw [← hAB] at hneg
      exact absurd (hodd (add_eq_zero_iff_eq_neg.mpr hneg)) h0
  · obtain ⟨hne, hx⟩ := not_or.mp hv
    rw [line_vertical hne (not_not.mp hx)]
    constructor
    · rintro ⟨hsum, -⟩
      exact .inr (.inr (add_eq_right.mp (encodes_unique hk.zero hsum hQ)))
    · rintro (h | h | rfl)
      · exact absurd h hne
      · exact absurd h hx
      · rw [zero_add]
        exact ⟨hQ, fun h => absurd rfl h⟩

end

open Polynomial Radical

noncomputable instance {q : ℕ} : DecidableEq (Fq2 q) := Classical.decEq _

lemma q2Exact_value {α : Type} {k : BaseField α} {zero : α} {q : ℕ} [Fact q.Prime]
    [Fact (Irreducible (X ^ 2 - C (-2 : ZMod q)))] {val : α → ZMod q} (hk : k.Exact val)
    (hinj : Function.Injective val) (hzero : val zero = 0) :
    Q2Exact k zero (Q2.value val) where
  injective x y h := by
    obtain ⟨hhigh, hlow⟩ := linear_injective h
    cases x
    cases y
    rw [Q2.mk.injEq]
    exact ⟨hinj hhigh, hinj hlow⟩
  zero := by simp [Q2.value, hzero]
  add := value_q2Add hk.toExactRing
  minus := value_q2Minus hk.toExactRing
  mult := value_q2Mult hk.toExactRing
  reverse x hx := by
    refine eq_inv_of_mul_eq_one_right (value_q2Reverse hk fun h => hx ?_)
    have hnorm := congrArg (of (c := (-2 : ZMod q)) (n := 2)) h
    simp only [q2Norm, hk.add, hk.mult, map_add, map_mul, map_zero] at hnorm
    have hmul : x.value val * (of (-val x.high) * root + of (val x.low)) = 0 := by
      rw [Q2.value, map_neg of]
      linear_combination hnorm - of (val x.high) ^ 2 * Fq2.root_sq
    have hconj : (of (-val x.high) * root + of (val x.low) : Fq2 q) = of 0 * root + of 0 := by
      rw [map_zero, zero_mul, zero_add]
      exact (mul_eq_zero.mp hmul).resolve_left hx
    obtain ⟨hhigh, hlow⟩ := linear_injective hconj
    rw [Q2.value, neg_eq_zero.mp hhigh, hlow, map_zero, zero_mul, zero_add]

instance irreducible_seven : Fact (Irreducible (X ^ 2 - C (-2 : ZMod 7))) :=
  ⟨X_pow_sub_C_irreducible_of_prime Nat.prime_two (by decide)⟩

def flex : Coords (Q2 (ZMod 7)) := ⟨⟨0, 0⟩, ⟨0, 1⟩⟩

def flexNeg : Coords (Q2 (ZMod 7)) := ⟨⟨0, 0⟩, ⟨0, 6⟩⟩

lemma sevenExact : Q2Exact sevenField 0 (Q2.value (id : ZMod 7 → ZMod 7)) :=
  q2Exact_value sevenField_exact Function.injective_id rfl

lemma exists_flex : ∃ A : (shortCurve (1 : Fq2 7)).Point, A ≠ 0 ∧ 3 • A = 0 ∧
    flex.Encodes (Q2.value id) ⟨0, 0⟩ 1 A ∧ flexNeg.Encodes (Q2.value id) ⟨0, 0⟩ 1 (-A) := by
  have hy : flexNeg.y.value id = -flex.y.value id := by
    rw [show flexNeg.y = q2Negate sevenField flex.y by decide,
      value_q2Negate sevenField_exact.toExactRing]
  have hne : flex.y.value id ≠ -flex.y.value id := by
    rw [← hy]
    exact sevenExact.injective.ne (by decide)
  have hA : (shortCurve (1 : Fq2 7)).Nonsingular (flex.x.value id) (flex.y.value id) :=
    nonsingular_of_ne (by simp [flex, Q2.value]) hne
  have hB : (shortCurve (1 : Fq2 7)).Nonsingular (flexNeg.x.value id) (flexNeg.y.value id) := by
    rw [hy]
    exact (nonsingular_of_ne (by simp [flex, flexNeg, Q2.value]) (by rwa [neg_neg, ne_comm]))
  have hflex : flex.Encodes (Q2.value id) ⟨0, 0⟩ 1 (.some _ _ hA) := .some _ _ hA
  have hneg : flexNeg.Encodes (Q2.value id) ⟨0, 0⟩ 1 (-.some _ _ hA) := by
    have heq : -Point.some _ _ hA = .some _ _ hB := by
      rw [Point.neg_some, Point.some.injEq, negY_eq, hy]
      exact ⟨rfl, rfl⟩
    rw [heq]
    exact .some _ _ hB
  have hdouble := encodes_g2PointAdd sevenExact hflex hflex fun _ h => by
    rw [add_eq_zero_iff_eq_neg, Point.neg_some, Point.some.injEq, negY_eq] at h
    exact absurd h.2 hne
  rw [show g2PointAdd sevenField 0 flex flex = flexNeg by decide] at hdouble
  have hsum := encodes_unique sevenExact.zero hdouble hneg
  refine ⟨_, Point.some_ne_zero hA, ?_, hflex, hneg⟩
  rw [succ_nsmul, two_nsmul, hsum]
  exact neg_add_cancel (Point.some _ _ hA)

theorem line_iff_double : ∃ A : (shortCurve (1 : Fq2 7)).Point, A ≠ 0 ∧
    flex.Encodes (Q2.value id) ⟨0, 0⟩ 1 A ∧
    (line sevenField 0 5 ⟨3, 2⟩ flex flex true ⟨⟨flex.y, flex.y⟩, ⟨flex.y, flex.y⟩,
      ⟨flex.y, flex.y⟩⟩).1.Encodes (Q2.value id) ⟨0, 0⟩ 1 (A + A) := by
  obtain ⟨A, hne, hodd, hA, -⟩ := exists_flex
  exact ⟨A, hne, hA, ((line_iff sevenExact hA hA 5 ⟨3, 2⟩ _ (by decide) hodd).mpr (.inl rfl)).1⟩

theorem line_vertical_lost : ∃ A : (shortCurve (1 : Fq2 7)).Point, A ≠ 0 ∧ 3 • A = 0 ∧
    flex.Encodes (Q2.value id) ⟨0, 0⟩ 1 A ∧ flexNeg.Encodes (Q2.value id) ⟨0, 0⟩ 1 (-A) ∧
    ¬ (line sevenField 0 5 ⟨3, 2⟩ flexNeg flex false ⟨⟨flex.y, flex.y⟩, ⟨flex.y, flex.y⟩,
      ⟨flex.y, flex.y⟩⟩).1.Encodes (Q2.value id) ⟨0, 0⟩ 1 (-A + A) := by
  obtain ⟨A, hne, hodd, hA, hneg⟩ := exists_flex
  refine ⟨A, hne, hodd, hA, hneg, fun h => hne ?_⟩
  have hline : (line sevenField 0 5 ⟨3, 2⟩ flexNeg flex false ⟨⟨flex.y, flex.y⟩, ⟨flex.y, flex.y⟩,
      ⟨flex.y, flex.y⟩⟩).1 = flex := by decide
  rw [hline] at h
  exact neg_eq_zero.mp (add_eq_right.mp (encodes_unique sevenExact.zero h hA))

end Xiuos.Sm9
