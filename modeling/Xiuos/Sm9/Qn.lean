import Xiuos.Lib.Radical
import Xiuos.Sm9.Join

/-! `qn.c`: multiplication and inversion in the tower of extension fields. -/

namespace Xiuos.Sm9
open Lib Radical
variable {α : Type} {q : ℕ}

structure BaseField (α : Type) where
  q : α
  addMod : α → α → α
  minusMod : α → α → α
  multMod : α → α → α
  reverse : α → α

section
variable (k : BaseField α)

def q2Add (num1 num2 : Q2 α) : Q2 α where
  high := k.addMod num1.high num2.high
  low := k.addMod num1.low num2.low

def q2Minus (num1 num2 : Q2 α) : Q2 α where
  high := k.minusMod num1.high num2.high
  low := k.minusMod num1.low num2.low

def q2Mult (num1 num2 : Q2 α) : Q2 α :=
  let a0b0 := k.multMod num1.low num2.low
  let a1b1 := k.multMod num1.high num2.high
  let high := k.multMod (k.addMod num1.high num1.low) (k.addMod num2.high num2.low)
  { high := k.minusMod high (k.addMod a0b0 a1b1)
    low := k.minusMod a0b0 (k.addMod a1b1 a1b1) }

def q2MultFlag (num1 num2 : Q2 α) : Q2 α :=
  let ret := q2Mult k num1 num2
  { high := ret.low
    low := k.minusMod k.q (k.addMod ret.high ret.high) }

def q2Norm (num : Q2 α) : α :=
  let temp := k.multMod num.high num.high
  let temp := k.addMod temp temp
  k.addMod temp (k.multMod num.low num.low)

def q2Reverse (num : Q2 α) : Q2 α :=
  let temp := k.reverse (q2Norm k num)
  { high := k.multMod (k.minusMod k.q num.high) temp
    low := k.multMod num.low temp }

def q2Negate (num : Q2 α) : Q2 α where
  high := k.minusMod k.q num.high
  low := k.minusMod k.q num.low

def q2Txx (num : Q2 α) : Q2 α :=
  let low := k.minusMod k.q num.high
  { high := num.low
    low := k.addMod low low }

def q4Add (num1 num2 : Q4 α) : Q4 α where
  high := q2Add k num1.high num2.high
  low := q2Add k num1.low num2.low

def q4Minus (num1 num2 : Q4 α) : Q4 α where
  high := q2Minus k num1.high num2.high
  low := q2Minus k num1.low num2.low

def q4Mult (num1 num2 : Q4 α) : Q4 α :=
  let a1b1 := q2Mult k num1.high num2.high
  let a0b0 := q2Mult k num1.low num2.low
  let high := q2Mult k (q2Add k num1.high num1.low) (q2Add k num2.high num2.low)
  { high := q2Minus k high (q2Add k a0b0 a1b1)
    low := {
      high := k.addMod a0b0.high a1b1.low
      low := k.minusMod a0b0.low (k.addMod a1b1.high a1b1.high) } }

def q4MultFlag (num1 num2 : Q4 α) : Q4 α where
  high := q2Add k (q2Mult k num1.low num2.low) (q2MultFlag k num1.high num2.high)
  low := q2Add k (q2MultFlag k num1.high num2.low) (q2MultFlag k num1.low num2.high)

def q4Txx (num : Q4 α) : Q4 α where
  high := num.low
  low := q2Txx k num.high

def q4Norm (num : Q4 α) : Q2 α :=
  q2Minus k (q2Mult k num.low num.low) (q2Txx k (q2Mult k num.high num.high))

def q4Reverse (num : Q4 α) : Q4 α :=
  let t1 := q2Reverse k (q4Norm k num)
  { high := q2Mult k num.high (q2Negate k t1)
    low := q2Mult k num.low t1 }

def q12MultMod (num1 num2 : Q12 α) : Q12 α where
  high := q4Add k (q4Add k (q4Mult k num1.high num2.low) (q4Mult k num1.mid num2.mid))
    (q4Mult k num1.low num2.high)
  mid := q4Add k (q4Add k (q4Mult k num1.low num2.mid) (q4Mult k num1.mid num2.low))
    (q4MultFlag k num1.high num2.high)
  low := q4Add k (q4Add k (q4MultFlag k num1.high num2.mid) (q4MultFlag k num1.mid num2.high))
    (q4Mult k num1.low num2.low)

def q12AddMod (num1 num2 : Q12 α) : Q12 α where
  high := q4Add k num1.high num2.high
  mid := q4Add k num1.mid num2.mid
  low := q4Add k num1.low num2.low

def q12Adjoint (num : Q12 α) : Q12 α where
  low := q4Minus k (q4Mult k num.low num.low) (q4Txx k (q4Mult k num.mid num.high))
  mid := q4Minus k (q4Txx k (q4Mult k num.high num.high)) (q4Mult k num.low num.mid)
  high := q4Minus k (q4Mult k num.mid num.mid) (q4Mult k num.low num.high)

def q12Norm (num : Q12 α) : Q4 α :=
  let ret := q12Adjoint k num
  let temp1 := q4Txx k (q4Mult k num.mid ret.high)
  let temp1 := q4Add k temp1 (q4Mult k num.low ret.low)
  q4Add k temp1 (q4Txx k (q4Mult k num.high ret.mid))

def q12Reverse (num : Q12 α) : Q12 α :=
  let ret := q12Adjoint k num
  let temp1 := q4Reverse k (q12Norm k num)
  { low := q4Mult k ret.low temp1
    mid := q4Mult k ret.mid temp1
    high := q4Mult k ret.high temp1 }

end

structure BaseField.ExactRing {α : Type} (k : BaseField α) {q : ℕ} (val : α → ZMod q) : Prop where
  q : val k.q = 0
  add (a b : α) : val (k.addMod a b) = val a + val b
  minus (a b : α) : val (k.minusMod a b) = val a - val b
  mult (a b : α) : val (k.multMod a b) = val a * val b

structure BaseField.Exact {α : Type} (k : BaseField α) {q : ℕ} (val : α → ZMod q) : Prop
    extends k.ExactRing val where
  reverse (a : α) : val a ≠ 0 → val (k.reverse a) * val a = 1

/-- `Fq[u] / (u ^ 2 + 2)` -/
abbrev Fq2 (q : ℕ) : Type := Radical 2 (-2 : ZMod q)

/-- `Fq2[v] / (v ^ 2 - u)` -/
abbrev Fq4 (q : ℕ) : Type := Radical 2 (root : Fq2 q)

/-- `Fq4[w] / (w ^ 3 - v)` -/
abbrev Fq12 (q : ℕ) : Type := Radical 3 (root : Fq4 q)

section
variable (val : α → ZMod q)

noncomputable def Q2.value (num : Q2 α) : Fq2 q :=
  .of (val num.high) * .root + .of (val num.low)

noncomputable def Q4.value (num : Q4 α) : Fq4 q :=
  .of (num.high.value val) * .root + .of (num.low.value val)

noncomputable def Q12.value (num : Q12 α) : Fq12 q :=
  .of (num.high.value val) * .root ^ 2 + .of (num.mid.value val) * .root + .of (num.low.value val)

def Q2.residues (num : Q2 α) : Q2 (ZMod q) := ⟨val num.high, val num.low⟩

def Q4.residues (num : Q4 α) : Q4 (ZMod q) := ⟨num.high.residues val, num.low.residues val⟩

def Q12.residues (num : Q12 α) : Q12 (ZMod q) :=
  ⟨num.high.residues val, num.mid.residues val, num.low.residues val⟩

variable {val}

lemma Q2.residues_inj {x y : Q2 α} (h : x.value val = y.value val) :
    x.residues val = y.residues val := by
  obtain ⟨hhigh, hlow⟩ := linear_injective h
  rw [Q2.residues, Q2.residues, hhigh, hlow]

lemma Q4.residues_inj {x y : Q4 α} (h : x.value val = y.value val) :
    x.residues val = y.residues val := by
  obtain ⟨hhigh, hlow⟩ := linear_injective h
  rw [Q4.residues, Q4.residues, Q2.residues_inj hhigh, Q2.residues_inj hlow]

lemma Q12.residues_inj {x y : Q12 α} (h : x.value val = y.value val) :
    x.residues val = y.residues val := by
  obtain ⟨hhigh, hmid, hlow⟩ := quadratic_injective h
  rw [Q12.residues, Q12.residues, Q4.residues_inj hhigh, Q4.residues_inj hmid, Q4.residues_inj hlow]

end

lemma Fq2.root_sq {q : ℕ} : (root : Fq2 q) ^ 2 = -2 := by rw [root_pow, map_neg, map_ofNat]

section
variable {k : BaseField α} {val : α → ZMod q} (hk : k.ExactRing val)
include hk

lemma value_q2Add (x y : Q2 α) : (q2Add k x y).value val = x.value val + y.value val := by
  simp only [Q2.value, q2Add, hk.add, map_add]
  ring

lemma value_q2Minus (x y : Q2 α) : (q2Minus k x y).value val = x.value val - y.value val := by
  simp only [Q2.value, q2Minus, hk.minus, map_sub]
  ring

lemma value_q2Negate (x : Q2 α) : (q2Negate k x).value val = -x.value val := by
  simp only [Q2.value, q2Negate, hk.minus, hk.q, map_sub, map_zero]
  ring

lemma value_q2Mult (x y : Q2 α) : (q2Mult k x y).value val = x.value val * y.value val := by
  simp only [Q2.value, q2Mult, hk.add, hk.minus, hk.mult, map_add, map_sub, map_mul]
  linear_combination (-of (val x.high) * of (val y.high)) * Fq2.root_sq

lemma value_q2MultFlag (x y : Q2 α) :
    (q2MultFlag k x y).value val = x.value val * y.value val * .root := by
  rw [← value_q2Mult hk]
  simp only [Q2.value, q2MultFlag, hk.add, hk.minus, hk.q, map_add, map_sub, map_zero]
  linear_combination (-of (val (q2Mult k x y).high)) * Fq2.root_sq

lemma value_q2Txx (x : Q2 α) : (q2Txx k x).value val = x.value val * .root := by
  simp only [Q2.value, q2Txx, hk.add, hk.minus, hk.q, map_add, map_sub, map_zero]
  linear_combination (-of (val x.high)) * Fq2.root_sq

lemma value_q4Add (x y : Q4 α) : (q4Add k x y).value val = x.value val + y.value val := by
  simp only [Q4.value, q4Add, value_q2Add hk, map_add]
  ring

lemma value_q4Minus (x y : Q4 α) : (q4Minus k x y).value val = x.value val - y.value val := by
  simp only [Q4.value, q4Minus, value_q2Minus hk, map_sub]
  ring

lemma value_q4Mult (x y : Q4 α) : (q4Mult k x y).value val = x.value val * y.value val := by
  -- the low part adds a twisted product, coordinate by coordinate
  have hlow (a b : Q2 α) : Q2.value val ⟨k.addMod a.high b.low,
      k.minusMod a.low (k.addMod b.high b.high)⟩ = a.value val + b.value val * .root := by
    simp only [Q2.value, hk.add, hk.minus, map_add, map_sub]
    linear_combination (-of (val b.high)) * Fq2.root_sq
  simp only [Q4.value, q4Mult, hlow, value_q2Add hk, value_q2Minus hk, value_q2Mult hk, map_add,
    map_sub, map_mul]
  linear_combination (-of (x.high.value val) * of (y.high.value val)) *
    root_pow (c := (root : Fq2 q))

lemma value_q4MultFlag (x y : Q4 α) :
    (q4MultFlag k x y).value val = x.value val * y.value val * .root := by
  simp only [Q4.value, q4MultFlag, value_q2Add hk, value_q2Mult hk, value_q2MultFlag hk, map_add,
    map_mul]
  linear_combination (-of (x.high.value val) * of (y.high.value val) *
    root - of (x.high.value val) * of (y.low.value val) -
    of (x.low.value val) * of (y.high.value val)) *
    root_pow (c := (root : Fq2 q))

lemma value_q4Txx (x : Q4 α) : (q4Txx k x).value val = x.value val * .root := by
  simp only [Q4.value, q4Txx, value_q2Txx hk, map_mul]
  linear_combination (-of (x.high.value val)) *
    root_pow (c := (root : Fq2 q))

lemma value_q12AddMod (x y : Q12 α) :
    (q12AddMod k x y).value val = x.value val + y.value val := by
  simp only [Q12.value, q12AddMod, value_q4Add hk, map_add]
  ring

lemma value_q12MultMod (x y : Q12 α) :
    (q12MultMod k x y).value val = x.value val * y.value val := by
  simp only [Q12.value, q12MultMod, value_q4Add hk, value_q4Mult hk, value_q4MultFlag hk, map_add,
    map_mul]
  linear_combination (-of (x.high.value val) * of (y.high.value val) *
    root - of (x.high.value val) * of (y.mid.value val) -
    of (x.mid.value val) * of (y.high.value val)) *
    root_pow (c := (root : Fq4 q))

lemma value_q12Adjoint (x : Q12 α) :
    x.value val * (q12Adjoint k x).value val = .of ((q12Norm k x).value val) := by
  simp only [Q12.value, q12Norm, q12Adjoint, value_q4Add hk, value_q4Minus hk, value_q4Mult hk,
    value_q4Txx hk, map_add, map_sub, map_mul]
  linear_combination ((of (x.mid.value val) ^ 2 - of (x.low.value val) *
    of (x.high.value val)) * (of (x.high.value val) * root +
    of (x.mid.value val)) + (of (x.high.value val) ^ 2 *
    of root - of (x.low.value val) * of (x.mid.value val)) *
    of (x.high.value val)) * root_pow (c := (root : Fq4 q))

end

section
variable {k : BaseField α} {val : α → ZMod q} (hk : k.Exact val)
include hk

lemma value_q2Reverse {x : Q2 α} (hx : val (q2Norm k x) ≠ 0) :
    x.value val * (q2Reverse k x).value val = 1 := by
  have hinv := congrArg (of (c := (-2 : ZMod q)) (n := 2)) (hk.reverse _ hx)
  rw [map_mul, map_one] at hinv
  nth_rewrite 2 [q2Norm] at hinv
  simp only [hk.add, hk.mult, map_add, map_mul] at hinv
  simp only [Q2.value, q2Reverse, hk.minus, hk.mult, hk.q, map_sub, map_mul, map_zero]
  linear_combination hinv - of (val x.high) ^ 2 *
    of (val (k.reverse (q2Norm k x))) * Fq2.root_sq

lemma value_q4Reverse {x : Q4 α} (hx : val (q2Norm k (q4Norm k x)) ≠ 0) :
    x.value val * (q4Reverse k x).value val = 1 := by
  have hinv := congrArg (of (c := (root : Fq2 q)) (n := 2))
    (value_q2Reverse hk hx)
  rw [map_mul, map_one] at hinv
  nth_rewrite 1 [q4Norm] at hinv
  simp only [value_q2Minus hk.toExactRing, value_q2Mult hk.toExactRing, value_q2Txx hk.toExactRing,
    map_sub, map_mul] at hinv
  simp only [Q4.value, q4Reverse, value_q2Mult hk.toExactRing, value_q2Negate hk.toExactRing,
    map_mul, map_neg]
  linear_combination hinv - of (x.high.value val) ^ 2 *
    of ((q2Reverse k (q4Norm k x)).value val) *
    root_pow (c := (root : Fq2 q))

lemma value_q12Reverse {x : Q12 α} (hx : val (q2Norm k (q4Norm k (q12Norm k x))) ≠ 0) :
    x.value val * (q12Reverse k x).value val = 1 := by
  have hinv := congrArg (of (c := (root : Fq4 q)) (n := 3))
    (value_q4Reverse hk hx)
  rw [map_mul, map_one, ← value_q12Adjoint hk.toExactRing] at hinv
  rw [← hinv]
  simp only [Q12.value, q12Reverse, value_q4Mult hk.toExactRing, map_mul]
  ring

end

variable {α : Type} {k : BaseField α} {q : ℕ} {val : α → ZMod q}

theorem qn_multiplies (hk : k.Exact val) :
    (∀ x y : Q2 α, (q2Mult k x y).value val = x.value val * y.value val ∧
      (q2MultFlag k x y).value val = x.value val * y.value val * .root) ∧
    (∀ x y : Q4 α, (q4Mult k x y).value val = x.value val * y.value val ∧
      (q4MultFlag k x y).value val = x.value val * y.value val * .root) ∧
    (∀ x y : Q12 α, (q12MultMod k x y).value val = x.value val * y.value val) ∧
    ∀ x y z : Q12 α, (q12MultMod k x y).residues val = (q12MultMod k y x).residues val ∧
      (q12MultMod k (q12MultMod k x y) z).residues val =
        (q12MultMod k x (q12MultMod k y z)).residues val ∧
      (q12MultMod k x (q12AddMod k y z)).residues val =
        (q12AddMod k (q12MultMod k x y) (q12MultMod k x z)).residues val := by
  refine ⟨fun x y => ⟨value_q2Mult hk.toExactRing x y, value_q2MultFlag hk.toExactRing x y⟩,
    fun x y => ⟨value_q4Mult hk.toExactRing x y, value_q4MultFlag hk.toExactRing x y⟩,
      value_q12MultMod hk.toExactRing,
    fun x y z => ⟨?_, ?_, ?_⟩⟩
  · apply Q12.residues_inj
    rw [value_q12MultMod hk.toExactRing, value_q12MultMod hk.toExactRing, mul_comm]
  · apply Q12.residues_inj
    simp only [value_q12MultMod hk.toExactRing, mul_assoc]
  · apply Q12.residues_inj
    simp only [value_q12MultMod hk.toExactRing, value_q12AddMod hk.toExactRing, mul_add]

def fiveField : BaseField (ZMod 5) where
  q := 0
  addMod := (· + ·)
  minusMod := (· - ·)
  multMod := (· * ·)
  reverse a := a ^ 3

lemma fiveField_exact : fiveField.Exact (id : ZMod 5 → ZMod 5) :=
  ⟨⟨rfl, fun _ _ => rfl, fun _ _ => rfl, fun _ _ => rfl⟩, by decide⟩

def fiveNum (a : ZMod 5) : Q12 (ZMod 5) :=
  ⟨⟨⟨a, 1⟩, ⟨2, a⟩⟩, ⟨⟨3, a⟩, ⟨a, 0⟩⟩, ⟨⟨a, 1⟩, ⟨4, a⟩⟩⟩

theorem qn_multiplies_five : (q12MultMod fiveField (fiveNum 1) (fiveNum 3)).residues id =
    (q12MultMod fiveField (fiveNum 3) (fiveNum 1)).residues id :=
  ((qn_multiplies fiveField_exact).2.2.2 (fiveNum 1) (fiveNum 3) (fiveNum 0)).1

theorem qn_reverses (hk : k.Exact val) :
    (∀ x : Q2 α, val (q2Norm k x) ≠ 0 → x.value val * (q2Reverse k x).value val = 1) ∧
    (∀ x : Q4 α, val (q2Norm k (q4Norm k x)) ≠ 0 →
      x.value val * (q4Reverse k x).value val = 1) ∧
    ∀ x : Q12 α, val (q2Norm k (q4Norm k (q12Norm k x))) ≠ 0 →
      x.value val * (q12Reverse k x).value val = 1 :=
  ⟨fun _ => value_q2Reverse hk, fun _ => value_q4Reverse hk, fun _ => value_q12Reverse hk⟩

theorem qn_reverses_five :
    (⟨1, 2⟩ : Q2 (ZMod 5)).value id * (q2Reverse fiveField ⟨1, 2⟩).value id = 1 :=
  (qn_reverses fiveField_exact).1 ⟨1, 2⟩ (by decide)

end Xiuos.Sm9
