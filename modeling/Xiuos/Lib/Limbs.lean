import Mathlib

/-! Little-endian vectors of 32-bit words and the natural numbers they denote. -/

namespace Xiuos.Lib.Limbs
open Bool List

def val : List UInt32 → Nat
  | [] => 0
  | w :: ws => w.toNat + 2 ^ 32 * val ws

@[simp] lemma val_nil : val [] = 0 := rfl

@[simp] lemma val_cons (w : UInt32) (ws : List UInt32) :
    val (w :: ws) = w.toNat + 2 ^ 32 * val ws := rfl

lemma pow_length_cons (w : UInt32) (ws : List UInt32) :
    2 ^ (32 * (w :: ws).length) = 2 ^ 32 * 2 ^ (32 * ws.length) := by
  rw [← pow_add, length_cons]
  congr 1
  omega

lemma val_lt (ws : List UInt32) : val ws < 2 ^ (32 * ws.length) := by
  induction ws with
  | nil => simp
  | cons w ws ih =>
    have hw := w.toNat_lt
    rw [val_cons, pow_length_cons]
    omega

@[simp] lemma val_append (xs ys : List UInt32) :
    val (xs ++ ys) = val xs + 2 ^ (32 * xs.length) * val ys := by
  induction xs with
  | nil => simp
  | cons x xs ih =>
    rw [cons_append, val_cons, val_cons, pow_length_cons, ih]
    ring

lemma val_take_of_lt {ws : List UInt32} {k : Nat} (h : val ws < 2 ^ (32 * k)) :
    val (ws.take k) = val ws := by
  rcases Nat.lt_or_ge ws.length k with hk | hk
  · rw [take_of_length_le hk.le]
  · have hs := val_append (ws.take k) (ws.drop k)
    rw [take_append_drop, length_take, Nat.min_eq_left hk] at hs
    have hd : val (ws.drop k) = 0 := by
      by_contra hne
      have := Nat.le_mul_of_pos_right (2 ^ (32 * k)) (Nat.pos_of_ne_zero hne)
      omega
    rw [hd, Nat.mul_zero, Nat.add_zero] at hs
    exact hs.symm

@[simp] lemma val_replicate_zero (n : Nat) : val (replicate n 0) = 0 := by
  induction n with
  | zero => rfl
  | succ n ih => simp [replicate_succ, ih]

variable {xs ys : List UInt32}

lemma val_injective (hl : xs.length = ys.length) (h : val xs = val ys) : xs = ys := by
  induction xs generalizing ys with
  | nil => simpa using hl.symm
  | cons x xs ih =>
    cases ys with
    | nil => simp at hl
    | cons y ys =>
      simp only [val_cons] at h
      have hx := x.toNat_lt
      have hy := y.toNat_lt
      have hxy : x.toNat = y.toNat := by omega
      rw [UInt32.toNat_inj.mp hxy, ih (by simpa using hl) (by omega)]

/-- Low-to-high pass over two word vectors that hands a flag from word to word. -/
def ripple (step : UInt32 → UInt32 → Bool → UInt32 × Bool) :
    List UInt32 → List UInt32 → Bool → List UInt32 × Bool
  | x :: xs, y :: ys, c =>
    ((step x y c).1 :: (ripple step xs ys (step x y c).2).1,
      (ripple step xs ys (step x y c).2).2)
  | _, _, c => ([], c)

variable (step : UInt32 → UInt32 → Bool → UInt32 × Bool)

def IsCarry (step : UInt32 → UInt32 → Bool → UInt32 × Bool) : Prop :=
  ∀ x y c, (step x y c).1.toNat + 2 ^ 32 * (step x y c).2.toNat =
    x.toNat + y.toNat + c.toNat

def IsBorrow (step : UInt32 → UInt32 → Bool → UInt32 × Bool) : Prop :=
  ∀ x y c, (step x y c).1.toNat + y.toNat + c.toNat =
    x.toNat + 2 ^ 32 * (step x y c).2.toNat

lemma ripple_length (step) (hl : xs.length = ys.length) (c : Bool) :
    (ripple step xs ys c).1.length = xs.length := by
  induction xs generalizing ys c with
  | nil => cases ys <;> simp_all [ripple]
  | cons x xs ih =>
    cases ys with
    | nil => simp at hl
    | cons y ys => simp [ripple, ih (by simpa using hl : xs.length = ys.length)]

lemma ripple_carry {step} (hs : IsCarry step) (hl : xs.length = ys.length) (c : Bool) :
    val (ripple step xs ys c).1 + 2 ^ (32 * xs.length) * (ripple step xs ys c).2.toNat =
      val xs + val ys + c.toNat := by
  induction xs generalizing ys c with
  | nil => cases ys <;> simp_all [ripple]
  | cons x xs ih =>
    cases ys with
    | nil => simp at hl
    | cons y ys =>
      have hstep := hs x y c
      have hrest := ih (by simpa using hl : xs.length = ys.length) (step x y c).2
      simp only [pow_length_cons, ripple, val_cons, mul_assoc]
      omega

lemma ripple_borrow {step} (hs : IsBorrow step) (hl : xs.length = ys.length) (c : Bool) :
    val (ripple step xs ys c).1 + val ys + c.toNat =
      val xs + 2 ^ (32 * xs.length) * (ripple step xs ys c).2.toNat := by
  induction xs generalizing ys c with
  | nil => cases ys <;> simp_all [ripple]
  | cons x xs ih =>
    cases ys with
    | nil => simp at hl
    | cons y ys =>
      have hstep := hs x y c
      have hrest := ih (by simpa using hl : xs.length = ys.length) (step x y c).2
      simp only [pow_length_cons, ripple, val_cons, mul_assoc]
      omega

def geDown : List UInt32 → List UInt32 → Bool
  | [x], [y] => x ≥ y
  | x :: xs, y :: ys => if x > y then true else if x < y then false else geDown xs ys
  | _, _ => true

def eqDown : List UInt32 → List UInt32 → Bool
  | [x], [y] => x == y
  | x :: xs, y :: ys => if x != y then false else eqDown xs ys
  | _, _ => true

lemma geDown_cons (x y : UInt32) (xs ys : List UInt32) :
    geDown (x :: xs) (y :: ys) = if x > y then true else if x < y then false else geDown xs ys := by
  cases xs <;> cases ys <;> simp only [geDown]
  simp only [ge_iff_le, gt_iff_lt, UInt32.lt_iff_toNat_lt, UInt32.le_iff_toNat_le]
  split
  · simp; omega
  · split <;> simp <;> omega

lemma geDown_eq (hl : xs.length = ys.length) :
    geDown xs ys = decide (val ys.reverse ≤ val xs.reverse) := by
  induction xs generalizing ys with
  | nil => cases ys <;> simp_all [geDown]
  | cons x xs ih =>
    cases ys with
    | nil => simp at hl
    | cons y ys =>
      have hl' : xs.length = ys.length := by simpa using hl
      have hx := val_lt xs.reverse
      have hy := val_lt ys.reverse
      rw [geDown_cons, ih hl']
      simp only [reverse_cons, val_append, val_cons, val_nil, length_reverse,
        UInt32.lt_iff_toNat_lt, gt_iff_lt] at *
      rw [hl'] at hx ⊢
      generalize 2 ^ (32 * ys.length) = B at *
      split
      · have : B * (y.toNat + 1) ≤ B * x.toNat := Nat.mul_le_mul_left B (by omega)
        simp only [true_eq, decide_eq_true_eq]
        nlinarith
      · split
        · have : B * (x.toNat + 1) ≤ B * y.toNat := Nat.mul_le_mul_left B (by omega)
          simp only [false_eq, decide_eq_false_iff_not, not_le]
          nlinarith
        · have hxy : x.toNat = y.toNat := by omega
          simp [hxy]

lemma eqDown_eq (hl : xs.length = ys.length) : eqDown xs ys = decide (xs = ys) := by
  induction xs generalizing ys with
  | nil => cases ys <;> simp_all [eqDown]
  | cons x xs ih =>
    cases ys with
    | nil => simp at hl
    | cons y ys =>
      have hl' : xs.length = ys.length := by simpa using hl
      cases xs <;> cases ys <;> simp_all [eqDown, beq_eq_decide_eq]

variable (b : List UInt8)

def bigEndian (b : List UInt8) : Nat := b.foldl (fun n x => 2 ^ 8 * n + x.toNat) 0

lemma foldl_bigEndian (n : Nat) :
    b.foldl (fun n x => 2 ^ 8 * n + x.toNat) n = 2 ^ (8 * b.length) * n + bigEndian b := by
  induction b generalizing n with
  | nil => simp [bigEndian]
  | cons x b ih =>
    rw [bigEndian, foldl_cons, foldl_cons, ih, ih (2 ^ 8 * 0 + x.toNat), length_cons,
      Nat.mul_succ, pow_add]
    ring

lemma bigEndian_append (xs ys : List UInt8) :
    bigEndian (xs ++ ys) = 2 ^ (8 * ys.length) * bigEndian xs + bigEndian ys := by
  rw [bigEndian, foldl_append, foldl_bigEndian]
  rfl

lemma bigEndian_lt : bigEndian b < 2 ^ (8 * b.length) := by
  induction b using reverseRecOn with
  | nil => simp [bigEndian]
  | append_singleton b x ih =>
    have hx := x.toNat_lt
    rw [bigEndian_append, length_append, length_singleton, Nat.mul_add, pow_add]
    simp only [bigEndian, foldl_cons, foldl_nil] at ih ⊢
    omega

end Xiuos.Lib.Limbs
