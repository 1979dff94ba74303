import Mathlib

/-! Word-serial Montgomery multiplication over a radix `B`, on natural numbers. -/

namespace Xiuos.Lib.Montgomery
open Nat
variable {B p fill a : Nat}

def round (B p fill a t x : Nat) : Nat :=
  (t + a * x + p * (fill * (t + a * x) % B)) / B

lemma dvd_add_fill (hfill : (fill * p + 1) % B = 0) (s : Nat) : B ∣ s + p * (fill * s % B) := by
  have h : s + p * (fill * s % B) ≡ (fill * p + 1) * s [MOD B] := by
    calc s + p * (fill * s % B) ≡ s + p * (fill * s) [MOD B] :=
          ((mod_modEq _ _).mul_left p).add_left s
      _ = (fill * p + 1) * s := by ring
  exact (modEq_zero_iff_dvd.mp
    (h.trans ((modEq_zero_iff_dvd.mpr (dvd_of_mod_eq_zero hfill)).mul_right s |>.trans
      (by rw [Nat.zero_mul]))))

lemma mul_round (hfill : (fill * p + 1) % B = 0) (t x : Nat) :
    B * round B p fill a t x = t + a * x + p * (fill * (t + a * x) % B) :=
  Nat.mul_div_cancel' (dvd_add_fill hfill _)

lemma sum_lt (fill : Nat) {t x : Nat} (hB : 0 < B) (ht : t < 2 * p) (ha : a < p) (hx : x < B) :
    t + a * x + p * (fill * (t + a * x) % B) < 2 * B * p := by
  have hm : p * (fill * (t + a * x) % B) + p ≤ p * B := by
    rw [← mul_succ]
    exact Nat.mul_le_mul_left p (mod_lt _ hB)
  have hax : a * x + x ≤ p * x := by
    rw [← succ_mul]
    exact Nat.mul_le_mul_right x ha
  have hpx : p * x + p ≤ p * B := by
    rw [← mul_succ]
    exact Nat.mul_le_mul_left p hx
  calc t + a * x + p * (fill * (t + a * x) % B) < p * B + p * B := by omega
    _ = 2 * B * p := by ring

lemma round_lt (fill : Nat) {t x : Nat} (hB : 0 < B) (ht : t < 2 * p) (ha : a < p) (hx : x < B) :
    round B p fill a t x < 2 * p := by
  rw [round, Nat.div_lt_iff_lt_mul hB]
  calc t + a * x + p * (fill * (t + a * x) % B) < 2 * B * p := sum_lt fill hB ht ha hx
    _ = 2 * p * B := by ring

lemma foldl_round_lt (fill : Nat) {xs : List Nat} {t : Nat} (hB : 0 < B) (ht : t < 2 * p)
    (ha : a < p) (hx : ∀ x ∈ xs, x < B) : xs.foldl (round B p fill a) t < 2 * p := by
  induction xs generalizing t with
  | nil => exact ht
  | cons x xs ih =>
    rw [List.forall_mem_cons] at hx
    exact ih (round_lt fill hB ht ha hx.1) hx.2

lemma foldl_round_modEq (hfill : (fill * p + 1) % B = 0) (xs : List Nat) (t : Nat) :
    xs.foldl (round B p fill a) t * B ^ xs.length ≡ t + a * Nat.ofDigits B xs [MOD p] := by
  induction xs generalizing t with
  | nil => simp [Nat.ModEq.refl]
  | cons x xs ih =>
    have hr : B * round B p fill a t x ≡ t + a * x [MOD p] := by
      rw [mul_round hfill]
      exact add_modulus_mul_modEq_iff.mpr (Nat.ModEq.refl _)
    calc xs.foldl (round B p fill a) (round B p fill a t x) * B ^ (xs.length + 1)
        = xs.foldl (round B p fill a) (round B p fill a t x) * B ^ xs.length * B := by ring
      _ ≡ (round B p fill a t x + a * Nat.ofDigits B xs) * B [MOD p] := (ih _).mul_right B
      _ = B * round B p fill a t x + a * (B * Nat.ofDigits B xs) := by ring
      _ ≡ t + a * x + a * (B * Nat.ofDigits B xs) [MOD p] := hr.add_right _
      _ = t + a * Nat.ofDigits B (x :: xs) := by simp [ofDigits_cons]; ring

lemma foldl_round_mul (hfill : (fill * p + 1) % B = 0) (xs : List Nat) :
    xs.foldl (round B p fill a) 0 * B ^ xs.length ≡ a * Nat.ofDigits B xs [MOD p] := by
  simpa using foldl_round_modEq (a := a) hfill xs 0

lemma eq_mul_mod {R c m r b : Nat} (hR : R.Coprime p) (hm : m * R ≡ a * b [MOD p])
    (hc : c ≡ R * R [MOD p]) (hr : r * R ≡ m * c [MOD p]) (hlt : r < p) : r = a * b % p := by
  have h : r ≡ a * b [MOD p] := by
    apply Nat.ModEq.cancel_right_of_coprime (c := R) (by rwa [coprime_comm] at hR)
    calc r * R ≡ m * c [MOD p] := hr
      _ ≡ m * (R * R) [MOD p] := hc.mul_left m
      _ = m * R * R := by ring
      _ ≡ a * b * R [MOD p] := hm.mul_right R
  rw [← h, mod_eq_of_lt hlt]

end Xiuos.Lib.Montgomery
