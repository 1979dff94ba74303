import Mathlib

/-! Modular inverse by the binary Euclidean algorithm, on natural numbers. -/

namespace Xiuos.Lib.BinaryInverse
open Nat

structure State where
  x1 : Nat
  y1 : Nat
  x2 : Nat
  y2 : Nat

def halve (N x y : Nat) : Nat × Nat :=
  if x % 2 = 0 then (x / 2, if y % 2 = 0 then y / 2 else (y + N) / 2) else (x, y)

def subMod (N y1 y2 : Nat) : Nat := if y2 ≤ y1 then y1 - y2 else N + y1 - y2

def step (N : Nat) (s : State) : Nat ⊕ State :=
  let (x1, y1) := halve N s.x1 s.y1
  if x1 = 1 then .inl y1
  else
    let (x2, y2) := halve N s.x2 s.y2
    if x2 = 1 then .inl y2
    else if x2 ≤ x1 then
      if x1 - x2 = 1 then .inl (subMod N y1 y2) else .inr ⟨x1 - x2, subMod N y1 y2, x2, y2⟩
    else
      if x2 - x1 = 1 then .inl (subMod N y2 y1) else .inr ⟨x1, y1, x2 - x1, subMod N y2 y1⟩

def loop (N : Nat) : Nat → State → Option Nat
  | 0, _ => none
  | fuel + 1, s =>
    match step N s with
    | .inl r => some r
    | .inr s => loop N fuel s

/-- `y` is a reduced cofactor of `x`: a multiplier that takes `a` to `x` modulo `N`. -/
structure Cofactor (N a x y : Nat) : Prop where
  lt : y < N
  eq : (a : ZMod N) * y = x

structure Inv (N a : Nat) (s : State) : Prop where
  cofactor1 : Cofactor N a s.x1 s.y1
  cofactor2 : Cofactor N a s.x2 s.y2
  pos1 : 0 < s.x1
  pos2 : 0 < s.x2
  coprime : s.x1.Coprime s.x2

lemma Inv.init {N a : Nat} (hN : 1 < N) (ha : 0 < a) (hc : a.Coprime N) :
    Inv N a ⟨a, 1, N, 0⟩ where
  cofactor1 := ⟨hN, by simp⟩
  cofactor2 := ⟨zero_lt_of_lt hN, by simp⟩
  pos1 := ha
  pos2 := zero_lt_of_lt hN
  coprime := hc

section
variable {N a x y : Nat}

lemma isUnit_two (hN : N % 2 = 1) : IsUnit (2 : ZMod N) := by
  have h := (ZMod.isUnit_iff_coprime 2 N).mpr
    (coprime_two_left.mpr (odd_iff.mpr hN))
  exact_mod_cast h

lemma halve_fst_le : (halve N x y).1 ≤ x := by
  rw [halve]
  split
  · exact Nat.div_le_self x 2
  · exact le_refl x

lemma halve_fst_pos (hx : 0 < x) : 0 < (halve N x y).1 := by
  rw [halve]
  split
  · simp only
    omega
  · exact hx

lemma halve_fst_dvd : (halve N x y).1 ∣ x := by
  rw [halve]
  split
  · rename_i h
    exact div_dvd_of_dvd (dvd_of_mod_eq_zero h)
  · exact dvd_refl x

lemma halve_snd_lt (hy : y < N) : (halve N x y).2 < N := by
  rw [halve]
  split
  · simp only
    split <;> omega
  · exact hy

lemma Cofactor.halve (hN : N % 2 = 1) (h : Cofactor N a x y) :
    Cofactor N a (halve N x y).1 (halve N x y).2 := by
  refine ⟨halve_snd_lt h.lt, ?_⟩
  rw [BinaryInverse.halve]
  split
  · rename_i hx
    apply (isUnit_two hN).mul_left_cancel
    have hx2 : (2 : ZMod N) * ((x / 2 : Nat) : ZMod N) = x := by
      exact_mod_cast congrArg (Nat.cast : Nat → ZMod N) (by omega : 2 * (x / 2) = x)
    have hy2 : (2 : ZMod N) * ((if y % 2 = 0 then y / 2 else (y + N) / 2 : Nat) : ZMod N) = y := by
      split
      · exact_mod_cast congrArg (Nat.cast : Nat → ZMod N) (by omega : 2 * (y / 2) = y)
      · have hs : ((2 * ((y + N) / 2) : Nat) : ZMod N) = ((y + N : Nat) : ZMod N) :=
          congrArg _ (by omega)
        simpa using hs
    rw [hx2, mul_left_comm, hy2, h.eq]
  · exact h.eq

lemma subMod_lt {y1 : Nat} (h1 : y1 < N) (y2 : Nat) : subMod N y1 y2 < N := by
  rw [subMod]
  split <;> omega

lemma Cofactor.sub {x1 y1 x2 y2 : Nat} (h1 : Cofactor N a x1 y1) (h2 : Cofactor N a x2 y2)
    (hle : x2 ≤ x1) : Cofactor N a (x1 - x2) (subMod N y1 y2) := by
  have hs : ((subMod N y1 y2 : Nat) : ZMod N) = y1 - y2 := by
    have := h2.lt
    rw [subMod]
    split
    · rw [cast_sub (by omega)]
    · rw [cast_sub (by omega)]
      simp
  refine ⟨subMod_lt h1.lt y2, ?_⟩
  rw [hs, mul_sub, h1.eq, h2.eq, cast_sub hle]

lemma Cofactor.mul_mod_eq_one (hN : 1 < N) (h : Cofactor N a 1 y) : y < N ∧ a * y % N = 1 := by
  refine ⟨h.lt, ?_⟩
  have he : ((a * y : Nat) : ZMod N) = (1 : Nat) := by
    rw [cast_mul]
    exact h.eq
  rw [(ZMod.natCast_eq_natCast_iff' _ _ N).mp he, mod_eq_of_lt hN]

end

variable {s : State}

lemma step_spec {N a : Nat} (hodd : N % 2 = 1) (hN : 1 < N) (h : Inv N a s) :
    (∃ r, step N s = .inl r ∧ r < N ∧ a * r % N = 1) ∨
      ∃ s', step N s = .inr s' ∧ Inv N a s' ∧ s'.x1 + s'.x2 < s.x1 + s.x2 := by
  have hc1 := h.cofactor1.halve hodd
  have hc2 := h.cofactor2.halve hodd
  have hp1 := halve_fst_pos (N := N) (y := s.y1) h.pos1
  have hp2 := halve_fst_pos (N := N) (y := s.y2) h.pos2
  have hle1 := halve_fst_le (N := N) (x := s.x1) (y := s.y1)
  have hle2 := halve_fst_le (N := N) (x := s.x2) (y := s.y2)
  have hcop := Nat.Coprime.of_dvd (halve_fst_dvd (N := N) (y := s.y1))
    (halve_fst_dvd (N := N) (y := s.y2)) h.coprime
  rw [step]
  generalize halve N s.x1 s.y1 = h1 at *
  generalize halve N s.x2 s.y2 = h2 at *
  obtain ⟨x1, y1⟩ := h1
  obtain ⟨x2, y2⟩ := h2
  simp only at hc1 hc2 hp1 hp2 hle1 hle2 hcop ⊢
  by_cases hone1 : x1 = 1
  · subst hone1
    exact .inl ⟨y1, by simp, hc1.mul_mod_eq_one hN⟩
  by_cases hone2 : x2 = 1
  · subst hone2
    exact .inl ⟨y2, by simp [hone1], hc2.mul_mod_eq_one hN⟩
  have hne : x1 ≠ x2 := by
    rintro rfl
    exact hone1 ((coprime_self x1).mp hcop)
  simp only [hone1, hone2, if_false]
  by_cases hge : x2 ≤ x1
  · have hsub := hc1.sub hc2 hge
    simp only [hge, if_true]
    by_cases hd : x1 - x2 = 1
    · rw [hd] at hsub
      exact .inl ⟨_, by simp [hd], hsub.mul_mod_eq_one hN⟩
    · refine .inr ⟨⟨x1 - x2, subMod N y1 y2, x2, y2⟩, by simp only [hd, if_false],
        ⟨hsub, hc2, ?_, hp2, ?_⟩, ?_⟩
      · simp only
        omega
      · exact (coprime_sub_self_left hge).mpr hcop
      · simp only
        omega
  · have hle : x1 ≤ x2 := by omega
    have hsub := hc2.sub hc1 hle
    simp only [hge, if_false]
    by_cases hd : x2 - x1 = 1
    · rw [hd] at hsub
      exact .inl ⟨_, by simp [hd], hsub.mul_mod_eq_one hN⟩
    · refine .inr ⟨⟨x1, y1, x2 - x1, subMod N y2 y1⟩, by simp only [hd, if_false],
        ⟨hc1, hsub, hp1, ?_, ?_⟩, ?_⟩
      · simp only
        omega
      · exact (coprime_sub_self_right hle).mpr hcop
      · simp only
        omega

lemma loop_spec {N a : Nat} (hodd : N % 2 = 1) (hN : 1 < N) {fuel : Nat} (h : Inv N a s)
    (hf : s.x1 + s.x2 < fuel) : ∃ r, loop N fuel s = some r ∧ r < N ∧ a * r % N = 1 := by
  induction fuel generalizing s with
  | zero => omega
  | succ fuel ih =>
    rw [loop]
    rcases step_spec hodd hN h with ⟨r, hs, hr⟩ | ⟨s', hs, hinv, hlt⟩
    · rw [hs]
      exact ⟨r, rfl, hr⟩
    · rw [hs]
      exact ih hinv (by omega)

lemma loop_mono {N r fuel fuel' : Nat} (hle : fuel ≤ fuel') (h : loop N fuel s = some r) :
    loop N fuel' s = some r := by
  induction fuel generalizing s fuel' with
  | zero => simp [loop] at h
  | succ fuel ih =>
    obtain ⟨k, rfl⟩ := Nat.exists_eq_add_of_le' hle
    rw [loop] at h
    rw [← Nat.add_assoc, loop]
    cases hs : step N s with
    | inl r' =>
      rw [hs] at h
      exact h
    | inr s' =>
      rw [hs] at h
      exact ih (Nat.le_add_left fuel k) h

end Xiuos.Lib.BinaryInverse
