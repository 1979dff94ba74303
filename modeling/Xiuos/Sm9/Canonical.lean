import Xiuos.Sm9.Frobenius

/-! Subtraction modulo `p`, and the coordinates of `qn.c` that stay below `q`. -/

namespace Xiuos.Sm9
open Lib Big8w

lemma big8wMinusMod_reduced {a b p : Big8w} (ha : a.val < p.val) (hb : b.val < p.val) :
    ∃ r, big8wMinusMod a b p = some r ∧ (r.val : ℤ) = ((a.val : ℤ) - b.val) % p.val ∧
      r.val < p.val := by
  have hp := p.val_lt
  by_cases h : b.val ≤ a.val
  · have hv : (Big8w.ofNat (a.val - b.val)).val = a.val - b.val := val_ofNat (by omega)
    refine ⟨_, big8wMinusMod_of_le p h, ?_, by omega⟩
    rw [Int.emod_eq_of_lt (by omega) (by omega)]
    omega
  · have hv : (Big8w.ofNat (p.val + a.val - b.val)).val = p.val + a.val - b.val :=
      val_ofNat (by omega)
    refine ⟨_, big8wMinusMod_of_lt (by omega) (by omega), ?_, by omega⟩
    rw [← Int.add_emod_right, Int.emod_eq_of_lt (by omega) (by omega)]
    omega

lemma big8wMinusMod_modulus {b p : Big8w} (hb : b.val ≤ p.val) :
    ∃ r, big8wMinusMod p b p = some r ∧ r.val = p.val - b.val :=
  ⟨_, big8wMinusMod_of_le p hb, val_ofNat (by have := p.val_lt; omega)⟩

theorem big8wMinusMod_exact (p : Big8w) :
    (∀ a b : Big8w, a.val < p.val → b.val < p.val → ∃ r, big8wMinusMod a b p = some r ∧
      (r.val : ℤ) = ((a.val : ℤ) - b.val) % p.val ∧ r.val < p.val) ∧
    ∀ b : Big8w, 0 < b.val → b.val < p.val →
      ∃ r, big8wMinusMod p b p = some r ∧ r.val = p.val - b.val :=
  ⟨fun _ _ => big8wMinusMod_reduced, fun _ _ hb => big8wMinusMod_modulus hb.le⟩

theorem big8wMinusMod_exact_one : ∃ r, big8wMinusMod .zero .one sm9Q = some r ∧
    (r.val : ℤ) = ((Big8w.zero.val : ℤ) - Big8w.one.val) % sm9Q.val ∧ r.val < sm9Q.val :=
  (big8wMinusMod_exact sm9Q).1 .zero .one (by decide +kernel) (by decide +kernel)

section
variable {α : Type} (k : BaseField α)

def q4Negate (num : Q4 α) : Q4 α where
  high := q2Negate k num.high
  low := q2Negate k num.low

end

def Q2.All (P : Big8w → Prop) (num : Q2) : Prop := P num.high ∧ P num.low

def Q4.All (P : Big8w → Prop) (num : Q4) : Prop := num.high.All P ∧ num.low.All P

def Q12.All (P : Big8w → Prop) (num : Q12) : Prop := num.high.All P ∧ num.mid.All P ∧ num.low.All P

def Big8w.Canonical (a : Big8w) : Prop := a.val < sm9Q.val

/-- The operations are exact on numbers below `q`, and are those of `bignum.c` where `qn.c` passes
`q` itself. -/
structure BaseField.Documented (k : BaseField Big8w) : Prop where
  q : k.q = sm9Q
  add (a b : Big8w) : a.Canonical → b.Canonical →
    (k.addMod a b).val = (a.val + b.val) % sm9Q.val
  mult (a b : Big8w) : a.Canonical → b.Canonical →
    (k.multMod a b).val = a.val * b.val % sm9Q.val
  minus (a b : Big8w) : a.Canonical → b.Canonical →
    ((k.minusMod a b).val : ℤ) = ((a.val : ℤ) - b.val) % sm9Q.val
  minus_q (b : Big8w) : b.Canonical → big8wMinusMod sm9Q b sm9Q = some (k.minusMod sm9Q b)
  add_q : big8wAddMod sm9Q sm9Q sm9Q = some (k.addMod sm9Q sm9Q)

lemma sm9Q_pos : 0 < sm9Q.val := by decide +kernel

lemma canonical_of_mod {a : Big8w} {n : ℕ} (h : a.val = n % sm9Q.val) :
    a.Canonical ∧ a.residue = n := by
  refine ⟨h.trans_lt (Nat.mod_lt _ sm9Q_pos), ?_⟩
  rw [residue, h, ZMod.natCast_mod]

lemma residue_injOn {a b : Big8w} (ha : a.Canonical) (hb : b.Canonical)
    (h : a.residue = b.residue) : a = b := by
  have hval := residue_eq_iff.mp h
  rw [Nat.mod_eq_of_lt ha, Nat.mod_eq_of_lt hb] at hval
  exact val_injective hval

variable {x y : Q2}

namespace BaseField.Documented
variable {k : BaseField Big8w} (hk : k.Documented) {a b : Big8w}
include hk

lemma add_canonical (ha : a.Canonical) (hb : b.Canonical) :
    (k.addMod a b).Canonical ∧ (k.addMod a b).residue = a.residue + b.residue := by
  obtain ⟨hc, hr⟩ := canonical_of_mod (hk.add a b ha hb)
  exact ⟨hc, hr.trans (Nat.cast_add ..)⟩

lemma mult_canonical (ha : a.Canonical) (hb : b.Canonical) :
    (k.multMod a b).Canonical ∧ (k.multMod a b).residue = a.residue * b.residue := by
  obtain ⟨hc, hr⟩ := canonical_of_mod (hk.mult a b ha hb)
  exact ⟨hc, hr.trans (Nat.cast_mul ..)⟩

lemma minus_canonical (ha : a.Canonical) (hb : b.Canonical) :
    (k.minusMod a b).Canonical ∧ (k.minusMod a b).residue = a.residue - b.residue := by
  have h := hk.minus a b ha hb
  have hlt := Int.emod_lt_of_pos ((a.val : ℤ) - b.val) (Int.natCast_pos.mpr sm9Q_pos)
  refine ⟨Int.ofNat_lt.mp (h ▸ hlt), ?_⟩
  have hcast := congrArg (Int.cast : ℤ → ZMod sm9Q.val) h
  simp only [ZMod.intCast_mod, Int.cast_sub, Int.cast_natCast] at hcast
  exact hcast

lemma minus_q_val (hb : b.Canonical) : (k.minusMod k.q b).val = sm9Q.val - b.val := by
  obtain ⟨r, hr, hval⟩ := big8wMinusMod_modulus hb.le
  rw [hk.q, ← Option.some.inj (hr.symm.trans (hk.minus_q b hb)), hval]

lemma minus_q_canonical_iff (hb : b.Canonical) : (k.minusMod k.q b).Canonical ↔ b.val ≠ 0 := by
  have := sm9Q_pos
  rw [Big8w.Canonical, hk.minus_q_val hb]
  omega

lemma minus_q_twice (hb : b.Canonical) :
    (k.addMod (k.minusMod k.q b) (k.minusMod k.q b)).Canonical := by
  by_cases h : b.val = 0
  · have hq : k.minusMod k.q b = sm9Q := val_injective (by rw [hk.minus_q_val hb, h]; rfl)
    have hzero : big8wAddMod sm9Q sm9Q sm9Q = some .zero := by decide +kernel
    rw [hq, ← Option.some.inj (hzero.symm.trans hk.add_q)]
    exact sm9Q_pos
  · have hc := (hk.minus_q_canonical_iff hb).mpr h
    exact (hk.add_canonical hc hc).1

lemma q2Mult_canonical (hx : x.All Canonical) (hy : y.All Canonical) :
    (q2Mult k x y).All Canonical ∧ (q2Mult k x y).high.residue =
      x.high.residue * y.low.residue + x.low.residue * y.high.residue := by
  obtain ⟨h00, v00⟩ := hk.mult_canonical hx.2 hy.2
  obtain ⟨h11, v11⟩ := hk.mult_canonical hx.1 hy.1
  obtain ⟨hxs, vxs⟩ := hk.add_canonical hx.1 hx.2
  obtain ⟨hys, vys⟩ := hk.add_canonical hy.1 hy.2
  obtain ⟨hp, vp⟩ := hk.mult_canonical hxs hys
  obtain ⟨hs, vs⟩ := hk.add_canonical h00 h11
  obtain ⟨hhigh, vhigh⟩ := hk.minus_canonical hp hs
  refine ⟨⟨hhigh, (hk.minus_canonical h00 (hk.add_canonical h11 h11).1).1⟩, ?_⟩
  rw [q2Mult, vhigh, vp, vs, vxs, vys, v00, v11]
  ring

lemma q2Negate_canonical_iff {x : Q2} (hx : x.All Canonical) :
    (q2Negate k x).All Canonical ↔ x.All (·.val ≠ 0) :=
  and_congr (hk.minus_q_canonical_iff hx.1) (hk.minus_q_canonical_iff hx.2)

lemma q2MultFlag_canonical_iff (hx : x.All Canonical) (hy : y.All Canonical) :
    (q2MultFlag k x y).All Canonical ↔
      (x.high.val * y.low.val + x.low.val * y.high.val) % sm9Q.val ≠ 0 := by
  obtain ⟨⟨hhigh, hlow⟩, hvalue⟩ := hk.q2Mult_canonical hx hy
  have hodd : Nat.Coprime sm9Q.val 2 := by decide +kernel
  have hzero : sm9Q.val ∣ (q2Mult k x y).high.val ↔
      sm9Q.val ∣ x.high.val * y.low.val + x.low.val * y.high.val := by
    rw [← ZMod.natCast_eq_zero_iff, ← ZMod.natCast_eq_zero_iff, Nat.cast_add, Nat.cast_mul,
      Nat.cast_mul]
    exact Eq.congr_left hvalue
  rw [Q2.All, q2MultFlag, and_iff_right hlow,
    hk.minus_q_canonical_iff (hk.add_canonical hhigh hhigh).1, hk.add _ _ hhigh hhigh, ← two_mul,
    ne_eq, ne_eq, ← Nat.dvd_iff_mod_eq_zero, hodd.dvd_mul_left, hzero, Nat.dvd_iff_mod_eq_zero]

lemma q12Scale_canonical {c : Fin 12 → Big8w} (hc : ∀ i, (c i).Canonical) {f : Q12}
    (hf : f.All Canonical) : (q12Scale k c f).All Canonical := by
  have hm {a : Big8w} (ha : a.Canonical) (i : Fin 12) := (hk.mult_canonical ha (hc i)).1
  obtain ⟨⟨⟨h11, h10⟩, h9, h8⟩, ⟨⟨h7, h6⟩, h5, h4⟩, ⟨h3, h2⟩, h1, h0⟩ := hf
  exact ⟨⟨⟨hm h11 _, hm h10 _⟩, hm h9 _, hm h8 _⟩, ⟨⟨hm h7 _, hm h6 _⟩, hm h5 _, hm h4 _⟩,
    ⟨hm h3 _, hm h2 _⟩, hm h1 _, hm h0 _⟩

end BaseField.Documented

lemma Q2.eq_of_residues (hx : x.All Canonical) (hy : y.All Canonical)
    (h : x.residues residue = y.residues residue) : x = y := by
  obtain ⟨hhigh, hlow⟩ := Q2.mk.inj h
  exact congrArg₂ Q2.mk (residue_injOn hx.1 hy.1 hhigh) (residue_injOn hx.2 hy.2 hlow)

lemma Q4.eq_of_residues {x y : Q4} (hx : x.All Canonical) (hy : y.All Canonical)
    (h : x.residues residue = y.residues residue) : x = y := by
  obtain ⟨hhigh, hlow⟩ := Q4.mk.inj h
  exact congrArg₂ Q4.mk (Q2.eq_of_residues hx.1 hy.1 hhigh) (Q2.eq_of_residues hx.2 hy.2 hlow)

lemma Q12.eq_of_residues {x y : Q12} (hx : x.All Canonical) (hy : y.All Canonical)
    (h : x.residues residue = y.residues residue) : x = y := by
  obtain ⟨hhigh, hmid, hlow⟩ := Q12.mk.inj h
  exact Q12.mk.injEq .. ▸ ⟨Q4.eq_of_residues hx.1 hy.1 hhigh,
    Q4.eq_of_residues hx.2.1 hy.2.1 hmid, Q4.eq_of_residues hx.2.2 hy.2.2 hlow⟩

def documentedField : BaseField Big8w :=
  { residueField with minusMod := fun a b => (big8wMinusMod a b sm9Q).getD .zero }

lemma documentedField_documented : documentedField.Documented where
  q := rfl
  add a b _ _ := val_ofNat ((Nat.mod_lt _ sm9Q_pos).trans sm9Q.val_lt)
  mult a b _ _ := val_ofNat ((Nat.mod_lt _ sm9Q_pos).trans sm9Q.val_lt)
  minus a b ha hb := by
    obtain ⟨r, hr, hval, -⟩ := big8wMinusMod_reduced ha hb
    simp only [documentedField, hr]
    exact hval
  minus_q b hb := by
    obtain ⟨r, hr, -⟩ := big8wMinusMod_modulus hb.le
    simp only [documentedField, hr]
    rfl
  add_q := by decide +kernel

theorem canonical_iff {k : BaseField Big8w} (hk : k.Documented) :
    (∀ x : Q2, x.All Canonical →
      ((q2Negate k x).All Canonical ↔ x.All (·.val ≠ 0)) ∧
      (q2Txx k x).All Canonical) ∧
    (∀ x y : Q2, x.All Canonical → y.All Canonical →
      ((q2MultFlag k x y).All Canonical ↔
        (x.high.val * y.low.val + x.low.val * y.high.val) % sm9Q.val ≠ 0)) ∧
    (∀ x : Q4, x.All Canonical →
      ((q4Negate k x).All Canonical ↔ x.All (·.val ≠ 0))) ∧
    (∀ f : Q12, f.All Canonical →
      (sm9Frobenius k f 1).All Canonical ∧ (sm9Frobenius k f 2).All Canonical ∧
      ((sm9Frobenius k f 6).All Canonical ↔ f.high.high.All (·.val ≠ 0) ∧
        f.mid.low.All (·.val ≠ 0) ∧ f.low.high.All (·.val ≠ 0))) ∧
    ∀ f g : Q12, f.All Canonical → g.All Canonical →
      f.residues residue = g.residues residue → f = g ∧ q12Intou8string f = q12Intou8string g := by
  refine ⟨fun x hx => ⟨hk.q2Negate_canonical_iff hx, hx.2, hk.minus_q_twice hx.1⟩,
    fun x y hx hy => hk.q2MultFlag_canonical_iff hx hy, fun x hx => ?_, fun f hf => ⟨?_, ?_, ?_⟩,
    fun f g hf hg h => ?_⟩
  · exact and_congr (hk.q2Negate_canonical_iff hx.1) (hk.q2Negate_canonical_iff hx.2)
  · exact hk.q12Scale_canonical (by decide +kernel : ∀ i, (frobeniusConstant1 i).val < _) hf
  · exact hk.q12Scale_canonical (by decide +kernel : ∀ i, (frobeniusConstant2 i).val < _) hf
  · have h11 := hk.q2Negate_canonical_iff hf.1.1
    have h5 := hk.q2Negate_canonical_iff hf.2.1.2
    have h3 := hk.q2Negate_canonical_iff hf.2.2.1
    rw [← h11, ← h5, ← h3]
    exact ⟨fun h => ⟨h.1.1, h.2.1.2, h.2.2.1⟩,
      fun h => ⟨⟨h.1, hf.1.2⟩, ⟨hf.2.1.1, h.2.1⟩, h.2.2, hf.2.2.2⟩⟩
  · have heq := Q12.eq_of_residues hf hg h
    exact ⟨heq, congrArg q12Intou8string heq⟩

theorem canonical_iff_one : (q2Negate documentedField ⟨.one, .one⟩).All Canonical ↔
    Q2.All (·.val ≠ 0) ⟨.one, .one⟩ := ((canonical_iff documentedField_documented).1 ⟨.one, .one⟩
    ⟨show Big8w.one.val < sm9Q.val by decide +kernel,
      show Big8w.one.val < sm9Q.val by decide +kernel⟩).1

theorem q2Negate_zero_not_canonical :
    Q2.All Canonical ⟨.zero, .zero⟩ ∧
    q2Negate documentedField ⟨.zero, .zero⟩ = ⟨sm9Q, sm9Q⟩ ∧
    ¬ Q2.All Canonical ⟨sm9Q, sm9Q⟩ ∧
    Q2.residues residue ⟨sm9Q, sm9Q⟩ = Q2.residues residue ⟨.zero, .zero⟩ ∧
    Q2.bytes ⟨sm9Q, sm9Q⟩ ≠ Q2.bytes ⟨.zero, .zero⟩ := by
  have hres : sm9Q.residue = Big8w.zero.residue := by
    rw [residue, ZMod.natCast_self, residue, val_zero, Nat.cast_zero]
  refine ⟨⟨sm9Q_pos, sm9Q_pos⟩, by decide +kernel, fun h => lt_irrefl _ h.1, ?_, ?_⟩
  · rw [Q2.residues, Q2.residues, hres]
  · rw [ne_eq, Q2.bytes_inj]
    decide

end Xiuos.Sm9
