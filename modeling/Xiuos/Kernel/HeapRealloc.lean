import Xiuos.Kernel.HeapView

namespace Xiuos.Kernel
open Lib Option

structure Replaces (cfg : HeapConfig) (base : Fin 2 → Option Nat) (s : HeapState)
    (inner : List Cell) (fl : Fin 2 → List Nat) (s' : HeapState) (inner' : List Cell)
    (rest' : List Entry) (fl' : Fin 2 → List Nat) (p q d : Nat) : Prop where
  good : Good cfg base s' inner' rest' fl'
  start : s'.mmDynamicStart = s.mmDynamicStart
  allocated : ∀ r e, Allocated cfg base s' inner' fl' r e ↔
    (Allocated cfg base s inner fl r e ∧ r ≠ p) ∨ (r = q ∧ e = d)
  fresh : ∀ e, ¬ Allocated cfg base s inner fl q e
  apart : ∀ r e, Allocated cfg base s inner fl r e → q + d ≤ r ∨ r + e ≤ q
  spares : Spares cfg base s inner fl p s'
  vacant : Vacant cfg s' inner' fl' p

namespace Good

variable {cfg : HeapConfig} {base : Fin 2 → Option Nat} {s s' : HeapState}
  {inner inner' : List Cell} {rest rest' : List Entry} {fl fl' : Fin 2 → List Nat} {p c q d : Nat}
  {m : Mem} (h : Good cfg base s inner rest fl)
include h

lemma write (hp : Allocated cfg base s inner fl p c) (hm : ∀ x, x < p ∨ p + c ≤ x → m x = s.mem x)
    : Good cfg base { s with mem := m } inner rest fl := by
  have hpay : ∀ x, ¬ Payload cfg s.mmDynamicStart (guarded cfg inner) x → m x = s.mem x := by
    intro x hx
    refine hm x ?_
    by_contra hin
    obtain ⟨y, z, hhost⟩ := h.host hp
    exact hx (payload_of_host hhost (by omega) (by omega))
  exact {
    heap := h.heap.of_payload hpay s.staticManager
    room := h.room
    small := h.small
    pool := by
      intro i b hb
      refine (h.pool i b hb).congr rfl fun x hx w h1 h2 => hm w ?_
      by_contra hin
      have := h.header_apart hb hx hp (w := w) (by omega) (by omega)
      omega
    cell := h.cell
    absent := h.absent
    base_inj := h.base_inj
    manager_lt := h.manager_lt
    manager_ne := h.manager_ne }

omit h in
lemma Grants.write (h : Grants cfg base s inner fl s' inner' rest' fl' p c)
    (hm : ∀ x, x < p ∨ p + c ≤ x → m x = s'.mem x) :
    Grants cfg base s inner fl { s' with mem := m } inner' rest' fl' p c := by
  have hp := (h.allocated p c).mpr (.inr ⟨rfl, rfl⟩)
  refine ⟨h.good.write hp hm, h.start, fun q d => ?_, h.fresh, ?_, h.took⟩
  · rw [← h.allocated q d]
    exact ⟨fun hq => hq.congr rfl, fun hq => hq.congr rfl⟩
  · intro q d hq hne x h1 h2
    obtain ⟨heq, -⟩ | hapart := h.good.apart hp ((h.allocated q d).mpr (.inl hq))
    · exact absurd heq.symm hne
    · exact (hm x (by omega)).trans (h.spares q d hq hne x h1 h2)

lemma xCalloc (hr : Roomy cfg) (count size : Nat) :
    xCalloc cfg s count size = some (s, 0) ∨
    ∃ s' inner' rest' fl' p c, xCalloc cfg s count size = some (s', p) ∧ p ≠ 0 ∧
      count * size % cfg.limit ≤ c ∧ Grants cfg base s inner fl s' inner' rest' fl' p c ∧
      ∀ k < count * size % cfg.limit, s'.mem (p + k) = 0 := by
  rw [Kernel.xCalloc]
  by_cases hbad : count * size % cfg.limit > available cfg s
  · exact .inl (if_pos hbad)
  · simp only [if_neg hbad]
    obtain hnull | ⟨s', inner', rest', fl', p, c, hmalloc, hc, hgrants⟩ :=
      h.xMalloc hr (count * size % cfg.limit)
    · rw [hnull]
      exact .inl rfl
    · have hne := hgrants.ne_zero
      rw [hmalloc]
      refine .inr ⟨_, inner', rest', fl', p, c, rfl, hne, hc, ?_, ?_⟩
      · rw [if_pos hne]
        exact hgrants.write fun x hx => Mem.fill_outside (by omega)
      · intro k hk
        rw [if_pos hne]
        exact if_pos ⟨by omega, by omega⟩

lemma xRealloc (hr : Roomy cfg) (hp : Allocated cfg base s inner fl p c) {size : Nat}
    (hsize : size ≠ 0) :
    xRealloc cfg s p size = some (s, 0) ∨
    ∃ s' inner' rest' fl' q d, xRealloc cfg s p size = some (s', q) ∧ q ≠ 0 ∧ size ≤ d ∧
      Replaces cfg base s inner fl s' inner' rest' fl' p q d ∧
      ∀ k < min c size, s'.mem (q + k) = s.mem (p + k) := by
  have hvalid := h.judgeValid hp
  have hne : p ≠ 0 := by
    have := h.inside hp
    have := header_lt_freeNode cfg
    omega
  have hcheck : mmAllocNode cfg s.mem (p - cfg.header) = true := by
    cases hp with
    | @cell y z hcell hbase =>
      simp only [mmAllocNode, Nat.add_sub_cancel, (h.flag_cell hcell).2]
      decide
    | @block i b x hbase hx hout =>
      simp only [mmAllocNode, Nat.add_sub_cancel, (h.pool i b hbase).flag x hx]
      decide
  rw [Kernel.xRealloc, if_neg hne, if_neg hsize]
  simp only [check_of hvalid, check_of hcheck, h.blockSize_eq hp, bind_eq_bind,
    bind_some]
  obtain hnull | ⟨s₁, inner₁, rest₁, fl₁, q, d, hmalloc, hd, hgrants⟩ := h.xMalloc hr size
  · rw [hnull]
    exact .inl rfl
  · -- the copy stays inside of the new block
    have hcopy := hgrants.write (m := s₁.mem.copy q p (if size > c then c else size))
      fun x hx => Mem.copy_outside (by split <;> omega)
    have hp₁ := (hcopy.allocated p c).mpr (.inl hp)
    obtain ⟨s', inner', rest', fl', hfree, hrel⟩ := hcopy.good.xFree hp₁
    have hqne : q ≠ p := by
      rintro rfl
      exact hgrants.fresh c hp
    have hq₁ := (hcopy.allocated q d).mpr (.inr ⟨rfl, rfl⟩)
    have hq0 := hgrants.ne_zero
    rw [hmalloc]
    simp only [bind_some, if_neg hq0, hfree]
    refine .inr ⟨s', inner', rest', fl', q, d, rfl, hq0, hd,
      ⟨hrel.good, hrel.start.trans hcopy.start, fun r e => ?_, hgrants.fresh, fun r e hr => ?_, ?_,
        hrel.vacant⟩, ?_⟩
    · rw [hrel.allocated, hcopy.allocated]
      constructor
      · rintro ⟨hr | ⟨rfl, rfl⟩, hne⟩
        · exact .inl ⟨hr, hne⟩
        · exact .inr ⟨rfl, rfl⟩
      · rintro (⟨hr, hne⟩ | ⟨rfl, rfl⟩)
        · exact ⟨.inl hr, hne⟩
        · exact ⟨.inr ⟨rfl, rfl⟩, hqne⟩
    · obtain ⟨rfl, -⟩ | hapart := hcopy.good.apart hq₁ ((hcopy.allocated r e).mpr (.inl hr))
      · exact absurd hr (hgrants.fresh e)
      · exact hapart
    · intro r e hr hne x h1 h2
      have hrq : r ≠ q := by
        rintro rfl
        exact hgrants.fresh e hr
      exact (hrel.spares r e ((hcopy.allocated r e).mpr (.inl hr)) hne x h1 h2).trans
        (hcopy.spares r e hr hrq x h1 h2)
    · intro k hk
      rw [Nat.lt_min] at hk
      have hmem : (s₁.mem.copy q p (if size > c then c else size)) (q + k) = s₁.mem (p + k) := by
        rw [Mem.copy, if_pos ⟨by omega, by split <;> omega⟩, Nat.add_sub_cancel_left]
      rw [hrel.spares q d hq₁ hqne (q + k) (by omega) (by omega)]
      exact hmem.trans (hgrants.spares p c hp hqne.symm (p + k) (by omega) (by omega))

end Good
end Xiuos.Kernel
