import Mathlib

/-! Counting: how many have a property, while it changes for one after another, and counters of 16
bits. -/

namespace Xiuos.Lib
variable {α : Type} {p q : α → Bool} {n : Nat}

def Counts (p : α → Bool) (n : Nat) : Prop :=
  ∃ s : Finset α, (∀ a, a ∈ s ↔ p a) ∧ s.card = n

namespace Counts

lemma zero (h : ∀ a, p a = false) : Counts p 0 := ⟨∅, by simp [h], rfl⟩

variable (hp : Counts p n)
include hp

lemma congr (h : ∀ a, q a = p a) : Counts q n := by
  obtain ⟨s, hs, hcard⟩ := hp
  exact ⟨s, fun a => by rw [hs, h], hcard⟩

lemma ncard_eq : {a | p a}.ncard = n := by
  obtain ⟨s, hs, hcard⟩ := hp
  have hset : {a | p a} = (s : Set α) := by
    ext a
    simp [hs]
  rw [hset, Set.ncard_coe_finset, hcard]

omit hp in
lemma erase [DecidableEq α] {s : Finset α} {a : α} {b : Bool} (h : a ∈ s ↔ b) :
    (s.erase a).card + b.toNat = s.card := by
  cases b with
  | true => exact Finset.card_erase_add_one (h.mpr rfl)
  | false => rw [Finset.erase_eq_of_notMem (by simp [h]), Bool.toNat_false, Nat.add_zero]

lemma update [DecidableEq α] (a : α) (h : ∀ b ≠ a, q b = p b) :
    ∃ n', Counts q n' ∧ n' + (p a).toNat = n + (q a).toNat := by
  obtain ⟨s, hs, rfl⟩ := hp
  have herase := erase (hs a)
  cases hq : q a with
  | true =>
    refine ⟨_, ⟨insert a s, fun b => ?_, rfl⟩, ?_⟩
    · by_cases hb : b = a
      · simp [hb, hq]
      · simp [hb, h b hb, hs b]
    · have hinsert := erase (s := insert a s) (a := a) (b := true) (by simp)
      rw [Finset.erase_insert_eq_erase] at hinsert
      omega
  | false =>
    refine ⟨_, ⟨s.erase a, fun b => ?_, rfl⟩, ?_⟩
    · by_cases hb : b = a
      · simp [hb, hq]
      · simp [hb, h b hb, hs b]
    · simpa using herase

lemma pos {a : α} (ha : p a) : 0 < n := by
  obtain ⟨s, hs, rfl⟩ := hp
  exact Finset.card_pos.mpr ⟨a, (hs a).mpr ha⟩

lemma add [DecidableEq α] {m : Nat} (hq : Counts q m) (h : ∀ a, p a → ¬ q a) :
    Counts (fun a => p a || q a) (n + m) := by
  obtain ⟨s, hs, rfl⟩ := hp
  obtain ⟨s', hs', rfl⟩ := hq
  refine ⟨s ∪ s', fun a => by simp [hs, hs'], Finset.card_union_of_disjoint ?_⟩
  exact Finset.disjoint_left.mpr fun a ha ha' => h a ((hs a).mp ha) ((hs' a).mp ha')

end Counts

lemma toNat_sub_one {n : UInt16} (h : 0 < n) : (n - 1).toNat + 1 = n.toNat := by
  have hpos : 0 < n.toNat := by simpa using UInt16.lt_iff_toNat_lt.mp h
  have hle : 1 ≤ n := UInt16.le_iff_toNat_le.mpr hpos
  rw [UInt16.toNat_sub_of_le _ _ hle]
  exact Nat.sub_add_cancel hpos

lemma toNat_add_one {n : UInt16} (h : n ≠ 0xffff) : (n + 1).toNat = n.toNat + 1 := by
  have hlt := n.toNat_lt
  have hne : n.toNat ≠ 65535 := fun he => h (UInt16.toNat_inj.mp he)
  rw [UInt16.toNat_add]
  exact Nat.mod_eq_of_lt (by simpa using by omega)

end Xiuos.Lib
