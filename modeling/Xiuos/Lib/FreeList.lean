import Mathlib

/-! Lists that are linked through the blocks themselves, and blocks that do not overlap. -/

namespace Xiuos.Lib
open List Nat
variable {α : Type} {null : α}

def Threaded (next : α → α) (null : α) : α → List α → Prop
  | head, [] => head = null
  | head, x :: xs => head = x ∧ x ≠ null ∧ Threaded next null (next x) xs

variable {next next' : α → α} {head x : α} {xs : List α}

lemma Threaded.congr (h : Threaded next null head xs) (hnext : ∀ x ∈ xs, next' x = next x) :
    Threaded next' null head xs := by
  induction xs generalizing head with
  | nil => exact h
  | cons y xs ih =>
    refine ⟨h.1, h.2.1, ?_⟩
    rw [hnext y mem_cons_self]
    exact ih h.2.2 fun x hx => hnext x (mem_cons_of_mem y hx)

lemma Threaded.head_cases (h : Threaded next null head xs) : head = null ∨ head ∈ xs := by
  cases xs with
  | nil => exact .inl h
  | cons y xs => exact .inr (h.1 ▸ mem_cons_self)

lemma Threaded.range' (next : α → α) (null : α) (f : Nat → α) (a n : Nat)
    (hnull : ∀ i, a ≤ i → i < a + (n + 1) → f i ≠ null)
    (hnext : ∀ i, a ≤ i → i < a + n → next (f i) = f (i + 1)) (hlast : next (f (a + n)) = null) :
    Threaded next null (f a) ((List.range' a (n + 1)).map f) := by
  induction n generalizing a with
  | zero => exact ⟨rfl, hnull a le_rfl (lt_succ_self a), hlast⟩
  | succ n ih =>
    refine ⟨rfl, hnull a le_rfl (by omega), ?_⟩
    rw [hnext a le_rfl (by omega)]
    refine ih (a + 1) (fun i hi hlt => hnull i (by omega) (by omega))
      (fun i hi hlt => hnext i (by omega) (by omega)) ?_
    rwa [Nat.add_right_comm]

variable {a n len : Nat} {bs : List Nat}

def Apart (len : Nat) (bs : List Nat) : Prop :=
  bs.Pairwise fun b c => b + len ≤ c ∨ c + len ≤ b

lemma Apart.nodup (h : Apart len bs) (hlen : 0 < len) : bs.Nodup := h.imp fun hbc he => by omega

lemma Apart.of_mem (h : Apart len bs) {b c : Nat} (hb : b ∈ bs) (hc : c ∈ bs) :
    b = c ∨ b + len ≤ c ∨ c + len ≤ b := by
  by_cases hne : b = c
  · exact .inl hne
  · have : Std.Symm fun b c => b + len ≤ c ∨ c + len ≤ b := ⟨fun _ _ => Or.symm⟩
    exact .inr (List.Pairwise.forall h hb hc hne)

lemma Apart.length_mul_le (h : Apart len bs) (hin : ∀ b ∈ bs, a ≤ b ∧ b + len ≤ a + n) :
    bs.length * len ≤ n := by
  have hnodup : (bs.flatMap fun b => List.range' b len).Nodup := by
    refine nodup_flatMap.mpr ⟨fun b _ => nodup_range', h.imp fun hbc x hb hc => ?_⟩
    simp only [mem_range'_1] at hb hc
    omega
  have hsub : (bs.flatMap fun b => List.range' b len) ⊆ List.range' a n := by
    intro x hx
    obtain ⟨b, hb, hx⟩ := mem_flatMap.mp hx
    have := hin b hb
    simp only [mem_range'_1] at hx ⊢
    omega
  have hle := (subperm_of_subset hnodup hsub).length_le
  simpa [length_flatMap] using hle

lemma apart_range (a len n : Nat) : Apart len ((range n).map (a + · * len)) := by
  refine pairwise_map.mpr (pairwise_lt_range.imp fun {i j} hij => .inl ?_)
  have := Nat.mul_le_mul_right len (succ_le_of_lt hij)
  rw [succ_mul] at this
  omega

end Xiuos.Lib
