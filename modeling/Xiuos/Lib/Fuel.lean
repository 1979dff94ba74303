import Mathlib.Data.Option.Basic

/-! Total correctness of computations that are bounded by fuel. -/

namespace Xiuos.Lib
open Option
variable {α β : Type} (f : Nat → Option α)

/-- With enough fuel the computation ends, always with the same value, and this value
satisfies `P`. -/
def Returns (f : Nat → Option α) (P : α → Prop) : Prop :=
  ∃ a, P a ∧ (∀ fuel b, f fuel = some b → b = a) ∧ ∃ n, ∀ fuel ≥ n, f fuel = some a

namespace Returns
variable {f : Nat → Option α} {g : Nat → α → Option β} {P P' : α → Prop} {Q : β → Prop}

section
variable (h : Returns f P)
include h

lemma post {fuel : Nat} {b : α} (hb : f fuel = some b) : P b := by
  obtain ⟨a, ha, hunique, -⟩ := h
  exact hunique fuel b hb ▸ ha

lemma eventually : ∃ b, P b ∧ ∃ n, ∀ fuel ≥ n, f fuel = some b := by
  obtain ⟨a, ha, -, hn⟩ := h
  exact ⟨a, ha, hn⟩

omit h in
lemma pure {a : α} (ha : P a) : Returns (fun _ => some a) P :=
  ⟨a, ha, fun _ _ h => (Option.some.inj h).symm, 0, fun _ _ => rfl⟩

lemma mono (hP : ∀ a, P a → P' a) : Returns f P' := by
  obtain ⟨a, ha, hrest⟩ := h
  exact ⟨a, hP a ha, hrest⟩

lemma and (h' : Returns f P') : Returns f fun a => P a ∧ P' a := by
  obtain ⟨a, ha, hunique, n, hn⟩ := h
  exact ⟨a, ⟨ha, h'.post (hn n (Nat.le_refl n))⟩, hunique, n, hn⟩

lemma and_of_forall (hf : ∀ fuel a, f fuel = some a → P' a) : Returns f fun a => P a ∧ P' a := by
  obtain ⟨a, ha, hunique, n, hn⟩ := h
  exact ⟨a, ⟨ha, hf n a (hn n (Nat.le_refl n))⟩, hunique, n, hn⟩

lemma iff_of_forall {c : Prop} (hc : ∀ a, P a → (P' a ↔ c)) : Returns f P' ↔ c := by
  constructor
  · intro h'
    obtain ⟨a, ⟨ha, ha'⟩, -⟩ := (h.and h').eventually
    exact (hc a ha).mp ha'
  · exact fun h' => h.mono fun a ha => (hc a ha).mpr h'

lemma bind (hg : ∀ a, P a → Returns (fun fuel => g fuel a) Q) :
    Returns (fun fuel => f fuel >>= g fuel) Q := by
  obtain ⟨a, ha, hunique, n, hn⟩ := h
  obtain ⟨b, hb, hunique', n', hn'⟩ := hg a ha
  refine ⟨b, hb, fun fuel c hc => ?_, max n n', fun fuel hfuel => ?_⟩
  · obtain ⟨a', ha', hc⟩ := bind_eq_some_iff.mp hc
    rw [hunique fuel a' ha'] at hc
    exact hunique' fuel c hc
  · calc f fuel >>= g fuel
      _ = g fuel a := by
        rw [hn fuel (by omega)]
        rfl
      _ = some b := hn' fuel (by omega)

omit h in
lemma round {f' : Nat → Option α} (h : Returns f' P) (hzero : f 0 = none)
    (hsucc : ∀ fuel, f (fuel + 1) = f' fuel) : Returns f P := by
  obtain ⟨a, ha, hunique, n, hn⟩ := h
  refine ⟨a, ha, fun fuel c hc => ?_, n + 1, fun fuel hfuel => ?_⟩
  · cases fuel with
    | zero => exact absurd (hzero.symm.trans hc) (by simp)
    | succ fuel => exact hunique fuel c ((hsucc fuel).symm.trans hc)
  · obtain ⟨fuel, rfl⟩ : ∃ k, fuel = k + 1 := ⟨fuel - 1, by omega⟩
    exact (hsucc fuel).trans (hn fuel (by omega))

lemma map {k : α → β} (hk : ∀ a, P a → Q (k a)) : Returns (fun fuel => (f fuel).map k) Q := by
  simp only [map_eq_bind]
  exact h.bind fun a ha => pure (hk a ha)

lemma guard (n : Nat) : Returns (fun fuel => if fuel ≤ n then none else f fuel) P := by
  obtain ⟨a, ha, hunique, n', hn'⟩ := h
  refine ⟨a, ha, fun fuel c hc => ?_, max (n + 1) n', fun fuel hfuel => ?_⟩
  · exact hunique fuel c (ite_none_left_eq_some.mp hc).2
  · have hlt : ¬ fuel ≤ n := by omega
    exact ite_none_left_eq_some.mpr ⟨hlt, hn' fuel (by omega)⟩

end

lemma of_mono (hmono : ∀ {fuel fuel' b}, fuel ≤ fuel' → f fuel = some b → f fuel' = some b)
    {n : Nat} {a : α} (h : f n = some a) (ha : P a) : Returns f P := by
  refine ⟨a, ha, fun fuel b hb => ?_, n, fun fuel hfuel => hmono hfuel h⟩
  have hb' := hmono (Nat.le_max_left fuel n) hb
  have ha' := hmono (Nat.le_max_right fuel n) h
  exact Option.some.inj (hb'.symm.trans ha')

end Returns

/-- The computation ends exactly when `g` has a value, with a value that is related to it. -/
def Follows (f : Nat → Option α) (g : Option β) (R : α → β → Prop) : Prop :=
  match g with
  | none => ∀ fuel, f fuel = none
  | some b => Returns f (R · b)

lemma Returns.follows {γ : Type} {f : Nat → Option (α × γ)} {b : β} {R : α → β → Prop}
    (h : Returns f fun r => R r.1 b) : Follows (fun fuel => (f fuel).map (·.1)) (some b) R :=
  h.map fun _ hr => hr

namespace Follows
variable {γ δ : Type} {f : Nat → Option α} {g : Option β} {R R' : α → β → Prop}
variable {f' : Nat → α → Option γ} {g' : β → Option δ} {Q : γ → δ → Prop} {a : α} {b : β}

lemma pure (h : R a b) : Follows (fun _ => some a) (some b) R := Returns.pure h

lemma none : Follows (fun _ => Option.none) (Option.none : Option β) R := fun _ => rfl

lemma mono (h : Follows f g R) (hR : ∀ a b, R a b → R' a b) : Follows f g R' := by
  cases g with
  | none => exact h
  | some b => exact Returns.mono h fun a => hR a b

lemma bind (h : Follows f g R) (h' : ∀ a b, g = some b → R a b →
    Follows (fun fuel => f' fuel a) (g' b) Q) :
    Follows (fun fuel => f fuel >>= f' fuel) (g >>= g') Q := by
  cases g with
  | none =>
    intro fuel
    change f fuel >>= f' fuel = Option.none
    rw [h fuel]
    rfl
  | some b =>
    obtain ⟨a, ha, hunique, n, hn⟩ := h
    have hb := h' a b rfl ha
    have hbind : (some b >>= g') = g' b := rfl
    rw [hbind]
    cases hg : g' b with
    | none =>
      intro fuel
      rw [hg] at hb
      change f fuel >>= f' fuel = Option.none
      cases hf : f fuel with
      | none => rfl
      | some a' =>
        rw [hunique fuel a' hf]
        exact hb fuel
    | some c =>
      rw [hg] at hb
      have hret : Returns f (· = a) := ⟨a, rfl, hunique, n, hn⟩
      exact hret.bind fun a' ha' => ha' ▸ hb

lemma of_returns {P : α → Prop} {d : Option δ} (h : Returns f P)
    (h' : ∀ a, P a → Follows (fun fuel => f' fuel a) d Q) :
    Follows (fun fuel => f fuel >>= f' fuel) d Q := by
  have hf : Follows f (some ()) fun a _ => P a := h
  have hbind : Follows (fun fuel => f fuel >>= f' fuel) (some () >>= fun _ => d) Q :=
    hf.bind fun a _ _ ha => h' a ha
  exact hbind

lemma andThen {Q : γ → β → Prop} (h : Follows f g R) (h' : ∀ a b, g = some b → R a b →
    Returns (fun fuel => f' fuel a) (Q · b)) : Follows (fun fuel => f fuel >>= f' fuel) g Q := by
  have hbind : Follows (fun fuel => f fuel >>= f' fuel) (g >>= some) Q := h.bind h'
  have hg : (g >>= some) = g := by cases g <;> rfl
  rwa [hg] at hbind

lemma post (h : Follows f g R) {fuel : Nat} (ha : f fuel = some a) : ∃ b, g = some b ∧ R a b := by
  cases g with
  | none =>
    rw [h fuel] at ha
    cases ha
  | some b => exact ⟨b, rfl, Returns.post h ha⟩

lemma guard (h : Follows f g R) (n : Nat) :
    Follows (fun fuel => if fuel ≤ n then Option.none else f fuel) g R := by
  cases g with
  | none =>
    intro fuel
    simp [h fuel]
  | some b => exact Returns.guard h n

lemma round {f' : Nat → Option α} (h : Follows f' g R) (hzero : f 0 = Option.none)
    (hsucc : ∀ fuel, f (fuel + 1) = f' fuel) : Follows f g R := by
  cases g with
  | none =>
    intro fuel
    cases fuel with
    | zero => exact hzero
    | succ fuel => exact (hsucc fuel).trans (h fuel)
  | some b => exact Returns.round h hzero hsucc

lemma exists_of_some (h : Follows f g R) (hg : g = some b) : ∃ a, R a b := by
  subst hg
  obtain ⟨a, ha, -⟩ := h
  exact ⟨a, ha⟩

end Follows
end Xiuos.Lib
