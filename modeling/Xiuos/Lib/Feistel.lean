import Mathlib.Data.List.Basic

/-! Unbalanced Feistel networks: each round moves a window of four words on by one. -/

namespace Xiuos.Lib

structure Window (α : Type) where
  x0 : α
  x1 : α
  x2 : α
  x3 : α
  deriving DecidableEq

namespace Window
variable {α κ : Type}

def reverse (w : Window α) : Window α := ⟨w.x3, w.x2, w.x1, w.x0⟩

def round (f : κ → Window α → α) (w : Window α) (k : κ) : Window α := ⟨w.x1, w.x2, w.x3, f k w⟩

/-- From the window turned round, the same key makes the word that the round has dropped. -/
def Reversible (f : κ → Window α → α) : Prop :=
  ∀ k (w : Window α), f k (w.round f k).reverse = w.x0

variable {f : κ → Window α → α} (hf : Reversible f)
include hf

lemma round_reverse (w : Window α) (k : κ) : (w.round f k).reverse.round f k = w.reverse :=
  congrArg (Window.mk w.x3 w.x2 w.x1) (hf k w)

lemma foldl_round_reverse (ks : List κ) (w : Window α) :
    ks.reverse.foldl (round f) (ks.foldl (round f) w).reverse = w.reverse := by
  induction ks generalizing w with
  | nil => rfl
  | cons k ks ih =>
    have hks := ih (w.round f k)
    rw [List.reverse_cons, List.foldl_append]
    rw [← List.foldl_cons] at hks
    rw [hks]
    exact round_reverse hf w k

end Window
end Xiuos.Lib
