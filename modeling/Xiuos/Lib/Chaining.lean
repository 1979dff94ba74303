import Mathlib.Data.List.Basic

/-! Blocks transformed one after another, each with what the one before leaves behind. -/

namespace Xiuos.Lib
variable {α β σ : Type}

def chain (step : σ → α → β × σ) : σ → List α → List β × σ
  | s, [] => ([], s)
  | s, a :: as => ((step s a).1 :: (chain step (step s a).2 as).1, (chain step (step s a).2 as).2)

variable (step : σ → α → β × σ) (s : σ)

lemma chain_length (as : List α) : (chain step s as).1.length = as.length := by
  induction as generalizing s with
  | nil => rfl
  | cons a as ih => simp [chain, ih]

lemma chain_append (as as' : List α) :
    chain step s (as ++ as') =
      ((chain step s as).1 ++ (chain step (chain step s as).2 as').1,
        (chain step (chain step s as).2 as').2) := by
  induction as generalizing s with
  | nil => rfl
  | cons a as ih => simp [chain, ih]

lemma chain_inverse {step : σ → α → β × σ} {back : σ → β → α × σ}
    (h : ∀ s a, back s (step s a).1 = (a, (step s a).2)) (s : σ) (as : List α) :
    chain back s (chain step s as).1 = (as, (chain step s as).2) := by
  induction as generalizing s with
  | nil => rfl
  | cons a as ih => simp [chain, h, ih]

end Xiuos.Lib
