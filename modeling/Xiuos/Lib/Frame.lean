import Mathlib.Data.List.Infix

/-! Streams that are cut behind every occurrence of a pair. -/

namespace Xiuos.Lib
open List
variable {α : Type*} {a b c : α} {l p : List α}

def Open (a b : α) (l : List α) : Prop := ¬ [a, b] <:+: l

def Ended (a b : α) (l : List α) : Prop := ∃ p, l = p ++ [b] ∧ Open a b p ∧ p.getLast? = some a

lemma open_nil : Open a b [] := by simp [Open]

lemma open_concat : Open a b (p ++ [c]) ↔ Open a b p ∧ ¬ (p.getLast? = some a ∧ c = b) := by
  have hsuffix : [a, b] <:+ p ++ [c] ↔ p.getLast? = some a ∧ c = b := by
    constructor
    · rintro ⟨q, hq⟩
      have hsplit : (q ++ [a]) ++ [b] = p ++ [c] := by simpa using hq
      obtain ⟨rfl, hc⟩ := append_inj' hsplit rfl
      exact ⟨by simp, by simpa using hc.symm⟩
    · rintro ⟨hlast, rfl⟩
      obtain ⟨q, rfl⟩ := getLast?_eq_some_iff.mp hlast
      exact ⟨q, by simp⟩
  rw [Open, Open, infix_concat_iff, hsuffix, not_or, and_comm]

lemma ended_concat (hp : Open a b p) (hlast : p.getLast? = some a) : Ended a b (p ++ [b]) :=
  ⟨p, rfl, hp, hlast⟩

lemma exists_frames [DecidableEq α] (a b : α) (l : List α) :
    ∃ (frames : List (List α)) (rest : List α), l = frames.flatten ++ rest ∧
      (∀ f ∈ frames, Ended a b f) ∧ Open a b rest := by
  induction l using reverseRecOn with
  | nil => exact ⟨[], [], rfl, by simp, open_nil⟩
  | append_singleton l c ih =>
    obtain ⟨frames, rest, rfl, hframes, hrest⟩ := ih
    by_cases hpair : rest.getLast? = some a ∧ c = b
    · refine ⟨frames ++ [rest ++ [c]], [], by simp, fun f hf => ?_, open_nil⟩
      obtain hf | hf := mem_append.mp hf
      · exact hframes f hf
      · rw [mem_singleton.mp hf, hpair.2]
        exact ended_concat hrest hpair.1
    · exact ⟨frames, rest ++ [c], by simp, hframes, open_concat.mpr ⟨hrest, hpair⟩⟩

end Xiuos.Lib
