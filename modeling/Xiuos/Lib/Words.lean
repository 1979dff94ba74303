import Mathlib.Data.List.Flatten
import Mathlib.Data.List.Induction

namespace Xiuos.Lib
open List
variable {α : Type} {sep : α}

def Terminated (sep : α) (l : List α) : Prop := l = [] ∨ ∃ l', l = l' ++ [sep]

lemma Terminated.nil (sep : α) : Terminated sep [] := .inl rfl

lemma Terminated.concat (sep : α) (l : List α) : Terminated sep (l ++ [sep]) := .inr ⟨l, rfl⟩

lemma Terminated.of_append {l l' : List α} (h : Terminated sep (l ++ l')) :
    Terminated sep l' := by
  obtain h | ⟨l'', h⟩ := h
  · exact .inl (append_eq_nil_iff.mp h).2
  · obtain rfl | ⟨l₁, a, rfl⟩ := eq_nil_or_concat l'
    · exact .nil sep
    · rw [concat_eq_append, ← append_assoc] at h
      obtain ⟨-, h⟩ := append_inj' h rfl
      rw [concat_eq_append, h]
      exact .concat sep l₁

variable [DecidableEq α] {w : List α}

def words (sep : α) (l : List α) : List (List α) := (l.splitOn sep).filter (· ≠ [])

@[simp] lemma words_nil (sep : α) : words sep [] = [] := by simp [words]

lemma words_append_cons (sep : α) (l l' : List α) :
    words sep (l ++ sep :: l') = words sep l ++ words sep l' := by
  rw [words, splitOn_append_cons_self, filter_append]
  rfl

@[simp] lemma words_cons_self (sep : α) (l : List α) : words sep (sep :: l) = words sep l := by
  simpa using words_append_cons sep [] l

lemma words_concat_self (sep : α) (l : List α) : words sep (l ++ [sep]) = words sep l := by
  simpa using words_append_cons sep l []

lemma words_of_not_mem (hw : w ≠ []) (hsep : sep ∉ w) : words sep w = [w] := by
  rw [words, splitOn_eq_singleton hsep]
  simp [hw]

@[simp] lemma words_replicate (sep : α) (n : Nat) : words sep (replicate n sep) = [] := by
  induction n with
  | zero => simp
  | succ n ih => rw [replicate_succ, words_cons_self, ih]

lemma words_append_replicate (sep : α) (l : List α) (n : Nat) :
    words sep (l ++ replicate n sep) = words sep l := by
  cases n with
  | zero => simp
  | succ n => rw [replicate_succ, words_append_cons, words_replicate, append_nil]

lemma words_word_append (hw : w ≠ []) (hsep : sep ∉ w) (l : List α) :
    words sep (w ++ sep :: l) = w :: words sep l := by
  rw [words_append_cons, words_of_not_mem hw hsep, singleton_append]

variable {l : List α}

lemma words_append (hl : Terminated sep l) (l' : List α) :
    words sep (l ++ l') = words sep l ++ words sep l' := by
  obtain rfl | ⟨l, rfl⟩ := hl
  · simp
  · rw [append_assoc, singleton_append, words_append_cons, words_concat_self]

lemma Terminated.cases (hl : Terminated sep l) :
    l = [] ∨ (∃ l', l = sep :: l') ∨ ∃ w l', w ≠ [] ∧ sep ∉ w ∧ l = w ++ sep :: l' := by
  obtain rfl | ⟨l', rfl⟩ := hl
  · exact .inl rfl
  refine .inr ?_
  induction l' with
  | nil => exact .inl ⟨[], rfl⟩
  | cons a l' ih =>
    by_cases ha : a = sep
    · exact .inl ⟨l' ++ [sep], by simp [ha]⟩
    right
    obtain ⟨l'', h⟩ | ⟨w, l'', hw, hsep, h⟩ := ih
    · exact ⟨[a], l'', by simp, by simp [Ne.symm ha], by simp [h]⟩
    · exact ⟨a :: w, l'', by simp, by simp [Ne.symm ha, hsep], by simp [h]⟩

lemma exists_last_word (sep : α) (l : List α) :
    (∃ n, l = replicate n sep) ∨
    ∃ l' w n, w ≠ [] ∧ sep ∉ w ∧ l = l' ++ w ++ replicate n sep ∧ Terminated sep l' := by
  induction l using reverseRecOn with
  | nil => exact .inl ⟨0, rfl⟩
  | append_singleton l a ih =>
    by_cases ha : a = sep
    · subst ha
      obtain ⟨n, rfl⟩ | ⟨l', w, n, hw, hsep, rfl, hl'⟩ := ih
      · exact .inl ⟨n + 1, replicate_succ'.symm⟩
      · exact .inr ⟨l', w, n + 1, hw, hsep, by simp [replicate_succ'], hl'⟩
    · right
      obtain ⟨n, rfl⟩ | ⟨l', w, n, hw, hsep, rfl, hl'⟩ := ih
      · refine ⟨replicate n sep, [a], 0, by simp, by simp [Ne.symm ha], by simp, ?_⟩
        cases n with
        | zero => exact .inl rfl
        | succ n => exact .inr ⟨replicate n sep, replicate_succ'⟩
      · cases n with
        | zero =>
          exact ⟨l', w ++ [a], 0, by simp, by simp [Ne.symm ha, hsep], by simp, hl'⟩
        | succ n =>
          refine ⟨l' ++ w ++ replicate (n + 1) sep, [a], 0, by simp, by simp [Ne.symm ha],
            by simp, .inr ⟨l' ++ w ++ replicate n sep, by simp [replicate_succ']⟩⟩

lemma not_mem_of_mem_splitOn (h : w ∈ l.splitOn sep) : sep ∉ w := by
  induction l generalizing w with
  | nil =>
    rw [splitOn_nil, mem_singleton] at h
    simp [h]
  | cons a l ih =>
    rw [splitOn_cons_eq_if_modifyHead] at h
    split at h
    · obtain rfl | h := mem_cons.mp h
      · simp
      · exact ih h
    · rename_i ha
      have hne : l.splitOn sep ≠ [] := by simp
      obtain ⟨p, ps, hps⟩ := exists_cons_of_ne_nil hne
      rw [hps] at h ih
      obtain rfl | h := mem_cons.mp h
      · have hp := ih mem_cons_self
        simp only [mem_cons, not_or]
        exact ⟨fun h => ha (by simp [h]), hp⟩
      · exact ih (mem_cons_of_mem p h)

lemma mem_words (h : w ∈ words sep l) : w ≠ [] ∧ sep ∉ w := by
  obtain ⟨hw, hne⟩ := mem_filter.mp h
  exact ⟨by simpa using hne, not_mem_of_mem_splitOn hw⟩

lemma words_map {a b : α} (h : b ∉ l) :
    words b (l.map fun x => if x = a then b else x) = words a l := by
  have hsplit : (l.map fun x => if x = a then b else x).splitOn b = l.splitOn a := by
    induction l with
    | nil => rfl
    | cons x l ih =>
      rw [mem_cons, not_or] at h
      rw [map_cons, splitOn_cons_eq_if_modifyHead, splitOn_cons_eq_if_modifyHead, ih h.2]
      by_cases hx : x = a
      · simp [hx]
      · simp [hx, Ne.symm h.1]
  rw [words, words, hsplit]

lemma words_flatMap {ws : List (List α)} (hws : ∀ w ∈ ws, w ≠ [] ∧ sep ∉ w) :
    words sep (ws.flatMap (sep :: ·)) = ws := by
  induction ws with
  | nil => simp
  | cons w ws ih =>
    have hw := hws w mem_cons_self
    have ih' := ih fun v hv => hws v (mem_cons_of_mem w hv)
    rw [flatMap_cons, cons_append, words_cons_self]
    cases ws with
    | nil => simpa using words_of_not_mem hw.1 hw.2
    | cons v ws =>
      rw [flatMap_cons, cons_append, words_word_append hw.1 hw.2, ← words_cons_self,
        ← cons_append, ← flatMap_cons, ih']

lemma flatMap_splitOn (sep : α) (l : List α) : (l.splitOn sep).flatMap (sep :: ·) = sep :: l := by
  induction l with
  | nil => simp
  | cons a l ih =>
    rw [splitOn_cons_eq_if_modifyHead]
    split
    · rename_i ha
      rw [flatMap_cons, ih, eq_of_beq ha]
      rfl
    · have hne : l.splitOn sep ≠ [] := by simp
      obtain ⟨p, ps, hps⟩ := exists_cons_of_ne_nil hne
      rw [hps, flatMap_cons] at ih
      rw [hps, modifyHead_cons, flatMap_cons]
      simpa using ih

lemma length_flatMap_words_le (sep : α) (l : List α) :
    ((words sep l).flatMap (sep :: ·)).length ≤ l.length + 1 := by
  have h : ((words sep l).flatMap (sep :: ·)).Sublist ((l.splitOn sep).flatMap (sep :: ·)) :=
    List.Sublist.flatMap filter_sublist _
  rw [flatMap_splitOn] at h
  exact h.length_le

end Xiuos.Lib
