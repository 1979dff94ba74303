import Mathlib.Data.List.TakeWhile
import Mathlib.Order.Lattice

/-! Lists that are kept sorted by a key and are used from the front. -/

namespace Xiuos.Lib
open List
variable {α β : Type} {l : List α} {p q : α → Bool}

lemma takeWhile_congr (h : ∀ a ∈ l, p a = q a) : l.takeWhile p = l.takeWhile q := by
  induction l with
  | nil => rfl
  | cons a l ih =>
    rw [takeWhile_cons, takeWhile_cons, h a mem_cons_self,
      ih fun b hb => h b (mem_cons_of_mem a hb)]

lemma dropWhile_congr (h : ∀ a ∈ l, p a = q a) : l.dropWhile p = l.dropWhile q := by
  induction l with
  | nil => rfl
  | cons a l ih =>
    rw [dropWhile_cons, dropWhile_cons, h a mem_cons_self,
      ih fun b hb => h b (mem_cons_of_mem a hb)]

def insertFirst (p : α → Bool) (a : α) (l : List α) : List α :=
  l.takeWhile (fun b => !p b) ++ a :: l.dropWhile fun b => !p b

lemma mem_insertFirst {p : α → Bool} {a b : α} : b ∈ insertFirst p a l ↔ b = a ∨ b ∈ l := by
  have hl : b ∈ l ↔ b ∈ l.takeWhile (fun b => !p b) ∨ b ∈ l.dropWhile fun b => !p b := by
    rw [← mem_append, takeWhile_append_dropWhile]
  rw [insertFirst, mem_append, mem_cons, hl]
  exact or_left_comm

lemma insertFirst_map (p : β → Bool) (f : α → β) (a : α) (l : List α) :
    insertFirst p (f a) (l.map f) = (insertFirst (p ∘ f) a l).map f := by
  rw [insertFirst, takeWhile_map, dropWhile_map, insertFirst, map_append, map_cons]
  rfl

lemma insertFirst_congr {a : α} (h : ∀ b ∈ l, p b = q b) :
    insertFirst p a l = insertFirst q a l := by
  have hnot : ∀ b ∈ l, (!p b) = !q b := fun b hb => congrArg (!·) (h b hb)
  rw [insertFirst, takeWhile_congr hnot, dropWhile_congr hnot, insertFirst]

variable [LinearOrder β] {key : α → β}

def Ascending (key : α → β) (l : List α) : Prop := l.Pairwise fun a b => key a ≤ key b

variable (h : Ascending key l)
include h

lemma Ascending.erase [DecidableEq α] (a : α) : Ascending key (l.erase a) :=
  h.sublist erase_sublist

lemma Ascending.congr {key' : α → β} (hkey : ∀ a ∈ l, key' a = key a) : Ascending key' l :=
  h.imp_of_mem fun ha hb hab => by rwa [hkey _ ha, hkey _ hb]

lemma Ascending.insertFirst (a : α) :
    Ascending key (insertFirst (fun b => decide (key a < key b)) a l) := by
  induction l with
  | nil => simp [Lib.insertFirst, Ascending]
  | cons b l ih =>
    obtain ⟨hb, hl⟩ := pairwise_cons.mp h
    by_cases hab : key a < key b
    · have hins : Lib.insertFirst (fun b => decide (key a < key b)) a (b :: l) = a :: b :: l := by
        simp [Lib.insertFirst, hab]
      rw [hins]
      refine pairwise_cons.mpr ⟨fun c hc => ?_, h⟩
      obtain rfl | hc := mem_cons.mp hc
      · exact le_of_lt hab
      · exact le_trans (le_of_lt hab) (hb c hc)
    · have hins : Lib.insertFirst (fun b => decide (key a < key b)) a (b :: l) =
          b :: Lib.insertFirst (fun b => decide (key a < key b)) a l := by
        simp [Lib.insertFirst, hab]
      rw [hins]
      refine pairwise_cons.mpr ⟨fun c hc => ?_, ih hl⟩
      obtain rfl | hc := mem_insertFirst.mp hc
      · exact not_lt.mp hab
      · exact hb c hc

lemma Ascending.split (k : β) :
    l = l.filter (key · < k) ++ (l.filter (key · = k) ++ l.filter (k < key ·)) := by
  induction l with
  | nil => rfl
  | cons a l ih =>
    obtain ⟨ha, hl⟩ := pairwise_cons.mp h
    obtain hlt | heq | hgt := lt_trichotomy (key a) k
    · rw [filter_cons_of_pos (by simpa using hlt), filter_cons_of_neg (by simpa using ne_of_lt hlt),
        filter_cons_of_neg (by simpa using le_of_lt hlt), cons_append, ← ih hl]
    · have hnil : l.filter (key · < k) = [] := by
        refine filter_eq_nil_iff.mpr fun b hb => ?_
        simpa [heq] using ha b hb
      have ih' := ih hl
      rw [hnil, nil_append] at ih'
      rw [filter_cons_of_neg (by simp [heq]), filter_cons_of_pos (by simp [heq]),
        filter_cons_of_neg (by simp [heq]), hnil, nil_append, cons_append, ← ih']
    · have hnil : l.filter (key · < k) = [] := by
        refine filter_eq_nil_iff.mpr fun b hb => ?_
        simpa using le_of_lt (lt_of_lt_of_le hgt (ha b hb))
      have hnil' : l.filter (key · = k) = [] := by
        refine filter_eq_nil_iff.mpr fun b hb => ?_
        simpa using ne_of_gt (lt_of_lt_of_le hgt (ha b hb))
      have ih' := ih hl
      rw [hnil, hnil', nil_append, nil_append] at ih'
      rw [filter_cons_of_neg (by simpa using le_of_lt hgt),
        filter_cons_of_neg (by simpa using ne_of_gt hgt),
        filter_cons_of_pos (by simpa using hgt), hnil, hnil', nil_append, nil_append, ← ih']

end Xiuos.Lib
