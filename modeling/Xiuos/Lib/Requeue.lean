import Xiuos.Lib.Sorted
import Mathlib.Data.List.Basic

/-! A loop that takes elements from the front of a sorted queue as long as they are due, and may
put them back with another key. -/

namespace Xiuos.Lib
open Function List

inductive Turn
  | leave
  | back (key : Nat)
  | stuck

variable {α : Type} [DecidableEq α] {due : Nat → Bool} {turn : α → Turn} {key : α → Nat}
  {xs ys zs : List α} {x : α} {k : Nat}

inductive Drains (due : Nat → Bool) (turn : α → Turn) : (α → Nat) → List α → Prop
  | nil {key : α → Nat} : Drains due turn key []
  | stop {key : α → Nat} {x : α} {xs : List α} : due (key x) = false → Drains due turn key (x :: xs)
  | leave {key : α → Nat} {x : α} {xs : List α} : due (key x) = true → turn x = .leave →
      Drains due turn key xs → Drains due turn key (x :: xs)
  | back {key : α → Nat} {x : α} {xs : List α} {k : Nat} : due (key x) = true → turn x = .back k →
      Drains due turn (update key x k) (insertFirst (fun y => decide (k < key y)) x xs) →
      Drains due turn key (x :: xs)

def Pending (turn : α → Turn) (key : α → Nat) (ys zs : List α) (d : Nat) : Prop :=
  (∃ y ∈ ys, turn y = .back d) ∨ ∃ z ∈ zs, key z = d

structure Halts (due : Nat → Bool) (turn : α → Turn) (key : α → Nat) (ys zs : List α) : Prop where
  taken : ∀ y ∈ ys, due (key y) = true ∧ turn y ≠ .stuck
  once : ys.Pairwise fun a b => ∀ k, turn a = .back k → key b ≤ k
  first : ∀ d, Pending turn key ys zs d → due d = true →
    ∃ b, Pending turn key ys zs b ∧ due b = false ∧ b < d

omit [DecidableEq α] in
lemma insertFirst_perm {p : α → Bool} (a : α) (l : List α) :
    (insertFirst p a l).Perm (a :: l) := by
  refine perm_middle.trans (List.Perm.of_eq ?_)
  rw [takeWhile_append_dropWhile]

omit [DecidableEq α] in
lemma insertFirst_append {p : α → Bool} {a : α} (h : ∀ b ∈ ys, p b = false) :
    insertFirst p a (ys ++ zs) = ys ++ insertFirst p a zs := by
  have hnot : ∀ b ∈ ys, (!p b) = true := fun b hb => by simp [h b hb]
  rw [insertFirst, insertFirst, takeWhile_append_of_pos hnot, dropWhile_append_of_pos hnot,
    append_assoc]

variable (key) in
lemma key_update (hx : x ∉ xs) (k : Nat) (y : α) (hy : y ∈ xs) : update key x k y = key y := by
  have hne : y ≠ x := fun h => hx (h ▸ hy)
  exact update_of_ne hne _ _

lemma ascending_back (hsort : Ascending key xs) (hx : x ∉ xs) (k : Nat) :
    Ascending (update key x k) (insertFirst (fun y => decide (k < key y)) x xs) := by
  have hkey := key_update key hx k
  have hinsert := (hsort.congr hkey).insertFirst x
  rwa [update_self, insertFirst_congr fun y hy => by rw [hkey y hy]] at hinsert

lemma pending_back {ws : List α} (hkey : ∀ z ∈ zs, update key x k z = key z)
    (hturn : turn x = .back k) (hws : ∀ z, z ∈ ws ↔ z ∈ x :: zs) (ys : List α) (d : Nat) :
    Pending turn (update key x k) ys ws d ↔ Pending turn key (x :: ys) zs d := by
  have hleft : (∃ y ∈ x :: ys, turn y = .back d) ↔ k = d ∨ ∃ y ∈ ys, turn y = .back d := by
    simp [hturn]
  have hright : (∃ z ∈ ws, update key x k z = d) ↔ k = d ∨ ∃ z ∈ zs, key z = d := by
    constructor
    · rintro ⟨z, hz, rfl⟩
      obtain rfl | hz := mem_cons.mp ((hws z).mp hz)
      · exact .inl (by rw [update_self])
      · exact .inr ⟨z, hz, (hkey z hz).symm⟩
    · rintro (rfl | ⟨z, hz, rfl⟩)
      · exact ⟨x, (hws x).mpr mem_cons_self, update_self _ _ _⟩
      · exact ⟨z, (hws z).mpr (mem_cons_of_mem x hz), hkey z hz⟩
  rw [Pending, Pending, hleft, hright, or_assoc]
  exact or_left_comm

lemma Halts.drains (hsort : Ascending key (ys ++ zs)) (hnodup : (ys ++ zs).Nodup)
    (h : Halts due turn key ys zs) : Drains due turn key (ys ++ zs) := by
  induction ys generalizing key zs with
  | nil =>
    cases zs with
    | nil => exact .nil
    | cons z zs =>
      refine .stop (Bool.eq_false_iff.mpr fun hdue => ?_)
      obtain ⟨b, hb, -, hlt⟩ := h.first (key z) (.inr ⟨z, mem_cons_self, rfl⟩) hdue
      obtain ⟨y, hy, -⟩ | ⟨u, hu, rfl⟩ := hb
      · exact absurd hy not_mem_nil
      · obtain rfl | hu := mem_cons.mp hu
        · exact absurd hlt (lt_irrefl _)
        · exact absurd ((pairwise_cons.mp hsort).1 u hu) (not_le_of_gt hlt)
  | cons y ys ih =>
    rw [cons_append] at hsort hnodup ⊢
    obtain ⟨hdue, hstuck⟩ := h.taken y mem_cons_self
    obtain ⟨honce, honces⟩ := pairwise_cons.mp h.once
    obtain ⟨hy, hnodup'⟩ := nodup_cons.mp hnodup
    have hsort' : Ascending key (ys ++ zs) := (pairwise_cons.mp hsort).2
    cases hturn : turn y with
    | stuck => exact absurd hturn hstuck
    | leave =>
      refine .leave hdue hturn (ih hsort' hnodup' ⟨fun u hu => ?_, honces, ?_⟩)
      · exact h.taken u (mem_cons_of_mem y hu)
      · have hpending : ∀ d, Pending turn key ys zs d ↔ Pending turn key (y :: ys) zs d := by
          intro d
          simp [Pending, hturn]
        simpa only [hpending] using h.first
    | back k =>
      have hkey := key_update key hy k
      have hsplit : insertFirst (fun u => decide (k < key u)) y (ys ++ zs) =
          ys ++ insertFirst (fun u => decide (k < key u)) y zs :=
        insertFirst_append fun u hu => decide_eq_false (not_lt_of_ge (honce u hu k hturn))
      have hys : ∀ u ∈ ys, update key y k u = key u := fun u hu =>
        hkey u (mem_append_left zs hu)
      have hzs : ∀ u ∈ zs, update key y k u = key u := fun u hu =>
        hkey u (mem_append_right ys hu)
      refine .back hdue hturn ?_
      have hsorted := ascending_back hsort' hy k
      have hnew := (insertFirst_perm (p := fun u => decide (k < key u)) y (ys ++ zs)).nodup_iff.mpr
        hnodup
      rw [hsplit] at hsorted hnew ⊢
      refine ih hsorted hnew ⟨fun u hu => ?_, ?_, ?_⟩
      · rw [hys u hu]
        exact h.taken u (mem_cons_of_mem y hu)
      · refine honces.imp_of_mem fun _ hu hab j hj => ?_
        rw [hys _ hu]
        exact hab j hj
      · have hmem : ∀ u, u ∈ insertFirst (fun u => decide (k < key u)) y zs ↔
          u ∈ y :: zs := fun u =>
          mem_insertFirst.trans mem_cons.symm
        have hpending := pending_back hzs hturn hmem ys
        simpa only [hpending] using h.first

omit [DecidableEq α] in
lemma lt_of_mem_dropWhile (hsort : Ascending key xs) {y : α}
    (hy : y ∈ xs.dropWhile fun u => !decide (k < key u)) : k < key y := by
  have hsorted : Ascending key (xs.dropWhile fun u => !decide (k < key u)) :=
    hsort.sublist (dropWhile_sublist _)
  have hhead := head?_dropWhile_not (fun u => !decide (k < key u)) xs
  cases hdrop : xs.dropWhile fun u => !decide (k < key u) with
  | nil => simp [hdrop] at hy
  | cons c cs =>
    rw [hdrop] at hsorted hy hhead
    have hc : k < key c := by simpa using hhead
    obtain rfl | hy := mem_cons.mp hy
    · exact hc
    · exact lt_of_lt_of_le hc ((pairwise_cons.mp hsorted).1 y hy)

lemma Halts.not_mem (hsort : Ascending key xs) (hx : x ∉ xs)
    (hturn : turn x = .back k) (hsplit : insertFirst (fun u => decide (k < key u)) x xs = ys ++ zs)
    (h : Halts due turn (update key x k) ys zs) : x ∉ ys := by
  intro hmem
  obtain ⟨as, bs, rfl⟩ := append_of_mem hmem
  have htake : x ∉ xs.takeWhile fun u => !decide (k < key u) := fun h =>
    hx ((takeWhile_sublist _).subset h)
  have hdrop : x ∉ xs.dropWhile fun u => !decide (k < key u) := fun h =>
    hx ((dropWhile_sublist _).subset h)
  rw [insertFirst, append_assoc, cons_append, append_cons_inj_of_notMem htake hdrop] at hsplit
  obtain ⟨-, -, hrest⟩ := hsplit
  have hgreater : ∀ y ∈ bs ++ zs, k < update key x k y := by
    intro y hy
    rw [← hrest] at hy
    rw [key_update key hdrop k y hy]
    exact lt_of_mem_dropWhile hsort hy
  have hdue := (h.taken x hmem).1
  rw [update_self] at hdue
  obtain ⟨hbefore, hafter, hcross⟩ := pairwise_append.mp h.once
  obtain ⟨b, hb, -, hlt⟩ := h.first k (.inl ⟨x, hmem, hturn⟩) hdue
  obtain ⟨y, hy, hback⟩ | ⟨z, hz, rfl⟩ := hb
  · obtain hy | hy := mem_append.mp hy
    · have hle := hcross y hy x mem_cons_self b hback
      rw [update_self] at hle
      exact absurd hlt (not_lt_of_ge hle)
    · obtain rfl | hy := mem_cons.mp hy
      · rw [hturn] at hback
        cases hback
        exact absurd hlt (lt_irrefl _)
      · have hle := (pairwise_cons.mp hafter).1 y hy k hturn
        exact absurd (hgreater y (mem_append_left zs hy)) (not_lt_of_ge hle)
  · exact absurd (hgreater z (mem_append_right bs hz)) (not_lt_of_ge (le_of_lt hlt))

lemma Drains.halts (h : Drains due turn key xs) (hsort : Ascending key xs) (hnodup : xs.Nodup) :
    ∃ ys zs, xs = ys ++ zs ∧ Halts due turn key ys zs := by
  induction h with
  | nil => exact ⟨[], [], rfl, by simp, List.Pairwise.nil, by simp [Pending]⟩
  | @stop key x xs hdue =>
    refine ⟨[], x :: xs, rfl, by simp, List.Pairwise.nil, ?_⟩
    rintro d (⟨y, hy, -⟩ | ⟨z, hz, rfl⟩) hd
    · exact absurd hy not_mem_nil
    · refine ⟨key x, .inr ⟨x, mem_cons_self, rfl⟩, hdue, ?_⟩
      obtain rfl | hz := mem_cons.mp hz
      · rw [hdue] at hd
        cases hd
      · refine lt_of_le_of_ne ((pairwise_cons.mp hsort).1 z hz) fun heq => ?_
        rw [heq, hd] at hdue
        cases hdue
  | @leave key x xs hdue hturn _ ih =>
    obtain ⟨ys, zs, rfl, hhalts⟩ := ih (pairwise_cons.mp hsort).2 (nodup_cons.mp hnodup).2
    refine ⟨x :: ys, zs, rfl, fun y hy => ?_, ?_, ?_⟩
    · obtain rfl | hy := mem_cons.mp hy
      · exact ⟨hdue, by simp [hturn]⟩
      · exact hhalts.taken y hy
    · exact pairwise_cons.mpr ⟨fun y _ k hk => by simp [hturn] at hk, hhalts.once⟩
    · have hpending : ∀ d, Pending turn key (x :: ys) zs d ↔ Pending turn key ys zs d := by
        intro d
        simp [Pending, hturn]
      simpa only [hpending] using hhalts.first
  | @back key x xs k hdue hturn _ ih =>
    obtain ⟨hx, hnodup'⟩ := nodup_cons.mp hnodup
    have hsort' : Ascending key xs := (pairwise_cons.mp hsort).2
    have hsorted := ascending_back hsort' hx k
    have hperm := insertFirst_perm (p := fun u => decide (k < key u)) x xs
    obtain ⟨ys, zs, hsplit, hhalts⟩ := ih hsorted (hperm.nodup_iff.mpr hnodup)
    have hys : x ∉ ys := hhalts.not_mem hsort' hx hturn hsplit
    have hzs : x ∈ zs := by
      have hmem : x ∈ ys ++ zs := hsplit ▸ hperm.mem_iff.mpr mem_cons_self
      exact (mem_append.mp hmem).resolve_left hys
    have hxs : xs = ys ++ zs.erase x := by
      rw [← erase_append_right _ hys, ← hsplit, insertFirst, erase_append_right,
        erase_cons_head, takeWhile_append_dropWhile]
      exact fun h => hx ((takeWhile_sublist _).subset h)
    have hkey : ∀ u ∈ ys ++ zs.erase x, update key x k u = key u := fun u hu =>
      key_update key hx k u (hxs ▸ hu)
    refine ⟨x :: ys, zs.erase x, by rw [hxs, cons_append], fun y hy => ?_, ?_, ?_⟩
    · obtain rfl | hy := mem_cons.mp hy
      · exact ⟨hdue, by simp [hturn]⟩
      · rw [← hkey y (mem_append_left _ hy)]
        exact hhalts.taken y hy
    · refine pairwise_cons.mpr ⟨fun y hy j hj => ?_, ?_⟩
      · rw [hturn] at hj
        cases hj
        rw [hsplit] at hsorted
        have hle := (pairwise_append.mp hsorted).2.2 y hy x hzs
        rwa [update_self, hkey y (mem_append_left _ hy)] at hle
      · refine hhalts.once.imp_of_mem fun _ hb hab j hj => ?_
        rw [← hkey _ (mem_append_left _ hb)]
        exact hab j hj
    · have hpending := pending_back (fun z hz => hkey z (mem_append_right ys hz)) hturn
        (fun z => (perm_cons_erase hzs).mem_iff) ys
      simpa only [hpending] using hhalts.first

end Xiuos.Lib
