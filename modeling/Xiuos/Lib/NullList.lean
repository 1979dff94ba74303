import Xiuos.Lib.Ring

/-! Doubly linked lists that end in a null pointer. -/

namespace Xiuos.Lib.Links
open Function List
variable {α : Type} [DecidableEq α] {l l' : Links α} {null a n : α} {xs ys : List α}

def Ends (l : Links α) (null a : α) (xs : List α) : Prop :=
  ∃ p, (l.setPrev null p).Seg a xs null

lemma setPrev_prev_of_ne {p c : α} (h : c ≠ null) : (l.setPrev null p).prev c = l.prev c :=
  update_of_ne h _ _

namespace Ends

lemma next_eq (h : l.Ends null a xs) : l.next a = entry null xs := by
  obtain ⟨p, h⟩ := h
  exact h.next_eq

lemma tail (h : l.Ends null a (xs ++ n :: ys)) : l.Ends null n ys := by
  obtain ⟨p, h⟩ := h
  exact ⟨p, (seg_append.mp h).2⟩

lemma exists_prev (h : l.Ends null a (xs ++ n :: ys)) (hn : n ≠ null) :
    l.prev n ∈ a :: xs ∧ l.next (l.prev n) = n := by
  obtain ⟨p, h⟩ := h
  obtain ⟨q, hq, hnext, hprev⟩ := (seg_append.mp h).1.last
  rw [setPrev_prev_of_ne hn] at hprev
  rw [hprev]
  exact ⟨hq, hnext⟩

lemma of_seg {k : Links α} (h : k.Seg a xs null) (hnext : ∀ c ∈ a :: xs, l.next c = k.next c)
    (hprev : ∀ c ∈ xs, c ≠ null → l.prev c = k.prev c) : l.Ends null a xs := by
  refine ⟨k.prev null, h.congr hnext fun c hc => ?_⟩
  by_cases hcn : c = null
  · rw [hcn]
    simp [setPrev]
  · rw [setPrev_prev_of_ne hcn]
    exact hprev c (by simpa [hcn] using hc) hcn

lemma congr (h : l.Ends null a xs) (hnext : ∀ c ∈ a :: xs, l'.next c = l.next c)
    (hprev : ∀ c ∈ xs, l'.prev c = l.prev c) : l'.Ends null a xs := by
  obtain ⟨p, h⟩ := h
  refine of_seg h hnext fun c hc hcn => ?_
  rw [setPrev_prev_of_ne hcn, hprev c hc]

omit [DecidableEq α] in
lemma nodup_snoc (hnodup : (a :: xs).Nodup) (hnull : null ∉ xs) : (xs ++ [null]).Nodup := by
  rw [nodup_append]
  refine ⟨(nodup_cons.mp hnodup).2, nodup_singleton _, fun c hc b hb => ?_⟩
  rw [mem_singleton] at hb
  rintro rfl
  exact hnull (hb ▸ hc)

lemma remove (h : l.Ends null a (xs ++ n :: ys)) (hnodup : (a :: (xs ++ n :: ys)).Nodup)
    (hnull : null ∉ xs ++ n :: ys)
    (hnext : ∀ c ∈ a :: (xs ++ ys), l'.next c = if c = l.prev n then l.next n else l.next c)
    (hprev : ∀ c ∈ xs ++ ys, l'.prev c = if c = l.next n then l.prev n else l.prev c) :
    l'.Ends null a (xs ++ ys) := by
  obtain ⟨p, h⟩ := h
  have hn : n ≠ null := by
    rintro rfl
    simp at hnull
  have hout : ∀ c ∈ a :: (xs ++ ys), c ≠ n := by
    rintro c hc rfl
    simp only [nodup_cons, nodup_append, mem_append, mem_cons] at hnodup hc
    grind
  refine of_seg (h.remove hnodup (nodup_snoc hnodup hnull)) (fun c hc => ?_) fun c hc hcn => ?_
  · rw [remove_next, if_neg (hout c hc), setPrev_prev_of_ne hn]
    exact hnext c hc
  · rw [remove_prev, if_neg (hout c (mem_cons_of_mem _ hc)), setPrev_prev_of_ne hn,
      setPrev_prev_of_ne hcn]
    exact hprev c hc

lemma insert (h : l.Ends null a (xs ++ ys)) (hnodup : (a :: (xs ++ ys)).Nodup)
    (hnull : null ∉ n :: (xs ++ ys)) (hn : n ∉ a :: (xs ++ ys)) {p : α}
    (hp : (a :: xs).getLast? = some p)
    (hnext : ∀ c ∈ a :: (xs ++ n :: ys), l'.next c =
      if c = n then entry null ys else if c = p then n else l.next c)
    (hprev : ∀ c ∈ xs ++ n :: ys, l'.prev c =
      if c = entry null ys then n else if c = n then p else l.prev c) :
    l'.Ends null a (xs ++ n :: ys) := by
  obtain ⟨p', h⟩ := h
  rw [mem_cons, not_or] at hnull
  have hpe : (l.setPrev null p').prev (entry null ys) = p :=
    Option.some.inj (h.left.getLast?.symm.trans hp)
  refine of_seg (h.insertBefore hnodup (nodup_snoc hnodup hnull.2) hn (Ne.symm hnull.1))
    (fun c hc => ?_) fun c hc hcn => ?_
  · rw [insertBefore_next, hpe]
    exact hnext c hc
  · rw [insertBefore_prev, hpe, setPrev_prev_of_ne hcn]
    exact hprev c hc

end Ends
end Xiuos.Lib.Links
