import Mathlib
import Xiuos.Lib.Fuel

/-! Circular doubly linked lists, in which a node that is in no list is linked to itself, refined by a
list of nodes for each head. -/

namespace Xiuos.Lib
open Function List Nat

structure Links (α : Type) where
  next : α → α
  prev : α → α

namespace Links

section
variable {α : Type}

/-- The nodes `xs` are linked in this order between `a` and `b`. -/
def Seg (l : Links α) : α → List α → α → Prop
  | a, [], b => l.next a = b ∧ l.prev b = a
  | a, x :: xs, b => (l.next a = x ∧ l.prev x = a) ∧ Seg l x xs b

variable {l l' : Links α}

lemma seg_append {a x b : α} {xs ys : List α} :
    l.Seg a (xs ++ x :: ys) b ↔ l.Seg a xs x ∧ l.Seg x ys b := by
  induction xs generalizing a with
  | nil => rfl
  | cons y xs ih => simp only [cons_append, Seg, ih, and_assoc]

variable {xs : List α} {a b : α}

section
variable (h : l.Seg a xs b)
include h

lemma Seg.congr (hnext : ∀ c ∈ a :: xs, l'.next c = l.next c)
    (hprev : ∀ c ∈ xs ++ [b], l'.prev c = l.prev c) : l'.Seg a xs b := by
  induction xs generalizing a with
  | nil =>
    simp only [Seg, hnext a (by simp), hprev b (by simp)]
    exact h
  | cons x xs ih =>
    simp only [Seg, hnext a (by simp), hprev x (by simp)]
    exact ⟨h.1, ih h.2 (fun c hc => hnext c (mem_cons_of_mem _ hc))
      fun c hc => hprev c (mem_cons_of_mem _ hc)⟩

lemma Seg.last : ∃ p ∈ a :: xs, l.next p = b ∧ l.prev b = p := by
  induction xs generalizing a with
  | nil => exact ⟨a, by simp, h⟩
  | cons x xs ih =>
    obtain ⟨p, hp, hlink⟩ := ih h.2
    exact ⟨p, mem_cons_of_mem _ hp, hlink⟩

lemma Seg.getLast? : (a :: xs).getLast? = some (l.prev b) := by
  induction xs generalizing a with
  | nil => exact congrArg some h.2.symm
  | cons x xs ih =>
    rw [getLast?_cons_cons]
    exact ih h.2

lemma Seg.first : ∃ q ∈ xs ++ [b], l.next a = q ∧ l.prev q = a := by
  cases xs with
  | nil => exact ⟨b, by simp, h⟩
  | cons x xs => exact ⟨x, by simp, h.1⟩

lemma Seg.next_prev (c : α) (hc : c ∈ xs ++ [b]) : l.next (l.prev c) = c := by
  induction xs generalizing a with
  | nil =>
    obtain rfl := mem_singleton.mp hc
    rw [h.2, h.1]
  | cons x xs ih =>
    obtain rfl | hc := mem_cons.mp hc
    · rw [h.1.2, h.1.1]
    · exact ih h.2 hc

lemma Seg.prev_next (c : α) (hc : c ∈ a :: xs) : l.prev (l.next c) = c := by
  induction xs generalizing a with
  | nil =>
    obtain rfl := mem_singleton.mp hc
    rw [h.1, h.2]
  | cons x xs ih =>
    obtain rfl | hc := mem_cons.mp hc
    · rw [h.1.1, h.1.2]
    · exact ih h.2 hc

end

def entry (b : α) : List α → α
  | [] => b
  | x :: _ => x

lemma entry_mem (b : α) (xs : List α) : entry b xs ∈ xs ++ [b] := by
  cases xs <;> simp [entry]

lemma Seg.next_eq (h : l.Seg a xs b) : l.next a = entry b xs := by
  cases xs with
  | nil => exact h.1
  | cons x xs => exact h.1.1

lemma Seg.prev_entry (h : l.Seg a xs b) : l.prev (entry b xs) = a := by
  cases xs with
  | nil => exact h.2
  | cons x xs => exact h.1.2

lemma Seg.relink {a a' b : α} (h : l.Seg a xs b) (hnodup : (xs ++ [b]).Nodup)
    (hn : l'.next a' = entry b xs) (hp : l'.prev (entry b xs) = a')
    (hnext : ∀ c ∈ xs, l'.next c = l.next c)
    (hprev : ∀ c ∈ xs ++ [b], c ≠ entry b xs → l'.prev c = l.prev c) : l'.Seg a' xs b := by
  cases xs with
  | nil => exact ⟨hn, hp⟩
  | cons x xs =>
    refine ⟨⟨hn, hp⟩, h.2.congr hnext fun c hc => hprev c (mem_cons_of_mem _ hc) ?_⟩
    rintro rfl
    exact (nodup_cons.mp hnodup).1 hc

lemma Seg.left {xs ys : List α} (h : l.Seg a (xs ++ ys) b) : l.Seg a xs (entry b ys) := by
  cases ys with
  | nil => simpa [entry] using h
  | cons y ys => exact (seg_append.mp h).1

end

variable {α : Type} [DecidableEq α] (l : Links α)

def setNext (l : Links α) (a b : α) : Links α := { l with next := update l.next a b }

def setPrev (l : Links α) (a b : α) : Links α := { l with prev := update l.prev a b }

def init (l : Links α) (a : α) : Links α := (l.setNext a a).setPrev a a

def insertAfter (l : Links α) (a n : α) : Links α :=
  let l := l.setPrev (l.next a) n
  let l := l.setNext n (l.next a)
  let l := l.setNext a n
  l.setPrev n a

def insertBefore (l : Links α) (a n : α) : Links α :=
  let l := l.setNext (l.prev a) n
  let l := l.setPrev n (l.prev a)
  let l := l.setPrev a n
  l.setNext n a

def remove (l : Links α) (n : α) : Links α :=
  let l := l.setPrev (l.next n) (l.prev n)
  let l := l.setNext (l.prev n) (l.next n)
  let l := l.setNext n n
  l.setPrev n n

def find (l : Links α) (b : α) (p : α → Bool) : Nat → α → Option α
  | 0, _ => none
  | fuel + 1, a => if a = b ∨ p a then some a else find l b p fuel (l.next a)

lemma find_spec {l : Links α} {b a c : α} {p : α → Bool} {fuel : Nat}
    (h : l.find b p fuel a = some c) : c = b ∨ p c = true := by
  induction fuel generalizing a with
  | zero => cases h
  | succ fuel ih =>
    rw [find] at h
    split at h
    · cases h
      assumption
    · exact ih h

def insertSorted (l : Links α) (b : α) (p : α → Bool) (n : α) (fuel : Nat) : Option (Links α) := do
  let node ← l.find b p fuel (l.next b)
  some (if node ≠ b then l.insertBefore node n else l.insertAfter (l.prev b) n)

variable {l : Links α}

lemma foldl_init {ns : List α} {a : α} (h : a ∈ ns ∨ (l.next a = a ∧ l.prev a = a)) :
    (ns.foldl init l).next a = a ∧ (ns.foldl init l).prev a = a := by
  induction ns generalizing l with
  | nil => simpa using h
  | cons n ns ih =>
    refine ih ?_
    by_cases ha : a = n
    · exact .inr (by simp [init, setNext, setPrev, ha])
    · refine h.imp (fun h => ?_) fun h => ?_
      · exact (mem_cons.mp h).resolve_left ha
      · simpa [init, setNext, setPrev, ha] using h

lemma remove_next (n c : α) :
    (l.remove n).next c = if c = n then n else if c = l.prev n then l.next n else l.next c := by
  simp [remove, setNext, setPrev, update_apply]

lemma remove_prev (n c : α) :
    (l.remove n).prev c = if c = n then n else if c = l.next n then l.prev n else l.prev c := by
  simp [remove, setNext, setPrev, update_apply]

lemma insertBefore_next {a n : α} (c : α) :
    (l.insertBefore a n).next c = if c = n then a else if c = l.prev a then n else l.next c := by
  simp [insertBefore, setNext, setPrev, update_apply]

lemma insertBefore_prev {a n : α} (c : α) :
    (l.insertBefore a n).prev c = if c = a then n else if c = n then l.prev a else l.prev c := by
  simp [insertBefore, setNext, setPrev, update_apply]

lemma insertAfter_eq {p n : α} (hlink : l.prev (l.next p) = p) (hp : p ≠ n)
    (hq : l.next p ≠ n) : l.insertAfter p n = l.insertBefore (l.next p) n := by
  have hnext : (l.insertAfter p n).next = (l.insertBefore (l.next p) n).next := by
    funext c
    rw [insertBefore_next, hlink]
    simp only [insertAfter, setNext, setPrev, update_apply]
    split <;> split <;> simp_all
  have hprev : (l.insertAfter p n).prev = (l.insertBefore (l.next p) n).prev := by
    funext c
    rw [insertBefore_prev, hlink]
    simp only [insertAfter, setNext, setPrev, update_apply]
    split <;> split <;> simp_all
  exact congrArg₂ Links.mk hnext hprev

lemma remove_of_self {n : α} (hn : l.next n = n) (hp : l.prev n = n) : l.remove n = l := by
  have hnext : (l.remove n).next = l.next := by
    funext c
    rw [remove_next, hn, hp]
    split
    · simp_all
    · rfl
  have hprev : (l.remove n).prev = l.prev := by
    funext c
    rw [remove_prev, hn, hp]
    split
    · simp_all
    · rfl
  exact congrArg₂ Links.mk hnext hprev

lemma init_of_self {n : α} (hn : l.next n = n) (hp : l.prev n = n) : l.init n = l := by
  have hnext : update l.next n n = l.next := update_eq_self_iff.mpr hn.symm
  have hprev : update l.prev n n = l.prev := update_eq_self_iff.mpr hp.symm
  rw [init, setNext, setPrev, hnext, hprev]

lemma Seg.remove {a b n : α} {xs ys : List α} (h : l.Seg a (xs ++ n :: ys) b)
    (hnext : (a :: (xs ++ n :: ys)).Nodup) (hprev : (xs ++ n :: ys ++ [b]).Nodup) :
    (l.remove n).Seg a (xs ++ ys) b := by
  induction xs generalizing a with
  | nil =>
    obtain ⟨⟨-, hpn⟩, h⟩ := h
    rw [nil_append, nodup_cons, nodup_cons] at hnext
    rw [nil_append, cons_append, nodup_cons] at hprev
    have hmem := entry_mem b ys
    have hne : entry b ys ≠ n := fun he => hprev.1 (he ▸ hmem)
    refine h.relink hprev.2 ?_ ?_ (fun c hc => ?_) fun c hc hce => ?_
    · rw [remove_next, if_neg (by simp_all), if_pos hpn.symm, h.next_eq]
    · rw [remove_prev, if_neg hne, if_pos h.next_eq.symm, hpn]
    · rw [remove_next, if_neg (by rintro rfl; exact hnext.2.1 hc), hpn,
        if_neg (by rintro rfl; simp_all)]
    · rw [remove_prev, if_neg (by rintro rfl; exact hprev.1 hc), h.next_eq, if_neg hce]
  | cons x xs ih =>
    obtain ⟨hax, h⟩ := h
    obtain ⟨p, hp, -, hpn⟩ := (seg_append.mp h).1.last
    obtain ⟨q, hq, hqn, -⟩ := (seg_append.mp h).2.first
    rw [cons_append, nodup_cons] at hnext
    rw [cons_append, cons_append, nodup_cons] at hprev
    refine ⟨⟨?_, ?_⟩, ih h hnext.2 hprev.2⟩
    · rw [remove_next, hpn, if_neg (by rintro rfl; simp at hnext),
        if_neg (by rintro rfl; simp at hnext hp; tauto), hax.1]
    · rw [remove_prev, hqn, if_neg (by rintro rfl; simp at hprev),
        if_neg (by rintro rfl; simp at hprev hq; tauto), hax.2]

lemma Seg.insertBefore {a b n : α} {xs ys : List α} (h : l.Seg a (xs ++ ys) b)
    (hnext : (a :: (xs ++ ys)).Nodup) (hprev : (xs ++ ys ++ [b]).Nodup)
    (hna : n ∉ a :: (xs ++ ys)) (hnb : n ≠ b) :
    (l.insertBefore (entry b ys) n).Seg a (xs ++ n :: ys) b := by
  have hen : n ≠ entry b ys := by
    rintro rfl
    have := entry_mem b ys
    simp_all
  induction xs generalizing a with
  | nil =>
    rw [nil_append, nodup_cons] at hnext
    rw [nil_append, mem_cons, not_or] at hna
    have hpa := h.prev_entry
    rw [nil_append] at h hprev hpa
    refine ⟨⟨?_, ?_⟩, h.relink hprev ?_ ?_ (fun c hc => ?_) fun c hc hce => ?_⟩
    · rw [insertBefore_next, if_neg (Ne.symm hna.1), if_pos hpa.symm]
    · rw [insertBefore_prev, if_neg hen, if_pos rfl, hpa]
    · rw [insertBefore_next, if_pos rfl]
    · rw [insertBefore_prev, if_pos rfl]
    · rw [insertBefore_next, if_neg (by rintro rfl; exact hna.2 hc), hpa,
        if_neg (by rintro rfl; exact hnext.1 hc)]
    · rw [insertBefore_prev, if_neg hce, if_neg (by rintro rfl; simp_all)]
  | cons x xs ih =>
    obtain ⟨hax, h⟩ := h
    obtain ⟨p, hp, -, hpe⟩ := h.left.last
    have hmem := entry_mem b ys
    rw [cons_append, nodup_cons] at hnext
    rw [cons_append, cons_append, nodup_cons] at hprev
    rw [cons_append, mem_cons, not_or] at hna
    refine ⟨⟨?_, ?_⟩, ih h hnext.2 hprev.2 hna.2⟩
    · rw [insertBefore_next, if_neg (Ne.symm hna.1), hpe,
        if_neg (by rintro rfl; simp at hnext hp; tauto), hax.1]
    · rw [insertBefore_prev, if_neg (by rintro rfl; simp at hprev hmem; tauto),
        if_neg (by rintro rfl; simp at hna), hax.2]

end Links

structure Rings {H N : Type} (l : Links (H ⊕ N)) (lists : H → List N) : Prop where
  seg : ∀ h, l.Seg (.inl h) ((lists h).map .inr) (.inl h)
  nodup : ∀ h, (lists h).Nodup
  unique : ∀ {h h' n}, n ∈ lists h → n ∈ lists h' → h = h'
  self : ∀ n, (∀ h, n ∉ lists h) → l.next (.inr n) = .inr n ∧ l.prev (.inr n) = .inr n

namespace Rings
open Links
variable {H N : Type} {l l' : Links (H ⊕ N)} {lists : H → List N}

def nodes (lists : H → List N) (h : H) : List (H ⊕ N) := .inl h :: (lists h).map .inr

lemma mem_nodes_inl {h h' : H} : Sum.inl h' ∈ nodes lists h ↔ h' = h := by simp [nodes]

variable {n : N} {h : H}

lemma mem_nodes_inr : Sum.inr n ∈ nodes lists h ↔ n ∈ lists h := by simp [nodes]

variable {c : H ⊕ N}

lemma mem_nodes_iff : c ∈ (lists h).map Sum.inr ++ [.inl h] ↔ c ∈ nodes lists h := by
  simp [nodes, or_comm]

lemma nodes_nodup (r : Rings l lists) (h : H) : (nodes lists h).Nodup := by
  simp [nodes, (r.nodup h).map Sum.inr_injective]

lemma nodes_nodup' (r : Rings l lists) (h : H) :
    ((lists h).map Sum.inr ++ [.inl h] : List (H ⊕ N)).Nodup := by
  simp [nodup_append, (r.nodup h).map Sum.inr_injective]

lemma nodes_disjoint (r : Rings l lists) {h h' : H} (hc : c ∈ nodes lists h)
    (hc' : c ∈ nodes lists h') : h = h' := by
  cases c with
  | inl k => exact (mem_nodes_inl.mp hc).symm.trans (mem_nodes_inl.mp hc')
  | inr n => exact r.unique (mem_nodes_inr.mp hc) (mem_nodes_inr.mp hc')

lemma mem_nodes_of_split {xs ys : List N} (hsplit : lists h = xs ++ ys) :
    entry (.inl h) (ys.map .inr) ∈ nodes lists h := by
  have := entry_mem (Sum.inl h) (ys.map (Sum.inr : N → H ⊕ N))
  simp only [nodes, hsplit, map_append, mem_append, mem_cons, not_mem_nil, or_false] at this ⊢
  tauto

variable [DecidableEq H]

lemma update (r : Rings l lists) {xs : List N} (hout : ∀ h' ≠ h, n ∉ lists h')
    (hseg : l'.Seg (.inl h) (xs.map .inr) (.inl h)) (hnodup : xs.Nodup)
    (hsub : ∀ m ∈ xs, m ∈ lists h ∨ m = n)
    (hframe : ∀ c ∉ nodes lists h, c ≠ .inr n → l'.next c = l.next c ∧ l'.prev c = l.prev c)
    (hself : ∀ m, m ∈ lists h ∨ m = n → m ∉ xs → l'.next (.inr m) = .inr m ∧
      l'.prev (.inr m) = .inr m)
    :
    Rings l' (update lists h xs) where
  seg h' := by
    by_cases he : h' = h
    · subst he
      rwa [update_self]
    · have hc : ∀ c ∈ nodes lists h', c ∉ nodes lists h ∧ c ≠ .inr n := fun c hc =>
        ⟨fun hc' => he (r.nodes_disjoint hc hc'),
          fun hn => hout h' he (mem_nodes_inr.mp (hn ▸ hc))⟩
      rw [update_of_ne he]
      exact (r.seg h').congr (fun c hm => (hframe c (hc c hm).1 (hc c hm).2).1)
        fun c hm => (hframe c (hc c (mem_nodes_iff.mp hm)).1 (hc c (mem_nodes_iff.mp hm)).2).2
  nodup h' := by
    by_cases he : h' = h
    · subst he
      rwa [update_self]
    · rw [update_of_ne he]
      exact r.nodup h'
  unique {h₁ h₂ m} h1 h2 := by
    have hcases : ∀ {k}, m ∈ Function.update lists h xs k → k ≠ h → m ∈ lists k ∧ k ≠ h := by
      intro k hk hne
      rw [update_of_ne hne] at hk
      exact ⟨hk, hne⟩
    by_cases he1 : h₁ = h <;> by_cases he2 : h₂ = h
    · rw [he1, he2]
    · subst he1
      rw [update_self] at h1
      obtain ⟨h2, -⟩ := hcases h2 he2
      obtain hm | rfl := hsub m h1
      · exact r.unique hm h2
      · exact absurd h2 (hout _ he2)
    · subst he2
      rw [update_self] at h2
      obtain ⟨h1, -⟩ := hcases h1 he1
      obtain hm | rfl := hsub m h2
      · exact r.unique h1 hm
      · exact absurd h1 (hout _ he1)
    · exact r.unique (hcases h1 he1).1 (hcases h2 he2).1
  self m hm := by
    have hxs : m ∉ xs := by simpa using hm h
    by_cases hin : m ∈ lists h ∨ m = n
    · exact hself m hin hxs
    · rw [not_or] at hin
      have hfree : ∀ h', m ∉ lists h' := by
        intro h'
        by_cases he : h' = h
        · exact he ▸ hin.1
        · simpa [update_of_ne he] using hm h'
      have hf := hframe (.inr m) (fun hc => hin.1 (mem_nodes_inr.mp hc)) (by simpa using hin.2)
      rw [hf.1, hf.2]
      exact r.self m hfree

lemma mem_update_insert {h k : H} {n m : N} {xs ys : List N} (hsplit : lists h = xs ++ ys) :
    m ∈ Function.update lists h (xs ++ n :: ys) k ↔ (k = h ∧ m = n) ∨ m ∈ lists k := by
  by_cases hk : k = h
  · subst hk
    rw [update_self, hsplit]
    simp only [mem_append, mem_cons, true_and]
    tauto
  · simp [hk]

variable [DecidableEq N]

section
variable (r : Rings l lists)
include r

lemma remove (n : N) : Rings (l.remove (.inr n)) fun h => (lists h).erase n := by
  by_cases hfree : ∀ h, n ∉ lists h
  · have hsame : (fun h => (lists h).erase n) = lists := funext fun h => erase_of_not_mem (hfree h)
    rw [hsame, remove_of_self (r.self n hfree).1 (r.self n hfree).2]
    exact r
  · rw [not_forall_not] at hfree
    obtain ⟨h, hn⟩ := hfree
    obtain ⟨xs, ys, hsplit⟩ := append_of_mem hn
    have hnodup := r.nodup h
    rw [hsplit] at hnodup
    have hmid := nodup_middle.mp hnodup
    rw [nodup_cons] at hmid
    have hlists : (fun h => (lists h).erase n) = Function.update lists h (xs ++ ys) := by
      funext h'
      by_cases he : h' = h
      · subst he
        rw [update_self, hsplit, erase_append_right _ fun hm => hmid.1 (by simp [hm]),
          erase_cons_head]
      · rw [update_of_ne he, erase_of_not_mem fun hm => he (r.unique hm hn)]
    have hseg := r.seg h
    have hnext := r.nodes_nodup h
    have hprev := r.nodes_nodup' h
    rw [nodes] at hnext
    rw [hsplit, map_append, map_cons] at hseg hnext hprev
    obtain ⟨p, hp, -, hpn⟩ := (seg_append.mp hseg).1.last
    obtain ⟨q, hq, hqn, -⟩ := (seg_append.mp hseg).2.first
    rw [hlists]
    refine r.update (fun h' he hm => he (r.unique hm hn)) ?_ hmid.2 (fun m hm => ?_)
      (fun c hc hcn => ?_) fun m hm hnot => ?_
    · rw [map_append]
      exact hseg.remove hnext hprev
    · rw [hsplit]
      simp only [mem_append, mem_cons] at hm ⊢
      tauto
    · rw [remove_next, remove_prev, hpn, hqn, if_neg hcn, if_neg hcn, if_neg, if_neg]
      · exact ⟨rfl, rfl⟩
      · rintro rfl
        apply hc
        simp only [nodes, hsplit, map_append, map_cons, mem_cons, mem_append,
          not_mem_nil, or_false] at hq ⊢
        tauto
      · rintro rfl
        apply hc
        simp only [nodes, hsplit, map_append, map_cons, mem_cons, mem_append] at hp ⊢
        tauto
    · have hmn : m = n := by
        rw [hsplit] at hm
        simp only [mem_append, mem_cons] at hm hnot
        tauto
      rw [hmn, remove_next, remove_prev, if_pos rfl, if_pos rfl]
      exact ⟨rfl, rfl⟩

lemma insertBefore (hn : ∀ h, n ∉ lists h) {xs ys : List N} (hsplit : lists h = xs ++ ys) :
    Rings (l.insertBefore (entry (.inl h) (ys.map .inr)) (.inr n))
      (Function.update lists h (xs ++ n :: ys)) := by
  have hseg := r.seg h
  have hnext := r.nodes_nodup h
  have hprev := r.nodes_nodup' h
  have hnh := hn h
  rw [nodes] at hnext
  rw [hsplit, map_append] at hseg hnext hprev
  rw [hsplit] at hnh
  have hnodup := r.nodup h
  rw [hsplit] at hnodup
  have hmem := mem_nodes_of_split hsplit
  obtain ⟨p, hp, -, hpe⟩ := hseg.left.last
  have hpm : p ∈ nodes lists h := by
    simp only [nodes, hsplit, map_append, mem_append, mem_cons] at hp ⊢
    tauto
  refine r.update (fun h' _ => hn h') ?_ ?_ (fun m hm => ?_) (fun c hc hcn => ?_)
    fun m hm hnot => ?_
  · rw [map_append, map_cons]
    exact hseg.insertBefore hnext hprev (by simpa using hnh) Sum.inr_ne_inl
  · exact nodup_middle.mpr (nodup_cons.mpr ⟨hnh, hnodup⟩)
  · rw [hsplit]
    simp only [mem_append, mem_cons] at hm ⊢
    tauto
  · rw [insertBefore_next, insertBefore_prev, hpe, if_neg hcn, if_neg hcn,
      if_neg (by rintro rfl; exact hc hpm), if_neg (by rintro rfl; exact hc hmem)]
    exact ⟨rfl, rfl⟩
  · rw [hsplit] at hm
    simp only [mem_append, mem_cons] at hm hnot
    tauto

lemma insertAfter_last (hn : ∀ h, n ∉ lists h) (h : H) :
    Rings (l.insertAfter (l.prev (.inl h)) (.inr n))
      (Function.update lists h (lists h ++ [n])) := by
  obtain ⟨p, hp, hpn, hpp⟩ := (r.seg h).last
  have hne : p ≠ .inr n := by
    rintro rfl
    exact hn h (mem_nodes_inr.mp hp)
  rw [hpp, insertAfter_eq (by rw [hpn, hpp]) hne (by rw [hpn]; exact Sum.inl_ne_inr), hpn]
  exact r.insertBefore hn (append_nil _).symm

lemma insertAfter_head (hn : ∀ h, n ∉ lists h) (h : H) :
    Rings (l.insertAfter (.inl h) (.inr n)) (Function.update lists h (n :: lists h)) := by
  have hne : l.next (.inl h) ≠ .inr n := by
    intro he
    obtain ⟨q, hq, hqn, -⟩ := (r.seg h).first
    rw [← hqn, he, mem_nodes_iff, mem_nodes_inr] at hq
    exact hn h hq
  rw [insertAfter_eq (by rw [(r.seg h).next_eq, (r.seg h).prev_entry]) Sum.inl_ne_inr hne,
    (r.seg h).next_eq]
  exact r.insertBefore hn (nil_append _).symm

end

omit [DecidableEq H] [DecidableEq N] in
lemma lists_eq {lists' : H → List N} (r : Rings l lists) (r' : Rings l lists') :
    lists = lists' := by
  have hseg : ∀ (h : H) (xs ys : List N) (a : H ⊕ N), l.Seg a (xs.map .inr) (.inl h) →
      l.Seg a (ys.map .inr) (.inl h) → xs = ys := by
    intro h xs
    induction xs with
    | nil =>
      intro ys a hx hy
      cases ys with
      | nil => rfl
      | cons y ys => exact absurd (hx.1.symm.trans hy.1.1) (by simp)
    | cons x xs ih =>
      intro ys a hx hy
      cases ys with
      | nil => exact absurd (hy.1.symm.trans hx.1.1) (by simp)
      | cons y ys =>
        have hxy : x = y := Sum.inr.inj (hx.1.1.symm.trans hy.1.1)
        subst hxy
        rw [ih ys _ hx.2 hy.2]
  exact funext fun h => hseg h _ _ _ (r.seg h) (r'.seg h)

omit [DecidableEq H] [DecidableEq N] in
lemma next_head_eq_iff (r : Rings l lists) (h : H) : l.next (.inl h) = .inl h ↔ lists h = [] := by
  rw [(r.seg h).next_eq]
  cases lists h <;> simp [entry]

omit [DecidableEq H] [DecidableEq N] in
lemma next_head (r : Rings l lists) {h : H} {n : N} {xs : List N} (hl : lists h = n :: xs) :
    l.next (.inl h) = .inr n := by
  rw [(r.seg h).next_eq, hl]
  rfl

lemma find_mono {b : H ⊕ N} {p : H ⊕ N → Bool} {fuel fuel' : Nat} (hf : fuel ≤ fuel')
    {a x : H ⊕ N} (h : l.find b p fuel a = some x) : l.find b p fuel' a = some x := by
  induction fuel generalizing a fuel' with
  | zero => cases h
  | succ fuel ih =>
    obtain ⟨fuel', rfl⟩ := exists_eq_succ_of_ne_zero (by omega : fuel' ≠ 0)
    rw [find] at h ⊢
    split at h
    · rename_i hc
      rw [if_pos hc, h]
    · rename_i hc
      rw [if_neg hc]
      exact ih (by omega) h

lemma find_eq (r : Rings l lists) (h : H) (p : H ⊕ N → Bool) {fuel : Nat}
    (hf : (lists h).length < fuel) :
    l.find (.inl h) p fuel (l.next (.inl h)) =
      some (entry (.inl h) (((lists h).dropWhile fun n => !p (.inr n)).map .inr)) := by
  have hloop : ∀ (a : H ⊕ N) (xs : List N) (fuel : Nat), l.Seg a (xs.map .inr) (.inl h) →
      xs.length < fuel → l.find (.inl h) p fuel (l.next a) =
        some (entry (.inl h) ((xs.dropWhile fun n => !p (.inr n)).map .inr)) := by
    intro a xs fuel hseg hf
    induction xs generalizing a fuel with
    | nil =>
      obtain ⟨fuel, rfl⟩ := exists_eq_succ_of_ne_zero (by omega : fuel ≠ 0)
      rw [hseg.1, find, if_pos (.inl rfl)]
      rfl
    | cons x xs ih =>
      obtain ⟨fuel, rfl⟩ := exists_eq_succ_of_ne_zero (by omega : fuel ≠ 0)
      obtain ⟨hax, hseg⟩ := hseg
      rw [hax.1, find, dropWhile_cons]
      cases hpx : p (.inr x)
      · simp only [reduceCtorEq, Bool.false_eq_true, or_self, if_false, Bool.not_false, if_true]
        exact ih _ _ hseg (by simpa using hf)
      · simp [entry]
  exact hloop _ _ _ (r.seg h) hf

lemma find_returns (r : Rings l lists) (h : H) (p : H ⊕ N → Bool) :
    Returns (fun fuel => l.find (.inl h) p fuel (l.next (.inl h))) fun x =>
      x = entry (.inl h) (((lists h).dropWhile fun n => !p (.inr n)).map .inr) :=
  .of_mono (fun hf hx => find_mono hf hx) (r.find_eq h p (lt_succ_self _)) rfl

lemma insertSorted_returns (r : Rings l lists) (hn : ∀ h, n ∉ lists h) (h : H)
    (p : H ⊕ N → Bool) :
    Returns (fun fuel => l.insertSorted (.inl h) p (.inr n) fuel) fun l' =>
      Rings l' (Function.update lists h ((lists h).takeWhile (fun m => !p (.inr m)) ++
        n :: (lists h).dropWhile fun m => !p (.inr m))) := by
  have hsplit := (takeWhile_append_dropWhile (l := lists h) (p := fun m => !p (.inr m))).symm
  refine (r.find_returns h p).bind ?_
  rintro _ rfl
  split
  · exact .pure (r.insertBefore hn hsplit)
  · rename_i hend
    refine .pure ?_
    have hnil : (lists h).dropWhile (fun m => !p (.inr m)) = [] := by
      cases hd : (lists h).dropWhile fun m => !p (.inr m) with
      | nil => rfl
      | cons m ms => simp [hd, Links.entry] at hend
    rw [hnil, append_nil] at hsplit
    rw [hnil, ← hsplit]
    exact r.insertAfter_last hn h

omit [DecidableEq H] [DecidableEq N] in
lemma next_prev (r : Rings l lists) (c : H ⊕ N) : l.next (l.prev c) = c := by
  by_cases hc : ∃ h, c ∈ nodes lists h
  · obtain ⟨h, hc⟩ := hc
    exact (r.seg h).next_prev c (mem_nodes_iff.mpr hc)
  · cases c with
    | inl h => exact absurd ⟨h, mem_nodes_inl.mpr rfl⟩ hc
    | inr n =>
      obtain ⟨hn, hp⟩ := r.self n fun h hm => hc ⟨h, mem_nodes_inr.mpr hm⟩
      rw [hp, hn]

omit [DecidableEq H] [DecidableEq N] in
lemma prev_next (r : Rings l lists) (c : H ⊕ N) : l.prev (l.next c) = c := by
  by_cases hc : ∃ h, c ∈ nodes lists h
  · obtain ⟨h, hc⟩ := hc
    exact (r.seg h).prev_next c hc
  · cases c with
    | inl h => exact absurd ⟨h, mem_nodes_inl.mpr rfl⟩ hc
    | inr n =>
      obtain ⟨hn, hp⟩ := r.self n fun h hm => hc ⟨h, mem_nodes_inr.mpr hm⟩
      rw [hn, hp]

omit [DecidableEq H] [DecidableEq N] in
lemma next_ne_self (r : Rings l lists) {h : H} {n : N} (hn : n ∈ lists h) :
    l.next (.inr n) ≠ .inr n := by
  obtain ⟨xs, ys, hsplit⟩ := append_of_mem hn
  have hseg := r.seg h
  have hnodup := r.nodup h
  rw [hsplit] at hseg hnodup
  rw [map_append, map_cons, seg_append] at hseg
  rw [hseg.2.next_eq]
  cases ys with
  | nil => simp [entry]
  | cons y ys =>
    have hne : n ≠ y := fun he => by simp [he, nodup_append] at hnodup
    simpa [entry] using hne.symm

lemma insertBefore_linked (r : Rings l lists) (hn : n ∈ lists h) {b : H ⊕ N} (hb : b ≠ .inr n)
    {lists' : H → List N} : ¬ Rings (l.insertBefore b (.inr n)) lists' := by
  intro r'
  have hself := r.next_ne_self hn
  have hprev := r.prev_next (.inr n)
  by_cases he : l.next (.inr n) = b
  · have hnext := r'.next_prev (.inr n)
    rw [insertBefore_prev, if_neg hb.symm, if_pos rfl, ← he, hprev, insertBefore_next,
      if_pos rfl] at hnext
    exact hself hnext
  · have hnext := r'.next_prev (l.next (.inr n))
    rw [insertBefore_prev, if_neg he, if_neg hself, hprev, insertBefore_next, if_pos rfl] at hnext
    exact he hnext.symm

end Rings
end Xiuos.Lib
