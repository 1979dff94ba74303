import Xiuos.Kernel.HeapChain

namespace Xiuos.Kernel
open Lib List Entry

lemma halvings_mono (fuel : Nat) {x y : Nat} (h : x ≤ y) : halvings fuel x ≤ halvings fuel y := by
  induction fuel generalizing x y with
  | zero => exact Nat.le_refl 0
  | succ fuel ih =>
    have hdiv := ih (Nat.div_le_div_right (c := 2) h)
    rw [halvings, halvings]
    split <;> split <;> omega

lemma halvings_le (fuel x : Nat) : halvings fuel x ≤ fuel := by
  induction fuel generalizing x with
  | zero => exact Nat.le_refl 0
  | succ fuel ih =>
    have := ih (x / 2)
    rw [halvings]
    split <;> omega

lemma caculateBuddyIndex_lt (z : Nat) : caculateBuddyIndex z < memLinknrs := by
  have := halvings_le 13 (z >>> 6)
  rw [caculateBuddyIndex, memLinknrs]
  split <;> omega

lemma caculateBuddyIndex_mono {x y : Nat} (h : x ≤ y) :
    caculateBuddyIndex x ≤ caculateBuddyIndex y := by
  have hshift : x >>> 6 ≤ y >>> 6 := by
    rw [Nat.shiftRight_eq_div_pow, Nat.shiftRight_eq_div_pow]
    exact Nat.div_le_div_right h
  have hmono := halvings_mono 13 hshift
  have hle := halvings_le 13 (x >>> 6)
  simp only [caculateBuddyIndex, memLinknrs]
  split <;> split <;> omega

namespace Entry

def index : Entry → Nat
  | .bin i => i
  | .free _ z => caculateBuddyIndex z

def Le (e e' : Entry) : Prop := e.index < e'.index ∨ e.index = e'.index ∧ e.size ≤ e'.size

lemma Le.trans {e e' e'' : Entry} (h : e.Le e') (h' : e'.Le e'') : e.Le e'' := by
  simp only [Le] at *
  omega

lemma Le.size_le {a z b y : Nat} (h : (free a z).Le (free b y)) : z ≤ y := by
  by_contra hlt
  have hmono := caculateBuddyIndex_mono (Nat.le_of_not_le hlt)
  simp only [Le, index, size] at h
  omega

end Entry

structure Ordered (rest : List Entry) : Prop where
  sorted : (bin 0 :: rest).Pairwise Le
  mem_bin : ∀ i < memLinknrs, .bin i ∈ bin 0 :: rest

lemma Ordered.remove {xs ys : List Entry} {a z : Nat} (h : Ordered (xs ++ .free a z :: ys)) :
    Ordered (xs ++ ys) where
  sorted := h.sorted.sublist (((sublist_cons_self _ ys).append_left xs).cons_cons _)
  mem_bin i hi := by
    have hmem := h.mem_bin i hi
    simp only [mem_cons, mem_append, reduceCtorEq, false_or] at hmem ⊢
    exact hmem

lemma Ordered.exists_bin {rest : List Entry} (h : Ordered rest) {i : Nat} (hi : i < memLinknrs)
    (cfg : HeapConfig) :
    ∃ xs ys, rest = xs ++ ys ∧ Rep.front cfg xs = cfg.freenode i ∧ .bin i ∈ bin 0 :: xs ∧
      (∀ e ∈ bin 0 :: xs, e.Le (.bin i)) ∧ ∀ e ∈ ys, (bin i).Le e := by
  obtain hzero | hmem := mem_cons.mp (h.mem_bin i hi)
  · cases hzero
    refine ⟨[], rest, rfl, rfl, by simp, ?_, (pairwise_cons.mp h.sorted).1⟩
    intro e he
    rw [mem_singleton.mp he]
    exact .inr ⟨rfl, Nat.le_refl _⟩
  · obtain ⟨xs, ys, rfl⟩ := append_of_mem hmem
    have hsorted := h.sorted
    rw [← cons_append, pairwise_append] at hsorted
    obtain ⟨-, hys, hxs⟩ := hsorted
    refine ⟨xs ++ [.bin i], ys, by simp, ?_, by simp, ?_, (pairwise_cons.mp hys).1⟩
    · rw [Rep.front, getLast_cons (by simp), getLast_append_singleton]
      rfl
    · intro e he
      rw [← cons_append, mem_append, mem_singleton] at he
      obtain he | rfl := he
      · exact hxs e he _ mem_cons_self
      · exact .inr ⟨rfl, Nat.le_refl _⟩

namespace Rep

variable {cfg : HeapConfig} {lo n z : Nat} {m : Mem} {cs : List Cell} {rest xs ys : List Entry}
  {e : Entry}

lemma get_size (h : Rep cfg lo m cs rest) (he : e ∈ .bin 0 :: rest) :
    cfg.get m (e.addr cfg) .size = e.size := by
  cases e with
  | bin i => exact h.bins i (h.index_lt he)
  | free a z =>
    obtain ⟨us, vs, rfl, rfl⟩ := Cell.mem_frees.mp (h.free_mem a z (by simpa using he)).1
    exact (tagged_append.mp h.tagged).2.1.size

lemma size_pos (h : Rep cfg lo m cs rest) {a : Nat} (he : .free a z ∈ rest) : 0 < z := by
  have := (h.free_mem a z he).2
  have := header_lt_freeNode cfg
  omega

lemma next_front (h : Rep cfg lo m cs (xs ++ ys)) :
    cfg.get m (front cfg xs) .next = behind cfg ys := by
  have hlinked := h.linked
  rw [front, behind]
  cases xs using reverseRecOn with
  | nil => exact hlinked.next_eq
  | append_singleton xs e =>
    rw [append_assoc, map_append, singleton_append, map_cons] at hlinked
    have hlast : (bin 0 :: (xs ++ [e])).getLast (cons_ne_nil _ _) = e := by
      simp [getLast_cons]
    rw [hlast]
    exact hlinked.tail.next_eq

variable (hp : Sited cfg lo (lo + Cell.span cs))
include hp

lemma length_lt (h : Rep cfg lo m cs rest) : rest.length < cfg.limit := by
  have hnodup := h.nodup_addr hp
  have hsub : cfg.freenode 0 :: rest.map (·.addr cfg) ⊆ range cfg.limit := fun n hn =>
    mem_range.mpr ((h.isNode_of_mem_map hn).pos hp).2
  have hlen := (subperm_of_subset hnodup hsub).length_le
  simpa using hlen

lemma behind_cons (h : Rep cfg lo m cs (xs ++ e :: ys)) :
    cfg.get m (behind cfg (e :: ys)) .size = e.size ∧ behind cfg (e :: ys) ≠ 0 ∧
      Rep cfg lo m cs ((xs ++ [e]) ++ ys) ∧
      cfg.get m (behind cfg (e :: ys)) .next = behind cfg ys ∧
      front cfg (xs ++ [e]) = behind cfg (e :: ys) := by
  have hnode : IsNode cfg lo cs (e.addr cfg) := h.isNode (by simp)
  have h' : Rep cfg lo m cs ((xs ++ [e]) ++ ys) := by rwa [append_assoc, singleton_append]
  have hfront : front cfg (xs ++ [e]) = behind cfg (e :: ys) := by
    rw [front, getLast_cons (by simp), getLast_append_singleton]
    rfl
  exact ⟨h.get_size (by simp), (hnode.pos hp).1.ne', h', by rw [← hfront, h'.next_front], hfront⟩

lemma findSlot_eq {fuel : Nat} (h : Rep cfg lo m cs (xs ++ ys)) (hfuel : ys.length < fuel) :
    ∃ mid ys', ys = mid ++ ys' ∧ (∀ e ∈ mid, 0 < e.size ∧ e.size < z) ∧
      (∀ e ∈ ys'.head?, e.size = 0 ∨ z ≤ e.size) ∧
      findSlot cfg m z fuel (front cfg xs) (behind cfg ys) =
        some (front cfg (xs ++ mid), behind cfg ys') := by
  induction fuel generalizing xs ys with
  | zero => omega
  | succ fuel ih =>
    cases ys with
    | nil => exact ⟨[], [], rfl, by simp, by simp, by simp [findSlot, behind, Links.entry]⟩
    | cons e ys =>
      obtain ⟨hsize, hne, h', hnext, hfront⟩ := h.behind_cons hp
      rw [findSlot, hsize]
      by_cases hlt : e.size ≠ 0 ∧ e.size < z
      · rw [if_pos ⟨hne, hlt⟩]
        obtain ⟨mid, ys', rfl, hmid, hhead, hfind⟩ := ih h' (by simpa using hfuel)
        rw [hnext, ← hfront, hfind]
        refine ⟨e :: mid, ys', rfl, ?_, hhead, by simp⟩
        intro d hd
        obtain rfl | hd := mem_cons.mp hd
        · exact ⟨Nat.pos_of_ne_zero hlt.1, hlt.2⟩
        · exact hmid d hd
      · rw [if_neg fun hc => hlt hc.2]
        refine ⟨[], e :: ys, rfl, by simp, ?_, by simp⟩
        intro d hd
        cases hd
        omega

lemma bestFit_eq {fuel : Nat} (h : Rep cfg lo m cs (xs ++ ys)) (hfuel : ys.length < fuel) :
    ∃ mid ys', ys = mid ++ ys' ∧ (∀ e ∈ mid, e.size < z) ∧ (∀ e ∈ ys'.head?, z ≤ e.size) ∧
      bestFit cfg m z fuel (behind cfg ys) = some (behind cfg ys') := by
  induction fuel generalizing xs ys with
  | zero => omega
  | succ fuel ih =>
    cases ys with
    | nil => exact ⟨[], [], rfl, by simp, by simp, by simp [bestFit, behind, Links.entry]⟩
    | cons e ys =>
      obtain ⟨hsize, hne, h', hnext, -⟩ := h.behind_cons hp
      rw [bestFit, hsize]
      by_cases hlt : e.size < z
      · rw [if_pos ⟨hne, hlt⟩]
        obtain ⟨mid, ys', rfl, hmid, hhead, hfind⟩ := ih h' (by simpa using hfuel)
        rw [hnext, hfind]
        exact ⟨e :: mid, ys', rfl, by simpa [hlt] using hmid, hhead, rfl⟩
      · rw [if_neg fun hc => hlt hc.2]
        refine ⟨[], e :: ys, rfl, by simp, ?_, rfl⟩
        intro d hd
        cases hd
        omega

omit hp in
lemma bin_not_mem (h : Rep cfg lo m cs (xs ++ ys)) {i : Nat} (hi : .bin i ∈ bin 0 :: xs) :
    .bin i ∉ ys := by
  intro hys
  have hpos := (h.bin_lt i (mem_append_right _ hys)).1
  obtain hzero | hxs := mem_cons.mp hi
  · cases hzero
    exact absurd hpos (by decide)
  · exact (nodup_append.mp h.nodup).2.2 _ hxs _ hys rfl

omit hp in
lemma ordered_insert {a : Nat} {mid ys' : List Entry} (h : Rep cfg lo m cs (xs ++ (mid ++ ys')))
    (ho : Ordered (xs ++ (mid ++ ys')))
    (hbin : .bin (caculateBuddyIndex z) ∈ bin 0 :: xs)
    (hxs : ∀ e ∈ bin 0 :: xs, e.Le (.bin (caculateBuddyIndex z)))
    (hys : ∀ e ∈ mid ++ ys', (bin (caculateBuddyIndex z)).Le e)
    (hmid : ∀ e ∈ mid, 0 < e.size ∧ e.size < z)
    (hhead : ∀ e ∈ ys'.head?, e.size = 0 ∨ z ≤ e.size) :
    Ordered (xs ++ (mid ++ .free a z :: ys')) := by
  have hsorted := ho.sorted
  rw [← append_assoc, ← cons_append, pairwise_append] at hsorted
  obtain ⟨hleft, hright, hcross⟩ := hsorted
  have hbefore : ∀ e ∈ bin 0 :: (xs ++ mid), e.Le (.free a z) := by
    intro e he
    rw [← cons_append, mem_append] at he
    obtain he | he := he
    · exact (hxs e he).trans (.inr ⟨rfl, Nat.zero_le _⟩)
    · have hsize := hmid e he
      cases e with
      | bin i => exact absurd hsize.1 (by simp [size])
      | free b y =>
        have hmono := caculateBuddyIndex_mono (Nat.le_of_lt hsize.2)
        simp only [size] at hsize hmono
        simp only [Le, index, size]
        omega
  have hafter : ∀ e ∈ ys', (free a z).Le e := by
    cases ys' with
    | nil => simp
    | cons e₀ ys' =>
      have hfirst : (free a z).Le e₀ := by
        have hsize := hhead e₀ rfl
        cases e₀ with
        | bin j =>
          have hle := hys (.bin j) (by simp)
          have hne : j ≠ caculateBuddyIndex z := by
            rintro rfl
            exact h.bin_not_mem hbin (by simp)
          simp only [Le, index, size] at hle ⊢
          omega
        | free b y =>
          have hy := h.size_pos (a := b) (z := y) (by simp)
          have hle : z ≤ y := by
            simp only [size] at hsize
            omega
          have hmono := caculateBuddyIndex_mono hle
          simp only [Le, index, size]
          omega
      intro e he
      obtain rfl | he := mem_cons.mp he
      · exact hfirst
      · exact hfirst.trans ((pairwise_cons.mp hright).1 e he)
  constructor
  · rw [← append_assoc, ← cons_append, pairwise_append]
    refine ⟨hleft, pairwise_cons.mpr ⟨hafter, hright⟩, ?_⟩
    intro e he e' he'
    obtain rfl | he' := mem_cons.mp he'
    · exact hbefore e he
    · exact hcross e he e' he'
  · intro i hi
    have hmem := ho.mem_bin i hi
    simp only [mem_cons, mem_append] at hmem ⊢
    tauto

lemma addNewNodeIntoBuddy (h : Rep cfg lo m cs rest) (ho : Ordered rest) {a : Nat}
    (ha : (a, z) ∈ Cell.frees lo cs) (hz : cfg.freeNode ≤ z) (hnew : .free a z ∉ rest)
    (hsize : cfg.get m a .size = z) :
    ∃ m' xs ys, addNewNodeIntoBuddy cfg m a = some m' ∧ rest = xs ++ ys ∧
      Rep cfg lo m' cs (xs ++ .free a z :: ys) ∧ Ordered (xs ++ .free a z :: ys) ∧
      LinksOnly cfg lo cs m m' := by
  obtain ⟨xs, ys, rfl, hfront, hbin, hxs, hys⟩ := ho.exists_bin (caculateBuddyIndex_lt z) cfg
  have hlen := h.length_lt hp
  rw [length_append] at hlen
  obtain ⟨mid, ys', rfl, hmid, hhead, hfind⟩ := h.findSlot_eq (z := z) hp
    (show ys.length < cfg.limit by omega)
  have h' : Rep cfg lo m cs ((xs ++ mid) ++ ys') := by rwa [append_assoc]
  have hnew' : .free a z ∉ (xs ++ mid) ++ ys' := by rwa [append_assoc]
  refine ⟨Kernel.insertNode cfg m a (front cfg (xs ++ mid)) (behind cfg ys'), xs ++ mid, ys', ?_,
    by simp, h'.insertNode hp ha hz hnew', ?_, h'.insertNode_linksOnly (.inr ⟨z, ha, hz⟩)⟩
  · rw [Kernel.addNewNodeIntoBuddy]
    simp only [hsize, ← hfront, h.next_front, hfind]
    rfl
  · rw [append_assoc]
    exact h.ordered_insert ho hbin hxs hys hmid hhead

lemma bestFit_smallest (h : Rep cfg lo m cs rest) (ho : Ordered rest) (hn : 0 < n) :
    ∃ xs ys, rest = xs ++ ys ∧
      bestFit cfg m n cfg.limit (cfg.get m (cfg.freenode (caculateBuddyIndex n)) .next) =
        some (behind cfg ys) ∧
      ((ys = [] ∧ ∀ b y, .free b y ∈ rest → y < n) ∨
        ∃ a z ys', ys = .free a z :: ys' ∧ n ≤ z ∧ ∀ b y, .free b y ∈ rest → n ≤ y → z ≤ y) := by
  obtain ⟨xs, ys, rfl, hfront, -, hxs, -⟩ := ho.exists_bin (caculateBuddyIndex_lt n) cfg
  have hlen := h.length_lt hp
  rw [length_append] at hlen
  obtain ⟨mid, ys', rfl, hmid, hhead, hfind⟩ := h.bestFit_eq (z := n) hp
    (show ys.length < cfg.limit by omega)
  -- cells that are large enough stand neither before the bin nor among those the search passed
  have hbehind {b y : Nat} (hb : .free b y ∈ xs ++ (mid ++ ys')) (hy : n ≤ y) :
      .free b y ∈ ys' := by
    rw [mem_append, mem_append] at hb
    obtain hb | hb | hb := hb
    · have hle := hxs _ (mem_cons_of_mem _ hb)
      have hmono := caculateBuddyIndex_mono hy
      simp only [Le, index, size] at hle
      omega
    · have hlt := hmid _ hb
      simp only [size] at hlt
      omega
    · exact hb
  refine ⟨xs ++ mid, ys', by simp, by rw [← hfront, h.next_front, hfind], ?_⟩
  cases ys' with
  | nil =>
    refine .inl ⟨rfl, fun b y hb => ?_⟩
    by_contra hle
    exact not_mem_nil (hbehind hb (Nat.le_of_not_lt hle))
  | cons e ys' =>
    have hsize := hhead e rfl
    cases e with
    | bin i =>
      simp only [size] at hsize
      omega
    | free a z =>
      refine .inr ⟨a, z, ys', rfl, hsize, fun b y hb hy => ?_⟩
      obtain heq | hmem := mem_cons.mp (hbehind hb hy)
      · cases heq
        exact Nat.le_refl _
      · have hsorted := ho.sorted
        rw [← append_assoc, ← cons_append, pairwise_append] at hsorted
        exact ((pairwise_cons.mp hsorted.2.1).1 _ hmem).size_le

end Rep
end Xiuos.Kernel
