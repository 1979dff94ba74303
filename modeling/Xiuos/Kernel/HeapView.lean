import Xiuos.Kernel.HeapBoot
import Xiuos.Lib.Sorted

namespace Xiuos.Kernel
open Lib Cell Entry
open List hiding span

def follow (next : Nat → Nat) (stop : Nat) : Nat → Nat → Option (List Nat)
  | 0, _ => none
  | fuel + 1, a =>
    if a = stop then some []
    else if a = 0 then none
    else (follow next stop fuel (next a)).map (a :: ·)

variable (cfg : HeapConfig) (s : HeapState)

def poolList (cfg : HeapConfig) (s : HeapState) (i : Fin 2) : Option (List Nat) :=
  follow (cfg.get s.mem · .size) 0 cfg.limit (s.staticManager i).freelist

def binEnd (cfg : HeapConfig) (i : Nat) : Nat :=
  if i + 1 < memLinknrs then cfg.freenode (i + 1) else 0

def binList (cfg : HeapConfig) (m : Mem) (i : Nat) : Option (List (Nat × Nat)) :=
  (follow (cfg.get m · .next) (binEnd cfg i) cfg.limit (cfg.get m (cfg.freenode i) .next)).map
    (·.map fun a => (a, cfg.get m a .size))

def freeBlocks (cfg : HeapConfig) (m : Mem) : Option (List (List (Nat × Nat))) :=
  (List.range memLinknrs).mapM (binList cfg m)

def capacity (cfg : HeapConfig) (s : HeapState) (pointer : Nat) : Nat :=
  (blockSize cfg s pointer).getD 0

def IsFree (cfg : HeapConfig) (s : HeapState) (pointer : Nat) : Prop :=
  (∃ bins, freeBlocks cfg s.mem = some bins ∧
    ∃ b ∈ bins.flatten, b.1 + cfg.header ≤ pointer ∧ pointer < b.1 + b.2) ∨
  ∃ i xs, poolList cfg s i = some xs ∧ ∃ x ∈ xs, pointer = x + cfg.header

def Leads (next : Nat → Nat) (stop : Nat) : Nat → List Nat → Prop
  | a, [] => a = stop
  | a, x :: xs => a = x ∧ x ≠ stop ∧ x ≠ 0 ∧ Leads next stop (next x) xs

lemma Leads.follow_eq {next : Nat → Nat} {stop a fuel : Nat} {xs : List Nat}
    (h : Leads next stop a xs) (hfuel : xs.length < fuel) : follow next stop fuel a = some xs := by
  induction xs generalizing a fuel with
  | nil =>
    cases fuel with
    | zero => omega
    | succ fuel => exact if_pos h
  | cons x xs ih =>
    obtain ⟨rfl, hstop, hnull, hrest⟩ := h
    cases fuel with
    | zero => omega
    | succ fuel =>
      rw [follow, if_neg hstop, if_neg hnull, ih hrest (by simpa using hfuel)]
      rfl

def Entry.isFree : Entry → Bool
  | .bin _ => false
  | .free .. => true

def binNodes (rest : List Entry) (i : Nat) : List Entry :=
  (rest.filter (·.index = i)).filter (·.isFree)

section

variable {cfg : HeapConfig} {lo : Nat} {m : Mem} {cs : List Cell} {rest xs ys zs : List Entry}
  {i stop : Nat}

lemma Rep.leads (hp : Sited cfg lo (lo + span cs))
    (h : Rep cfg lo m cs (xs ++ (ys ++ zs))) (hstop : Rep.behind cfg zs = stop) :
    Leads (cfg.get m · .next) stop (Rep.behind cfg (ys ++ zs)) (ys.map (·.addr cfg)) := by
  induction ys generalizing xs with
  | nil => exact hstop
  | cons e ys ih =>
    have hnodup := h.nodup_addr hp
    have hnull := h.null_not_mem hp
    have h' : Rep cfg lo m cs ((xs ++ [e]) ++ (ys ++ zs)) := by simpa using h
    have hnext := h'.next_front
    have hfront : Rep.front cfg (xs ++ [e]) = e.addr cfg := by simp [Rep.front, getLast_cons]
    rw [hfront] at hnext
    simp only [map_append, map_cons, cons_append] at hnodup hnull
    refine ⟨rfl, ?_, ?_, ?_⟩
    · rintro heq
      rw [← hstop] at heq
      cases zs with
      | nil => exact hnull (by simp [heq, Rep.behind, Links.entry])
      | cons f zs =>
        have hdup := (nodup_append.mp (nodup_cons.mp hnodup).2).2.1
        refine (nodup_cons.mp hdup).1 (mem_append.mpr (.inr ?_))
        rw [map_cons, show e.addr cfg = f.addr cfg from heq]
        exact mem_cons_self
    · rintro heq
      exact hnull (by simp [heq])
    · simp only [hnext]
      exact ih h'

section
variable (h : Rep cfg lo m cs rest)
include h

lemma Rep.nodup_chain : (bin 0 :: rest).Nodup :=
  nodup_cons.mpr ⟨fun hb => absurd (h.bin_lt 0 hb).1 (by decide), h.nodup⟩

omit h in
lemma Ordered.ascending (h : Ordered rest) : Ascending Entry.index (.bin 0 :: rest) :=
  h.sorted.imp fun hle => by
    simp only [Le] at hle
    omega

lemma Rep.filter_index (ho : Ordered rest) (hi : i < memLinknrs) :
    (bin 0 :: rest).filter (·.index = i) = .bin i :: binNodes rest i := by
  have hmem : .bin i ∈ (bin 0 :: rest).filter (·.index = i) :=
    mem_filter.mpr ⟨ho.mem_bin i hi, by simp [Entry.index]⟩
  have hnodup := h.nodup_chain.filter (·.index = i)
  have hsorted := ho.sorted.filter (·.index = i)
  have hindex {e : Entry} (he : e ∈ (bin 0 :: rest).filter (·.index = i)) : e.index = i := by
    simpa using (mem_filter.mp he).2
  have hnodes : binNodes rest i =
      ((bin 0 :: rest).filter (·.index = i)).filter (·.isFree) := by
    rw [binNodes, filter_filter, filter_filter, filter_cons_of_neg (by
      simp [isFree])]
  have hpos {e : Entry} (he : e ∈ (bin 0 :: rest).filter (·.index = i))
      (hfree : e.isFree = true) : 0 < e.size := by
    cases e with
    | bin j => cases hfree
    | free a z =>
      have hz : .free a z ∈ rest := by simpa using (mem_filter.mp he).1
      exact h.size_pos hz
  rw [hnodes]
  generalize (bin 0 :: rest).filter (·.index = i) = l at *
  obtain ⟨us, vs, rfl⟩ := append_of_mem hmem
  obtain ⟨-, hvs, hle⟩ := pairwise_append.mp hsorted
  obtain ⟨-, hnot, hdis⟩ := nodup_append.mp hnodup
  have hbin {e : Entry} (he : e ∈ us ++ .bin i :: vs) (hne : e ≠ .bin i) : e.isFree = true := by
    cases e with
    | bin j => exact absurd (congrArg bin (hindex he)) hne
    | free => rfl
  have hus : us = [] := by
    refine eq_nil_iff_forall_not_mem.mpr fun e he => ?_
    have hmem : e ∈ us ++ .bin i :: vs := mem_append.mpr (.inl he)
    have hpos := hpos hmem (hbin hmem (hdis e he _ mem_cons_self))
    have hle := hle e he _ mem_cons_self
    rw [Le, hindex hmem] at hle
    simp only [Entry.index, Entry.size] at hle hpos
    omega
  subst hus
  rw [nil_append, filter_cons_of_neg (by simp [isFree])]
  congr 1
  refine (filter_eq_self.mpr fun e he => hbin (mem_cons_of_mem _ he) ?_).symm
  rintro rfl
  exact (nodup_cons.mp hnot).1 he

lemma Rep.index_lt_of_mem {e : Entry} (he : e ∈ .bin 0 :: rest) : e.index < memLinknrs := by
  cases e with
  | bin i => exact h.index_lt he
  | free a z => exact caculateBuddyIndex_lt z

lemma Rep.split_bin (ho : Ordered rest) (hi : i < memLinknrs) :
    ∃ xs zs, rest = xs ++ (binNodes rest i ++ zs) ∧ Rep.front cfg xs = cfg.freenode i ∧
      Rep.behind cfg zs = binEnd cfg i := by
  have hsplit := ho.ascending.split i
  rw [h.filter_index ho hi] at hsplit
  have hbehind : Rep.behind cfg ((bin 0 :: rest).filter (i < ·.index)) = binEnd cfg i := by
    rw [binEnd]
    by_cases hlast : i + 1 < memLinknrs
    · -- the next bin stands there
      rw [if_pos hlast, ho.ascending.split (i + 1), h.filter_index ho hlast, filter_append,
        filter_filter, filter_eq_nil_iff.mpr, nil_append, cons_append,
        filter_cons_of_pos (by simp [Entry.index])]
      · rfl
      · intro e _
        simp
    · rw [if_neg hlast, filter_eq_nil_iff.mpr]
      · rfl
      · intro e he
        have := h.index_lt_of_mem he
        simp
        omega
  cases hfront : (bin 0 :: rest).filter (·.index < i) with
  | nil =>
    rw [hfront, nil_append, cons_append] at hsplit
    obtain ⟨hzero, hrest⟩ := List.cons.inj hsplit
    cases hzero
    exact ⟨[], _, hrest, rfl, hbehind⟩
  | cons e es =>
    rw [hfront, cons_append] at hsplit
    obtain ⟨rfl, hrest⟩ := List.cons.inj hsplit
    refine ⟨es ++ [.bin i], (bin 0 :: rest).filter (i < ·.index), by simpa using hrest, ?_,
      hbehind⟩
    simp [Rep.front, getLast_cons, addr]

end

lemma Rep.binList_eq (hp : Sited cfg lo (lo + span cs)) (h : Rep cfg lo m cs rest)
    (ho : Ordered rest) (hi : i < memLinknrs) :
    binList cfg m i = some ((binNodes rest i).map fun e => (e.addr cfg, e.size)) := by
  obtain ⟨xs, zs, hrest, hfront, hbehind⟩ := h.split_bin ho hi
  have hlen := h.length_lt hp
  have h' : Rep cfg lo m cs (xs ++ (binNodes rest i ++ zs)) := hrest ▸ h
  have hnext := h'.next_front
  have hlen' : ((binNodes rest i).map (·.addr cfg)).length < cfg.limit := by
    rw [length_map]
    refine lt_of_le_of_lt ?_ hlen
    exact ((filter_sublist (l := rest.filter _)).trans filter_sublist).length_le
  rw [hfront] at hnext
  rw [binList, hnext, (h'.leads hp hbehind).follow_eq hlen', Option.map_some, map_map]
  congr 1
  refine map_congr_left fun e he => ?_
  have hmem : e ∈ .bin 0 :: rest := mem_cons_of_mem _ (mem_filter.mp (mem_filter.mp he).1).1
  exact congrArg (Prod.mk _) (h.get_size hmem)

lemma mapM_eq_some {α β : Type} {f : α → Option β} {g : α → β} {l : List α}
    (h : ∀ a ∈ l, f a = some (g a)) : l.mapM f = some (l.map g) := by
  induction l with
  | nil => rfl
  | cons a l ih =>
    rw [mapM_cons, h a mem_cons_self, ih fun b hb => h b (mem_cons_of_mem _ hb)]
    rfl

def binsOf (cfg : HeapConfig) (rest : List Entry) : List (List (Nat × Nat)) :=
  (List.range memLinknrs).map fun i => (binNodes rest i).map fun e => (e.addr cfg, e.size)

lemma mem_binNodes {e : Entry} :
    e ∈ binNodes rest i ↔ ∃ a z, e = .free a z ∧ .free a z ∈ rest ∧ caculateBuddyIndex z = i := by
  rw [binNodes, mem_filter, mem_filter]
  cases e with
  | bin j => simp [isFree]
  | free a z =>
    constructor
    · rintro ⟨⟨hmem, hindex⟩, -⟩
      exact ⟨a, z, rfl, hmem, of_decide_eq_true hindex⟩
    · rintro ⟨a, z, heq, hmem, hindex⟩
      cases heq
      exact ⟨⟨hmem, decide_eq_true hindex⟩, rfl⟩

lemma mem_binsOf {a z : Nat} : (a, z) ∈ (binsOf cfg rest).flatten ↔ .free a z ∈ rest := by
  rw [binsOf, ← flatMap_def, mem_flatMap]
  constructor
  · rintro ⟨i, -, hmem⟩
    obtain ⟨e, he, heq⟩ := mem_map.mp hmem
    obtain ⟨a', z', rfl, hfree, -⟩ := mem_binNodes.mp he
    cases heq
    exact hfree
  · intro hmem
    refine ⟨caculateBuddyIndex z, mem_range.mpr (caculateBuddyIndex_lt z), ?_⟩
    exact mem_map.mpr ⟨.free a z, mem_binNodes.mpr ⟨a, z, rfl, hmem, rfl⟩, rfl⟩

lemma nodup_binsOf (hnodup : rest.Nodup) : (binsOf cfg rest).flatten.Nodup := by
  rw [binsOf, ← flatMap_def, nodup_flatMap]
  constructor
  · intro i _
    refine (nodup_map_iff_inj_on ((hnodup.filter _).filter _)).mpr fun e he e' he' heq => ?_
    obtain ⟨a, z, rfl, -, -⟩ := mem_binNodes.mp he
    obtain ⟨a', z', rfl, -, -⟩ := mem_binNodes.mp he'
    cases heq
    rfl
  · refine nodup_range.imp fun {i j} hij => ?_
    intro b hb hb'
    obtain ⟨e, he, rfl⟩ := mem_map.mp hb
    obtain ⟨e', he', heq⟩ := mem_map.mp hb'
    obtain ⟨a, z, rfl, -, hi⟩ := mem_binNodes.mp he
    obtain ⟨a', z', rfl, -, hj⟩ := mem_binNodes.mp he'
    cases heq
    exact hij (hi.symm.trans hj)

lemma Rep.freeBlocks_eq (hp : Sited cfg lo (lo + span cs)) (h : Rep cfg lo m cs rest)
    (ho : Ordered rest) : freeBlocks cfg m = some (binsOf cfg rest) :=
  mapM_eq_some fun _ hi => h.binList_eq hp ho (mem_range.mp hi)

end

variable {cfg : HeapConfig} {s : HeapState} {inner : List Cell} {rest : List Entry}

lemma HeapRep.binsOf_perm (h : HeapRep cfg s inner rest) :
    (binsOf cfg rest).flatten.Perm (frees (s.mmDynamicStart + cfg.header) inner) := by
  have hpos : ∀ c ∈ inner, 0 < c.size := fun c hc => by
    have := h.rep.fits c (by simp [guarded, hc])
    have := header_lt_freeNode cfg
    omega
  refine (perm_ext_iff_of_nodup (nodup_binsOf h.rep.nodup) (nodup_frees hpos)).mpr ?_
  rintro ⟨a, z⟩
  rw [mem_binsOf, ← frees_guarded]
  exact ⟨fun hmem => (h.rep.free_mem a z hmem).1, h.full a z⟩

lemma HeapRep.freeBlocks_eq (h : HeapRep cfg s inner rest) :
    freeBlocks cfg s.mem = some (binsOf cfg rest) := h.rep.freeBlocks_eq h.placed h.ordered

lemma Listed.leads {m : Mem} {head : Nat} {xs : List Nat} (h : Listed cfg m head xs)
    (hne : ∀ x ∈ xs, x ≠ 0) : Leads (cfg.get m · .size) 0 head xs := by
  induction xs generalizing head with
  | nil => exact h
  | cons x xs ih =>
    have hx := hne x mem_cons_self
    exact ⟨h.1, hx, hx, ih h.2 fun y hy => hne y (mem_cons_of_mem _ hy)⟩

variable {base : Fin 2 → Option Nat} {fl : Fin 2 → List Nat} {i : Fin 2} {p c : Nat}

namespace Good
variable (h : Good cfg base s inner rest fl)
include h

lemma mem_list {x : Nat} (hx : x ∈ fl i) : ∃ b, base i = some b ∧ IsBlock cfg i b x := by
  cases hb : base i with
  | none =>
    rw [(h.absent i hb).1] at hx
    cases hx
  | some b => exact ⟨b, rfl, (h.pool i b hb).isBlock x hx⟩

lemma block_bounds {b x : Nat} (hb : base i = some b) (hx : IsBlock cfg i b x) :
    0 < x ∧ x < cfg.limit := by
  obtain ⟨y, z, rfl, hcell, hz⟩ := h.cell i b hb
  have hbounds := hx.bounds
  have hle := h.base_le hb hx
  have hpos := header_lt_freeNode cfg
  rw [itemSize_eq] at hbounds
  omega

lemma list_nodup (i : Fin 2) : (fl i).Nodup := by
  cases hb : base i with
  | none =>
    rw [(h.absent i hb).1]
    exact nodup_nil
  | some b => exact (h.pool i b hb).nodup

lemma count_eq (i : Fin 2) : (s.staticManager i).blockFreeCount = (fl i).length := by
  cases hb : base i with
  | none =>
    rw [(h.absent i hb).1]
    exact (h.absent i hb).2.2
  | some b => exact (h.pool i b hb).count

lemma listed (i : Fin 2) : Listed cfg s.mem (s.staticManager i).freelist (fl i) := by
  cases hb : base i with
  | none =>
    rw [(h.absent i hb).1]
    exact (h.absent i hb).2.1
  | some b => exact (h.pool i b hb).listed

lemma poolList_eq (i : Fin 2) : poolList cfg s i = some (fl i) := by
  have hbounds {x : Nat} (hx : x ∈ fl i) : 0 < x ∧ x < cfg.limit := by
    obtain ⟨b, hb, hblock⟩ := h.mem_list hx
    exact h.block_bounds hb hblock
  have hsub : 0 :: fl i ⊆ range cfg.limit := by
    intro x hx
    obtain rfl | hx := mem_cons.mp hx
    · exact mem_range.mpr (lt_of_lt_of_le (by decide) cfg.le_limit)
    · exact mem_range.mpr (hbounds hx).2
  have hnodup : (0 :: fl i).Nodup :=
    nodup_cons.mpr ⟨fun h0 => absurd (hbounds h0).1 (Nat.lt_irrefl 0), h.list_nodup i⟩
  have hlen := (subperm_of_subset hnodup hsub).length_le
  rw [length_range, length_cons] at hlen
  exact ((h.listed i).leads fun x hx => Nat.ne_of_gt (hbounds hx).1).follow_eq hlen

lemma capacity_eq (hp : Allocated cfg base s inner fl p c) : capacity cfg s p = c := by
  rw [capacity, h.blockSize_eq hp]
  rfl

lemma isFree_iff : IsFree cfg s p ↔ Vacant cfg s inner fl p := by
  refine or_congr ?_ ?_
  · rw [h.heap.freeBlocks_eq]
    constructor
    · rintro ⟨bins, heq, ⟨x, z⟩, hb, h1, h2⟩
      cases heq
      exact ⟨x, z, mem_frees.mp (h.heap.binsOf_perm.mem_iff.mp hb), h1, h2⟩
    · rintro ⟨x, z, hx, h1, h2⟩
      exact ⟨_, rfl, (x, z), h.heap.binsOf_perm.mem_iff.mpr (mem_frees.mpr hx), h1, h2⟩
  · refine exists_congr fun i => ?_
    rw [h.poolList_eq]
    simp

lemma not_isFree (hp : Allocated cfg base s inner fl p c) : ¬ IsFree cfg s p := by
  rw [h.isFree_iff]
  rintro (⟨x, z, hx, h1, h2⟩ | ⟨i, x, hx, rfl⟩)
  · obtain ⟨y, z', hcell, h3, h4, -⟩ := h.host hp
    have hpos := h.capacity_pos hp
    obtain ⟨-, -, hu⟩ | hle | hle := hcell.apart hx
    · cases hu
    · omega
    · omega
  · obtain ⟨b, hb, hblock⟩ := h.mem_list hx
    have hpos := header_lt_freeNode cfg
    generalize hq : x + cfg.header = q at hp
    cases hp with
    | @cell y z hcell hne =>
      have hapart := h.cell_block hcell hne hb hblock
      have hz := h.header_le hcell
      rw [itemSize_eq] at hapart
      omega
    | @block j b' x' hb' hx' hout' =>
      have hapart := h.blocks_apart hb hblock hb' hx'
      rw [itemSize_eq, itemSize_eq] at hapart
      obtain ⟨rfl, rfl⟩ | hapart := hapart
      · exact hout' hx
      · omega

end Good
end Xiuos.Kernel
