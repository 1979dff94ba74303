import Xiuos.Kernel.HeapFree

namespace Xiuos.Kernel
open Lib Cell Nat
open List hiding span

def binsUpTo (k : Nat) : List Entry := (List.range k).map fun i => .bin (i + 1)

section
variable {cfg : HeapConfig} {lo k : Nat} {m : Mem}

lemma mem_binsUpTo {e : Entry} : e ∈ binsUpTo k ↔ ∃ i < k, e = .bin (i + 1) := by
  simp [binsUpTo, eq_comm]

lemma binsUpTo_succ : binsUpTo (k + 1) = binsUpTo k ++ [.bin (k + 1)] := by
  simp [binsUpTo, List.range_succ]

lemma ordered_binsUpTo : Ordered (binsUpTo (memLinknrs - 1)) where
  sorted := by
    have hrange : Entry.bin 0 :: binsUpTo (memLinknrs - 1) = (range memLinknrs).map .bin := rfl
    rw [hrange, pairwise_map]
    exact pairwise_lt_range.imp fun h => .inl h
  mem_bin i hi := by
    cases i with
    | zero => exact mem_cons_self
    | succ i => exact mem_cons_of_mem _ (mem_binsUpTo.mpr ⟨i, by omega, rfl⟩)

lemma front_binsUpTo : Rep.front cfg (binsUpTo k) = cfg.freenode k := by
  cases k with
  | zero => rfl
  | succ k =>
    rw [Rep.front, binsUpTo_succ, getLast_cons (by simp), getLast_append_singleton]
    rfl

lemma get_eq_zero {n : Nat} {f : Field} (hz : ∀ x, BinByte cfg x → m x = 0)
    (hn : ∃ i < memLinknrs, n = cfg.freenode i) : cfg.get m n f = 0 := by
  obtain ⟨i, hi, rfl⟩ := hn
  have := freenode_bounds cfg hi
  have := f.end_le_freeNode cfg
  exact Mem.load_eq_zero fun x h1 h2 => hz x ⟨by omega, by omega⟩

lemma chainBins_rep (hp : Sited cfg lo lo) (hz : ∀ x, BinByte cfg x → m x = 0)
    (hk : k < memLinknrs) :
    Rep cfg lo (chainBins cfg m k) [] (binsUpTo k) ∧
      (∀ i, k ≤ i → i < memLinknrs → (links cfg (chainBins cfg m k)).next (cfg.freenode i) = 0) ∧
      LinksOnly cfg lo [] m (chainBins cfg m k) := by
  induction k with
  | zero =>
    refine ⟨⟨by simp, trivial, fun i hi => get_eq_zero hz ⟨i, hi, rfl⟩, ?_, by simp [binsUpTo],
      by simp [binsUpTo], by simp [binsUpTo]⟩, fun i _ hi => get_eq_zero hz ⟨i, hi, rfl⟩,
      fun _ _ => rfl⟩
    refine ⟨cfg.freenode 0, ?_, by simp [Links.setPrev]⟩
    exact get_eq_zero hz ⟨0, by decide, rfl⟩
  | succ k ih =>
    obtain ⟨hrep, hnext, hlinks⟩ := ih (by omega)
    have hp' : Sited cfg lo (lo + span []) := hp
    have hnode {i : Nat} (hi : i < memLinknrs) : IsNode cfg lo [] (cfg.freenode i) :=
      .inl ⟨i, hi, rfl⟩
    have hlast := hnode (show k < memLinknrs by omega)
    have hnew := hnode hk
    rw [chainBins]
    generalize chainBins cfg m k = m₀ at hrep hnext hlinks
    have hset {c : Nat} (hc : IsNode cfg lo [] c) :=
      links_set_next (m := m₀) hp' hlast (hnew.pos hp').2 hc
    have hback {c : Nat} (hc : IsNode cfg lo [] c) :=
      links_set_prev (m := cfg.set m₀ (cfg.freenode k) .next (cfg.freenode (k + 1))) hp' hnew
        (hlast.pos hp').2 hc
    have honly := (set_linksOnly (m := m₀) (v := cfg.freenode (k + 1)) (f := .next) hlast id).trans
      (set_linksOnly (v := cfg.freenode k) (f := .prev) hnew id)
    have hmem : .bin (k + 1) ∉ binsUpTo k := by
      rw [mem_binsUpTo]
      rintro ⟨i, hi, heq⟩
      cases heq
      omega
    have hne : cfg.freenode k ≠ cfg.freenode (k + 1) := fun h => by
      have := Rep.freenode_inj cfg h
      omega
    have hnodes : ∀ c ∈ cfg.freenode 0 :: ((binsUpTo k).map (·.addr cfg) ++
        [cfg.freenode (k + 1)]), IsNode cfg lo [] c := by
      intro c hc
      rw [mem_cons, mem_append, mem_singleton, ← or_assoc, ← mem_cons] at hc
      obtain hc | rfl := hc
      · exact hrep.isNode_of_mem_map hc
      · exact hnew
    obtain ⟨htagged, hbins⟩ := hrep.tags_of_linksOnly hp' honly
    refine ⟨⟨by simp, htagged, hbins, ?_, ?_, ?_, ?_⟩, ?_, hlinks.trans honly⟩
    · have hmap : (binsUpTo (k + 1)).map (·.addr cfg) =
          (binsUpTo k).map (·.addr cfg) ++ [cfg.freenode (k + 1)] := by
        simp [binsUpTo_succ, Entry.addr]
      rw [hmap]
      have hlinked := hrep.linked
      have hnodup := hrep.nodup_addr hp'
      have hnull := hrep.null_not_mem hp'
      rw [← append_nil ((binsUpTo k).map _)] at hlinked hnodup hnull
      refine hlinked.insert hnodup ?_ ?_ (p := cfg.freenode k) ?_ ?_ ?_
      · rw [mem_cons, not_or]
        exact ⟨(hnew.pos hp').1.ne, fun h0 => hnull (mem_cons_of_mem _ h0)⟩
      · rw [append_nil]
        intro hin
        obtain ⟨e, he, heq⟩ : ∃ e ∈ Entry.bin 0 :: binsUpTo k, e.addr cfg = cfg.freenode (k + 1) :=
          mem_map.mp hin
        obtain rfl | he := mem_cons.mp he
        · exact absurd (Rep.freenode_inj cfg heq) (by omega)
        · obtain ⟨i, hi, rfl⟩ := mem_binsUpTo.mp he
          exact absurd (Rep.freenode_inj cfg heq) (by omega)
      · have hfront := getLast?_eq_some_getLast (cons_ne_nil (Entry.bin 0) (binsUpTo k))
        have hmap := congrArg (Option.map (·.addr cfg)) hfront
        rw [← getLast?_map] at hmap
        exact hmap.trans (congrArg some front_binsUpTo)
      · intro c hc
        rw [(hback (hnodes c hc)).1, (hset (hnodes c hc)).1, Links.entry]
        by_cases hcn : c = cfg.freenode (k + 1)
        · rw [if_pos hcn, hcn, if_neg (Ne.symm hne)]
          exact hnext (k + 1) (by omega) hk
        · rw [if_neg hcn]
      · intro c hc
        have hc' := hnodes c (mem_cons_of_mem _ hc)
        rw [(hback hc').2, (hset hc').2, Links.entry, if_neg (hc'.pos hp').1.ne']
    · intro i hi
      obtain ⟨j, hj, heq⟩ := mem_binsUpTo.mp hi
      cases heq
      omega
    · intro a z ha
      obtain ⟨j, hj, heq⟩ := mem_binsUpTo.mp ha
      cases heq
    · rw [binsUpTo_succ]
      exact nodup_append.mpr ⟨hrep.nodup, nodup_singleton _, by
        intro e he e' he'
        rw [mem_singleton.mp he']
        rintro rfl
        exact hmem he⟩
    · intro i hki hi
      rw [(hback (hnode hi)).1, (hset (hnode hi)).1, if_neg]
      · exact hnext i (by omega) hi
      · intro h
        have := Rep.freenode_inj cfg h
        omega

end

lemma Rep.lay {cfg : HeapConfig} {lo : Nat} {m m' : Mem} {cs : List Cell} {rest : List Entry}
    (h : Rep cfg lo m [] rest) (hfits : ∀ c ∈ cs, cfg.header ≤ c.size)
    (htagged : Tagged cfg m' lo 0 cs) (hm : ∀ x, BinByte cfg x → m' x = m x) :
    Rep cfg lo m' cs rest := by
  have hget {i : Nat} {f : Field} (hi : i < memLinknrs) :
      cfg.get m' (cfg.freenode i) f = cfg.get m (cfg.freenode i) f := by
    have := freenode_bounds cfg hi
    exact get_congr_node cfg fun x h1 h2 => hm x ⟨by omega, by omega⟩
  have hnode {c : Nat} {f : Field} (hc : c ∈ cfg.freenode 0 :: rest.map (·.addr cfg)) :
      cfg.get m' c f = cfg.get m c f := by
    obtain ⟨i, hi, rfl⟩ | ⟨z, hz, -⟩ := h.isNode_of_mem_map hc
    · exact hget hi
    · simp [frees] at hz
  refine ⟨hfits, htagged, fun i hi => (hget hi).trans (h.bins i hi), ?_, h.bin_lt, ?_, h.nodup⟩
  · exact h.linked.congr (fun c hc => hnode hc) fun c hc => hnode (mem_cons_of_mem _ hc)
  · intro a z ha
    exact absurd (h.free_mem a z ha).1 (by simp [frees])

variable (cfg : HeapConfig)

def buddyTags (cfg : HeapConfig) (m : Mem) (start size : Nat) : Mem :=
  let stop := start + size - cfg.header
  let node := start + cfg.header
  let m := cfg.set m start .size cfg.header
  let m := cfg.set m start .prevAdjSize 0
  let m := cfg.set m start .flag dynamicBlockMask
  let m := cfg.set m node .size (size - 2 * cfg.header)
  let m := cfg.set m node .prevAdjSize cfg.header
  let m := cfg.set m node .flag 0
  let m := cfg.set m stop .size cfg.header
  let m := cfg.set m stop .prevAdjSize (cfg.get m node .size)
  cfg.set m stop .flag dynamicBlockMask

section
variable {cfg : HeapConfig} {m : Mem} {start size : Nat}

lemma buddyTags_tagged (hsize : 3 * cfg.header ≤ size) (hlimit : start + size ≤ cfg.limit) :
    Tagged cfg (buddyTags cfg m start size) start 0
      (guarded cfg [⟨size - 2 * cfg.header, false⟩]) := by
  have hpos := header_lt_freeNode cfg
  have hstop : start + cfg.header + (size - 2 * cfg.header) = start + size - cfg.header := by omega
  have hnode : Header cfg _ (start + cfg.header) cfg.header ⟨size - 2 * cfg.header, false⟩ :=
    Header.of_sets (m := cfg.set (cfg.set (cfg.set m start .size cfg.header) start .prevAdjSize 0)
      start .flag dynamicBlockMask) (c := ⟨size - 2 * cfg.header, false⟩) (by simp only; omega)
  have hstart : Header cfg _ start 0 ⟨cfg.header, true⟩ :=
    Header.of_sets (m := m) (c := ⟨cfg.header, true⟩) (by simp only; omega)
  refine ⟨?_, ?_, ?_, trivial⟩
  · exact (((((hstart.set_apart (f := .size) trivial (by omega)).set_apart (f := .prevAdjSize)
      trivial (by omega)).set_apart (f := .flag) trivial (by omega)).set_apart (f := .size) trivial
      (by omega)).set_apart (f := .prevAdjSize) trivial (by omega)).set_apart (f := .flag) trivial
      (by omega)
  · exact ((hnode.set_apart (f := .size) trivial (by omega)).set_apart (f := .prevAdjSize) trivial
      (by omega)).set_apart (f := .flag) trivial (by omega)
  · have hread := (hnode.set_apart (v := cfg.header) (b := start + size - cfg.header) (f := .size)
      trivial (by omega)).size
    simp only [hstop, buddyTags, flagOf, Bool.false_eq_true, if_false] at hread ⊢
    rw [hread]
    exact Header.of_sets (c := ⟨cfg.header, true⟩) (by simp only; omega)

lemma buddyTags_outside {x : Nat} (hsize : 3 * cfg.header ≤ size)
    (hx : x < start ∨ start + size ≤ x) : buddyTags cfg m start size x = m x := by
  simp only [buddyTags]
  have hset {m : Mem} {n v : Nat} {f : Field} (hf : f.IsHeader) (h1 : start ≤ n)
      (h2 : n + cfg.header ≤ start + size) : cfg.set m n f v x = m x :=
    set_header_outside cfg hf (by omega)
  rw [hset (f := .flag) trivial (by omega) (by omega),
    hset (f := .prevAdjSize) trivial (by omega) (by omega),
    hset (f := .size) trivial (by omega) (by omega),
    hset (f := .flag) trivial (by omega) (by omega),
    hset (f := .prevAdjSize) trivial (by omega) (by omega),
    hset (f := .size) trivial (by omega) (by omega),
    hset (f := .flag) trivial (by omega) (by omega),
    hset (f := .prevAdjSize) trivial (by omega) (by omega),
    hset (f := .size) trivial (by omega) (by omega)]

lemma initBuddy_eq (s : HeapState) :
    initBuddy cfg s start size =
      (addNewNodeIntoBuddy cfg (buddyTags cfg s.mem start size) (start + cfg.header)).map fun mem =>
        { s with
          mem
          mmTotalSize := (s.mmTotalSize + size) % 2 ^ 64
          mmDynamicStart := start
          mmDynamicEnd := start + size - cfg.header } := by
  rw [Option.map_eq_bind]
  rfl

lemma initBuddy_rep {s : HeapState} (hp : Sited cfg start (start + size))
    (h : Rep cfg start s.mem [] (binsUpTo (memLinknrs - 1)))
    (hsize : 2 * cfg.header + cfg.freeNode ≤ size) (hlt : size + 64 ≤ 2 ^ 32)
    (hactive : s.activeMemory = 0) (hstart : s.dynamicBuddyStart = start)
    (hend : s.dynamicBuddyEnd = start + size) :
    ∃ s' rest, initBuddy cfg s start size = some s' ∧
      HeapRep cfg s' [⟨size - 2 * cfg.header, false⟩] rest ∧
      s'.staticManager = s.staticManager := by
  have hpos := header_lt_freeNode cfg
  have hspan : span (guarded cfg [⟨size - 2 * cfg.header, false⟩]) = size := by
    simp only [span_guarded, span_cons, span_nil]
    omega
  have hp' := hp
  rw [← hspan] at hp'
  have htagged : Tagged cfg (buddyTags cfg s.mem start size) start 0 _ :=
    buddyTags_tagged (by omega) hp.hi_le
  have hrep : Rep cfg start (buddyTags cfg s.mem start size)
      (guarded cfg [⟨size - 2 * cfg.header, false⟩]) (binsUpTo (memLinknrs - 1)) := by
    refine h.lay ?_ htagged fun x hx => buddyTags_outside (by omega) ?_
    · simp only [guarded, mem_cons, cons_append, nil_append, not_mem_nil,
        or_false, forall_eq_or_imp, forall_eq]
      omega
    · have hout := hp.outside
      simp only [BinByte] at hx
      omega
  have hfrees : frees start (guarded cfg [⟨size - 2 * cfg.header, false⟩]) =
      [(start + cfg.header, size - 2 * cfg.header)] := by simp [frees]
  have hbin {a z : Nat} : .free a z ∉ binsUpTo (memLinknrs - 1) := by
    rw [mem_binsUpTo]
    rintro ⟨i, -, heq⟩
    cases heq
  obtain ⟨m', xs, ys, hadd, hbins, hrep', ho, -⟩ := hrep.addNewNodeIntoBuddy hp' ordered_binsUpTo
    (a := start + cfg.header) (z := size - 2 * cfg.header) (by simp [hfrees]) (by omega) hbin
    htagged.2.1.size
  rw [initBuddy_eq, hadd]
  refine ⟨_, xs ++ .free (start + cfg.header) (size - 2 * cfg.header) :: ys, rfl, ?_, rfl⟩
  exact {
    placed := hp'
    rep := hrep'
    ordered := ho
    full := by
      intro a z ha
      simp only [hfrees, mem_singleton] at ha
      cases ha
      simp
    merged := by simp [Merged, guarded]
    span_le := by
      rw [hspan]
      exact hlt
    active := hactive
    stop := by
      simp only [span_cons, span_nil]
      omega
    start_eq := hstart
    end_eq := by
      rw [hspan]
      exact hend }

end

def firstPage (cfg : HeapConfig) (startPhyAddress : Nat) : Nat :=
  cfg.alignUp startPhyAddress cfg.mmPageSize

def endPage (cfg : HeapConfig) (endPhyAddress : Nat) : Nat := alignDown endPhyAddress cfg.mmPageSize

structure Region (cfg : HeapConfig) (startPhyAddress endPhyAddress : Nat) : Prop where
  start_pos : 0 < startPhyAddress
  start_le : startPhyAddress + cfg.mmPageSize ≤ cfg.limit
  end_lt : endPhyAddress < cfg.limit
  page : firstPage cfg startPhyAddress < endPage cfg endPhyAddress
  list_pos : 0 < cfg.freenodeList
  list_le : cfg.freenodeList + memLinknrs * cfg.freeNode ≤ cfg.limit
  outside : endPhyAddress ≤ cfg.freenodeList ∨
    cfg.freenodeList + memLinknrs * cfg.freeNode ≤ startPhyAddress
  manager_lt : ∀ i, cfg.staticManager i < cfg.limit
  manager_ne : cfg.staticManager 0 ≠ cfg.staticManager 1

def bootState (mem : Mem) : HeapState where
  mem
  dynamicBuddyStart := 0
  dynamicBuddyEnd := 0
  activeMemory := 0
  maxEverUsedmem := 0
  staticMemory := 0
  mmTotalSize := 0
  mmDynamicStart := 0
  mmDynamicEnd := 0
  staticManager _ := ⟨0, 0, 0, 0⟩

namespace Region
variable {cfg : HeapConfig} {startPhyAddress endPhyAddress : Nat}

def size (cfg : HeapConfig) (startPhyAddress endPhyAddress : Nat) : Nat :=
  endPage cfg endPhyAddress - firstPage cfg startPhyAddress

variable (h : Region cfg startPhyAddress endPhyAddress)
include h

lemma firstPage_eq :
    firstPage cfg startPhyAddress =
      (startPhyAddress + cfg.mmPageSize - 1) / cfg.mmPageSize * cfg.mmPageSize := by
  have hlt : startPhyAddress + cfg.mmPageSize - 1 < cfg.limit := by
    have := h.start_pos
    have := h.start_le
    omega
  have hle := div_mul_le_self (startPhyAddress + cfg.mmPageSize - 1) cfg.mmPageSize
  rw [firstPage, HeapConfig.alignUp, mod_eq_of_lt hlt, mod_eq_of_lt (by omega)]

lemma start_le_firstPage : startPhyAddress ≤ firstPage cfg startPhyAddress := by
  have hpage := cfg.page_dvd.2
  have hmod := mod_lt (startPhyAddress + cfg.mmPageSize - 1) hpage
  have hdiv := div_add_mod' (startPhyAddress + cfg.mmPageSize - 1) cfg.mmPageSize
  rw [h.firstPage_eq]
  omega

omit h in
lemma endPage_le (cfg : HeapConfig) (endPhyAddress : Nat) :
    endPage cfg endPhyAddress ≤ endPhyAddress := div_mul_le_self _ _

lemma dvd_size : 64 ∣ size cfg startPhyAddress endPhyAddress := by
  rw [size, h.firstPage_eq]
  exact Nat.dvd_sub (cfg.page_dvd.1.mul_left _) (cfg.page_dvd.1.mul_left _)

lemma size_pos : 64 ≤ size cfg startPhyAddress endPhyAddress := by
  have := h.page
  exact le_of_dvd (by simp only [size]; omega) h.dvd_size

lemma placed :
    Sited cfg (firstPage cfg startPhyAddress) (firstPage cfg startPhyAddress +
      size cfg startPhyAddress endPhyAddress) := by
  have hstart := h.start_le_firstPage
  have hend := endPage_le cfg endPhyAddress
  have hpage := h.page
  have hpos := h.start_pos
  have hlt := h.end_lt
  have hout := h.outside
  have hsize : firstPage cfg startPhyAddress + size cfg startPhyAddress endPhyAddress =
      endPage cfg endPhyAddress := by
    simp only [size]
    omega
  rw [hsize]
  exact ⟨by omega, by omega, h.list_pos, h.list_le, by omega⟩

lemma size_lt_of_w32 (hw : cfg.word = .w32) :
    size cfg startPhyAddress endPhyAddress < 2 ^ 32 := by
  have hlt := h.end_lt
  have hend := endPage_le cfg endPhyAddress
  simp only [HeapConfig.limit, HeapConfig.ptr, hw] at hlt
  simp only [size]
  omega

lemma initBuddy (hlt : size cfg startPhyAddress endPhyAddress < 2 ^ 32) (mem : Mem) :
    ∃ s rest, HeapRep cfg s
        [⟨size cfg startPhyAddress endPhyAddress - 2 * cfg.header, false⟩] rest ∧
      s.mmDynamicStart = firstPage cfg startPhyAddress ∧
      s.staticManager = (bootState mem).staticManager ∧
      initBoardMemory cfg (bootState mem) startPhyAddress endPhyAddress =
        if cfg.kernelSmallMemAlloc then smallMemInit cfg s else some s := by
  have hp := h.placed
  have hp' : Sited cfg (firstPage cfg startPhyAddress) (firstPage cfg startPhyAddress) := by
    have hle := hp.hi_le
    have hout := hp.outside
    exact ⟨hp.lo_pos, by omega, hp.list_pos, hp.list_le, by omega⟩
  have hzero : ∀ x, BinByte cfg x →
      (bootState mem).mem.fill cfg.freenodeList (cfg.freeNode * memLinknrs) 0 x = 0 := by
    intro x hx
    rw [BinByte, Nat.mul_comm] at hx
    exact if_pos hx
  obtain ⟨hrep, -, -⟩ := chainBins_rep (k := memLinknrs - 1) hp' hzero (by decide)
  have hroom : 2 * cfg.header + cfg.freeNode ≤ size cfg startPhyAddress endPhyAddress := by
    have := h.size_pos
    have hw := cfg.ptr_eq
    simp only [HeapConfig.freeNode, HeapConfig.header]
    omega
  have hpage := h.page
  have hle : size cfg startPhyAddress endPhyAddress + 64 ≤ 2 ^ 32 := by
    obtain ⟨k, hk⟩ := h.dvd_size
    omega
  obtain ⟨s, rest, hinit, hheap, hman⟩ := initBuddy_rep (s := { bootState mem with
    mem := chainBins cfg ((bootState mem).mem.fill cfg.freenodeList (cfg.freeNode * memLinknrs) 0)
      (memLinknrs - 1)
    dynamicBuddyStart := firstPage cfg startPhyAddress
    dynamicBuddyEnd := endPage cfg endPhyAddress }) hp hrep hroom hle rfl rfl
    (by simp only [size]; omega)
  have hstart : s.mmDynamicStart = firstPage cfg startPhyAddress := by
    rw [initBuddy_eq] at hinit
    obtain ⟨m, -, rfl⟩ := Option.map_eq_some_iff.mp hinit
    rfl
  refine ⟨s, rest, hheap, hstart, hman, ?_⟩
  have hne : ¬ firstPage cfg startPhyAddress ≥ endPage cfg endPhyAddress := by omega
  rw [initBoardMemory]
  simp only [firstPage, endPage, size] at hne hinit
  simp only [if_neg hne]
  simp only [bootState] at hinit ⊢
  rw [hinit]
  rfl

end Region
end Xiuos.Kernel
