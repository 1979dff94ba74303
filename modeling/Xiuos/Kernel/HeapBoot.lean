import Xiuos.Kernel.HeapCall

namespace Xiuos.Kernel
open Lib Function Option

namespace Good

variable {cfg : HeapConfig} {base : Fin 2 → Option Nat} {s : HeapState} {inner : List Cell}
  {rest : List Entry} {fl : Fin 2 → List Nat} {i : Fin 2}

def founded (cfg : HeapConfig) (s : HeapState) (i : Fin 2) (b : Nat) : HeapState :=
  { s with
    mem := initPool cfg s.mem b (itemSize cfg i) (smallNumber cfg i)
    staticManager := Function.update s.staticManager i
      ⟨smallBytes i, b, smallNumber cfg i, smallNumber cfg i⟩ }

lemma initSegment_eq {b : Nat} (s' : HeapState)
    (hmalloc : bigMemMalloc cfg s (smallSize cfg i) dynamicBlockMask = some (s', b)) (hb : b ≠ 0) :
    initSegment cfg s i = some (founded cfg s' i b, true) := by
  rw [initSegment, hmalloc]
  simp only [bind_eq_bind, bind_some, if_neg hb]
  simp only [founded, setSegment, update_idem, update_self]
  rfl

lemma initSegment_null
    (hmalloc : bigMemMalloc cfg s (smallSize cfg i) dynamicBlockMask = some (s, 0)) :
    initSegment cfg s i = some (setSegment s i ({ · with freelist := 0 }), false) := by
  rw [initSegment, hmalloc]
  rfl

lemma smallSize_bounds (cfg : HeapConfig) (i : Fin 2) :
    32 ≤ smallSize cfg i ∧ smallSize cfg i + cfg.header < 2 ^ 32 := by
  have hptr := cfg.ptr_eq
  have hbytes := smallBytes_range i
  have hpos := smallNumber_pos cfg i
  have hle : smallNumber cfg i ≤ 256 := by
    have h32 := cfg.small32_range
    have h64 := cfg.small64_range
    rw [smallNumber]
    split <;> omega
  have hlow : itemSize cfg i * 1 ≤ itemSize cfg i * smallNumber cfg i := Nat.mul_le_mul_left _ hpos
  have hhigh : itemSize cfg i * smallNumber cfg i ≤ itemSize cfg i * 256 :=
    Nat.mul_le_mul_left _ hle
  simp only [smallSize, itemSize_eq, HeapConfig.header, sizeof32B, sizeof64B] at *
  omega

variable (h : Good cfg base s inner rest fl)
include h

lemma found {y c : Nat} (hbase : base i = none) (hsmall : cfg.kernelSmallMemAlloc = true)
    (hcell : Cell.At true (s.mmDynamicStart + cfg.header) inner y (c + cfg.header))
    (hc : smallSize cfg i ≤ c) (hne : ∀ j, base j ≠ some (y + cfg.header)) :
    Good cfg (Function.update base i (some (y + cfg.header)))
      (founded cfg s i (y + cfg.header)) inner rest
      (Function.update fl i (blocks cfg i (y + cfg.header))) := by
  have hbounds := hcell.bounds
  have hlimit : y + cfg.header + smallSize cfg i ≤ cfg.limit := by
    have hle := h.heap.placed.hi_le
    rw [span_guarded] at hle
    omega
  have hm : ∀ w, w < y + cfg.header ∨ y + cfg.header + smallSize cfg i ≤ w →
      (founded cfg s i (y + cfg.header)).mem w = s.mem w := fun w hw => initPool_outside hw
  obtain ⟨hflag, hlisted⟩ := initPool_headers (m := s.mem) hlimit
  have hpay : ∀ w, ¬ Payload cfg s.mmDynamicStart (guarded cfg inner) w →
      (founded cfg s i (y + cfg.header)).mem w = s.mem w := by
    intro w hw
    refine hm w ?_
    by_contra hin
    exact hw (payload_guarded hcell (by omega) (by omega))
  have hpool : BlockPool cfg (founded cfg s i (y + cfg.header)) i (y + cfg.header)
      (blocks cfg i (y + cfg.header)) := by
    have hman : (founded cfg s i (y + cfg.header)).staticManager i =
        ⟨smallBytes i, y + cfg.header, smallNumber cfg i, smallNumber cfg i⟩ := update_self ..
    exact {
      blockSize := by rw [hman]
      total := by rw [hman]
      count := by
        rw [hman]
        simp [blocks]
      listed := by
        rw [hman]
        exact hlisted
      isBlock := fun x hx => isBlock_iff.mpr hx
      nodup := nodup_blocks ..
      flag := hflag
      owner := fun x hx hout => absurd (isBlock_iff.mp hx) hout }
  have hupdate {j : Fin 2} (hj : j ≠ i) {k : Option Nat}
      (hk : Function.update base i (some (y + cfg.header)) j = k) : base j = k := by
    rwa [update_of_ne hj] at hk
  exact {
    heap := h.heap.of_payload hpay _
    room := h.room
    small := fun _ _ _ => hsmall
    pool := by
      intro j b hb
      by_cases hji : j = i
      · subst hji
        rw [update_self] at hb ⊢
        cases hb
        exact hpool
      · rw [update_of_ne hji] at hb ⊢
        refine (h.pool j b hb).congr (update_of_ne hji _ _) fun x hx w h1 h2 => hm w ?_
        have hapart := h.cell_block hcell hne hb hx
        rw [itemSize_eq] at hapart
        omega
    cell := by
      intro j b hb
      by_cases hji : j = i
      · subst hji
        rw [update_self] at hb
        cases hb
        exact ⟨y, _, rfl, hcell, by omega⟩
      · exact h.cell j b (hupdate hji hb)
    absent := by
      intro j hj
      by_cases hji : j = i
      · subst hji
        rw [update_self] at hj
        cases hj
      · have hman : (founded cfg s i (y + cfg.header)).staticManager j = s.staticManager j :=
          update_of_ne hji _ _
        rw [hman, update_of_ne hji]
        exact h.absent j (hupdate hji hj)
    base_inj := by
      intro j k b hj hk
      by_cases hji : j = i <;> by_cases hki : k = i
      · rw [hji, hki]
      · subst hji
        rw [update_self] at hj
        cases hj
        exact absurd (hupdate hki hk) (hne k)
      · subst hki
        rw [update_self] at hk
        cases hk
        exact absurd (hupdate hji hj) (hne j)
      · exact h.base_inj j k b (hupdate hji hj) (hupdate hki hk)
    manager_lt := h.manager_lt
    manager_ne := h.manager_ne }

lemma absent_step (man : Fin 2 → Segment)
    (hman : ∀ j b, base j = some b → man j = s.staticManager j)
    (hcount : ∀ j, base j = none → (man j).freelist = 0 ∧ (man j).blockFreeCount = 0) (static : Nat)
    : Good cfg base { s with staticManager := man, staticMemory := static } inner rest fl where
  heap :=
    { placed := h.heap.placed
      rep := h.heap.rep
      ordered := h.heap.ordered
      full := h.heap.full
      merged := h.heap.merged
      span_le := h.heap.span_le
      active := h.heap.active
      stop := h.heap.stop
      start_eq := h.heap.start_eq
      end_eq := h.heap.end_eq }
  room := h.room
  small := h.small
  pool j b hb := (h.pool j b hb).congr (hman j b hb) fun _ _ _ _ _ => rfl
  cell := h.cell
  absent j hj := ⟨(h.absent j hj).1, hcount j hj⟩
  base_inj := h.base_inj
  manager_lt := h.manager_lt
  manager_ne := h.manager_ne

lemma initSegment (hbase : base i = none) (hsmall : cfg.kernelSmallMemAlloc = true)
    (hnone : ∀ q d, ¬ Allocated cfg base s inner fl q d) :
    initSegment cfg s i = some (setSegment s i ({ · with freelist := 0 }), false) ∨
    ∃ s' inner' rest' b, b ≠ 0 ∧ initSegment cfg s i = some (s', true) ∧
      Good cfg (Function.update base i (some b)) s' inner' rest'
        (Function.update fl i (blocks cfg i b)) ∧
      (∀ q d, ¬ Allocated cfg (Function.update base i (some b)) s' inner'
        (Function.update fl i (blocks cfg i b)) q d) ∧
      s'.mmDynamicStart = s.mmDynamicStart ∧ s'.staticManager = Function.update s.staticManager i
        ⟨smallBytes i, b, smallNumber cfg i, smallNumber cfg i⟩ := by
  have hsize := smallSize_bounds cfg i
  have hptr := cfg.ptr_eq
  obtain hnull | ⟨s', inner', rest', y, c, hmalloc, hc, hgrants, -, hcell, hbase', hman⟩ :=
    h.mallocCell (smallSize cfg i) hsize.2 (by simp only [HeapConfig.freeNode]; omega)
  · exact .inl (initSegment_null hnull)
  · have hne := hgrants.ne_zero
    rw [← hgrants.start] at hcell
    have hfound := hgrants.good.found hbase hsmall hcell hc hbase'
    refine .inr ⟨_, inner', rest', y + cfg.header, hne, initSegment_eq s' hmalloc hne, hfound, ?_,
      hgrants.start, ?_⟩
    · have hold {q d : Nat} (hq : Allocated cfg base s' inner' fl q d) : q = y + cfg.header := by
        obtain hq | ⟨rfl, -⟩ := (hgrants.allocated q d).mp hq
        · exact absurd hq (hnone q d)
        · rfl
      rintro q d (⟨hq, hq'⟩ | @⟨j, b, x, hb, hx, hout⟩)
      · refine hq' i ?_
        rw [update_self, hold (.cell hq fun j hj => ?_)]
        by_cases hji : j = i
        · rw [hji, hbase] at hj
          cases hj
        · exact hq' j (by rwa [update_of_ne hji])
      · by_cases hji : j = i
        · subst hji
          rw [update_self] at hb hout
          cases hb
          exact hout (isBlock_iff.mp hx)
        · rw [update_of_ne hji] at hb hout
          have heq := hold (.block hb hx hout)
          have hapart := hgrants.good.cell_block hcell hbase' hb hx
          have hpos := header_lt_freeNode cfg
          rw [itemSize_eq] at hapart
          omega
    · rw [← hman]
      rfl

end Good

def poolBase (s : HeapState) (i : Fin 2) : Option Nat :=
  if (s.staticManager i).freelist = 0 then none else some (s.staticManager i).freelist

structure Fresh (cfg : HeapConfig) (s : HeapState) (inner : List Cell) (rest : List Entry) :
    Prop where
  good : Good cfg (poolBase s) s inner rest (fullLists cfg (poolBase s))
  none : ∀ q d, ¬ Allocated cfg (poolBase s) s inner (fullLists cfg (poolBase s)) q d

lemma Fresh.of_base {cfg : HeapConfig} {s : HeapState} {inner : List Cell} {rest : List Entry}
    {base : Fin 2 → Option Nat} {fl : Fin 2 → List Nat} (h : Good cfg base s inner rest fl)
    (hnone : ∀ q d, ¬ Allocated cfg base s inner fl q d)
    (hbase : ∀ i, (s.staticManager i).freelist = (base i).getD 0) (hne : ∀ i, base i ≠ some 0)
    (hfl : ∀ i, fl i = fullLists cfg base i) : Fresh cfg s inner rest := by
  have heq : poolBase s = base := by
    funext i
    have hi := hne i
    rw [poolBase, hbase i]
    cases hb : base i with
    | none => rfl
    | some b =>
      rw [hb] at hi
      have hb0 : b ≠ 0 := fun h0 => hi (by rw [h0])
      simp [hb0]
  have hlists : fullLists cfg base = fl := funext fun i => (hfl i).symm
  exact ⟨by rw [heq, hlists]; exact h, by rw [heq, hlists]; exact hnone⟩

lemma Good.smallMemInit {cfg : HeapConfig} {s : HeapState} {inner : List Cell}
    {rest : List Entry} (h : Good cfg (fun _ => none) s inner rest (fun _ => []))
    (hnone : ∀ q d, ¬ Allocated cfg (fun _ => none) s inner (fun _ => []) q d)
    (hman : ∀ i, (s.staticManager i).freelist = 0) (hsmall : cfg.kernelSmallMemAlloc = true) :
    ∃ s' inner' rest', smallMemInit cfg s = some s' ∧ Fresh cfg s' inner' rest' ∧
      s'.mmDynamicStart = s.mmDynamicStart := by
  rw [Kernel.smallMemInit]
  obtain hinit | ⟨s₁, inner₁, rest₁, b₀, hb₀, hinit, hgood₁, hnone₁, hstart₁, hman₁⟩ :=
    h.initSegment (i := 0) rfl hsmall hnone
  · -- no memory for the first pool
    have hgood := h.absent_step (Function.update s.staticManager 0
      ⟨(s.staticManager 0).blockSize, 0, (s.staticManager 0).blockTotalCount, 0⟩)
      (fun _ _ hb => by cases hb) (fun j _ => by
        match j with
        | 0 => exact ⟨rfl, rfl⟩
        | 1 => exact (h.absent 1 rfl).2) s.staticMemory
    refine ⟨_, inner, rest, ?_, Fresh.of_base hgood ?_ ?_ (fun _ => by simp) fun _ => rfl, rfl⟩
    · rw [hinit]
      simp [setSegment]
    · exact fun q d hq => hnone q d (hq.congr rfl)
    · intro j
      match j with
      | 0 => rfl
      | 1 => exact hman 1
  · rw [hinit]
    simp only [bind_eq_bind, bind_some, Bool.not_true, Bool.false_eq_true, if_false]
    have hfree : (s₁.staticManager 0).freelist = b₀ := by rw [hman₁]; rfl
    have hfree' : (s₁.staticManager 1).freelist = 0 := by rw [hman₁]; exact hman 1
    obtain hinit' | ⟨s₂, inner₂, rest₂, b₁, hb₁, hinit', hgood₂, hnone₂, hstart₂, hman₂⟩ :=
      hgood₁.initSegment (i := 1) rfl hsmall hnone₁
    · -- no memory for the second pool
      have hgood := hgood₁.absent_step (Function.update s₁.staticManager 1
        ⟨(s₁.staticManager 1).blockSize, 0, (s₁.staticManager 1).blockTotalCount,
          (s₁.staticManager 1).blockFreeCount⟩)
        (fun j _ hb => by
          match j with
          | 0 => rfl
          | 1 => cases hb)
        (fun j hj => by
          match j with
          | 0 => cases hj
          | 1 => exact ⟨rfl, (hgood₁.absent 1 hj).2.2⟩) s₁.staticMemory
      refine ⟨_, inner₁, rest₁, by rw [hinit']; rfl, Fresh.of_base hgood ?_ ?_ ?_ ?_, hstart₁⟩
      · exact fun q d hq => hnone₁ q d (hq.congr rfl)
      · intro j
        match j with
        | 0 => exact hfree
        | 1 => rfl
      · intro j
        match j with
        | 0 => exact fun h0 => hb₀ (Option.some.inj h0)
        | 1 => simp
      · intro j
        match j with
        | 0 => rfl
        | 1 => rfl
    · rw [hinit']
      have hgood := hgood₂.absent_step s₂.staticManager (fun _ _ _ => rfl)
        (fun j hj => (hgood₂.absent j hj).2) (smallSize cfg 1 + smallSize cfg 0)
      refine ⟨_, inner₂, rest₂, rfl, Fresh.of_base hgood ?_ ?_ ?_ ?_, hstart₂.trans hstart₁⟩
      · exact fun q d hq => hnone₂ q d (hq.congr rfl)
      · intro j
        match j with
        | 0 =>
          simp only [hman₂]
          exact hfree
        | 1 =>
          simp only [hman₂]
          rfl
      · intro j
        match j with
        | 0 => exact fun h0 => hb₀ (Option.some.inj h0)
        | 1 => exact fun h0 => hb₁ (Option.some.inj h0)
      · intro j
        match j with
        | 0 => rfl
        | 1 => rfl

lemma Region.boot {cfg : HeapConfig} {startPhyAddress endPhyAddress : Nat}
    (h : Region cfg startPhyAddress endPhyAddress)
    (hlt : Region.size cfg startPhyAddress endPhyAddress < 2 ^ 32) (mem : Mem) :
    ∃ s inner rest, initBoardMemory cfg (bootState mem) startPhyAddress endPhyAddress = some s ∧
      Fresh cfg s inner rest ∧ s.mmDynamicStart = firstPage cfg startPhyAddress := by
  obtain ⟨s, rest, hheap, hstart, hman, hinit⟩ := h.initBuddy hlt mem
  have hfree : ∀ i, (s.staticManager i).freelist = 0 := fun i => by rw [hman]; rfl
  have hroom := h.size_pos
  have hptr := cfg.ptr_eq
  set inner : List Cell := [⟨Region.size cfg startPhyAddress endPhyAddress - 2 * cfg.header, false⟩]
    with hinner
  have hgood : Good cfg (fun _ => none) s inner rest (fun _ => []) := {
    heap := hheap
    room := by
      intro c hc
      rw [List.mem_singleton.mp hc]
      simp only [HeapConfig.freeNode, HeapConfig.header]
      omega
    small := fun _ _ hb => by cases hb
    pool := fun _ _ hb => by cases hb
    cell := fun _ _ hb => by cases hb
    absent := fun i _ => by
      rw [hman]
      exact ⟨rfl, rfl, rfl⟩
    base_inj := fun _ _ _ hb => by cases hb
    manager_lt := h.manager_lt
    manager_ne := h.manager_ne }
  have hnone : ∀ q d, ¬ Allocated cfg (fun _ => none) s inner (fun _ => []) q d := by
    rintro q d (⟨hq, -⟩ | ⟨hb, -, -⟩)
    · rw [Cell.at_cons] at hq
      obtain ⟨hc, -⟩ | hq := hq
      · cases hc
      · exact Cell.at_nil hq
    · cases hb
  rw [hinit]
  by_cases hsmall : cfg.kernelSmallMemAlloc = true
  · rw [if_pos hsmall]
    obtain ⟨s', inner', rest', hsegs, hfresh, hstart'⟩ := hgood.smallMemInit hnone hfree hsmall
    exact ⟨s', inner', rest', hsegs, hfresh, hstart'.trans hstart⟩
  · rw [if_neg hsmall]
    refine ⟨s, inner, rest, rfl, Fresh.of_base hgood hnone ?_ ?_ ?_, hstart⟩
    · exact fun i => hfree i
    · simp
    · exact fun _ => rfl

end Xiuos.Kernel
