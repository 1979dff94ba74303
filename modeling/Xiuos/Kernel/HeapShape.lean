import Xiuos.Kernel.HeapSafe

namespace Xiuos.Kernel
open Lib Function List Option HeapRep

def Walk (cfg : HeapConfig) (m : Mem) : Nat → Nat → List Cell → Prop
  | _, _, [] => True
  | a, p, c :: cs => cfg.get m a .size = c.size ∧ cfg.get m a .prevAdjSize = p ∧
    cfg.get m a .flag = flagOf c.used ∧ Walk cfg m (a + c.size) c.size cs

structure Structured (cfg : HeapConfig) (s : HeapState) (cells : List Cell)
    (bins : List (List (Nat × Nat))) : Prop where
  walk : Walk cfg s.mem s.mmDynamicStart 0 (guarded cfg cells)
  stop : s.mmDynamicStart + cfg.header + Cell.span cells = s.mmDynamicEnd
  merged : Cell.Merged cells
  lists : freeBlocks cfg s.mem = some bins
  free : bins.flatten.Perm (Cell.frees (s.mmDynamicStart + cfg.header) cells)
  index : ∀ i l, bins[i]? = some l → ∀ b ∈ l, caculateBuddyIndex b.2 = i
  sorted : ∀ l ∈ bins, l.Pairwise fun b b' => b.2 ≤ b'.2
  active : s.activeMemory = Cell.active cells

section
variable {cfg : HeapConfig} {m : Mem} {a p : Nat} {cs : List Cell}

lemma Tagged.walk (h : Tagged cfg m a p cs) (hp : p < 2 ^ 32) (hspan : Cell.span cs < 2 ^ 32) :
    Walk cfg m a p cs := by
  induction cs generalizing a p with
  | nil => trivial
  | cons c cs ih =>
    rw [Cell.span_cons] at hspan
    obtain ⟨hhead, htail⟩ := h
    refine ⟨hhead.size, ?_, hhead.flag, ih htail (by omega) (by omega)⟩
    rw [hhead.prevAdjSize, Nat.mod_eq_of_lt hp]

variable {s : HeapState} {inner : List Cell} {rest : List Entry}

lemma HeapRep.structured (h : HeapRep cfg s inner rest) :
    Structured cfg s inner (binsOf cfg rest) where
  walk := h.rep.tagged.walk (by decide) (by have := h.span_le; omega)
  stop := h.stop.symm
  merged := by
    have hmerged := h.merged
    rw [guarded, Cell.Merged] at hmerged
    have hinner := (isChain_cons.mp hmerged).2
    exact (isChain_append.mp hinner).1
  lists := h.freeBlocks_eq
  free := h.binsOf_perm
  index i l hl b hb := by
    rw [binsOf, getElem?_map] at hl
    obtain ⟨j, hj, rfl⟩ := map_eq_some_iff.mp hl
    obtain ⟨hi, rfl⟩ := List.getElem?_eq_some_iff.mp hj
    obtain ⟨e, he, rfl⟩ := List.mem_map.mp hb
    obtain ⟨a, z, rfl, -, hindex⟩ := mem_binNodes.mp he
    rw [getElem_range] at hindex
    exact hindex
  sorted l hl := by
    obtain ⟨i, -, rfl⟩ := List.mem_map.mp hl
    refine pairwise_map.mpr ?_
    have hsorted := ((pairwise_cons.mp h.ordered.sorted).2.filter (·.index = i)).filter
      (·.isFree)
    refine hsorted.imp_of_mem fun {e e'} he he' hle => ?_
    obtain ⟨a, z, rfl, -, -⟩ := mem_binNodes.mp he
    obtain ⟨a', z', rfl, -, -⟩ := mem_binNodes.mp he'
    exact hle.size_le
  active := h.active

end

section

variable {cfg : HeapConfig} {base : Fin 2 → Option Nat} {s s' : HeapState}
  {inner inner' inner'' : List Cell} {rest rest' : List Entry} {fl fl' fl'' : Fin 2 → List Nat}
  {p c : Nat}

lemma Good.gave_took (h : Good cfg base s inner rest fl)
    (h' : Good cfg base s' inner' rest' fl') (hstart : s'.mmDynamicStart = s.mmDynamicStart)
    (htook : Good.Took cfg base s inner fl inner' fl' p)
    (hgave : Gave cfg base s' inner' fl' inner'' fl'' p) (hmerged : Cell.Merged inner'') :
    inner'' = inner ∧ fl'' = fl := by
  have hpos := header_lt_freeNode cfg
  have hnode {us : List Cell} : node cfg s' us = node cfg s us := by
    rw [node, node, hstart]
  generalize hinner : inner' = cs at hgave
  generalize hlists : fl' = ls at hgave
  generalize hp : p = q at hgave
  cases hgave with
  | @cell us' vs' inner'' z' fl' hbase' hcoal =>
    cases htook with
    | @cell us vs n z fl hn hbase =>
      -- both are the cell at the same place
      obtain ⟨ts, hts, -⟩ := Cell.carve_eq memLowRange n z
      have hroom := h'.room
      rw [hts, cons_append] at hinner hroom
      have hspan : Cell.span us = Cell.span us' := by
        rw [hnode, node, node] at hp
        omega
      have htaken := hroom ⟨Cell.taken memLowRange n z, true⟩ (by simp)
      have hz' := hroom ⟨z', true⟩ (by rw [hinner]; simp)
      simp only at htaken hz'
      obtain ⟨rfl, hc, rfl⟩ | hle | hle := Cell.apart hinner
      · obtain ⟨rfl, -⟩ := Cell.mk.inj hc
        have hinner' : Cell.Merged (us ++ ⟨z, false⟩ :: vs) := h.heap.structured.merged
        exact ⟨hcoal.carve hn hinner' hts hmerged, hlists.symm⟩
      · simp only at hle
        omega
      · simp only at hle
        omega
    | @block inner fl i b x xs hb hfl =>
      have hx := (h.pool i b hb).isBlock x (by rw [hfl]; exact mem_cons_self)
      have hcell : Cell.At true (s'.mmDynamicStart + cfg.header) inner
        (node cfg s' us') z' := ⟨us', vs', hinner, rfl⟩
      have hapart := h'.cell_block hcell hbase' hb hx
      have hz' := h'.header_le hcell
      rw [itemSize_eq] at hapart
      omega
  | @block inner' fl' i' b' x' hb' hx' =>
    cases htook with
    | @cell us vs n z fl hn hbase =>
      obtain ⟨ts, hts, -⟩ := Cell.carve_eq memLowRange n z
      have hcell : Cell.At true (s'.mmDynamicStart + cfg.header)
        (us ++ (Cell.carve memLowRange n z ++ vs))
        (node cfg s' us) (Cell.taken memLowRange n z) :=
          ⟨us, ts ++ vs, by rw [hts]; rfl, rfl⟩
      have hapart := h'.cell_block hcell (by rwa [hnode]) hb' hx'
      have hz := h'.header_le hcell
      rw [itemSize_eq, hnode] at hapart
      omega
    | @block inner fl i b x xs hb hfl =>
      have hx := (h.pool i b hb).isBlock x (by rw [hfl]; exact mem_cons_self)
      have hapart := h'.blocks_apart hb hx hb' hx'
      rw [itemSize_eq, itemSize_eq] at hapart
      obtain ⟨rfl, rfl⟩ | hapart := hapart
      · refine ⟨hinner.symm, ?_⟩
        rw [← hlists, update_self, update_idem, ← hfl, update_eq_self]
      · omega

def RoundTrip (cfg : HeapConfig) (s : HeapState) (size : Nat) : Prop :=
  ∀ s' p, xMalloc cfg s size = some (s', p) → p ≠ 0 → ∃ s'', xFree cfg s' p = some s'' ∧
    (∃ bins bins'', freeBlocks cfg s.mem = some bins ∧ freeBlocks cfg s''.mem = some bins'' ∧
      bins''.flatten.Perm bins.flatten) ∧
    (∀ i, ∃ xs, poolList cfg s i = some xs ∧ poolList cfg s'' i = some xs ∧
      (s''.staticManager i).blockFreeCount = (s.staticManager i).blockFreeCount) ∧
    s''.activeMemory = s.activeMemory

lemma Good.roundTrip (h : Good cfg base s inner rest fl) (hr : Good.Roomy cfg) (size : Nat) :
    RoundTrip cfg s size := by
  intro s' p hmalloc hne
  obtain hnull | ⟨s₁, inner', rest', fl', q, c, hmalloc', -, hg⟩ := h.xMalloc hr size
  · rw [hnull] at hmalloc
    cases hmalloc
    exact absurd rfl hne
  · rw [hmalloc'] at hmalloc
    cases hmalloc
    obtain ⟨s'', inner'', rest'', fl'', hfree, hrel⟩ :=
      hg.good.xFree ((hg.allocated p c).mpr (.inr ⟨rfl, rfl⟩))
    have h'' := hrel.good
    obtain ⟨rfl, rfl⟩ := h.gave_took hg.good hg.start hg.took hrel.gave h''.heap.structured.merged
    have hstart := hrel.start.trans hg.start
    refine ⟨s'', hfree, ⟨_, _, h.heap.freeBlocks_eq, h''.heap.freeBlocks_eq, ?_⟩, fun i => ?_, ?_⟩
    · have hperm := h''.heap.binsOf_perm
      rw [hstart] at hperm
      exact hperm.trans h.heap.binsOf_perm.symm
    · exact ⟨_, h.poolList_eq i, h''.poolList_eq i, (h''.count_eq i).trans (h.count_eq i).symm⟩
    · exact h''.heap.active.trans h.heap.active.symm

end

namespace HeapUser

lemma wideBoard_boot :
    (initBoardMemory wideBoard (bootState fun _ => 0) 64 4294967488).map (fun boot =>
      (boot.mmDynamicStart, wideBoard.get boot.mem 80 .size,
        wideBoard.get boot.mem 4294967472 .prevAdjSize)) = some (64, 4294967392, 96) := by
  decide +kernel

lemma wideBoard_not_structured {s : HeapState} (hstart : s.mmDynamicStart = 64)
    (hsize : wideBoard.get s.mem 80 .size = 4294967392)
    (hprev : wideBoard.get s.mem 4294967472 .prevAdjSize = 96) :
    ¬ ∃ cells bins, Structured wideBoard s cells bins := by
  rintro ⟨cells, bins, hs⟩
  have hwalk := hs.walk
  have hheader : wideBoard.header = 16 := by decide
  rw [hstart, guarded, hheader] at hwalk
  obtain ⟨-, -, -, hwalk⟩ := hwalk
  cases cells with
  | nil => exact absurd (hsize.symm.trans hwalk.1) (by decide)
  | cons c cells =>
    obtain ⟨hc, -, -, hwalk⟩ := hwalk
    rw [← hsize.symm.trans hc] at hwalk
    cases cells with
    | nil => exact absurd (hprev.symm.trans hwalk.2.1) (by decide)
    | cons d cells => exact absurd (hprev.symm.trans hwalk.2.1) (by decide)

theorem structured_iff (word : Word) :
    (∀ cfg startPhyAddress endPhyAddress, cfg.kernelSmallMemAlloc = true →
      Region cfg startPhyAddress endPhyAddress →
      Region.size cfg startPhyAddress endPhyAddress < 2 ^ 32 → ∀ boot w,
        Reached cfg startPhyAddress endPhyAddress boot w →
        ∃ cells bins, Structured cfg w.heap cells bins) ∧
    ((∀ cfg startPhyAddress endPhyAddress, cfg.word = word →
      cfg.kernelSmallMemAlloc = true → Region cfg startPhyAddress endPhyAddress → ∀ boot w,
        Reached cfg startPhyAddress endPhyAddress boot w →
        ∃ cells bins, Structured cfg w.heap cells bins) ↔ word = .w32) := by
  refine below_and_word_iff 4294967488 (wideBoard_region (by decide) (by decide)) ?_ ?_
  · intro cfg startPhyAddress endPhyAddress hsmall hregion hlt boot w hw
    obtain ⟨inner, rest, fl, hinv⟩ := hw.inv (.inl hsmall) hregion hlt
    exact ⟨inner, _, hinv.good.heap.structured⟩
  · intro hall
    obtain ⟨boot, hboot, heq⟩ := map_eq_some_iff.mp wideBoard_boot
    simp only [Prod.mk.injEq] at heq
    exact wideBoard_not_structured heq.1 heq.2.1 heq.2.2
      (hall boot ⟨boot, []⟩ ⟨fun _ => 0, [], hboot, rfl⟩)

lemma narrowBoard_run :
    (initBoardMemory narrowBoard (bootState fun _ => 0) 64 1088 >>= fun boot =>
      runs (step narrowBoard) ⟨boot, []⟩ [.malloc 100, .malloc 8, .malloc 90, .free 232]).map
        (fun w => (w.pointers, (freeBlocks narrowBoard w.heap.mem).map flatten)) =
    some ([348, 100], some [(220, 116), (444, 632)]) := by decide +kernel

/-- A heap block and a pool block in use, and a free block between two that are not. -/
lemma narrowBoard_used : ∃ boot w, Reached narrowBoard 64 1088 boot w ∧
    w.pointers = [348, 100] ∧
    (freeBlocks narrowBoard w.heap.mem).map flatten = some [(220, 116), (444, 632)] := by
  obtain ⟨w, hw, heq⟩ := map_eq_some_iff.mp narrowBoard_run
  obtain ⟨boot, hboot, hrun⟩ := bind_eq_some_iff.mp hw
  simp only [Prod.mk.injEq] at heq
  exact ⟨boot, w, ⟨fun _ => 0, _, hboot, hrun⟩, heq.1, heq.2⟩

theorem structured_iff_narrow : ∃ boot w, Reached narrowBoard 64 1088 boot w ∧
    w.pointers = [348, 100] ∧ ∃ cells bins, Structured narrowBoard w.heap cells bins := by
  obtain ⟨boot, w, hw, hlive, -⟩ := narrowBoard_used
  exact ⟨boot, w, hw, hlive, (structured_iff .w32).1 narrowBoard 64 1088 rfl narrowBoard_region
    narrowBoard_size boot w hw⟩

def strayBlock : Mem := fun x => if x = 240 then 64 else 0

lemma wideBoard_roundTrip :
    (initBoardMemory wideBoard (bootState strayBlock) 64 4294967552 >>= fun boot =>
      xMalloc wideBoard boot 72 >>= fun r => xFree wideBoard r.1 r.2 >>= fun s =>
        some (r.2, (freeBlocks wideBoard boot.mem).map flatten,
          (freeBlocks wideBoard s.mem).map flatten)) =
    some (160, some [(144, 96)], some [(144, 160)]) := by decide +kernel

lemma wideBoard_not_roundTrip : ∃ boot, Reached wideBoard 64 4294967552 boot ⟨boot, []⟩ ∧
    ¬ RoundTrip wideBoard boot 72 := by
  obtain ⟨boot, hboot, hrun⟩ := bind_eq_some_iff.mp wideBoard_roundTrip
  obtain ⟨⟨s', p⟩, hmalloc, hrun⟩ := bind_eq_some_iff.mp hrun
  obtain ⟨s'', hfree, heq⟩ := bind_eq_some_iff.mp hrun
  simp only [Option.some.injEq, Prod.mk.injEq] at heq
  obtain ⟨rfl, hbefore, hafter⟩ := heq
  refine ⟨boot, ⟨strayBlock, [], hboot, rfl⟩, fun htrip => ?_⟩
  obtain ⟨s₁, hfree', ⟨bins, bins'', hbins, hbins'', hperm⟩, -⟩ := htrip s' 160 hmalloc (by decide)
  obtain rfl : s'' = s₁ := Option.some.inj (hfree.symm.trans hfree')
  rw [hbins, map_some, Option.some.injEq] at hbefore
  rw [hbins'', map_some, Option.some.injEq] at hafter
  rw [hbefore, hafter] at hperm
  exact absurd (perm_singleton.mp hperm) (by decide)

theorem roundTrip_iff (word : Word) :
    (∀ cfg startPhyAddress endPhyAddress, cfg.kernelSmallMemAlloc = true →
      Region cfg startPhyAddress endPhyAddress →
      Region.size cfg startPhyAddress endPhyAddress < 2 ^ 32 → ∀ boot w,
        Reached cfg startPhyAddress endPhyAddress boot w → ∀ size, size < cfg.limit →
          RoundTrip cfg w.heap size) ∧
    ((∀ cfg startPhyAddress endPhyAddress, cfg.word = word →
      cfg.kernelSmallMemAlloc = true → Region cfg startPhyAddress endPhyAddress → ∀ boot w,
        Reached cfg startPhyAddress endPhyAddress boot w → ∀ size, size < cfg.limit →
          RoundTrip cfg w.heap size) ↔ word = .w32) := by
  refine below_and_word_iff 4294967552 (wideBoard_region (by decide) (by decide)) ?_ ?_
  · intro cfg startPhyAddress endPhyAddress hsmall hregion hlt boot w hw size _
    obtain ⟨inner, rest, fl, hinv⟩ := hw.inv (.inl hsmall) hregion hlt
    exact hinv.good.roundTrip (.inl hsmall) size
  · intro hall
    obtain ⟨boot, hw, hnot⟩ := wideBoard_not_roundTrip
    exact hnot (hall boot ⟨boot, []⟩ hw 72 (by rw [wideBoard_limit]; omega))

theorem roundTrip_iff_narrow : ∃ boot w, Reached narrowBoard 64 1088 boot w ∧
    (freeBlocks narrowBoard w.heap.mem).map flatten = some [(220, 116), (444, 632)] ∧
    RoundTrip narrowBoard w.heap 70 := by
  obtain ⟨boot, w, hw, -, hfree⟩ := narrowBoard_used
  exact ⟨boot, w, hw, hfree, (roundTrip_iff .w32).1 narrowBoard 64 1088 rfl narrowBoard_region
    narrowBoard_size boot w hw 70 (by rw [narrowBoard_limit]; omega)⟩

end HeapUser
end Xiuos.Kernel
