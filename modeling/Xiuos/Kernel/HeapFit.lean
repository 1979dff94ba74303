import Xiuos.Kernel.HeapRelease

namespace Xiuos.Kernel
open Lib Option
variable (cfg : HeapConfig) (s : HeapState) (size : Nat)

def BestFit (cfg : HeapConfig) (s : HeapState) (size : Nat) : Prop :=
  ∃ bins s' p, freeBlocks cfg s.mem = some bins ∧
    bigMemMalloc cfg s size dynamicBlockMask = some (s', p) ∧
    (p ≠ 0 ↔ ∃ b ∈ bins.flatten, size + cfg.header ≤ b.2) ∧
    (p ≠ 0 → ∃ b ∈ bins.flatten, p = b.1 + cfg.header ∧ size + cfg.header ≤ b.2 ∧
      ∀ b' ∈ bins.flatten, size + cfg.header ≤ b'.2 → b.2 ≤ b'.2)

/-- No free block has exactly the size that is needed. A size that wraps must get no block: what is
left of it has to be larger than every free block, or the size of one; the search for 0 looks into
the first bin only. -/
def Inexact (cfg : HeapConfig) (s : HeapState) (size : Nat) : Prop :=
  ∀ bins, freeBlocks cfg s.mem = some bins →
    if size + cfg.header < 2 ^ 32 then ∀ b ∈ bins.flatten, b.2 ≠ size + cfg.header
    else if (size + cfg.header) % 2 ^ 32 = 0 then
      ∀ b ∈ bins.flatten, caculateBuddyIndex b.2 ≠ 0
    else (∀ b ∈ bins.flatten, b.2 < (size + cfg.header) % 2 ^ 32) ∨
      ∃ b ∈ bins.flatten, b.2 = (size + cfg.header) % 2 ^ 32

namespace HeapRep

variable {cfg : HeapConfig} {s s' : HeapState} {inner : List Cell} {rest : List Entry} {size : Nat}
  (h : HeapRep cfg s inner rest)

include h
variable {b : Nat × Nat}

lemma mem_bins :
    b ∈ (binsOf cfg rest).flatten ↔
      Cell.At false (s.mmDynamicStart + cfg.header) inner b.1 b.2 := by
  rw [h.binsOf_perm.mem_iff]
  exact Cell.mem_frees_iff

lemma mem_of_bins (hb : b ∈ (binsOf cfg rest).flatten) : ⟨b.2, false⟩ ∈ inner := by
  obtain ⟨us, vs, rfl, -⟩ := h.mem_bins.mp hb
  simp

lemma exists_bins {y : Nat} (hy : ⟨y, false⟩ ∈ inner) :
    ∃ b ∈ (binsOf cfg rest).flatten, b.2 = y := by
  obtain ⟨us, vs, rfl⟩ := List.append_of_mem hy
  exact ⟨(_, y), h.mem_bins.mpr ⟨us, vs, rfl, rfl⟩, rfl⟩

lemma size_lt_of_mem {c : Cell} (hc : c ∈ inner) : c.size < 2 ^ 32 := by
  have hspan := h.span_le
  obtain ⟨us, vs, rfl⟩ := List.append_of_mem hc
  simp only [span_guarded, Cell.span_append, Cell.span_cons] at hspan
  omega

lemma forall_bins {Q : Nat → Prop} :
    (∀ b ∈ (binsOf cfg rest).flatten, Q b.2) ↔ ∀ y, ⟨y, false⟩ ∈ inner → Q y := by
  refine ⟨fun hall y hy => ?_, fun hall b hb => hall b.2 (h.mem_of_bins hb)⟩
  obtain ⟨b, hb, rfl⟩ := h.exists_bins hy
  exact hall b hb

lemma bigMemMalloc_null {n : Nat} {xs ys : List Entry} (hn : (size + cfg.header) % 2 ^ 32 = n)
    (hrest : rest = xs ++ ys)
    (hfit : bestFit cfg s.mem n cfg.limit
      (cfg.get s.mem (cfg.freenode (caculateBuddyIndex n)) .next) = some (Rep.behind cfg ys)) :
    (Kernel.bigMemMalloc cfg s size dynamicBlockMask).map Prod.snd = some 0 ↔
      ∀ e ∈ ys.head?, e.size ≤ n := by
  rw [Kernel.bigMemMalloc]
  simp only [hn, caculateBuddyIndex_eq, hfit, Option.bind_eq_bind, Option.bind_some]
  cases ys with
  | nil => simp [Rep.behind, Links.entry]
  | cons e ys =>
    obtain ⟨hsize, hne, -⟩ := (hrest ▸ h.rep).behind_cons h.placed
    rw [hsize]
    by_cases hle : e.size ≤ n
    · rw [if_neg fun hc => Nat.not_lt.mpr hle hc.2]
      simp [hle]
    · rw [if_pos ⟨hne, Nat.lt_of_not_le hle⟩]
      cases takeNode cfg s.mem (Rep.behind cfg (e :: ys)) n with
      | none => simp [hle]
      | some m => simp [hle, hne]

lemma bestFit_zero : bestFit cfg s.mem 0 cfg.limit
    (cfg.get s.mem (cfg.freenode (caculateBuddyIndex 0)) .next) = some (Rep.behind cfg rest) := by
  have hlimit := cfg.le_limit
  obtain ⟨fuel, hfuel⟩ := Nat.exists_eq_succ_of_ne_zero (show cfg.limit ≠ 0 by omega)
  rw [hfuel, bestFit, if_neg (by omega)]
  have hnext : cfg.get s.mem (Rep.front cfg []) .next = Rep.behind cfg rest := h.rep.next_front
  exact congrArg some hnext

/-- The list starts with a free block exactly when one belongs into the first bin. -/
lemma head_size_le_iff : (∀ e ∈ rest.head?, e.size ≤ 0) ↔
    ∀ y, ⟨y, false⟩ ∈ inner → caculateBuddyIndex y ≠ 0 := by
  have hpos := header_lt_freeNode cfg
  have hsorted {e f : Entry} {tail : List Entry} (hrest : rest = e :: tail) (hf : f ∈ tail) :
      Entry.Le e f :=
    (List.pairwise_cons.mp (List.pairwise_cons.mp (hrest ▸ h.ordered.sorted)).2).1 f hf
  constructor
  · intro hhead y hy hindex
    obtain ⟨b, hb⟩ := h.exists_free hy
    have hnode := (h.rep.free_mem b y hb).2
    obtain ⟨e, tail, hrest⟩ := List.exists_cons_of_ne_nil (List.ne_nil_of_mem hb)
    have he := hhead e (by rw [hrest]; rfl)
    rw [hrest] at hb
    obtain rfl | hmem := List.mem_cons.mp hb
    · simp only [Entry.size] at he
      omega
    · have hle := hsorted hrest hmem
      cases e with
      | bin i =>
        have hi := (h.rep.bin_lt i (by simp [hrest])).1
        simp only [Entry.Le, Entry.index, hindex] at hle
        omega
      | free a z =>
        have hz := (h.rep.free_mem a z (by simp [hrest])).2
        simp only [Entry.size] at he
        omega
  · intro hall e he
    cases e with
    | bin i => exact le_rfl
    | free a z =>
      obtain ⟨tail, hrest⟩ := List.head?_eq_some_iff.mp he
      have hindex := hall z (h.mem_inner (hrest ▸ List.mem_cons_self)).1
      have hbin := h.ordered.mem_bin 1 (by decide)
      have htail : .bin 1 ∈ tail := by simpa [hrest] using hbin
      have hle := hsorted hrest htail
      simp only [Entry.Le, Entry.index, Entry.size] at hle ⊢
      omega

lemma bigMemMalloc_null_iff {n : Nat} (hn : (size + cfg.header) % 2 ^ 32 = n) :
    (Kernel.bigMemMalloc cfg s size dynamicBlockMask).map Prod.snd = some 0 ↔
      if n = 0 then ∀ y, ⟨y, false⟩ ∈ inner → caculateBuddyIndex y ≠ 0
      else (∀ y, ⟨y, false⟩ ∈ inner → y < n) ∨ ⟨n, false⟩ ∈ inner := by
  split
  case isTrue hzero =>
    subst hzero
    rw [h.bigMemMalloc_null hn (List.nil_append rest).symm h.bestFit_zero]
    exact h.head_size_le_iff
  case isFalse hpos =>
    obtain ⟨xs, ys, hrest, hfit, hcase⟩ :=
      h.rep.bestFit_smallest h.placed h.ordered (Nat.pos_of_ne_zero hpos)
    rw [h.bigMemMalloc_null hn hrest hfit]
    obtain ⟨rfl, hsmall⟩ | ⟨a, z, ys, rfl, hnz, hbest⟩ := hcase
    · refine iff_of_true (by simp) (.inl fun y hy => ?_)
      obtain ⟨b, hb⟩ := h.exists_free hy
      exact hsmall b y hb
    · have hmem := (h.mem_inner (hrest ▸ by simp : .free a z ∈ rest)).1
      have hiff : (∀ e ∈ (Entry.free a z :: ys).head?, e.size ≤ n) ↔ z ≤ n := by
        simp [Entry.size]
      rw [hiff]
      constructor
      · intro hzn
        exact .inr (Nat.le_antisymm hnz hzn ▸ hmem)
      · rintro (hsmall | hexact)
        · exact absurd (hsmall z hmem) (by omega)
        · obtain ⟨b, hb⟩ := h.exists_free hexact
          exact hbest b n hb le_rfl

lemma inexact_iff (size : Nat) :
    Inexact cfg s size ↔
      if size + cfg.header < 2 ^ 32 then ⟨size + cfg.header, false⟩ ∉ inner
      else (Kernel.bigMemMalloc cfg s size dynamicBlockMask).map Prod.snd = some 0 := by
  simp only [Inexact, h.freeBlocks_eq, Option.some.injEq, forall_eq']
  rw [h.bigMemMalloc_null_iff rfl]
  split
  · rw [h.forall_bins (Q := (· ≠ size + cfg.header))]
    exact ⟨fun hall hmem => hall _ hmem rfl, fun hnot y hy heq => hnot (heq ▸ hy)⟩
  · split
    · exact h.forall_bins (Q := (caculateBuddyIndex · ≠ 0))
    · refine or_congr (h.forall_bins (Q := (· < (size + cfg.header) % 2 ^ 32))) ⟨?_, ?_⟩
      · rintro ⟨b, hb, hsize⟩
        exact hsize ▸ h.mem_of_bins hb
      · exact fun hmem => h.exists_bins hmem

lemma bestFit_iff_of_lt (hlt : size + cfg.header < 2 ^ 32) :
    BestFit cfg s size ↔ ⟨size + cfg.header, false⟩ ∉ inner := by
  have hpos := header_lt_freeNode cfg
  obtain ⟨hnull, hnone | hexact⟩ | ⟨us, z, vs, s', rest', rfl, hnz, hbest, hmalloc, -, -⟩ :=
    h.bigMemMalloc (Nat.mod_eq_of_lt hlt) (Nat.le_add_left _ _)
  · refine iff_of_true ⟨_, s, 0, h.freeBlocks_eq, hnull, ⟨fun hne => absurd rfl hne, ?_⟩,
      fun hne => absurd rfl hne⟩ fun hmem => Nat.lt_irrefl _ (hnone _ hmem)
    rintro ⟨b, hb, hle⟩
    exact absurd (hnone b.2 (h.mem_of_bins hb)) (by omega)
  · refine iff_of_false ?_ fun hnot => hnot hexact
    rintro ⟨bins, s', p, hfree, hmalloc, hiff, -⟩
    rw [hnull] at hmalloc
    cases hmalloc
    cases h.freeBlocks_eq.symm.trans hfree
    obtain ⟨b, hb, hsize⟩ := h.exists_bins hexact
    exact hiff.mpr ⟨b, hb, hsize.ge⟩ rfl
  · have hb : (node cfg s us, z) ∈ (binsOf cfg rest).flatten := h.mem_bins.mpr ⟨us, vs, rfl, rfl⟩
    refine iff_of_true ⟨_, s', _, h.freeBlocks_eq, hmalloc, iff_of_true (by omega)
      ⟨_, hb, hnz.le⟩, fun _ => ⟨_, hb, rfl, hnz.le, fun b' hb' hle => ?_⟩⟩ fun hmem => ?_
    · exact hbest b'.2 (h.mem_of_bins hb') hle
    · exact absurd (hbest _ hmem le_rfl) (by omega)

lemma bestFit_iff_of_wrap (hge : ¬ size + cfg.header < 2 ^ 32) :
    BestFit cfg s size ↔
      (Kernel.bigMemMalloc cfg s size dynamicBlockMask).map Prod.snd = some 0 := by
  have hnone : ¬ ∃ b ∈ (binsOf cfg rest).flatten, size + cfg.header ≤ b.2 := by
    rintro ⟨b, hb, hle⟩
    have hsize : b.2 < 2 ^ 32 := h.size_lt_of_mem (h.mem_of_bins hb)
    omega
  constructor
  · rintro ⟨bins, s', p, hfree, hmalloc, hiff, -⟩
    cases h.freeBlocks_eq.symm.trans hfree
    rw [hmalloc, map_some, not_not.mp (mt hiff.mp hnone)]
  · intro hnull
    obtain ⟨⟨s', p⟩, hmalloc, rfl⟩ := map_eq_some_iff.mp hnull
    exact ⟨_, s', 0, h.freeBlocks_eq, hmalloc, iff_of_false (fun hne => hne rfl) hnone,
      fun hne => absurd rfl hne⟩

lemma bestFit_iff_inexact (size : Nat) : BestFit cfg s size ↔ Inexact cfg s size := by
  rw [h.inexact_iff]
  split
  case isTrue hlt => exact h.bestFit_iff_of_lt hlt
  case isFalse hge => exact h.bestFit_iff_of_wrap hge

end HeapRep

namespace HeapUser

def hugeBoard {align : Nat} (halign : align = 4 ∨ align = 8) (small : Bool) : HeapConfig where
  word := .w64
  memAlign := align
  mmPageSize := 64
  kernelSmallMemAlloc := small
  kernelDebug := false
  small32 := 1
  small64 := 1
  freenodeList := 2 ^ 40
  staticManager i := if i.val = 0 then 2 ^ 41 else 2 ^ 41 + 64
  align_eq := halign
  page_dvd := wideBoard.page_dvd
  small32_range := wideBoard.small32_range
  small64_range := wideBoard.small64_range

lemma hugeBoard_region {align : Nat} (halign : align = 4 ∨ align = 8) (small : Bool) :
    Region (hugeBoard halign small) 64 4294968000 := by
  have hlimit : (hugeBoard halign small).limit = 18446744073709551616 := rfl
  have hlist : (hugeBoard halign small).freenodeList = 2 ^ 40 := rfl
  have hpage : (hugeBoard halign small).mmPageSize = 64 := rfl
  have hfirst : firstPage (hugeBoard halign small) 64 = 64 := by
    rw [firstPage, HeapConfig.alignUp, hlimit, hpage]
  have hend : endPage (hugeBoard halign small) 4294968000 = 4294968000 := by
    rw [endPage, alignDown, hpage]
  have hnode : (hugeBoard halign small).freeNode = 32 := rfl
  have hmanager : (hugeBoard halign small).staticManager 0 = 2 ^ 41 ∧
      (hugeBoard halign small).staticManager 1 = 2 ^ 41 + 64 := ⟨rfl, rfl⟩
  refine ⟨by decide, by omega, by omega, by omega, by omega, ?_, .inl (by omega), fun i => ?_, ?_⟩
  · rw [memLinknrs]
    omega
  · obtain rfl | rfl : i = 0 ∨ i = 1 := by omega
    · omega
    · omega
  · omega

def strayNode : Mem := fun x => if x = 692 then 2 else 0

def fitRun (cfg : HeapConfig) (mem : Mem) (endPhyAddress : Nat) (calls : List HeapCall)
    (size : Nat) : Option (Option (List (Nat × Nat)) × Nat) := do
  let boot ← initBoardMemory cfg (bootState mem) 64 endPhyAddress
  let w ← runs (step cfg) ⟨boot, []⟩ calls
  let r ← bigMemMalloc cfg w.heap size dynamicBlockMask
  some ((freeBlocks cfg w.heap.mem).map List.flatten, r.2)

lemma fitRun_wide :
    (∀ align, (halign : align = 4 ∨ align = 8) →
      fitRun (hugeBoard halign true) strayNode 4294968000
        [.malloc 80, .malloc 80, .malloc 224, .free 256, .free 448] 4294967376 =
        some (some [(240, 96), (432, 8589934848)], 0)) ∧
    ∀ align, (halign : align = 4 ∨ align = 8) →
      fitRun (hugeBoard halign false) strayNode 4294968000
        [.malloc 80, .malloc 80, .malloc 384, .free 96, .free 288] 4294967376 =
        some (some [(80, 96), (272, 8589935008)], 0) := by
  constructor
  · rintro _ (rfl | rfl) <;> decide +kernel
  · rintro _ (rfl | rfl) <;> decide +kernel

lemma fitRun_narrow :
    fitRun (plainBoard .w32 (.inl rfl)) (fun _ => 0) 1088
      [.malloc 4, .malloc 4, .free 88, .free 104] 4 = some (none, 88) := by decide +kernel

section

variable {cfg : HeapConfig} {mem : Mem} {endPhyAddress size p : Nat} {calls : List HeapCall}
  {bins : Option (List (Nat × Nat))}

lemma reached_of_fitRun (h : fitRun cfg mem endPhyAddress calls size = some (bins, p)) :
    ∃ boot w s', Reached cfg 64 endPhyAddress boot w ∧
      (freeBlocks cfg w.heap.mem).map List.flatten = bins ∧
      bigMemMalloc cfg w.heap size dynamicBlockMask = some (s', p) := by
  obtain ⟨boot, hboot, h⟩ := bind_eq_some_iff.mp h
  obtain ⟨w, hrun, h⟩ := bind_eq_some_iff.mp h
  obtain ⟨⟨s', q⟩, hmalloc, h⟩ := bind_eq_some_iff.mp h
  obtain ⟨hbins, rfl⟩ := Prod.mk.inj (Option.some.inj h)
  exact ⟨boot, w, s', ⟨mem, calls, hboot, hrun⟩, hbins, hmalloc⟩

lemma not_bestFit_of_fitRun (h : fitRun cfg mem endPhyAddress calls size = some (bins, p))
    (hbad : bins = none ∨ p = 0 ∧ ∃ bs ∈ bins, ∃ b ∈ bs, size + cfg.header ≤ b.2)
    (hwrap : ∀ bs ∈ bins, ¬ size + cfg.header < 2 ^ 32 ∧ (size + cfg.header) % 2 ^ 32 ≠ 0 ∧
      ∃ b ∈ bs, b.2 = (size + cfg.header) % 2 ^ 32) :
    ∃ boot w, Reached cfg 64 endPhyAddress boot w ∧ Inexact cfg w.heap size ∧
      ¬ BestFit cfg w.heap size := by
  obtain ⟨boot, w, s', hw, rfl, hmalloc⟩ := reached_of_fitRun h
  refine ⟨boot, w, hw, fun bins hbins => ?_, ?_⟩
  · obtain ⟨hge, hne, hexact⟩ := hwrap bins.flatten (by simp [hbins])
    rw [if_neg hge, if_neg hne]
    exact .inr hexact
  · rintro ⟨bins, s'', p', hbins, hmalloc', hiff, -⟩
    obtain ⟨-, rfl⟩ := Prod.mk.inj (Option.some.inj (hmalloc.symm.trans hmalloc'))
    rw [hbins, map_some] at hbad
    obtain hbad | ⟨rfl, bs, hbs, b, hb, hle⟩ := hbad
    · cases hbad
    · cases mem_some_iff.mp hbs
      exact hiff.mpr ⟨b, hb, hle⟩ rfl

end

/-- In a heap below 4 GiB whose free blocks have room for their links, `BigMemMalloc` is a best fit
exactly when no free block has the very size that it needs. Elsewhere a run can break the free
lists, and that condition is not enough. -/
theorem bestFit_iff (word : Word) {align : Nat} (halign : align = 4 ∨ align = 8) (small : Bool) :
    (∀ cfg startPhyAddress endPhyAddress, cfg.word = word → cfg.memAlign = align →
      cfg.kernelSmallMemAlloc = small → Good.Roomy cfg →
      Region cfg startPhyAddress endPhyAddress →
      Region.size cfg startPhyAddress endPhyAddress < 2 ^ 32 → ∀ boot w,
        Reached cfg startPhyAddress endPhyAddress boot w → ∀ size, align ∣ size →
          size < cfg.limit → (BestFit cfg w.heap size ↔ Inexact cfg w.heap size)) ∧
    ((∀ cfg startPhyAddress endPhyAddress, cfg.word = word → cfg.memAlign = align →
      cfg.kernelSmallMemAlloc = small → Region cfg startPhyAddress endPhyAddress → ∀ boot w,
        Reached cfg startPhyAddress endPhyAddress boot w → ∀ size, align ∣ size →
          size < cfg.limit → Inexact cfg w.heap size → BestFit cfg w.heap size) ↔
      word = .w32 ∧ (small = true ∨ align = 8)) := by
  have hbelow : ∀ cfg startPhyAddress endPhyAddress, Good.Roomy cfg →
      Region cfg startPhyAddress endPhyAddress →
      Region.size cfg startPhyAddress endPhyAddress < 2 ^ 32 → ∀ boot w,
        Reached cfg startPhyAddress endPhyAddress boot w → ∀ size,
          (BestFit cfg w.heap size ↔ Inexact cfg w.heap size) := by
    intro cfg startPhyAddress endPhyAddress hroomy hregion hlt boot w hw size
    obtain ⟨inner, rest, fl, hinv⟩ := hw.inv hroomy hregion hlt
    exact hinv.good.heap.bestFit_iff_inexact size
  refine ⟨fun cfg _ _ _ _ _ hroomy hregion hlt boot w hw size _ _ =>
    hbelow cfg _ _ hroomy hregion hlt boot w hw size, ?_, ?_⟩
  · intro hall
    have hwide : word ≠ .w64 := by
      rintro rfl
      obtain ⟨hon, hoff⟩ := fitRun_wide
      have hdvd : align ∣ 4294967376 := by
        obtain rfl | rfl := halign <;> decide
      have hheader : (hugeBoard halign small).header = 16 := rfl
      obtain ⟨boot, w, hw, hinexact, hnot⟩ : ∃ boot w,
          Reached (hugeBoard halign small) 64 4294968000 boot w ∧
          Inexact (hugeBoard halign small) w.heap 4294967376 ∧
          ¬ BestFit (hugeBoard halign small) w.heap 4294967376 := by
        cases small with
        | true =>
          exact not_bestFit_of_fitRun (hon align halign)
            (.inr ⟨rfl, _, rfl, (432, 8589934848), by simp, by omega⟩) (by simp [hheader])
        | false =>
          exact not_bestFit_of_fitRun (hoff align halign)
            (.inr ⟨rfl, _, rfl, (272, 8589935008), by simp, by omega⟩) (by simp [hheader])
      refine hnot (hall _ 64 4294968000 rfl rfl rfl (hugeBoard_region halign small) boot w hw _ hdvd
        ?_ hinexact)
      have hlimit : (hugeBoard halign small).limit = 18446744073709551616 := rfl
      omega
    cases word with
    | w64 => exact absurd rfl hwide
    | w32 =>
      refine ⟨rfl, ?_⟩
      cases small with
      | true => exact .inl rfl
      | false =>
        refine .inr (halign.resolve_left ?_)
        rintro rfl
        obtain ⟨boot, w, hw, hinexact, hnot⟩ :=
          not_bestFit_of_fitRun fitRun_narrow (.inl rfl) (by simp)
        exact hnot (hall _ 64 1088 rfl rfl rfl (plainBoard_region .w32 _) boot w hw 4 (by decide)
          (by decide) hinexact)
  · rintro ⟨rfl, hroom⟩ cfg startPhyAddress endPhyAddress hword hmem hsmall hregion boot w hw size
      - - hinexact
    have hroomy : Good.Roomy cfg := by
      obtain rfl | rfl := hroom
      · exact .inl hsmall
      · exact .inr (by simp [HeapConfig.ptr, hword, hmem])
    exact (hbelow cfg _ _ hroomy hregion (hregion.size_lt_of_w32 hword) boot w hw size).mpr hinexact

lemma exactRun_eq :
    fitRun (plainBoard .w32 (.inr rfl)) (fun _ => 0) 1088 [.malloc 8, .malloc 8, .free 88] 8 =
      some (some [(76, 20), (116, 960)], 0) := by decide +kernel

theorem bestFit_iff_plain : ∃ boot w, Reached (plainBoard .w32 (.inr rfl)) 64 1088 boot w ∧
    BestFit (plainBoard .w32 (.inr rfl)) w.heap 16 := by
  obtain ⟨boot, w, -, hw, hbins, -⟩ := reached_of_fitRun exactRun_eq
  have hregion := plainBoard_region .w32 (.inr rfl)
  refine ⟨boot, w, hw, ((bestFit_iff .w32 (.inr rfl) false).1 _ 64 1088 rfl rfl rfl
    (.inr (by decide)) hregion (hregion.size_lt_of_w32 rfl) boot w hw 16 (by decide)
    (by decide)).mpr ?_⟩
  intro bins hfree
  rw [if_pos (by decide)]
  intro b hb
  rw [hfree, map_some, Option.some.injEq] at hbins
  rw [hbins] at hb
  revert b
  decide

theorem exact_block_refused : ∃ boot w bins s',
    Reached (plainBoard .w32 (.inr rfl)) 64 1088 boot w ∧
    freeBlocks (plainBoard .w32 (.inr rfl)) w.heap.mem = some bins ∧
    bins.flatten = [(76, 20), (116, 960)] ∧ (plainBoard .w32 (.inr rfl)).header = 12 ∧
    bigMemMalloc (plainBoard .w32 (.inr rfl)) w.heap 8 dynamicBlockMask = some (s', 0) ∧
    ¬ BestFit (plainBoard .w32 (.inr rfl)) w.heap 8 := by
  obtain ⟨boot, w, s', hw, hbins, hmalloc⟩ := reached_of_fitRun exactRun_eq
  obtain ⟨bins, hfree, hflatten⟩ := map_eq_some_iff.mp hbins
  refine ⟨boot, w, bins, s', hw, hfree, hflatten, rfl, hmalloc, ?_⟩
  rintro ⟨bins', s'', p, hfree', hmalloc', hiff, -⟩
  cases hfree.symm.trans hfree'
  cases hmalloc.symm.trans hmalloc'
  exact hiff.mpr ⟨(116, 960), by simp [hflatten], by decide⟩ rfl

end HeapUser
end Xiuos.Kernel
