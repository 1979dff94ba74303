import Xiuos.Kernel.HeapSafe

namespace Xiuos.Kernel
open Lib Option

namespace HeapUser
variable (cfg : HeapConfig) (boot : HeapState) (w : HeapUser)

def PoolsOk (cfg : HeapConfig) (boot : HeapState) (w : HeapUser) : Prop :=
  ∀ i, ∃ xs, poolList cfg w.heap i = some xs ∧ xs.Nodup ∧
    xs.length = (w.heap.staticManager i).blockFreeCount ∧
    (∀ x ∈ xs, x ∈ fullLists cfg (poolBase boot) i) ∧
    (∀ x ∈ fullLists cfg (poolBase boot) i, x ∈ xs ↔ x + cfg.header ∉ w.pointers) ∧
    (poolBase boot i ≠ none → (w.heap.staticManager i).blockTotalCount = smallNumber cfg i)

def Returned (cfg : HeapConfig) (boot : HeapState) (w : HeapUser) (i : HeapCall) (w' : HeapUser) :
    Prop :=
  ∀ p ∈ w.pointers, i = .free p → ∀ j, ∃ xs, poolList cfg w.heap j = some xs ∧
    poolList cfg w'.heap j = some (if p - cfg.header ∈ fullLists cfg (poolBase boot) j then
      (p - cfg.header) :: xs else xs)

def PoolsKept (cfg : HeapConfig) (boot : HeapState) (w : HeapUser) (i : HeapCall)
    (w' : HeapUser) : Prop :=
  PoolsOk cfg boot w' ∧ Returned cfg boot w i w'

section

variable {cfg : HeapConfig} {boot : HeapState} {w w' : HeapUser} {inner : List Cell}
  {rest : List Entry} {fl : Fin 2 → List Nat} {i : HeapCall}
  (h : Inv cfg (poolBase boot) w inner rest fl)

include h

lemma Inv.poolsOk : PoolsOk cfg boot w := by
  intro i
  refine ⟨fl i, h.good.poolList_eq i, h.good.list_nodup i, (h.good.count_eq i).symm, ?_, ?_, ?_⟩
  · exact fun x hx => mem_fullLists.mpr (h.good.mem_list hx)
  · intro x hx
    obtain ⟨b, hb, hblock⟩ := mem_fullLists.mp hx
    constructor
    · intro hmem hp
      obtain ⟨c, hc⟩ := (h.live_iff _).mp hp
      exact h.good.not_isFree hc (h.good.isFree_iff.mpr (.inr ⟨i, x, hmem, rfl⟩))
    · intro hp
      by_contra hout
      exact hp ((h.live_iff _).mpr ⟨_, .block hb hblock hout⟩)
  · intro hbase
    obtain ⟨b, hb⟩ := ne_none_iff_exists'.mp hbase
    exact (h.good.pool i b hb).total

lemma Inv.returned (hstep : HeapUser.step cfg w i = some w') : Returned cfg boot w i w' := by
  rintro p hp rfl j
  obtain ⟨c, hc⟩ := (h.live_iff p).mp hp
  obtain ⟨s', inner', rest', fl', hfree, hrel⟩ := h.good.xFree hc
  have hlegal : Legal cfg w (.free p) := .inr hp
  rw [HeapUser.step, if_pos hlegal, HeapUser.call, hfree] at hstep
  cases hstep
  refine ⟨fl j, h.good.poolList_eq j, ?_⟩
  rw [← hrel.lists j]
  exact hrel.good.poolList_eq j

lemma Inv.poolsKept (hr : Good.Roomy cfg) (calls : List HeapCall) :
    Along (HeapUser.step cfg) (PoolsKept cfg boot) w calls := by
  refine along_of_step (I := fun w => ∃ inner rest fl, Inv cfg (poolBase boot) w inner rest fl)
    ?_ ⟨inner, rest, fl, h⟩ calls
  rintro w i w' ⟨inner, rest, fl, hI⟩ hstep
  obtain ⟨inner', rest', fl', hI', -⟩ := hI.step hr hstep
  exact ⟨⟨inner', rest', fl', hI'⟩, hI'.poolsOk, hI.returned hstep⟩

end

def strayLinks : Mem :=
  Mem.store (Mem.store (Mem.store (fun _ => 0) 240 8 64) 256 8 100000) 264 8 80

lemma wideBoard_pools :
    (initBoardMemory wideBoard (bootState strayLinks) 64 4294967552 >>= fun boot =>
      runs (step wideBoard) ⟨boot, []⟩ [.malloc 72, .free 160]).map (fun w =>
        (poolList wideBoard w.heap 0, (w.heap.staticManager 0).blockFreeCount)) =
    some (some [96, 100000], 1) := by decide +kernel

lemma wideBoard_not_poolsOk : ∃ boot w,
    initBoardMemory wideBoard (bootState strayLinks) 64 4294967552 = some boot ∧
    runs (step wideBoard) ⟨boot, []⟩ [.malloc 72, .free 160] = some w ∧
    ¬ PoolsOk wideBoard boot w := by
  obtain ⟨w, hw, heq⟩ := map_eq_some_iff.mp wideBoard_pools
  obtain ⟨boot, hboot, hrun⟩ := bind_eq_some_iff.mp hw
  simp only [Prod.mk.injEq] at heq
  refine ⟨boot, w, hboot, hrun, fun hok => ?_⟩
  obtain ⟨xs, hxs, -, hlen, -⟩ := hok 0
  obtain rfl := Option.some.inj (heq.1.symm.trans hxs)
  rw [heq.2] at hlen
  exact absurd hlen (by decide)

theorem poolsKept_iff (word : Word) :
    (∀ cfg startPhyAddress endPhyAddress, cfg.kernelSmallMemAlloc = true →
      Region cfg startPhyAddress endPhyAddress →
      Region.size cfg startPhyAddress endPhyAddress < 2 ^ 32 → ∀ mem boot calls,
        initBoardMemory cfg (bootState mem) startPhyAddress endPhyAddress = some boot →
        PoolsOk cfg boot ⟨boot, []⟩ ∧
          Along (step cfg) (PoolsKept cfg boot) ⟨boot, []⟩ calls) ∧
    ((∀ cfg startPhyAddress endPhyAddress, cfg.word = word →
      cfg.kernelSmallMemAlloc = true → Region cfg startPhyAddress endPhyAddress →
      ∀ mem boot calls,
        initBoardMemory cfg (bootState mem) startPhyAddress endPhyAddress = some boot →
        PoolsOk cfg boot ⟨boot, []⟩ ∧
          Along (step cfg) (PoolsKept cfg boot) ⟨boot, []⟩ calls) ↔ word = .w32) := by
  refine below_and_word_iff 4294967552 (wideBoard_region (by decide) (by decide)) ?_ ?_
  · intro cfg startPhyAddress endPhyAddress hsmall hregion hlt mem boot calls hboot
    obtain ⟨boot', inner, rest, hboot', hfresh, -⟩ := hregion.boot hlt mem
    obtain rfl : boot' = boot := Option.some.inj (hboot'.symm.trans hboot)
    have hinv := start hfresh
    exact ⟨hinv.poolsOk, hinv.poolsKept (.inl hsmall) calls⟩
  · intro hall
    obtain ⟨boot, w, hboot, hrun, hnot⟩ := wideBoard_not_poolsOk
    obtain ⟨w₁, hfirst, hrest⟩ := bind_eq_some_iff.mp hrun
    obtain ⟨w₂, hsecond, hlast⟩ := bind_eq_some_iff.mp hrest
    cases hlast
    have halong := (hall strayLinks boot [.malloc 72, .free 160] hboot).2
    exact hnot (((halong w₁ hfirst).2 w hsecond).1.1)

theorem poolsKept_iff_narrow : ∃ boot,
    initBoardMemory narrowBoard (bootState fun _ => 0) 64 1088 = some boot ∧
    PoolsOk narrowBoard boot ⟨boot, []⟩ ∧
    Along (step narrowBoard) (PoolsKept narrowBoard boot) ⟨boot, []⟩ [.malloc 8, .malloc 8] := by
  obtain ⟨boot, -, -, hboot, -⟩ := narrowBoard_region.boot narrowBoard_size fun _ => 0
  exact ⟨boot, hboot, (poolsKept_iff .w32).1 narrowBoard 64 1088 rfl narrowBoard_region
    narrowBoard_size (fun _ => 0) boot _ hboot⟩

end HeapUser
end Xiuos.Kernel
