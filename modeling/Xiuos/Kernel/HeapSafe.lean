import Xiuos.Kernel.HeapUser

namespace Xiuos.Kernel
open Lib List Option

namespace HeapUser

structure Safe (cfg : HeapConfig) (w : HeapUser) : Prop where
  disjoint : w.live.Pairwise fun a b => a.1 + capacity cfg w.heap a.1 ≤ b.1 ∨
    b.1 + capacity cfg w.heap b.1 ≤ a.1
  inside : ∀ a ∈ w.live, w.heap.mmDynamicStart + cfg.header ≤ a.1 ∧
    a.1 + capacity cfg w.heap a.1 ≤ w.heap.mmDynamicEnd
  large : ∀ a ∈ w.live, a.2 ≤ capacity cfg w.heap a.1

variable (cfg : HeapConfig) (w : HeapUser)

def Protected (cfg : HeapConfig) (w : HeapUser) (i : HeapCall) (w' : HeapUser) : Prop :=
  Safe cfg w' ∧ ∀ a ∈ w.live, ¬ i.Concerns a.1 → ∀ x, a.1 ≤ x →
    x < a.1 + capacity cfg w.heap a.1 → w'.heap.mem x = w.heap.mem x

def NoWrap (cfg : HeapConfig) (w : HeapUser) : HeapCall → Prop
  | .calloc count size => count * size < cfg.limit ∨
    (xCalloc cfg w.heap count size).map Prod.snd = some 0
  | .malloc _ | .realloc .. | .free _ | .write .. => True

def CallocOk (cfg : HeapConfig) (w : HeapUser) (count size : Nat) : Prop :=
  ∃ s' q, xCalloc cfg w.heap count size = some (s', q) ∧ (q ≠ 0 →
    count * size ≤ capacity cfg s' q ∧ ∀ k < count * size, s'.mem (q + k) = 0)

def ReallocOk (cfg : HeapConfig) (w : HeapUser) (pointer size : Nat) : Prop :=
  ∃ s' q, xRealloc cfg w.heap pointer size = some (s', q) ∧
    (∀ a ∈ w.live, a.1 ≠ pointer → capacity cfg s' a.1 = capacity cfg w.heap a.1 ∧
      ¬ IsFree cfg s' a.1 ∧
      ∀ x, a.1 ≤ x → x < a.1 + capacity cfg w.heap a.1 → s'.mem x = w.heap.mem x) ∧
    (q ≠ 0 ∧ ¬ IsFree cfg s' q ∧ size ≤ capacity cfg s' q ∧
      (∀ a ∈ w.live, q + capacity cfg s' q ≤ a.1 ∨ a.1 + capacity cfg w.heap a.1 ≤ q) ∧
      (∀ k < min (capacity cfg w.heap pointer) size,
        s'.mem (q + k) = w.heap.mem (pointer + k)) ∧ IsFree cfg s' pointer ∨
    q = 0 ∧ ¬ IsFree cfg s' pointer ∧ capacity cfg s' pointer = capacity cfg w.heap pointer ∧
      ∀ x, pointer ≤ x → x < pointer + capacity cfg w.heap pointer → s'.mem x = w.heap.mem x)

variable {cfg : HeapConfig} {base : Fin 2 → Option Nat} {w w' : HeapUser} {inner : List Cell}
  {rest : List Entry} {fl : Fin 2 → List Nat} {i : HeapCall} {count size p : Nat}

namespace Inv
variable (h : Inv cfg base w inner rest fl)
include h

lemma apart :
    w.live.Pairwise fun a b => a.1 + capacity cfg w.heap a.1 ≤ b.1 ∨
      b.1 + capacity cfg w.heap b.1 ≤ a.1 := by
  have hne : w.live.Pairwise fun a b => a.1 ≠ b.1 := pairwise_map.mp h.nodup
  refine hne.imp_of_mem fun {a b} ha hb hab => ?_
  obtain ⟨heq, -⟩ | hapart := h.good.apart (h.allocated ha) (h.allocated hb)
  · exact absurd heq hab
  · exact hapart

lemma capacity_lt {a : Nat × Nat} (ha : a ∈ w.live) : capacity cfg w.heap a.1 < cfg.limit := by
  have hin := h.good.inside (h.allocated ha)
  have hle := h.good.heap.placed.hi_le
  have hstop := h.good.heap.stop
  have hpos := header_lt_freeNode cfg
  rw [span_guarded] at hle
  omega

lemma safe_iff : Safe cfg w ↔ ∀ a ∈ w.live, a.2 ≤ capacity cfg w.heap a.1 := by
  refine ⟨fun hs => hs.large, fun hl => ⟨h.apart, fun a ha => ?_, hl⟩⟩
  have hin := h.good.inside (h.allocated ha)
  have hpos := header_lt_freeNode cfg
  omega

variable (hr : Good.Roomy cfg)
include hr

lemma protected_iff (hs : Safe cfg w) (hstep : HeapUser.step cfg w i = some w') :
    Protected cfg w i w' ↔ NoWrap cfg w i := by
  obtain ⟨inner', rest', fl', hinv, heffect⟩ := h.step hr hstep
  have hexact (hi : i.Exact cfg) : Safe cfg w' := by
    refine hinv.safe_iff.mpr fun a ha => ?_
    obtain hold | hnew := heffect.large hi a ha
    · rw [heffect.capacity_eq a hold ha]
      exact hs.large a hold
    · exact hnew
  refine ⟨fun hp => ?_, fun hn => ⟨?_, heffect.mem_eq⟩⟩
  · cases i with
    | calloc count size =>
      rw [HeapUser.step] at hstep
      split at hstep
      · obtain hnull | ⟨s', inner', rest', fl', p, c, hcall, hne, -⟩ := h.good.xCalloc hr count size
        · rw [NoWrap, hnull]
          exact .inr rfl
        · rw [HeapUser.call, hcall] at hstep
          simp only [HeapUser.gain, bind_eq_bind, bind_some, if_neg hne] at hstep
          cases hstep
          have hlarge := hp.1.large _ mem_cons_self
          have hlt := hinv.capacity_lt mem_cons_self
          exact .inl (lt_of_le_of_lt hlarge hlt)
      · cases hstep
    | malloc | realloc | free | write => trivial
  · cases i with
    | calloc count size =>
      obtain hn | hnull := hn
      · exact hexact hn
      · rw [HeapUser.step] at hstep
        split at hstep
        · obtain ⟨⟨s', q⟩, hcall, rfl⟩ := map_eq_some_iff.mp hnull
          obtain hcall' | ⟨_, _, _, _, _, _, hcall', hne, -⟩ := h.good.xCalloc hr count size
          · rw [HeapUser.call, hcall'] at hstep
            cases hstep
            exact hs
          · rw [hcall'] at hcall
            cases hcall
            exact absurd rfl hne
        · cases hstep
    | malloc | realloc | free | write => exact hexact trivial

lemma callocOk_iff :
    CallocOk cfg w count size ↔
      count * size < cfg.limit ∨ (xCalloc cfg w.heap count size).map Prod.snd = some 0 := by
  obtain hnull | ⟨s', inner', rest', fl', p, c, hcall, hne, hc, hg, hzero⟩ :=
    h.good.xCalloc hr count size
  · refine iff_of_true ⟨_, _, hnull, fun h0 => absurd rfl h0⟩ (.inr ?_)
    rw [hnull]
    rfl
  · have hcap := hg.good.capacity_eq ((hg.allocated p c).mpr (.inr ⟨rfl, rfl⟩))
    constructor
    · rintro ⟨s₁, q, hcall', hok⟩
      rw [hcall] at hcall'
      cases hcall'
      have hlt := (h.gain (n := 0) hg).capacity_lt mem_cons_self
      exact .inl (lt_of_le_of_lt (hok hne).1 hlt)
    · rintro (hlt | hnull)
      · rw [Nat.mod_eq_of_lt hlt] at hc hzero
        exact ⟨s', p, hcall, fun _ => ⟨by omega, hzero⟩⟩
      · rw [hcall] at hnull
        exact absurd (Option.some.inj hnull) hne

lemma reallocOk (hp : p ∈ w.pointers) (hsize : size ≠ 0) : ReallocOk cfg w p size := by
  obtain ⟨c, hc⟩ := (h.live_iff p).mp hp
  obtain hnull | ⟨s', inner', rest', fl', q, d, hcall, hne, hd, hrep, hcopy⟩ :=
    h.good.xRealloc hr hc hsize
  · refine ⟨_, _, hnull, fun a ha _ => ⟨rfl, h.good.not_isFree (h.allocated ha), fun _ _ _ => rfl⟩,
      .inr ⟨rfl, h.good.not_isFree hc, rfl, fun _ _ _ => rfl⟩⟩
  · have hq := (hrep.allocated q d).mpr (.inr ⟨rfl, rfl⟩)
    have hcap := hrep.good.capacity_eq hq
    rw [← h.good.capacity_eq hc] at hcopy
    refine ⟨s', q, hcall, fun a ha hap => ?_, .inl ⟨hne, hrep.good.not_isFree hq, by omega,
      fun a ha => ?_, hcopy, hrep.good.isFree_iff.mpr hrep.vacant⟩⟩
    · have ha' := (hrep.allocated _ _).mpr (.inl ⟨h.allocated ha, hap⟩)
      exact ⟨hrep.good.capacity_eq ha', hrep.good.not_isFree ha',
        hrep.spares _ _ (h.allocated ha) hap⟩
    · rw [hcap]
      exact hrep.apart _ _ (h.allocated ha)

end Inv

def wideBoard : HeapConfig where
  word := .w64
  memAlign := 8
  mmPageSize := 64
  kernelSmallMemAlloc := true
  kernelDebug := false
  small32 := 1
  small64 := 1
  freenodeList := 2 ^ 40
  staticManager i := if i.val = 0 then 2 ^ 41 else 2 ^ 41 + 64
  align_eq := by decide
  page_dvd := by decide
  small32_range := by decide
  small64_range := by decide

def narrowBoard : HeapConfig where
  word := .w32
  memAlign := 8
  mmPageSize := 64
  kernelSmallMemAlloc := true
  kernelDebug := false
  small32 := 1
  small64 := 1
  freenodeList := 2 ^ 20
  staticManager i := if i.val = 0 then 2 ^ 21 else 2 ^ 21 + 64
  align_eq := by decide
  page_dvd := by decide
  small32_range := by decide
  small64_range := by decide

lemma wideBoard_limit : wideBoard.limit = 18446744073709551616 := rfl

lemma narrowBoard_limit : narrowBoard.limit = 4294967296 := rfl

lemma wideBoard_firstPage : firstPage wideBoard 64 = 64 := by
  rw [firstPage, HeapConfig.alignUp, wideBoard_limit]
  rfl

lemma wideBoard_region {size : Nat} (hpos : 128 ≤ size) (hlt : size < 2 ^ 33) :
    Region wideBoard 64 size := by
  have hend : endPage wideBoard size = size / 64 * 64 := rfl
  have hlist : wideBoard.freenodeList = 2 ^ 40 := rfl
  have hpage : wideBoard.mmPageSize = 64 := rfl
  have hnode : wideBoard.freeNode = 32 := rfl
  refine ⟨by decide, ?_, ?_, ?_, by decide, ?_, .inl ?_, fun i => ?_, by decide⟩
  · rw [wideBoard_limit, hpage]
    omega
  · rw [wideBoard_limit]
    omega
  · rw [wideBoard_firstPage, hend]
    omega
  · rw [wideBoard_limit, hlist, hnode, memLinknrs]
    omega
  · rw [hlist]
    omega
  · rw [wideBoard_limit]
    obtain rfl | rfl : i = 0 ∨ i = 1 := by omega
    · decide
    · decide

lemma narrowBoard_firstPage : firstPage narrowBoard 64 = 64 := by
  rw [firstPage, HeapConfig.alignUp, narrowBoard_limit]
  rfl

lemma narrowBoard_region : Region narrowBoard 64 1088 := by
  have hend : endPage narrowBoard 1088 = 1088 := rfl
  have hlist : narrowBoard.freenodeList = 2 ^ 20 := rfl
  have hpage : narrowBoard.mmPageSize = 64 := rfl
  have hnode : narrowBoard.freeNode = 20 := rfl
  refine ⟨by decide, ?_, ?_, ?_, by decide, ?_, .inl ?_, fun i => ?_, by decide⟩
  · rw [narrowBoard_limit, hpage]
    omega
  · rw [narrowBoard_limit]
    omega
  · rw [narrowBoard_firstPage, hend]
    omega
  · rw [narrowBoard_limit, hlist, hnode, memLinknrs]
    omega
  · rw [hlist]
    omega
  · rw [narrowBoard_limit]
    obtain rfl | rfl : i = 0 ∨ i = 1 := by omega
    · decide
    · decide

lemma narrowBoard_size : Region.size narrowBoard 64 1088 < 2 ^ 32 :=
  narrowBoard_region.size_lt_of_w32 rfl

variable {P : HeapConfig → Nat → Nat → Prop}

lemma word_iff
    (hbelow : ∀ cfg startPhyAddress endPhyAddress, cfg.kernelSmallMemAlloc = true →
      Region cfg startPhyAddress endPhyAddress →
      Region.size cfg startPhyAddress endPhyAddress < 2 ^ 32 → P cfg startPhyAddress endPhyAddress)
    (hwide : ∃ endPhyAddress, Region wideBoard 64 endPhyAddress ∧ ¬ P wideBoard 64 endPhyAddress)
    (word : Word) :
    (∀ cfg startPhyAddress endPhyAddress, cfg.word = word → cfg.kernelSmallMemAlloc = true →
      Region cfg startPhyAddress endPhyAddress → P cfg startPhyAddress endPhyAddress) ↔
      word = .w32 := by
  constructor
  · intro hall
    cases word with
    | w32 => rfl
    | w64 =>
      obtain ⟨endPhyAddress, hregion, hnot⟩ := hwide
      exact absurd (hall wideBoard 64 endPhyAddress rfl rfl hregion) hnot
  · rintro rfl cfg startPhyAddress endPhyAddress hword hsmall hregion
    exact hbelow cfg startPhyAddress endPhyAddress hsmall hregion (hregion.size_lt_of_w32 hword)

lemma below_and_word_iff {word : Word} (endPhyAddress : Nat)
    (hregion : Region wideBoard 64 endPhyAddress)
    (hbelow : ∀ cfg startPhyAddress endPhyAddress, cfg.kernelSmallMemAlloc = true →
      Region cfg startPhyAddress endPhyAddress →
      Region.size cfg startPhyAddress endPhyAddress < 2 ^ 32 → P cfg startPhyAddress endPhyAddress)
    (hwide : ¬ P wideBoard 64 endPhyAddress) :
    (∀ cfg startPhyAddress endPhyAddress, cfg.kernelSmallMemAlloc = true →
      Region cfg startPhyAddress endPhyAddress →
      Region.size cfg startPhyAddress endPhyAddress < 2 ^ 32 →
        P cfg startPhyAddress endPhyAddress) ∧
    ((∀ cfg startPhyAddress endPhyAddress, cfg.word = word → cfg.kernelSmallMemAlloc = true →
      Region cfg startPhyAddress endPhyAddress → P cfg startPhyAddress endPhyAddress) ↔
      word = .w32) := ⟨hbelow, word_iff hbelow ⟨endPhyAddress, hregion, hwide⟩ word⟩

lemma narrowBoard_reached : ∃ boot, Reached narrowBoard 64 1088 boot ⟨boot, []⟩ := by
  obtain ⟨boot, -, -, hboot, -⟩ := narrowBoard_region.boot narrowBoard_size fun _ => 0
  exact ⟨boot, fun _ => 0, [], hboot, rfl⟩

lemma wideBoard_calloc :
    (initBoardMemory wideBoard (bootState fun _ => 0) 64 4294968000 >>= fun boot =>
      xCalloc wideBoard boot 1 4294967376 >>= fun r => some (r.2, capacity wideBoard r.1 r.2)) =
    some (256, 80) := by decide +kernel

lemma narrowBoard_calloc :
    (initBoardMemory narrowBoard (bootState fun _ => 0) 64 1088 >>= fun boot =>
      xCalloc narrowBoard boot 1073741826 4 >>= fun r =>
        some (r.2, capacity narrowBoard r.1 r.2)) = some (100, 32) := by decide +kernel

lemma exists_calloc {stop c : Nat} (h : (initBoardMemory cfg (bootState fun _ => 0) 64 stop >>=
    fun boot => xCalloc cfg boot count size >>= fun r => some (r.2, capacity cfg r.1 r.2)) =
      some (p, c)) : ∃ boot s', initBoardMemory cfg (bootState fun _ => 0) 64 stop = some boot ∧
    xCalloc cfg boot count size = some (s', p) ∧ capacity cfg s' p = c := by
  obtain ⟨boot, hboot, h⟩ := bind_eq_some_iff.mp h
  obtain ⟨⟨s', p'⟩, hcall, h⟩ := bind_eq_some_iff.mp h
  cases h
  exact ⟨boot, s', hboot, hcall, rfl⟩

lemma calloc_step {boot s' : HeapState} (hcall : xCalloc cfg boot count size = some (s', p))
    (hne : p ≠ 0) (hcount : count < cfg.limit) (hsize : size < cfg.limit) :
    step cfg ⟨boot, []⟩ (.calloc count size) = some ⟨s', [(p, count * size)]⟩ := by
  have hlegal : Legal cfg ⟨boot, []⟩ (.calloc count size) := ⟨hcount, hsize⟩
  rw [step, if_pos hlegal, call, hcall]
  simp [gain, hne]

/-- All calls but those of `x_calloc` with a product that wraps are safe, as long as the heap is
smaller than 4 GiB. -/
theorem protected_iff_noWrap (word : Word) :
    (∀ cfg startPhyAddress endPhyAddress, cfg.kernelSmallMemAlloc = true →
      Region cfg startPhyAddress endPhyAddress →
      Region.size cfg startPhyAddress endPhyAddress < 2 ^ 32 → ∀ mem calls, ∃ boot,
        initBoardMemory cfg (bootState mem) startPhyAddress endPhyAddress = some boot ∧
        (Along (step cfg) (Protected cfg) ⟨boot, []⟩ calls ↔
          Each (step cfg) (NoWrap cfg) ⟨boot, []⟩ calls)) ∧
    ((∀ cfg startPhyAddress endPhyAddress, cfg.word = word →
      cfg.kernelSmallMemAlloc = true → Region cfg startPhyAddress endPhyAddress →
      ∀ mem boot calls,
        initBoardMemory cfg (bootState mem) startPhyAddress endPhyAddress = some boot →
        Each (step cfg) (NoWrap cfg) ⟨boot, []⟩ calls →
        Along (step cfg) (Protected cfg) ⟨boot, []⟩ calls) ↔ word = .w32) := by
  have hbelow : ∀ cfg startPhyAddress endPhyAddress, cfg.kernelSmallMemAlloc = true →
      Region cfg startPhyAddress endPhyAddress →
      Region.size cfg startPhyAddress endPhyAddress < 2 ^ 32 → ∀ mem calls, ∃ boot,
        initBoardMemory cfg (bootState mem) startPhyAddress endPhyAddress = some boot ∧
        (Along (step cfg) (Protected cfg) ⟨boot, []⟩ calls ↔
          Each (step cfg) (NoWrap cfg) ⟨boot, []⟩ calls) := by
    intro cfg startPhyAddress endPhyAddress hsmall hregion hlt mem calls
    obtain ⟨boot, inner, rest, hboot, hfresh, -⟩ := hregion.boot hlt mem
    refine ⟨boot, hboot, ?_⟩
    refine along_iff_each (I := fun w => ∃ inner rest fl, Inv cfg (poolBase boot) w inner rest fl)
      (P := Safe cfg) ?_ (fun _ _ hR _ => hR.1) ?_ ⟨inner, rest, _, start hfresh⟩ ?_
    · rintro w i w' ⟨inner, rest, fl, hI⟩ hstep
      obtain ⟨inner', rest', fl', hI', -⟩ := hI.step (.inl hsmall) hstep
      exact ⟨inner', rest', fl', hI'⟩
    · rintro w i w' ⟨inner, rest, fl, hI⟩ hs hstep
      exact hI.protected_iff (.inl hsmall) hs hstep
    · exact (start hfresh).safe_iff.mpr fun a ha => by cases ha
  refine ⟨hbelow, word_iff ?_ ⟨4294968000, wideBoard_region (by decide) (by decide), ?_⟩ word⟩
  · intro cfg startPhyAddress endPhyAddress hsmall hregion hlt mem boot calls hboot hwrap
    obtain ⟨boot', hboot', hiff⟩ :=
      hbelow cfg startPhyAddress endPhyAddress hsmall hregion hlt mem calls
    obtain rfl : boot' = boot := Option.some.inj (hboot'.symm.trans hboot)
    exact hiff.mpr hwrap
  · intro hall
    obtain ⟨boot, s', hboot, hcall, hcap⟩ := exists_calloc wideBoard_calloc
    have hstep := calloc_step hcall (by decide) (by rw [wideBoard_limit]; omega)
      (by rw [wideBoard_limit]; omega)
    have hsafe := hall (fun _ => 0) boot [.calloc 1 4294967376] hboot
      fun _ _ => ⟨.inl (by rw [wideBoard_limit]; omega), trivial⟩
    have hlarge := (hsafe _ hstep).1.1.large _ mem_cons_self
    simp only [hcap] at hlarge
    omega

theorem protected_iff_noWrap_narrow : ∃ boot,
    initBoardMemory narrowBoard (bootState fun _ => 0) 64 1088 = some boot ∧
    (Along (step narrowBoard) (Protected narrowBoard) ⟨boot, []⟩ [.calloc 1073741826 4] ↔
      Each (step narrowBoard) (NoWrap narrowBoard) ⟨boot, []⟩ [.calloc 1073741826 4]) :=
  (protected_iff_noWrap .w32).1 narrowBoard 64 1088 rfl narrowBoard_region narrowBoard_size
    (fun _ => 0) [.calloc 1073741826 4]

theorem calloc_not_protected : ∃ boot,
    initBoardMemory narrowBoard (bootState fun _ => 0) 64 1088 = some boot ∧
    ¬ Along (step narrowBoard) (Protected narrowBoard) ⟨boot, []⟩ [.calloc 1073741826 4] := by
  obtain ⟨boot, s', hboot, hcall, hcap⟩ := exists_calloc narrowBoard_calloc
  have hstep := calloc_step hcall (by decide) (by rw [narrowBoard_limit]; omega)
    (by rw [narrowBoard_limit]; omega)
  refine ⟨boot, hboot, fun hall => ?_⟩
  have hlarge := (hall _ hstep).1.1.large _ mem_cons_self
  simp only [hcap] at hlarge
  omega

theorem callocOk_iff_noWrap (word : Word) :
    (∀ cfg startPhyAddress endPhyAddress, Good.Roomy cfg →
      Region cfg startPhyAddress endPhyAddress →
      Region.size cfg startPhyAddress endPhyAddress < 2 ^ 32 → ∀ boot w,
        Reached cfg startPhyAddress endPhyAddress boot w →
        ∀ count size, count < cfg.limit → size < cfg.limit → (CallocOk cfg w count size ↔
          count * size < cfg.limit ∨ (xCalloc cfg w.heap count size).map Prod.snd = some 0)) ∧
    ((∀ cfg startPhyAddress endPhyAddress, cfg.word = word →
      cfg.kernelSmallMemAlloc = true → Region cfg startPhyAddress endPhyAddress → ∀ boot w,
        Reached cfg startPhyAddress endPhyAddress boot w →
        ∀ count size, count < cfg.limit → size < cfg.limit → count * size < cfg.limit →
          CallocOk cfg w count size) ↔ word = .w32) := by
  constructor
  · intro cfg startPhyAddress endPhyAddress hr hregion hlt boot w hw count size _ _
    obtain ⟨inner, rest, fl, hinv⟩ := hw.inv hr hregion hlt
    exact hinv.callocOk_iff hr
  · refine word_iff ?_ ⟨4294968000, wideBoard_region (by decide) (by decide), fun hall => ?_⟩ word
    · intro cfg startPhyAddress endPhyAddress hsmall hregion hlt boot w hw count size _ _ hwrap
      obtain ⟨inner, rest, fl, hinv⟩ := hw.inv (.inl hsmall) hregion hlt
      exact (hinv.callocOk_iff (.inl hsmall)).mpr (.inl hwrap)
    · obtain ⟨boot, s', hboot, hcall, hcap⟩ := exists_calloc wideBoard_calloc
      obtain ⟨s₁, q, hcall', hok⟩ := hall boot ⟨boot, []⟩ ⟨fun _ => 0, [], hboot, rfl⟩ 1 4294967376
        (by rw [wideBoard_limit]; omega) (by rw [wideBoard_limit]; omega)
        (by rw [wideBoard_limit]; omega)
      obtain ⟨rfl, rfl⟩ := Prod.mk.inj (Option.some.inj (hcall.symm.trans hcall'))
      have hlarge := (hok (by decide)).1
      rw [hcap] at hlarge
      omega

theorem callocOk_iff_noWrap_narrow : ∃ boot,
    Reached narrowBoard 64 1088 boot ⟨boot, []⟩ ∧ (CallocOk narrowBoard ⟨boot, []⟩ 3 5 ↔
      3 * 5 < narrowBoard.limit ∨ (xCalloc narrowBoard boot 3 5).map Prod.snd = some 0) := by
  obtain ⟨boot, hw⟩ := narrowBoard_reached
  exact ⟨boot, hw, (callocOk_iff_noWrap .w32).1 narrowBoard 64 1088 (.inl rfl) narrowBoard_region
    narrowBoard_size boot ⟨boot, []⟩ hw 3 5 (by rw [narrowBoard_limit]; omega)
    (by rw [narrowBoard_limit]; omega)⟩

theorem calloc_not_callocOk : ∃ boot, Reached narrowBoard 64 1088 boot ⟨boot, []⟩ ∧
    ¬ CallocOk narrowBoard ⟨boot, []⟩ 1073741826 4 := by
  obtain ⟨boot, s', hboot, hcall, hcap⟩ := exists_calloc narrowBoard_calloc
  refine ⟨boot, ⟨fun _ => 0, [], hboot, rfl⟩, ?_⟩
  rintro ⟨s₁, q, hcall', hok⟩
  obtain ⟨rfl, rfl⟩ := Prod.mk.inj (Option.some.inj (hcall.symm.trans hcall'))
  have hlarge := (hok (by decide)).1
  rw [hcap] at hlarge
  omega

lemma wideBoard_realloc :
    (initBoardMemory wideBoard (bootState fun _ => 0) 64 4294968064 >>= fun boot =>
      runs (step wideBoard) ⟨boot, []⟩
        [.malloc 88, .malloc 88, .malloc 200, .free 256, .write 464 104 1]).map (fun w =>
      (w.pointers, capacity wideBoard w.heap 360, w.heap.mem 360,
        (xRealloc wideBoard w.heap 464 4294967376).map fun r => r.1.mem 360)) =
    some ([464, 360], 88, 96, some 152) := by decide +kernel

lemma wideBoard_not_reallocOk : ∃ boot w, Reached wideBoard 64 4294968064 boot w ∧
    464 ∈ w.pointers ∧ ¬ ReallocOk wideBoard w 464 4294967376 := by
  obtain ⟨w, hw, heq⟩ := map_eq_some_iff.mp wideBoard_realloc
  obtain ⟨boot, hboot, hrun⟩ := bind_eq_some_iff.mp hw
  simp only [Prod.mk.injEq] at heq
  obtain ⟨hlive, hcap, hold, hnew⟩ := heq
  refine ⟨boot, w, ⟨fun _ => 0, _, hboot, hrun⟩, by simp [hlive], ?_⟩
  rintro ⟨s', q, hcall, hothers, -⟩
  have hmem : 360 ∈ w.pointers := by simp [hlive]
  obtain ⟨a, ha, ha'⟩ := List.mem_map.mp hmem
  have hsame := (hothers a ha (by omega)).2.2 360 (by omega) (by rw [ha', hcap]; omega)
  rw [hcall, map_some, hsame, hold] at hnew
  exact absurd hnew (by decide)

theorem reallocOk_iff (word : Word) :
    (∀ cfg startPhyAddress endPhyAddress, cfg.kernelSmallMemAlloc = true →
      Region cfg startPhyAddress endPhyAddress →
      Region.size cfg startPhyAddress endPhyAddress < 2 ^ 32 → ∀ boot w,
        Reached cfg startPhyAddress endPhyAddress boot w →
        ∀ p ∈ w.pointers, ∀ size, size ≠ 0 → size < cfg.limit → ReallocOk cfg w p size) ∧
    ((∀ cfg startPhyAddress endPhyAddress, cfg.word = word →
      cfg.kernelSmallMemAlloc = true → Region cfg startPhyAddress endPhyAddress → ∀ boot w,
        Reached cfg startPhyAddress endPhyAddress boot w →
        ∀ p ∈ w.pointers, ∀ size, size ≠ 0 → size < cfg.limit → ReallocOk cfg w p size) ↔
      word = .w32) := by
  refine below_and_word_iff 4294968064 (wideBoard_region (by decide) (by decide)) ?_ ?_
  · intro cfg startPhyAddress endPhyAddress hsmall hregion hlt boot w hw p hp size hsize _
    obtain ⟨inner, rest, fl, hinv⟩ := hw.inv (.inl hsmall) hregion hlt
    exact hinv.reallocOk (.inl hsmall) hp hsize
  · intro hall
    obtain ⟨boot, w, hw, hp, hnot⟩ := wideBoard_not_reallocOk
    exact hnot (hall boot w hw 464 hp 4294967376 (by decide) (by rw [wideBoard_limit]; omega))

theorem reallocOk_iff_narrow : ∃ boot w p, Reached narrowBoard 64 1088 boot w ∧
    p ∈ w.pointers ∧ ReallocOk narrowBoard w p 100 := by
  obtain ⟨boot, s', hboot, hcall, -⟩ := exists_calloc narrowBoard_calloc
  have hstep := calloc_step hcall (by decide) (by rw [narrowBoard_limit]; omega)
    (by rw [narrowBoard_limit]; omega)
  have hreach : Reached narrowBoard 64 1088 boot ⟨s', [(100, 1073741826 * 4)]⟩ :=
    ⟨fun _ => 0, [.calloc 1073741826 4], hboot, by rw [runs, hstep]; rfl⟩
  exact ⟨boot, _, 100, hreach, by simp [pointers], (reallocOk_iff .w32).1 narrowBoard 64 1088 rfl
    narrowBoard_region narrowBoard_size boot _ hreach 100 (by simp [pointers]) 100 (by decide)
    (by rw [narrowBoard_limit]; omega)⟩

end HeapUser
end Xiuos.Kernel
