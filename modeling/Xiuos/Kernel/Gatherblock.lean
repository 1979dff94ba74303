import Xiuos.Kernel.HeapSafe
import Xiuos.Lib.FreeList

/-! `gatherblock.c`: how a gather of blocks is made of a region. -/

namespace Xiuos.Kernel
open Lib HeapUser List Nat

structure MemGather where
  mStartAddress : Nat
  mSize : Nat
  oneBlockSize : Nat
  mBlockLink : Nat
  blockTotalNumber : Nat
  blockFreeNumber : Nat
  deriving DecidableEq

section
variable (cfg : HeapConfig)

def stride (oneBlockSize : Nat) : Nat := (oneBlockSize + cfg.ptr) % cfg.limit

def blockAt (blockPtr oneBlockSize offBlock : Nat) : Nat :=
  (blockPtr + offBlock * stride cfg oneBlockSize) % cfg.limit

def linkNext (blockPtr oneBlockSize : Nat) (m : Mem) (offBlock : Nat) : Mem :=
  m.store (blockAt cfg blockPtr oneBlockSize offBlock) cfg.ptr
    (blockAt cfg blockPtr oneBlockSize (offBlock + 1))

def linkBlocks (m : Mem) (blockPtr oneBlockSize total : Nat) : Mem :=
  ((List.range total).foldl (linkNext cfg blockPtr oneBlockSize) m).store
    (blockAt cfg blockPtr oneBlockSize (cfg.sub total 1)) cfg.ptr 0

def initMemGather (m : Mem) (beginAddress gmSize oneBlockSize : Nat) :
    Option (Mem × MemGather) := do
  check cfg (beginAddress ≠ 0)
  check cfg (gmSize ≥ 1 ∧ oneBlockSize ≥ 1)
  let mSize := alignDown gmSize cfg.memAlign
  let oneBlockSize := cfg.alignUp oneBlockSize cfg.memAlign
  if stride cfg oneBlockSize = 0 then none
  else
    let blockTotalNumber := mSize / stride cfg oneBlockSize
    some (linkBlocks cfg m beginAddress oneBlockSize blockTotalNumber,
      { mStartAddress := beginAddress, mSize, oneBlockSize, mBlockLink := beginAddress,
        blockTotalNumber, blockFreeNumber := blockTotalNumber })

def gatherSize (blockNumber oneBlockSize : Nat) : Nat :=
  stride cfg (cfg.alignUp oneBlockSize cfg.memAlign) * blockNumber % cfg.limit

def createMemGather (m : Mem) (gmHandler : Nat) (xMalloc : Nat → Nat)
    (blockNumber oneBlockSize : Nat) : Option (Mem × MemGather) := do
  check cfg (blockNumber ≥ 1 ∧ oneBlockSize ≥ 1)
  if gmHandler = 0 then none
  else
    let mSize := gatherSize cfg blockNumber oneBlockSize
    let mStartAddress := xMalloc mSize
    let oneBlockSize := cfg.alignUp oneBlockSize cfg.memAlign
    if mStartAddress = 0 then none
    else
      some (linkBlocks cfg m mStartAddress oneBlockSize blockNumber,
        { mStartAddress, mSize, oneBlockSize, mBlockLink := mStartAddress,
          blockTotalNumber := blockNumber, blockFreeNumber := blockNumber })

structure Built (oneBlockSize start size : Nat) (r : Mem × MemGather) : Prop where
  room : oneBlockSize ≤ r.2.oneBlockSize
  blocks : ∃ bs, Threaded (r.1.load · cfg.ptr) 0 r.2.mBlockLink bs ∧
    bs.length = r.2.blockTotalNumber ∧ Apart (r.2.oneBlockSize + cfg.ptr) bs ∧
    ∀ b ∈ bs, start ≤ b ∧ b + (r.2.oneBlockSize + cfg.ptr) ≤ start + size

end

def roundUp (size align : Nat) : Nat := (size + align - 1) / align * align

section
variable {cfg : HeapConfig} {m : Mem} {a one len n size : Nat}

lemma le_roundUp (cfg : HeapConfig) (size : Nat) : size ≤ roundUp size cfg.memAlign := by
  have halign := cfg.align_eq
  have hdiv := div_add_mod' (size + cfg.memAlign - 1) cfg.memAlign
  have hmod := mod_lt (size + cfg.memAlign - 1) (show cfg.memAlign > 0 by omega)
  rw [roundUp]
  omega

lemma alignUp_cases (hone : one < cfg.limit) :
    cfg.alignUp one cfg.memAlign = roundUp one cfg.memAlign ∨ cfg.alignUp one cfg.memAlign = 0 := by
  have halign := cfg.align_eq
  by_cases hlt : one + cfg.memAlign - 1 < cfg.limit
  · have hle := div_mul_le_self (one + cfg.memAlign - 1) cfg.memAlign
    rw [HeapConfig.alignUp, mod_eq_of_lt hlt, mod_eq_of_lt (by omega)]
    exact .inl rfl
  · have hmod : (one + cfg.memAlign - 1) % cfg.limit = one + cfg.memAlign - 1 - cfg.limit := by
      have hlimit := cfg.le_limit
      rw [mod_eq_sub_mod (Nat.not_lt.mp hlt), mod_eq_of_lt (by omega)]
    have hdiv : (one + cfg.memAlign - 1 - cfg.limit) / cfg.memAlign = 0 := div_eq_of_lt (by omega)
    rw [HeapConfig.alignUp, hmod, hdiv, Nat.zero_mul, zero_mod]
    exact .inr rfl

lemma memAlign_dvd_limit (cfg : HeapConfig) : cfg.memAlign ∣ cfg.limit := by
  rw [HeapConfig.limit]
  obtain h | h := cfg.align_eq <;> obtain h' | h' := cfg.ptr_eq <;> rw [h, h'] <;> decide

lemma alignUp_eq (hlt : roundUp one cfg.memAlign < cfg.limit) :
    cfg.alignUp one cfg.memAlign = roundUp one cfg.memAlign := by
  have halign := cfg.align_eq
  have hdiv := div_add_mod' (one + cfg.memAlign - 1) cfg.memAlign
  have hmod := mod_lt (one + cfg.memAlign - 1) (show cfg.memAlign > 0 by omega)
  -- both are multiples of the alignment
  obtain ⟨j, hj⟩ := memAlign_dvd_limit cfg
  have hround : roundUp one cfg.memAlign + cfg.memAlign ≤ cfg.limit := by
    rw [hj, Nat.mul_comm cfg.memAlign j, roundUp] at hlt ⊢
    rw [← succ_mul]
    exact Nat.mul_le_mul_right _ (succ_le_of_lt (Nat.lt_of_mul_lt_mul_right hlt))
  rw [roundUp] at hround hlt ⊢
  have hsmall : one + cfg.memAlign - 1 < cfg.limit := by omega
  rw [HeapConfig.alignUp, mod_eq_of_lt hsmall, mod_eq_of_lt hlt]

section
variable (hlen : stride cfg one = len)
include hlen

lemma blockAt_eq (hend : a + n * len ≤ cfg.limit) {i : Nat} (hi : i < n) (hpos : 0 < len) :
    blockAt cfg a one i = a + i * len := by
  have hmul := Nat.mul_le_mul_right len (succ_le_of_lt hi)
  rw [succ_mul] at hmul
  rw [blockAt, hlen, mod_eq_of_lt (by omega)]

omit hlen in
lemma blockAt_lt (cfg : HeapConfig) (a one i : Nat) : blockAt cfg a one i < 256 ^ cfg.ptr :=
  mod_lt _ (Nat.pow_pos (by decide))

lemma load_linkNext (hend : a + n * len ≤ cfg.limit) (hptr : cfg.ptr ≤ len) {j : Nat} (hj : j ≤ n)
    {i : Nat} (hi : i < j) :
    ((range j).foldl (linkNext cfg a one) m).load (blockAt cfg a one i) cfg.ptr =
      blockAt cfg a one (i + 1) := by
  have hpos : 0 < cfg.ptr := by have := cfg.ptr_eq; omega
  induction j with
  | zero => omega
  | succ j ih =>
    rw [List.range_succ, foldl_append, foldl_cons, foldl_nil, linkNext]
    obtain hlt | rfl := Nat.lt_or_eq_of_le (le_of_lt_succ hi)
    · rw [Mem.load_store_of_disjoint, ih (by omega) hlt]
      have hmul := Nat.mul_le_mul_right len (succ_le_of_lt hlt)
      rw [succ_mul] at hmul
      rw [blockAt_eq hlen hend (by omega) (by omega), blockAt_eq hlen hend (by omega) (by omega)]
      omega
    · rw [Mem.load_store_self, mod_eq_of_lt (blockAt_lt cfg a one _)]

lemma threaded_linkBlocks (hend : a + n * len ≤ cfg.limit) (hptr : cfg.ptr ≤ len) (ha : 0 < a)
    (hn : 0 < n) :
    Threaded ((linkBlocks cfg m a one n).load · cfg.ptr) 0 a
      ((range n).map (a + · * len)) := by
  have hpos : 0 < cfg.ptr := by have := cfg.ptr_eq; omega
  obtain ⟨n, rfl⟩ := exists_eq_add_one_of_ne_zero hn.ne'
  have hplace : ∀ i, i < n + 1 → blockAt cfg a one i = a + i * len := fun i hi =>
    blockAt_eq hlen hend hi (by omega)
  have hsub : cfg.sub (n + 1) 1 = n := by
    have hmul := Nat.le_mul_of_pos_right (n + 1) (show 0 < len by omega)
    exact cfg.sub_eq (by omega) (by omega)
  have hlinked := Threaded.range' ((linkBlocks cfg m a one (n + 1)).load · cfg.ptr) 0
    (blockAt cfg a one) 0 n ?_ ?_ ?_
  · rw [hplace 0 (by omega), Nat.zero_mul, Nat.add_zero, ← range_eq_range'] at hlinked
    rwa [map_congr_left fun i hi => hplace i (mem_range.mp hi)] at hlinked
  · intro i _ hi
    rw [hplace i (by omega)]
    omega
  · intro i _ hi
    have hmul := Nat.mul_le_mul_right len (succ_le_of_lt (show i < n by omega))
    rw [succ_mul] at hmul
    simp only [linkBlocks, hsub]
    rw [Mem.load_store_of_disjoint, load_linkNext hlen hend hptr le_rfl (by omega)]
    rw [hplace i (by omega), hplace n (by omega)]
    omega
  · simp only [linkBlocks, hsub, Nat.zero_add]
    rw [Mem.load_store_self, zero_mod]

end

lemma built_of_room (hlen : one + cfg.ptr = len) (hlt : len < cfg.limit)
    (hend : a + size ≤ cfg.limit) (ha : 0 < a) (hn : 0 < n) (hroom : n * len ≤ size) {arg : Nat}
    (harg : arg ≤ one) {gm : MemGather} (hone : gm.oneBlockSize = one) (hlink : gm.mBlockLink = a)
    (htotal : gm.blockTotalNumber = n) : Built cfg arg a size (linkBlocks cfg m a one n, gm) := by
  have hstride : stride cfg one = len := by rw [stride, hlen, mod_eq_of_lt hlt]
  refine ⟨by rwa [hone], (range n).map (a + · * len), ?_, ?_, ?_, ?_⟩
  · rw [hlink]
    exact threaded_linkBlocks hstride (by omega) (by omega) ha hn
  · simp [htotal]
  · rw [hone, hlen]
    exact apart_range a len n
  · intro b hb
    obtain ⟨i, hi, rfl⟩ := mem_map.mp hb
    have hmul := Nat.mul_le_mul_right len (succ_le_of_lt (mem_range.mp hi))
    rw [succ_mul] at hmul
    rw [hone, hlen]
    omega

variable {r : Mem × MemGather}

lemma Built.exists_block (h : Built cfg one a size r) (hlink : r.2.mBlockLink = a) (ha : 0 < a) :
    0 < r.2.blockTotalNumber ∧ r.2.blockTotalNumber * (r.2.oneBlockSize + cfg.ptr) ≤ size := by
  obtain ⟨bs, hlinked, hlength, hapart, hin⟩ := h.blocks
  refine ⟨?_, ?_⟩
  · cases bs with
    | nil => exact absurd (hlink.symm.trans hlinked) ha.ne'
    | cons b bs => simp [← hlength]
  · rw [← hlength]
    exact hapart.length_mul_le hin

lemma roundUp_of_room (hpos : 1 ≤ one) (hone : one < cfg.limit)
    (hroom : one ≤ cfg.alignUp one cfg.memAlign) :
    cfg.alignUp one cfg.memAlign = roundUp one cfg.memAlign := by
  obtain h | h := alignUp_cases hone
  · exact h
  · omega

lemma initMemGather_eq (ha : 0 < a) (hsize : 1 ≤ size) (hpos : 1 ≤ one) :
    initMemGather cfg m a size one =
      if stride cfg (cfg.alignUp one cfg.memAlign) = 0 then none
      else some (linkBlocks cfg m a (cfg.alignUp one cfg.memAlign)
          (alignDown size cfg.memAlign / stride cfg (cfg.alignUp one cfg.memAlign)),
        { mStartAddress := a, mSize := alignDown size cfg.memAlign
          oneBlockSize := cfg.alignUp one cfg.memAlign, mBlockLink := a
          blockTotalNumber := alignDown size cfg.memAlign / stride cfg
            (cfg.alignUp one cfg.memAlign)
          blockFreeNumber :=
            alignDown size cfg.memAlign / stride cfg (cfg.alignUp one cfg.memAlign) }) := by
  simp [initMemGather, check, ha.ne', hsize, hpos]

lemma initMemGather_built_iff (ha : 0 < a) (hsize : 1 ≤ size) (hend : a + size ≤ cfg.limit)
    (hpos : 1 ≤ one) (hone : one < cfg.limit) :
    (∃ r, initMemGather cfg m a size one = some r ∧ Built cfg one a size r) ↔
      roundUp one cfg.memAlign + cfg.ptr ≤ alignDown size cfg.memAlign := by
  have hptr : 0 < cfg.ptr := by have := cfg.ptr_eq; omega
  have hdown : alignDown size cfg.memAlign ≤ size := div_mul_le_self size cfg.memAlign
  rw [initMemGather_eq ha hsize hpos]
  constructor
  · rintro ⟨r, hr, hb⟩
    split at hr
    · cases hr
    cases hr
    obtain ⟨htotal, hroom⟩ := hb.exists_block rfl ha
    simp only at htotal hroom
    rw [roundUp_of_room hpos hone hb.room] at htotal hroom
    have hle := (Nat.le_mul_of_pos_left _ htotal).trans hroom
    rw [stride, mod_eq_of_lt (by omega)] at htotal
    exact (Nat.div_pos_iff.mp htotal).2
  · intro hroom
    have hup : cfg.alignUp one cfg.memAlign = roundUp one cfg.memAlign := alignUp_eq (by omega)
    have hstride : stride cfg (roundUp one cfg.memAlign) = roundUp one cfg.memAlign + cfg.ptr :=
      mod_eq_of_lt (by omega)
    rw [hup, hstride, if_neg (by omega)]
    refine ⟨_, rfl, built_of_room rfl (by omega) hend ha (Nat.div_pos hroom (by omega)) ?_
      (le_roundUp cfg one) rfl rfl rfl⟩
    exact (div_mul_le_self _ _).trans hdown

variable {xMalloc : Nat → Nat} {gmHandler : Nat}

lemma createMemGather_some (h : createMemGather cfg m gmHandler xMalloc n one = some r) :
    xMalloc (gatherSize cfg n one) ≠ 0 ∧
      r = (linkBlocks cfg m (xMalloc (gatherSize cfg n one)) (cfg.alignUp one cfg.memAlign) n,
        { mStartAddress := xMalloc (gatherSize cfg n one), mSize := gatherSize cfg n one
          oneBlockSize := cfg.alignUp one cfg.memAlign
          mBlockLink := xMalloc (gatherSize cfg n one)
          blockTotalNumber := n, blockFreeNumber := n }) := by
  obtain ⟨-, -, h⟩ := Option.bind_eq_some_iff.mp h
  simp only at h
  split at h
  · cases h
  split at h
  · cases h
  · exact ⟨‹_›, (Option.some.inj h).symm⟩

lemma createMemGather_built_iff (h : createMemGather cfg m gmHandler xMalloc n one = some r)
    (hn : 1 ≤ n) (hend : xMalloc (gatherSize cfg n one) + gatherSize cfg n one ≤ cfg.limit)
    (hpos : 1 ≤ one) (hone : one < cfg.limit) :
    Built cfg one (xMalloc (gatherSize cfg n one)) (gatherSize cfg n one) r ↔
      (roundUp one cfg.memAlign + cfg.ptr) * n < cfg.limit := by
  obtain ⟨hstart, rfl⟩ := createMemGather_some h
  have ha := Nat.pos_of_ne_zero hstart
  constructor
  · intro hb
    obtain ⟨-, hroom⟩ := hb.exists_block rfl ha
    have hup := roundUp_of_room hpos hone hb.room
    simp only [hup] at hroom
    rw [Nat.mul_comm]
    omega
  · intro hroom
    have hle := Nat.le_mul_of_pos_right (roundUp one cfg.memAlign + cfg.ptr) hn
    have hptr := cfg.ptr_eq
    have hup : cfg.alignUp one cfg.memAlign = roundUp one cfg.memAlign := alignUp_eq (by omega)
    have hsize : gatherSize cfg n one = (roundUp one cfg.memAlign + cfg.ptr) * n := by
      rw [gatherSize, hup, stride, mod_eq_of_lt (a := _ + _) (by omega), mod_eq_of_lt hroom]
    have hmul : n * (roundUp one cfg.memAlign + cfg.ptr) ≤ gatherSize cfg n one := by
      rw [hsize, Nat.mul_comm]
    rw [hup]
    exact built_of_room rfl (by omega) hend ha hn hmul (le_roundUp cfg one) rfl rfl rfl

end

theorem memGather_built_iff (cfg : HeapConfig) (m : Mem) {one : Nat} (hpos : 1 ≤ one)
    (hone : one < cfg.limit) :
    (∀ beginAddress gmSize, 0 < beginAddress → 1 ≤ gmSize →
      beginAddress + gmSize ≤ cfg.limit →
      ((∃ r, initMemGather cfg m beginAddress gmSize one = some r ∧
          Built cfg one beginAddress gmSize r) ↔
        roundUp one cfg.memAlign + cfg.ptr ≤ alignDown gmSize cfg.memAlign)) ∧
    ∀ gmHandler xMalloc blockNumber r, 1 ≤ blockNumber →
      createMemGather cfg m gmHandler xMalloc blockNumber one = some r →
      r.2.mStartAddress + gatherSize cfg blockNumber one ≤ cfg.limit →
      (Built cfg one r.2.mStartAddress (gatherSize cfg blockNumber one) r ↔
        (roundUp one cfg.memAlign + cfg.ptr) * blockNumber < cfg.limit) := by
  constructor
  · intro a size ha hsize hend
    exact initMemGather_built_iff ha hsize hend hpos hone
  · intro gmHandler xMalloc n r hn h hend
    have hstart : r.2.mStartAddress = xMalloc (gatherSize cfg n one) := by
      rw [(createMemGather_some h).2]
    rw [hstart] at hend ⊢
    exact createMemGather_built_iff h hn hend hpos hone

theorem memGather_built_sample : ∃ r, initMemGather narrowBoard (fun _ => 0) 64 64 8 = some r ∧
    Built narrowBoard 8 64 64 r :=
  ((memGather_built_iff narrowBoard (fun _ => 0) (by decide) (by decide)).1 64 64 (by decide)
    (by decide) (by decide)).mpr (by decide)

theorem memGather_overruns :
    (∃ r, initMemGather narrowBoard (fun _ => 1) 64 8 8 = some r ∧ r.2.blockTotalNumber = 0 ∧
      r.2.mBlockLink = 64 ∧ r.1 52 = 0 ∧ ¬ Built narrowBoard 8 64 8 r) ∧
    ∃ r, createMemGather narrowBoard (fun _ => 0) 4096 (fun _ => 8192) 357913942 8 = some r ∧
      gatherSize narrowBoard 357913942 8 = 8 ∧ ¬ Built narrowBoard 8 8192 8 r := by
  have hsize : gatherSize narrowBoard 357913942 8 = 8 := by decide
  refine ⟨⟨_, rfl, rfl, rfl, rfl, fun hb => ?_⟩, _, rfl, hsize, fun hb => ?_⟩
  · exact absurd ((initMemGather_built_iff (by decide) (by decide) (by decide) (by decide)
      (by decide)).mp ⟨_, rfl, hb⟩) (by decide)
  · have hr : createMemGather narrowBoard (fun _ => 0) 4096 (fun _ => 8192) 357913942 8 = some _ :=
      rfl
    have hiff := createMemGather_built_iff hr (by decide) (by decide) (by decide) (by decide)
    rw [hsize] at hiff
    exact absurd (hiff.mp hb) (by decide)

end Xiuos.Kernel
