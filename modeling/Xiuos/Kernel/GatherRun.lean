import Xiuos.Kernel.Gatherblock
import Xiuos.Kernel.MsgQueue
import Xiuos.Kernel.Tick

/-! `gatherblock.c`: the critical sections of `AllocBlockMemGather` and `FreeBlockMemGather`, and
runs of them. -/

namespace Xiuos.Kernel
open Lib Function HeapUser List Nat Option
variable {blocks : Nat → List Nat}

structure GatherCall where
  gather : Nat
  waitTime : Int32
  beforeSleep : UInt32
  deriving DecidableEq

/-- The gathers by their address, and the memory where the blocks are.  `out` is kept by the run
alone: the data blocks that a gather has handed out. -/
structure Gathers where
  gather : Nat → MemGather
  mem : Mem
  locals : Nat → GatherCall
  out : Nat → List Nat

namespace Gathers

def setLocals (o : Gathers) (t : Nat) (call : GatherCall) : Gathers :=
  { o with locals := update o.locals t call }

end Gathers

section
variable (cfg : HeapConfig)

def takeBlock (o : Gathers) (m : Nat) : Option Gathers := do
  let gm := o.gather m
  let blockPtr := gm.mBlockLink
  check cfg (blockPtr ≠ 0)
  some { o with
    gather := update o.gather m { gm with
      blockFreeNumber := cfg.sub gm.blockFreeNumber 1
      mBlockLink := o.mem.load blockPtr cfg.ptr }
    mem := o.mem.store blockPtr cfg.ptr m
    out := update o.out m ((blockPtr + cfg.ptr) :: o.out m) }

def gatherOf (o : Gathers) (dataBlock : Nat) : Nat := o.mem.load (dataBlock - cfg.ptr) cfg.ptr

def giveBack (o : Gathers) (dataBlock : Nat) : Gathers :=
  let blockPtr := dataBlock - cfg.ptr
  let gm := o.gather (gatherOf cfg o dataBlock)
  { o with
    gather := update o.gather (gatherOf cfg o dataBlock) { gm with
      blockFreeNumber := (gm.blockFreeNumber + 1) % cfg.limit
      mBlockLink := blockPtr }
    mem := o.mem.store blockPtr cfg.ptr gm.mBlockLink }

variable {κ : Type} (k : Sched κ)

def allocLoop (w : World κ Gathers) (m t : Nat) (waitTime : Int32) (now : UInt32) (alloc : Bool) :
    Option (World κ Gathers) :=
  if 0 = (w.obj.gather m).blockFreeNumber then
    if waitTime = 0 then
      some ({ w with kernel := k.setExstatus w.kernel t etimeout }.setCall t none)
    else do
      let kernel := k.setExstatus w.kernel t eok
      let kernel := k.suspendFront kernel m t
      let kernel ← k.startTimer kernel t waitTime now alloc
      some ({ w with kernel, obj := w.obj.setLocals t ⟨m, waitTime, now⟩ }.setCall t
        (some (m, false)))
  else do
    let obj ← takeBlock cfg w.obj m
    some ({ w with obj }.setCall t none)

inductive GatherOp
  | allocBlock (m : Nat) (msec : Int32) (now : UInt32) (alloc : Bool)
  | goOn (now : UInt32) (alloc : Bool)
  | freeBlock (m dataBlock : Nat)
  | write (m dataBlock offset : Nat) (byte : UInt8)
  deriving DecidableEq

def freeBlockMemGather (w : World κ Gathers) (m dataBlock : Nat) : Option (World κ Gathers) := do
  let gm := gatherOf cfg w.obj dataBlock
  let obj := giveBack cfg { w.obj with out := update w.obj.out m ((w.obj.out m).erase dataBlock) }
    dataBlock
  match k.first w.kernel gm with
  | some u => do
    let kernel ← k.kTaskWakeup (k.setExstatus w.kernel u eok) u
    some ({ w with kernel, obj }.setCall u (some (gm, true)))
  | none => some { w with obj }

def gatherAct (tickPerSecond : UInt32) (w : World κ Gathers) : GatherOp → Option (World κ Gathers)
  | .allocBlock m msec now alloc => do
    let t ← w.caller k
    allocLoop cfg k w m t (calculteTickFromTimeMs tickPerSecond msec.toUInt32).toInt32 now alloc
  | .goOn now alloc => do
    let (t, _) ← w.waker k
    let c := w.obj.locals t
    if (k.task w.kernel t).exstatus ≠ eok then some (w.setCall t none)
    else allocLoop cfg k w c.gather t (mqTimeLeft c.waitTime c.beforeSleep now) now alloc
  | .freeBlock m dataBlock =>
    if dataBlock ∈ w.obj.out m then freeBlockMemGather cfg k w m dataBlock else none
  | .write m dataBlock offset byte =>
    if dataBlock ∈ w.obj.out m ∧ offset < (w.obj.gather m).oneBlockSize then
      some { w with obj := { w.obj with mem := update w.obj.mem (dataBlock + offset) byte } }
    else none

def gatherStep (tickPerSecond : UInt32) (w : World κ Gathers) (op : WorldOp GatherOp) :
    Option (World κ Gathers) :=
  w.step k (gatherAct cfg k tickPerSecond) op

end

structure Stocked (cfg : HeapConfig) (mem : Mem) (gm : MemGather) (bs out fl : List Nat) :
    Prop where
  linked : bs ≠ [] → Threaded (mem.load · cfg.ptr) 0 gm.mBlockLink fl
  count : fl.length = gm.blockFreeNumber
  perm : (fl.map (· + cfg.ptr) ++ out).Perm (bs.map (· + cfg.ptr))

namespace Stocked

variable {cfg : HeapConfig} {mem mem' : Mem} {gm : MemGather} {bs out fl : List Nat} {b d : Nat}
  (h : Stocked cfg mem gm bs out fl)

include h

lemma mem_of_free (hb : b ∈ fl) : b ∈ bs := by
  have hmem : b + cfg.ptr ∈ bs.map (· + cfg.ptr) :=
    h.perm.subset (mem_append_left _ (List.mem_map_of_mem hb))
  obtain ⟨c, hc, heq⟩ := List.mem_map.mp hmem
  rwa [← Nat.add_right_cancel heq]

lemma mem_of_out (hd : d ∈ out) : ∃ b ∈ bs, b + cfg.ptr = d :=
  List.mem_map.mp (h.perm.subset (mem_append_right _ hd))

lemma nodup (hbs : bs.Nodup) : (fl.map (· + cfg.ptr) ++ out).Nodup :=
  h.perm.nodup_iff.mpr (hbs.map fun _ _ => Nat.add_right_cancel)

lemma length_le : fl.length + out.length = bs.length := by simpa using h.perm.length_eq

lemma congr (hmem : ∀ b ∈ fl, mem'.load b cfg.ptr = mem.load b cfg.ptr) :
    Stocked cfg mem' gm bs out fl := ⟨fun hbs => (h.linked hbs).congr hmem, h.count, h.perm⟩

omit h in
lemma take (h : Stocked cfg mem gm bs out (b :: fl)) (hlt : bs.length < cfg.limit)
    (hmem : ∀ c ∈ fl, mem'.load c cfg.ptr = mem.load c cfg.ptr) :
    Stocked cfg mem' { gm with
      blockFreeNumber := cfg.sub gm.blockFreeNumber 1
      mBlockLink := mem.load b cfg.ptr } bs ((b + cfg.ptr) :: out) fl := by
  have hlength := h.length_le
  have hcount := h.count
  rw [length_cons] at hlength hcount
  refine ⟨fun hbs => (h.linked hbs).2.2.congr hmem, ?_, perm_middle.trans h.perm⟩
  rw [← hcount, cfg.sub_eq (by omega) (by omega), Nat.add_sub_cancel]

lemma give (hd : b + cfg.ptr ∈ out) (hb : b ≠ 0) (hlt : bs.length < cfg.limit)
    (hlink : mem'.load b cfg.ptr = gm.mBlockLink)
    (hmem : ∀ c ∈ fl, mem'.load c cfg.ptr = mem.load c cfg.ptr) :
    Stocked cfg mem' { gm with
      blockFreeNumber := (gm.blockFreeNumber + 1) % cfg.limit
      mBlockLink := b } bs (out.erase (b + cfg.ptr)) (b :: fl) := by
  have hlength := h.length_le
  have hpos := length_pos_of_mem hd
  refine ⟨fun hbs => ⟨rfl, hb, ?_⟩, ?_, ?_⟩
  · simp only [hlink]
    exact (h.linked hbs).congr hmem
  · rw [length_cons, h.count, mod_eq_of_lt]
    rw [← h.count]
    omega
  · exact (perm_middle.symm.trans
      ((perm_cons_erase hd).symm.append_left (fl.map (· + cfg.ptr)))).trans h.perm

end Stocked

structure GatherLayout (cfg : HeapConfig) (one : Nat → Nat) (blocks : Nat → List Nat) : Prop where
  handler : ∀ {m b}, b ∈ blocks m → m < cfg.limit
  pos : ∀ {m b}, b ∈ blocks m → 0 < b
  bound : ∀ {m b}, b ∈ blocks m → b + (one m + cfg.ptr) ≤ cfg.limit
  nodup : ∀ m, (blocks m).Nodup
  apart : ∀ {m n b c}, b ∈ blocks m → c ∈ blocks n →
    (m = n ∧ b = c) ∨ b + (one m + cfg.ptr) ≤ c ∨ c + (one n + cfg.ptr) ≤ b

variable {offset : Nat}

namespace GatherLayout

variable {cfg : HeapConfig} {one : Nat → Nat} {mem : Mem} {m n b c : Nat}
  (h : GatherLayout cfg one blocks)

include h

lemma length_lt (m : Nat) : (blocks m).length < cfg.limit := by
  have hptr := cfg.ptr_eq
  have hlimit := cfg.le_limit
  have hsub : blocks m ⊆ List.range' 1 (cfg.limit - 1) := by
    intro b hb
    have := h.pos hb
    have := h.bound hb
    simp only [mem_range'_1]
    omega
  have hle := (subperm_of_subset (h.nodup m) hsub).length_le
  rw [length_range'] at hle
  omega

lemma load_store (hb : b ∈ blocks m) (hc : c ∈ blocks n) (hne : ¬ (m = n ∧ b = c)) (v : Nat) :
    (mem.store b cfg.ptr v).load c cfg.ptr = mem.load c cfg.ptr := by
  refine Mem.load_store_of_disjoint ?_
  obtain heq | hle | hle := h.apart hb hc
  · exact absurd heq hne
  · exact .inl (by omega)
  · exact .inr (by omega)

lemma load_update (hb : b ∈ blocks m) (hc : c ∈ blocks n) (hlt : offset < one m) (byte : UInt8) :
    Mem.load (update mem (b + cfg.ptr + offset) byte) c cfg.ptr = mem.load c cfg.ptr := by
  refine Mem.load_congr fun x hx hx' => update_of_ne ?_ byte mem
  obtain ⟨-, rfl⟩ | hle | hle := h.apart hb hc <;> omega

end GatherLayout

structure GatherInv (cfg : HeapConfig) (blocks : Nat → List Nat) (o : Gathers) : Prop where
  layout : GatherLayout cfg (fun m => (o.gather m).oneBlockSize) blocks
  stock : ∀ m, ∃ fl, Stocked cfg o.mem (o.gather m) (blocks m) (o.out m) fl
  home : ∀ {m b}, b + cfg.ptr ∈ o.out m → o.mem.load b cfg.ptr = m

structure GatherReady (cfg : HeapConfig) (blocks : Nat → List Nat) (o : Gathers) : Prop where
  layout : GatherLayout cfg (fun m => (o.gather m).oneBlockSize) blocks
  count : ∀ m, (blocks m).length = (o.gather m).blockFreeNumber
  linked : ∀ m, blocks m ≠ [] → Threaded (o.mem.load · cfg.ptr) 0 (o.gather m).mBlockLink (blocks m)
  out : ∀ m, o.out m = []

section
variable {cfg : HeapConfig} {o o' : Gathers} {m n b c d : Nat}

lemma GatherReady.inv (h : GatherReady cfg blocks o) : GatherInv cfg blocks o where
  layout := h.layout
  stock m := ⟨blocks m, h.linked m, h.count m, by rw [h.out m, append_nil]⟩
  home hd := by simp [h.out] at hd

namespace GatherInv
variable (h : GatherInv cfg blocks o)
include h

lemma block_of_out (hd : d ∈ o.out m) : ∃ b ∈ blocks m, d = b + cfg.ptr := by
  obtain ⟨fl, hfl⟩ := h.stock m
  obtain ⟨b, hb, rfl⟩ := hfl.mem_of_out hd
  exact ⟨b, hb, rfl⟩

lemma home_store (hb : b ∈ blocks m) (hd : c + cfg.ptr ∈ o.out n) (hne : ¬ (m = n ∧ b = c))
    (v : Nat) : (o.mem.store b cfg.ptr v).load c cfg.ptr = n := by
  obtain ⟨c', hc, heq⟩ := h.block_of_out hd
  obtain rfl := Nat.add_right_cancel heq
  rw [h.layout.load_store hb hc hne, h.home hd]

lemma update_layout {gm : MemGather} (hone : gm.oneBlockSize = (o.gather m).oneBlockSize) :
    GatherLayout cfg (fun n => (update o.gather m gm n).oneBlockSize) blocks := by
  have : (fun n => (update o.gather m gm n).oneBlockSize) =
      fun n => (o.gather n).oneBlockSize := by
    funext n
    by_cases hn : n = m
    · rw [hn, update_self, hone]
    · rw [update_of_ne hn]
  rw [this]
  exact h.layout

lemma take (hfree : (o.gather m).blockFreeNumber ≠ 0) (htake : takeBlock cfg o m = some o') :
    GatherInv cfg blocks o' := by
  obtain ⟨-, -, htake⟩ := bind_eq_some_iff.mp htake
  obtain ⟨fl, hfl⟩ := h.stock m
  cases fl with
  | nil => exact absurd hfl.count.symm hfree
  | cons b fl =>
    have hb := hfl.mem_of_free mem_cons_self
    have hlink : (o.gather m).mBlockLink = b := (hfl.linked (ne_nil_of_mem hb)).1
    have hnodup := hfl.nodup (h.layout.nodup m)
    rw [map_cons, cons_append, nodup_cons] at hnodup
    obtain rfl := Option.some.inj htake
    simp only [hlink]
    refine ⟨h.update_layout rfl, fun n => ?_, fun {n c} hd => ?_⟩
    · by_cases hn : n = m
      · subst hn
        simp only [update_self]
        refine ⟨fl, hfl.take (h.layout.length_lt n) fun c hc => ?_⟩
        refine h.layout.load_store hb (hfl.mem_of_free (mem_cons_of_mem b hc)) ?_ n
        rintro ⟨-, rfl⟩
        exact hnodup.1 (mem_append_left _ (List.mem_map_of_mem hc))
      · simp only [update_of_ne hn]
        obtain ⟨fl', hfl'⟩ := h.stock n
        exact ⟨fl', hfl'.congr fun c hc =>
          h.layout.load_store hb (hfl'.mem_of_free hc) (fun he => hn he.1.symm) m⟩
    · simp only at hd ⊢
      by_cases hn : n = m
      · subst hn
        rw [update_self, mem_cons] at hd
        obtain heq | hd := hd
        · obtain rfl := Nat.add_right_cancel heq
          rw [Mem.load_store_self]
          exact mod_eq_of_lt (h.layout.handler hb)
        · refine h.home_store hb hd ?_ n
          rintro ⟨-, rfl⟩
          exact hnodup.1 (mem_append_right _ hd)
      · rw [update_of_ne hn] at hd
        exact h.home_store hb hd (fun he => hn he.1.symm) m

lemma give (hd : d ∈ o.out m) :
    GatherInv cfg blocks
      (giveBack cfg { o with out := update o.out m ((o.out m).erase d) } d) := by
  obtain ⟨b, hb, rfl⟩ := h.block_of_out hd
  obtain ⟨fl, hfl⟩ := h.stock m
  have hnodup := hfl.nodup (h.layout.nodup m)
  have hnot : b ∉ fl := fun hmem =>
    (nodup_append.mp hnodup).2.2 _ (List.mem_map_of_mem hmem) _ hd rfl
  have hlink : (o.gather m).mBlockLink < 256 ^ cfg.ptr := by
    obtain hnull | hmem := (hfl.linked (ne_nil_of_mem hb)).head_cases
    · rw [hnull]
      exact Nat.pow_pos (by decide)
    · have := h.layout.bound (hfl.mem_of_free hmem)
      have := cfg.ptr_eq
      rw [← HeapConfig.limit]
      omega
  simp only [giveBack, gatherOf, Nat.add_sub_cancel, h.home hd]
  refine ⟨h.update_layout rfl, fun n => ?_, fun {n c} hc => ?_⟩
  · by_cases hn : n = m
    · subst hn
      simp only [update_self]
      refine ⟨b :: fl, hfl.give hd (h.layout.pos hb).ne' (h.layout.length_lt n) ?_ fun c hc => ?_⟩
      · rw [Mem.load_store_self, mod_eq_of_lt hlink]
      · refine h.layout.load_store hb (hfl.mem_of_free hc) ?_ _
        rintro ⟨-, rfl⟩
        exact hnot hc
    · simp only [update_of_ne hn]
      obtain ⟨fl', hfl'⟩ := h.stock n
      exact ⟨fl', hfl'.congr fun c hc =>
        h.layout.load_store hb (hfl'.mem_of_free hc) (fun he => hn he.1.symm) _⟩
  · simp only at hc ⊢
    by_cases hn : n = m
    · subst hn
      rw [update_self] at hc
      have hne : ¬ (n = n ∧ b = c) := by
        rintro ⟨-, rfl⟩
        exact (nodup_append.mp hnodup).2.1.not_mem_erase hc
      exact h.home_store hb (mem_of_mem_erase hc) hne _
    · rw [update_of_ne hn] at hc
      exact h.home_store hb hc (fun he => hn he.1.symm) _

lemma write (hd : d ∈ o.out m) (hlt : offset < (o.gather m).oneBlockSize) (byte : UInt8) :
    GatherInv cfg blocks { o with mem := update o.mem (d + offset) byte } := by
  obtain ⟨b, hb, rfl⟩ := h.block_of_out hd
  refine ⟨h.layout, fun n => ?_, fun {n c} hc => ?_⟩
  · obtain ⟨fl, hfl⟩ := h.stock n
    exact ⟨fl, hfl.congr fun c hc => h.layout.load_update hb (hfl.mem_of_free hc) hlt byte⟩
  · obtain ⟨c', hc', heq⟩ := h.block_of_out hc
    obtain rfl := Nat.add_right_cancel heq
    rw [h.layout.load_update hb hc' hlt byte, h.home hc]

end GatherInv
end

section
variable {cfg : HeapConfig} {κ : Type} {k : Sched κ} {w w' : World κ Gathers} {m d : Nat}

variable {tickPerSecond : UInt32} {op : WorldOp GatherOp} {waitTime : Int32} {now : UInt32}
  {alloc : Bool} {t : Nat}

lemma obj_of_allocLoop (h : allocLoop cfg k w m t waitTime now alloc = some w') :
    (∃ locals, w'.obj = { w.obj with locals }) ∨
      (w.obj.gather m).blockFreeNumber ≠ 0 ∧ takeBlock cfg w.obj m = some w'.obj := by
  simp only [allocLoop] at h
  split at h
  · split at h
    · cases h
      exact .inl ⟨_, rfl⟩
    · obtain ⟨kernel, -, h⟩ := bind_eq_some_iff.mp h
      cases h
      exact .inl ⟨_, rfl⟩
  · obtain ⟨obj, hobj, h⟩ := bind_eq_some_iff.mp h
    cases h
    exact .inr ⟨fun he => ‹¬ _› he.symm, hobj⟩

lemma obj_of_freeBlock (h : freeBlockMemGather cfg k w m d = some w') :
    w'.obj = giveBack cfg { w.obj with out := update w.obj.out m ((w.obj.out m).erase d) } d := by
  simp only [freeBlockMemGather] at h
  split at h
  · obtain ⟨kernel, -, h⟩ := bind_eq_some_iff.mp h
    cases h
    rfl
  · cases h
    rfl

lemma obj_of_kernel {ο ι : Type} {act : World κ ο → ι → Option (World κ ο)} {w w' : World κ ο}
    {op : KernelOp} (h : w.step k act (.kernel op) = some w') : w'.obj = w.obj := by
  have hkernel : ∀ {op}, w.kernelStep k op = some w' → w'.obj = w.obj := by
    intro op h
    obtain ⟨kernel, -, h⟩ := bind_eq_some_iff.mp h
    cases h
    rfl
  cases op with
  | delay now ticks alloc =>
    obtain ⟨t, -, h⟩ := bind_eq_some_iff.mp h
    exact hkernel h
  | start t => exact hkernel h
  | dispatch t => exact hkernel h
  | expire t => exact hkernel h

lemma freeBlock_some (h : gatherStep cfg k tickPerSecond w (.act (.freeBlock m d)) = some w') :
    d ∈ w.obj.out m ∧
      w'.obj = giveBack cfg { w.obj with out := update w.obj.out m ((w.obj.out m).erase d) } d := by
  simp only [gatherStep, World.step, gatherAct] at h
  split at h
  · exact ⟨‹_›, obj_of_freeBlock h⟩
  · cases h

lemma GatherInv.locals {blocks : Nat → List Nat} {o : Gathers} (h : GatherInv cfg blocks o)
    (locals : Nat → GatherCall) : GatherInv cfg blocks { o with locals } :=
  ⟨h.layout, h.stock, h.home⟩

lemma GatherInv.allocLoop {blocks : Nat → List Nat} (hi : GatherInv cfg blocks w.obj)
    (h : allocLoop cfg k w m t waitTime now alloc = some w') : GatherInv cfg blocks w'.obj := by
  obtain ⟨locals, hobj⟩ | ⟨hfree, htake⟩ := obj_of_allocLoop h
  · rw [hobj]
    exact hi.locals locals
  · exact hi.take hfree htake

lemma GatherInv.step {blocks : Nat → List Nat} (hi : GatherInv cfg blocks w.obj)
    (h : gatherStep cfg k tickPerSecond w op = some w') : GatherInv cfg blocks w'.obj := by
  cases op with
  | kernel op => rwa [obj_of_kernel h]
  | act i =>
    cases i with
    | allocBlock m msec now alloc =>
      obtain ⟨t, -, h⟩ := bind_eq_some_iff.mp h
      exact hi.allocLoop h
    | goOn now alloc =>
      obtain ⟨tc, -, h⟩ := bind_eq_some_iff.mp h
      simp only at h
      split at h
      · cases h
        exact hi
      · exact hi.allocLoop h
    | freeBlock m d =>
      obtain ⟨hd, hobj⟩ := freeBlock_some h
      rw [hobj]
      exact hi.give hd
    | write m d offset byte =>
      simp only [gatherStep, World.step, gatherAct] at h
      split at h
      · cases h
        exact hi.write ‹_ ∧ _›.1 ‹_ ∧ _›.2 byte
      · cases h

end

structure Conserved (cfg : HeapConfig) (blocks : Nat → List Nat) (o : Gathers) : Prop where
  stock : ∀ m, blocks m ≠ [] → ∃ fl, Threaded (o.mem.load · cfg.ptr) 0 (o.gather m).mBlockLink fl ∧
    fl.length = (o.gather m).blockFreeNumber ∧
    (fl.map (· + cfg.ptr) ++ o.out m).Perm ((blocks m).map (· + cfg.ptr)) ∧
    (fl.map (· + cfg.ptr) ++ o.out m).Nodup
  once : ∀ m n d, d ∈ o.out m → d ∈ o.out n → m = n

def GoesHome {κ : Type} (cfg : HeapConfig) (w : World κ Gathers) (op : WorldOp GatherOp)
    (w' : World κ Gathers) : Prop :=
  ∀ m d, op = .act (.freeBlock m d) → (w'.obj.gather m).mBlockLink = d - cfg.ptr ∧
    (w'.obj.gather m).blockFreeNumber = (w.obj.gather m).blockFreeNumber + 1

section
variable {cfg : HeapConfig} {o : Gathers}

lemma GatherInv.conserved (h : GatherInv cfg blocks o) : Conserved cfg blocks o where
  stock m hm := by
    obtain ⟨fl, hfl⟩ := h.stock m
    exact ⟨fl, hfl.linked hm, hfl.count, hfl.perm, hfl.nodup (h.layout.nodup m)⟩
  once m n d hm hn := by
    obtain ⟨b, hb, rfl⟩ := h.block_of_out hm
    rw [← h.home hm, ← h.home hn]

lemma GatherInv.goesHome {κ : Type} {k : Sched κ} {tickPerSecond : UInt32}
    {w w' : World κ Gathers}
    {op : WorldOp GatherOp} (hi : GatherInv cfg blocks w.obj)
    (h : gatherStep cfg k tickPerSecond w op = some w') : GoesHome cfg w op w' := by
  rintro m d rfl
  obtain ⟨hd, hobj⟩ := freeBlock_some h
  obtain ⟨b, hb, rfl⟩ := hi.block_of_out hd
  obtain ⟨fl, hfl⟩ := hi.stock m
  have hlength := hfl.length_le
  have hlt := hi.layout.length_lt m
  have hpos := length_pos_of_mem hd
  rw [hobj]
  simp only [giveBack, gatherOf, Nat.add_sub_cancel, hi.home hd, update_self, true_and]
  rw [← hfl.count, mod_eq_of_lt (by omega)]

end

def soleGather (m : Nat) (r : Mem × MemGather) : Gathers where
  gather := update (fun _ => ⟨0, 0, 0, 0, 0, 0⟩) m r.2
  mem := r.1
  locals _ := ⟨0, 0, 0⟩
  out _ := []

lemma Built.ready {cfg : HeapConfig} {one start size m : Nat} {r : Mem × MemGather}
    (hb : Built cfg one start size r) (hstart : 0 < start) (hend : start + size ≤ cfg.limit)
    (hfree : r.2.blockFreeNumber = r.2.blockTotalNumber) (hm : m < cfg.limit) :
    ∃ bs, bs.length = r.2.blockTotalNumber ∧
      GatherReady cfg (update (fun _ => []) m bs) (soleGather m r) := by
  obtain ⟨bs, hlinked, hlength, hapart, hin⟩ := hb.blocks
  have hptr : 0 < cfg.ptr := by have := cfg.ptr_eq; omega
  have hmem : ∀ {n b}, b ∈ update (fun _ => []) m bs n → n = m ∧ b ∈ bs := by
    intro n b hb
    by_cases hn : n = m
    · subst hn
      rw [update_self] at hb
      exact ⟨rfl, hb⟩
    · rw [update_of_ne hn] at hb
      cases hb
  refine ⟨bs, hlength, ⟨fun hb => ?_, fun hb => ?_, fun hb => ?_, fun n => ?_, fun hb hc => ?_⟩,
    fun n => ?_, fun n hn => ?_, fun n => rfl⟩
  · rwa [(hmem hb).1]
  · exact Nat.lt_of_lt_of_le hstart (hin _ (hmem hb).2).1
  · obtain ⟨rfl, hb'⟩ := hmem hb
    simp only [soleGather, update_self]
    exact (hin _ hb').2.trans hend
  · by_cases hn : n = m
    · subst hn
      rw [update_self]
      exact hapart.nodup (by omega)
    · rw [update_of_ne hn]
      exact nodup_nil
  · obtain ⟨rfl, hb'⟩ := hmem hb
    obtain ⟨rfl, hc'⟩ := hmem hc
    simp only [soleGather, update_self, true_and]
    exact hapart.of_mem hb' hc'
  · by_cases hn : n = m
    · subst hn
      simp only [soleGather, update_self]
      rw [hlength, hfree]
    · simp only [soleGather, update_of_ne hn]
      rfl
  · obtain ⟨b, hb⟩ := exists_mem_of_ne_nil _ hn
    obtain ⟨rfl, hb⟩ := hmem hb
    simp only [soleGather, update_self]
    exact hlinked

theorem gatherRun_conserved {κ : Type} (cfg : HeapConfig) (k : Sched κ) (tickPerSecond : UInt32)
    {blocks : Nat → List Nat} {w : World κ Gathers} (hw : GatherReady cfg blocks w.obj)
    (ops : List (WorldOp GatherOp)) :
    Always (gatherStep cfg k tickPerSecond) (fun w => Conserved cfg blocks w.obj) w ops ∧
      Along (gatherStep cfg k tickPerSecond) (GoesHome cfg) w ops := by
  constructor
  · have hrun : Always (gatherStep cfg k tickPerSecond)
      (fun w => GatherInv cfg blocks w.obj) w ops :=
      always_of_step (fun hi h => GatherInv.step hi h) hw.inv ops
    exact hrun.mono fun w hi => hi.conserved
  · exact along_of_step (I := fun w => GatherInv cfg blocks w.obj)
      (fun hi h => ⟨hi.step h, hi.goesHome h⟩) hw.inv ops

def sampleGathers : Gathers :=
  ((initMemGather narrowBoard (fun _ => 0) 64 16 8).map (soleGather 4096)).getD
    (soleGather 0 (fun _ => 0, ⟨0, 0, 0, 0, 0, 0⟩))

def sampleGatherOps : List (WorldOp GatherOp) :=
  [.kernel (.start 3), .kernel (.dispatch 3), .act (.allocBlock 4096 50 0 true),
    .act (.write 4096 68 7 1), .act (.allocBlock 4096 50 0 true), .act (.freeBlock 4096 68)]

theorem gatherRun_conserved_sample :
    (runs (gatherStep narrowBoard (stateSched sampleConfig 20) 1000) (sampleWorld sampleGathers)
        sampleGatherOps).map (fun w => (w.obj.out 4096, w.call 3)) = some ([], some (4096, true)) ∧
    ∃ bs, bs.length = 1 ∧
      Always (gatherStep narrowBoard (stateSched sampleConfig 20) 1000)
        (fun w => Conserved narrowBoard (update (fun _ => []) 4096 bs) w.obj)
        (sampleWorld sampleGathers) sampleGatherOps ∧
      Along (gatherStep narrowBoard (stateSched sampleConfig 20) 1000) (GoesHome narrowBoard)
        (sampleWorld sampleGathers) sampleGatherOps := by
  refine ⟨by decide +kernel, ?_⟩
  have hbuilt : ∃ r, initMemGather narrowBoard (fun _ => 0) 64 16 8 = some r ∧
      Built narrowBoard 8 64 16 r :=
    (initMemGather_built_iff (by decide) (by decide) (by decide) (by decide) (by decide)).mpr
      (by decide)
  obtain ⟨r, hr, hb⟩ := hbuilt
  have hobj : sampleGathers = soleGather 4096 r := by
    rw [sampleGathers, hr]
    rfl
  obtain rfl := Option.some.inj hr
  obtain ⟨bs, hlength, hready⟩ := hb.ready (by decide) (by decide) rfl (m := 4096) (by decide)
  rw [← hobj] at hready
  exact ⟨bs, hlength, gatherRun_conserved narrowBoard (stateSched sampleConfig 20) 1000 hready _⟩

end Xiuos.Kernel
