import Xiuos.Lib.Memory

/-! The kernel heap of `byte_manage.c`, without external memory. Its nodes and `mm_freenode_list` are
bytes of one memory. `none` is a call that does not return. -/

namespace Xiuos.Kernel
open Lib

def memLowRange : Nat := 2 ^ 6

def memHighRange : Nat := 2 ^ 20

def memLinknrs : Nat := 15

def staticBlockMask : Nat := 0x80000000

def dynamicBlockMask : Nat := 0x40000000

def allocBlockMask : Nat := 0xc0000000

inductive Word
  | w32
  | w64
  deriving DecidableEq

/-- The target, the settings of `Kconfig`, and where the linker has put the manager. -/
structure HeapConfig where
  word : Word
  memAlign : Nat
  mmPageSize : Nat
  kernelSmallMemAlloc : Bool
  kernelDebug : Bool
  small32 : Nat
  small64 : Nat
  freenodeList : Nat
  staticManager : Fin 2 → Nat
  align_eq : memAlign = 4 ∨ memAlign = 8
  page_dvd : 64 ∣ mmPageSize ∧ 0 < mmPageSize
  small32_range : 1 ≤ small32 ∧ small32 ≤ 256
  small64_range : 1 ≤ small64 ∧ small64 ≤ 128

/-- The fields of `DynamicFreeNode`; a `DynamicAllocNode` has the first three. -/
inductive Field
  | size
  | prevAdjSize
  | flag
  | next
  | prev
  deriving DecidableEq

namespace HeapConfig
variable (cfg : HeapConfig)

/-- `SIZEOF_PTR_MEM`. -/
def ptr : Nat :=
  match cfg.word with
  | .w32 => 4
  | .w64 => 8

def limit : Nat := 256 ^ cfg.ptr

/-- `SIZEOF_DYNAMICALLOCNODE_MEM`. -/
def header : Nat := cfg.ptr + 8

/-- `SIZEOF_XSFREENODE_MEM`. -/
def freeNode : Nat := cfg.header + 2 * cfg.ptr

def freenode (i : Nat) : Nat := cfg.freenodeList + i * cfg.freeNode

def offset : Field → Nat
  | .size => 0
  | .prevAdjSize => cfg.ptr
  | .flag => cfg.ptr + 4
  | .next => cfg.header
  | .prev => cfg.header + cfg.ptr

def width : Field → Nat
  | .prevAdjSize | .flag => 4
  | .size | .next | .prev => cfg.ptr

def get (m : Mem) (node : Nat) (f : Field) : Nat := m.load (node + cfg.offset f) (cfg.width f)

def set (m : Mem) (node : Nat) (f : Field) (v : Nat) : Mem :=
  m.store (node + cfg.offset f) (cfg.width f) v

def sub (a b : Nat) : Nat := (a + cfg.limit - b) % cfg.limit

/-- `ALIGN_MEN_UP`. -/
def alignUp (size align : Nat) : Nat := ((size + align - 1) % cfg.limit / align * align) % cfg.limit

end HeapConfig

/-- `ALIGN_MEN_DOWN`. -/
def alignDown (size align : Nat) : Nat := size / align * align

structure Segment where
  blockSize : Nat
  freelist : Nat
  blockTotalCount : Nat
  blockFreeCount : Nat
  deriving DecidableEq

structure HeapState where
  mem : Mem
  dynamicBuddyStart : Nat
  dynamicBuddyEnd : Nat
  activeMemory : Nat
  maxEverUsedmem : Nat
  staticMemory : Nat
  mmTotalSize : Nat
  mmDynamicStart : Nat
  mmDynamicEnd : Nat
  staticManager : Fin 2 → Segment

section
variable (cfg : HeapConfig)

def judgeValidAddressRange (s : HeapState) (pointer : Nat) : Bool :=
  pointer > s.mmDynamicStart ∧ pointer < s.mmDynamicEnd

def smallMemTypeAlloc (m : Mem) (address : Nat) : Bool :=
  cfg.get m address .flag &&& staticBlockMask ≠ 0

def mmAllocNode (m : Mem) (memoryPtr : Nat) : Bool :=
  cfg.get m memoryPtr .flag &&& allocBlockMask ≠ 0

def halvings : Nat → Nat → Nat
  | 0, _ => 0
  | fuel + 1, size => if size > 1 then halvings fuel (size / 2) + 1 else 0

def caculateBuddyIndex (size : Nat) : Nat :=
  if size < memHighRange then halvings 13 (size >>> 6) else memLinknrs - 1

/-- The search of `AddNewNodeIntoBuddy`.  A list that does not end within as many steps as there are
addresses has a cycle. -/
def findSlot (m : Mem) (size : Nat) : Nat → Nat → Nat → Option (Nat × Nat)
  | 0, _, _ => none
  | fuel + 1, prev, next =>
    if next ≠ 0 ∧ cfg.get m next .size ≠ 0 ∧ cfg.get m next .size < size then
      findSlot m size fuel next (cfg.get m next .next)
    else some (prev, next)

def insertNode (m : Mem) (node prev next : Nat) : Mem :=
  let m := cfg.set m prev .next node
  let m := cfg.set m node .prev prev
  let m := cfg.set m node .next next
  if next ≠ 0 then cfg.set m next .prev node else m

def addNewNodeIntoBuddy (m : Mem) (node : Nat) : Option Mem := do
  let size := cfg.get m node .size
  let head := cfg.freenode (caculateBuddyIndex size)
  let (prev, next) ← findSlot cfg m size cfg.limit head (cfg.get m head .next)
  some (insertNode cfg m node prev next)

def unlinkNode (m : Mem) (node : Nat) : Mem :=
  let m := cfg.set m (cfg.get m node .prev) .next (cfg.get m node .next)
  let next := cfg.get m node .next
  if next ≠ 0 then cfg.set m next .prev (cfg.get m node .prev) else m

def bestFit (m : Mem) (allocsize : Nat) : Nat → Nat → Option Nat
  | 0, _ => none
  | fuel + 1, node =>
    if node ≠ 0 ∧ cfg.get m node .size < allocsize then
      bestFit m allocsize fuel (cfg.get m node .next)
    else some node

def splitNode (m : Mem) (node allocsize remaining : Nat) : Option Mem :=
  let next := node + cfg.get m node .size
  let remainder := node + allocsize
  let m := cfg.set m remainder .size remaining
  let m := cfg.set m remainder .prevAdjSize allocsize
  let m := cfg.set m remainder .flag 0
  let m := cfg.set m node .size allocsize
  let m := cfg.set m next .prevAdjSize remaining
  addNewNodeIntoBuddy cfg m remainder

def takeNode (m : Mem) (node allocsize : Nat) : Option Mem :=
  let m := unlinkNode cfg m node
  let remaining := (cfg.get m node .size - allocsize) % 2 ^ 32
  if remaining ≥ memLowRange then splitNode cfg m node allocsize remaining else some m

def bigMemMalloc (s : HeapState) (size extsramMask : Nat) : Option (HeapState × Nat) := do
  let allocsize := (size + cfg.header) % 2 ^ 32
  let ndx := if allocsize ≥ memHighRange then memLinknrs - 1 else caculateBuddyIndex allocsize
  let node ← bestFit cfg s.mem allocsize cfg.limit (cfg.get s.mem (cfg.freenode ndx) .next)
  if node ≠ 0 ∧ cfg.get s.mem node .size > allocsize then do
    let m ← takeNode cfg s.mem node allocsize
    let m := cfg.set m node .flag extsramMask
    let active := (s.activeMemory + cfg.get m node .size) % cfg.limit
    some ({ s with
      mem := m
      activeMemory := active
      maxEverUsedmem := if active > s.maxEverUsedmem then active else s.maxEverUsedmem },
      node + cfg.header)
  else some (s, 0)

def absorbNode (m : Mem) (first second beyond : Nat) : Mem :=
  let m := cfg.set m first .size (cfg.get m first .size + cfg.get m second .size)
  cfg.set m beyond .prevAdjSize (cfg.get m first .size)

def mergeNext (m : Mem) (node : Nat) : Mem × Nat :=
  let next := node + cfg.get m node .size
  if cfg.get m next .flag &&& dynamicBlockMask = 0 then
    let andbeyond := next + cfg.get m next .size
    (absorbNode cfg (unlinkNode cfg m next) node next andbeyond, andbeyond)
  else (m, next)

def mergePrev (m : Mem) (node next : Nat) : Mem × Nat :=
  let prev := node - cfg.get m node .prevAdjSize
  if cfg.get m prev .flag &&& dynamicBlockMask = 0 then
    (absorbNode cfg (unlinkNode cfg m prev) prev node next, prev)
  else (m, node)

def bigMemFree (s : HeapState) (pointer : Nat) : Option HeapState := do
  let node := pointer - cfg.header
  let active := cfg.sub s.activeMemory (cfg.get s.mem node .size)
  let (m, next) := mergeNext cfg s.mem node
  let (m, node) := mergePrev cfg m node next
  let m := cfg.set m node .flag 0
  let m ← addNewNodeIntoBuddy cfg m node
  some { s with mem := m, activeMemory := active }

def initBuddy (s : HeapState) (start size : Nat) : Option HeapState := do
  let stop := start + size - cfg.header
  let node := start + cfg.header
  let m := cfg.set s.mem start .size cfg.header
  let m := cfg.set m start .prevAdjSize 0
  let m := cfg.set m start .flag dynamicBlockMask
  let m := cfg.set m node .size (size - 2 * cfg.header)
  let m := cfg.set m node .prevAdjSize cfg.header
  let m := cfg.set m node .flag 0
  let m := cfg.set m stop .size cfg.header
  let m := cfg.set m stop .prevAdjSize (cfg.get m node .size)
  let m := cfg.set m stop .flag dynamicBlockMask
  let m ← addNewNodeIntoBuddy cfg m node
  some { s with
    mem := m
    mmTotalSize := (s.mmTotalSize + size) % 2 ^ 64
    mmDynamicStart := start
    mmDynamicEnd := stop }

end

/-- `CHECK`, which waits forever when the condition is false, and does nothing without
`KERNEL_DEBUG`. -/
def check (cfg : HeapConfig) (trueCondition : Bool) : Option Unit :=
  if cfg.kernelDebug ∧ !trueCondition then none else some ()

variable (cfg : HeapConfig)

def sizeof32B : Nat := 32

def sizeof64B : Nat := 64

def smallBytes (i : Fin 2) : Nat := if i = 0 then sizeof32B else sizeof64B

def itemSize (i : Fin 2) : Nat := (if i = 0 then sizeof32B else sizeof64B) + cfg.header

def smallNumber (i : Fin 2) : Nat := if i = 0 then cfg.small32 else cfg.small64

def smallSize (i : Fin 2) : Nat := itemSize cfg i * smallNumber cfg i

def poolNodes (m : Mem) (freelist item : Nat) : Nat → Mem
  | 0 => m
  | offset + 1 =>
    let m := poolNodes m freelist item offset
    let node := freelist + offset * item
    let m := cfg.set m node .size (freelist + (offset + 1) * item)
    cfg.set m node .flag staticBlockMask

def initPool (m : Mem) (freelist item count : Nat) : Mem :=
  let m := poolNodes cfg m freelist item count
  cfg.set m (freelist + (count - 1) * item) .size 0

def setSegment (s : HeapState) (i : Fin 2) (f : Segment → Segment) : HeapState :=
  { s with staticManager := Function.update s.staticManager i (f (s.staticManager i)) }

def initSegment (s : HeapState) (i : Fin 2) : Option (HeapState × Bool) := do
  let (s, freelist) ← bigMemMalloc cfg s (smallSize cfg i) dynamicBlockMask
  let s := setSegment s i ({ · with freelist })
  if freelist = 0 then some (s, false)
  else
    let s := setSegment s i ({ · with
      blockSize := if i = 0 then sizeof32B else sizeof64B
      blockTotalCount := smallNumber cfg i
      blockFreeCount := smallNumber cfg i })
    some ({ s with mem := initPool cfg s.mem freelist (itemSize cfg i) (smallNumber cfg i) }, true)

def smallMemInit (s : HeapState) : Option HeapState := do
  let (s, ok) ← initSegment cfg s 0
  if !ok then some (setSegment s 0 ({ · with blockFreeCount := 0 }))
  else
    let (s, ok) ← initSegment cfg s 1
    if !ok then some s
    else some { s with staticMemory := smallSize cfg 1 + smallSize cfg 0 }

def smallMemFree (s : HeapState) (pointer : Nat) : Option HeapState := do
  let node := pointer - cfg.header
  let i ← Fin.find? fun i => cfg.staticManager i = cfg.get s.mem node .size
  let mem := cfg.set s.mem node .size (s.staticManager i).freelist
  let s := setSegment { s with mem } i fun seg => { seg with
    freelist := node
    blockFreeCount := seg.blockFreeCount + 1 }
  check cfg ((s.staticManager i).blockFreeCount ≤ (s.staticManager i).blockTotalCount)
  some s

def popSegment (s : HeapState) (i : Fin 2) : HeapState × Nat :=
  let seg := s.staticManager i
  if seg.blockFreeCount > 0 then
    let node := seg.freelist
    let m := cfg.set s.mem node .flag staticBlockMask
    let freelist := cfg.get m node .size
    let m := cfg.set m node .size (cfg.staticManager i)
    (setSegment { s with mem := m } i ({ · with
      freelist
      blockFreeCount := seg.blockFreeCount - 1 }), node)
  else (s, 0)

def smallMemMalloc (s : HeapState) (size : Nat) : Option (HeapState × Nat) :=
  let (s, result) := popSegment cfg s (if size = sizeof32B then 0 else 1)
  if result ≠ 0 then some (s, result + cfg.header)
  else bigMemMalloc cfg s size dynamicBlockMask

def available (s : HeapState) : Nat :=
  cfg.sub (cfg.sub s.dynamicBuddyEnd s.dynamicBuddyStart) s.activeMemory

def xMalloc (s : HeapState) (size : Nat) : Option (HeapState × Nat) :=
  if size = 0 ∨ size > available cfg s then some (s, 0)
  else
    let size := cfg.alignUp size cfg.memAlign
    if cfg.kernelSmallMemAlloc ∧ size ≤ sizeof32B then smallMemMalloc cfg s sizeof32B
    else if cfg.kernelSmallMemAlloc ∧ size ≤ sizeof64B then smallMemMalloc cfg s sizeof64B
    else do
      let (s, ret) ← bigMemMalloc cfg s size dynamicBlockMask
      if ret ≠ 0 then check cfg (judgeValidAddressRange s (ret - cfg.header))
      some (s, ret)

def xFree (s : HeapState) (pointer : Nat) : Option HeapState :=
  if pointer = 0 then some s
  else do
    check cfg (judgeValidAddressRange s pointer)
    check cfg (mmAllocNode cfg s.mem (pointer - cfg.header))
    if cfg.kernelSmallMemAlloc ∧ cfg.get s.mem (pointer - cfg.header) .flag &&& staticBlockMask ≠ 0
    then smallMemFree cfg s pointer
    else bigMemFree cfg s pointer

def blockSize (s : HeapState) (pointer : Nat) : Option Nat :=
  let node := pointer - cfg.header
  if smallMemTypeAlloc cfg s.mem node then do
    let i ← Fin.find? fun i => cfg.staticManager i = cfg.get s.mem node .size
    some (s.staticManager i).blockSize
  else some (cfg.sub (cfg.get s.mem node .size) cfg.header)

def xRealloc (s : HeapState) (pointer size : Nat) : Option (HeapState × Nat) :=
  if pointer = 0 then xMalloc cfg s size
  else if size = 0 then do
    let s ← xFree cfg s pointer
    some (s, 0)
  else do
    check cfg (judgeValidAddressRange s pointer)
    check cfg (mmAllocNode cfg s.mem (pointer - cfg.header))
    let oldsize ← blockSize cfg s pointer
    let (s, newmem) ← xMalloc cfg s size
    if newmem = 0 then some (s, 0)
    else
      let mem := s.mem.copy newmem pointer (if size > oldsize then oldsize else size)
      let s ← xFree cfg { s with mem } pointer
      some (s, newmem)

def xCalloc (s : HeapState) (count size : Nat) : Option (HeapState × Nat) :=
  let total := count * size % cfg.limit
  if total > available cfg s then some (s, 0)
  else do
    let (s, p) ← xMalloc cfg s total
    some (if p ≠ 0 then { s with mem := s.mem.fill p total 0 } else s, p)

def chainBins (m : Mem) : Nat → Mem
  | 0 => m
  | i + 1 =>
    let m := chainBins m i
    let m := cfg.set m (cfg.freenode i) .next (cfg.freenode (i + 1))
    cfg.set m (cfg.freenode (i + 1)) .prev (cfg.freenode i)

def initBoardMemory (s : HeapState) (startPhyAddress endPhyAddress : Nat) : Option HeapState :=
  let start := cfg.alignUp startPhyAddress cfg.mmPageSize
  let stop := alignDown endPhyAddress cfg.mmPageSize
  let s := { s with dynamicBuddyStart := start, dynamicBuddyEnd := stop }
  if start ≥ stop then some s
  else do
    let m := s.mem.fill cfg.freenodeList (cfg.freeNode * memLinknrs) 0
    let m := chainBins cfg m (memLinknrs - 1)
    let s ← initBuddy cfg { s with mem := m, mmTotalSize := 0 } start (stop - start)
    if cfg.kernelSmallMemAlloc then smallMemInit cfg s else some s

end Xiuos.Kernel
