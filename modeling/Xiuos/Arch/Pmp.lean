import Xiuos.Arch.Mpu

/-! `pmp.c`: the isolation of a task. `x_ubase` is that of the 32-bit RISC-V unless it is given. -/

namespace Xiuos.Arch

structure PmpEntry (α : Type := UInt32) where
  pmpcfg : UInt8
  pmpaddr : α

structure PmpRegionTor (α : Type := UInt32) where
  start : α
  stop : α
  swapCount : UInt16
  regionType : UInt8
  entry0 : PmpEntry α
  entry1 : PmpEntry α

structure Pmp (α : Type := UInt32) where
  count : UInt8
  reserve : UInt8
  pmpEntryReserve : Nat → PmpEntry α
  torList : List (PmpRegionTor α)
  torSwapList : List (PmpRegionTor α)

structure Userspace where
  textStart : UInt32
  textEnd : UInt32
  sramStart : UInt32
  sramEnd : UInt32

def pmpMaxEntryNumber : Nat := 16

def pmpR : UInt8 := 0x01

def pmpW : UInt8 := 0x02

def pmpX : UInt8 := 0x04

def pmpOff : UInt8 := 0x00

def pmpTor : UInt8 := 0x08

def pmpNa4 : UInt8 := 0x10

def pmpTypeMask : UInt8 := 0x18

def pmpTorType : UInt8 := 0

def pmpFlag : RegionType → UInt8
  | .code => pmpR ||| pmpX
  | .data | .bss | .heap => pmpR ||| pmpW
  | .other => 0

section
variable {α : Type} [Add α] [Sub α] [Mul α] [Div α] [ShiftRight α] [OfNat α 1] [OfNat α 2]
variable [OfNat α 4]

def toPmpAddr (addr : α) : α := addr >>> 2

def alignMenUp (size align : α) : α := (size + align - 1) / align * align

def na4Entry (flag : UInt8) (start : α) : PmpEntry α where
  pmpcfg := pmpNa4 ||| flag
  pmpaddr := toPmpAddr start

def torEntry (flag : UInt8) (stop : α) : PmpEntry α where
  pmpcfg := pmpTor ||| flag
  pmpaddr := toPmpAddr (alignMenUp stop 4)

def torRegion (start size : α) (type : RegionType) : PmpRegionTor α where
  start := start
  stop := start + size
  swapCount := 0
  regionType := pmpTorType
  entry0 := na4Entry (pmpFlag type) start
  entry1 := torEntry (pmpFlag type) (start + size)

/-- The insertion at the end of `PmpAddTorRegion`. A full configuration has no result: the link at
the front of `tor_list`, which is the last field of its region, is taken for the region itself, and
memory behind the region for its link. -/
def insertTor (pmp : Pmp α) (region : PmpRegionTor α) : Option (Pmp α) :=
  if pmp.count.toNat ≤ pmpMaxEntryNumber - 2 then
    some { pmp with torList := region :: pmp.torList, count := pmp.count + 2 }
  else none

def pmpAddTorRegion [DecidableEq α] [OfNat α 0] (taskPmp : Option (Pmp α)) (start size : α)
    (type : RegionType) (malloc : Bool) : Option (Pmp α) × Int :=
  match taskPmp with
  | none => (none, -1)
  | some pmp =>
    if size = 0 then (some pmp, 0)
    else if malloc = false then (some pmp, -12)
    else (insertTor pmp (torRegion start size type), 0)

end

def reserveEntries (flag : UInt8) (start stop size : UInt32) : Pmp × Nat → Pmp × Nat
  | (pmp, index) =>
    if size > 0 then
      ({ pmp with
        pmpEntryReserve := Function.update
          (Function.update pmp.pmpEntryReserve index (na4Entry flag start))
          (index + 1) (torEntry flag stop)
        count := pmp.count + 2
        reserve := pmp.reserve + 2 }, index + 2)
    else (pmp, index)

def pmpZero : Pmp where
  count := 0
  reserve := 0
  pmpEntryReserve := fun _ => { pmpcfg := 0, pmpaddr := 0 }
  torList := []
  torSwapList := []

def pmpInitIsolation (user : Userspace) (stackStart stackSize : UInt32) (malloc : Bool) :
    Option Pmp × Int :=
  if malloc = false then (none, -5)
  else
    let p := reserveEntries (pmpR ||| pmpX) user.textStart user.textEnd
      (user.textEnd - user.textStart) (pmpZero, 0)
    let p := reserveEntries (pmpR ||| pmpW) user.sramStart user.sramEnd
      (user.sramEnd - user.sramStart) p
    let p := reserveEntries (pmpR ||| pmpW ||| pmpX) stackStart (stackStart + stackSize)
      stackSize p
    (some p.1, 0)

structure PmpRegisters (α : Type := UInt32) where
  pmpcfg : Fin 4 → α
  pmpaddr : Fin 16 → α

def writePmpcfg {α : Type} (regs : PmpRegisters α) (index : UInt8) (value : α) : PmpRegisters α :=
  if h : index.toNat < 4 then
    { regs with pmpcfg := Function.update regs.pmpcfg ⟨index.toNat, h⟩ value }
  else regs

def writePmpaddr {α : Type} (regs : PmpRegisters α) (index : UInt8) (value : α) : PmpRegisters α :=
  if h : index.toNat < 16 then
    { regs with pmpaddr := Function.update regs.pmpaddr ⟨index.toNat, h⟩ value }
  else regs

def pmpClear : PmpRegisters where
  pmpcfg := fun _ => 0
  pmpaddr := fun _ => 0

def pmpCfgConverse (a b c d : UInt8) : UInt32 :=
  (d.toUInt32 <<< 24) ||| (c.toUInt32 <<< 16) ||| (b.toUInt32 <<< 8) ||| a.toUInt32

structure Loading where
  index : UInt8
  pmpcfg : Fin 16 → UInt8
  regs : PmpRegisters

def loadEntry (l : Loading) (entry : PmpEntry) : Option Loading :=
  if h : l.index.toNat < 16 then
    some {
      index := l.index + 1
      pmpcfg := Function.update l.pmpcfg ⟨l.index.toNat, h⟩ entry.pmpcfg
      regs := writePmpaddr l.regs l.index entry.pmpaddr }
  else none

def loadReserve (pmp : Pmp) (l : Loading) : Option Loading :=
  (List.range pmp.reserve.toNat).foldlM (fun l i => loadEntry l (pmp.pmpEntryReserve i)) l

def loadTorList (pmp : Pmp) (l : Loading) : Option Loading :=
  pmp.torList.foldlM (fun l node => do loadEntry (← loadEntry l node.entry0) node.entry1) l

def loadPmpcfg (l : Loading) : PmpRegisters :=
  let cfg := l.pmpcfg
  let regs := writePmpcfg l.regs 0 (pmpCfgConverse (cfg 0) (cfg 1) (cfg 2) (cfg 3))
  let regs := writePmpcfg regs 1 (pmpCfgConverse (cfg 4) (cfg 5) (cfg 6) (cfg 7))
  let regs := writePmpcfg regs 2 (pmpCfgConverse (cfg 8) (cfg 9) (cfg 10) (cfg 11))
  writePmpcfg regs 3 (pmpCfgConverse (cfg 12) (cfg 13) (cfg 14) (cfg 15))

def pmpLoad (taskPmp : Option Pmp) (regs : PmpRegisters) : Option PmpRegisters :=
  match taskPmp with
  | none => some regs
  | some pmp => do
    let l ← loadReserve pmp { index := 0, pmpcfg := fun _ => 0, regs := pmpClear }
    let l ← loadTorList pmp l
    some (loadPmpcfg l)

inductive Access
  | read
  | write
  | execute

def Access.bit : Access → UInt8
  | .read => pmpR
  | .write => pmpW
  | .execute => pmpX

def PmpEntry.matches (entry : PmpEntry) (prev : UInt32) (word : Nat) : Bool :=
  let addr := entry.pmpaddr.toNat
  let type := entry.pmpcfg &&& pmpTypeMask
  if type = pmpOff then false
  else if type = pmpTor then prev.toNat ≤ word && word < addr
  else if type = pmpNa4 then word = addr
  else word ||| (addr ^^^ (addr + 1)) = addr ||| (addr ^^^ (addr + 1))

def grants : UInt32 → List PmpEntry → Nat → Access → Bool
  | _, [], _, _ => false
  | prev, entry :: entries, word, access =>
    if entry.matches prev word then entry.pmpcfg &&& access.bit ≠ 0
    else grants entry.pmpaddr entries word access

def PmpRegisters.cfg (regs : PmpRegisters) (i : Fin 16) : UInt8 :=
  (regs.pmpcfg ⟨i / 4, by omega⟩ >>> UInt32.ofNat (8 * (i % 4))).toUInt8

def PmpRegisters.entries (regs : PmpRegisters) : List PmpEntry :=
  List.ofFn fun i => { pmpcfg := regs.cfg i, pmpaddr := regs.pmpaddr i }

def PmpRegisters.Grants (regs : PmpRegisters) (word : Nat) (access : Access) : Prop :=
  grants 0 regs.entries word access

structure Region where
  start : UInt32
  size : UInt32
  flag : UInt8
  flag_lt : flag.toNat < 8

def Region.entries (r : Region) : List PmpEntry :=
  [na4Entry r.flag r.start, torEntry r.flag (r.start + r.size)]

def Region.Aligned (r : Region) : Prop :=
  r.start.toNat % 4 = 0 ∧ r.size.toNat % 4 = 0 ∧ r.start.toNat + r.size.toNat ≤ 2 ^ 32

def Region.Contains (r : Region) (word : Nat) : Prop :=
  r.start.toNat ≤ 4 * word ∧ 4 * word + 4 ≤ r.start.toNat + r.size.toNat

def Region.Disjoint (r r' : Region) : Prop := ∀ word, ¬ (r.Contains word ∧ r'.Contains word)

def Region.Allows (r : Region) (access : Access) : Prop := r.flag &&& access.bit ≠ 0

instance (r : Region) : Decidable r.Aligned := inferInstanceAs (Decidable (_ ∧ _ ∧ _))

instance (r : Region) (word : Nat) : Decidable (r.Contains word) :=
  inferInstanceAs (Decidable (_ ∧ _))

instance (r : Region) (access : Access) : Decidable (r.Allows access) :=
  inferInstanceAs (Decidable (_ ≠ _))

def regionIf (start size : UInt32) (flag : UInt8) (h : flag.toNat < 8) : List Region :=
  if size > 0 then [{ start := start, size := size, flag := flag, flag_lt := h }] else []

def reservedRegions (user : Userspace) (stackStart stackSize : UInt32) : List Region :=
  regionIf user.textStart (user.textEnd - user.textStart) (pmpR ||| pmpX) (by decide) ++
    regionIf user.sramStart (user.sramEnd - user.sramStart) (pmpR ||| pmpW) (by decide) ++
    regionIf stackStart stackSize (pmpR ||| pmpW ||| pmpX) (by decide)

structure AddTor where
  start : UInt32
  size : UInt32
  type : RegionType
  malloc : Bool

def AddTor.region (add : AddTor) : List Region :=
  if add.malloc then
    regionIf add.start add.size (pmpFlag add.type) (by cases add.type <;> decide)
  else []

def taskRegions (user : Userspace) (stackStart stackSize : UInt32) (adds : List AddTor) :
    List Region :=
  reservedRegions user stackStart stackSize ++ adds.flatMap AddTor.region

def addTor (pmp : Option Pmp) (add : AddTor) : Option Pmp :=
  (pmpAddTorRegion pmp add.start add.size add.type add.malloc).1

def pmpTask (user : Userspace) (stackStart stackSize : UInt32) (malloc : Bool)
    (adds : List AddTor) : Option Pmp :=
  adds.foldl addTor (pmpInitIsolation user stackStart stackSize malloc).1

end Xiuos.Arch
