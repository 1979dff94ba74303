import Xiuos.Kernel.Bitmap
import Xiuos.Lib.Ring

/-! Tasks and the scheduler of a single core: `assign.c`, `assignstat.c` and the critical sections of
`ktask.c`, `delay.c` and `linklist.c`. `none` is a call that does not return. -/

namespace Xiuos.Kernel
open Lib

def eok : Int := 0

def error : Int := 1

def etimeout : Int := 2

def eempty : Int := 4

def enomemory : Int := 5

def einvaled : Int := 10

inductive Policy
  | fifo
  | roundRobin
  | roundRobinRemain
  deriving DecidableEq

/-- On RISC-V the switch itself stores the running task, on ARM the handler of PendSV does. -/
inductive Arch
  | riscv
  | arm
  deriving DecidableEq

structure Config where
  prioMax : Nat
  policy : Policy
  arch : Arch
  zombieRecycle : Nat

inductive Stat
  | init
  | ready
  | suspend
  | running
  | close
  deriving DecidableEq

structure Delay where
  ticks : UInt32
  active : Bool
  deriving DecidableEq

structure Task where
  name : String
  originPrio : UInt8
  stat : Stat
  advanceCnt : UInt8
  curPrio : UInt8
  originTimeslice : UInt32
  restTimeslice : UInt32
  site : BitmapSite
  exstatus : Int
  delay : Option Delay
  deriving DecidableEq

/-- List heads: the ready list of a priority, `KTaskZombie`, the pend list of an object and
`xiaoshan_delay_head`. -/
inductive Head
  | ready (prio : Nat)
  | zombie
  | pend (list : Nat)
  | delay
  deriving DecidableEq

/-- List nodes: `sched_link` of a task, and `link` of its delay record. -/
inductive Node
  | sched (task : Nat)
  | delay (task : Nat)
  deriving DecidableEq

structure State where
  links : Links (Head ⊕ Node)
  task : Nat → Task
  vector : OsAssignReadyVector
  osRunningTask : Option Nat
  interruptTo : Option Nat
  currentPriority : UInt8
  switchTriger : Bool

namespace State

def modifyTask (s : State) (t : Nat) (f : Task → Task) : State :=
  { s with task := Function.update s.task t (f (s.task t)) }

def kTaskStateSet (s : State) (t : Nat) (stat : Stat) : State :=
  s.modifyTask t ({ · with stat })

def doubleLinkListRmNode (s : State) (n : Node) : State :=
  { s with links := s.links.remove (.inr n) }

def insertNodeAfter (s : State) (a : Head ⊕ Node) (n : Node) : State :=
  { s with links := s.links.insertAfter a (.inr n) }

def insertNodeBefore (s : State) (a : Head ⊕ Node) (n : Node) : State :=
  { s with links := s.links.insertBefore a (.inr n) }

def isDoubleLinkListEmpty (s : State) (h : Head) : Bool := s.links.next (.inl h) = .inl h

end State

def osAssignReadyVectorInit (cfg : Config) (s : State) : State :=
  { s with
    links := (List.range cfg.prioMax).foldl (fun l prio => l.init (.inl (.ready prio))) s.links
    vector := .zero }

def insertTail (s : State) (h : Head) (n : Node) : State :=
  s.insertNodeAfter (s.links.prev (.inl h)) n

def insertSorted (fuel : Nat) (s : State) (h : Head) (p : Head ⊕ Node → Bool) (n : Node) :
    Option State := do
  let node ← s.links.find (.inl h) p fuel (s.links.next (.inl h))
  some (if node ≠ .inl h then s.insertNodeBefore node n else insertTail s h n)

def fifoReadyVectorInsert (s : State) (t : Nat) : State :=
  insertTail s (.ready (s.task t).curPrio.toNat) (.sched t)

def roundRobinReadyVectorInsert (s : State) (t : Nat) : State :=
  insertTail s (.ready (s.task t).curPrio.toNat) (.sched t)

def roundRobinRemainReadyVectorInsert (fuel : Nat) (s : State) (t : Nat) : Option State :=
  let h := Head.ready (s.task t).curPrio.toNat
  if (s.task t).advanceCnt < 1 then
    insertSorted fuel s h (fun node => match node with
      | .inr (.sched tmp) => (s.task t).restTimeslice < (s.task tmp).restTimeslice
      | _ => false) (.sched t)
  else some (insertTail s h (.sched t))

def policyInsert (policy : Policy) (fuel : Nat) (s : State) (t : Nat) : Option State :=
  match policy with
  | .fifo => some (fifoReadyVectorInsert s t)
  | .roundRobin => some (roundRobinReadyVectorInsert s t)
  | .roundRobinRemain => roundRobinRemainReadyVectorInsert fuel s t

def assignPolicyInsert (cfg : Config) (fuel : Nat) (s : State) (t : Nat) : Option State := do
  let s ← policyInsert cfg.policy fuel s t
  some { s with
    vector := if s.vector.highestPrio < (s.task t).curPrio.toNat then
        { s.vector with highestPrio := (s.task t).curPrio.toNat }
      else s.vector }

def kTaskInsertToReadyVector (cfg : Config) (fuel : Nat) (s : State) (t : Nat) : Option State := do
  let s ← assignPolicyInsert cfg fuel (s.kTaskStateSet t .ready) t
  some { s with vector := mergeFlags cfg.prioMax s.vector (s.task t).site }

def kTaskOsAssignRemoveKTask (cfg : Config) (s : State) (t : Nat) : State :=
  let s := s.doubleLinkListRmNode (.sched t)
  if s.isDoubleLinkListEmpty (.ready (s.task t).curPrio.toNat) then
    { s with vector := clearFlags cfg.prioMax s.vector (s.task t).site }
  else s

def chooseTaskWithHighestPrio (s : State) : Option Nat :=
  match s.links.next (.inl (.ready s.vector.highestPrio)) with
  | .inr (.sched t) => some t
  | _ => none

def switchKtaskContext (cfg : Config) (s : State) (t : Nat) : State :=
  match cfg.arch with
  | .riscv => { s with osRunningTask := some t }
  | .arm => { s with interruptTo := some t }

def switchTask (cfg : Config) (fuel : Nat) (s : State) (newTask fromTask : Nat)
    (needInsert : Bool) : Option State :=
  if newTask ≠ fromTask then do
    let s := { s with currentPriority := s.vector.highestPrio.toUInt8 }
    let s ← if needInsert then kTaskInsertToReadyVector cfg fuel s fromTask else some s
    let s := (kTaskOsAssignRemoveKTask cfg s newTask).kTaskStateSet newTask .running
    some (switchKtaskContext cfg s newTask)
  else some ((kTaskOsAssignRemoveKTask cfg s fromTask).kTaskStateSet fromTask .running)

def assignHighest (cfg : Config) (fuel : Nat) (s : State) : Option State :=
  if s.vector.priorityReadyGroup = 0 then some s
  else do
    let newTask ← chooseTaskWithHighestPrio s
    let fromTask ← s.osRunningTask
    if (s.task fromTask).stat ≠ .running then switchTask cfg fuel s newTask fromTask false
    else if s.vector.highestPrio < (s.task fromTask).curPrio.toNat then some s
    else switchTask cfg fuel s newTask fromTask true

def kTaskOsAssign (cfg : Config) (fuel lockLevel : Nat) (inIsr : Bool) (s : State) :
    Option State :=
  if lockLevel ≥ 1 then some s
  else if inIsr then some { s with switchTriger := true }
  else assignHighest cfg fuel s

def kTaskOsAssignDoIrqSwitch (cfg : Config) (fuel lockLevel : Nat) (s : State) : Option State :=
  if lockLevel ≥ 1 then some s
  else if !s.switchTriger then some s
  else assignHighest cfg fuel { s with switchTriger := false }

def yieldTo (cfg : Config) (s : State) (newTask fromTask highestPrio : Nat) : State :=
  if newTask ≠ fromTask then
    let s := { s with currentPriority := highestPrio.toUInt8 }
    let s := (kTaskOsAssignRemoveKTask cfg s newTask).kTaskStateSet newTask .running
    switchKtaskContext cfg s newTask
  else (kTaskOsAssignRemoveKTask cfg s fromTask).kTaskStateSet fromTask .running

def yieldOsAssign (cfg : Config) (fuel lockLevel : Nat) (inIsr : Bool) (s : State) :
    Option (State × Int) :=
  if lockLevel ≥ 1 then some (s, eok)
  else if inIsr then some (s, eok)
  else if s.vector.priorityReadyGroup = 0 then some (s, -error)
  else do
    let highestPrio := s.vector.highestPrio
    let newTask ← chooseTaskWithHighestPrio s
    let fromTask ← s.osRunningTask
    let s ← if (s.task fromTask).stat ≠ .running then some s
      else kTaskInsertToReadyVector cfg fuel s fromTask
    some (yieldTo cfg s newTask fromTask highestPrio, eok)

def startupOsAssign (cfg : Config) (s : State) : Option State := do
  let t ← chooseTaskWithHighestPrio s
  let s := { s with osRunningTask := some t }
  let s := (kTaskOsAssignRemoveKTask cfg s t).kTaskStateSet t .running
  some (switchKtaskContext cfg s t)

def updateRunningTask (s : State) : State := { s with osRunningTask := s.interruptTo }

def kTaskUnSetDelay (s : State) (t : Nat) : State :=
  match (s.task t).delay with
  | some ⟨ticks, true⟩ =>
    (s.modifyTask t ({ · with delay := some ⟨ticks, false⟩ })).doubleLinkListRmNode (.delay t)
  | _ => s

def kTaskSetDelay (fuel : Nat) (s : State) (t : Nat) (now ticks : UInt32) (alloc : Bool) :
    Option (State × Int) :=
  if (s.task t).delay = none ∧ !alloc then some (s, -enomemory)
  else do
    let s := kTaskUnSetDelay s t
    let s := s.modifyTask t ({ · with delay := some ⟨now + ticks, true⟩ })
    let later := fun node => match node with
      | .inr (.delay tmp) => match (s.task tmp).delay with
        | some d => now + ticks < d.ticks
        | none => false
      | _ => false
    let node ← s.links.find (.inl .delay) later fuel (s.links.next (.inl .delay))
    some (s.insertNodeBefore node (.delay t), eok)

def suspendKTask (cfg : Config) (s : State) (t : Nat) : State × Int :=
  if s.osRunningTask ≠ some t then (s, -error)
  else if (s.task t).stat ≠ .ready ∧ (s.task t).stat ≠ .running then (s, -error)
  else
    let s := kTaskOsAssignRemoveKTask cfg s t
    (kTaskUnSetDelay (s.kTaskStateSet t .suspend) t, eok)

def kTaskWakeup (cfg : Config) (fuel : Nat) (s : State) (t : Nat) : Option (State × Int) :=
  if (s.task t).stat ≠ .suspend then some (s, -error)
  else do
    let s := kTaskUnSetDelay (s.doubleLinkListRmNode (.sched t)) t
    let s ← kTaskInsertToReadyVector cfg fuel s t
    some (s, eok)

def kTaskTimeout (cfg : Config) (fuel : Nat) (s : State) (t : Nat) : Option State :=
  if (s.task t).stat = .suspend then
    let s := s.modifyTask t ({ · with exstatus := -etimeout })
    kTaskInsertToReadyVector cfg fuel (s.doubleLinkListRmNode (.sched t)) t
  else some s

def startupKTask (cfg : Config) (fuel : Nat) (s : State) (t : Nat) : Option (State × Int) :=
  if (s.task t).stat ≠ .init then some (s, -error)
  else do
    let s := s.modifyTask t fun task => { task with
      curPrio := task.originPrio
      site := bitmapSiteMask cfg.prioMax task.originPrio task.site }
    let s := kTaskUnSetDelay (s.doubleLinkListRmNode (.sched t)) t
    let s ← kTaskInsertToReadyVector cfg fuel s t
    some (s, eok)

/-- `_KTaskResourceDelete`, and the entry into the list of zombies. -/
def deleteResource (cfg : Config) (fuel : Nat) (s : State) (t : Nat) : Option State := do
  let s := (kTaskOsAssignRemoveKTask cfg s t).kTaskStateSet t .close
  let s := s.insertNodeAfter (.inl .zombie) (.sched t)
  if !s.isDoubleLinkListEmpty .zombie then
    let (s, _) ← kTaskWakeup cfg fuel s cfg.zombieRecycle
    some s
  else some s

def isIdleOrZombierecycle (name : String) : Bool :=
  "ktaskidle0".isPrefixOf name || "ktaskidle1".isPrefixOf name ||
    "ZombieRecycleKTask".isPrefixOf name

def deleteKTask (cfg : Config) (fuel : Nat) (s : State) (t : Nat) : Option (State × Int) :=
  if isIdleOrZombierecycle (s.task t).name then some (s, -einvaled)
  else do
    let s ← deleteResource cfg fuel s t
    some (s, eok)

def kTaskQuit (cfg : Config) (fuel : Nat) (s : State) : Option State :=
  match s.osRunningTask with
  | none => some s
  | some t => deleteResource cfg fuel s t

def delayKTask (cfg : Config) (fuel : Nat) (s : State) (now ticks : UInt32) (alloc : Bool) :
    Option (State × Int) :=
  if ticks = 0 then some (s, -einvaled)
  else match s.osRunningTask with
    | none => some (s, -eempty)
    | some t => do
      let (s, _) ← kTaskSetDelay fuel (suspendKTask cfg s t).1 t now ticks alloc
      some (s, eok)

inductive LinklistFlag
  | fifo
  | prio
  | other
  deriving DecidableEq

def linklistSuspend (cfg : Config) (fuel : Nat) (s : State) (list t : Nat) (flag : LinklistFlag) :
    Option (State × Int) :=
  let s := (suspendKTask cfg s t).1
  match flag with
  | .fifo => some (s.insertNodeBefore (.inl (.pend list)) (.sched t), eok)
  | .prio => do
    let s ← insertSorted fuel s (.pend list) (fun node => match node with
      | .inr (.sched tmp) => (s.task t).curPrio < (s.task tmp).curPrio
      | _ => false) (.sched t)
    some (s, eok)
  | .other => some (s, -einvaled)

def suspendFront (cfg : Config) (s : State) (list t : Nat) : State :=
  (suspendKTask cfg s t).1.insertNodeAfter (.inl (.pend list)) (.sched t)

def linklistResume (cfg : Config) (fuel : Nat) (s : State) (list : Nat) : Option (State × Int) :=
  match s.links.next (.inl (.pend list)) with
  | .inr (.sched t) => do
    let (s, _) ← kTaskWakeup cfg fuel s t
    some (s, eok)
  | _ => none

/-- A loop over the tasks of a list that goes to the next node before it works on one. -/
def forEachPend {σ : Type} (list : Nat) (body : State → σ → Nat → Option (State × σ)) :
    Nat → Head ⊕ Node → State → σ → Option (State × σ)
  | 0, _, _, _ => none
  | fuel + 1, n, s, x =>
    if n = .inl (.pend list) then some (s, x)
    else match n with
      | .inr (.sched t) => do
        let next := s.links.next n
        let (s, x) ← body s x t
        forEachPend list body fuel next s x
      | _ => none

def expireDelay (cfg : Config) (fuel : Nat) (s : State) (t : Nat) : Option State :=
  kTaskTimeout cfg fuel (kTaskUnSetDelay s t) t

/-- A switch to any ready task, in the place of the one that the scheduler chooses. -/
def dispatch (cfg : Config) (fuel : Nat) (s : State) (newTask : Nat) : Option State := do
  let s ← match s.osRunningTask with
    | some fromTask => switchTask cfg fuel s newTask fromTask ((s.task fromTask).stat = .running)
    | none => some ((kTaskOsAssignRemoveKTask cfg s newTask).kTaskStateSet newTask .running)
  some { s with osRunningTask := some newTask }

def isIdle (name : String) : Bool := "ktaskidle".isPrefixOf name

def State.bitmapSiteMask (cfg : Config) (s : State) (t : Nat) : State :=
  s.modifyTask t fun task => { task with
    site := Kernel.bitmapSiteMask cfg.prioMax task.curPrio task.site }

def kTaskPrioSet (cfg : Config) (fuel : Nat) (s : State) (t : Nat) (prio : UInt8) :
    Option (State × Int) :=
  if isIdle (s.task t).name then some (s, -error)
  else match (s.task t).stat with
    | .ready => do
      -- the priority is changed before the task leaves the list and the mask of its old one
      let s := s.modifyTask t ({ · with curPrio := prio })
      let s := (kTaskOsAssignRemoveKTask cfg s t).bitmapSiteMask cfg t
      let s ← kTaskInsertToReadyVector cfg fuel s t
      some (s, eok)
    | .init | .suspend | .running =>
      some ((s.modifyTask t ({ · with curPrio := prio })).bitmapSiteMask cfg t, eok)
    | .close => some (s, eok)

def timesliceUpdate (cfg : Config) (s : State) : State :=
  match cfg.policy, s.osRunningTask with
  | .roundRobin, some t => s.modifyTask t fun task => { task with
      restTimeslice := if task.restTimeslice - 1 = 0 then task.originTimeslice
        else task.restTimeslice - 1 }
  | .roundRobinRemain, some t => s.modifyTask t fun task => { task with
      advanceCnt := if task.restTimeslice - 1 = 0 ∧ task.advanceCnt < 1 then task.advanceCnt + 1
        else task.advanceCnt
      restTimeslice := if task.restTimeslice - 1 = 0 then task.originTimeslice
        else task.restTimeslice - 1 }
  | _, _ => s

end Xiuos.Kernel
