import Xiuos.Kernel.Ktask
import Xiuos.Lib.Run

/-! The ready tables of `smp_assign.c`: one for each core, and one that all cores share. -/

namespace Xiuos.Kernel.Smp
open Lib Function

structure Config where
  prioMax : Nat
  policy : Policy
  cpuNumbers : Nat

inductive Table
  | os
  | core (coreid : Nat)
  deriving DecidableEq

structure Head where
  table : Table
  prio : Nat
  deriving DecidableEq

structure Task where
  stat : Stat
  curPrio : UInt8
  advanceCnt : UInt8
  restTimeslice : UInt32
  site : BitmapSite
  combinedCoreid : UInt8
  deriving DecidableEq

structure State where
  links : Links (Head ⊕ Nat)
  task : Nat → Task
  vector : Table → OsAssignReadyVector

/-- `UNCOMBINE_CPU_CORE` is the number of cores. -/
def Task.table (cfg : Config) (task : Task) : Table :=
  if task.combinedCoreid.toNat = cfg.cpuNumbers then .os else .core task.combinedCoreid.toNat

def Task.head (cfg : Config) (task : Task) : Head := ⟨task.table cfg, task.curPrio.toNat⟩

def osAssignReadyVectorInit (cfg : Config) (s : State) (table : Table) : State :=
  { s with
    links := (List.range cfg.prioMax).foldl (fun l prio => l.init (.inl ⟨table, prio⟩)) s.links
    vector := update s.vector table .zero }

def tables (cfg : Config) : List Table := .os :: (List.range cfg.cpuNumbers).map .core

def sysInitOsAssign (cfg : Config) (s : State) : State :=
  (tables cfg).foldl (osAssignReadyVectorInit cfg) s

def policyInsert (policy : Policy) (fuel : Nat) (s : State) (t : Nat) (h : Head) :
    Option (Links (Head ⊕ Nat)) :=
  let tail := s.links.insertAfter (s.links.prev (.inl h)) (.inr t)
  match policy with
  | .fifo | .roundRobin => some tail
  | .roundRobinRemain =>
    if (s.task t).advanceCnt < 1 then
      s.links.insertSorted (.inl h) (fun node => match node with
        | .inr tmp => (s.task t).restTimeslice < (s.task tmp).restTimeslice
        | .inl _ => false) (.inr t) fuel
    else some tail

def assignPolicyInsert (cfg : Config) (fuel : Nat) (s : State) (t : Nat) (table : Table) :
    Option State := do
  let prio := (s.task t).curPrio.toNat
  let links ← policyInsert cfg.policy fuel s t ⟨table, prio⟩
  let v := s.vector table
  some { s with
    links
    vector := update s.vector table (if v.highestPrio < prio then { v with highestPrio := prio }
      else v) }

/-- `UncombineInsert` and `ComnbineInsert` are the same for their tables, but for the interrupts that
they send to other cores. -/
def insertInto (cfg : Config) (fuel : Nat) (s : State) (t : Nat) (table : Table) : Option State :=
  let v := mergeFlags cfg.prioMax (s.vector table) (s.task t).site
  assignPolicyInsert cfg fuel { s with vector := update s.vector table v } t table

def uncombineInsert (cfg : Config) (fuel : Nat) (s : State) (t : Nat) : Option State :=
  insertInto cfg fuel s t .os

def comnbineInsert (cfg : Config) (fuel : Nat) (s : State) (t coreid : Nat) : Option State :=
  insertInto cfg fuel s t (.core coreid)

def kTaskInsertToReadyVector (cfg : Config) (fuel : Nat) (s : State) (t : Nat) : Option State :=
  let s := { s with task := update s.task t { s.task t with stat := .ready } }
  let coreid := (s.task t).combinedCoreid.toNat
  if coreid = cfg.cpuNumbers then uncombineInsert cfg fuel s t
    else comnbineInsert cfg fuel s t coreid

def isDoubleLinkListEmpty (s : State) (h : Head) : Bool := s.links.next (.inl h) = .inl h

def uncombineRemove (cfg : Config) (s : State) (t : Nat) : State :=
  if isDoubleLinkListEmpty s ⟨.os, (s.task t).curPrio.toNat⟩ then
    { s with
      vector := update s.vector .os (clearFlags cfg.prioMax (s.vector .os) (s.task t).site) }
  else s

def clearCoreFlags (prioMax : Nat) (os v : OsAssignReadyVector) (site : BitmapSite) :
    OsAssignReadyVector :=
  if 32 < prioMax then
    let ready := update v.readyVector site.offset (v.readyVector site.offset &&& ~~~site.row)
    -- the row of the shared table is read here
    let group := if os.readyVector site.offset = 0 then v.priorityReadyGroup &&& ~~~site.column
      else v.priorityReadyGroup
    let number := prioCaculate group
    ⟨group, ready, number * 8 + prioCaculate (ready ⟨number, prioCaculate_lt _⟩).toUInt32⟩
  else
    let group := v.priorityReadyGroup &&& ~~~site.column
    ⟨group, v.readyVector, prioCaculate group⟩

def combineRemove (cfg : Config) (s : State) (t : Nat) : State :=
  let core := Table.core (s.task t).combinedCoreid.toNat
  if isDoubleLinkListEmpty s ⟨core, (s.task t).curPrio.toNat⟩ then
    { s with
      vector := update s.vector core
        (clearCoreFlags cfg.prioMax (s.vector .os) (s.vector core) (s.task t).site) }
  else s

def kTaskOsAssignRemoveKTask (cfg : Config) (s : State) (t : Nat) : State :=
  let s := { s with links := s.links.remove (.inr t) }
  if (s.task t).combinedCoreid.toNat = cfg.cpuNumbers then uncombineRemove cfg s t
  else combineRemove cfg s t

/-- `none` is what `CONTAINER_OF` makes of the head of an empty list. -/
def chooseTaskWithHighestPrio (s : State) (table : Table) : Option Nat :=
  match s.links.next (.inl ⟨table, (s.vector table).highestPrio⟩) with
  | .inr t => some t
  | .inl _ => none

def smpAssignTargetTaskSelect (s : State) (coreid : Nat) : Option Nat :=
  if (s.vector .os).highestPrio > (s.vector (.core coreid)).highestPrio then
    chooseTaskWithHighestPrio s .os
  else chooseTaskWithHighestPrio s (.core coreid)

def prios (lists : Head → List Nat) (table : Table) : Set Nat := fun p => lists ⟨table, p⟩ ≠ []

lemma mem_prios {lists : Head → List Nat} {table : Table} {p : Nat} :
    p ∈ prios lists table ↔ lists ⟨table, p⟩ ≠ [] := Iff.rfl

def sampleState : State where
  links := { next := id, prev := id }
  task t := {
    stat := .init
    curPrio := (t % 16).toUInt8
    advanceCnt := 0
    restTimeslice := 10
    site := bitmapSiteMask 256 (t % 16).toUInt8 .zero
    combinedCoreid := if t < 16 then 1 else 0 }
  vector _ := .zero

def sampleConfig : Config where
  prioMax := 256
  policy := .roundRobinRemain
  cpuNumbers := 1

end Xiuos.Kernel.Smp
