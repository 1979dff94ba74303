import Xiuos.Kernel.Delay
import Xiuos.Kernel.Id

/-! `softtimer.c`: the timers and the list that they are sorted in. -/

namespace Xiuos.Kernel
open Lib Function

def timerTriggerPeriodic : UInt8 := 2

structure Timer where
  activeStatus : Bool
  triggerMode : UInt8
  originTimeslice : UInt32
  deadlineTimeslice : UInt32
  /-- the pointers of `sortlist` are still zero -/
  zero : Bool

def Timer.cleared : Timer where
  activeStatus := false
  triggerMode := 0
  originTimeslice := 0
  deadlineTimeslice := 0
  zero := true

structure Timers where
  manager : IdManager
  live : List Nat
  timer : Nat → Timer
  sort : Links (Unit ⊕ Nat)
  tick : UInt32
  /-- a pointer that is null or leads to freed memory has been used -/
  fault : Bool

namespace Timers

def boot (idMax hoffset : UInt16) (tick : UInt32) : Timers where
  manager := .declare idMax hoffset
  live := []
  timer _ := .cleared
  sort := { next := id, prev := id }
  tick
  fault := false

variable (s : Timers) (t : Nat)

def modify (s : Timers) (t : Nat) (f : Timer → Timer) : Timers :=
  { s with timer := update s.timer t (f (s.timer t)) }

def fail (s : Timers) : Timers := { s with fault := true }

def rmSortlist (s : Timers) (t : Nat) : Timers :=
  if (s.timer t).zero then s.fail else { s with sort := s.sort.remove (.inr t) }

def init (s : Timers) (t : Nat) (time : UInt32) (triggerMode : UInt8) : Timers :=
  s.modify t fun timer => { timer with
    triggerMode
    activeStatus := false
    deadlineTimeslice := 0
    originTimeslice := time }

def delete (s : Timers) (t : Nat) : Timers :=
  let s := s.rmSortlist t
  { s with live := s.live.erase t }

def later (s : Timers) (deadline : UInt32) : Unit ⊕ Nat → Bool
  | .inr u => deadline < (s.timer u).deadlineTimeslice
  | .inl _ => false

def startRun (debug : Bool) (fuel : Nat) (s : Timers) (t : Nat) : Option Timers :=
  let s := s.modify t ({ · with activeStatus := false })
  if debug ∧ ¬ (s.timer t).originTimeslice < tickHalf then none
  else do
    let s := s.modify t fun timer => { timer with
      deadlineTimeslice := s.tick + timer.originTimeslice
      activeStatus := true }
    let node ← s.sort.find (.inl ()) (s.later (s.timer t).deadlineTimeslice) fuel
      (s.sort.next (.inl ()))
    let s := s.modify t ({ · with zero := false })
    some { s with sort := s.sort.insertBefore node (.inr t) }

def quitRun (s : Timers) (t : Nat) : Timers :=
  if (s.timer t).activeStatus then
    let s := s.modify t ({ · with activeStatus := false, deadlineTimeslice := 0 })
    s.rmSortlist t
  else s

def setTimeslice (s : Timers) (t : Nat) (ticks : UInt32) : Timers :=
  if ticks = 0 then s else s.modify t ({ · with originTimeslice := ticks })

def clear (s : Timers) (t : Nat) : Timers :=
  { s with
    manager := s.manager.clear t
    timer := update s.timer t .cleared
    sort := s.sort.init (.inr t) }

lemma clear_idInsertObj :
    (s.clear t).manager.idInsertObj (t :: (s.clear t).live) t =
      (s.manager.clear t).idInsertObj (t :: s.live) t := rfl

def kCreateTimer (s : Timers) (mem : Option Nat) (time : UInt32) (triggerMode : UInt8) :
    Timers × Int32 :=
  match mem with
  | none => (s, 0)
  | some t =>
    let s := s.clear t
    match s.manager.idInsertObj (t :: s.live) t with
    | .full => (s, 0)
    | .freed => (s.fail, 0)
    | .done manager id => ({ s with manager, live := t :: s.live }.init t time triggerMode,
        id.toUInt32.toInt32)

def kGetTimer (fuel : Nat) (s : Timers) (id : Int32) : Option Found :=
  s.manager.idGetObj s.live fuel id.toUInt32.toUInt16

def call (fuel : Nat) (s : Timers) (id : Int32) (f : Nat → Option Timers) : Option Timers := do
  match ← s.kGetTimer fuel id with
  | .object t => f t
  | .missing | .freed => some s.fail

def kTimerAssignMemberRun (debug : Bool) (fuel : Nat) (s : Timers) (id : Int32) (ticks : UInt32) :
    Option Timers := do
  match ← s.kGetTimer fuel id with
  | .object t => if ticks = 0 then some s else startRun debug fuel (s.setTimeslice t ticks) t
  | .missing => if debug then none else if ticks = 0 then some s else some s.fail
  | .freed => some s.fail

/-- Behind the message about a timer that is not active the loop goes on with the same timer. -/
def checkTimerList (debug : Bool) : Nat → Timers → Option Timers
  | 0, _ => none
  | fuel + 1, s =>
    match s.sort.next (.inl ()) with
    | .inl _ => some s
    | .inr t =>
      if reached s.tick (s.timer t).deadlineTimeslice then
        if (s.timer t).activeStatus then
          let s := s.rmSortlist t
          if (s.timer t).triggerMode = timerTriggerPeriodic then do
            let s ← startRun debug fuel s t
            checkTimerList debug fuel s
          else checkTimerList debug fuel (s.quitRun t)
        else checkTimerList debug fuel s
      else some s

end Timers

inductive TimerOp
  | create (mem : Option Nat) (time : UInt32) (triggerMode : UInt8)
  | startRun (id : Int32)
  | quitRun (id : Int32)
  | modify (id : Int32) (ticks : UInt32)
  | assignMemberRun (id : Int32) (ticks : UInt32)
  | delete (id : Int32)
  | tick

def timerStep (debug : Bool) (fuel : Nat) (s : Timers) (op : TimerOp) : Option Timers :=
  if s.fault then none
  else match op with
    | .create mem time triggerMode =>
      if ∀ t ∈ mem, t ∉ s.live then some (s.kCreateTimer mem time triggerMode).1 else none
    | .startRun id => s.call fuel id (s.startRun debug fuel)
    | .quitRun id => s.call fuel id fun t => some (s.quitRun t)
    | .modify id ticks => s.call fuel id fun t => some (s.setTimeslice t ticks)
    | .assignMemberRun id ticks => s.kTimerAssignMemberRun debug fuel id ticks
    | .delete id => s.call fuel id fun t => some (s.delete t)
    | .tick => { s with tick := s.tick + 1 }.checkTimerList debug fuel

end Xiuos.Kernel
