import Xiuos.Kernel.World

/-! `event.c`: the critical sections of `_EventTrigger` and `_EventProcess`. -/

namespace Xiuos.Kernel
open Lib Function Option

def eventEventsMask : BitVec 32 := 0x1fffffff

def eventOptionsMask : BitVec 32 := 0x7

def eventAnd : BitVec 32 := 1

def eventOr : BitVec 32 := 2

def eventAutoclean : BitVec 32 := 4

structure Event where
  options : BitVec 3
  events : BitVec 29
  deriving DecidableEq

def Event.flag (event : Event) : LinklistFlag :=
  if event.options = 0 then .fifo else if event.options = 1 then .prio else .other

structure EventWait where
  idTrigger : BitVec 29
  mode : BitVec 3
  deriving DecidableEq

structure Events where
  event : Nat → Event
  wait : Nat → EventWait
  processed : Nat → BitVec 32
  ret : Nat → Option Int

namespace Events

def setEvents (o : Events) (m : Nat) (events : BitVec 29) : Events :=
  { o with event := update o.event m { o.event m with events } }

def setWait (o : Events) (t : Nat) (wait : EventWait) : Events :=
  { o with wait := update o.wait t wait }

def report (o : Events) (t : Nat) (processed : BitVec 32) : Events :=
  { o with processed := update o.processed t processed }

def setRet (o : Events) (t : Nat) (ret : Option Int) : Events :=
  { o with ret := update o.ret t ret }

end Events

section
variable {κ : Type} (k : Sched κ)

/-- `CHECK(0)` is empty without `KERNEL_DEBUG`: a call with neither of the two options goes on. -/
def eventMet (events wanted options : BitVec 32) : Bool :=
  if options &&& eventAnd ≠ 0 then events &&& wanted = wanted
  else if options &&& eventOr ≠ 0 then events &&& wanted ≠ 0
  else false

def eventProcess (kernel : κ) (o : Events) (m t : Nat) (events options : BitVec 32)
    (waitTime : Int32) (now : UInt32) (alloc : Bool) : Option (κ × Events × Outcome) :=
  if events = 0 then some (kernel, o, .returned (-error))
  else
    let kernel := k.setExstatus kernel t eok
    let old := (o.event m).events.setWidth 32
    if eventMet old events options then
      let o := o.report t (old &&& events)
      let o := if options &&& eventAutoclean ≠ 0 then
        o.setEvents m ((old &&& ~~~events).setWidth 29) else o
      some (kernel, o, .returned eok)
    else if waitTime = 0 then
      some (k.setExstatus kernel t (-etimeout), o, .returned (-etimeout))
    else
      let o := o.setWait t {
        idTrigger := (events &&& eventEventsMask).setWidth 29
        mode := (options &&& eventOptionsMask).setWidth 3 }
      do
        let kernel ← k.linklistSuspend kernel m t (o.event m).flag
        let kernel ← k.startTimer kernel t waitTime now alloc
        some (kernel, o, .suspended)

def eventHit (mode idTrigger events : BitVec 32) : Option (BitVec 32) :=
  if mode &&& eventAnd ≠ 0 then if idTrigger &&& events = idTrigger then some idTrigger else none
  else if mode &&& eventOr ≠ 0 then
    if idTrigger &&& events ≠ 0 then some (idTrigger &&& events) else none
  else none

def eventWake (m : Nat) (kernel : κ) (r : Events × List Nat) (t : Nat) :
    Option (κ × Events × List Nat) :=
  let (o, woken) := r
  let mode := (o.wait t).mode.setWidth 32
  let events := (o.event m).events.setWidth 32
  match eventHit mode ((o.wait t).idTrigger.setWidth 32) (events &&& eventEventsMask) with
  | none => some (kernel, o, woken)
  | some idTrigger => do
    let o := o.setWait t { o.wait t with idTrigger := idTrigger.setWidth 29 }
    let o := if mode &&& eventAutoclean ≠ 0 then
      o.setEvents m ((events &&& ~~~(o.wait t).idTrigger.setWidth 32).setWidth 29) else o
    let kernel ← k.kTaskWakeup kernel t
    some (kernel, o, woken ++ [t])

def eventTrigger (kernel : κ) (o : Events) (m : Nat) (events : BitVec 32) :
    Option (κ × Events × List Nat × Int) :=
  if events = 0 then some (kernel, o, [], -error)
  else
    let o := o.setEvents m (((o.event m).events.setWidth 32 ||| events).setWidth 29)
    match k.first kernel m with
    | none => some (kernel, o, [], eok)
    | some _ => do
      let (kernel, o, woken) ← k.forEachPend kernel m (eventWake k m) (o, [])
      some (kernel, o, woken, eok)

def eventFinish (o : Events) (t : Nat) (exstatus : Int) : Events :=
  if exstatus ≠ eok then o.setRet t (some exstatus)
  else (o.report t ((o.wait t).idTrigger.setWidth 32)).setRet t (some exstatus)

inductive EventOp
  | process (m : Nat) (events options : BitVec 32) (waitTime : Int32) (now : UInt32) (alloc : Bool)
  | finish
  | trigger (m : Nat) (events : BitVec 32)
  deriving DecidableEq

def eventProcessed (w : World κ Events) (m t : Nat) : Outcome → World κ Events
  | .returned ret => { w with obj := w.obj.setRet t (some ret) }
  | .suspended => { w with obj := w.obj.setRet t none }.setCall t (some (m, false))

def eventWoken (w : World κ Events) (m : Nat) (woken : List Nat) : World κ Events :=
  woken.foldl (fun w u => w.setCall u (some (m, true))) w

def eventAct (w : World κ Events) : EventOp → Option (World κ Events)
  | .process m events options waitTime now alloc => do
    let t ← w.caller k
    let (kernel, obj, outcome) ←
      eventProcess k w.kernel w.obj m t events options waitTime now alloc
    some (eventProcessed { w with kernel, obj } m t outcome)
  | .finish => do
    let (t, _) ← w.waker k
    some ({ w with obj := eventFinish w.obj t (k.task w.kernel t).exstatus }.setCall t none)
  | .trigger m events => do
    let (kernel, obj, woken, _) ← eventTrigger k w.kernel w.obj m events
    some (eventWoken { w with kernel, obj } m woken)

def eventStep (w : World κ Events) (op : WorldOp EventOp) : Option (World κ Events) :=
  w.step k (eventAct k) op

end

variable {cfg : Config} {s : State} {v : View} {t : Nat}

section
variable (hs : Sim s v)
include hs

lemma Sim.eventProcess (ht : (viewSched cfg).caller v = some t) (o : Events) (m : Nat)
    (events options : BitVec 32) (waitTime : Int32) (now : UInt32) (alloc : Bool) :
    Follows (fun fuel => Kernel.eventProcess (stateSched cfg fuel) s o m t events options waitTime
        now alloc)
      (Kernel.eventProcess (viewSched cfg) v o m t events options waitTime now alloc)
      fun r r' => Sim r.1 r'.1 ∧ r.2 = r'.2 := by
  obtain ⟨hcur, hstat⟩ := Sim.of_caller ht
  simp only [Kernel.eventProcess, stateSched_setExstatus, viewSched_setExstatus]
  by_cases he : events = 0
  · simp only [he, if_true]
    exact .pure ⟨hs, rfl⟩
  simp only [he, if_false]
  have hs' := hs.setExstatus t eok
  match eventMet ((o.event m).events.setWidth 32) events options with
  | true => exact .pure ⟨hs', rfl⟩
  | false =>
    simp only [bind_eq_bind, Bool.false_eq_true, if_false]
    by_cases hw : waitTime = 0
    · simp only [hw, if_true]
      exact .pure ⟨hs'.setExstatus t _, rfl⟩
    simp only [hw, if_false, View.startTimer_eq, viewSched_linklistSuspend, bind_some]
    refine Returns.bind (hs'.suspends hcur ?_ m _) fun s₁ hs₁ => ?_
    · simpa using hstat
    refine (hs₁.startTimer ?_ waitTime now alloc).bind fun s₂ hs₂ => .pure ⟨hs₂, rfl⟩
    simp [View.suspend_stat]

lemma Sim.eventWake (m : Nat) (r : Events × List Nat) (t : Nat) :
    Follows (fun fuel => Kernel.eventWake (stateSched cfg fuel) m s r t)
      (Kernel.eventWake (viewSched cfg) m v r t) fun r r' => Sim r.1 r'.1 ∧ r.2 = r'.2 := by
  simp only [Kernel.eventWake]
  split
  · exact .pure ⟨hs, rfl⟩
  · exact (hs.wakes t).bind fun s₁ v₁ _ hs₁ => .pure ⟨hs₁, rfl⟩

lemma Sim.eventWake_pend {m : Nat} {r r' : Events × List Nat} {v' : View} (hmem : t ∈ v.pend m)
    (h : Kernel.eventWake (viewSched cfg) m v r t = some (v', r')) :
    v'.pend m = v.pend m ∨ v'.pend m = (v.pend m).erase t := by
  simp only [Kernel.eventWake] at h
  split at h
  · cases h
    exact .inl rfl
  · have hstat := hs.waits m t hmem
    simp only [viewSched, hstat, if_true, bind_eq_bind, bind_some] at h
    cases h
    exact .inr rfl

lemma Sim.eventLoop (m : Nat) (r : Events × List Nat) :
    Follows (fun fuel =>
        (stateSched cfg fuel).forEachPend s m (Kernel.eventWake (stateSched cfg fuel) m) r)
      ((viewSched cfg).forEachPend v m (Kernel.eventWake (viewSched cfg) m) r)
      fun r r' => Sim r.1 r'.1 ∧ r.2 = r'.2 := by
  refine hs.forEachPend m ?_ ?_ r
  · intro s v r t hs _
    exact hs.eventWake m r t
  · intro s v r t v' r' hs hmem h
    exact hs.eventWake_pend hmem h

lemma Sim.eventTrigger (o : Events) (m : Nat) (events : BitVec 32) :
    Follows (fun fuel => Kernel.eventTrigger (stateSched cfg fuel) s o m events)
      (Kernel.eventTrigger (viewSched cfg) v o m events) fun r r' => Sim r.1 r'.1 ∧ r.2 = r'.2 := by
  simp only [Kernel.eventTrigger, hs.first]
  by_cases he : events = 0
  · simp only [he, if_true]
    exact .pure ⟨hs, rfl⟩
  simp only [he, if_false]
  cases (viewSched cfg).first v m with
  | none => exact .pure ⟨hs, rfl⟩
  | some u =>
    refine (hs.eventLoop m _).bind ?_
    rintro ⟨s', r⟩ ⟨v', r'⟩ - ⟨hk, rfl : r = r'⟩
    exact .pure ⟨hk, rfl⟩

end

variable {w : World State Events} {a : World View Events} (hs : WorldSim w a)
include hs

lemma WorldSim.eventProcessed (m t : Nat) (outcome : Outcome) :
    WorldSim (Kernel.eventProcessed w m t outcome) (Kernel.eventProcessed a m t outcome) := by
  cases outcome with
  | returned ret => exact hs.modify (·.setRet t (some ret))
  | suspended => exact (hs.modify (·.setRet t none)).setCall t _

lemma WorldSim.eventWoken (m : Nat) (woken : List Nat) :
    WorldSim (Kernel.eventWoken w m woken) (Kernel.eventWoken a m woken) := by
  induction woken generalizing w a with
  | nil => exact hs
  | cons u woken ih => exact ih (hs.setCall u _)

lemma WorldSim.eventAct (op : EventOp) :
    Follows (fun fuel => Kernel.eventAct (stateSched cfg fuel) w op)
      (Kernel.eventAct (viewSched cfg) a op) WorldSim := by
  cases op with
  | process m events options waitTime now alloc =>
    simp only [Kernel.eventAct, hs.caller, hs.obj]
    cases hc : a.caller (viewSched cfg) with
    | none => exact .none
    | some t =>
      refine (hs.kernel.eventProcess (World.of_caller hc).1 _ m events options waitTime now
        alloc).bind ?_
      rintro ⟨s', r⟩ ⟨v', r'⟩ - ⟨hk, rfl : r = r'⟩
      exact .pure ((hs.set hk _).eventProcessed m t _)
  | finish =>
    simp only [Kernel.eventAct, hs.waker, stateSched_task, viewSched_task, hs.kernel.task, hs.obj]
    cases a.waker (viewSched cfg) with
    | none => exact .none
    | some tc => exact .pure ((hs.set hs.kernel _).setCall tc.1 none)
  | trigger m events =>
    simp only [Kernel.eventAct, hs.obj]
    refine (hs.kernel.eventTrigger _ m events).bind ?_
    rintro ⟨s', r⟩ ⟨v', r'⟩ - ⟨hk, rfl : r = r'⟩
    exact .pure ((hs.set hk _).eventWoken m _)

lemma WorldSim.eventStep (op : WorldOp EventOp) :
    Follows (fun fuel => Kernel.eventStep (stateSched cfg fuel) w op)
      (Kernel.eventStep (viewSched cfg) a op) WorldSim :=
  WorldSim.step (fun hs => hs.eventAct) hs op

end Xiuos.Kernel
