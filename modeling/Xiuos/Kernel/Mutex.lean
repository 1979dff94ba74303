import Xiuos.Kernel.World

/-! `mutex.c`: the critical sections of `_MutexObtain` and `_MutexAbandon`, and runs of them. -/

namespace Xiuos.Kernel
open Lib Function Option

structure Mutex where
  val : UInt16
  recursiveCnt : UInt8
  originPrio : UInt8
  holder : Option Nat
  deriving DecidableEq

def Mutex.create : Mutex := ⟨1, 0, 0xff, none⟩

section
variable {κ : Type} (k : Sched κ)

def inheritPrio (kernel : κ) (holder t : Nat) : Option κ :=
  if (k.task kernel t).curPrio > (k.task kernel holder).curPrio then
    k.kTaskPrioSet kernel holder (k.task kernel t).curPrio
  else some kernel

def restorePrio (kernel : κ) (holder : Nat) (originPrio : UInt8) : Option κ :=
  if originPrio ≠ (k.task kernel holder).curPrio then k.kTaskPrioSet kernel holder originPrio
  else some kernel

def mutexObtain (kernel : κ) (mutex : Mutex) (m t : Nat) (waitTime : Int32) (now : UInt32)
    (alloc : Bool) : Option (κ × Mutex × Outcome) :=
  let kernel := k.setExstatus kernel t eok
  if mutex.holder = some t then
    some (kernel, { mutex with recursiveCnt := mutex.recursiveCnt + 1 }, .returned eok)
  else if mutex.val > 0 then
    some (kernel, {
      val := mutex.val - 1
      holder := some t
      originPrio := (k.task kernel t).curPrio
      recursiveCnt := mutex.recursiveCnt + 1 }, .returned eok)
  else if waitTime = 0 then
    some (k.setExstatus kernel t (-etimeout), mutex, .returned (-etimeout))
  else do
    let holder ← mutex.holder
    let kernel ← inheritPrio k kernel holder t
    let kernel ← k.linklistSuspend kernel m t .prio
    let kernel ← k.startTimer kernel t waitTime now alloc
    some (kernel, mutex, .suspended)

def mutexPass (kernel : κ) (mutex : Mutex) (m : Nat) (recursiveCnt : UInt8) :
    Option (κ × Mutex) :=
  match k.first kernel m with
  | some t => do
    let mutex := { mutex with
      holder := some t
      originPrio := (k.task kernel t).curPrio
      recursiveCnt := recursiveCnt + 1 }
    let kernel ← k.linklistResume kernel m
    some (kernel, mutex)
  | none => some (kernel, {
      val := mutex.val + 1
      holder := none
      originPrio := 0xff
      recursiveCnt })

def mutexAbandon (kernel : κ) (mutex : Mutex) (m t : Nat) : Option (κ × Mutex × Int) :=
  if mutex.holder ≠ some t then some (k.setExstatus kernel t (-error), mutex, -error)
  else if mutex.recursiveCnt - 1 = 0 then do
    let kernel ← restorePrio k kernel t mutex.originPrio
    let (kernel, mutex) ← mutexPass k kernel mutex m (mutex.recursiveCnt - 1)
    some (kernel, mutex, eok)
  else some (kernel, { mutex with recursiveCnt := mutex.recursiveCnt - 1 }, eok)

structure Mutexes where
  mutex : Nat → Mutex
  excess : Nat → Nat → Int

namespace Mutexes

def set (o : Mutexes) (m : Nat) (mutex : Mutex) : Mutexes :=
  { o with mutex := update o.mutex m mutex }

def count (o : Mutexes) (m t : Nat) (d : Int) : Mutexes :=
  { o with excess := update o.excess m (update (o.excess m) t (o.excess m t + d)) }

variable (o : Mutexes)
include o
variable (m : Nat) (mutex : Mutex)

@[simp] lemma set_mutex : (o.set m mutex).mutex = update o.mutex m mutex := rfl

@[simp] lemma set_excess : (o.set m mutex).excess = o.excess := rfl

@[simp] lemma set_same : o.set m (o.mutex m) = o := by simp [set]

@[simp] lemma count_mutex (m t : Nat) (d : Int) : (o.count m t d).mutex = o.mutex := rfl

@[simp] lemma count_excess (m t : Nat) (d : Int) : (o.count m t d).excess =
    update o.excess m (update (o.excess m) t (o.excess m t + d)) := rfl

end Mutexes

inductive MutexOp
  | obtain (m : Nat) (waitTime : Int32) (now : UInt32) (alloc : Bool)
  | finish
  | abandon (m : Nat)
  deriving DecidableEq

def mutexObtained (w : World κ Mutexes) (m t : Nat) : Outcome → World κ Mutexes
  | .returned ret => if ret = eok then { w with obj := w.obj.count m t 1 } else w
  | .suspended => w.setCall t (some (m, false))

def mutexAbandoned (w : World κ Mutexes) (m t : Nat) (ret : Int) : World κ Mutexes :=
  if ret = eok then
    let w := { w with obj := w.obj.count m t (-1) }
    match (w.obj.mutex m).holder with
    | some u =>
      if u = t then w else { w with obj := w.obj.count m u 1 }.setCall u (some (m, true))
    | none => w
  else w

def mutexAct (w : World κ Mutexes) : MutexOp → Option (World κ Mutexes)
  | .obtain m waitTime now alloc => do
    let t ← w.caller k
    let (kernel, mutex, outcome) ← mutexObtain k w.kernel (w.obj.mutex m) m t waitTime now alloc
    some (mutexObtained { w with kernel, obj := w.obj.set m mutex } m t outcome)
  | .finish => do
    let (t, _) ← w.waker k
    some (w.setCall t none)
  | .abandon m => do
    let t ← w.caller k
    let (kernel, mutex, ret) ← mutexAbandon k w.kernel (w.obj.mutex m) m t
    some (mutexAbandoned { w with kernel, obj := w.obj.set m mutex } m t ret)

def mutexStep (w : World κ Mutexes) (op : WorldOp MutexOp) : Option (World κ Mutexes) :=
  w.step k (mutexAct k) op

end

namespace View
variable (v : View) (cfg : Config) (holder t u : Nat) (prio : UInt8)

def inherit : View := if v.prio t > v.prio holder then v.setPrio cfg holder (v.prio t) else v

def restore : View := if prio ≠ v.prio holder then v.setPrio cfg holder prio else v

lemma inheritPrio_eq : inheritPrio (viewSched cfg) v holder t = some (v.inherit cfg holder t) :=
  (apply_ite some _ _ _).symm

lemma restorePrio_eq :
    restorePrio (viewSched cfg) v holder prio = some (v.restore cfg holder prio) :=
  (apply_ite some _ _ _).symm

@[simp] lemma inherit_current : (v.inherit cfg holder t).current = v.current := by
  rw [inherit, apply_ite View.current, setPrio_current, ite_self]

@[simp] lemma inherit_stat : ((v.inherit cfg holder t).task u).stat = (v.task u).stat := by
  rw [inherit, apply_ite (fun v : View => (v.task u).stat), setPrio_stat, ite_self]

@[simp] lemma inherit_pend : (v.inherit cfg holder t).pend = v.pend := by
  rw [inherit, apply_ite View.pend, setPrio_pend, ite_self]

@[simp] lemma inherit_exstatus :
    ((v.inherit cfg holder t).task u).exstatus = (v.task u).exstatus := by
  rw [inherit, apply_ite (fun v : View => (v.task u).exstatus), setPrio_exstatus, ite_self]

@[simp] lemma inherit_base : ((v.inherit cfg holder t).task u).base = (v.task u).base := by
  rw [inherit, apply_ite (fun v : View => (v.task u).base), setPrio_base, ite_self]

@[simp] lemma restore_base : ((v.restore cfg holder prio).task u).base = (v.task u).base := by
  rw [restore, apply_ite (fun v : View => (v.task u).base), setPrio_base, ite_self]

@[simp] lemma restore_exstatus :
    ((v.restore cfg holder prio).task u).exstatus = (v.task u).exstatus := by
  rw [restore, apply_ite (fun v : View => (v.task u).exstatus), setPrio_exstatus, ite_self]

@[simp] lemma restore_stat : ((v.restore cfg holder prio).task u).stat = (v.task u).stat := by
  rw [restore, apply_ite (fun v : View => (v.task u).stat), setPrio_stat, ite_self]

@[simp] lemma restore_pend : (v.restore cfg holder prio).pend = v.pend := by
  rw [restore, apply_ite View.pend, setPrio_pend, ite_self]

end View

variable {cfg : Config} {s : State} {v : View} {t : Nat}

section
variable (hs : Sim s v)
include hs

lemma Sim.inheritPrio (holder t : Nat) :
    Returns (fun fuel => Kernel.inheritPrio (stateSched cfg fuel) s holder t) fun s' =>
      Sim s' (v.inherit cfg holder t) := by
  have htask : ∀ fuel, (stateSched cfg fuel).task s = v.task := fun _ => hs.task
  simp only [Kernel.inheritPrio, View.inherit, htask]
  by_cases h : (v.task t).curPrio > (v.task holder).curPrio
  · simp only [View.prio, h, if_true]
    exact hs.prioSets holder _
  · simp only [View.prio, h, if_false]
    exact .pure hs

lemma Sim.restorePrio (holder : Nat) (prio : UInt8) :
    Returns (fun fuel => Kernel.restorePrio (stateSched cfg fuel) s holder prio) fun s' =>
      Sim s' (v.restore cfg holder prio) := by
  have htask : ∀ fuel, (stateSched cfg fuel).task s = v.task := fun _ => hs.task
  simp only [Kernel.restorePrio, View.restore, htask]
  by_cases h : prio = (v.task holder).curPrio
  · simp only [View.prio, h, ne_eq, not_true_eq_false, if_false]
    exact .pure hs
  · simp only [View.prio, h, ne_eq, not_false_eq_true, if_true]
    exact hs.prioSets holder _

lemma Sim.mutexObtain (ht : (viewSched cfg).caller v = some t) (mutex : Mutex) (m : Nat)
    (waitTime : Int32) (now : UInt32) (alloc : Bool) :
    Follows (fun fuel => Kernel.mutexObtain (stateSched cfg fuel) s mutex m t waitTime now alloc)
      (Kernel.mutexObtain (viewSched cfg) v mutex m t waitTime now alloc) fun r r' =>
        Sim r.1 r'.1 ∧ r.2 = r'.2 := by
  obtain ⟨hcur, hstat⟩ := Sim.of_caller ht
  have hs₁ := hs.setExstatus t eok
  simp only [Kernel.mutexObtain, stateSched_setExstatus, viewSched_setExstatus, stateSched_task,
    viewSched_task, hs₁.task]
  by_cases hh : mutex.holder = some t
  · simp only [hh, if_true]
    exact .pure ⟨hs₁, rfl⟩
  by_cases hv : mutex.val > 0
  · simp only [hh, hv, if_true, if_false]
    exact .pure ⟨hs₁, rfl⟩
  by_cases hw : waitTime = 0
  · simp only [hh, hv, hw, if_true, if_false]
    exact .pure ⟨hs₁.setExstatus t (-etimeout), rfl⟩
  simp only [hh, hv, hw, if_false]
  cases mutex.holder with
  | none => exact .none
  | some holder =>
    simp only [bind_eq_bind, bind_some, View.inheritPrio_eq, View.startTimer_eq]
    refine (hs₁.inheritPrio holder t).bind fun s₂ hs₂ => ?_
    refine Returns.bind (hs₂.suspends ?_ ?_ m .prio) fun s₃ hs₃ => ?_
    · simpa using hcur
    · simpa using hstat
    refine (hs₃.startTimer ?_ waitTime now alloc).bind fun s₄ hs₄ => .pure ⟨hs₄, rfl⟩
    simp [View.suspend_stat]

lemma Sim.mutexAbandon (mutex : Mutex) (m t : Nat) :
    Follows (fun fuel => Kernel.mutexAbandon (stateSched cfg fuel) s mutex m t)
      (Kernel.mutexAbandon (viewSched cfg) v mutex m t) fun r r' => Sim r.1 r'.1 ∧ r.2 = r'.2 := by
  simp only [Kernel.mutexAbandon, stateSched_setExstatus, viewSched_setExstatus]
  by_cases hh : mutex.holder = some t
  · simp only [hh, ne_eq, not_true_eq_false, if_false]
    by_cases hcnt : mutex.recursiveCnt - 1 = 0
    · simp only [hcnt, if_true, View.restorePrio_eq, bind_eq_bind, bind_some]
      refine .of_returns (hs.restorePrio t mutex.originPrio) fun s₁ hs₁ => ?_
      simp only [mutexPass, hs₁.first, stateSched_task, viewSched_task, hs₁.task]
      cases (viewSched cfg).first (v.restore cfg t mutex.originPrio) m with
      | none => exact .pure ⟨hs₁, rfl⟩
      | some u =>
        simp only [bind_eq_bind, bind_assoc, bind_some]
        exact (hs₁.resumes m).bind fun s₂ v₂ _ hs₂ => .pure ⟨hs₂, rfl⟩
    · simp only [hcnt, if_false]
      exact .pure ⟨hs, rfl⟩
  · simp only [hh, ne_eq, not_false_eq_true, if_true]
    exact .pure ⟨hs.setExstatus t (-error), rfl⟩

end

variable {w : World State Mutexes} {a : World View Mutexes} (hs : WorldSim w a)
include hs

lemma WorldSim.mutexObtained (m t : Nat) (outcome : Outcome) :
    WorldSim (Kernel.mutexObtained w m t outcome) (Kernel.mutexObtained a m t outcome) := by
  cases outcome with
  | returned ret =>
    simp only [Kernel.mutexObtained]
    split
    · exact hs.modify (·.count m t 1)
    · exact hs
  | suspended => exact hs.setCall t _

lemma WorldSim.mutexAbandoned (m t : Nat) (ret : Int) :
    WorldSim (Kernel.mutexAbandoned w m t ret) (Kernel.mutexAbandoned a m t ret) := by
  have hcount := hs.modify (·.count m t (-1))
  simp only [Kernel.mutexAbandoned, hs.obj]
  rw [hs.obj] at hcount
  split
  · split
    · split
      · exact hcount
      · exact (hcount.modify (·.count m _ 1)).setCall _ _
    · exact hcount
  · exact hs

lemma WorldSim.mutexAct (op : MutexOp) :
    Follows (fun fuel => Kernel.mutexAct (stateSched cfg fuel) w op)
      (Kernel.mutexAct (viewSched cfg) a op) WorldSim := by
  cases op with
  | obtain m waitTime now alloc =>
    simp only [Kernel.mutexAct, hs.caller, hs.obj]
    cases hc : a.caller (viewSched cfg) with
    | none => exact .none
    | some t =>
      refine (hs.kernel.mutexObtain (World.of_caller hc).1 _ m waitTime now alloc).bind ?_
      rintro ⟨s', r⟩ ⟨v', r'⟩ - ⟨hk, rfl : r = r'⟩
      exact .pure ((hs.set hk _).mutexObtained m t _)
  | finish =>
    simp only [Kernel.mutexAct, hs.waker]
    cases a.waker (viewSched cfg) with
    | none => exact .none
    | some tc => exact .pure (hs.setCall tc.1 none)
  | abandon m =>
    simp only [Kernel.mutexAct, hs.caller, hs.obj]
    cases a.caller (viewSched cfg) with
    | none => exact .none
    | some t =>
      refine (hs.kernel.mutexAbandon _ m t).bind ?_
      rintro ⟨s', r⟩ ⟨v', r'⟩ - ⟨hk, rfl : r = r'⟩
      exact .pure ((hs.set hk _).mutexAbandoned m t _)

lemma WorldSim.mutexStep (op : WorldOp MutexOp) :
    Follows (fun fuel => Kernel.mutexStep (stateSched cfg fuel) w op)
      (Kernel.mutexStep (viewSched cfg) a op) WorldSim :=
  WorldSim.step (fun hs => hs.mutexAct) hs op

end Xiuos.Kernel
