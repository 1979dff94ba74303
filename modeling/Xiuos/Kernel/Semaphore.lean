import Xiuos.Kernel.World

/-! `semaphore.c`: the critical sections of `_SemaphoreObtain` and `_SemaphoreAbandon`, and the
accounts of a run. -/

namespace Xiuos.Kernel
open Lib Function

structure Semaphore where
  value : UInt16
  deriving DecidableEq

section
variable {κ : Type} (k : Sched κ)

def semaphoreObtain (kernel : κ) (sem : Semaphore) (m t : Nat) (waitTime : Int32) (now : UInt32)
    (alloc : Bool) : Option (κ × Semaphore × Outcome) :=
  if sem.value > 0 then some (kernel, { sem with value := sem.value - 1 }, .returned eok)
  else if waitTime = 0 then some (kernel, sem, .returned (-etimeout))
  else do
    let kernel := k.setExstatus kernel t eok
    let kernel ← k.linklistSuspend kernel m t .prio
    let kernel ← k.startTimer kernel t waitTime now alloc
    some (kernel, sem, .suspended)

def semaphoreAbandon (kernel : κ) (sem : Semaphore) (m : Nat) : Option (κ × Semaphore × Int) :=
  match k.first kernel m with
  | some _ => do
    let kernel ← k.linklistResume kernel m
    some (kernel, sem, eok)
  | none => some (kernel, { sem with value := sem.value + 1 }, eok)

structure Semaphores where
  sem : Nat → Semaphore
  abandons : Nat → Nat
  obtains : Nat → Nat

namespace Semaphores

def set (s : Semaphores) (m : Nat) (sem : Semaphore) : Semaphores :=
  { s with sem := update s.sem m sem }

def countObtain (s : Semaphores) (m : Nat) : Semaphores :=
  { s with obtains := update s.obtains m (s.obtains m + 1) }

def countAbandon (s : Semaphores) (m : Nat) : Semaphores :=
  { s with abandons := update s.abandons m (s.abandons m + 1) }

end Semaphores

inductive SemOp
  | obtain (m : Nat) (waitTime : Int32) (now : UInt32) (alloc : Bool)
  | finish
  | abandon (m : Nat)
  deriving DecidableEq

def semObtained (w : World κ Semaphores) (m t : Nat) : Outcome → World κ Semaphores
  | .returned ret => if ret = eok then { w with obj := w.obj.countObtain m } else w
  | .suspended => w.setCall t (some (m, false))

def semAbandoned (w : World κ Semaphores) (m : Nat) : Option Nat → World κ Semaphores
  | some u => { w with obj := (w.obj.countAbandon m).countObtain m }.setCall u (some (m, true))
  | none => { w with obj := w.obj.countAbandon m }

def semAct (w : World κ Semaphores) : SemOp → Option (World κ Semaphores)
  | .obtain m waitTime now alloc => do
    let t ← w.caller k
    let (kernel, sem, outcome) ← semaphoreObtain k w.kernel (w.obj.sem m) m t waitTime now alloc
    some (semObtained { w with kernel, obj := w.obj.set m sem } m t outcome)
  | .finish => do
    let (t, _) ← w.waker k
    some (w.setCall t none)
  | .abandon m => do
    let (kernel, sem, _) ← semaphoreAbandon k w.kernel (w.obj.sem m) m
    some (semAbandoned { w with kernel, obj := w.obj.set m sem } m (k.first w.kernel m))

def semStep (w : World κ Semaphores) (op : WorldOp SemOp) : Option (World κ Semaphores) :=
  w.step k (semAct k) op

end

variable {cfg : Config} {s : State} {v : View} {t : Nat}

lemma Sim.semaphoreObtain (hs : Sim s v) (ht : (viewSched cfg).caller v = some t)
    (sem : Semaphore) (m : Nat) (waitTime : Int32) (now : UInt32) (alloc : Bool) :
    Follows (fun fuel => Kernel.semaphoreObtain (stateSched cfg fuel) s sem m t waitTime now alloc)
      (Kernel.semaphoreObtain (viewSched cfg) v sem m t waitTime now alloc) fun r r' =>
        Sim r.1 r'.1 ∧ r.2 = r'.2 := by
  obtain ⟨hcur, hstat⟩ := Sim.of_caller ht
  simp only [Kernel.semaphoreObtain, stateSched_setExstatus, viewSched_setExstatus]
  by_cases hv : sem.value > 0
  · simp only [hv, if_true]
    exact .pure ⟨hs, rfl⟩
  by_cases hw : waitTime = 0
  · simp only [hv, hw, if_true, if_false]
    exact .pure ⟨hs, rfl⟩
  simp only [hv, hw, if_false, View.startTimer_eq, Option.bind_eq_bind, Option.bind_some]
  refine Returns.bind ((hs.setExstatus t eok).suspends hcur ?_ m .prio) fun s₁ hs₁ => ?_
  · simpa using hstat
  refine (hs₁.startTimer ?_ waitTime now alloc).bind fun s₂ hs₂ => .pure ⟨hs₂, rfl⟩
  simp [View.suspend_stat]

lemma Sim.semaphoreAbandon (hs : Sim s v) (sem : Semaphore) (m : Nat) :
    Follows (fun fuel => Kernel.semaphoreAbandon (stateSched cfg fuel) s sem m)
      (Kernel.semaphoreAbandon (viewSched cfg) v sem m) fun r r' => Sim r.1 r'.1 ∧ r.2 = r'.2 := by
  simp only [Kernel.semaphoreAbandon, hs.first]
  cases (viewSched cfg).first v m with
  | none => exact .pure ⟨hs, rfl⟩
  | some u => exact (hs.resumes m).bind fun s₁ v₁ _ hs₁ => .pure ⟨hs₁, rfl⟩

variable {w : World State Semaphores} {a : World View Semaphores} (hs : WorldSim w a)
include hs

lemma WorldSim.semObtained (m t : Nat) (outcome : Outcome) :
    WorldSim (Kernel.semObtained w m t outcome) (Kernel.semObtained a m t outcome) := by
  cases outcome with
  | returned ret =>
    simp only [Kernel.semObtained]
    split
    · exact hs.modify (·.countObtain m)
    · exact hs
  | suspended => exact hs.setCall t _

lemma WorldSim.semAbandoned (m : Nat) (first : Option Nat) :
    WorldSim (Kernel.semAbandoned w m first) (Kernel.semAbandoned a m first) := by
  cases first with
  | none => exact hs.modify (·.countAbandon m)
  | some u => exact (hs.modify fun o => (o.countAbandon m).countObtain m).setCall u _

lemma WorldSim.semAct (op : SemOp) :
    Follows (fun fuel => Kernel.semAct (stateSched cfg fuel) w op)
      (Kernel.semAct (viewSched cfg) a op) WorldSim := by
  cases op with
  | obtain m waitTime now alloc =>
    simp only [Kernel.semAct, hs.caller, hs.obj]
    cases hc : a.caller (viewSched cfg) with
    | none => exact .none
    | some t =>
      refine (hs.kernel.semaphoreObtain (World.of_caller hc).1 _ m waitTime now alloc).bind ?_
      rintro ⟨s', r⟩ ⟨v', r'⟩ - ⟨hk, rfl : r = r'⟩
      exact .pure ((hs.set hk _).semObtained m t _)
  | finish =>
    simp only [Kernel.semAct, hs.waker]
    cases a.waker (viewSched cfg) with
    | none => exact .none
    | some tc => exact .pure (hs.setCall tc.1 none)
  | abandon m =>
    simp only [Kernel.semAct, hs.kernel.first, hs.obj]
    refine (hs.kernel.semaphoreAbandon _ m).bind ?_
    rintro ⟨s', r⟩ ⟨v', r'⟩ - ⟨hk, rfl : r = r'⟩
    exact .pure ((hs.set hk _).semAbandoned m _)

lemma WorldSim.semStep (op : WorldOp SemOp) :
    Follows (fun fuel => Kernel.semStep (stateSched cfg fuel) w op)
      (Kernel.semStep (viewSched cfg) a op) WorldSim := WorldSim.step (fun hs => hs.semAct) hs op

end Xiuos.Kernel
