import Xiuos.Kernel.Call

/-! Runs of the kernel with objects of one kind, whose critical sections follow one another while the
scheduler and the clock do what they like. -/

namespace Xiuos.Kernel
open Lib Function Option

/-- `call` is kept by the run alone: who is inside of a call that had to wait. -/
structure World (κ ο : Type) where
  kernel : κ
  obj : ο
  call : Nat → Option Call

inductive WorldOp (ι : Type)
  | kernel (op : KernelOp)
  | act (i : ι)
  deriving DecidableEq

namespace World
variable {κ ο ι : Type} (k : Sched κ)

def setCall (w : World κ ο) (t : Nat) (call : Option Call) : World κ ο :=
  { w with call := update w.call t call }

def caller (w : World κ ο) : Option Nat := (k.caller w.kernel).filter fun t => w.call t = none

def waker (w : World κ ο) : Option (Nat × Call) := do
  let t ← k.caller w.kernel
  let c ← w.call t
  some (t, c)

def Waiting (w : World κ ο) (m t : Nat) : Prop :=
  w.call t = some (m, false) ∧ (k.task w.kernel t).stat = .suspend

def prio (w : World κ ο) (t : Nat) : UInt8 := (k.task w.kernel t).curPrio

def kernelStep (w : World κ ο) (op : KernelOp) : Option (World κ ο) := do
  let kernel ← k.step w.kernel op
  some { w with kernel }

def step (act : World κ ο → ι → Option (World κ ο)) (w : World κ ο) :
    WorldOp ι → Option (World κ ο)
  | .kernel (.delay now ticks alloc) => do
    let _ ← w.caller k
    w.kernelStep k (.delay now ticks alloc)
  | .kernel op => w.kernelStep k op
  | .act i => act w i

end World

structure WorldSim {ο : Type} (w : World State ο) (a : World View ο) : Prop where
  kernel : Sim w.kernel a.kernel
  obj : w.obj = a.obj
  call : w.call = a.call

namespace WorldSim
variable {cfg : Config} {ο ι : Type} {w : World State ο} {a : World View ο}

section
variable (hs : WorldSim w a)
include hs

lemma caller (fuel : Nat) : w.caller (stateSched cfg fuel) = a.caller (viewSched cfg) := by
  rw [World.caller, World.caller, hs.kernel.caller, hs.call]

lemma waker (fuel : Nat) : w.waker (stateSched cfg fuel) = a.waker (viewSched cfg) := by
  rw [World.waker, World.waker, hs.kernel.caller, hs.call]

lemma waiting (fuel m t : Nat) :
    w.Waiting (stateSched cfg fuel) m t ↔ a.Waiting (viewSched cfg) m t := by
  simp only [World.Waiting, stateSched_task, viewSched_task, hs.kernel.task, hs.call]

lemma setCall (t : Nat) (call : Option Call) : WorldSim (w.setCall t call) (a.setCall t call) :=
  ⟨hs.kernel, hs.obj, by simp [World.setCall, hs.call]⟩

lemma set {s : State} {v : View} (hk : Sim s v) (obj : ο) :
    WorldSim { w with kernel := s, obj } { a with kernel := v, obj } := ⟨hk, rfl, hs.call⟩

lemma modify (f : ο → ο) : WorldSim { w with obj := f w.obj } { a with obj := f a.obj } :=
  ⟨hs.kernel, by rw [hs.obj], hs.call⟩

lemma kernelStep (op : KernelOp) :
    Follows (fun fuel => w.kernelStep (stateSched cfg fuel) op) (a.kernelStep (viewSched cfg) op)
      WorldSim := (hs.kernel.step op).bind fun _ _ _ hk => .pure ⟨hk, hs.obj, hs.call⟩

end

lemma step {act : Nat → World State ο → ι → Option (World State ο)}
    {act' : World View ο → ι → Option (World View ο)}
    (hact : ∀ {w a}, WorldSim w a → ∀ i, Follows (fun fuel => act fuel w i) (act' a i) WorldSim)
    (hs : WorldSim w a) (op : WorldOp ι) :
    Follows (fun fuel => w.step (stateSched cfg fuel) (act fuel) op)
      (a.step (viewSched cfg) act' op) WorldSim := by
  cases op with
  | kernel op =>
    cases op with
    | delay now ticks alloc =>
      simp only [World.step, hs.caller]
      cases a.caller (viewSched cfg) with
      | none => exact .none
      | some t => exact hs.kernelStep _
    | start t => exact hs.kernelStep _
    | dispatch t => exact hs.kernelStep _
    | expire t => exact hs.kernelStep _
  | act i => exact hact hs i

end WorldSim

structure WorldInv {ο : Type} (a : World View ο) : Prop where
  sim : ∃ s, Sim s a.kernel
  calls : CallsOk a.kernel a.call

section
variable {cfg : Config} {ο ι : Type} {a a' : World View ο} {t : Nat}

lemma World.of_caller (h : a.caller (viewSched cfg) = some t) :
    (viewSched cfg).caller a.kernel = some t ∧ a.call t = none := by
  rw [World.caller, filter_eq_some_iff] at h
  exact ⟨h.1, of_decide_eq_true h.2⟩

lemma World.active_of_caller (h : a.caller (viewSched cfg) = some t) : Active (a.kernel.task t) :=
  (Sim.of_caller (World.of_caller h).1).2

lemma World.of_waker {c : Call} (h : a.waker (viewSched cfg) = some (t, c)) :
    (viewSched cfg).caller a.kernel = some t ∧ a.call t = some c := by
  obtain ⟨t', ht', h⟩ := bind_eq_some_iff.mp h
  obtain ⟨c', hc', h⟩ := bind_eq_some_iff.mp h
  cases h
  exact ⟨ht', hc'⟩

structure World.KernelTr (cfg : Config) (a : World View ο) (op : KernelOp) (v : View) : Prop where
  step : (viewSched cfg).step a.kernel op = some v
  delay : ∀ now ticks alloc, op = .delay now ticks alloc →
    ∃ t, (viewSched cfg).caller a.kernel = some t ∧ a.call t = none

lemma World.step_cases {act : World View ο → ι → Option (World View ο)} {op : WorldOp ι}
    (h : a.step (viewSched cfg) act op = some a') :
    (∃ op' v, op = .kernel op' ∧ a.KernelTr cfg op' v ∧ a' = { a with kernel := v }) ∨
    ∃ i, op = .act i ∧ act a i = some a' := by
  have hkernel : ∀ {op'}, a.kernelStep (viewSched cfg) op' = some a' →
      ∃ v, (viewSched cfg).step a.kernel op' = some v ∧ a' = { a with kernel := v } := by
    intro op' h
    obtain ⟨v, hv, h⟩ := bind_eq_some_iff.mp h
    exact ⟨v, hv, (Option.some.inj h).symm⟩
  cases op with
  | act i => exact .inr ⟨i, rfl, h⟩
  | kernel op =>
    cases op with
    | delay now ticks alloc =>
      obtain ⟨t, ht, h⟩ := bind_eq_some_iff.mp h
      obtain ⟨v, hv, ha⟩ := hkernel h
      exact .inl ⟨_, v, rfl, ⟨hv, fun _ _ _ _ => ⟨t, World.of_caller ht⟩⟩, ha⟩
    | start t =>
      obtain ⟨v, hv, ha⟩ := hkernel h
      exact .inl ⟨_, v, rfl, ⟨hv, by simp⟩, ha⟩
    | dispatch t =>
      obtain ⟨v, hv, ha⟩ := hkernel h
      exact .inl ⟨_, v, rfl, ⟨hv, by simp⟩, ha⟩
    | expire t =>
      obtain ⟨v, hv, ha⟩ := hkernel h
      exact .inl ⟨_, v, rfl, ⟨hv, by simp⟩, ha⟩

variable (hi : WorldInv a)
include hi

lemma WorldInv.exists_sim : ∃ w, WorldSim w a := by
  obtain ⟨s, hs⟩ := hi.sim
  exact ⟨{ a with kernel := s }, hs, rfl, rfl⟩

lemma WorldInv.kernel {op : KernelOp} {v : View} (h : a.KernelTr cfg op v) :
    WorldInv { a with kernel := v } := by
  obtain ⟨s, hs⟩ := hi.sim
  exact ⟨(hs.step op).exists_of_some h.step, hi.calls.step hs h.step h.delay⟩

lemma WorldInv.waiting_iff {m t : Nat} : a.Waiting (viewSched cfg) m t ↔ t ∈ a.kernel.pend m := by
  obtain ⟨s, hs⟩ := hi.sim
  exact hi.calls.waiting_iff hs

end

structure World.Fresh {ο : Type} (w : World State ο) : Prop where
  kernel : ∃ v, Sim w.kernel v ∧ ∀ k, v.pend k = []
  call : ∀ t, w.call t = none

lemma World.Fresh.inv {ο : Type} {w : World State ο} (hw : w.Fresh) :
    ∃ a, WorldSim w a ∧ WorldInv a ∧ ∀ k, a.kernel.pend k = [] := by
  obtain ⟨v, hv, hpend⟩ := hw.kernel
  refine ⟨{ w with kernel := v }, ⟨hv, rfl, rfl⟩, ⟨⟨w.kernel, hv⟩, fun t => ?_⟩, hpend⟩
  simp only [hw.call, hpend]
  exact fun k => List.not_mem_nil

def sampleWorld {ο : Type} (obj : ο) : World State ο where
  kernel := osAssignReadyVectorInit sampleConfig sampleState
  obj := obj
  call _ := none

lemma sampleWorld_fresh {ο : Type} (obj : ο) : (sampleWorld obj).Fresh where
  kernel := ⟨_, sim_init sampleState_initial, fun _ => rfl⟩
  call _ := rfl

end Xiuos.Kernel
