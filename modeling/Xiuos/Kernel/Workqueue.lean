import Xiuos.Kernel.Sched
import Xiuos.Lib.Slots

/-! `workqueue.c`: the ring of works, the worker, and the calls that submit to it. -/

namespace Xiuos.Kernel
open Lib Function List Nat Option

def maxWorkQueue : Nat := 32

structure Work where
  cbFunc : Option Nat
  cbParam : Nat
  deriving DecidableEq

def Work.callback (work : Work) : Option (Nat × Nat) := work.cbFunc.map fun f => (f, work.cbParam)

structure Workqueue where
  front : Nat
  rear : Nat
  base : Nat → Work

def createWorkQueue : Workqueue := ⟨0, 0, fun _ => ⟨none, 0⟩⟩

namespace Workqueue

def full (q : Workqueue) : Bool := (q.rear + 1 + maxWorkQueue) % maxWorkQueue = q.front

def add (q : Workqueue) (work : Work) : Workqueue :=
  { q with
    base := update q.base q.rear work
    rear := (q.rear + 1) % maxWorkQueue }

def advance (q : Workqueue) : Workqueue := { q with front := (q.front + 1) % maxWorkQueue }

end Workqueue

/-- Where the worker stands in its loop: before the lock, with a slot that it has taken, with one
whose function it has tested or read, and between an empty queue and `SuspendKTask`. -/
inductive WorkPc
  | loop
  | taken (slot : Nat)
  | tested (slot : Nat)
  | fetched (slot : Nat) (f : Nat)
  | idle
  deriving DecidableEq

def WorkPc.slot : WorkPc → Option Nat
  | .taken slot | .tested slot | .fetched slot _ => some slot
  | .loop | .idle => none

/-- `late`, `accepted` and `calls` are kept by the run alone: whether a work has been accepted since
the worker last found the queue empty, all works that have been accepted, and all calls. -/
structure WorkWorld where
  kernel : State
  queue : Workqueue
  pc : WorkPc
  late : Bool
  accepted : List Work
  calls : List (Nat × Nat)

inductive WorkOp
  | submit (work : Work)
  | worker
  | kernel (op : KernelOp)

variable (kernel : State)

namespace WorkWorld

def create (kernel : State) : WorkWorld where
  kernel
  queue := createWorkQueue
  pc := .loop
  late := false
  accepted := []
  calls := []

/-- The source has no return statement for works that are accepted, and its callers do not look at
the result. -/
def workSubmitImmediate (cfg : Config) (fuel task : Nat) (w : WorkWorld) (work : Work) :
    Option (WorkWorld × Int) :=
  if w.queue.full then some (w, -error)
  else do
    let (kernel, _) ← kTaskWakeup cfg fuel w.kernel task
    some ({ w with
      kernel
      queue := w.queue.add work
      late := true
      accepted := w.accepted ++ [work] }, eok)

/-- What the worker does up to the next point where it can be interrupted.  A call of a null pointer
has no result. -/
def workQueueKTaskEntry (cfg : Config) (task : Nat) (w : WorkWorld) : Option WorkWorld :=
  match w.pc with
  | .loop =>
    if w.queue.front ≠ w.queue.rear then
      some { w with pc := .taken w.queue.front, queue := w.queue.advance }
    else some { w with pc := .idle, late := false }
  | .taken slot =>
    some { w with pc := if (w.queue.base slot).cbFunc.isSome then .tested slot else .loop }
  | .tested slot => do
    let f ← (w.queue.base slot).cbFunc
    some { w with pc := .fetched slot f }
  | .fetched slot f =>
    some { w with pc := .loop, calls := w.calls ++ [(f, (w.queue.base slot).cbParam)] }
  | .idle => some { w with pc := .loop, kernel := (suspendKTask cfg w.kernel task).1 }

def step (cfg : Config) (fuel task : Nat) (w : WorkWorld) : WorkOp → Option WorkWorld
  | .submit work => (w.workSubmitImmediate cfg fuel task work).map Prod.fst
  | .worker =>
    if (stateSched cfg fuel).caller w.kernel = some task then w.workQueueKTaskEntry cfg task
    else none
  | .kernel (.delay now ticks alloc) =>
    if (stateSched cfg fuel).caller w.kernel = some task then none
    else do
      let kernel ← (stateSched cfg fuel).step w.kernel (.delay now ticks alloc)
      some { w with kernel }
  | .kernel op => do
    let kernel ← (stateSched cfg fuel).step w.kernel op
    some { w with kernel }

def hand (w : WorkWorld) : List Work := w.pc.slot.toList.map w.queue.base

/-- All works are dealt with, in hand, or behind those in the queue, in the order in which they were
accepted; those that were dealt with have been called. -/
def InOrder (w : WorkWorld) : Prop :=
  ∃ done rest, w.accepted = done ++ w.hand ++ rest ∧ w.calls = done.filterMap Work.callback

end WorkWorld

structure Workqueue.Queued (q : Workqueue) (works : List Work) : Prop where
  front_lt : q.front < maxWorkQueue
  rear_eq : q.rear = (q.front + works.length) % maxWorkQueue
  length_lt : works.length < maxWorkQueue
  holds : ∀ i work, works[i]? = some work → q.base ((q.front + i) % maxWorkQueue) = work

namespace Workqueue.Queued
variable {q : Workqueue} {work : Work} {works : List Work}

section
variable (h : q.Queued works)
include h

lemma full_iff : q.full = true ↔ works.length + 1 = maxWorkQueue := by
  have hfront := h.front_lt
  have hlen := h.length_lt
  simp only [full, h.rear_eq, decide_eq_true_eq, maxWorkQueue] at hfront hlen ⊢
  omega

lemma eq_nil_iff : q.front = q.rear ↔ works = [] := by
  have hfront := h.front_lt
  have hlen := h.length_lt
  rw [h.rear_eq, ← length_eq_zero_iff]
  simp only [maxWorkQueue] at hfront hlen ⊢
  omega

lemma rear_ne {i : Nat} (hi : i < maxWorkQueue) (hne : i ≠ works.length) :
    (q.front + i) % maxWorkQueue ≠ q.rear := by
  rw [h.rear_eq]
  exact fun heq => hne (Slots.slot_injective q.front hi h.length_lt heq)

lemma add (hfull : ¬ q.full) (work : Work) : (q.add work).Queued (works ++ [work]) := by
  have hlen := h.length_lt
  have hroom := mt h.full_iff.mpr hfull
  refine ⟨h.front_lt, ?_, ?_, fun i w hi => ?_⟩
  · simp only [Workqueue.add, h.rear_eq, length_append, length_singleton, maxWorkQueue]
    omega
  · rw [length_append, length_singleton]
    omega
  · obtain hlt | rfl : i < works.length ∨ i = works.length := by
      have := (List.getElem?_eq_some_iff.mp hi).1
      rw [length_append, length_singleton] at this
      omega
    · rw [getElem?_append_left hlt] at hi
      rw [← h.holds i w hi]
      exact update_of_ne (h.rear_ne (by omega) (by omega)) _ _
    · rw [getElem?_concat_length] at hi
      cases hi
      simp only [Workqueue.add, ← h.rear_eq, update_self]

end

lemma advance (h : q.Queued (work :: works)) : q.advance.Queued works := by
  have hlen := h.length_lt
  rw [length_cons] at hlen
  refine ⟨mod_lt _ (by decide), ?_, by omega, fun i w hi => ?_⟩
  · simp only [Workqueue.advance, h.rear_eq, length_cons, maxWorkQueue]
    omega
  · rw [← h.holds (i + 1) w hi]
    simp only [Workqueue.advance, maxWorkQueue]
    congr 1
    omega

lemma front_eq (h : q.Queued (work :: works)) : q.base q.front = work := by
  have hhead := h.holds 0 work rfl
  rwa [Nat.add_zero, mod_eq_of_lt h.front_lt] at hhead

end Workqueue.Queued

variable {op : WorkOp}

namespace WorkWorld
variable {cfg : Config} {fuel task : Nat} {w w' : WorkWorld} {works done : List Work}

inductive Tr (cfg : Config) (fuel task : Nat) (w : WorkWorld) : WorkOp → WorkWorld → Prop
  | refused (work : Work) : Tr cfg fuel task w (.submit work) w
  | submit {kernel : State} {ret : Int} (work : Work) (hfull : ¬ w.queue.full)
      (hwake : kTaskWakeup cfg fuel w.kernel task = some (kernel, ret)) :
      Tr cfg fuel task w (.submit work)
        { w with
          kernel
          queue := w.queue.add work
          late := true
          accepted := w.accepted ++ [work] }
  | worker {w₁ : WorkWorld} (hcaller : (stateSched cfg fuel).caller w.kernel = some task)
      (h : w.workQueueKTaskEntry cfg task = some w₁) : Tr cfg fuel task w .worker w₁
  | kernel {kernel : State} (op : KernelOp)
      (hstep : (stateSched cfg fuel).step w.kernel op = some kernel)
      (hdelay : ∀ now ticks alloc, op = .delay now ticks alloc →
        (stateSched cfg fuel).caller w.kernel ≠ some task) :
      Tr cfg fuel task w (.kernel op) { w with kernel }

lemma tr_of_step (h : w.step cfg fuel task op = some w') : w.Tr cfg fuel task op w' := by
  cases op with
  | submit work =>
    obtain ⟨⟨w₁, ret⟩, hsubmit, rfl⟩ := map_eq_some_iff.mp h
    rw [workSubmitImmediate] at hsubmit
    split at hsubmit
    · cases hsubmit
      exact .refused work
    · rename_i hfull
      obtain ⟨⟨kernel, ret'⟩, hwake, hsubmit⟩ := bind_eq_some_iff.mp hsubmit
      cases hsubmit
      exact .submit work hfull hwake
  | worker =>
    obtain ⟨hcaller, h⟩ := ite_none_right_eq_some.mp h
    exact .worker hcaller h
  | kernel op =>
    cases op with
    | delay now ticks alloc =>
      obtain ⟨hcaller, h⟩ := ite_none_left_eq_some.mp h
      obtain ⟨kernel, hstep, h⟩ := bind_eq_some_iff.mp h
      cases h
      exact .kernel _ hstep fun _ _ _ _ => hcaller
    | start t =>
      obtain ⟨kernel, hstep, h⟩ := bind_eq_some_iff.mp h
      cases h
      exact .kernel _ hstep (by simp)
    | dispatch t =>
      obtain ⟨kernel, hstep, h⟩ := bind_eq_some_iff.mp h
      cases h
      exact .kernel _ hstep (by simp)
    | expire t =>
      obtain ⟨kernel, hstep, h⟩ := bind_eq_some_iff.mp h
      cases h
      exact .kernel _ hstep (by simp)

structure Keeps (w : WorkWorld) (done works : List Work) : Prop where
  queued : w.queue.Queued works
  accepted : w.accepted = done ++ w.hand ++ works
  calls : w.calls = done.filterMap Work.callback
  slot : ∀ slot ∈ w.pc.slot, slot = (w.queue.front + (maxWorkQueue - 1)) % maxWorkQueue
  fetched : ∀ slot f, w.pc = .fetched slot f → (w.queue.base slot).cbFunc = some f

lemma Keeps.base_slot (h : w.Keeps done works) (hfull : ¬ w.queue.full) (work : Work) :
    ∀ slot ∈ w.pc.slot, (w.queue.add work).base slot = w.queue.base slot := by
  intro slot hslot
  have hroom := mt h.queued.full_iff.mpr hfull
  have hne : maxWorkQueue - 1 ≠ works.length := by
    simp only [maxWorkQueue] at hroom ⊢
    omega
  rw [h.slot slot hslot]
  exact update_of_ne (h.queued.rear_ne (by decide) hne) _ _

lemma Keeps.submit (h : w.Keeps done works) (hfull : ¬ w.queue.full) (kernel : State)
    (work : Work) (late : Bool) :
    Keeps { w with kernel, queue := w.queue.add work, late, accepted := w.accepted ++ [work] } done
      (works ++ [work]) := by
  have hbase := h.base_slot hfull work
  refine ⟨h.queued.add hfull work, ?_, h.calls, h.slot, fun slot f hpc => ?_⟩
  · have hhand : w.pc.slot.toList.map (w.queue.add work).base = w.hand :=
      map_congr_left fun slot hslot => hbase slot (mem_toList.mp hslot)
    simp only [hand, hhand]
    rw [h.accepted, hand, append_assoc _ works]
  · dsimp only at hpc
    rw [hbase slot (by rw [hpc]; rfl)]
    exact h.fetched slot f hpc

lemma Keeps.worker (h : w.Keeps done works) (hstep : w.workQueueKTaskEntry cfg task = some w') :
    ∃ done works, w'.Keeps done works := by
  have haccepted := h.accepted
  rw [workQueueKTaskEntry] at hstep
  cases hpc : w.pc with
  | loop =>
    rw [hpc] at hstep
    rw [hand, hpc] at haccepted
    dsimp only at hstep
    split at hstep
    · rename_i hne
      cases hstep
      cases works with
      | nil => exact absurd (h.queued.eq_nil_iff.mpr rfl) hne
      | cons work works =>
        refine ⟨done, works, h.queued.advance, ?_, h.calls, fun slot hslot => ?_, by simp⟩
        · have hfront : w.queue.advance.base w.queue.front = work := h.queued.front_eq
          simpa [hand, WorkPc.slot, hfront] using haccepted
        · cases hslot
          have hlt := h.queued.front_lt
          simp only [Workqueue.advance, maxWorkQueue] at hlt ⊢
          omega
    · cases hstep
      exact ⟨done, works, h.queued, haccepted, h.calls, by simp [WorkPc.slot], by simp⟩
  | taken slot =>
    rw [hpc] at hstep
    rw [hand, hpc] at haccepted
    cases hstep
    have hslot := h.slot slot (by rw [hpc]; rfl)
    cases hf : (w.queue.base slot).cbFunc with
    | some f =>
      exact ⟨done, works, h.queued, haccepted, h.calls, fun _ h => Option.some.inj h ▸ hslot,
        by simp⟩
    | none =>
      refine ⟨done ++ [w.queue.base slot], works, h.queued, ?_, ?_, by simp [WorkPc.slot], by simp⟩
      · simpa [hand, WorkPc.slot] using haccepted
      · simp [h.calls, Work.callback, hf]
  | tested slot =>
    rw [hpc] at hstep
    rw [hand, hpc] at haccepted
    obtain ⟨f, hf, hstep⟩ := bind_eq_some_iff.mp hstep
    cases hstep
    have hslot := h.slot slot (by rw [hpc]; rfl)
    refine ⟨done, works, h.queued, haccepted, h.calls, fun _ h => Option.some.inj h ▸ hslot, ?_⟩
    intro slot' f' heq
    cases heq
    exact hf
  | fetched slot f =>
    rw [hpc] at hstep
    rw [hand, hpc] at haccepted
    cases hstep
    refine ⟨done ++ [w.queue.base slot], works, h.queued, ?_, ?_, by simp [WorkPc.slot], by simp⟩
    · simpa [hand, WorkPc.slot] using haccepted
    · simp [h.calls, Work.callback, h.fetched slot f hpc]
  | idle =>
    rw [hpc] at hstep
    rw [hand, hpc] at haccepted
    cases hstep
    exact ⟨done, works, h.queued, haccepted, h.calls, by simp [WorkPc.slot], by simp⟩

lemma Keeps.step (h : ∃ done works, w.Keeps done works)
    (hstep : w.step cfg fuel task op = some w') : ∃ done works, w'.Keeps done works := by
  obtain ⟨done, works, h⟩ := h
  cases tr_of_step hstep with
  | refused work => exact ⟨done, works, h⟩
  | submit work hfull hwake => exact ⟨done, works ++ [work], h.submit hfull _ work true⟩
  | worker hcaller hworker => exact h.worker hworker
  | kernel op hkernel hdelay =>
    exact ⟨done, works, h.queued, h.accepted, h.calls, h.slot, h.fetched⟩

lemma Keeps.create : (create kernel).Keeps [] [] :=
  ⟨⟨succ_pos 31, rfl, succ_pos 31, by simp⟩, rfl, rfl,
    by simp [WorkWorld.create, WorkPc.slot], by simp [WorkWorld.create]⟩

lemma Keeps.inOrder (h : w.Keeps done works) :
    w.calls <+: w.accepted.filterMap Work.callback ∧ w.InOrder := by
  refine ⟨?_, done, works, h.accepted, h.calls⟩
  rw [h.calls, h.accepted, append_assoc, filterMap_append]
  exact prefix_append _ _

end WorkWorld

/-- However the worker and those who submit interleave, the calls that have been made are the first
of those that the accepted works ask for, and the slot in hand still holds the work that follows. -/
theorem workRun_inOrder (cfg : Config) (fuel task : Nat) (kernel : State) (ops : List WorkOp) :
    Always (WorkWorld.step cfg fuel task)
      (fun w => w.calls <+: w.accepted.filterMap Work.callback ∧ w.InOrder) (.create kernel)
      ops := by
  refine Always.mono (P := fun w => ∃ done works, w.Keeps done works) ?_ fun w hw => ?_
  · exact always_of_step WorkWorld.Keeps.step ⟨[], [], .create kernel⟩ ops
  · obtain ⟨done, works, h⟩ := hw
    exact h.inOrder

namespace WorkWorld
variable {cfg : Config} {fuel task : Nat} {w w' : WorkWorld}

def Awake (task : Nat) (w : WorkWorld) : Prop :=
  (w.kernel.task task).stat = .suspend → w.queue.front = w.queue.rear

def prompt (w : WorkWorld) : WorkOp → Bool
  | .worker => w.pc ≠ .idle ∨ ¬ w.late
  | _ => true

structure Sound (w : WorkWorld) : Prop where
  sim : ∃ v, Sim w.kernel v
  keeps : ∃ done works, w.Keeps done works
  late : w.pc = .idle → (w.late = true ↔ w.queue.front ≠ w.queue.rear)

lemma stat_of_step {v v' : View} {op : KernelOp} (h : (viewSched cfg).step v op = some v')
    (hdelay : ∀ now ticks alloc, op = .delay now ticks alloc →
      (viewSched cfg).caller v ≠ some task) (hstat : (v'.task task).stat = .suspend) :
    (v.task task).stat = .suspend := by
  obtain t | ⟨t, -⟩ | t | ⟨now, ticks, alloc, t, ht⟩ := View.step_cases h
  · rw [View.start_stat] at hstat
    split at hstat
    · cases hstat
    · exact hstat
  · rw [View.dispatch_stat] at hstat
    split at hstat
    · cases hstat
    · split at hstat
      · cases hstat
      · exact hstat
  · rw [View.expire_stat] at hstat
    split at hstat
    · cases hstat
    · exact hstat
  · split at hstat
    · exact hstat
    · have hne : task ≠ t := fun he => hdelay _ _ _ rfl (he ▸ ht)
      rwa [View.arm_stat, View.suspend_stat, if_neg hne] at hstat

variable {v : View}

lemma kTaskWakeup_stat {s s' : State} {ret : Int} (hs : Sim s v)
    (h : kTaskWakeup cfg fuel s task = some (s', ret)) :
    (∃ v', Sim s' v') ∧ (s'.task task).stat ≠ .suspend := by
  by_cases hstat : (v.task task).stat = .suspend
  · have hsim : Sim s' (v.release task (v.task task).exstatus) := (hs.kTaskWakeup hstat).post h
    refine ⟨⟨_, hsim⟩, ?_⟩
    rw [hsim.task, View.release_stat, if_pos rfl]
    decide
  · have hsame : some (s, -error) = some (s', ret) := by
      rw [← h, kTaskWakeup, if_pos (hs.task ▸ hstat)]
    cases hsame
    exact ⟨⟨v, hs⟩, hs.task ▸ hstat⟩

lemma suspendKTask_stat {s : State} (hs : Sim s v)
    (hcaller : (stateSched cfg fuel).caller s = some task) :
    (∃ v', Sim (suspendKTask cfg s task).1 v') ∧
      ((suspendKTask cfg s task).1.task task).stat = .suspend := by
  rw [hs.caller] at hcaller
  obtain ⟨hcur, hstat⟩ := Sim.of_caller hcaller
  obtain ⟨lists, -, -, -, hsim, -⟩ := hs.suspendKTask_lists cfg hcur hstat 0
  refine ⟨⟨_, hsim⟩, ?_⟩
  rw [hsim.task, View.setTask_task, if_pos rfl, Task.unSetDelay_stat]

lemma stat_of_caller {s : State} (hs : Sim s v)
    (hcaller : (stateSched cfg fuel).caller s = some task) : (s.task task).stat ≠ .suspend := by
  rw [hs.caller] at hcaller
  obtain ⟨-, hstat⟩ := Sim.of_caller hcaller
  rw [hs.task]
  rintro h
  rw [h] at hstat
  simp at hstat

lemma Sound.worker (hw : w.Sound) (hcaller : (stateSched cfg fuel).caller w.kernel = some task)
    (h : w.workQueueKTaskEntry cfg task = some w') :
    w'.Sound ∧ (w'.Awake task ↔ w.prompt .worker = true) := by
  obtain ⟨v, hs⟩ := hw.sim
  obtain ⟨done, works, hkeeps⟩ := hw.keeps
  have hkeeps' := hkeeps.worker h
  have hstat := stat_of_caller hs hcaller
  rw [workQueueKTaskEntry] at h
  cases hpc : w.pc with
  | loop =>
    have hprompt : w.prompt .worker = true := by simp [prompt, hpc]
    rw [hpc] at h
    dsimp only at h
    split at h
    · cases h
      exact ⟨⟨⟨v, hs⟩, hkeeps', by simp⟩, iff_of_true (fun h => absurd h hstat) hprompt⟩
    · rename_i hempty
      cases h
      exact ⟨⟨⟨v, hs⟩, hkeeps', by simpa using hempty⟩,
        iff_of_true (fun h => absurd h hstat) hprompt⟩
  | taken slot =>
    have hprompt : w.prompt .worker = true := by simp [prompt, hpc]
    rw [hpc] at h
    cases h
    refine ⟨⟨⟨v, hs⟩, hkeeps', fun h => ?_⟩, iff_of_true (fun h => absurd h hstat) hprompt⟩
    dsimp only at h
    split at h <;> cases h
  | tested slot =>
    have hprompt : w.prompt .worker = true := by simp [prompt, hpc]
    rw [hpc] at h
    obtain ⟨f, -, h⟩ := bind_eq_some_iff.mp h
    cases h
    exact ⟨⟨⟨v, hs⟩, hkeeps', by simp⟩, iff_of_true (fun h => absurd h hstat) hprompt⟩
  | fetched slot f =>
    have hprompt : w.prompt .worker = true := by simp [prompt, hpc]
    rw [hpc] at h
    cases h
    exact ⟨⟨⟨v, hs⟩, hkeeps', by simp⟩, iff_of_true (fun h => absurd h hstat) hprompt⟩
  | idle =>
    rw [hpc] at h
    cases h
    obtain ⟨hsim, hsuspend⟩ := suspendKTask_stat hs hcaller
    refine ⟨⟨hsim, hkeeps', by simp⟩, ?_⟩
    have hlate := hw.late hpc
    simp only [Awake, hsuspend, true_implies, prompt, hpc, hlate]
    simp

lemma Sound.step (hw : w.Sound) (h : w.step cfg fuel task op = some w') :
    w'.Sound ∧ (w.Awake task → (w'.Awake task ↔ w.prompt op = true)) := by
  obtain ⟨v, hs⟩ := hw.sim
  have hkeeps' := Keeps.step hw.keeps h
  cases tr_of_step h with
  | refused work => exact ⟨hw, fun h => iff_of_true h rfl⟩
  | submit work hfull hwake =>
    obtain ⟨hsim, hstat⟩ := kTaskWakeup_stat hs hwake
    refine ⟨⟨hsim, hkeeps', fun _ => iff_of_true rfl ?_⟩, fun _ => ?_⟩
    · obtain ⟨done, works, hkeeps⟩ := hw.keeps
      rw [ne_eq, (hkeeps.queued.add hfull work).eq_nil_iff]
      simp
    · exact iff_of_true (fun h => absurd h hstat) rfl
  | worker hcaller hworker =>
    obtain ⟨hsound, hiff⟩ := hw.worker hcaller hworker
    exact ⟨hsound, fun _ => hiff⟩
  | kernel op hkernel hdelay =>
    obtain ⟨v', hstep, hsim⟩ := (hs.step op).post hkernel
    refine ⟨⟨⟨v', hsim⟩, hkeeps', hw.late⟩, fun hawake => iff_of_true (fun hstat => hawake ?_) rfl⟩
    rw [hs.task]
    refine stat_of_step hstep (fun now ticks alloc heq => ?_) (hsim.task ▸ hstat)
    rw [← hs.caller fuel]
    exact hdelay now ticks alloc heq

end WorkWorld

/-- The worker is never suspended with work in the queue, exactly when it never suspends itself
after a work that was accepted since it found the queue empty. -/
theorem workRun_awake_iff {cfg : Config} {s : State} (hs : Initial cfg s) (fuel task : Nat)
    (ops : List WorkOp) :
    Always (WorkWorld.step cfg fuel task) (WorkWorld.Awake task)
        (.create (osAssignReadyVectorInit cfg s)) ops ↔
      Each (WorkWorld.step cfg fuel task) (fun w op => w.prompt op)
        (.create (osAssignReadyVectorInit cfg s)) ops :=
  always_iff_each (I := WorkWorld.Sound) (fun hw h => (hw.step h).1)
    (fun hw hawake h => (hw.step h).2 hawake)
    ⟨⟨_, sim_init hs⟩, ⟨[], [], .create _⟩, by simp [WorkWorld.create]⟩ fun _ => rfl

theorem workRun_awake_iff_sample :
    Always (WorkWorld.step sampleConfig 10 1) (WorkWorld.Awake 1)
      (.create (osAssignReadyVectorInit sampleConfig sampleState))
      [.kernel (.start 1), .kernel (.dispatch 1), .worker, .worker, .submit ⟨some 7, 8⟩] :=
  (workRun_awake_iff sampleState_initial 10 1 _).mpr (by decide +kernel)

theorem worker_sleeps_on_work :
    ∃ w, runs (WorkWorld.step sampleConfig 10 1)
        (.create (osAssignReadyVectorInit sampleConfig sampleState))
        [.kernel (.start 1), .kernel (.dispatch 1), .worker, .submit ⟨some 7, 8⟩, .worker] =
          some w ∧
      (w.kernel.task 1).stat = .suspend ∧ w.queue.front = 0 ∧ w.queue.rear = 1 ∧ ¬ w.Awake 1 := by
  have hrun : (do
      let w ← runs (WorkWorld.step sampleConfig 10 1)
        (.create (osAssignReadyVectorInit sampleConfig sampleState))
        [.kernel (.start 1), .kernel (.dispatch 1), .worker, .submit ⟨some 7, 8⟩, .worker]
      some (decide ((w.kernel.task 1).stat = .suspend ∧ w.queue.front = 0 ∧ w.queue.rear = 1))) =
        some true := by
    decide +kernel
  obtain ⟨w, hw, h⟩ := bind_eq_some_iff.mp hrun
  obtain ⟨hstat, hfront, hrear⟩ := of_decide_eq_true (Option.some.inj h)
  refine ⟨w, hw, hstat, hfront, hrear, fun hawake => ?_⟩
  have heq := hawake hstat
  rw [hfront, hrear] at heq
  cases heq

end Xiuos.Kernel
