import Xiuos.Kernel.View
import Xiuos.Kernel.KtaskRun
import Xiuos.Lib.Run

/-! What the objects use of the scheduler, over pointers and over lists. -/

namespace Xiuos.Kernel
open Lib Function List Option View

/-- What happens between the critical sections of the objects: a task is started, the processor
goes to some ready task, a delay runs out, the running task goes to sleep. -/
inductive KernelOp
  | start (t : Nat)
  | dispatch (t : Nat)
  | expire (t : Nat)
  | delay (now ticks : UInt32) (alloc : Bool)
  deriving DecidableEq

/-- The calls of the scheduler that `mutex.c`, `semaphore.c`, `msgqueue.c`, `event.c` and
`gatherblock.c` make. -/
structure Sched (κ : Type) where
  task : κ → Nat → Task
  getKTaskDescriptor : κ → Option Nat
  /-- the first task of a pend list -/
  first : κ → Nat → Option Nat
  setExstatus : κ → Nat → Int → κ
  linklistSuspend : κ → Nat → Nat → LinklistFlag → Option κ
  linklistResume : κ → Nat → Option κ
  suspendFront : κ → Nat → Nat → κ
  kTaskWakeup : κ → Nat → Option κ
  forEachPend : {σ : Type} → κ → Nat → (κ → σ → Nat → Option (κ × σ)) → σ → Option (κ × σ)
  kTaskSetDelay : κ → Nat → UInt32 → UInt32 → Bool → Option κ
  kTaskPrioSet : κ → Nat → UInt8 → Option κ
  start : κ → Nat → Option κ
  dispatch : κ → Nat → Option κ
  expire : κ → Nat → Option κ
  delay : κ → UInt32 → UInt32 → Bool → Option κ

inductive Outcome
  | returned (ret : Int)
  | suspended
  deriving DecidableEq

namespace Sched
variable {κ : Type} (k : Sched κ)

def caller (s : κ) : Option Nat :=
  (k.getKTaskDescriptor s).filter fun t => (k.task s t).stat = .ready ∨ (k.task s t).stat = .running

def step (s : κ) : KernelOp → Option κ
  | .start t => k.start s t
  | .dispatch t => if (k.task s t).stat = .ready then k.dispatch s t else none
  | .expire t => k.expire s t
  | .delay now ticks alloc => do
    let _ ← k.caller s
    k.delay s now ticks alloc

def startTimer (s : κ) (t : Nat) (waitTime : Int32) (now : UInt32) (alloc : Bool) : Option κ :=
  if waitTime > 0 then k.kTaskSetDelay s t now waitTime.toUInt32 alloc else some s

end Sched

def State.setExstatus (s : State) (t : Nat) (exstatus : Int) : State :=
  s.modifyTask t ({ · with exstatus })

def stateSched (cfg : Config) (fuel : Nat) : Sched State where
  task s := s.task
  getKTaskDescriptor s := s.osRunningTask
  first s k := match s.links.next (.inl (.pend k)) with
    | .inr (.sched t) => some t
    | _ => none
  setExstatus := State.setExstatus
  linklistSuspend s k t flag := (linklistSuspend cfg fuel s k t flag).map (·.1)
  linklistResume s k := (linklistResume cfg fuel s k).map (·.1)
  suspendFront := suspendFront cfg
  kTaskWakeup s t := (kTaskWakeup cfg fuel s t).map (·.1)
  forEachPend s k body x := forEachPend k body fuel (s.links.next (.inl (.pend k))) s x
  kTaskSetDelay s t now ticks alloc := (kTaskSetDelay fuel s t now ticks alloc).map (·.1)
  kTaskPrioSet s t prio := (kTaskPrioSet cfg fuel s t prio).map (·.1)
  start s t := (startupKTask cfg fuel s t).map (·.1)
  dispatch s t := dispatch cfg fuel s t
  expire s t := expireDelay cfg fuel s t
  delay s now ticks alloc := (delayKTask cfg fuel s now ticks alloc).map (·.1)

def viewSched (cfg : Config) : Sched View where
  task v := v.task
  getKTaskDescriptor v := v.current
  first v k := (v.pend k).head?
  setExstatus := setExstatus
  linklistSuspend v k t flag := some (v.suspend k t flag)
  linklistResume v k := (v.pend k).head?.map fun t => v.release t (v.task t).exstatus
  suspendFront := View.suspendFront
  kTaskWakeup v t :=
    some (if (v.task t).stat = .suspend then v.release t (v.task t).exstatus else v)
  forEachPend v k body x := (v.pend k).foldlM (fun r t => body r.1 r.2 t) (v, x)
  kTaskSetDelay v t now ticks alloc := some (v.arm t now ticks alloc)
  kTaskPrioSet v t prio := some (v.setPrio cfg t prio)
  start v t := some (v.start cfg t)
  dispatch v t := some (v.dispatch t)
  expire v t := some (v.expire t)
  delay v now ticks alloc := v.current.map fun t =>
    if ticks = 0 then v else (v.suspend 0 t .other).arm t now ticks alloc

section
variable (cfg : Config)
include cfg

@[simp] lemma stateSched_task (fuel : Nat) (s : State) :
    (stateSched cfg fuel).task s = s.task := rfl

@[simp] lemma stateSched_setExstatus (fuel : Nat) (s : State) (t : Nat) (exstatus : Int) :
    (stateSched cfg fuel).setExstatus s t exstatus = s.setExstatus t exstatus := rfl

variable (v : View)
include v

@[simp] lemma viewSched_task : (viewSched cfg).task v = v.task := rfl

@[simp] lemma viewSched_setExstatus (t : Nat) (exstatus : Int) :
    (viewSched cfg).setExstatus v t exstatus = v.setExstatus t exstatus := rfl

@[simp] lemma viewSched_linklistSuspend (k t : Nat) (flag : LinklistFlag) :
    (viewSched cfg).linklistSuspend v k t flag = some (v.suspend k t flag) := rfl

@[simp] lemma viewSched_first (k : Nat) : (viewSched cfg).first v k = (v.pend k).head? := rfl

@[simp] lemma viewSched_linklistResume (k : Nat) :
    (viewSched cfg).linklistResume v k =
      (v.pend k).head?.map fun t => v.release t (v.task t).exstatus := rfl

@[simp] lemma viewSched_kTaskWakeup (t : Nat) :
    (viewSched cfg).kTaskWakeup v t =
      some (if (v.task t).stat = .suspend then v.release t (v.task t).exstatus else v) := rfl

end

namespace View
variable (v : View) (cfg : Config) (t u : Nat) (waitTime : Int32) (now : UInt32) (alloc : Bool)

def timer : View := if waitTime > 0 then v.arm t now waitTime.toUInt32 alloc else v

lemma startTimer_eq :
    (viewSched cfg).startTimer v t waitTime now alloc = some (v.timer t waitTime now alloc) :=
  (apply_ite some _ _ _).symm

@[simp] lemma timer_base : ((v.timer t waitTime now alloc).task u).base = (v.task u).base := by
  rw [timer, apply_ite (fun v : View => (v.task u).base), arm_base, ite_self]

@[simp] lemma timer_stat : ((v.timer t waitTime now alloc).task u).stat = (v.task u).stat := by
  rw [timer, apply_ite (fun v : View => (v.task u).stat), arm_stat, ite_self]

@[simp] lemma timer_exstatus :
    ((v.timer t waitTime now alloc).task u).exstatus = (v.task u).exstatus := by
  rw [timer, apply_ite (fun v : View => (v.task u).exstatus), arm_exstatus, ite_self]

@[simp] lemma timer_prio : (v.timer t waitTime now alloc).prio u = v.prio u := by
  rw [timer, apply_ite (fun v : View => v.prio u), arm_prio, ite_self]

@[simp] lemma timer_pend : (v.timer t waitTime now alloc).pend = v.pend := by
  rw [timer, apply_ite pend, arm_pend, ite_self]

end View

inductive View.Step (cfg : Config) (v : View) : KernelOp → View → Prop
  | start (t : Nat) : Step cfg v (.start t) (v.start cfg t)
  | dispatch (t : Nat) (h : (v.task t).stat = .ready) : Step cfg v (.dispatch t) (v.dispatch t)
  | expire (t : Nat) : Step cfg v (.expire t) (v.expire t)
  | delay (now ticks : UInt32) (alloc : Bool) (t : Nat) (h : (viewSched cfg).caller v = some t) :
      Step cfg v (.delay now ticks alloc)
        (if ticks = 0 then v else (v.suspend 0 t .other).arm t now ticks alloc)

lemma View.step_cases {cfg : Config} {v v' : View} {op : KernelOp}
    (h : (viewSched cfg).step v op = some v') : Step cfg v op v' := by
  cases op with
  | start t =>
    cases h
    exact .start t
  | dispatch t =>
    obtain ⟨hready, h⟩ := ite_none_right_eq_some.mp h
    cases h
    exact .dispatch t hready
  | expire t =>
    cases h
    exact .expire t
  | delay now ticks alloc =>
    obtain ⟨t, ht, h⟩ := bind_eq_some_iff.mp h
    have hcur := (filter_eq_some_iff.mp ht).1
    simp only [viewSched] at hcur h
    rw [hcur] at h
    cases h
    exact .delay now ticks alloc t ht

def Active (task : Task) : Prop := task.stat = .ready ∨ task.stat = .running

def Begun (task : Task) : Prop := task.stat ≠ .init ∧ task.stat ≠ .close

def View.Waits (v : View) : Prop := ∀ k t, t ∈ v.pend k → (v.task t).stat = .suspend

lemma Active.begun {task : Task} (h : Active task) : Begun task := by
  obtain h | h := h <;> simp [Begun, h]

lemma View.Waits.not_mem {v : View} (hw : v.Waits) {t : Nat} (hact : Active (v.task t))
    (k : Nat) : t ∉ v.pend k := by
  intro hk
  have := hw k t hk
  simp [Active, this] at hact

section
variable {cfg : Config} {v v' : View} {op : KernelOp} {u : Nat}

lemma View.sublist_of_step (hw : v.Waits) (h : (viewSched cfg).step v op = some v') (k : Nat) :
    (v'.pend k).Sublist (v.pend k) := by
  obtain t | ⟨t, -⟩ | t | ⟨now, ticks, alloc, t, ht⟩ := step_cases h
  · simp
  · simp
  · rw [expire_pend _ _ _ hw]
    exact erase_sublist
  · split
    · exact List.Sublist.refl _
    · by_cases hk : k = 0
      · subst hk
        simp [suspend_pend, enqueue]
      · simp [suspend_pend, hk]

lemma View.mem_of_step (hw : v.Waits) (h : (viewSched cfg).step v op = some v') {k : Nat}
    (hu : u ∈ v'.pend k) : u ∈ v.pend k := (sublist_of_step hw h k).subset hu

variable (h : (viewSched cfg).step v op = some v')
include h

lemma View.begun_of_step (hu : Begun (v.task u)) : Begun (v'.task u) := by
  obtain t | ⟨t, -⟩ | t | ⟨now, ticks, alloc, t, ht⟩ := step_cases h
  · simpa [Begun, start_stat, hu.1] using hu
  · rw [Begun, dispatch_stat]
    split
    · simp
    · split
      · simp
      · exact hu
  · rw [Begun, expire_stat]
    split
    · simp
    · exact hu
  · split
    · exact hu
    · rw [Begun, arm_stat, suspend_stat]
      split
      · simp
      · exact hu

lemma View.prio_of_step (hu : (v.task u).stat ≠ .init) : v'.prio u = v.prio u := by
  obtain t | ⟨t, -⟩ | t | ⟨now, ticks, alloc, t, ht⟩ := step_cases h
  · simp [start_prio, hu]
  · simp
  · simp
  · split <;> simp

lemma View.base_of_step (u : Nat) : (v'.task u).base = (v.task u).base := by
  obtain t | ⟨t, -⟩ | t | ⟨now, ticks, alloc, t, ht⟩ := step_cases h
  · simp
  · simp
  · simp
  · split <;> simp

end

section
variable {σ : Type} (k : Nat) (body : State → σ → Nat → Option (State × σ)) (fuel d : Nat)
variable (s : State) (x : σ)

lemma forEachPend_end : forEachPend k body (fuel - d) (.inl (.pend k)) s x =
    if fuel ≤ d then none else some (s, x) := by
  by_cases h : fuel ≤ d
  · rw [if_pos h, Nat.sub_eq_zero_of_le h, forEachPend]
  · have hsub : fuel - d = fuel - (d + 1) + 1 := by omega
    rw [if_neg h, hsub, forEachPend, if_pos rfl]
    simp

lemma forEachPend_sched (t : Nat) : forEachPend k body (fuel - d) (.inr (.sched t)) s x =
    if fuel ≤ d then none
    else body s x t >>= fun r =>
      forEachPend k body (fuel - (d + 1)) (s.links.next (.inr (.sched t))) r.1 r.2 := by
  by_cases h : fuel ≤ d
  · rw [if_pos h, Nat.sub_eq_zero_of_le h, forEachPend]
  · have hsub : fuel - d = fuel - (d + 1) + 1 := by omega
    rw [if_neg h, hsub, forEachPend, if_neg (by simp)]

end

namespace Sim
variable {cfg : Config} {s : State} {v : View} {t k : Nat} (hs : Sim s v)
include hs

lemma waits : v.Waits := fun _ _ ht => hs.stat_of_mem ht

lemma first (fuel k : Nat) : (stateSched cfg fuel).first s k = (viewSched cfg).first v k := by
  simp only [stateSched, viewSched, hs.next_pend]
  cases v.pend k <;> rfl

lemma caller (fuel : Nat) : (stateSched cfg fuel).caller s = (viewSched cfg).caller v := by
  simp only [Sched.caller, stateSched, viewSched, hs.task, hs.current]
  rfl

lemma setExstatus (t : Nat) (exstatus : Int) :
    Sim (s.setExstatus t exstatus) (v.setExstatus t exstatus) :=
  hs.modify (f := ({ · with exstatus })) rfl (.inr rfl) rfl

omit hs in
lemma of_caller {v : View} (h : (viewSched cfg).caller v = some t) :
    v.current = some t ∧ ((v.task t).stat = .ready ∨ (v.task t).stat = .running) := by
  rw [Sched.caller, filter_eq_some_iff] at h
  exact ⟨h.1, of_decide_eq_true h.2⟩

lemma suspends (hcur : v.current = some t)
    (hstat : (v.task t).stat = .ready ∨ (v.task t).stat = .running) (k : Nat)
      (flag : LinklistFlag) :
    Follows (fun fuel => (stateSched cfg fuel).linklistSuspend s k t flag)
      ((viewSched cfg).linklistSuspend v k t flag) Sim :=
  (hs.linklistSuspend hcur hstat k flag).follows

lemma resumes (k : Nat) :
    Follows (fun fuel => (stateSched cfg fuel).linklistResume s k)
      ((viewSched cfg).linklistResume v k) Sim := by
  simp only [stateSched, viewSched]
  cases hpend : v.pend k with
  | nil =>
    intro fuel
    simp [Kernel.linklistResume, hs.next_pend, hpend, Links.entry]
  | cons t ts => exact (hs.linklistResume hpend).follows

lemma wakes (t : Nat) :
    Follows (fun fuel => (stateSched cfg fuel).kTaskWakeup s t)
      ((viewSched cfg).kTaskWakeup v t) Sim := by
  by_cases hstat : (v.task t).stat = .suspend
  · simp only [stateSched, viewSched, hstat, if_true]
    exact (hs.kTaskWakeup hstat).follows
  · simp only [stateSched, viewSched, Kernel.kTaskWakeup, hs.task, hstat, ne_eq, not_false_eq_true,
      if_true, if_false]
    exact .pure hs

lemma forEachPend (k : Nat) {σ : Type} {body : Nat → State → σ → Nat → Option (State × σ)}
    {body' : View → σ → Nat → Option (View × σ)}
    (hbody : ∀ {s v x t}, Sim s v → t ∈ v.pend k →
      Follows (fun fuel => body fuel s x t) (body' v x t) fun r r' => Sim r.1 r'.1 ∧ r.2 = r'.2)
    (hkeep : ∀ {s v x t v' x'}, Sim s v → t ∈ v.pend k → body' v x t = some (v', x') →
      v'.pend k = v.pend k ∨ v'.pend k = (v.pend k).erase t)
    (x : σ) :
    Follows (fun fuel => (stateSched cfg fuel).forEachPend s k (body fuel) x)
      ((viewSched cfg).forEachPend v k body' x) fun r r' => Sim r.1 r'.1 ∧ r.2 = r'.2 := by
  -- the tasks that are left are the end of the list
  have hloop : ∀ (ts : List Nat) (d : Nat) {s v x} (pre : List Nat), Sim s v →
      v.pend k = pre ++ ts →
      Follows (fun fuel => Kernel.forEachPend k (body fuel) (fuel - d)
          (Links.entry (.inl (.pend k)) (ts.map (.inr ∘ .sched))) s x)
        (ts.foldlM (fun r t => body' r.1 r.2 t) (v, x)) fun r r' => Sim r.1 r'.1 ∧ r.2 = r'.2 := by
    intro ts
    induction ts with
    | nil =>
      intro d s v x pre hs _
      have hend : Follows (fun _ => some (s, x)) (some (v, x)) fun r r' =>
          Sim r.1 r'.1 ∧ r.2 = r'.2 := .pure ⟨hs, rfl⟩
      rw [map_nil, Links.entry, funext fun fuel => forEachPend_end k (body fuel) fuel d s x]
      exact hend.guard d
    | cons t ts ih =>
      intro d s v x pre hs hpend
      have ht : t ∈ v.pend k := by simp [hpend]
      have hnext := hs.next_sched hpend
      have hstep : Follows (fun fuel => body fuel s x t >>= fun r =>
          Kernel.forEachPend k (body fuel) (fuel - (d + 1))
            (Links.entry (.inl (.pend k)) (ts.map (.inr ∘ .sched))) r.1 r.2)
          ((t :: ts).foldlM (fun r t => body' r.1 r.2 t) (v, x)) fun r r' =>
            Sim r.1 r'.1 ∧ r.2 = r'.2 := by
        rw [foldlM_cons]
        refine (hbody hs ht).bind ?_
        rintro ⟨s', x'⟩ ⟨v', y'⟩ hv' ⟨hs', rfl : x' = y'⟩
        obtain hsame | herase := hkeep hs ht hv'
        · exact ih (d + 1) (pre ++ [t]) hs' (by simp [hsame, hpend])
        · have hnot : t ∉ pre := by
            have hnodup := hs.nodup k
            rw [hpend] at hnodup
            exact fun hm => (nodup_append.mp hnodup).2.2 t hm t (by simp) rfl
          refine ih (d + 1) pre hs' ?_
          rw [herase, hpend, erase_append_right _ hnot, erase_cons_head]
      rw [map_cons, Links.entry, comp_apply,
        funext fun fuel => forEachPend_sched k (body fuel) fuel d s x t, hnext]
      exact hstep.guard d
  have h := hloop (v.pend k) 0 (x := x) [] hs rfl
  rw [← hs.next_pend] at h
  exact h

lemma sets (hstat : (v.task t).stat = .suspend) (now ticks : UInt32) (alloc : Bool) :
    Follows (fun fuel => (stateSched cfg fuel).kTaskSetDelay s t now ticks alloc)
      ((viewSched cfg).kTaskSetDelay v t now ticks alloc) Sim :=
  (hs.kTaskSetDelay hstat now ticks alloc).follows

lemma startTimer (hstat : (v.task t).stat = .suspend) (waitTime : Int32) (now : UInt32)
    (alloc : Bool) :
    Returns (fun fuel => (stateSched cfg fuel).startTimer s t waitTime now alloc) fun s' =>
      Sim s' (v.timer t waitTime now alloc) := by
  simp only [Sched.startTimer, timer]
  split
  · exact hs.sets hstat now _ alloc
  · exact .pure hs

lemma prioSets (t : Nat) (prio : UInt8) :
    Follows (fun fuel => (stateSched cfg fuel).kTaskPrioSet s t prio)
      ((viewSched cfg).kTaskPrioSet v t prio) Sim := (hs.kTaskPrioSet t prio).follows

lemma step (op : KernelOp) :
    Follows (fun fuel => (stateSched cfg fuel).step s op) ((viewSched cfg).step v op) Sim := by
  cases op with
  | start t => exact (hs.startupKTask t).follows
  | dispatch t =>
    by_cases hstat : (v.task t).stat = .ready
    · simp only [Sched.step, stateSched, viewSched, hs.task, hstat, if_true]
      exact hs.dispatch hstat
    · simp only [Sched.step, stateSched, viewSched, hs.task, hstat, if_false]
      exact .none
  | expire t => exact hs.expireDelay t
  | delay now ticks alloc =>
    simp only [Sched.step, hs.caller]
    cases hc : (viewSched cfg).caller v with
    | none => exact .none
    | some t =>
      obtain ⟨hcur, hstat⟩ := of_caller hc
      simp only [bind_eq_bind, bind_some, viewSched, hcur, map_some]
      exact (hs.delayKTask hcur hstat 0 now ticks alloc).follows

end Sim

def bootView (cfg : Config) (s : State) : View where
  task := (osAssignReadyVectorInit cfg s).task
  pend _ := []
  current := s.osRunningTask

lemma sim_init {cfg : Config} {s : State} (hs : Initial cfg s) :
    Sim (osAssignReadyVectorInit cfg s) (bootView cfg s) := by
  refine ⟨rfl, rfl, fun _ => [], ⟨fun h => init_next hs _, by simp, by simp, fun n _ =>
    init_next hs _⟩, ⟨fun p n => ?_, by simp, by simp, by simp⟩, fun k => rfl⟩
  simp [bootView, osAssignReadyVectorInit, hs.stat]

end Xiuos.Kernel
