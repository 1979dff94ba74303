import Xiuos.Kernel.IdCalls
import Xiuos.Kernel.Workqueue

/-! `WorkSubmit`: works that are put in the queue at once, or by a timer later. -/

namespace Xiuos.Kernel
open Lib Function Option

def timerTriggerOnce : UInt8 := 1

structure WorkTimerParam where
  pWork : Work
  pTimer : Int32

/-- `timerParam` is `param` of the timers whose callback is `work_elem_timeout`.  `fired` are those
of them that have fired and whose callback has not run yet. -/
structure WorkTimers where
  work : WorkWorld
  timers : Timers
  params : List Nat
  param : Nat → WorkTimerParam
  timerParam : Nat → Option Nat
  fired : List Nat

inductive SubmitOp
  | submit (work : Work) (time : UInt32) (mem timerMem : Option Nat)
  | timeout (t : Nat)
  | work (op : WorkOp)
  | timer (op : TimerOp)

namespace WorkTimers

def boot (kernel : State) (idMax hoffset : UInt16) (tick : UInt32) : WorkTimers where
  work := .create kernel
  timers := .boot idMax hoffset tick
  params := []
  param _ := ⟨⟨none, 0⟩, 0⟩
  timerParam _ := none
  fired := []

section
variable (cfg : Config) (fuel task : Nat) (debug : Bool)

/-- The part for a delay.  `mem` and `timerMem` are what `x_malloc` gives for the parameter, which
is used without a check, and for the timer.  The id 0 is taken for a failure. -/
def workSubmitLater (s : WorkTimers) (work : Work) (time : UInt32) (mem timerMem : Option Nat) :
    Option (WorkTimers × Int) := do
  let a ← mem
  let (timers, id) := s.timers.kCreateTimer timerMem time timerTriggerOnce
  let timerParam := match timerMem with
    | some t => update s.timerParam t (some a)
    | none => s.timerParam
  let s := { s with timers, timerParam, param := update s.param a ⟨work, id⟩ }
  if timers.fault then none
  else if id = 0 then some (s, -error)
  else
    let timers ← timers.call fuel id (timers.startRun debug fuel)
    if timers.fault then none else some ({ s with timers, params := a :: s.params }, eok)

def workSubmit (s : WorkTimers) (work : Work) (time : UInt32) (mem timerMem : Option Nat) :
    Option (WorkTimers × Int) :=
  if time = 0 then do
    let (world, _) ← s.work.workSubmitImmediate cfg fuel task work
    some ({ s with work := world }, eok)
  else s.workSubmitLater fuel debug work time mem timerMem

def workElemTimeout (s : WorkTimers) (a : Nat) : Option WorkTimers := do
  let (world, _) ← s.work.workSubmitImmediate cfg fuel task (s.param a).pWork
  some { s with work := world }

def fires (s : WorkTimers) (timers : Timers) : List Nat :=
  s.timers.live.filter fun t => (s.timerParam t).isSome ∧ (s.timers.timer t).activeStatus ∧
    ¬ (timers.timer t).activeStatus

def timerStep (s : WorkTimers) (op : TimerOp) : Option WorkTimers :=
  if s.timers.proper fuel op then do
    let timers ← Kernel.timerStep debug fuel s.timers op
    match op with
    | .create (some t) _ _ =>
      if t ∈ s.params then none
      else some { s with timers, timerParam := update s.timerParam t none }
    | .tick => some { s with timers, fired := s.fired ++ s.fires timers }
    | _ => some { s with timers }
  else none

def Gives (s : WorkTimers) (mem timerMem : Option Nat) : Prop :=
  (∀ a ∈ mem, a ∉ s.params ∧ a ∉ s.timers.live ∧ a ∉ timerMem) ∧
    ∀ t ∈ timerMem, t ∉ s.params ∧ t ∉ s.timers.live

instance (s : WorkTimers) (mem timerMem : Option Nat) : Decidable (s.Gives mem timerMem) :=
  inferInstanceAs (Decidable ((∀ a ∈ mem, _) ∧ ∀ t ∈ timerMem, _))

def step (s : WorkTimers) : SubmitOp → Option WorkTimers
  | .submit work time mem timerMem =>
    if s.Gives mem timerMem then
      (s.workSubmit cfg fuel task debug work time mem timerMem).map Prod.fst
    else none
  | .timeout t =>
    if t ∈ s.fired ∧ t ∈ s.timers.live then do
      let a ← s.timerParam t
      let s := { s with fired := s.fired.erase t }
      if a ∈ s.params then s.workElemTimeout cfg fuel task a else none
    else none
  | .work op => do
    let world ← s.work.step cfg fuel task op
    some { s with work := world }
  | .timer op => s.timerStep fuel debug op

end

def Armed (s : WorkTimers) (a : Nat) (work : Work) (deadline : UInt32) : Prop :=
  a ∈ s.params ∧ (s.param a).pWork = work ∧ ∃ t ∈ s.timers.live, s.timerParam t = some a ∧
    (s.timers.timer t).activeStatus = true ∧ (s.timers.timer t).deadlineTimeslice = deadline ∧
    ∃ ts, Rings s.timers.sort (fun _ => ts) ∧ t ∈ ts

/-- What is expected of a step.  A submission returns `EOK` exactly when the work has been queued or
will be.  A work that was delayed is queued when its time has come, and its parameter, its timer
and the id of the timer are given back. -/
def Kept (cfg : Config) (fuel task : Nat) (debug : Bool) (s : WorkTimers) :
    SubmitOp → WorkTimers → Prop
  | .submit work time mem timerMem, s' => ∀ ret,
      s.workSubmit cfg fuel task debug work time mem timerMem = some (s', ret) →
        (ret = eok ↔ if time = 0 then s'.work.accepted = s.work.accepted ++ [work]
          else ∃ a ∈ mem, s'.Armed a work (s.timers.tick + time))
  | .timeout t, s' => ∀ a, s.timerParam t = some a →
      s'.work.accepted = s.work.accepted ++ [(s.param a).pWork] ∧
        a ∉ s'.params ∧ t ∉ s'.timers.live ∧ ¬ s'.timers.manager.Used (s.timers.manager.id t).toNat
  | .work _, _ => True
  | .timer _, _ => True

def served (s : WorkTimers) : SubmitOp → Bool
  | .submit _ time _ _ => time = 0 → ¬ s.work.queue.full
  | .timeout _ => false
  | .work _ => true
  | .timer _ => true

end WorkTimers

variable {op : TimerOp}

namespace Timers
variable {debug : Bool} {fuel : Nat} {s s' : Timers}

structure Tidy (s : Timers) : Prop where
  bookkept : s.Bookkept
  inv : s.Inv
  carries : ∃ issued, s.pool.Carries issued

lemma Tidy.step (hs : s.Tidy) (hproper : s.proper fuel op = true)
    (h : Kernel.timerStep debug fuel s op = some s') : s'.Tidy := by
  obtain ⟨ts, hsorts⟩ := bookkept_iff.mp hs.bookkept
  obtain ⟨issued, hcarries⟩ := hs.carries
  refine ⟨(hsorts.step_iff hs.inv h).mpr hproper, hs.inv.step h, ?_⟩
  have hnote : noting (Kernel.timerStep debug fuel) Timers.created (s, issued) op = some (s', _) :=
    congrArg (Option.map _) h
  exact ⟨_, Timers.carries hcarries hnote⟩

lemma Tidy.boot (idMax hoffset : UInt16) (tick : UInt32) : (boot idMax hoffset tick).Tidy :=
  ⟨bookkept_iff.mpr ⟨[], sorts_boot idMax hoffset tick⟩, inv_boot idMax hoffset tick, _,
    Pool.Carries.boot idMax hoffset⟩

variable {mem : Option Nat} {time : UInt32} {triggerMode : UInt8} {id : Int32}

lemma Tidy.create (hs : s.Tidy) (hmem : ∀ t ∈ mem, t ∉ s.live)
    (h : s.kCreateTimer mem time triggerMode = (s', id)) (hfault : s'.fault = false) : s'.Tidy := by
  have hstep : Kernel.timerStep false 0 s (.create mem time triggerMode) = some s' := by
    rw [Kernel.timerStep, if_neg (by simp [hs.bookkept.1]), if_pos hmem, h]
  refine hs.step ?_ hstep
  cases mem with
  | none => rfl
  | some t =>
    rw [kCreateTimer, clear_idInsertObj] at h
    rw [proper]
    split
    · rename_i hfreed
      rw [hfreed] at h
      cases h
      cases hfault
    · rfl

lemma toUInt16_id (id : UInt16) : id.toUInt32.toInt32.toUInt32.toUInt16 = id := by simp

lemma kCreateTimer_id (h : s.kCreateTimer mem time triggerMode = (s', id)) (hid : id ≠ 0) :
    ∃ t, mem = some t ∧ t ∈ s'.live ∧ s'.manager.id t = id.toUInt32.toUInt16 ∧
      (s'.timer t).activeStatus = false ∧ (s'.timer t).originTimeslice = time ∧
      s'.tick = s.tick := by
  cases mem with
  | none =>
    cases h
    exact absurd rfl hid
  | some t =>
    rw [kCreateTimer] at h
    cases hins : (s.clear t).manager.idInsertObj (t :: (s.clear t).live) t with
    | full =>
      rw [hins] at h
      cases h
      exact absurd rfl hid
    | freed =>
      rw [hins] at h
      cases h
      exact absurd rfl hid
    | done m id =>
      rw [hins] at h
      cases h
      have hself : m.id t = id := by rw [(idInsertObj_done hins).1, update_self]
      refine ⟨t, rfl, List.mem_cons_self, ?_, ?_, ?_, rfl⟩
      · rw [toUInt16_id]
        exact hself
      · rw [init, modify_self]
      · rw [init, modify_self]

lemma Tidy.startRun (hs : s.Tidy) {t : Nat} (hlive : t ∈ s.live)
    (hid : s.manager.id t = id.toUInt32.toUInt16) (hstop : (s.timer t).activeStatus = false)
    (h : s.call fuel id (Timers.startRun debug fuel s) = some s') (hfault : s'.fault = false) :
    s'.Tidy ∧ t ∈ s'.live ∧ (s'.timer t).activeStatus = true ∧
      (s'.timer t).deadlineTimeslice = s.tick + (s.timer t).originTimeslice ∧
      ∃ ts, Rings s'.sort (fun _ => ts) ∧ t ∈ ts := by
  obtain ⟨issued, hcarries⟩ := hs.carries
  obtain ⟨ts, hsorts⟩ := bookkept_iff.mp hs.bookkept
  have hstep : Kernel.timerStep debug fuel s (.startRun id) = some s' := by
    rw [Kernel.timerStep, if_neg (by simp [hs.bookkept.1])]
    exact h
  obtain ⟨found, hfound, h⟩ := bind_eq_some_iff.mp h
  cases found with
  | missing | freed =>
    cases h
    cases hfault
  | object u =>
    obtain rfl : u = t := hcarries.inj u (live_of_idGetObj hfound) t hlive
      ((id_of_idGetObj hfound).trans hid.symm)
    have hproper : s.proper fuel (.startRun id) = true := by
      rw [proper, finds, hfound]
      simp [hstop]
    obtain ⟨hsorts', sort, rfl⟩ := (hsorts.startRun hlive hstop (check_of_startRun h)).post h
    refine ⟨hs.step hproper hstep, hlive, ?_, ?_, _, hsorts'.ring, ?_⟩
    · simp [started]
    · simp [started]
    · rw [hsorts'.mem]
      exact ⟨hlive, by simp [started]⟩

end Timers

namespace WorkTimers

variable {cfg : Config} {fuel task : Nat} {debug : Bool} {s s' : WorkTimers} {work : Work}
  {ret : Int}

lemma workSubmitImmediate_accepted {w w' : WorkWorld}
    (h : w.workSubmitImmediate cfg fuel task work = some (w', ret)) :
    w'.accepted = if w.queue.full then w.accepted else w.accepted ++ [work] := by
  rw [WorkWorld.workSubmitImmediate] at h
  split at h
  · rename_i hfull
    cases h
    rw [if_pos hfull]
  · rename_i hfull
    obtain ⟨⟨kernel, ret'⟩, -, h⟩ := bind_eq_some_iff.mp h
    cases h
    rw [if_neg hfull]

variable (hs : s.timers.Tidy)
include hs

lemma workSubmitLater_spec {time : UInt32} {mem timerMem : Option Nat}
    (hgives : s.Gives mem timerMem)
    (h : s.workSubmitLater fuel debug work time mem timerMem = some (s', ret)) :
    s'.timers.Tidy ∧ (ret = eok ↔ ∃ a ∈ mem, s'.Armed a work (s.timers.tick + time)) := by
  obtain ⟨a, rfl, hlater⟩ := bind_eq_some_iff.mp h
  clear h
  cases hcreate : s.timers.kCreateTimer timerMem time timerTriggerOnce with
  | mk timers id =>
    rw [hcreate] at hlater
    obtain ⟨hfault, hlater⟩ := ite_none_left_eq_some.mp hlater
    have htidy := hs.create (fun t ht => (hgives.2 t ht).2) hcreate (by simpa using hfault)
    split at hlater
    · cases hlater
      refine ⟨htidy, iff_of_false (by decide) ?_⟩
      rintro ⟨b, hb, harmed⟩
      cases hb
      exact (hgives.1 a rfl).1 harmed.1
    · rename_i hid
      obtain ⟨t, rfl, hlive, hself, hstop, horigin, htick⟩ := Timers.kCreateTimer_id hcreate hid
      obtain ⟨timers', hcall, hlater⟩ := bind_eq_some_iff.mp hlater
      obtain ⟨hfault', hlater⟩ := ite_none_left_eq_some.mp hlater
      cases hlater
      obtain ⟨htidy', hlive', hactive, hdeadline, hlist⟩ :=
        htidy.startRun hlive hself hstop hcall (by simpa using hfault')
      rw [horigin, htick] at hdeadline
      refine ⟨htidy', iff_of_true rfl ⟨a, rfl, List.mem_cons_self, ?_, t, hlive', ?_, hactive,
        hdeadline, hlist⟩⟩
      · simp
      · simp

lemma submit_spec {time : UInt32} {mem timerMem : Option Nat} (hgives : s.Gives mem timerMem)
    (h : s.workSubmit cfg fuel task debug work time mem timerMem = some (s', ret)) :
    s'.timers.Tidy ∧ ((ret = eok ↔ if time = 0 then s'.work.accepted = s.work.accepted ++ [work]
      else ∃ a ∈ mem, s'.Armed a work (s.timers.tick + time)) ↔
        s.served (.submit work time mem timerMem) = true) := by
  rw [workSubmit] at h
  by_cases htime : time = 0
  · rw [if_pos htime] at h
    obtain ⟨⟨world, ret'⟩, hsubmit, h⟩ := bind_eq_some_iff.mp h
    cases h
    refine ⟨hs, ?_⟩
    simp only [workSubmitImmediate_accepted hsubmit, served, htime]
    by_cases hfull : s.work.queue.full = true
    · simp [hfull]
    · simp [hfull]
  · rw [if_neg htime] at h
    obtain ⟨htidy, hiff⟩ := workSubmitLater_spec hs hgives h
    refine ⟨htidy, ?_⟩
    rw [if_neg htime]
    exact iff_of_true hiff (by simp [served, htime])

omit hs in
lemma timeout_spec {t : Nat} (h : s.step cfg fuel task debug (.timeout t) = some s') :
    s'.timers = s.timers ∧ ∃ a, s.timerParam t = some a ∧ a ∈ s'.params := by
  obtain ⟨-, h⟩ := ite_none_right_eq_some.mp h
  obtain ⟨a, ha, h⟩ := bind_eq_some_iff.mp h
  obtain ⟨hmem, h⟩ := ite_none_right_eq_some.mp h
  obtain ⟨⟨world, ret⟩, -, h⟩ := bind_eq_some_iff.mp h
  cases h
  exact ⟨rfl, a, ha, hmem⟩

lemma timerStep_spec (h : s.timerStep fuel debug op = some s') : s'.timers.Tidy := by
  obtain ⟨hproper, h⟩ := ite_none_right_eq_some.mp h
  obtain ⟨timers, hstep, h⟩ := bind_eq_some_iff.mp h
  have htidy := hs.step hproper hstep
  split at h
  · obtain ⟨-, h⟩ := ite_none_left_eq_some.mp h
    cases h
    exact htidy
  · cases h
    exact htidy
  · cases h
    exact htidy

lemma kept_iff {op : SubmitOp} (h : s.step cfg fuel task debug op = some s') :
    s'.timers.Tidy ∧ (s.Kept cfg fuel task debug op s' ↔ s.served op = true) := by
  cases op with
  | submit work time mem timerMem =>
    obtain ⟨hgives, h⟩ := ite_none_right_eq_some.mp h
    obtain ⟨⟨s₁, ret⟩, hsubmit, rfl⟩ := map_eq_some_iff.mp h
    obtain ⟨htidy, hiff⟩ := submit_spec hs hgives hsubmit
    refine ⟨htidy, ?_⟩
    rw [← hiff]
    refine ⟨fun h => h ret hsubmit, fun h ret' hsubmit' => ?_⟩
    rw [hsubmit] at hsubmit'
    cases hsubmit'
    exact h
  | timeout t =>
    obtain ⟨htimers, a, ha, hmem⟩ := timeout_spec h
    refine ⟨htimers ▸ hs, iff_of_false (fun hkept => ?_) (by simp [served])⟩
    exact (hkept a ha).2.1 hmem
  | work op =>
    obtain ⟨world, -, h⟩ := bind_eq_some_iff.mp h
    cases h
    exact ⟨hs, iff_of_true True.intro rfl⟩
  | timer op => exact ⟨timerStep_spec hs h, iff_of_true True.intro rfl⟩

end WorkTimers

end Xiuos.Kernel
