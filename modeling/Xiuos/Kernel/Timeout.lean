import Xiuos.Kernel.Delay
import Xiuos.Kernel.Event
import Xiuos.Kernel.GatherRun
import Xiuos.Kernel.MsgQueueLaws
import Xiuos.Kernel.Mutex
import Xiuos.Kernel.Semaphore

/-! The timeouts of the blocking calls, in the order in which each of them suspends the caller and
starts its timer. -/

namespace Xiuos.Kernel
open Lib Function Option View

inductive ObjectCall
  | semaphore (m : Nat) (sem : Semaphore)
  | mutex (m : Nat) (x : Mutex)
  | event (m : Nat) (o : Events) (events options : BitVec 32)
  | msgQueue (m : Nat) (mq : MsgQueue) (request : MqRequest)
  | gather (cfg : HeapConfig) (m : Nat) (o : Gathers)

inductive TimedCall
  | object (c : ObjectCall)
  | delay
  | poll (triggered : Bool)
  | waitqueue

section

variable {κ : Type} (k : Sched κ) (kernel : κ) (t : Nat) (waitTime : Int32) (now : UInt32)
  (alloc : Bool)

def ObjectCall.run : ObjectCall → Option (κ × Outcome)
  | .semaphore m sem =>
    (semaphoreObtain k kernel sem m t waitTime now alloc).map fun r => (r.1, r.2.2)
  | .mutex m x => (mutexObtain k kernel x m t waitTime now alloc).map fun r => (r.1, r.2.2)
  | .event m o events options =>
    (eventProcess k kernel o m t events options waitTime now alloc).map fun r => (r.1, r.2.2)
  | .msgQueue m mq request =>
    (mqBegin k kernel mq m t request waitTime now alloc).map fun r => (r.1, r.2.2.2)
  | .gather cfg m o =>
    (allocLoop cfg k ⟨kernel, o, fun _ => none⟩ m t waitTime now alloc).map fun w =>
      (w.kernel, if w.call t ≠ none then .suspended
        else .returned (if (o.gather m).blockFreeNumber = 0 then -etimeout else eok))

/-- `SuspendKTask` alone is what `LinklistSuspend` does for a flag that it does not know. -/
def TimedCall.run : TimedCall → Option (κ × Outcome)
  | .object c => c.run k kernel t waitTime now alloc
  | .delay =>
    if waitTime = 0 then some (kernel, .returned (-einvaled))
    else (k.delay kernel now waitTime.toUInt32 alloc).map (·, .suspended)
  | .poll triggered =>
    if waitTime ≠ 0 ∧ !triggered then do
      let kernel ← k.linklistSuspend kernel 0 t .other
      let kernel ← k.startTimer kernel t waitTime now alloc
      some (kernel, .suspended)
    else some (kernel, .returned (if triggered then 0 else 1))
  | .waitqueue =>
    if waitTime = 0 then some (kernel, .returned 0)
    else do
      let kernel ← if waitTime ≠ -1 then k.kTaskSetDelay kernel t now waitTime.toUInt32 alloc
        else some kernel
      let kernel ← k.linklistSuspend kernel 0 t .other
      some (kernel, .suspended)

end

variable (t : Nat)

/-- What the call is about is not there. -/
def ObjectCall.Waits (t : Nat) : ObjectCall → Prop
  | .semaphore _ sem => sem.value = 0
  | .mutex _ x => x.val = 0 ∧ ∃ holder, x.holder = some holder ∧ holder ≠ t
  | .event m o events options =>
    events ≠ 0 ∧ eventMet ((o.event m).events.setWidth 32) events options = false
  | .msgQueue _ mq request => request.Fits mq ∧ request.Blocked mq
  | .gather _ m o => (o.gather m).blockFreeNumber = 0

def ObjectCall.Available (t : Nat) : ObjectCall → Prop
  | .semaphore _ sem => sem.value ≠ 0
  | .mutex _ x => x.holder = some t ∨ x.val ≠ 0
  | .event m o events options =>
    events ≠ 0 ∧ eventMet ((o.event m).events.setWidth 32) events options = true
  | .msgQueue _ mq request => request.Fits mq ∧ ¬ request.Blocked mq
  | .gather _ m o => (o.gather m).blockFreeNumber ≠ 0

/-- What holds of the mutexes and gathers that the kernel has made: one that is taken has a holder,
and one with free blocks has a first of them. -/
def ObjectCall.Kept : ObjectCall → Prop
  | .mutex _ x => x.val = 0 → x.holder ≠ none
  | .gather _ m o => (o.gather m).blockFreeNumber ≠ 0 → (o.gather m).mBlockLink ≠ 0
  | _ => True

def TimedCall.Waits (t : Nat) : TimedCall → Prop
  | .object c => c.Waits t
  | .poll triggered => triggered = false
  | _ => True

def Parked (v v' : View) (t : Nat) : Prop :=
  (v'.task t).stat = .suspend ∧ ((v'.task t).delay = none ↔ (v.task t).delay = none)

section
variable {cfg : Config} {v v' : View} {t : Nat} {waitTime : Int32} {now : UInt32} {alloc : Bool}

lemma Task.unSetDelay_delay_eq_none (task : Task) :
    task.unSetDelay.delay = none ↔ task.delay = none := by
  rw [Task.unSetDelay]
  split <;> simp [*]

lemma parked_suspend (h : (v'.task t).delay = none ↔ (v.task t).delay = none) (k : Nat)
    (flag : LinklistFlag) : Parked v (v'.suspend k t flag) t := by
  refine ⟨by simp [suspend_stat], ?_⟩
  simpa [suspend, View.setTask, Task.unSetDelay_delay_eq_none] using h

lemma parked_suspendFront (k : Nat) : Parked v ((v.setExstatus t eok).suspendFront k t) t := by
  simp [Parked, View.suspendFront, View.setExstatus, View.setTask, Task.unSetDelay_delay_eq_none]

variable {c : ObjectCall}

lemma ObjectCall.run_of_waits (h : c.Waits t) (hw : waitTime ≠ 0) :
    ∃ v', Parked v v' t ∧ c.run (viewSched cfg) v t waitTime now alloc =
      some (v'.timer t waitTime now alloc, .suspended) := by
  have hex : ((v.setExstatus t eok).task t).delay = none ↔ (v.task t).delay = none := by
    simp [View.setExstatus, View.setTask]
  cases c with
  | semaphore m sem =>
    refine ⟨_, parked_suspend hex m .prio, ?_⟩
    have hv : ¬ sem.value > 0 := by simp [show sem.value = 0 from h]
    simp only [run, semaphoreObtain, if_neg hv, if_neg hw, startTimer_eq, bind_eq_bind]
    rfl
  | mutex m x =>
    obtain ⟨hval, holder, hh, hne⟩ := h
    obtain ⟨v₂, hv₂, hd⟩ : ∃ v₂,
        inheritPrio (viewSched cfg) (v.setExstatus t eok) holder t = some v₂ ∧
        v₂.task t = (v.setExstatus t eok).task t := by
      rw [inheritPrio]
      split
      · refine ⟨_, rfl, ?_⟩
        rw [setPrio]
        split
        · rfl
        · exact update_of_ne (Ne.symm hne) ..
      · exact ⟨_, rfl, rfl⟩
    refine ⟨_, parked_suspend (by rwa [hd]) m .prio, ?_⟩
    have hholder : ¬ some holder = some t := by simpa using hne
    have hv : ¬ x.val > 0 := by simp [hval]
    simp only [run, mutexObtain, viewSched_setExstatus, if_neg hholder, if_neg hv, if_neg hw, hh,
      hv₂, startTimer_eq, bind_eq_bind, bind_some]
    rfl
  | event m o events options =>
    obtain ⟨h0, hmet⟩ := h
    refine ⟨_, parked_suspend hex m (o.event m).flag, ?_⟩
    simp only [run, eventProcess, if_neg h0, hmet, if_neg hw, startTimer_eq, bind_eq_bind,
      Bool.false_eq_true, if_false]
    rfl
  | msgQueue m mq request =>
    obtain ⟨hfits, hblocked⟩ := h
    cases request with
    | send buffer =>
      refine ⟨_, parked_suspend hex (2 * m) .fifo, ?_⟩
      simp only [run, mqBegin, msgQueueSend, if_neg (Nat.not_lt.mpr hfits), hw, and_false, if_false,
        msgQueueSendLoop, if_pos (show mq.numMsgs ≥ mq.maxMsgs from hblocked), waitFifo,
        startTimer_eq, bind_eq_bind]
      rfl
    | recv size =>
      refine ⟨_, parked_suspend hex (2 * m + 1) .fifo, ?_⟩
      simp only [run, mqBegin, msgQueueRecv, hw, and_false, if_false, msgQueueRecvLoop,
        if_pos (show mq.numMsgs ≤ 0 from hblocked), waitFifo, startTimer_eq, bind_eq_bind]
      rfl
  | gather cfg m o =>
    refine ⟨_, parked_suspendFront m, ?_⟩
    have h0 : 0 = (o.gather m).blockFreeNumber := Eq.symm h
    simp only [run, allocLoop, if_pos h0, if_neg hw, startTimer_eq, bind_eq_bind, bind_some]
    simp [World.setCall]
    rfl

lemma timer_delay_iff (hp : Parked v v' t) (hw : 0 < waitTime) :
    ((v'.timer t waitTime now alloc).task t).delay = some ⟨now + waitTime.toUInt32, true⟩ ↔
      alloc ∨ (v.task t).delay ≠ none := by
  rw [timer, if_pos hw, arm, ne_eq, ← hp.2]
  split
  · rename_i h
    simp [h.1]
    simpa using h.2
  · rename_i h
    simp only [View.setTask, update_self, true_iff]
    by_cases ha : alloc
    · exact .inl ha
    · exact .inr fun hd => h ⟨hd, by simpa using ha⟩

lemma armed_of_setExstatus {u : Nat} {exstatus : Int}
    (h : ((v.setExstatus t exstatus).task u).Armed) : (v.task u).Armed := by
  simp only [View.setExstatus, View.setTask, update_apply] at h
  split at h
  · subst u
    exact h
  · exact h

lemma armed_of_resumeFirst {list u : Nat} (ha : ((v.resumeFirst list).task u).Armed) :
    (v.task u).Armed := by
  rw [View.resumeFirst] at ha
  split at ha
  · exact ha
  · simp only [release, View.setTask, update_apply] at ha
    split at ha
    · subst u
      obtain ⟨ticks, hd⟩ := ha
      dsimp only at hd
      rw [Task.unSetDelay] at hd
      split at hd
      · cases hd
      · exact ⟨ticks, hd⟩
    · exact ha

variable (cfg v now alloc) in
lemma ObjectCall.run_of_not_waits (hkept : c.Kept) (h : ¬ c.Waits t) (hw : waitTime ≠ 0) :
    ∃ v' out, c.run (viewSched cfg) v t waitTime now alloc = some (v', out) ∧
      (out ≠ .suspended ∧ (out = .returned eok ↔ c.Available t)) ∧
      ∀ u, (v'.task u).Armed → (v.task u).Armed := by
  have herror : Outcome.returned (-error) ≠ .returned eok := by decide
  cases c with
  | semaphore m sem =>
    have hv : sem.value > 0 := UInt16.pos_iff_ne_zero.mpr h
    refine ⟨_, _, ?_, ⟨Outcome.noConfusion, iff_of_true rfl h⟩, fun _ => id⟩
    simp only [run, semaphoreObtain, if_pos hv]
    rfl
  | mutex m x =>
    by_cases hholder : x.holder = some t
    · refine ⟨v.setExstatus t eok, _, ?_, ⟨Outcome.noConfusion, iff_of_true rfl (.inl hholder)⟩,
        fun _ => armed_of_setExstatus⟩
      simp only [run, mutexObtain, if_pos hholder]
      rfl
    · by_cases hv : x.val > 0
      · refine ⟨v.setExstatus t eok, _, ?_, ⟨Outcome.noConfusion, iff_of_true rfl (.inr ?_)⟩,
          fun _ => armed_of_setExstatus⟩
        · simp only [run, mutexObtain, if_neg hholder, if_pos hv]
          rfl
        · exact UInt16.pos_iff_ne_zero.mp hv
      · have hzero : x.val = 0 := by simpa using hv
        obtain ⟨holder, hh⟩ := ne_none_iff_exists'.mp (hkept hzero)
        exact absurd ⟨hzero, holder, hh, fun heq => hholder (heq ▸ hh)⟩ h
  | event m o events options =>
    by_cases h0 : events = 0
    · refine ⟨_, _, ?_, ⟨Outcome.noConfusion, iff_of_false herror fun ha => ha.1 h0⟩, fun _ => id⟩
      simp only [run, eventProcess, if_pos h0]
      rfl
    · have hmet : eventMet ((o.event m).events.setWidth 32) events options = true := by
        rw [← Bool.not_eq_false]
        exact fun hmet => h ⟨h0, hmet⟩
      refine ⟨v.setExstatus t eok, _, ?_, ⟨Outcome.noConfusion, iff_of_true rfl ⟨h0, hmet⟩⟩,
        fun _ => armed_of_setExstatus⟩
      simp only [run, eventProcess, if_neg h0, hmet, if_true]
      rfl
  | msgQueue m mq request =>
    cases request with
    | send buffer =>
      by_cases hlong : buffer.length > mq.eachLen.toNat
      · refine ⟨_, _, ?_, ⟨Outcome.noConfusion, iff_of_false herror fun ha =>
          Nat.not_le.mpr hlong ha.1⟩, fun _ => id⟩
        simp only [run, mqBegin, msgQueueSend, if_pos hlong]
        rfl
      · have hfits := Nat.not_lt.mp hlong
        have hfree : ¬ mq.numMsgs ≥ mq.maxMsgs := fun hb => h ⟨hfits, hb⟩
        refine ⟨v.resumeFirst (2 * m + 1), _, ?_, ⟨Outcome.noConfusion, iff_of_true rfl ?_⟩,
          fun _ => armed_of_resumeFirst⟩
        · simp only [run, mqBegin, msgQueueSend, if_neg hlong, hw, and_false, if_false,
            msgQueueSendLoop, if_neg hfree, viewSched_resumeFirst, bind_eq_bind, bind_some]
          rfl
        · exact ⟨hfits, hfree⟩
    | recv size =>
      have hfull : ¬ mq.numMsgs ≤ 0 := fun hb => h ⟨trivial, hb⟩
      refine ⟨v.resumeFirst (2 * m), _, ?_, ⟨Outcome.noConfusion, iff_of_true rfl ⟨trivial, hfull⟩⟩,
        fun _ => armed_of_resumeFirst⟩
      simp only [run, mqBegin, msgQueueRecv, hw, and_false, if_false, msgQueueRecvLoop,
        if_neg hfull, viewSched_resumeFirst, bind_eq_bind, bind_some]
      rfl
  | gather cfg m o =>
    have h0 : ¬ 0 = (o.gather m).blockFreeNumber := fun h' => h h'.symm
    have hlink := hkept (Ne.symm h0)
    refine ⟨_, _, ?_, ⟨Outcome.noConfusion, iff_of_true rfl h⟩, fun _ => id⟩
    simp only [run, allocLoop, if_neg h0, takeBlock, check, hlink, ne_eq, not_false_eq_true,
      decide_true, Bool.not_true, Bool.false_eq_true, and_false, if_false, bind_eq_bind, bind_some,
      map_some, World.setCall, update_self, not_true_eq_false, Ne.symm h0]

end

lemma follows_map {α β γ δ : Type} {f : Nat → Option α} {g : Option β} {R : α → β → Prop}
    {φ : α → γ} {ψ : β → δ} {Q : γ → δ → Prop} (h : Follows f g R)
    (hQ : ∀ a b, R a b → Q (φ a) (ψ b)) : Follows (fun fuel => (f fuel).map φ) (g.map ψ) Q := by
  cases g with
  | none =>
    intro fuel
    change (f fuel).map φ = none
    rw [h fuel]
    rfl
  | some b => exact Returns.map h fun a => hQ a b

lemma ticks_pos (tickPerSecond ms : UInt32) :
    0 < (calculteTickFromTimeMs tickPerSecond ms).toInt32 := by
  have hnat := calculteTickFromTimeMs_toNat tickPerSecond ms
  have hpos := one_le_ticksOf (product32 tickPerSecond ms)
  have hlt : product32 tickPerSecond ms < 2 ^ 32 := Nat.mod_lt _ (by decide)
  have hle : ticksOf (product32 tickPerSecond ms) < 2 ^ 31 := by
    rw [ticksOf]
    split_ifs <;> omega
  have hint : (calculteTickFromTimeMs tickPerSecond ms).toInt32.toInt =
      (calculteTickFromTimeMs tickPerSecond ms).toNat := by
    rw [Int32.toInt, show (calculteTickFromTimeMs tickPerSecond ms).toInt32.toBitVec =
      (calculteTickFromTimeMs tickPerSecond ms).toBitVec from rfl, BitVec.toInt_eq_toNat_of_lt]
    · rfl
    · rw [UInt32.toNat_toBitVec]
      omega
  rw [Int32.lt_iff_toInt_lt, hint, Int32.toInt_zero]
  omega

variable {w : Int32}

lemma pos_ne_zero (hw : 0 < w) : w ≠ 0 := (Int32.ne_of_lt hw).symm

lemma unSetDelay_not_active (s : State) (t : Nat) (ticks : UInt32) :
    ((kTaskUnSetDelay s t).task t).delay ≠ some ⟨ticks, true⟩ := by
  intro h
  rw [kTaskUnSetDelay] at h
  split at h
  · simp [State.doubleLinkListRmNode, State.modifyTask] at h
  · rename_i hd
    exact hd ticks h

lemma setDelay_stat {s : State} {t fuel : Nat} {now ticks : UInt32} {alloc : Bool}
    {r : State × Int} (h : kTaskSetDelay fuel s t now ticks alloc = some r) (u : Nat) :
    (r.1.task u).stat = (s.task u).stat := by
  rw [kTaskSetDelay] at h
  split at h
  · cases h
    rfl
  · obtain ⟨node, -, h⟩ := bind_eq_some_iff.mp h
    cases h
    simp only [State.insertNodeBefore, State.modifyTask, update_apply]
    split
    · subst u
      exact unSetDelay_stat ..
    · exact unSetDelay_stat ..

section
variable {cfg : Config} {s : State} {v : View} {t : Nat} (hs : Sim s v)
include hs

lemma Sim.after_step {op : KernelOp} {fuel : Nat} {s' : State}
    (h : (stateSched cfg fuel).step s op = some s') : ∃ v', Sim s' v' := by
  obtain ⟨v', -, h'⟩ := (hs.step op).post h
  exact ⟨v', h'⟩

lemma Sim.suspendFront (cfg : Config) (hcur : v.current = some t)
    (hstat : (v.task t).stat = .ready ∨ (v.task t).stat = .running) (k : Nat) :
    Sim (Kernel.suspendFront cfg s k t) (v.suspendFront k t) := by
  obtain ⟨lists, hrings, hfree, hlists, -, hsim⟩ := hs.suspendKTask_lists cfg hcur hstat k
  have h := hrings.insertAfter_head hfree (.pend k)
  rw [hlists] at h
  exact hsim _ [] _ rfl h

variable (ht : (viewSched cfg).caller v = some t) (waitTime : Int32) (now : UInt32) (alloc : Bool)
include ht

lemma Sim.allocLoop (hcfg : HeapConfig) (m : Nat) (o : Gathers) :
    Follows (fun fuel => Kernel.allocLoop hcfg (stateSched cfg fuel) ⟨s, o, fun _ => none⟩ m t
        waitTime now alloc)
      (Kernel.allocLoop hcfg (viewSched cfg) ⟨v, o, fun _ => none⟩ m t waitTime now alloc)
      fun w a => Sim w.kernel a.kernel ∧ w.call = a.call := by
  simp only [Kernel.allocLoop, stateSched_setExstatus, viewSched_setExstatus]
  split
  · split
    · refine Follows.pure ?_
      exact ⟨hs.setExstatus t etimeout, rfl⟩
    · obtain ⟨hcur, hstat⟩ := Sim.of_caller (caller_setExstatus ht t eok)
      have hs₁ := (hs.setExstatus t eok).suspendFront cfg hcur hstat m
      have hret : Follows (fun fuel => (stateSched cfg fuel).startTimer
          (Kernel.suspendFront cfg (s.setExstatus t eok) m t) t waitTime now alloc)
          ((viewSched cfg).startTimer ((v.setExstatus t eok).suspendFront m t) t waitTime now alloc)
          Sim := by
        rw [startTimer_eq]
        exact hs₁.startTimer (parked_suspendFront m).1 waitTime now alloc
      exact hret.bind fun _ _ _ hab => .pure ⟨hab, rfl⟩
  · cases takeBlock hcfg o m with
    | none => exact .none
    | some obj => exact .pure ⟨hs, rfl⟩

lemma Sim.objectCall (c : ObjectCall) :
    Follows (fun fuel => c.run (stateSched cfg fuel) s t waitTime now alloc)
      (c.run (viewSched cfg) v t waitTime now alloc) fun r r' => Sim r.1 r'.1 ∧ r.2 = r'.2 := by
  cases c with
  | semaphore m sem =>
    exact follows_map (hs.semaphoreObtain ht sem m waitTime now alloc) fun _ _ h => by simp [h]
  | mutex m x =>
    exact follows_map (hs.mutexObtain ht x m waitTime now alloc) fun _ _ h => by simp [h]
  | event m o events options =>
    exact follows_map (hs.eventProcess ht o m events options waitTime now alloc)
      fun _ _ h => by simp [h]
  | msgQueue m mq request =>
    exact follows_map (hs.mqBegin ht mq m request waitTime now alloc) fun _ _ h => by simp [h]
  | gather hcfg m o =>
    exact follows_map (hs.allocLoop ht waitTime now alloc hcfg m o) fun _ _ h => by simp [h]

/-- With the timeouts 0 and -1, which become ticks as any other, a call returns without waiting or
starting its timer exactly when it does not have to wait. -/
theorem sentinels_iff (tickPerSecond : UInt32) {c : ObjectCall} (hkept : c.Kept) :
    (∀ now alloc,
      Returns (fun fuel => c.run (stateSched cfg fuel) s t
          (calculteTickFromTimeMs tickPerSecond 0).toInt32 now alloc)
        (fun r => r.2 ≠ .suspended ∧ (r.2 = .returned eok ↔ c.Available t)) ∧
      Returns (fun fuel => c.run (stateSched cfg fuel) s t
          (calculteTickFromTimeMs tickPerSecond waitingForever).toInt32 now alloc)
        (fun r => r.2 ≠ .suspended ∧ ((r.1.task t).Armed → (s.task t).Armed))) ↔
      ¬ c.Waits t := by
  constructor
  · intro h hwaits
    have hf := hs.objectCall ht (calculteTickFromTimeMs tickPerSecond 0).toInt32 0 true c
    obtain ⟨v', -, hrun⟩ := ObjectCall.run_of_waits hwaits (pos_ne_zero (ticks_pos tickPerSecond 0))
    rw [hrun] at hf
    obtain ⟨r, ⟨-, hout⟩, -, n, hn⟩ := hf
    exact ((h 0 true).1.post (hn n le_rfl)).1 hout
  · intro h now alloc
    have hruns (ms : UInt32) : Returns (fun fuel => c.run (stateSched cfg fuel) s t
        (calculteTickFromTimeMs tickPerSecond ms).toInt32 now alloc) fun r =>
          (r.2 ≠ .suspended ∧ (r.2 = .returned eok ↔ c.Available t)) ∧
            ((r.1.task t).Armed → (s.task t).Armed) := by
      obtain ⟨v', out, hrun, hout, harmed⟩ := ObjectCall.run_of_not_waits cfg v now alloc
        hkept h (pos_ne_zero (ticks_pos tickPerSecond ms))
      have hf := hs.objectCall ht (calculteTickFromTimeMs tickPerSecond ms).toInt32 now alloc c
      rw [hrun] at hf
      refine Returns.mono hf ?_
      rintro r ⟨hsim, rfl⟩
      refine ⟨hout, ?_⟩
      rw [hsim.task, hs.task]
      exact harmed t
    exact ⟨(hruns 0).mono fun r hr => hr.1,
      (hruns waitingForever).mono fun r hr => ⟨hr.1.1, hr.2⟩⟩

lemma waitqueue_not_active {fuel : Nat} {r : State × Outcome} (hw : 0 < w)
    (hrun : TimedCall.run (stateSched cfg fuel) s t w now alloc .waitqueue = some r)
    (hstat : (r.1.task t).stat = .suspend) (ticks : UInt32) :
    (r.1.task t).delay ≠ some ⟨ticks, true⟩ := by
  have hne : w ≠ -1 := by
    rintro rfl
    exact absurd hw (by decide)
  simp only [TimedCall.run, if_neg (pos_ne_zero hw), if_pos hne] at hrun
  obtain ⟨s₁, hs₁, hrun⟩ := bind_eq_some_iff.mp hrun
  obtain ⟨r₁, hr₁, rfl⟩ := map_eq_some_iff.mp hs₁
  obtain ⟨s₂, hs₂, hrun⟩ := bind_eq_some_iff.mp hrun
  cases hs₂
  cases hrun
  dsimp only at hstat ⊢
  rw [suspendKTask] at hstat ⊢
  split_ifs at hstat ⊢
  · rw [setDelay_stat hr₁, hs.task] at hstat
    simpa [hstat] using (Sim.of_caller ht).2
  · rw [setDelay_stat hr₁, hs.task] at hstat
    simpa [hstat] using (Sim.of_caller ht).2
  · exact unSetDelay_not_active _ t ticks

lemma returns_of_waits {c : TimedCall} (hc : c.Waits t) (hne : c ≠ .waitqueue) (hw : 0 < w) :
    ∃ v', Parked v v' t ∧
      Returns (fun fuel => c.run (stateSched cfg fuel) s t w now alloc) fun r =>
        Sim r.1 (v'.timer t w now alloc) ∧ r.2 = .suspended := by
  obtain ⟨hcur, hstat⟩ := Sim.of_caller ht
  cases c with
  | object c =>
    obtain ⟨v', hv', hrun⟩ := ObjectCall.run_of_waits hc (pos_ne_zero hw)
    have hf := hs.objectCall ht w now alloc c
    rw [hrun] at hf
    exact ⟨v', hv', hf⟩
  | delay =>
    have hticks : w.toUInt32 ≠ 0 := fun h =>
      pos_ne_zero hw (by simpa using congrArg UInt32.toInt32 h)
    refine ⟨v.suspend 0 t .other, parked_suspend Iff.rfl 0 .other, ?_⟩
    have hret : Returns (fun fuel => delayKTask cfg fuel s now w.toUInt32 alloc) _ :=
      hs.delayKTask hcur hstat 0 now w.toUInt32 alloc
    rw [if_neg hticks] at hret
    simp only [TimedCall.run, if_neg (pos_ne_zero hw), timer, if_pos hw]
    exact (hret.map fun _ h => h).map fun _ h => ⟨h, rfl⟩
  | poll triggered =>
    obtain rfl : triggered = false := hc
    refine ⟨v.suspend 0 t .other, parked_suspend Iff.rfl 0 .other, ?_⟩
    simp only [TimedCall.run, ne_eq, pos_ne_zero hw, not_false_eq_true, Bool.not_false, and_self,
      if_true]
    refine Returns.bind (hs.suspends hcur hstat 0 .other) fun s₁ hs₁ => ?_
    refine Returns.bind (hs₁.startTimer (by simp [suspend_stat]) w now alloc) fun s₂ hs₂ => ?_
    exact .pure ⟨hs₂, rfl⟩
  | waitqueue => exact absurd rfl hne

/-- A call that has to wait ends up suspended with its timer running, unless it is a wait on a wait
queue, which starts the timer before the suspension stops it, or there is no memory. -/
theorem timed_iff {c : TimedCall} (hc : c.Waits t) {w : Int32} (hw : 0 < w) :
    Returns (fun fuel => c.run (stateSched cfg fuel) s t w now alloc) (fun r =>
      r.2 = .suspended ∧ (r.1.task t).stat = .suspend ∧
        (r.1.task t).delay = some ⟨now + w.toUInt32, true⟩) ↔
    c ≠ .waitqueue ∧ (alloc ∨ (s.task t).delay ≠ none) := by
  by_cases hq : c = .waitqueue
  · refine iff_of_false ?_ fun h => h.1 hq
    subst hq
    rintro ⟨r, ⟨-, hstat, hdelay⟩, -, n, hn⟩
    exact waitqueue_not_active hs ht now alloc hw (hn n le_rfl) hstat _ hdelay
  · obtain ⟨v', hv', hret⟩ := returns_of_waits hs ht now alloc hc hq hw
    have hiff : ((v'.timer t w now alloc).task t).delay = some ⟨now + w.toUInt32, true⟩ ↔ _ :=
      timer_delay_iff hv' hw
    rw [and_iff_right hq, hs.task, ← hiff]
    constructor
    · rintro ⟨r, ⟨-, -, hdelay⟩, -, n, hn⟩
      obtain ⟨r', ⟨hsim, -⟩, hunique, -⟩ := hret
      rwa [hunique n r (hn n le_rfl), hsim.task] at hdelay
    · intro hdelay
      refine hret.mono fun r hr => ⟨hr.2, ?_, ?_⟩
      · rw [hr.1.task, timer_stat]
        exact hv'.1
      · rwa [hr.1.task]

end

def sampleStart : State := osAssignReadyVectorInit sampleConfig sampleState

def sampleRun (f : State → Option (State × Outcome)) : Option (Outcome × Option Delay) := do
  let k := stateSched sampleConfig 20
  let s ← k.step (← k.step sampleStart (.start 3)) (.dispatch 3)
  let (s, out) ← f s
  some (out, (s.task 3).delay)

lemma sampleRun_sim : ∃ s v, Sim s v ∧ (viewSched sampleConfig).caller v = some 3 := by
  have hrun : (((stateSched sampleConfig 20).step sampleStart (.start 3)).bind fun s =>
      ((stateSched sampleConfig 20).step s (.dispatch 3)).bind
        (stateSched sampleConfig 20).caller) = some 3 := by decide +kernel
  obtain ⟨s₁, hs₁, hrun⟩ := bind_eq_some_iff.mp hrun
  obtain ⟨s₂, hs₂, hcaller⟩ := bind_eq_some_iff.mp hrun
  obtain ⟨v₁, h₁⟩ := (sim_init sampleState_initial).after_step hs₁
  obtain ⟨v₂, h₂⟩ := h₁.after_step hs₂
  exact ⟨s₂, v₂, h₂, (h₂.caller 20).symm.trans hcaller⟩

/-- An empty semaphore at 100 ticks in a second. -/
theorem sentinels_wait :
    sampleRun (ObjectCall.run (stateSched sampleConfig 20) · 3
      (calculteTickFromTimeMs 100 0).toInt32 0 true (.semaphore 1 ⟨0⟩)) =
        some (.suspended, some ⟨1, true⟩) ∧
    sampleRun (ObjectCall.run (stateSched sampleConfig 20) · 3
      (calculteTickFromTimeMs 100 waitingForever).toInt32 0 true (.semaphore 1 ⟨0⟩)) =
        some (.suspended, some ⟨4294967, true⟩) := by
  decide +kernel

theorem sentinels_iff_sample : ∃ s : State, ∀ now alloc,
    Returns (fun fuel => ObjectCall.run (stateSched sampleConfig fuel) s 3
        (calculteTickFromTimeMs 100 0).toInt32 now alloc (.mutex 1 .create))
      (fun r => r.2 ≠ .suspended ∧
        (r.2 = .returned eok ↔ (ObjectCall.mutex 1 .create).Available 3)) ∧
    Returns (fun fuel => ObjectCall.run (stateSched sampleConfig fuel) s 3
        (calculteTickFromTimeMs 100 waitingForever).toInt32 now alloc (.mutex 1 .create))
      (fun r => r.2 ≠ .suspended ∧ ((r.1.task 3).Armed → (s.task 3).Armed)) := by
  obtain ⟨s, v, hs, ht⟩ := sampleRun_sim
  have hkept : (ObjectCall.mutex 1 .create).Kept := fun h => absurd h (by decide)
  exact ⟨s, (sentinels_iff hs ht 100 hkept).mpr fun h => absurd h.1 (by decide)⟩

theorem waitqueue_timer_stopped :
    sampleRun (TimedCall.run (stateSched sampleConfig 20) · 3 5 0 true .waitqueue) =
      some (.suspended, some ⟨5, false⟩) := by
  decide +kernel

theorem timed_iff_sample : ∃ s : State,
    Returns (fun fuel => TimedCall.run (stateSched sampleConfig fuel) s 3 5 7 true
        (.object (.semaphore 1 ⟨0⟩))) (fun r =>
      r.2 = .suspended ∧ (r.1.task 3).stat = .suspend ∧
        (r.1.task 3).delay = some ⟨7 + Int32.toUInt32 5, true⟩) := by
  obtain ⟨s, v, hs, ht⟩ := sampleRun_sim
  have hw : TimedCall.Waits 3 (.object (.semaphore 1 ⟨0⟩)) := rfl
  exact ⟨s, (timed_iff hs ht 7 true hw (by decide)).mpr ⟨nofun, .inl rfl⟩⟩

end Xiuos.Kernel
