import Xiuos.Kernel.Pend

/-! The scheduler as the objects see it: the records of the tasks, who waits for what, and who runs. -/

namespace Xiuos.Kernel
open Lib Function List State

structure View where
  task : Nat → Task
  pend : Nat → List Nat
  current : Option Nat

def enqueue (prio : Nat → UInt8) (xs : List Nat) (t : Nat) : LinklistFlag → List Nat
  | .fifo => xs ++ [t]
  | .prio => xs.takeWhile (fun m => !decide (prio t < prio m)) ++
      t :: xs.dropWhile fun m => !decide (prio t < prio m)
  | .other => xs

lemma mem_enqueue {prio : Nat → UInt8} {xs : List Nat} {t u : Nat} {flag : LinklistFlag}
    (hflag : flag ≠ .other) : u ∈ enqueue prio xs t flag ↔ u = t ∨ u ∈ xs := by
  cases flag with
  | fifo => simp [enqueue, or_comm]
  | prio =>
    have hmem : u ∈ xs ↔ u ∈ xs.takeWhile (fun m => !decide (prio t < prio m)) ∨
        u ∈ xs.dropWhile fun m => !decide (prio t < prio m) := by
      rw [← mem_append, takeWhile_append_dropWhile]
    simp only [enqueue, mem_append, mem_cons, hmem]
    tauto
  | other => exact absurd rfl hflag

namespace View
variable (v : View)

def prio (t : Nat) : UInt8 := (v.task t).curPrio

def setTask (t : Nat) (task : Task) : View := { v with task := update v.task t task }

def setExstatus (t : Nat) (exstatus : Int) : View := v.setTask t { v.task t with exstatus }

def suspend (k t : Nat) (flag : LinklistFlag) : View :=
  { v.setTask t ({ v.task t with stat := .suspend } : Task).unSetDelay with
    pend := update v.pend k (enqueue v.prio (v.pend k) t flag) }

def suspendFront (k t : Nat) : View :=
  { v.setTask t ({ v.task t with stat := .suspend } : Task).unSetDelay with
    pend := update v.pend k (t :: v.pend k) }

def release (t : Nat) (exstatus : Int) : View :=
  { v.setTask t { (v.task t).unSetDelay with stat := .ready, exstatus } with
    pend := fun k => (v.pend k).erase t }

def expire (t : Nat) : View :=
  if (v.task t).stat = .suspend then v.release t (-etimeout)
  else v.setTask t (v.task t).unSetDelay

def arm (t : Nat) (now ticks : UInt32) (alloc : Bool) : View :=
  if (v.task t).delay = none ∧ !alloc then v
  else v.setTask t { v.task t with delay := some ⟨now + ticks, true⟩ }

def setPrio (cfg : Config) (t : Nat) (prio : UInt8) : View :=
  if isIdle (v.task t).name ∨ (v.task t).stat = .close then v
  else v.setTask t { v.task t with
    curPrio := prio
    site := bitmapSiteMask cfg.prioMax prio (v.task t).site }

def start (cfg : Config) (t : Nat) : View :=
  if (v.task t).stat ≠ .init then v
  else v.setTask t { ({ v.task t with
      curPrio := (v.task t).originPrio
      site := bitmapSiteMask cfg.prioMax (v.task t).originPrio (v.task t).site } :
        Task).unSetDelay with
    stat := .ready }

def preempt : View :=
  match v.current with
  | some t => if (v.task t).stat = .running then v.setTask t { v.task t with stat := .ready } else v
  | none => v

def dispatch (t : Nat) : View :=
  { v.preempt.setTask t { v.preempt.task t with stat := .running } with current := some t }

end View

namespace View
variable (v : View) (t u : Nat)

lemma setTask_task (task : Task) :
    (v.setTask t task).task u = if u = t then task else v.task u := by simp [setTask, update_apply]

@[simp] lemma setExstatus_current (exstatus : Int) :
    (v.setExstatus t exstatus).current = v.current := rfl

@[simp] lemma setExstatus_pend (exstatus : Int) : (v.setExstatus t exstatus).pend = v.pend := rfl

lemma setExstatus_task (exstatus : Int) :
    (v.setExstatus t exstatus).task u =
      { v.task u with exstatus := if u = t then exstatus else (v.task u).exstatus } := by
  rw [setExstatus, setTask_task]
  by_cases h : u = t <;> simp [h]

variable (cfg : Config)
include cfg
variable (prio : UInt8)
include prio

@[simp] lemma setPrio_pend : (v.setPrio cfg t prio).pend = v.pend := by
  rw [setPrio]
  split <;> rfl

@[simp] lemma setPrio_current : (v.setPrio cfg t prio).current = v.current := by
  rw [setPrio]
  split <;> rfl

lemma setPrio_task :
    ∃ curPrio site, (v.setPrio cfg t prio).task u = { v.task u with curPrio, site } := by
  rw [setPrio]
  split
  · exact ⟨_, _, rfl⟩
  · rw [setTask_task]
    split
    · rename_i h
      subst h
      exact ⟨_, _, rfl⟩
    · exact ⟨_, _, rfl⟩

@[simp] lemma setPrio_stat : ((v.setPrio cfg t prio).task u).stat = (v.task u).stat := by
  obtain ⟨_, _, h⟩ := v.setPrio_task t u cfg prio
  rw [h]

@[simp] lemma setPrio_exstatus :
    ((v.setPrio cfg t prio).task u).exstatus = (v.task u).exstatus := by
  obtain ⟨_, _, h⟩ := v.setPrio_task t u cfg prio
  rw [h]

@[simp] lemma setPrio_base : ((v.setPrio cfg t prio).task u).base = (v.task u).base := by
  obtain ⟨_, _, h⟩ := v.setPrio_task t u cfg prio
  rw [h]
  rfl

end View

namespace View
variable (v : View) (k t u : Nat) (flag : LinklistFlag) (exstatus : Int) (now ticks : UInt32)
variable (alloc : Bool)

@[simp] lemma setExstatus_stat : ((v.setExstatus t exstatus).task u).stat = (v.task u).stat := by
  rw [setExstatus_task]

@[simp] lemma setExstatus_prio : (v.setExstatus t exstatus).prio u = v.prio u := by
  rw [prio, setExstatus_task, prio]

lemma setExstatus_exstatus : ((v.setExstatus t exstatus).task u).exstatus =
    if u = t then exstatus else (v.task u).exstatus := by rw [setExstatus_task]

@[simp] lemma setExstatus_base : ((v.setExstatus t exstatus).task u).base = (v.task u).base := by
  rw [setExstatus_task]
  rfl

lemma suspend_pend :
    (v.suspend k t flag).pend = update v.pend k (enqueue v.prio (v.pend k) t flag) := rfl

lemma suspend_task : (v.suspend k t flag).task u =
    if u = t then ({ v.task t with stat := .suspend } : Task).unSetDelay else v.task u :=
  v.setTask_task t u _

lemma suspend_stat : ((v.suspend k t flag).task u).stat =
    if u = t then .suspend else (v.task u).stat := by
  rw [suspend_task]
  split <;> simp

@[simp] lemma suspend_exstatus :
    ((v.suspend k t flag).task u).exstatus = (v.task u).exstatus := by
  rw [suspend_task]
  split <;> simp_all

@[simp] lemma suspend_prio : (v.suspend k t flag).prio u = v.prio u := by
  rw [prio, suspend_task, prio]
  split <;> simp_all

@[simp] lemma suspend_base : ((v.suspend k t flag).task u).base = (v.task u).base := by
  rw [suspend_task]
  split
  · rename_i hu
    subst hu
    rw [Task.unSetDelay_base]
    rfl
  · rfl

lemma release_pend : (v.release t exstatus).pend k = (v.pend k).erase t := rfl

lemma release_task : (v.release t exstatus).task u =
    if u = t then { (v.task t).unSetDelay with stat := .ready, exstatus } else v.task u :=
  v.setTask_task t u _

lemma release_stat : ((v.release t exstatus).task u).stat =
    if u = t then .ready else (v.task u).stat := by
  rw [release_task]
  split <;> rfl

lemma release_exstatus : ((v.release t exstatus).task u).exstatus =
    if u = t then exstatus else (v.task u).exstatus := by
  rw [release_task]
  split <;> rfl

@[simp] lemma release_prio : (v.release t exstatus).prio u = v.prio u := by
  rw [prio, release_task, prio]
  split <;> simp_all

@[simp] lemma release_base : ((v.release t exstatus).task u).base = (v.task u).base := by
  rw [release_task]
  split
  · rename_i hu
    subst hu
    exact (v.task u).unSetDelay_base
  · rfl

lemma arm_task : ∃ delay, (v.arm t now ticks alloc).task u = { v.task u with delay } := by
  rw [arm]
  split
  · exact ⟨_, rfl⟩
  · rw [setTask_task]
    split
    · rename_i h
      subst h
      exact ⟨_, rfl⟩
    · exact ⟨_, rfl⟩

@[simp] lemma arm_pend : (v.arm t now ticks alloc).pend = v.pend := by
  rw [arm]
  split <;> rfl

@[simp] lemma arm_stat : ((v.arm t now ticks alloc).task u).stat = (v.task u).stat := by
  obtain ⟨_, h⟩ := v.arm_task t u now ticks alloc
  rw [h]

@[simp] lemma arm_exstatus :
    ((v.arm t now ticks alloc).task u).exstatus = (v.task u).exstatus := by
  obtain ⟨_, h⟩ := v.arm_task t u now ticks alloc
  rw [h]

@[simp] lemma arm_prio : (v.arm t now ticks alloc).prio u = v.prio u := by
  obtain ⟨_, h⟩ := v.arm_task t u now ticks alloc
  rw [prio, h, prio]

@[simp] lemma arm_base : ((v.arm t now ticks alloc).task u).base = (v.task u).base := by
  obtain ⟨_, h⟩ := v.arm_task t u now ticks alloc
  rw [h]
  rfl

lemma preempt_task : (v.preempt.task u) =
    if v.current = some u ∧ (v.task u).stat = .running then { v.task u with stat := .ready }
    else v.task u := by
  rw [preempt]
  cases hc : v.current with
  | none => simp
  | some t =>
    simp only [Option.some.injEq]
    by_cases hr : (v.task t).stat = .running
    · rw [if_pos hr, setTask_task]
      by_cases hu : u = t
      · subst hu
        simp [hr]
      · simp [hu, Ne.symm hu]
    · rw [if_neg hr, if_neg]
      rintro ⟨rfl, h⟩
      exact hr h

lemma preempt_pend : v.preempt.pend = v.pend := by
  rw [preempt]
  split
  · split <;> rfl
  · rfl

lemma dispatch_task : ∃ stat, (v.dispatch t).task u = { v.task u with stat } := by
  have h : (v.dispatch t).task u = if u = t then { v.preempt.task t with stat := .running }
      else v.preempt.task u := v.preempt.setTask_task t u _
  rw [h, preempt_task, preempt_task]
  split
  · rename_i hu
    subst hu
    split <;> exact ⟨_, rfl⟩
  · split <;> exact ⟨_, rfl⟩

@[simp] lemma dispatch_pend : (v.dispatch t).pend = v.pend := v.preempt_pend

lemma dispatch_stat : ((v.dispatch t).task u).stat = if u = t then .running
    else if v.current = some u ∧ (v.task u).stat = .running then .ready else (v.task u).stat := by
  have h : (v.dispatch t).task u = if u = t then { v.preempt.task t with stat := .running }
      else v.preempt.task u := v.preempt.setTask_task t u _
  rw [h, preempt_task v u]
  split
  · rfl
  · split <;> rfl

@[simp] lemma dispatch_exstatus : ((v.dispatch t).task u).exstatus = (v.task u).exstatus := by
  obtain ⟨_, h⟩ := v.dispatch_task t u
  rw [h]

@[simp] lemma dispatch_prio : (v.dispatch t).prio u = v.prio u := by
  obtain ⟨_, h⟩ := v.dispatch_task t u
  rw [prio, h, prio]

@[simp] lemma dispatch_base : ((v.dispatch t).task u).base = (v.task u).base := by
  obtain ⟨_, h⟩ := v.dispatch_task t u
  rw [h]
  rfl

section
variable (cfg : Config)
include cfg

lemma start_of_ne (h : (v.task t).stat ≠ .init) : v.start cfg t = v := by rw [start, if_pos h]

@[simp] lemma start_pend : (v.start cfg t).pend = v.pend := by
  rw [start]
  split <;> rfl

lemma start_task_of_ne (h : u ≠ t) : (v.start cfg t).task u = v.task u := by
  rw [start]
  split
  · rfl
  · rw [setTask_task, if_neg h]

lemma start_stat : ((v.start cfg t).task u).stat =
    if u = t ∧ (v.task u).stat = .init then .ready else (v.task u).stat := by
  by_cases hu : u = t
  · subst hu
    by_cases hs : (v.task u).stat = .init
    · rw [start, if_neg (not_not.mpr hs), setTask_task, if_pos rfl, if_pos ⟨rfl, hs⟩]
    · rw [start_of_ne _ _ _ hs, if_neg (fun h => hs h.2)]
  · rw [start_task_of_ne _ _ _ _ hu, if_neg (fun h => hu h.1)]

lemma start_exstatus : ((v.start cfg t).task u).exstatus = (v.task u).exstatus := by
  rw [start]
  split
  · rfl
  · rw [setTask_task]
    split <;> simp_all

@[simp] lemma start_base : ((v.start cfg t).task u).base = (v.task u).base := by
  rw [start]
  split
  · rfl
  · rw [setTask_task]
    split
    · rename_i hu
      subst hu
      exact Task.unSetDelay_base _
    · rfl

lemma start_prio : (v.start cfg t).prio u =
    if u = t ∧ (v.task u).stat = .init then (v.task u).originPrio else v.prio u := by
  by_cases hu : u = t
  · subst hu
    by_cases hs : (v.task u).stat = .init
    · rw [start, if_neg (not_not.mpr hs), prio, setTask_task, if_pos rfl, if_pos ⟨rfl, hs⟩]
      simp
    · rw [start_of_ne _ _ _ hs, if_neg (fun h => hs h.2)]
  · rw [prio, start_task_of_ne _ _ _ _ hu, if_neg (fun h => hu h.1), prio]

end

lemma expire_of_ne (h : (v.task t).stat ≠ .suspend) :
    v.expire t = v.setTask t (v.task t).unSetDelay := by rw [expire, if_neg h]

lemma expire_of_suspend (h : (v.task t).stat = .suspend) :
    v.expire t = v.release t (-etimeout) := by rw [expire, if_pos h]

lemma expire_stat : ((v.expire t).task u).stat =
    if u = t ∧ (v.task u).stat = .suspend then .ready else (v.task u).stat := by
  by_cases hs : (v.task t).stat = .suspend
  · rw [expire_of_suspend _ _ hs, release_stat]
    by_cases hu : u = t
    · simp [hu, hs]
    · simp [hu]
  · rw [expire_of_ne _ _ hs, setTask_task]
    by_cases hu : u = t
    · simp [hu, hs]
    · simp [hu]

lemma expire_exstatus : ((v.expire t).task u).exstatus =
    if u = t ∧ (v.task u).stat = .suspend then -etimeout else (v.task u).exstatus := by
  by_cases hs : (v.task t).stat = .suspend
  · rw [expire_of_suspend _ _ hs, release_exstatus]
    by_cases hu : u = t
    · simp [hu, hs]
    · simp [hu]
  · rw [expire_of_ne _ _ hs, setTask_task]
    by_cases hu : u = t
    · simp [hu, hs]
    · simp [hu]

@[simp] lemma expire_prio : (v.expire t).prio u = v.prio u := by
  by_cases hs : (v.task t).stat = .suspend
  · rw [expire_of_suspend _ _ hs, release_prio]
  · rw [expire_of_ne _ _ hs, prio, setTask_task, prio]
    split <;> simp_all

@[simp] lemma expire_base : ((v.expire t).task u).base = (v.task u).base := by
  by_cases hs : (v.task t).stat = .suspend
  · rw [expire_of_suspend _ _ hs, release_base]
  · rw [expire_of_ne _ _ hs, setTask_task]
    split
    · rename_i hu
      subst hu
      exact (v.task u).unSetDelay_base
    · rfl

lemma expire_pend (hwait : ∀ k u, u ∈ v.pend k → (v.task u).stat = .suspend) :
    (v.expire t).pend k = (v.pend k).erase t := by
  by_cases hs : (v.task t).stat = .suspend
  · rw [expire_of_suspend _ _ hs, release_pend]
  · rw [expire_of_ne _ _ hs, erase_of_not_mem fun h => hs (hwait k t h)]
    rfl

end View

structure Sim (s : State) (v : View) : Prop where
  task : s.task = v.task
  current : s.osRunningTask = v.current
  lists : ∃ lists, Rings s.links lists ∧ Placed lists v.task ∧
    ∀ k, lists (.pend k) = (v.pend k).map .sched

lemma sched_injective : Injective Node.sched := fun _ _ h => by
  cases h
  rfl

lemma map_sched_erase (xs : List Nat) (t : Nat) :
    ((xs.map Node.sched).erase (.sched t)).erase (.delay t) = (xs.erase t).map .sched := by
  rw [← map_erase sched_injective]
  exact erase_of_not_mem (by simp)

section
variable {s : State} {lists : Head → List Node} {t : Nat}

lemma unSetDelay_eq (hr : Rings s.links lists)
    (hd : ∀ h, .delay t ∈ lists h → ∃ ticks, (s.task t).delay = some ⟨ticks, true⟩) :
    kTaskUnSetDelay s t = { s with
      links := s.links.remove (.inr (.delay t))
      task := update s.task t (s.task t).unSetDelay } := by
  rw [kTaskUnSetDelay]
  split
  · rename_i hactive
    rw [Task.unSetDelay_of_active hactive]
    rfl
  · rename_i hnot
    have hself := hr.self (.delay t) fun h hm => by
      obtain ⟨ticks, ht⟩ := hd h hm
      exact hnot ticks ht
    rw [Links.remove_of_self hself.1 hself.2, Task.unSetDelay_of_not_active hnot, update_eq_self]

end

namespace Sim
variable {cfg : Config} {s : State} {v : View} {t k : Nat}

section
variable (hs : Sim s v)
include hs

lemma nodup (k : Nat) : (v.pend k).Nodup := by
  obtain ⟨lists, hr, -, hpend⟩ := hs.lists
  have h := hr.nodup (.pend k)
  rw [hpend] at h
  exact h.of_map _

lemma stat_of_mem (ht : t ∈ v.pend k) : (v.task t).stat = .suspend := by
  obtain ⟨lists, -, hp, hpend⟩ := hs.lists
  obtain ⟨m, he, hm⟩ := hp.pend k (.sched t) (by rw [hpend]; exact mem_map_of_mem ht)
  cases he
  exact hm

lemma unique {k' : Nat} (ht : t ∈ v.pend k) (ht' : t ∈ v.pend k') : k = k' := by
  obtain ⟨lists, hr, -, hpend⟩ := hs.lists
  have hmem : Node.sched t ∈ lists (.pend k) := by
    rw [hpend]
    exact mem_map_of_mem ht
  have hmem' : Node.sched t ∈ lists (.pend k') := by
    rw [hpend]
    exact mem_map_of_mem ht'
  cases hr.unique hmem hmem'
  rfl

lemma next_pend (k : Nat) :
    s.links.next (.inl (.pend k)) =
      Links.entry (.inl (.pend k)) ((v.pend k).map (.inr ∘ .sched)) := by
  obtain ⟨lists, hr, -, hpend⟩ := hs.lists
  rw [(hr.seg _).next_eq, hpend, map_map]

lemma next_sched {xs ys : List Nat} (hpend : v.pend k = xs ++ t :: ys) :
    s.links.next (.inr (.sched t)) = Links.entry (.inl (.pend k)) (ys.map (.inr ∘ .sched)) := by
  obtain ⟨lists, hr, -, hlists⟩ := hs.lists
  have hseg := hr.seg (.pend k)
  rw [hlists, hpend, map_append, map_cons, map_append, map_cons,
    Links.seg_append, map_map, map_map] at hseg
  exact hseg.2.next_eq

end

variable (hs : Sim s v)
include hs

lemma congr {s' : State} (hl : s'.links = s.links) (ht : s'.task = s.task) {current : Option Nat}
    (hcur : s'.osRunningTask = current) : Sim s' { v with current } := by
  obtain ⟨lists, hr, hp, hpend⟩ := hs.lists
  exact ⟨ht.trans hs.task, hcur, lists, hl ▸ hr, hp, hpend⟩

lemma modify {f : Task → Task} (hstat : (f (v.task t)).stat = (v.task t).stat)
    (hcur : (v.task t).stat ≠ .ready ∨ (f (v.task t)).curPrio = (v.task t).curPrio)
    (hdelay : (f (v.task t)).delay = (v.task t).delay) :
    Sim (s.modifyTask t f) (v.setTask t (f (v.task t))) := by
  obtain ⟨lists, hr, hp, hpend⟩ := hs.lists
  refine ⟨?_, hs.current, lists, hr, hp.modify hstat hcur (.inl hdelay), hpend⟩
  rw [State.modifyTask, hs.task]
  rfl

omit hs in
lemma insert (lists : Head → List Node) {task : Nat → Task} {pend : Nat → List Nat}
    (hr : Rings s.links (cut lists t)) (hnodup : ∀ h, (lists h).Nodup) (hp : Placed lists task)
    (hpend : ∀ k, lists (.pend k) = (pend k).map .sched)
    (htask : ∀ m ≠ t, s.task m = task m) :
    Returns (fun fuel => kTaskInsertToReadyVector cfg fuel s t) fun s' =>
      Sim s' {
        task := update task t { s.task t with stat := .ready }
        pend := fun k => (pend k).erase t
        current := s.osRunningTask } := by
  refine (insertToReadyVector_returns hr (sched_not_mem_cut hnodup) cfg).mono ?_
  rintro _ ⟨links, xs, ys, hsplit, hlinks, rfl⟩
  refine ⟨?_, rfl, _, hlinks, hp.enter hnodup (fun p => ?_) (by simp) (by simp) hsplit, fun k => ?_⟩
  · funext m
    by_cases hm : m = t
    · subst hm
      simp [kTaskStateSet, State.modifyTask]
    · simp [kTaskStateSet, State.modifyTask, hm, htask]
  · simp
  · rw [update_of_ne (by simp), cut, hpend, map_sched_erase]

lemma suspendKTask_eq (cfg : Config) (hcur : v.current = some t)
    (hstat : (v.task t).stat = .ready ∨ (v.task t).stat = .running) :
    ∃ vector, (suspendKTask cfg s t).1 = { s with
      links := (s.links.remove (.inr (.sched t))).remove (.inr (.delay t))
      task := update v.task t ({ v.task t with stat := .suspend } : Task).unSetDelay
      vector } := by
  obtain ⟨lists, hr, hp, hpend⟩ := hs.lists
  obtain ⟨vector, hremove⟩ := removeKTask_eq cfg s t
  have hstat' : ¬ ((s.task t).stat ≠ .ready ∧ (s.task t).stat ≠ .running) := by
    rw [hs.task]
    tauto
  have hnot : (v.task t).stat ≠ .suspend := by rcases hstat with h | h <;> simp [h]
  refine ⟨vector, ?_⟩
  rw [suspendKTask, if_neg (by simp [hs.current, hcur]), if_neg hstat']
  dsimp only
  rw [hremove, unSetDelay_eq (hr.remove (.sched t))]
  · simp [kTaskStateSet, State.modifyTask, doubleLinkListRmNode, hs.task]
  · intro h hm
    exact absurd (mem_of_mem_erase hm) (hp.delay_not_mem hnot h)

lemma suspendKTask_lists (cfg : Config) (hcur : v.current = some t)
    (hstat : (v.task t).stat = .ready ∨ (v.task t).stat = .running) (k : Nat) :
    ∃ lists, Rings (suspendKTask cfg s t).1.links lists ∧ (∀ h, .sched t ∉ lists h) ∧
      (∀ j, lists (.pend j) = (v.pend j).map .sched) ∧
      Sim (suspendKTask cfg s t).1 (v.setTask t ({ v.task t with stat := .suspend } :
        Task).unSetDelay) ∧
      ∀ links xs ys, v.pend k = xs ++ ys →
        Rings links (update lists (.pend k) (xs.map .sched ++ .sched t :: ys.map .sched)) →
        Sim { (suspendKTask cfg s t).1 with links }
          { v.setTask t ({ v.task t with stat := .suspend } : Task).unSetDelay with
            pend := update v.pend k (xs ++ t :: ys) } := by
  obtain ⟨vector, hsuspend⟩ := hs.suspendKTask_eq cfg hcur hstat
  obtain ⟨lists, hr, hp, hpend⟩ := hs.lists
  have hrings : Rings (suspendKTask cfg s t).1.links (cut lists t) := by
    rw [hsuspend]
    exact (hr.remove (.sched t)).remove (.delay t)
  have hcut : ∀ j, cut lists t (.pend j) = (v.pend j).map .sched := by
    intro j
    rw [cut, hpend, map_sched_erase, erase_of_not_mem]
    intro hm
    have := hs.stat_of_mem hm
    simp [this] at hstat
  have htask : (suspendKTask cfg s t).1.task =
      update v.task t ({ v.task t with stat := .suspend } : Task).unSetDelay := by rw [hsuspend]
  have hcurrent : (suspendKTask cfg s t).1.osRunningTask = v.current := by
    rw [hsuspend]
    exact hs.current
  refine ⟨cut lists t, hrings, sched_not_mem_cut hr.nodup, hcut,
    ⟨htask, hcurrent, _, hrings, hp.leave hr.nodup (by simp), hcut⟩, ?_⟩
  intro links xs ys hsplit hlinks
  refine ⟨htask, hcurrent, _, hlinks, ?_, fun j => ?_⟩
  · exact hp.enter hr.nodup (by simp) (by simp) (by simp) (by rw [hcut, hsplit, map_append])
  · by_cases hj : j = k
    · subst hj
      simp
    · simp [hj, hcut]

lemma linklistSuspend (hcur : v.current = some t)
    (hstat : (v.task t).stat = .ready ∨ (v.task t).stat = .running) (k : Nat)
      (flag : LinklistFlag) :
    Returns (fun fuel => Kernel.linklistSuspend cfg fuel s k t flag) fun r =>
      Sim r.1 (v.suspend k t flag) := by
  obtain ⟨lists, hrings, hfree, hlists, hnone, hsim⟩ := hs.suspendKTask_lists cfg hcur hstat k
  simp only [Kernel.linklistSuspend]
  cases flag with
  | fifo =>
    have h := hrings.insertBefore hfree (h := .pend k) (append_nil _).symm
    rw [hlists] at h
    exact .pure (hsim _ _ [] (append_nil _).symm h)
  | prio =>
    refine (insertSorted_returns hrings hfree _ _).bind ?_
    rintro _ ⟨links, hlinks, rfl⟩
    refine .pure (hsim _ _ _ takeWhile_append_dropWhile.symm ?_)
    rw [hlists, takeWhile_map, dropWhile_map] at hlinks
    have hprio : ∀ m, ((suspendKTask cfg s t).1.task m).curPrio = v.prio m := by
      intro m
      rw [hnone.task, View.setTask_task, View.prio]
      split
      · rename_i hm
        rw [hm, Task.unSetDelay_curPrio]
      · rfl
    simpa only [comp_def, hprio] using hlinks
  | other =>
    rw [View.suspend, enqueue, update_eq_self]
    exact .pure hnone

lemma kTaskWakeup (hstat : (v.task t).stat = .suspend) :
    Returns (fun fuel => Kernel.kTaskWakeup cfg fuel s t) fun r =>
      Sim r.1 (v.release t (v.task t).exstatus) := by
  obtain ⟨lists, hr, hp, hpend⟩ := hs.lists
  have hunset := unSetDelay_eq (s := s.doubleLinkListRmNode (.sched t)) (hr.remove (.sched t))
    (t := t) fun h hm => by
      rw [rmNode_task, hs.task]
      exact (hp.delay t h (mem_of_mem_erase hm)).2.2
  simp only [Kernel.kTaskWakeup, hs.task, hstat, ne_eq, not_true_eq_false, if_false, hunset,
    rmNode_task]
  refine (insert lists ?_ hr.nodup hp hpend fun m hm => by simp [hm]).bind fun s' hs' => .pure ?_
  · exact (hr.remove (.sched t)).remove (.delay t)
  · simpa [View.release, View.setTask, doubleLinkListRmNode, hs.current] using hs'

lemma linklistResume {ts : List Nat} (hpend : v.pend k = t :: ts) :
    Returns (fun fuel => Kernel.linklistResume cfg fuel s k) fun r =>
      Sim r.1 (v.release t (v.task t).exstatus) := by
  have hnext : s.links.next (.inl (.pend k)) = .inr (.sched t) := by
    rw [hs.next_pend, hpend]
    rfl
  simp only [Kernel.linklistResume, hnext]
  exact (hs.kTaskWakeup (hs.stat_of_mem (k := k) (by simp [hpend]))).bind fun r hr => .pure hr

lemma expireDelay (t : Nat) :
    Returns (fun fuel => Kernel.expireDelay cfg fuel s t) fun s' => Sim s' (v.expire t) := by
  obtain ⟨lists, hr, hp, hpend⟩ := hs.lists
  have hunset := unSetDelay_eq (t := t) hr fun h hm => by
    rw [hs.task]
    exact (hp.delay t h hm).2.2
  rw [View.expire]
  simp only [Kernel.expireDelay, kTaskTimeout, hunset, hs.task, update_self, Task.unSetDelay_stat]
  split
  · refine (insert (s := doubleLinkListRmNode _ _) lists ?_ hr.nodup hp hpend
      fun m hm => ?_).mono
      fun s' hs' => ?_
    · have hcut : cut lists t = fun h => ((lists h).erase (.delay t)).erase (.sched t) :=
        funext fun h => erase_comm _ _
      rw [hcut]
      exact (hr.remove (.delay t)).remove (.sched t)
    · simp [State.modifyTask, hm]
    · simpa [View.release, View.setTask, doubleLinkListRmNode, State.modifyTask, hs.current]
        using hs'
  · rename_i hstat
    have hnot := hp.delay_not_mem hstat
    refine .pure ⟨rfl, hs.current, lists, ?_, ?_, hpend⟩
    · have h := hr.remove (.delay t)
      rwa [show (fun h => (lists h).erase (.delay t)) = lists from
        funext fun h => erase_of_not_mem (hnot h)] at h
    · exact hp.modify (by simp) (.inr (by simp)) (.inr hnot)

lemma kTaskSetDelay (hstat : (v.task t).stat = .suspend) (now ticks : UInt32) (alloc : Bool) :
    Returns (fun fuel => Kernel.kTaskSetDelay fuel s t now ticks alloc) fun r =>
      Sim r.1 (v.arm t now ticks alloc) := by
  obtain ⟨lists, hr, hp, hpend⟩ := hs.lists
  have hunset := unSetDelay_eq (t := t) hr fun h hm => by
    rw [hs.task]
    exact (hp.delay t h hm).2.2
  rw [View.arm]
  simp only [Kernel.kTaskSetDelay, hs.task]
  split
  · exact .pure hs
  have hfree : ∀ h, .delay t ∉ (lists h).erase (.delay t) := fun h hm =>
    ((hr.nodup h).mem_erase_iff.mp hm).1 rfl
  have hrings : Rings (kTaskUnSetDelay s t).links fun h => (lists h).erase (.delay t) := by
    rw [hunset]
    exact hr.remove (.delay t)
  refine (Rings.find_returns (l := (State.modifyTask _ _ _).links) hrings .delay _).bind ?_
  rintro _ rfl
  refine .pure ⟨?_, ?_, _, hrings.insertBefore hfree takeWhile_append_dropWhile.symm,
    hp.arm hr.nodup hstat takeWhile_append_dropWhile.symm, fun j => ?_⟩
  · rw [hunset]
    obtain ⟨delay, hdelay⟩ := (v.task t).unSetDelay_eq
    simp [insertNodeBefore, State.modifyTask, View.setTask, hs.task, hdelay]
  · rw [hunset]
    exact hs.current
  · rw [update_of_ne (by simp), hpend, erase_of_not_mem (by simp)]
    rfl

lemma kTaskPrioSet (t : Nat) (prio : UInt8) :
    Returns (fun fuel => Kernel.kTaskPrioSet cfg fuel s t prio) fun r =>
      Sim r.1 (v.setPrio cfg t prio) := by
  obtain ⟨lists, hr, hp, hpend⟩ := hs.lists
  simp only [Kernel.kTaskPrioSet, View.setPrio, hs.task]
  by_cases hidle : isIdle (v.task t).name
  · simp only [hidle, if_true, true_or]
    exact .pure hs
  have hquiet : (v.task t).stat ≠ .ready →
      Sim ((s.modifyTask t ({ · with curPrio := prio })).bitmapSiteMask cfg t)
        (v.setTask t { v.task t with
          curPrio := prio
          site := bitmapSiteMask cfg.prioMax prio (v.task t).site }) := by
    intro hstat
    have h := hs.modify (t := t) (f := fun task => { task with
      curPrio := prio
      site := bitmapSiteMask cfg.prioMax prio task.site }) rfl (.inl hstat) rfl
    simpa [State.bitmapSiteMask, State.modifyTask] using h
  cases hstat : (v.task t).stat with
  | ready =>
    simp only [hidle, Bool.false_eq_true, if_false, reduceCtorEq, or_self]
    refine (insert lists ?_ hr.nodup hp hpend fun m hm => ?_).bind fun s' hs' => .pure ?_
    · rw [hp.cut_eq_erase (by simp [hstat])]
      simpa [State.bitmapSiteMask, State.modifyTask] using hr.remove (.sched t)
    · simp [State.bitmapSiteMask, State.modifyTask, hm, hs.task]
    · have hnot : ∀ k, t ∉ v.pend k := fun k hm => by
        have := hs.stat_of_mem hm
        simp [hstat] at this
      simpa [State.bitmapSiteMask, State.modifyTask, View.setTask, hs.task, hs.current, hstat,
        erase_of_not_mem, hnot] using hs'
  | init | suspend | running =>
    simp only [hidle, Bool.false_eq_true, if_false, reduceCtorEq, or_self]
    exact .pure (hstat ▸ hquiet (by simp [hstat]))
  | close =>
    simp only [hidle, Bool.false_eq_true, if_false, or_true, if_true]
    exact .pure hs

lemma preempt (hstat : (v.task t).stat = .running) :
    Returns (fun fuel => kTaskInsertToReadyVector cfg fuel s t) fun s' =>
      Sim s' (v.setTask t { v.task t with stat := .ready }) := by
  obtain ⟨lists, hr, hp, hpend⟩ := hs.lists
  have hnot : ∀ k, t ∉ v.pend k := fun k hm => by
    have := hs.stat_of_mem hm
    simp [hstat] at this
  refine (insert lists ?_ hr.nodup hp hpend fun m _ => by rw [hs.task]).mono
    fun s' hs' => ?_
  · rwa [hp.cut_eq_self hstat]
  · simpa [View.setTask, hs.task, hs.current, erase_of_not_mem, hnot] using hs'

lemma setRunning (cfg : Config) (hstat : (v.task t).stat = .ready) :
    Sim ((kTaskOsAssignRemoveKTask cfg s t).kTaskStateSet t .running)
      (v.setTask t { v.task t with stat := .running }) := by
  obtain ⟨lists, hr, hp, hpend⟩ := hs.lists
  have hnot : ∀ k, t ∉ v.pend k := fun k hm => by
    have := hs.stat_of_mem hm
    simp [hstat] at this
  obtain ⟨vector, hremove⟩ := removeKTask_eq cfg s t
  refine ⟨?_, ?_, cut lists t, ?_, hp.leave hr.nodup (by simp), fun k => ?_⟩
  · simp [kTaskStateSet, State.modifyTask, hs.task, View.setTask]
  · rw [hremove]
    exact hs.current
  · rw [hp.cut_eq_erase (by simp [hstat])]
    simpa [kTaskStateSet, State.modifyTask] using hr.remove (.sched t)
  · rw [cut, hpend, map_sched_erase, erase_of_not_mem (hnot k)]
    rfl

lemma finishSwitch (hstat : (v.task t).stat = .ready) :
    Sim { switchKtaskContext cfg
        ((kTaskOsAssignRemoveKTask cfg s t).kTaskStateSet t .running) t with
      osRunningTask := some t }
      { v.setTask t { v.task t with stat := .running } with current := some t } := by
  refine (hs.setRunning cfg hstat).congr ?_ ?_ rfl
  · rw [switchKtaskContext]
    split <;> rfl
  · rw [switchKtaskContext]
    split <;> rfl

lemma switchTask {fromTask : Nat} (hcur : v.current = some fromTask)
    (hstat : (v.task t).stat = .ready) {needInsert : Bool}
    (hneed : needInsert = decide ((v.task fromTask).stat = .running)) :
    Returns (fun fuel => Kernel.switchTask cfg fuel s t fromTask needInsert) fun s' =>
      Sim { s' with osRunningTask := some t } (v.dispatch t) := by
  have hsched : Sim { s with currentPriority := s.vector.highestPrio.toUInt8 } v :=
    ⟨hs.task, hs.current, hs.lists⟩
  simp only [Kernel.switchTask, View.dispatch, View.preempt, hcur]
  split
  · rename_i hne
    cases needInsert with
    | true =>
      have hrun : (v.task fromTask).stat = .running := of_decide_eq_true hneed.symm
      simp only [hrun, if_true]
      refine (hsched.preempt hrun).bind fun s' hs' => .pure ?_
      exact hs'.finishSwitch (by simp [View.setTask, hne, hstat])
    | false =>
      have hrun : (v.task fromTask).stat ≠ .running := of_decide_eq_false hneed.symm
      simp only [hrun, if_false]
      exact .pure (hsched.finishSwitch hstat)
  · rename_i he
    rw [not_not] at he
    subst he
    simp only [hstat, reduceCtorEq, if_false]
    refine .pure ((hs.setRunning cfg hstat).congr ?_ ?_ ?_)
    all_goals rfl

lemma dispatch (hstat : (v.task t).stat = .ready) :
    Returns (fun fuel => Kernel.dispatch cfg fuel s t) fun s' => Sim s' (v.dispatch t) := by
  cases hcur : v.current with
  | some fromTask =>
    have hrun : s.osRunningTask = some fromTask := hs.current.trans hcur
    simp only [Kernel.dispatch, hrun]
    exact (hs.switchTask hcur hstat (by rw [hs.task])).bind fun s' hs' => .pure hs'
  | none =>
    have hrun : s.osRunningTask = none := hs.current.trans hcur
    simp only [Kernel.dispatch, hrun, View.dispatch, View.preempt, hcur]
    refine .pure ((hs.setRunning cfg hstat).congr ?_ ?_ ?_)
    all_goals rfl

lemma startupKTask (t : Nat) :
    Returns (fun fuel => Kernel.startupKTask cfg fuel s t) fun r => Sim r.1 (v.start cfg t) := by
  simp only [Kernel.startupKTask, View.start, hs.task]
  split
  · exact .pure hs
  rename_i hstat
  rw [not_not] at hstat
  obtain ⟨lists, hr, hp, hpend⟩ := hs.lists
  have hnot : ∀ k, t ∉ v.pend k := fun k hm => by
    have := hs.stat_of_mem hm
    simp [hstat] at this
  have hrings : Rings ((s.modifyTask t fun task => { task with
      curPrio := task.originPrio
      site := bitmapSiteMask cfg.prioMax task.originPrio task.site }).doubleLinkListRmNode
        (.sched t)).links fun h => (lists h).erase (.sched t) := hr.remove (.sched t)
  have hunset := unSetDelay_eq (t := t) hrings fun h hm =>
    absurd (mem_of_mem_erase hm) (hp.delay_not_mem (by simp [hstat]) h)
  simp only [hunset]
  refine (insert lists ?_ hr.nodup hp hpend fun m hm => ?_).bind fun s' hs' => .pure ?_
  · exact (hr.remove (.sched t)).remove (.delay t)
  · simp [State.modifyTask, hm, hs.task]
  · simpa [State.modifyTask, doubleLinkListRmNode, View.setTask, hs.task, hs.current,
      erase_of_not_mem, hnot] using hs'

lemma delayKTask (hcur : v.current = some t)
    (hstat : (v.task t).stat = .ready ∨ (v.task t).stat = .running) (k : Nat) (now ticks : UInt32)
    (alloc : Bool) :
    Returns (fun fuel => Kernel.delayKTask cfg fuel s now ticks alloc) fun r =>
      Sim r.1 (if ticks = 0 then v else (v.suspend k t .other).arm t now ticks alloc) := by
  have hrun : s.osRunningTask = some t := hs.current.trans hcur
  simp only [Kernel.delayKTask, hrun]
  split
  · exact .pure hs
  · have hreturns : Returns (fun fuel => Kernel.linklistSuspend cfg fuel s k t .other) _ :=
      hs.linklistSuspend hcur hstat k .other
    have hsuspend := hreturns.post (rfl : Kernel.linklistSuspend cfg 0 s k t .other = some _)
    exact (hsuspend.kTaskSetDelay (by simp [View.suspend, View.setTask]) now ticks alloc).bind
      fun r hr => .pure hr

end Sim
end Xiuos.Kernel
