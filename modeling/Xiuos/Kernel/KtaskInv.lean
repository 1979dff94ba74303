import Xiuos.Kernel.KtaskLaws

namespace Xiuos.Kernel
open Lib Function List Option
variable {cfg : Config}

def Inv (cfg : Config) (s : State) : Prop := ∃ lists, Holds cfg s lists

section
variable (s : State) (t m : Nat)

lemma unSetDelay_task : ∃ delay, (kTaskUnSetDelay s t).task m = { s.task m with delay } := by
  rw [kTaskUnSetDelay]
  split
  · rename_i ticks _
    refine ⟨if m = t then some ⟨ticks, false⟩ else (s.task m).delay, ?_⟩
    by_cases hm : m = t <;> simp [State.doubleLinkListRmNode, State.modifyTask, hm]
  · exact ⟨_, rfl⟩

@[simp] lemma unSetDelay_stat : ((kTaskUnSetDelay s t).task m).stat = (s.task m).stat := by
  obtain ⟨_, h⟩ := unSetDelay_task s t m
  rw [h]

@[simp] lemma unSetDelay_site : ((kTaskUnSetDelay s t).task m).site = (s.task m).site := by
  obtain ⟨_, h⟩ := unSetDelay_task s t m
  rw [h]

@[simp] lemma unSetDelay_curPrio :
    ((kTaskUnSetDelay s t).task m).curPrio = (s.task m).curPrio := by
  obtain ⟨_, h⟩ := unSetDelay_task s t m
  rw [h]

@[simp] lemma unSetDelay_osRunningTask :
    (kTaskUnSetDelay s t).osRunningTask = s.osRunningTask := by
  rw [kTaskUnSetDelay]
  split <;> rfl

end

namespace Inv
variable {s s' : State} {t : Nat}

lemma congr (hs : Inv cfg s) (hl : s'.links = s.links) (ht : s'.task = s.task)
    (hv : s'.vector = s.vector) : Inv cfg s' :=
  let ⟨lists, h⟩ := hs
  ⟨lists, h.congr hl ht hv⟩

section
variable (hs : Inv cfg s)
include hs

lemma stat_of_choose (h : chooseTaskWithHighestPrio s = some t) : (s.task t).stat = .ready :=
  let ⟨_, hl⟩ := hs
  hl.stat_of_choose h

lemma setRunning (ht : (s.task t).stat = .ready) :
    Inv cfg ((kTaskOsAssignRemoveKTask cfg s t).kTaskStateSet t .running) := by
  obtain ⟨lists, h⟩ := hs
  exact ⟨_, h.remove (by decide) (.inr ⟨by simp [ht], by simp [ht]⟩)⟩

lemma switchContext (t : Nat) : Inv cfg (switchKtaskContext cfg s t) := by
  rw [switchKtaskContext]
  split <;> exact hs.congr rfl rfl rfl

lemma preempt (ht : (s.task t).stat = .running) :
    Returns (fun fuel => kTaskInsertToReadyVector cfg fuel s t) fun s' =>
      Inv cfg s' ∧ ∃ links vector, s' = { s.kTaskStateSet t .ready with links, vector } := by
  obtain ⟨lists, hl⟩ := hs
  exact hl.insert (hl.running t ht) (.inl ⟨by simp [ht], by simp [ht]⟩)

lemma switchTask {newTask fromTask : Nat} (hnew : (s.task newTask).stat = .ready)
    {needInsert : Bool} (hfrom : needInsert → (s.task fromTask).stat = .running) :
    Returns (fun fuel => Kernel.switchTask cfg fuel s newTask fromTask needInsert) (Inv cfg) := by
  simp only [Kernel.switchTask]
  split
  · rename_i hne
    have hs₁ : Inv cfg { s with currentPriority := s.vector.highestPrio.toUInt8 } :=
      hs.congr rfl rfl rfl
    cases needInsert with
    | false => exact .pure ((setRunning hs₁ hnew).switchContext newTask)
    | true =>
      refine (hs₁.preempt (hfrom rfl)).bind ?_
      rintro _ ⟨hs₂, links, vector, rfl⟩
      exact .pure ((setRunning hs₂ (by simp [stateSet_stat, hne, hnew])).switchContext newTask)
  · rename_i he
    rw [not_not] at he
    exact .pure (hs.setRunning (he ▸ hnew))

lemma choose_isSome (hg : s.vector.priorityReadyGroup ≠ 0) :
    ∃ t, chooseTaskWithHighestPrio s = some t := by
  obtain ⟨lists, h⟩ := hs
  obtain ⟨i, hi⟩ := Nat.exists_testBit_of_ne_zero
    (fun h0 => hg (UInt32.toNat_inj.mp h0) : s.vector.priorityReadyGroup.toNat ≠ 0)
  have hne : ∃ p, p ∈ readyPrios lists := by
    by_cases hmax : 32 < cfg.prioMax
    · obtain ⟨j, -, hj⟩ := (h.marks.column hmax i).mp hi
      exact ⟨_, hj⟩
    · exact ⟨i, (h.marks.single (by omega) i).mp hi⟩
  obtain ⟨p, hp⟩ := hne
  obtain ⟨he, -⟩ | hgreatest := h.marks.highest
  · rw [he] at hp
    exact hp.elim
  · obtain ⟨n, ns, hl⟩ := exists_cons_of_ne_nil hgreatest.1
    obtain ⟨t, rfl, -⟩ := (h.member _ n).mp (hl ▸ mem_cons_self)
    exact ⟨t, by simp [chooseTaskWithHighestPrio, h.rings.next_head hl]⟩

section
variable (hrun : s.osRunningTask ≠ none)
include hrun

lemma assignHighest : Returns (fun fuel => Kernel.assignHighest cfg fuel s) (Inv cfg) := by
  obtain ⟨fromTask, hfrom⟩ := ne_none_iff_exists'.mp hrun
  simp only [Kernel.assignHighest]
  split
  · exact .pure hs
  · rename_i hg
    obtain ⟨newTask, hnew⟩ := hs.choose_isSome hg
    have hready := hs.stat_of_choose hnew
    simp only [hnew, hfrom, bind_eq_bind, bind_some]
    split
    · exact hs.switchTask hready (by simp)
    · rename_i hstat
      split
      · exact .pure hs
      · exact hs.switchTask hready fun _ => not_not.mp hstat

lemma osAssign (lockLevel : Nat) (inIsr : Bool) :
    Returns (fun fuel => kTaskOsAssign cfg fuel lockLevel inIsr s) (Inv cfg) := by
  simp only [kTaskOsAssign]
  split
  · exact .pure hs
  · split
    · exact .pure (hs.congr rfl rfl rfl)
    · exact hs.assignHighest hrun

lemma doIrqSwitch (lockLevel : Nat) :
    Returns (fun fuel => kTaskOsAssignDoIrqSwitch cfg fuel lockLevel s) (Inv cfg) := by
  simp only [kTaskOsAssignDoIrqSwitch]
  split
  · exact .pure hs
  · split
    · exact .pure hs
    · exact (hs.congr rfl rfl rfl : Inv cfg { s with switchTriger := false }).assignHighest hrun

omit hrun in
lemma yieldTo {newTask : Nat} (hnew : (s.task newTask).stat = .ready) (fromTask highestPrio : Nat)
    : Inv cfg (Kernel.yieldTo cfg s newTask fromTask highestPrio) := by
  rw [Kernel.yieldTo]
  split
  · have hs₁ : Inv cfg { s with currentPriority := highestPrio.toUInt8 } := hs.congr rfl rfl rfl
    exact (setRunning hs₁ hnew).switchContext newTask
  · rename_i he
    exact hs.setRunning (not_not.mp he ▸ hnew)

lemma yield (lockLevel : Nat) (inIsr : Bool) :
    Returns (fun fuel => yieldOsAssign cfg fuel lockLevel inIsr s) fun r => Inv cfg r.1 := by
  obtain ⟨fromTask, hfrom⟩ := ne_none_iff_exists'.mp hrun
  simp only [yieldOsAssign]
  split
  · exact .pure hs
  split
  · exact .pure hs
  split
  · exact .pure hs
  rename_i hg
  obtain ⟨newTask, hnew⟩ := hs.choose_isSome hg
  have hready := hs.stat_of_choose hnew
  simp only [hnew, hfrom, bind_eq_bind, bind_some]
  split
  · exact .pure (hs.yieldTo hready _ _)
  · rename_i hstat
    refine (hs.preempt (not_not.mp hstat)).bind ?_
    rintro _ ⟨hs', links, vector, rfl⟩
    refine .pure (hs'.yieldTo ?_ _ _)
    simp [stateSet_stat, hready]

end

lemma startup (hg : s.vector.priorityReadyGroup ≠ 0) :
    ∃ s', startupOsAssign cfg s = some s' ∧ Inv cfg s' := by
  obtain ⟨t, ht⟩ := hs.choose_isSome hg
  have hs₁ : Inv cfg { s with osRunningTask := some t } := hs.congr rfl rfl rfl
  refine ⟨_, ?_, (hs₁.setRunning (hs.stat_of_choose ht)).switchContext t⟩
  simp only [startupOsAssign, ht, bind_eq_bind, bind_some]

end

lemma unSetDelay (hs : Inv cfg s) (t : Nat) : Inv cfg (kTaskUnSetDelay s t) :=
  let ⟨_, h⟩ := hs
  let ⟨lists, h', _⟩ := h.unSetDelay t
  ⟨lists, h'⟩

lemma modify (hs : Inv cfg s) (f : Task → Task) (hstat : (f (s.task t)).stat = (s.task t).stat)
    (hcur : (f (s.task t)).curPrio = (s.task t).curPrio)
    (horigin : (f (s.task t)).originPrio = (s.task t).originPrio)
    (hsite : (f (s.task t)).site = (s.task t).site)
    (hdelay : (f (s.task t)).delay = (s.task t).delay) : Inv cfg (s.modifyTask t f) :=
  let ⟨_, h⟩ := hs
  ⟨_, h.modify f hstat hcur horigin hsite (.inl hdelay)⟩

end Inv

def Free (cfg : Config) (s : State) (t : Nat) : Prop :=
  ∃ lists, Holds cfg s lists ∧ ∀ h, .sched t ∉ lists h

namespace Free
variable {s s' : State} {t : Nat}

lemma inv (h : Free cfg s t) : Inv cfg s :=
  let ⟨lists, hs, _⟩ := h
  ⟨lists, hs⟩

lemma unlink (hs : Inv cfg s) (hstat : (s.task t).stat ≠ .ready) :
    Free cfg (s.doubleLinkListRmNode (.sched t)) t := by
  obtain ⟨lists, h⟩ := hs
  exact ⟨_, h.unlink (h.not_mem hstat), fun k hk => (h.mem_erase.mp hk).1 rfl⟩

lemma remove (hs : Inv cfg s) {stat : Stat} (hne : stat ≠ .ready)
    (hsite : stat = .close ∨ ((s.task t).stat ≠ .init ∧ (s.task t).stat ≠ .close)) :
    Free cfg ((kTaskOsAssignRemoveKTask cfg s t).kTaskStateSet t stat) t := by
  obtain ⟨lists, h⟩ := hs
  exact ⟨_, h.remove hne hsite, fun k hk => (h.mem_erase.mp hk).1 rfl⟩

lemma unSetDelay (h : Free cfg s t) (m : Nat) : Free cfg (kTaskUnSetDelay s m) t := by
  obtain ⟨lists, hs, hfree⟩ := h
  obtain ⟨lists', hs', hsub, -⟩ := hs.unSetDelay m
  exact ⟨lists', hs', fun k hk => hfree k (hsub k t hk)⟩

lemma insert (h : Free cfg s t)
    (hsite : (s.task t).stat ≠ .init ∧ (s.task t).stat ≠ .close ∨
      IsSite cfg.prioMax (s.task t).site (s.task t).curPrio.toNat) :
    Returns (fun fuel => kTaskInsertToReadyVector cfg fuel s t) (Inv cfg) := by
  obtain ⟨lists, hs, hfree⟩ := h
  exact (hs.insert hfree hsite).mono fun s' hs' => hs'.1

end Free

namespace Inv
variable {s : State}
variable (hs : Inv cfg s)
include hs

section
variable (t : Nat)
include t

lemma suspend : Inv cfg (suspendKTask cfg s t).1 := by
  rw [suspendKTask]
  split
  · exact hs
  split
  · exact hs
  rename_i hstat
  have hne : (s.task t).stat ≠ .init ∧ (s.task t).stat ≠ .close := by
    constructor <;> intro he <;> simp [he] at hstat
  exact (Free.remove hs (by decide) (.inr hne)).inv.unSetDelay t

lemma wakeup : Returns (fun fuel => kTaskWakeup cfg fuel s t) fun r => Inv cfg r.1 := by
  simp only [kTaskWakeup]
  split
  · exact .pure hs
  rename_i hstat
  rw [not_not] at hstat
  have hfree := (Free.unlink hs (t := t) (by simp [hstat])).unSetDelay t
  exact (hfree.insert (.inl ⟨by simp [hstat], by simp [hstat]⟩)).bind fun s' hs' => .pure hs'

lemma timeout : Returns (fun fuel => kTaskTimeout cfg fuel s t) (Inv cfg) := by
  simp only [kTaskTimeout]
  split
  · rename_i hstat
    have hmod : Inv cfg (s.modifyTask t ({ · with exstatus := -etimeout })) :=
      hs.modify _ rfl rfl rfl rfl rfl
    exact (Free.unlink hmod (by simp [hstat])).insert (.inl ⟨by simp [hstat], by simp [hstat]⟩)
  · exact .pure hs

lemma startupTask : Returns (fun fuel => startupKTask cfg fuel s t) fun r => Inv cfg r.1 := by
  simp only [startupKTask]
  split
  · exact .pure hs
  rename_i hstat
  rw [not_not] at hstat
  obtain ⟨lists, h⟩ := hs
  have hfree := (Free.unlink ⟨lists, h.restart hstat⟩ (t := t) (by simp [hstat])).unSetDelay t
  refine (hfree.insert (.inr ?_)).bind fun s' hs' => .pure hs'
  simpa using bitmapSiteMask_isSite (h.prio t).1 _

lemma delete : Returns (fun fuel => deleteResource cfg fuel s t) (Inv cfg) := by
  simp only [deleteResource]
  have hzombie : Inv cfg
      (((kTaskOsAssignRemoveKTask cfg s t).kTaskStateSet t .close).insertNodeAfter
      (.inl .zombie) (.sched t)) := by
    have hclose : Stat.close ≠ .ready := by decide
    obtain ⟨lists, h, hfree⟩ := Free.remove hs (t := t) hclose (.inl rfl)
    refine h.link (h := .zombie) (n := .sched t) (by simp)
      ⟨_, [], _, rfl, h.rings.insertAfter_head hfree .zombie, rfl⟩ ?_ (by simp)
    rintro m ⟨⟩
    simp [stateSet_stat]
  split
  · exact (hzombie.wakeup _).bind fun r hr => .pure hr
  · exact .pure hzombie

lemma deleteTask : Returns (fun fuel => deleteKTask cfg fuel s t) fun r => Inv cfg r.1 := by
  simp only [deleteKTask]
  split
  · exact .pure hs
  · exact (hs.delete t).bind fun s' hs' => .pure hs'

omit t in
lemma quit : Returns (fun fuel => kTaskQuit cfg fuel s) (Inv cfg) := by
  simp only [kTaskQuit]
  split
  · exact .pure hs
  · exact hs.delete _

lemma setDelay (now ticks : UInt32) (alloc : Bool) :
    Returns (fun fuel => kTaskSetDelay fuel s t now ticks alloc) fun r => Inv cfg r.1 := by
  simp only [kTaskSetDelay]
  split
  · exact .pure hs
  obtain ⟨lists, h⟩ := hs
  obtain ⟨lists', h', -, hfree⟩ := h.unSetDelay t
  have hset := h'.modify (t := t) ({ · with delay := some ⟨now + ticks, true⟩ }) rfl rfl rfl rfl
    (.inr hfree)
  refine (hset.rings.find_returns .delay _).bind ?_
  rintro _ rfl
  refine .pure (hset.link (h := .delay) (by simp) (linked_insertBefore hset.rings hfree
    takeWhile_append_dropWhile.symm) (by simp) ?_)
  rintro m ⟨⟩
  exact ⟨now + ticks, by simp⟩

end

lemma delay (now ticks : UInt32) (alloc : Bool) :
    Returns (fun fuel => delayKTask cfg fuel s now ticks alloc) fun r => Inv cfg r.1 := by
  simp only [delayKTask]
  split
  · exact .pure hs
  split
  · exact .pure hs
  · rename_i t _
    exact ((hs.suspend t).setDelay t now ticks alloc).bind fun r hr => .pure hr

lemma linklistSuspend {P : State → Prop} {t : Nat} (hrun : s.osRunningTask = some t)
    (hstat : (s.task t).stat = .ready ∨ (s.task t).stat = .running) (list : Nat)
    (flag : LinklistFlag)
    (hP : ∀ lists, Holds cfg (suspendKTask cfg s t).1 lists →
      ((suspendKTask cfg s t).1.task t).stat = .suspend → P (suspendKTask cfg s t).1 ∧
        ∀ s', Linked (suspendKTask cfg s t).1 lists (.pend list) (.sched t) s' → P s') :
    Returns (fun fuel => Kernel.linklistSuspend cfg fuel s list t flag) fun r => P r.1 := by
  have hne : (s.task t).stat ≠ .init ∧ (s.task t).stat ≠ .close := by
    rcases hstat with h | h <;> simp [h]
  have hsuspend : (suspendKTask cfg s t).1 =
      kTaskUnSetDelay ((kTaskOsAssignRemoveKTask cfg s t).kTaskStateSet t .suspend) t := by
    rw [suspendKTask, if_neg (by simp [hrun]), if_neg (by tauto)]
  have hsus : Stat.suspend ≠ .ready := by decide
  obtain ⟨lists, h, hfree⟩ := (Free.remove hs hsus (.inr hne)).unSetDelay t
  rw [← hsuspend] at h
  obtain ⟨hsame, hlink⟩ := hP lists h (by simp [hsuspend, stateSet_stat])
  simp only [Kernel.linklistSuspend]
  cases flag with
  | fifo => exact .pure (hlink _ (linked_insertBefore h.rings hfree (append_nil _).symm))
  | prio =>
    exact (linked_insertSorted h.rings hfree _ _).bind fun s' hl => .pure (hlink s' hl)
  | other => exact .pure hsame

lemma pend {t : Nat} (hrun : s.osRunningTask = some t)
    (hstat : (s.task t).stat = .ready ∨ (s.task t).stat = .running) (list : Nat)
    (flag : LinklistFlag) :
    Returns (fun fuel => Kernel.linklistSuspend cfg fuel s list t flag) fun r => Inv cfg r.1 := by
  refine hs.linklistSuspend hrun hstat list flag fun lists h hstat' => ⟨⟨lists, h⟩, ?_⟩
  intro s' hl
  refine h.link (by simp) hl ?_ (by simp)
  rintro m ⟨⟩
  simp [hstat']

lemma timeslice : Inv cfg (timesliceUpdate cfg s) := by
  rw [timesliceUpdate]
  split
  · exact hs.modify _ rfl rfl rfl rfl rfl
  · exact hs.modify _ rfl rfl rfl rfl rfl
  · exact hs

end Inv
end Xiuos.Kernel
