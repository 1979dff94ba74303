import Xiuos.Kernel.Delay

/-! The list of delays under all calls that arm, cancel and expire them, in any state of the
tasks. -/

namespace Xiuos.Kernel
open Lib Function List Option
variable {ts : List Nat} {cfg : Config} {t : Nat}

structure DelayList (s : State) (ts : List Nat) : Prop where
  ring : DelayRing s.links ts
  armed : ∀ t, t ∈ ts ↔ (s.task t).Armed
  order : Ascending (fun t => (s.task t).deadline.toNat) ts

section
variable {l : Links (Head ⊕ Node)} {lists : Head → List Node}

lemma DelayRing.of_rings (h : DelayRing l ts) (hr : Rings l lists) :
    lists .delay = ts.map .delay := by
  obtain ⟨lists', hr', hts⟩ := h
  rw [hr.lists_eq hr', hts]

lemma DelayRing.remove_sched (h : DelayRing l ts) (t : Nat) :
    DelayRing (l.remove (.inr (.sched t))) ts := by
  obtain ⟨lists, hr, hts⟩ := h
  refine ⟨_, hr.remove (.sched t), ?_⟩
  simp only [hts]
  exact erase_of_not_mem (by simp)

lemma DelayRing.remove_delay (h : DelayRing l ts) (t : Nat) :
    DelayRing (l.remove (.inr (.delay t))) (ts.erase t) := by
  obtain ⟨lists, hr, hts⟩ := h
  refine ⟨_, hr.remove (.delay t), ?_⟩
  simp only [hts]
  exact (map_erase delay_injective ts).symm

lemma DelayRing.linked {s s' : State} (h : DelayRing s.links ts) (hr : Rings s.links lists)
    {k : Head} (hk : k ≠ .delay) (hl : Linked s lists k (.sched t) s') : DelayRing s'.links ts := by
  obtain ⟨links, xs, ys, -, hlinks, rfl⟩ := hl
  exact ⟨_, hlinks, by rw [update_of_ne hk.symm, h.of_rings hr]⟩

end

namespace DelayList
variable {s s' : State} (h : DelayList s ts)
include h

lemma keep (hring : DelayRing s'.links ts) (hdelay : ∀ u, (s'.task u).delay = (s.task u).delay) :
    DelayList s' ts := by
  refine ⟨hring, fun u => ?_, h.order.congr fun u _ => ?_⟩
  · rw [h.armed, Task.Armed, Task.Armed, hdelay]
  · rw [Task.deadline, Task.deadline, hdelay]

lemma modify (t : Nat) (f : Task → Task) (hf : (f (s.task t)).delay = (s.task t).delay) :
    DelayList (s.modifyTask t f) ts := by
  refine h.keep h.ring fun u => ?_
  by_cases hu : u = t
  · subst hu
    rw [modifyTask_self, hf]
  · rw [modifyTask_of_ne _ _ _ hu]

lemma rmNode (t : Nat) : DelayList (s.doubleLinkListRmNode (.sched t)) ts :=
  h.keep (h.ring.remove_sched t) fun _ => rfl

lemma removeKTask (cfg : Config) (t : Nat) : DelayList (kTaskOsAssignRemoveKTask cfg s t) ts := by
  refine h.keep ?_ fun u => by rw [remove_task]
  rw [remove_links]
  exact h.ring.remove_sched t

lemma stateSet (t : Nat) (stat : Stat) : DelayList (s.kTaskStateSet t stat) ts := h.modify t _ rfl

lemma unSetDelay (t : Nat) : DelayList (kTaskUnSetDelay s t) (ts.erase t) := by
  have hnodup := h.ring.nodup
  rw [kTaskUnSetDelay]
  split
  · rename_i ticks hdelay
    have hne : ∀ u ≠ t, ((s.modifyTask t ({ · with delay := some ⟨ticks, false⟩ })).task u) =
        s.task u := fun u hu => modifyTask_of_ne _ _ _ hu
    refine ⟨h.ring.remove_delay t, fun u => ?_, (h.order.erase t).congr fun u hu => ?_⟩
    · rw [hnodup.mem_erase_iff, rmNode_task]
      by_cases hu : u = t
      · subst hu
        simp [Task.Armed]
      · rw [hne u hu, h.armed, and_iff_right hu]
    · rw [rmNode_task, hne u (hnodup.mem_erase_iff.mp hu).1]
  · rename_i hnone
    have ht : t ∉ ts := fun ht => by
      obtain ⟨ticks, hticks⟩ := (h.armed t).mp ht
      exact hnone ticks hticks
    rwa [erase_of_not_mem ht]

lemma not_mem_erase (t : Nat) : t ∉ ts.erase t :=
  fun ht => (h.ring.nodup.mem_erase_iff.mp ht).1 rfl

lemma arm (ht : t ∉ ts) (deadline : UInt32) {links : Links (Head ⊕ Node)}
    (hlinks : DelayRing links
      (insertFirst (fun u => decide (deadline < (s.task u).deadline)) t ts)) :
    DelayList { s.modifyTask t ({ · with delay := some ⟨deadline, true⟩ }) with links }
      (insertFirst (fun u => decide (deadline < (s.task u).deadline)) t ts) := by
  have hne : ∀ u ∈ ts, (s.modifyTask t ({ · with delay := some ⟨deadline, true⟩ })).task u =
      s.task u := fun u hu => modifyTask_of_ne _ _ _ fun he => ht (he ▸ hu)
  refine ⟨hlinks, fun u => ?_, ?_⟩
  · rw [mem_insertFirst, h.armed]
    by_cases hu : u = t
    · subst hu
      simp [Task.Armed]
    · simp [hu, modifyTask_of_ne _ _ _ hu]
  · have hlist : Ascending (fun u => ((s.modifyTask t
        ({ · with delay := some ⟨deadline, true⟩ })).task u).deadline.toNat) ts :=
      h.order.congr fun u hu => by rw [hne u hu]
    have hinsert := hlist.insertFirst t
    rwa [insertFirst_congr (q := fun u => decide (deadline < (s.task u).deadline)) fun u hu => by
      simp [hne u hu, Task.deadline, UInt32.lt_iff_toNat_lt]] at hinsert

lemma setDelay (hs : Inv cfg s) (t : Nat) (now ticks : UInt32) (alloc : Bool) :
    Returns (fun fuel => kTaskSetDelay fuel s t now ticks alloc) fun r =>
      ∃ ts', DelayList r.1 ts' := by
  simp only [kTaskSetDelay]
  split
  · exact .pure ⟨ts, h⟩
  have h' := h.unSetDelay t
  have ht := h.not_mem_erase t
  obtain ⟨_, hs⟩ := hs
  obtain ⟨lists, hs', -, hfree⟩ := hs.unSetDelay t
  have hr := hs'.rings
  have hts := h'.ring.of_rings hr
  refine (Rings.find_returns (l := (State.modifyTask _ _ _).links) hr .delay _).bind ?_
  rintro _ rfl
  refine .pure ⟨_, h'.arm ht (now + ticks)
    ⟨_, hr.insertBefore hfree takeWhile_append_dropWhile.symm, ?_⟩⟩
  rw [update_self, hts]
  refine (insertFirst_map _ Node.delay t _).trans (congrArg _ (insertFirst_congr ?_))
  intro u hu
  have hne : u ≠ t := fun he => ht (he ▸ hu)
  obtain ⟨deadline, hdelay⟩ := (h'.armed u).mp hu
  simp [modifyTask_of_ne _ _ _ hne, hdelay, Task.deadline]

lemma insertReady (hfree : Free cfg s t) :
    Returns (fun fuel => kTaskInsertToReadyVector cfg fuel s t) fun s' => DelayList s' ts := by
  obtain ⟨lists, hs, hfree⟩ := hfree
  refine (insertToReadyVector_returns hs.rings hfree cfg).mono ?_
  rintro _ ⟨links, xs, ys, -, hlinks, rfl⟩
  refine (h.stateSet t .ready).keep ⟨_, hlinks, ?_⟩ fun _ => rfl
  rw [update_of_ne (by simp), h.ring.of_rings hs.rings]

lemma suspend (cfg : Config) (t : Nat) : ∃ ts', DelayList (suspendKTask cfg s t).1 ts' := by
  rw [suspendKTask]
  split
  · exact ⟨ts, h⟩
  split
  · exact ⟨ts, h⟩
  · exact ⟨_, ((h.removeKTask cfg t).stateSet t .suspend).unSetDelay t⟩

lemma wakeup (hs : Inv cfg s) (t : Nat) :
    Returns (fun fuel => kTaskWakeup cfg fuel s t) fun r => ∃ ts', DelayList r.1 ts' := by
  simp only [kTaskWakeup]
  split
  · exact .pure ⟨ts, h⟩
  rename_i hstat
  rw [not_not] at hstat
  have hfree := (Free.unlink hs (t := t) (by simp [hstat])).unSetDelay t
  exact (((h.rmNode t).unSetDelay t).insertReady hfree).bind fun s' hs' => .pure ⟨_, hs'⟩

lemma timeout (hs : Inv cfg s) (t : Nat) :
    Returns (fun fuel => kTaskTimeout cfg fuel s t) fun s' => ∃ ts', DelayList s' ts' := by
  simp only [kTaskTimeout]
  split
  · rename_i hstat
    have hmod : Inv cfg (s.modifyTask t ({ · with exstatus := -etimeout })) :=
      hs.modify _ rfl rfl rfl rfl rfl
    exact (((h.modify t _ rfl).rmNode t).insertReady (Free.unlink hmod (by simp [hstat]))).mono
      fun s' hs' => ⟨_, hs'⟩
  · exact .pure ⟨ts, h⟩

lemma startup (hs : Inv cfg s) (t : Nat) :
    Returns (fun fuel => startupKTask cfg fuel s t) fun r => ∃ ts', DelayList r.1 ts' := by
  simp only [startupKTask]
  split
  · exact .pure ⟨ts, h⟩
  rename_i hstat
  rw [not_not] at hstat
  obtain ⟨lists, hs⟩ := hs
  have hfree := (Free.unlink ⟨lists, hs.restart hstat⟩ (t := t) (by simp [hstat])).unSetDelay t
  exact ((((h.modify t _ rfl).rmNode t).unSetDelay t).insertReady hfree).bind
    fun s' hs' => .pure ⟨_, hs'⟩

lemma preempt (hs : Inv cfg s) (ht : (s.task t).stat = .running) :
    Returns (fun fuel => kTaskInsertToReadyVector cfg fuel s t) fun s' => DelayList s' ts := by
  obtain ⟨lists, hs⟩ := hs
  exact h.insertReady ⟨lists, hs, hs.running t ht⟩

lemma setRunning (cfg : Config) (t : Nat) :
    DelayList ((kTaskOsAssignRemoveKTask cfg s t).kTaskStateSet t .running) ts :=
  (h.removeKTask cfg t).stateSet t .running

lemma switchContext (cfg : Config) (t : Nat) : DelayList (switchKtaskContext cfg s t) ts := by
  rw [switchKtaskContext]
  split <;> exact h.keep h.ring fun _ => rfl

lemma switchTask (hs : Inv cfg s) {newTask fromTask : Nat} {needInsert : Bool}
    (hfrom : needInsert → (s.task fromTask).stat = .running) :
    Returns (fun fuel => Kernel.switchTask cfg fuel s newTask fromTask needInsert) fun s' =>
      DelayList s' ts := by
  simp only [Kernel.switchTask]
  split
  · have h₁ : DelayList { s with currentPriority := s.vector.highestPrio.toUInt8 } ts :=
      h.keep h.ring fun _ => rfl
    have hs₁ : Inv cfg { s with currentPriority := s.vector.highestPrio.toUInt8 } :=
      hs.congr rfl rfl rfl
    cases needInsert with
    | false => exact .pure ((h₁.setRunning cfg newTask).switchContext cfg newTask)
    | true =>
      exact (h₁.preempt hs₁ (hfrom rfl)).bind fun s' h' =>
        .pure ((h'.setRunning cfg newTask).switchContext cfg newTask)
  · exact .pure (h.setRunning cfg fromTask)

lemma assignHighest (hs : Inv cfg s) (hrun : s.osRunningTask ≠ none) :
    Returns (fun fuel => Kernel.assignHighest cfg fuel s) fun s' => DelayList s' ts := by
  obtain ⟨fromTask, hfrom⟩ := ne_none_iff_exists'.mp hrun
  simp only [Kernel.assignHighest]
  split
  · exact .pure h
  rename_i hg
  obtain ⟨newTask, hnew⟩ := hs.choose_isSome hg
  simp only [hnew, hfrom, bind_eq_bind, bind_some]
  split
  · exact h.switchTask hs (by simp)
  · rename_i hstat
    split
    · exact .pure h
    · exact h.switchTask hs fun _ => not_not.mp hstat

lemma osAssign (hs : Inv cfg s) (hrun : s.osRunningTask ≠ none) (lockLevel : Nat) (inIsr : Bool) :
    Returns (fun fuel => kTaskOsAssign cfg fuel lockLevel inIsr s) fun s' => DelayList s' ts := by
  simp only [kTaskOsAssign]
  split
  · exact .pure h
  split
  · exact .pure (h.keep h.ring fun _ => rfl)
  · exact h.assignHighest hs hrun

lemma startupOsAssign (hs' : Kernel.startupOsAssign cfg s = some s') : DelayList s' ts := by
  obtain ⟨t, -, hs'⟩ := bind_eq_some_iff.mp hs'
  cases hs'
  have h₁ : DelayList { s with osRunningTask := some t } ts := h.keep h.ring fun _ => rfl
  exact (h₁.setRunning cfg t).switchContext cfg t

lemma pend (hs : Inv cfg s) (hrun : s.osRunningTask = some t)
    (hstat : (s.task t).stat = .ready ∨ (s.task t).stat = .running) (list : Nat)
    (flag : LinklistFlag) :
    Returns (fun fuel => linklistSuspend cfg fuel s list t flag) fun r =>
      ∃ ts', DelayList r.1 ts' := by
  obtain ⟨ts', h'⟩ := h.suspend cfg t
  refine hs.linklistSuspend (P := fun s => ∃ ts', DelayList s ts') hrun hstat list flag
    fun lists hs' _ => ⟨⟨ts', h'⟩, ?_⟩
  intro s' hl
  have hring := h'.ring.linked hs'.rings (by simp) hl
  obtain ⟨links, -, -, -, -, rfl⟩ := hl
  exact ⟨ts', h'.keep hring fun _ => rfl⟩

end DelayList

/-- One round of the loop in `CheckTaskDelay`, up to where it drops the lock; `KTaskTimeout` follows
as a step of its own. -/
def checkFirst (currentTick : UInt32) (s : State) : Option State :=
  match s.links.next (.inl .delay) with
  | .inr (.delay t) =>
    match (s.task t).delay with
    | some d => some (if reached currentTick d.ticks then kTaskUnSetDelay s t else s)
    | none => none
  | _ => some s

inductive DelayOp
  | setDelay (t : Nat) (now ticks : UInt32) (alloc : Bool)
  | unSetDelay (t : Nat)
  | suspend (t : Nat)
  | pend (list : Nat) (flag : LinklistFlag)
  | wakeup (t : Nat)
  | startup (t : Nat)
  | checkFirst (currentTick : UInt32)
  | timeout (t : Nat)
  | startupAssign
  | assign (lockLevel : Nat) (inIsr : Bool)
  | updateRunning
  deriving DecidableEq

def DelayOp.enabled (s : State) : DelayOp → Bool
  | .pend list flag => Op.enabled s (.pend list flag)
  | .startupAssign => Op.enabled s .startupAssign
  | .assign lockLevel inIsr => Op.enabled s (.assign lockLevel inIsr)
  | _ => true

def delayCall (cfg : Config) (fuel : Nat) (s : State) : DelayOp → Option State
  | .setDelay t now ticks alloc => (kTaskSetDelay fuel s t now ticks alloc).map (·.1)
  | .unSetDelay t => some (kTaskUnSetDelay s t)
  | .suspend t => execCall cfg fuel s (.suspend t)
  | .pend list flag => execCall cfg fuel s (.pend list flag)
  | .wakeup t => execCall cfg fuel s (.wakeup t)
  | .startup t => execCall cfg fuel s (.startup t)
  | .checkFirst currentTick => checkFirst currentTick s
  | .timeout t => execCall cfg fuel s (.timeout t)
  | .startupAssign => execCall cfg fuel s .startupAssign
  | .assign lockLevel inIsr => execCall cfg fuel s (.assign lockLevel inIsr)
  | .updateRunning => execCall cfg fuel s .updateRunning

def delayStep (cfg : Config) (fuel : Nat) (s : State) (op : DelayOp) : Option State :=
  if op.enabled s then delayCall cfg fuel s op else none

section
variable {s : State}

lemma checkFirst_returns (hs : Inv cfg s) (h : DelayList s ts) (currentTick : UInt32) :
    ∃ s', checkFirst currentTick s = some s' ∧ Inv cfg s' ∧ ∃ ts', DelayList s' ts' := by
  rw [checkFirst, h.ring.next]
  cases ts with
  | nil => exact ⟨s, rfl, hs, _, h⟩
  | cons t ts =>
    obtain ⟨ticks, hdelay⟩ := (h.armed t).mp mem_cons_self
    simp only [map_cons, Links.entry, comp_apply, hdelay]
    split
    · exact ⟨_, rfl, hs.unSetDelay t, _, h.unSetDelay t⟩
    · exact ⟨_, rfl, hs, _, h⟩

lemma delayStep_returns (hs : Inv cfg s) (h : DelayList s ts) {op : DelayOp}
    (hop : op.enabled s) :
    Returns (fun fuel => delayStep cfg fuel s op) fun s' =>
      Inv cfg s' ∧ ∃ ts', DelayList s' ts' := by
  simp only [delayStep, hop, if_true]
  cases op with
  | setDelay t now ticks alloc =>
    exact ((hs.setDelay t now ticks alloc).and (h.setDelay hs t now ticks alloc)).map
      fun _ hr => hr
  | unSetDelay t => exact .pure ⟨hs.unSetDelay t, _, h.unSetDelay t⟩
  | suspend t => exact .pure ⟨hs.suspend t, h.suspend cfg t⟩
  | pend list flag =>
    obtain ⟨t, ht, hstat⟩ := (Option.any_eq_true _ _).mp hop
    simp only [delayCall, execCall, ht, bind_eq_bind, bind_some]
    have hstat := of_decide_eq_true hstat
    exact ((hs.pend ht hstat list flag).and (h.pend hs ht hstat list flag)).map fun _ hr => hr
  | wakeup t => exact ((hs.wakeup t).and (h.wakeup hs t)).map fun _ hr => hr
  | startup t => exact ((hs.startupTask t).and (h.startup hs t)).map fun _ hr => hr
  | checkFirst currentTick =>
    obtain ⟨s', hs', hkeep⟩ := checkFirst_returns hs h currentTick
    simp only [delayCall, hs']
    exact .pure hkeep
  | timeout t => exact (hs.timeout t).and (h.timeout hs t)
  | startupAssign =>
    have hg := of_decide_eq_true hop
    obtain ⟨s', hs', hinv⟩ := hs.startup hg
    simp only [delayCall, execCall, hs']
    exact .pure ⟨hinv, ts, h.startupOsAssign hs'⟩
  | assign lockLevel inIsr =>
    have hrun := of_decide_eq_true hop
    exact (hs.osAssign hrun lockLevel inIsr).and
      ((h.osAssign hs hrun lockLevel inIsr).mono fun s' hs' => ⟨ts, hs'⟩)
  | updateRunning => exact .pure ⟨hs.congr rfl rfl rfl, ts, h.keep h.ring fun _ => rfl⟩

end

structure OneDelay (s : State) (ts : List Nat) : Prop where
  linked : s.links.Seg (.inl .delay) (ts.map (.inr ∘ .delay)) (.inl .delay)
  once : ts.Nodup
  armed : ∀ t, t ∈ ts ↔ ∃ ticks, (s.task t).delay = some ⟨ticks, true⟩
  unlinked : ∀ t ∉ ts, s.links.next (.inr (.delay t)) = .inr (.delay t) ∧
    s.links.prev (.inr (.delay t)) = .inr (.delay t)
  order : ts.Pairwise fun t u => (s.task t).deadline ≤ (s.task u).deadline

lemma DelayList.oneDelay {cfg : Config} {s : State} {ts : List Nat} (h : DelayList s ts)
    (hs : Inv cfg s) : OneDelay s ts := by
  obtain ⟨lists, hs⟩ := hs
  refine ⟨?_, h.ring.nodup, h.armed, fun t ht =>
    hs.rings.self _ (hs.delay t fun ticks hticks => ?_),
    h.order.imp fun hle => UInt32.le_iff_toNat_le.mpr hle⟩
  · rw [← List.map_map, ← h.ring.of_rings hs.rings]
    exact hs.rings.seg _
  · exact ht ((h.armed t).mpr ⟨ticks, hticks⟩)

lemma delayList_init {cfg : Config} {s : State} (hs : Initial cfg s) :
    DelayList (osAssignReadyVectorInit cfg s) [] := by
  refine ⟨⟨fun _ => [], ?_, rfl⟩, fun t => ?_, List.Pairwise.nil⟩
  · exact ⟨fun h => init_next hs _, by simp, by simp, fun n _ => init_next hs _⟩
  · simp [Task.Armed, osAssignReadyVectorInit, hs.delay]

theorem delayRun_oneDelay {cfg : Config} {s : State} (hs : Initial cfg s) (fuel : Nat)
    (ops : List DelayOp) :
    Always (delayStep cfg fuel) (fun s => (∃ ts, OneDelay s ts) ∧
      ∀ op : DelayOp, op.enabled s → ∃ s' n, ∀ fuel ≥ n, delayStep cfg fuel s op = some s')
      (osAssignReadyVectorInit cfg s) ops := by
  have hinv : Always (delayStep cfg fuel) (fun s => Inv cfg s ∧ ∃ ts, DelayList s ts)
      (osAssignReadyVectorInit cfg s) ops := by
    refine always_of_step ?_ ⟨inv_init hs, _, delayList_init hs⟩ ops
    rintro s op s' ⟨hs, ts, h⟩ hstep
    obtain ⟨hop, -⟩ := ite_none_right_eq_some.mp hstep
    exact (delayStep_returns hs h hop).post hstep
  refine hinv.mono fun s ⟨hs, ts, h⟩ => ⟨⟨ts, h.oneDelay hs⟩, fun op hop => ?_⟩
  obtain ⟨s', -, n, hn⟩ := (delayStep_returns hs h hop).eventually
  exact ⟨s', n, hn⟩

theorem delayRun_oneDelay_sample :
    ∃ s ts, runs (delayStep sampleConfig 20) (osAssignReadyVectorInit sampleConfig sampleState)
        [.startup 9, .startup 3, .startupAssign, .setDelay 9 5 7 true, .setDelay 3 5 2 true,
          .suspend 9, .setDelay 9 5 1 true, .assign 0 false, .checkFirst 6, .timeout 9] = some s ∧
      (s.task 3).delay = some ⟨7, true⟩ ∧ OneDelay s ts := by
  have hrun : ((runs (delayStep sampleConfig 20)
      (osAssignReadyVectorInit sampleConfig sampleState)
      [.startup 9, .startup 3, .startupAssign, .setDelay 9 5 7 true, .setDelay 3 5 2 true,
        .suspend 9, .setDelay 9 5 1 true, .assign 0 false, .checkFirst 6, .timeout 9]).map
      fun s => (s.task 3).delay) = some (some ⟨7, true⟩) := by
    decide +kernel
  obtain ⟨s, hs, hdelay⟩ := map_eq_some_iff.mp hrun
  obtain ⟨ts, hts⟩ := ((delayRun_oneDelay sampleState_initial 20 _).last hs).1
  exact ⟨s, ts, hs, hdelay, hts⟩

end Xiuos.Kernel
