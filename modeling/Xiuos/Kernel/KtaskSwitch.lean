import Xiuos.Kernel.KtaskRun

/-! The ways to switch tasks: `KTaskOsAssign` in a task, `KTaskOsAssignDoIrqSwitch` at the end of
an interrupt, and `YieldOsAssign`. -/

namespace Xiuos.Kernel
open Lib Function Option

def settle (cfg : Config) (s : State) : State :=
  match cfg.arch with
  | .riscv => s
  | .arm => if s.interruptTo = none then s else updateRunningTask s

lemma settle_eq (cfg : Config) (s : State) :
    ∃ osRunningTask, settle cfg s = { s with osRunningTask } := by
  rw [settle]
  split
  · exact ⟨_, rfl⟩
  · split <;> exact ⟨_, rfl⟩

@[simp] lemma settle_task (cfg : Config) (s : State) : (settle cfg s).task = s.task := by
  obtain ⟨_, h⟩ := settle_eq cfg s
  rw [h]

lemma Inv.settle {cfg : Config} {s : State} (hs : Inv cfg s) : Inv cfg (settle cfg s) := by
  obtain ⟨_, h⟩ := settle_eq cfg s
  rw [h]
  exact hs.congr rfl rfl rfl

lemma settle_switchContext (cfg : Config) (s : State) (t : Nat) :
    (settle cfg (switchKtaskContext cfg s t)).osRunningTask = some t := by
  cases h : cfg.arch <;> simp [settle, switchKtaskContext, h, updateRunningTask]

lemma settle_osRunningTask_congr {cfg : Config} {s s' : State}
    (hrun : s'.osRunningTask = s.osRunningTask) (hto : s'.interruptTo = s.interruptTo) :
    (settle cfg s').osRunningTask = (settle cfg s).osRunningTask := by
  cases h : cfg.arch
  · simpa [settle, h] using hrun
  · simp only [settle, h, hto]
    split
    · exact hrun
    · exact hto

@[simp] lemma switchContext_task (cfg : Config) (s : State) (t : Nat) :
    (switchKtaskContext cfg s t).task = s.task := by
  rw [switchKtaskContext]
  split <;> rfl

section
variable (cfg : Config) (fuel : Nat) (s : State) (b : Bool)

def State.setTriger (s : State) (b : Bool) : State := { s with switchTriger := b }

lemma insertSorted_triger (h : Head) (p : Head ⊕ Node → Bool) (n : Node) :
    insertSorted fuel (s.setTriger b) h p n = (insertSorted fuel s h p n).map (·.setTriger b) := by
  simp only [insertSorted, State.setTriger, bind_eq_bind]
  cases s.links.find (.inl h) p fuel (s.links.next (.inl h)) with
  | none => rfl
  | some node =>
    simp only [bind_some, map_some]
    split <;> rfl

lemma policyInsert_triger (policy : Policy) (t : Nat) :
    policyInsert policy fuel (s.setTriger b) t =
      (policyInsert policy fuel s t).map (·.setTriger b) := by
  cases policy with
  | fifo => rfl
  | roundRobin => rfl
  | roundRobinRemain =>
    simp only [policyInsert, roundRobinRemainReadyVectorInsert]
    by_cases h : (s.task t).advanceCnt < 1
    · simp only [State.setTriger, h, if_true]
      exact insertSorted_triger fuel s b _ _ _
    · simp only [State.setTriger, h, if_false]
      rfl

lemma insertToReadyVector_triger (t : Nat) :
    kTaskInsertToReadyVector cfg fuel (s.setTriger b) t =
      (kTaskInsertToReadyVector cfg fuel s t).map (·.setTriger b) := by
  have h := policyInsert_triger fuel (s.kTaskStateSet t .ready) b cfg.policy t
  simp only [kTaskInsertToReadyVector, assignPolicyInsert, bind_eq_bind, bind_assoc]
  rw [show (s.setTriger b).kTaskStateSet t .ready = (s.kTaskStateSet t .ready).setTriger b from rfl,
    h]
  cases policyInsert cfg.policy fuel (s.kTaskStateSet t .ready) t <;> rfl

lemma remove_triger (t : Nat) :
    kTaskOsAssignRemoveKTask cfg (s.setTriger b) t =
      (kTaskOsAssignRemoveKTask cfg s t).setTriger b := by
  simp only [kTaskOsAssignRemoveKTask, apply_ite (State.setTriger · b)]
  rfl

lemma switchContext_triger (t : Nat) :
    switchKtaskContext cfg (s.setTriger b) t = (switchKtaskContext cfg s t).setTriger b := by
  simp only [switchKtaskContext]
  split <;> rfl

lemma switchTask_triger (newTask fromTask : Nat) (needInsert : Bool) :
    switchTask cfg fuel (s.setTriger b) newTask fromTask needInsert =
      (switchTask cfg fuel s newTask fromTask needInsert).map (·.setTriger b) := by
  have hfinish : ∀ s : State,
      switchKtaskContext cfg ((kTaskOsAssignRemoveKTask cfg (s.setTriger b) newTask).kTaskStateSet
        newTask .running) newTask =
      (switchKtaskContext cfg ((kTaskOsAssignRemoveKTask cfg s newTask).kTaskStateSet
        newTask .running) newTask).setTriger b := by
    intro s
    rw [remove_triger, ← switchContext_triger]
    rfl
  simp only [switchTask]
  split
  · cases needInsert with
    | false => exact congrArg some (hfinish { s with currentPriority :=
      s.vector.highestPrio.toUInt8 })
    | true =>
      simp only [if_true]
      have h := insertToReadyVector_triger cfg fuel
        { s with currentPriority := s.vector.highestPrio.toUInt8 } b fromTask
      rw [show { s.setTriger b with currentPriority :=
        (s.setTriger b).vector.highestPrio.toUInt8 } =
        State.setTriger { s with currentPriority := s.vector.highestPrio.toUInt8 } b from rfl, h]
      cases kTaskInsertToReadyVector cfg fuel
        { s with currentPriority := s.vector.highestPrio.toUInt8 } fromTask with
      | none => rfl
      | some s₁ => exact congrArg some (hfinish s₁)
  · rw [remove_triger]
    rfl

lemma assignHighest_triger :
    assignHighest cfg fuel (s.setTriger b) = (assignHighest cfg fuel s).map (·.setTriger b) := by
  have hchoose : chooseTaskWithHighestPrio (s.setTriger b) = chooseTaskWithHighestPrio s := rfl
  have hrun : (s.setTriger b).osRunningTask = s.osRunningTask := rfl
  have htask : (s.setTriger b).task = s.task := rfl
  have hvector : (s.setTriger b).vector = s.vector := rfl
  simp only [assignHighest, hchoose, hrun, htask, hvector, switchTask_triger]
  split
  · rfl
  · cases chooseTaskWithHighestPrio s with
    | none => rfl
    | some newTask =>
      cases s.osRunningTask with
      | none => rfl
      | some fromTask =>
        simp only [bind_eq_bind, bind_some]
        split
        · rfl
        · split <;> rfl

lemma settle_triger : settle cfg (s.setTriger b) = (settle cfg s).setTriger b := by
  simp only [settle]
  split
  · rfl
  · rw [apply_ite (State.setTriger · b)]
    rfl

end

def Task.setStat (task : Task) (stat : Stat) : Task := { task with stat }

variable (s : State)

lemma stateSet_task (t : Nat) (stat : Stat) (m : Nat) :
    (s.kTaskStateSet t stat).task m =
      (s.task m).setStat (if m = t then stat else (s.task m).stat) := by
  by_cases h : m = t <;> simp [State.kTaskStateSet, State.modifyTask, Task.setStat, h]

lemma settle_setRunning (cfg : Config) (s : State) (t : Nat) :
    (settle cfg ((kTaskOsAssignRemoveKTask cfg s t).kTaskStateSet t .running)).osRunningTask =
      (settle cfg s).osRunningTask := by
  obtain ⟨vector, hv⟩ := removeKTask_eq cfg s t
  rw [hv]
  exact settle_osRunningTask_congr rfl rfl

def statAfter (s : State) (newTask fromTask m : Nat) : Stat :=
  if m = newTask then .running
  else if m = fromTask ∧ (s.task m).stat = .running then .ready
  else (s.task m).stat

variable {m : Nat} {t : Nat}

namespace Inv
variable {cfg : Config} {s : State} {newTask fromTask : Nat} (hs : Inv cfg s)
include hs

lemma switchTask_effect (hsettle : Kernel.settle cfg s = s)
    (hrun : s.osRunningTask = some fromTask) (hnew : (s.task newTask).stat = .ready)
    {needInsert : Bool} (hfrom : needInsert = decide ((s.task fromTask).stat = .running)) :
    Returns (fun fuel => Kernel.switchTask cfg fuel s newTask fromTask needInsert) fun s' =>
      Inv cfg s' ∧ (Kernel.settle cfg s').osRunningTask = some newTask ∧
        ∀ m, s'.task m = (s.task m).setStat (statAfter s newTask fromTask m) := by
  simp only [Kernel.switchTask]
  split
  · rename_i hne
    have hs₁ : Inv cfg { s with currentPriority := s.vector.highestPrio.toUInt8 } :=
      hs.congr rfl rfl rfl
    cases needInsert with
    | false =>
      have hnot : (s.task fromTask).stat ≠ .running := of_decide_eq_false hfrom.symm
      refine .pure ⟨(setRunning hs₁ hnew).switchContext newTask, settle_switchContext _ _ _,
        fun m => ?_⟩
      rw [switchContext_task, stateSet_task, remove_task, statAfter]
      by_cases hm : m = fromTask
      · simp [hm, hnot]
      · simp [hm]
    | true =>
      have hyes : (s.task fromTask).stat = .running := of_decide_eq_true hfrom.symm
      refine (hs₁.preempt hyes).bind ?_
      rintro _ ⟨hs₂, links, vector, rfl⟩
      refine .pure ⟨(setRunning hs₂ (by simp [stateSet_stat, hne, hnew])).switchContext newTask,
        settle_switchContext _ _ _, fun m => ?_⟩
      rw [switchContext_task, stateSet_task, remove_task]
      simp only [stateSet_task, statAfter]
      by_cases hm : m = fromTask
      · simp [hm, hyes, Task.setStat]
      · simp [hm, Task.setStat]
  · rename_i he
    rw [not_not] at he
    subst he
    refine .pure ⟨hs.setRunning hnew, ?_, fun m => ?_⟩
    · rw [settle_setRunning, hsettle, hrun]
    · rw [stateSet_task, remove_task, statAfter]
      by_cases hm : m = newTask <;> simp [hm]

lemma le_highestPrio (hm : (s.task m).stat = .ready) :
    (s.task m).curPrio.toNat ≤ s.vector.highestPrio := by
  obtain ⟨lists, h⟩ := hs
  have hmem : (s.task m).curPrio.toNat ∈ readyPrios lists :=
    List.ne_nil_of_mem ((h.member _ _).mpr ⟨m, rfl, hm, rfl⟩)
  obtain ⟨hempty, -⟩ | hgreatest := h.marks.highest
  · rw [hempty] at hmem
    exact hmem.elim
  · exact hgreatest.2 hmem

lemma prio_of_choose (h : chooseTaskWithHighestPrio s = some t) :
    (s.task t).curPrio.toNat = s.vector.highestPrio := by
  obtain ⟨lists, hl⟩ := hs
  obtain ⟨m, he, -, hp⟩ := (hl.member _ _).mp (hl.mem_of_choose h)
  cases he
  exact hp

lemma group_ne_zero (hm : (s.task m).stat = .ready) : s.vector.priorityReadyGroup ≠ 0 := by
  obtain ⟨lists, h⟩ := hs
  have hmem : (s.task m).curPrio.toNat ∈ readyPrios lists :=
    List.ne_nil_of_mem ((h.member _ _).mpr ⟨m, rfl, hm, rfl⟩)
  intro h0
  by_cases hmax : 32 < cfg.prioMax
  · have hbit := (h.marks.column hmax ((s.task m).curPrio.toNat / 8)).mpr
      ⟨(s.task m).curPrio.toNat % 8, Nat.mod_lt _ (by decide), by rwa [Nat.div_add_mod]⟩
    simp [h0] at hbit
  · have hbit := (h.marks.single (by omega) _).mpr hmem
    simp [h0] at hbit

end Inv

structure Dispatched (cfg : Config) (s s' : State) (fromTask t : Nat) : Prop where
  inv : Inv cfg s'
  running : s'.osRunningTask = some t
  stat : (s'.task t).stat = .running
  unlisted : ∃ ready, ReadyTable cfg s' ready ∧ ∀ p, t ∉ ready p
  highest : ∀ m, (s'.task m).stat = .ready → (s'.task m).curPrio ≤ (s'.task t).curPrio
  source : (s.task t).stat = .ready ∨ (t = fromTask ∧ (s.task t).stat = .running)
  kept : ∀ m, s'.task m = (s.task m).setStat (statAfter s t fromTask m)

namespace Inv
variable {cfg : Config} {s : State} {fromTask : Nat}

lemma dispatched_of_task {s' : State} (hs : Inv cfg s') (hrun : s'.osRunningTask = some t)
    (hsource : (s.task t).stat = .ready ∨ (t = fromTask ∧ (s.task t).stat = .running))
    (hprio : ∀ m, (s.task m).stat = .ready ∨ (m = fromTask ∧ (s.task m).stat = .running) →
      (s.task m).curPrio.toNat ≤ (s.task t).curPrio.toNat)
    (hkept : ∀ m, s'.task m = (s.task m).setStat (statAfter s t fromTask m)) :
    Dispatched cfg s s' fromTask t := by
  have hstat : (s'.task t).stat = .running := by rw [hkept, statAfter, if_pos rfl, Task.setStat]
  obtain ⟨ready, hready⟩ := hs.readyTable
  refine ⟨hs, hrun, hstat, ⟨ready, hready, fun p hp => ?_⟩, fun m hm => ?_, hsource, hkept⟩
  · rw [hready.member, hstat] at hp
    cases hp.1
  · rw [hkept] at hm ⊢
    rw [hkept t]
    refine hprio m ?_
    simp only [Task.setStat, statAfter] at hm
    split at hm
    · cases hm
    · split at hm
      · exact .inr ‹_›
      · exact .inl hm

lemma assignHighest_dispatched (hs : Inv cfg s) (hsettle : Kernel.settle cfg s = s)
    (hrun : s.osRunningTask = some fromTask) (hm : (s.task m).stat = .ready) :
    Returns (fun fuel => Kernel.assignHighest cfg fuel s) fun s' =>
      ∃ t, Dispatched cfg s (Kernel.settle cfg s') fromTask t := by
  have hg := hs.group_ne_zero hm
  obtain ⟨newTask, hnew⟩ := hs.choose_isSome hg
  have hready := hs.stat_of_choose hnew
  have hhigh := hs.prio_of_choose hnew
  have hle := fun m => hs.le_highestPrio (m := m)
  simp only [Kernel.assignHighest, hg, if_false, hnew, hrun, bind_eq_bind, bind_some]
  split
  · rename_i hstat
    refine (hs.switchTask_effect hsettle hrun hready (by simp [hstat])).mono fun s' h => ?_
    refine ⟨newTask, dispatched_of_task h.1.settle h.2.1 (.inl hready) (fun k hk => ?_)
      (by simpa using h.2.2)⟩
    obtain hk | ⟨rfl, hk⟩ := hk
    · exact hhigh ▸ hle k hk
    · exact absurd hk hstat
  · rename_i hstat
    rw [not_not] at hstat
    split
    · rename_i hlt
      refine .pure ⟨fromTask, ?_⟩
      rw [hsettle]
      refine dispatched_of_task hs hrun (.inr ⟨rfl, hstat⟩) (fun k hk => ?_) fun k => ?_
      · obtain hk | ⟨rfl, -⟩ := hk
        · exact (hle k hk).trans hlt.le
        · exact le_rfl
      · by_cases hk : k = fromTask
        · simp [statAfter, Task.setStat, hk, ← hstat]
        · simp [statAfter, Task.setStat, hk]
    · rename_i hge
      refine (hs.switchTask_effect hsettle hrun hready (by simp [hstat])).mono fun s' h => ?_
      refine ⟨newTask, dispatched_of_task h.1.settle h.2.1 (.inl hready) (fun k hk => ?_)
        (by simpa using h.2.2)⟩
      obtain hk | ⟨rfl, -⟩ := hk
      · exact hhigh ▸ hle k hk
      · exact hhigh ▸ not_lt.mp hge

end Inv

theorem osAssign_eq_doIrqSwitch {cfg : Config} {s : State} {fromTask m : Nat} (hs : Inv cfg s)
    (hsettle : settle cfg s = s) (hrun : s.osRunningTask = some fromTask)
    (hm : (s.task m).stat = .ready) :
    ∃ s' t, Dispatched cfg s s' fromTask t ∧ ∃ n, ∀ fuel ≥ n,
      (kTaskOsAssign cfg fuel 0 false s).map (settle cfg) = some s' ∧
      (kTaskOsAssignDoIrqSwitch cfg fuel 0 { s with switchTriger := true }).map (settle cfg) =
        some { s' with switchTriger := false } := by
  obtain ⟨s', ⟨t, ht⟩, n, hn⟩ := (hs.assignHighest_dispatched hsettle hrun hm).eventually
  refine ⟨settle cfg s', t, ht, n, fun fuel hfuel => ⟨?_, ?_⟩⟩
  · simp [kTaskOsAssign, hn fuel hfuel]
  · have htriger := assignHighest_triger cfg fuel s false
    rw [hn fuel hfuel] at htriger
    have hirq : kTaskOsAssignDoIrqSwitch cfg fuel 0 { s with switchTriger := true } =
        assignHighest cfg fuel (s.setTriger false) := by
      simp [kTaskOsAssignDoIrqSwitch, State.setTriger]
    rw [hirq, htriger, map_some, map_some, settle_triger]
    rfl

theorem osAssign_eq_doIrqSwitch_sample :
    ∃ s s' t, run sampleConfig 10 (osAssignReadyVectorInit sampleConfig sampleState)
        [.startup 9, .startupAssign, .startup 12] = some s ∧
      s.osRunningTask = some 9 ∧ (s.task 12).stat = .ready ∧ Dispatched sampleConfig s s' 9 t := by
  have hrun : ((run sampleConfig 10 (osAssignReadyVectorInit sampleConfig sampleState)
      [.startup 9, .startupAssign, .startup 12]).map fun s =>
        (s.osRunningTask, (s.task 12).stat)) = some (some 9, .ready) := by
    decide +kernel
  obtain ⟨s, hs, he⟩ := map_eq_some_iff.mp hrun
  obtain ⟨hfrom, hready⟩ := Prod.mk.inj he
  obtain ⟨s', t, ht, -⟩ := osAssign_eq_doIrqSwitch ((inv_init sampleState_initial).run hs) rfl
    hfrom hready
  exact ⟨s, s', t, hs, hfrom, hready, ht⟩

structure YieldsByPrio (s s' : State) (fromTask : Nat) : Prop where
  highest : ∃ t, s'.osRunningTask = some t ∧
    ∀ m, (s'.task m).stat = .ready → (s'.task m).curPrio ≤ (s'.task t).curPrio
  keeps : (s.task fromTask).stat = .running →
    (∀ m, (s.task m).stat = .ready → (s.task m).curPrio < (s.task fromTask).curPrio) →
    s'.osRunningTask = some fromTask

namespace Inv
variable {cfg : Config} {s : State} {newTask fromTask : Nat}

lemma settle_yieldTo (hrun : (Kernel.settle cfg s).osRunningTask = some fromTask)
    (newTask highestPrio : Nat) :
    (Kernel.settle cfg (Kernel.yieldTo cfg s newTask fromTask highestPrio)).osRunningTask =
      some newTask := by
  rw [Kernel.yieldTo]
  split
  · exact settle_switchContext _ _ _
  · rename_i he
    rw [settle_setRunning, hrun, not_not.mp he]

lemma yieldTo_task (s : State) (newTask fromTask highestPrio m : Nat) :
    (Kernel.yieldTo cfg s newTask fromTask highestPrio).task m =
      (s.task m).setStat (if m = newTask then .running else (s.task m).stat) := by
  rw [Kernel.yieldTo]
  split
  · rw [switchContext_task, stateSet_task, remove_task]
  · rename_i he
    rw [stateSet_task, remove_task, not_not.mp he]

lemma yield_effect (hs : Inv cfg s) (hsettle : Kernel.settle cfg s = s)
    (hrun : s.osRunningTask = some fromTask) (hm : (s.task m).stat = .ready) :
    Returns (fun fuel => yieldOsAssign cfg fuel 0 false s) fun r =>
      ∃ newTask, chooseTaskWithHighestPrio s = some newTask ∧
        (Kernel.settle cfg r.1).osRunningTask = some newTask ∧
        ∀ m, r.1.task m = (s.task m).setStat (statAfter s newTask fromTask m) := by
  have hg := hs.group_ne_zero hm
  obtain ⟨newTask, hnew⟩ := hs.choose_isSome hg
  have hready := hs.stat_of_choose hnew
  have hlevel : ¬ 0 ≥ 1 := by decide
  simp only [yieldOsAssign, hlevel, Bool.false_eq_true, hg, if_false, hnew, hrun,
    bind_eq_bind, bind_some]
  split
  · rename_i hstat
    refine .pure ⟨newTask, rfl, settle_yieldTo (by rw [hsettle, hrun]) _ _, fun m => ?_⟩
    rw [yieldTo_task, statAfter]
    by_cases hm : m = fromTask
    · simp [hm, hstat]
    · simp [hm]
  · rename_i hstat
    rw [not_not] at hstat
    refine (hs.preempt hstat).bind ?_
    rintro _ ⟨-, links, vector, rfl⟩
    refine .pure ⟨newTask, rfl, settle_yieldTo ?_ _ _, fun m => ?_⟩
    · have hsame : (Kernel.settle cfg s).osRunningTask = some fromTask := by rw [hsettle, hrun]
      rw [← hsame]
      exact settle_osRunningTask_congr rfl rfl
    · rw [yieldTo_task, statAfter]
      simp only [stateSet_task]
      by_cases hm : m = fromTask
      · simp [hm, hstat, Task.setStat]
      · simp [hm, Task.setStat]

end Inv

def YieldsUp (s : State) (fromTask : Nat) : Prop :=
  (s.task fromTask).stat = .running → (∃ m, (s.task m).stat = .ready) →
    ∃ m, (s.task m).stat = .ready ∧ (s.task fromTask).curPrio ≤ (s.task m).curPrio

theorem yieldOsAssign_byPrio_iff {cfg : Config} {s : State} {fromTask : Nat} (hs : Inv cfg s)
    (hsettle : settle cfg s = s) (hrun : s.osRunningTask = some fromTask) :
    ∃ s', (∃ n, ∀ fuel ≥ n,
        (yieldOsAssign cfg fuel 0 false s).map (fun r => settle cfg r.1) = some s') ∧
      (YieldsByPrio s s' fromTask ↔ YieldsUp s fromTask) := by
  by_cases hready : ∃ m, (s.task m).stat = .ready
  · obtain ⟨m, hm⟩ := hready
    obtain ⟨r, ⟨newTask, hnew, hr, htask⟩, n, hn⟩ := (hs.yield_effect hsettle hrun hm).eventually
    refine ⟨settle cfg r.1, ⟨n, fun fuel hfuel => by rw [hn fuel hfuel, map_some]⟩, ?_⟩
    have hstat := hs.stat_of_choose hnew
    have hbest : ∀ k, (s.task k).stat = .ready → (s.task k).curPrio ≤ (s.task newTask).curPrio :=
      fun k hk => (hs.le_highestPrio hk).trans_eq (hs.prio_of_choose hnew).symm
    have hafter : ∀ k, ((settle cfg r.1).task k).stat = statAfter s newTask fromTask k ∧
        ((settle cfg r.1).task k).curPrio = (s.task k).curPrio := by
      intro k
      rw [settle_task, htask]
      exact ⟨rfl, rfl⟩
    constructor
    · intro h hfrom _
      obtain ⟨t, ht, hhigh⟩ := h.highest
      cases hr.symm.trans ht
      have hne : fromTask ≠ newTask := by
        rintro rfl
        simp [hstat] at hfrom
      have hle := hhigh fromTask (by rw [(hafter _).1, statAfter, if_neg hne, if_pos ⟨rfl, hfrom⟩])
      rw [(hafter _).2, (hafter _).2] at hle
      exact ⟨newTask, hstat, hle⟩
    · intro h
      refine ⟨⟨newTask, hr, fun k hk => ?_⟩, fun hfrom hbelow => ?_⟩
      · rw [(hafter _).1, statAfter] at hk
        rw [(hafter _).2, (hafter _).2]
        split at hk
        · cases hk
        · split at hk
          · rename_i hfrom
            obtain ⟨rfl, hfrom⟩ := hfrom
            obtain ⟨l, hl, hle⟩ := h hfrom ⟨m, hm⟩
            exact UInt8.le_trans hle (hbest l hl)
          · exact hbest k hk
      · obtain ⟨l, hl, hle⟩ := h hfrom ⟨m, hm⟩
        exact absurd (hbelow l hl) (UInt8.not_lt.mpr hle)
  · have hempty : s.vector.priorityReadyGroup = 0 := by
      by_contra hg
      obtain ⟨t, ht⟩ := hs.choose_isSome hg
      exact hready ⟨t, hs.stat_of_choose ht⟩
    refine ⟨s, ⟨0, fun fuel _ => ?_⟩, ?_⟩
    · simp [yieldOsAssign, hempty, hsettle]
    · refine iff_of_true ⟨⟨fromTask, hrun, fun m hm => absurd ⟨m, hm⟩ hready⟩, fun _ _ => hrun⟩ ?_
      exact fun _ hex => absurd hex hready

theorem yieldOsAssign_byPrio_iff_sample :
    ∃ s s', run sampleConfig 10 (osAssignReadyVectorInit sampleConfig sampleState)
        [.startup 9, .startupAssign, .startup 12] = some s ∧
      (∃ n, ∀ fuel ≥ n, (yieldOsAssign sampleConfig fuel 0 false s).map
        (fun r => settle sampleConfig r.1) = some s') ∧ YieldsByPrio s s' 9 := by
  have hrun : ((run sampleConfig 10 (osAssignReadyVectorInit sampleConfig sampleState)
      [.startup 9, .startupAssign, .startup 12]).map fun s =>
        (s.osRunningTask, (s.task 12).stat, (s.task 9).curPrio, (s.task 12).curPrio)) =
      some (some 9, .ready, 9, 12) := by
    decide +kernel
  obtain ⟨s, hs, he⟩ := map_eq_some_iff.mp hrun
  simp only [Prod.mk.injEq] at he
  obtain ⟨hfrom, hready, hnine, htwelve⟩ := he
  obtain ⟨s', hret, hiff⟩ := yieldOsAssign_byPrio_iff ((inv_init sampleState_initial).run hs) rfl
    hfrom
  refine ⟨s, s', hs, hret, hiff.mpr fun _ _ => ⟨12, hready, ?_⟩⟩
  rw [hnine, htwelve]
  decide

theorem yieldOsAssign_to_lower :
    ∃ s s', run sampleConfig 10 (osAssignReadyVectorInit sampleConfig sampleState)
        [.startup 9, .startupAssign, .startup 3] = some s ∧
      (yieldOsAssign sampleConfig 10 0 false s).map (fun r => settle sampleConfig r.1) = some s' ∧
      s.osRunningTask = some 9 ∧ s'.osRunningTask = some 3 ∧ (s'.task 9).stat = .ready ∧
      ¬ YieldsByPrio s s' 9 := by
  have hrun : (do
      let s ← run sampleConfig 10 (osAssignReadyVectorInit sampleConfig sampleState)
        [.startup 9, .startupAssign, .startup 3]
      let r ← yieldOsAssign sampleConfig 10 0 false s
      some (s.osRunningTask, (settle sampleConfig r.1).osRunningTask,
        ((settle sampleConfig r.1).task 9).stat, ((settle sampleConfig r.1).task 9).curPrio,
        ((settle sampleConfig r.1).task 3).curPrio)) = some (some 9, some 3, .ready, 9, 3) := by
    decide +kernel
  obtain ⟨s, hs, hyield⟩ := bind_eq_some_iff.mp hrun
  obtain ⟨r, hr, he⟩ := bind_eq_some_iff.mp hyield
  simp only [Option.some.injEq, Prod.mk.injEq] at he
  obtain ⟨hnine, hthree, hstat, hprio, hprio'⟩ := he
  refine ⟨s, settle sampleConfig r.1, hs, by rw [hr, map_some], hnine, hthree, hstat,
    fun h => ?_⟩
  obtain ⟨t, ht, hhigh⟩ := h.highest
  cases hthree.symm.trans ht
  have hle := hhigh 9 hstat
  rw [hprio, hprio'] at hle
  exact absurd hle (by decide)

end Xiuos.Kernel
