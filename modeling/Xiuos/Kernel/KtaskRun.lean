import Xiuos.Kernel.KtaskInv

namespace Xiuos.Kernel
open Lib Function Option

inductive Op
  | startup (t : Nat)
  | suspend (t : Nat)
  | wakeup (t : Nat)
  | timeout (t : Nat)
  | delete (t : Nat)
  | quit
  | delay (now ticks : UInt32) (alloc : Bool)
  | pend (list : Nat) (flag : LinklistFlag)
  | timeslice
  | startupAssign
  | assign (lockLevel : Nat) (inIsr : Bool)
  | irqSwitch (lockLevel : Nat)
  | yield (lockLevel : Nat) (inIsr : Bool)
  | updateRunning
  deriving DecidableEq

def Op.enabled (s : State) : Op → Bool
  | .pend _ _ => s.osRunningTask.any fun t => (s.task t).stat = .ready ∨ (s.task t).stat = .running
  | .startupAssign => s.vector.priorityReadyGroup ≠ 0
  | .assign _ _ | .irqSwitch _ | .yield _ _ => s.osRunningTask ≠ none
  | _ => true

def execCall (cfg : Config) (fuel : Nat) (s : State) : Op → Option State
  | .startup t => (startupKTask cfg fuel s t).map (·.1)
  | .suspend t => some (suspendKTask cfg s t).1
  | .wakeup t => (kTaskWakeup cfg fuel s t).map (·.1)
  | .timeout t => kTaskTimeout cfg fuel s t
  | .delete t => (deleteKTask cfg fuel s t).map (·.1)
  | .quit => kTaskQuit cfg fuel s
  | .delay now ticks alloc => (delayKTask cfg fuel s now ticks alloc).map (·.1)
  | .pend list flag => do
    let t ← s.osRunningTask
    (linklistSuspend cfg fuel s list t flag).map (·.1)
  | .timeslice => some (timesliceUpdate cfg s)
  | .startupAssign => startupOsAssign cfg s
  | .assign lockLevel inIsr => kTaskOsAssign cfg fuel lockLevel inIsr s
  | .irqSwitch lockLevel => kTaskOsAssignDoIrqSwitch cfg fuel lockLevel s
  | .yield lockLevel inIsr => (yieldOsAssign cfg fuel lockLevel inIsr s).map (·.1)
  | .updateRunning => some (updateRunningTask s)

def exec (cfg : Config) (fuel : Nat) (s : State) (op : Op) : Option State :=
  if op.enabled s then execCall cfg fuel s op else none

def run (cfg : Config) (fuel : Nat) : State → List Op → Option State
  | s, [] => some s
  | s, op :: ops => do
    let s ← exec cfg fuel s op
    run cfg fuel s ops

namespace Inv
variable {cfg : Config} {s s' : State} (hs : Inv cfg s)
include hs

lemma execCall {op : Op} (h : op.enabled s) :
    Returns (fun fuel => Kernel.execCall cfg fuel s op) (Inv cfg) := by
  cases op with
  | startup t => exact (hs.startupTask t).map fun _ hr => hr
  | suspend t => exact .pure (hs.suspend t)
  | wakeup t => exact (hs.wakeup t).map fun _ hr => hr
  | timeout t => exact hs.timeout t
  | delete t => exact (hs.deleteTask t).map fun _ hr => hr
  | quit => exact hs.quit
  | delay now ticks alloc => exact (hs.delay now ticks alloc).map fun _ hr => hr
  | pend list flag =>
    obtain ⟨t, ht, hstat⟩ := (any_eq_true _ _).mp h
    simp only [Kernel.execCall, ht, bind_eq_bind, bind_some]
    exact (hs.pend ht (of_decide_eq_true hstat) list flag).map fun _ hr => hr
  | timeslice => exact .pure hs.timeslice
  | startupAssign =>
    obtain ⟨s', hs', hinv⟩ := hs.startup (of_decide_eq_true h)
    simp only [Kernel.execCall, hs']
    exact .pure hinv
  | assign lockLevel inIsr => exact hs.osAssign (of_decide_eq_true h) lockLevel inIsr
  | irqSwitch lockLevel => exact hs.doIrqSwitch (of_decide_eq_true h) lockLevel
  | yield lockLevel inIsr =>
    exact (hs.yield (of_decide_eq_true h) lockLevel inIsr).map fun _ hr => hr
  | updateRunning => exact .pure (hs.congr rfl rfl rfl)

lemma exec {op : Op} (h : op.enabled s) :
    Returns (fun fuel => Kernel.exec cfg fuel s op) (Inv cfg) := by
  simp only [Kernel.exec, h, if_true]
  exact hs.execCall h

lemma run {fuel : Nat} {ops : List Op} (h : Kernel.run cfg fuel s ops = some s') :
    Inv cfg s' := by
  induction ops generalizing s with
  | nil =>
    cases h
    exact hs
  | cons op ops ih =>
    obtain ⟨s₁, h1, h⟩ := bind_eq_some_iff.mp h
    refine ih ?_ h
    by_cases hop : op.enabled s
    · exact (hs.exec hop).post h1
    · simp [Kernel.exec, hop] at h1

end Inv

structure Initial (cfg : Config) (s : State) : Prop where
  links : ∀ a, (∀ p < cfg.prioMax, a ≠ .inl (.ready p)) → s.links.next a = a ∧ s.links.prev a = a
  prio : ∀ t, (s.task t).originPrio.toNat < cfg.prioMax ∧
    (s.task t).curPrio = (s.task t).originPrio
  site : ∀ t, (s.task t).site.row = 0 ∧ (s.task t).site.column = 0
  stat : ∀ t, (s.task t).stat = .init
  delay : ∀ t, (s.task t).delay = none

lemma init_next {cfg : Config} {s : State} (hs : Initial cfg s) (a : Head ⊕ Node) :
    (osAssignReadyVectorInit cfg s).links.next a = a ∧
      (osAssignReadyVectorInit cfg s).links.prev a = a := by
  have hmap : (osAssignReadyVectorInit cfg s).links =
      ((List.range cfg.prioMax).map (.inl ∘ .ready)).foldl Links.init s.links := by
    rw [List.foldl_map]
    rfl
  rw [hmap]
  apply Links.foldl_init
  by_cases ha : ∃ p < cfg.prioMax, a = .inl (.ready p)
  · obtain ⟨p, hp, rfl⟩ := ha
    exact .inl (by simpa using hp)
  · exact .inr (hs.links a fun p hp he => ha ⟨p, hp, he⟩)

lemma inv_init {cfg : Config} {s : State} (hs : Initial cfg s) :
    Inv cfg (osAssignReadyVectorInit cfg s) := by
  refine ⟨fun _ => [], ⟨fun h => init_next hs _, by simp, by simp, fun n _ => init_next hs _⟩,
    fun p n => ?_, fun t => ?_, fun t => .inr ⟨(hs.site t).1, (hs.site t).2, .inl (hs.stat t)⟩,
    by simp, by simp, ?_⟩
  · simp [osAssignReadyVectorInit, hs.stat]
  · exact ⟨(hs.prio t).1, (hs.prio t).2 ▸ (hs.prio t).1⟩
  · have hset : readyPrios (fun _ => []) = ∅ := by
      ext p
      simp [mem_readyPrios]
    rw [hset]
    exact marks_zero cfg.prioMax

structure ReadyTable (cfg : Config) (s : State) (ready : Nat → List Nat) : Prop where
  linked : ∀ p, s.links.Seg (.inl (.ready p)) ((ready p).map (.inr ∘ .sched)) (.inl (.ready p))
  once : ∀ p, (ready p).Nodup
  member : ∀ t p, t ∈ ready p ↔ (s.task t).stat = .ready ∧ (s.task t).curPrio.toNat = p
  single : cfg.prioMax ≤ 32 → ∀ p, s.vector.priorityReadyGroup.toNat.testBit p ↔ ready p ≠ []
  row : 32 < cfg.prioMax → ∀ (i : Fin 32), ∀ j < 8,
    (s.vector.readyVector i).toNat.testBit j ↔ ready (8 * i + j) ≠ []
  column : 32 < cfg.prioMax → ∀ i,
    s.vector.priorityReadyGroup.toNat.testBit i ↔ ∃ j < 8, ready (8 * i + j) ≠ []
  highest : ((∀ p, ready p = []) ∧ s.vector.highestPrio = 0) ∨
    IsGreatest {p | ready p ≠ []} s.vector.highestPrio

lemma Inv.readyTable {cfg : Config} {s : State} (hs : Inv cfg s) :
    ∃ ready, ReadyTable cfg s ready := by
  obtain ⟨lists, h⟩ := hs
  have hsched : ∀ p, ∃ ts : List Nat, ts.map .sched = lists (.ready p) := by
    intro p
    have hmem : lists (.ready p) ∈ Set.range (List.map Node.sched) := by
      rw [Set.range_list_map]
      intro n hn
      obtain ⟨t, rfl, -⟩ := (h.member p n).mp hn
      exact ⟨t, rfl⟩
    exact hmem
  choose ready hready using hsched
  have hne : ∀ p, ready p ≠ [] ↔ p ∈ readyPrios lists := by
    intro p
    rw [mem_readyPrios, ← hready, ne_eq, ne_eq, List.map_eq_nil_iff]
  refine ⟨ready, fun p => ?_, fun p => ?_, fun t p => ?_, ?_, ?_, ?_, ?_⟩
  · rw [← List.map_map, hready]
    exact h.rings.seg _
  · have hnodup := h.rings.nodup (.ready p)
    rw [← hready] at hnodup
    exact hnodup.of_map _
  · rw [← List.mem_map_of_injective (f := Node.sched) fun a b hab => by cases hab; rfl, hready,
      h.member]
    simp
  · simp only [hne]
    exact h.marks.single
  · simp only [hne]
    exact h.marks.row
  · simp only [hne]
    exact h.marks.column
  · simp only [hne]
    refine h.marks.highest.imp_left fun ⟨hempty, h0⟩ => ⟨fun p => ?_, h0⟩
    by_contra hp
    rw [← ne_eq, hne, hempty] at hp
    exact hp

theorem run_readyTable {cfg : Config} {s s' : State} (hs : Initial cfg s) {fuel : Nat}
    {ops : List Op} (h : run cfg fuel (osAssignReadyVectorInit cfg s) ops = some s') :
    (∃ ready, ReadyTable cfg s' ready) ∧
      ∀ op : Op, op.enabled s' → ∃ s'' n, ∀ fuel ≥ n, exec cfg fuel s' op = some s'' := by
  have hinv := (inv_init hs).run h
  refine ⟨hinv.readyTable, fun op hop => ?_⟩
  obtain ⟨s'', -, n, hn⟩ := (hinv.exec hop).eventually
  exact ⟨s'', n, hn⟩

def sampleState : State where
  links := { next := id, prev := id }
  task t := {
    name := "task"
    originPrio := (t % 16).toUInt8
    stat := .init
    advanceCnt := 0
    curPrio := (t % 16).toUInt8
    originTimeslice := 10
    restTimeslice := 10
    site := .zero
    exstatus := eok
    delay := none }
  vector := .zero
  osRunningTask := none
  interruptTo := none
  currentPriority := 0
  switchTriger := false

def sampleConfig : Config where
  prioMax := 256
  policy := .roundRobinRemain
  arch := .riscv
  zombieRecycle := 0

lemma sampleState_initial : Initial sampleConfig sampleState where
  links _ _ := ⟨rfl, rfl⟩
  prio t := by
    refine ⟨?_, rfl⟩
    exact UInt8.toNat_lt _
  site _ := ⟨rfl, rfl⟩
  stat _ := rfl
  delay _ := rfl

theorem run_readyTable_sample :
    ∃ s, run sampleConfig 10 (osAssignReadyVectorInit sampleConfig sampleState)
        [.startup 9, .startup 3, .startupAssign, .delay 5 7 true, .assign 0 false, .timeout 9,
          .assign 0 false, .quit] = some s ∧
      s.vector.highestPrio = 3 ∧ ∃ ready, ReadyTable sampleConfig s ready := by
  have hrun : ((run sampleConfig 10 (osAssignReadyVectorInit sampleConfig sampleState)
      [.startup 9, .startup 3, .startupAssign, .delay 5 7 true, .assign 0 false, .timeout 9,
        .assign 0 false, .quit]).map (·.vector.highestPrio)) = some 3 := by
    decide +kernel
  obtain ⟨s, hs, hprio⟩ := map_eq_some_iff.mp hrun
  exact ⟨s, hs, hprio, (run_readyTable sampleState_initial hs).1⟩

end Xiuos.Kernel
