import Xiuos.Kernel.KtaskSwitch

/-! `waitqueue.c`, and the callback that `poll.c` puts into the nodes of a wait queue. -/

namespace Xiuos.Kernel
open Lib Function List Nat Option
variable {cfg : Config}

/-- `cb` is not there, or it is `WqueuePollWake` for the table of a poll. -/
structure WaitqueueNode where
  pollingTask : Nat
  cb : Option Nat
  key : UInt32
  deriving DecidableEq

structure Waitqueues where
  links : Links (Nat ⊕ Nat)
  node : Nat → WaitqueueNode
  triggered : Nat → Bool

variable (q : Waitqueues)

namespace Waitqueues

def wqueueAdd (q : Waitqueues) (queue n : Nat) : Waitqueues :=
  { q with links := q.links.insertBefore (.inl queue) (.inr n) }

end Waitqueues

def wqueuePollWake (q : Waitqueues) (wait pt key : Nat) : Waitqueues × Int :=
  if key ≠ 0 ∧ key &&& (q.node wait).key.toNat = 0 then (q, -1)
  else ({ q with triggered := update q.triggered pt true }, 0)

def wqueueCallback (q : Waitqueues) (n key : Nat) : Waitqueues × Int :=
  match (q.node n).cb with
  | none => (q, 0)
  | some pt => wqueuePollWake q n pt key

def wakeupRound (cfg : Config) (fuel key : Nat) (s : State) (q : Waitqueues) (n : Nat) :
    Option (State × Waitqueues) :=
  let (q, ret) := wqueueCallback q n key
  if ret ≠ 0 then some (s, q)
  else do
    let (s, _) ← kTaskWakeup cfg fuel s (q.node n).pollingTask
    some (s, q)

def wakeupLoop (cfg : Config) (fuel queue key : Nat) :
    Nat → Nat ⊕ Nat → State → Waitqueues → Option (State × Waitqueues × (Nat ⊕ Nat))
  | 0, _, _, _ => none
  | rounds + 1, node, s, q =>
    if node = .inl queue then some (s, q, node)
    else match node with
      | .inr n => do
        let (s, q) ← wakeupRound cfg fuel key s q n
        wakeupLoop cfg fuel queue key rounds (q.links.next node) s q
      | .inl _ => none

def wakeupWqueue (cfg : Config) (fuel lockLevel : Nat) (inIsr : Bool) (queue key : Nat) (s : State)
    (q : Waitqueues) : Option (State × Waitqueues) := do
  let (s, q, node) ← wakeupLoop cfg fuel queue key fuel (q.links.next (.inl queue)) s q
  if node = .inl queue then some (s, q)
  else do
    let s ← kTaskOsAssign cfg fuel lockLevel inIsr s
    some (s, q)

def wakes (node : Nat → WaitqueueNode) (key n : Nat) : Bool :=
  (node n).cb.isNone || key = 0 || key &&& (node n).key.toNat ≠ 0

lemma wqueueCallback_eq (n key : Nat) :
    ∃ triggered ret, wqueueCallback q n key = ({ q with triggered }, ret) ∧
      (ret = 0 ↔ wakes q.node key n) := by
  simp only [wqueueCallback, wakes]
  cases (q.node n).cb with
  | none => exact ⟨q.triggered, 0, rfl, by simp⟩
  | some pt =>
    simp only [wqueuePollWake]
    split
    · rename_i h
      exact ⟨q.triggered, -1, rfl, by simp [h]⟩
    · rename_i h
      refine ⟨update q.triggered pt true, 0, rfl, ?_⟩
      simpa [imp_iff_not_or] using h

structure Wakes (cfg : Config) (ts : List Nat) (s s' : State) : Prop where
  inv : Inv cfg s'
  current : s'.osRunningTask = s.osRunningTask
  pending : s'.interruptTo = s.interruptTo
  prio : ∀ m, (s'.task m).curPrio = (s.task m).curPrio
  stat : ∀ m, (s'.task m).stat =
    if (s.task m).stat = .suspend ∧ m ∈ ts then .ready else (s.task m).stat

namespace Wakes
variable {s s₁ s₂ : State} {ts ts' : List Nat}

lemma nil (hs : Inv cfg s) : Wakes cfg [] s s := ⟨hs, rfl, rfl, fun _ => rfl, by simp⟩

lemma trans (h : Wakes cfg ts s s₁) (h' : Wakes cfg ts' s₁ s₂) : Wakes cfg (ts ++ ts') s s₂ := by
  refine ⟨h'.inv, h'.current.trans h.current, h'.pending.trans h.pending,
    fun m => (h'.prio m).trans (h.prio m), fun m => ?_⟩
  rw [h'.stat, h.stat]
  by_cases hm : m ∈ ts
  · by_cases hstat : (s.task m).stat = .suspend <;> simp [hm, hstat]
  · simp [hm]

end Wakes

lemma unSetDelay_interruptTo (s : State) (t : Nat) :
    (kTaskUnSetDelay s t).interruptTo = s.interruptTo := by
  rw [kTaskUnSetDelay]
  split <;> rfl

namespace Inv
variable {s : State}

lemma kTaskWakeup_wakes (hs : Inv cfg s) (t : Nat) :
    Returns (fun fuel => kTaskWakeup cfg fuel s t) fun r => Wakes cfg [t] s r.1 := by
  simp only [kTaskWakeup]
  split
  · rename_i hstat
    refine .pure ⟨hs, rfl, rfl, fun _ => rfl, fun m => ?_⟩
    by_cases hm : m = t
    · simp [hm, hstat]
    · simp [hm]
  · rename_i hstat
    rw [not_not] at hstat
    obtain ⟨lists, h, hfree⟩ := (Free.unlink hs (t := t) (by simp [hstat])).unSetDelay t
    refine (h.insert hfree (.inl ⟨by simp [hstat], by simp [hstat]⟩)).bind ?_
    rintro _ ⟨hinv, links, vector, rfl⟩
    refine .pure ⟨hinv, ?_, ?_, fun m => ?_, fun m => ?_⟩
    · exact unSetDelay_osRunningTask _ t
    · exact unSetDelay_interruptTo _ t
    · simp
    · by_cases hm : m = t
      · simp [stateSet_stat, hm, hstat]
      · simp [stateSet_stat, hm]

end Inv

section
variable {s : State} {q : Waitqueues}

def wokenTasks (node : Nat → WaitqueueNode) (key : Nat) (ns : List Nat) : List Nat :=
  (ns.filter (wakes node key)).map fun n => (node n).pollingTask

lemma wakeupRound_returns (hs : Inv cfg s) (key n : Nat) :
    Returns (fun fuel => wakeupRound cfg fuel key s q n) fun r =>
      Wakes cfg (wokenTasks q.node key [n]) s r.1 ∧ ∃ triggered, r.2 = { q with triggered } := by
  obtain ⟨triggered, ret, hcall, hret⟩ := wqueueCallback_eq q n key
  simp only [wakeupRound, hcall]
  by_cases hzero : ret = 0
  · have hw : wokenTasks q.node key [n] = [(q.node n).pollingTask] := by
      simp [wokenTasks, hret.mp hzero]
    simp only [hzero, ne_eq, not_true_eq_false, if_false, hw]
    exact (hs.kTaskWakeup_wakes _).bind fun r hr => .pure ⟨hr, triggered, rfl⟩
  · have hw : wokenTasks q.node key [n] = [] := by simp [wokenTasks, mt hret.mpr hzero]
    simp only [hzero, ne_eq, not_false_eq_true, if_true, hw]
    exact .pure ⟨.nil hs, triggered, rfl⟩

lemma wakeupLoop_end (fuel d queue key : Nat) :
    wakeupLoop cfg fuel queue key (fuel - d) (.inl queue) s q =
      if fuel ≤ d then none else some (s, q, .inl queue) := by
  split
  · rw [Nat.sub_eq_zero_of_le ‹_›, wakeupLoop]
  · obtain ⟨k, hk⟩ := exists_eq_succ_of_ne_zero (sub_ne_zero_of_lt (Nat.lt_of_not_le ‹_›))
    rw [hk, wakeupLoop, if_pos rfl]

lemma wakeupLoop_node (fuel d queue key n : Nat) :
    wakeupLoop cfg fuel queue key (fuel - d) (.inr n) s q =
      if fuel ≤ d then none
      else wakeupRound cfg fuel key s q n >>= fun r =>
        wakeupLoop cfg fuel queue key (fuel - (d + 1)) (r.2.links.next (.inr n)) r.1 r.2 := by
  split
  · rw [Nat.sub_eq_zero_of_le ‹_›, wakeupLoop]
  · obtain ⟨k, hk⟩ := exists_eq_succ_of_ne_zero (sub_ne_zero_of_lt (Nat.lt_of_not_le ‹_›))
    have hk' : fuel - (d + 1) = k := by omega
    rw [hk, wakeupLoop, if_neg (by simp), hk']

lemma wakeupLoop_returns (hs : Inv cfg s) (queue key : Nat) {a : Nat ⊕ Nat} {ns : List Nat}
    (hseg : q.links.Seg a (ns.map .inr) (.inl queue)) (d : Nat) :
    Returns (fun fuel => wakeupLoop cfg fuel queue key (fuel - d) (q.links.next a) s q) fun r =>
      Wakes cfg (wokenTasks q.node key ns) s r.1 ∧ r.2.2 = .inl queue := by
  induction ns generalizing s q a d with
  | nil =>
    rw [hseg.next_eq, map_nil, Links.entry]
    simp only [wakeupLoop_end]
    refine Returns.guard ?_ d
    exact .pure ⟨.nil hs, rfl⟩
  | cons n ns ih =>
    rw [map_cons] at hseg
    rw [hseg.next_eq, Links.entry]
    simp only [wakeupLoop_node]
    refine ((wakeupRound_returns hs key n).bind ?_).guard d
    rintro ⟨s₁, _⟩ ⟨hw, triggered, rfl⟩
    refine (ih (q := { q with triggered }) hw.inv hseg.2 (d + 1)).mono fun r hr => ⟨?_, hr.2⟩
    have hsplit : wokenTasks q.node key (n :: ns) =
        wokenTasks q.node key [n] ++ wokenTasks q.node key ns := by
      rw [wokenTasks, wokenTasks, wokenTasks, ← map_append, ← filter_append]
      rfl
    rw [hsplit]
    exact hw.trans hr.1

end

def RunsAboveWoken (cfg : Config) (s s' : State) : Prop :=
  ∀ t r, (s.task t).stat = .suspend → (s'.task t).stat ≠ .suspend →
    (settle cfg s').osRunningTask = some r → (s'.task t).curPrio ≤ (s'.task r).curPrio

def WaitsBelow (s : State) (q : Waitqueues) (ns : List Nat) (key cur : Nat) : Prop :=
  ∀ n ∈ ns, wakes q.node key n → (s.task (q.node n).pollingTask).stat = .suspend →
    (s.task (q.node n).pollingTask).curPrio ≤ (s.task cur).curPrio

/-- The loop never leaves the list before its end, so the call never gets to the scheduler. -/
theorem wakeupWqueue_runsAbove_iff {cfg : Config} {s : State} {q : Waitqueues} {cur : Nat}
    {lists : Nat → List Nat} (hs : Inv cfg s) (hsettle : settle cfg s = s)
    (hrun : s.osRunningTask = some cur) (hq : Rings q.links lists) (queue key : Nat) :
    Returns (fun fuel => wakeupWqueue cfg fuel 0 false queue key s q) fun r =>
      (RunsAboveWoken cfg s r.1 ↔ WaitsBelow s q (lists queue) key cur) := by
  refine (wakeupLoop_returns hs queue key (hq.seg queue) 0).bind ?_
  rintro ⟨s', q', node⟩ ⟨hw : Wakes cfg _ s s', rfl : node = _⟩
  simp only [if_true]
  have hcur : (settle cfg s').osRunningTask = some cur := by
    rw [settle_osRunningTask_congr hw.current hw.pending, hsettle, hrun]
  refine .pure ⟨fun h n hn hwakes hstat => ?_, fun h t r hstat hstat' hr => ?_⟩
  · have hmem : (q.node n).pollingTask ∈ wokenTasks q.node key (lists queue) :=
      List.mem_map.mpr ⟨n, mem_filter.mpr ⟨hn, hwakes⟩, rfl⟩
    have hle := h _ cur hstat (by simp [hw.stat, hstat, hmem]) hcur
    rwa [hw.prio, hw.prio] at hle
  · cases hcur.symm.trans hr
    rw [hw.stat] at hstat'
    have hmem : t ∈ wokenTasks q.node key (lists queue) := by
      by_contra hmem
      simp [hstat, hmem] at hstat'
    obtain ⟨n, hn, rfl⟩ := List.mem_map.mp hmem
    obtain ⟨hn, hwakes⟩ := mem_filter.mp hn
    rw [hw.prio, hw.prio]
    exact h n hn hwakes hstat

def sampleWaitqueues (t : Nat) : Waitqueues :=
  Waitqueues.wqueueAdd ⟨⟨id, id⟩, fun _ => ⟨t, none, 0⟩, fun _ => false⟩ 0 0

lemma sampleWaitqueues_rings (t : Nat) :
    Rings (sampleWaitqueues t).links (update (fun _ => []) 0 [0]) := by
  have hnil : Rings (⟨id, id⟩ : Links (Nat ⊕ Nat)) fun _ => ([] : List Nat) :=
    ⟨fun _ => ⟨rfl, rfl⟩, fun _ => nodup_nil, fun h _ => absurd h not_mem_nil,
      fun _ _ => ⟨rfl, rfl⟩⟩
  have hsplit : (fun _ : Nat => ([] : List Nat)) 0 = [] ++ [] := rfl
  exact hnil.insertBefore (fun _ => not_mem_nil) hsplit

theorem wakeupWqueue_runsAbove_iff_sample :
    ∃ s s' q, run sampleConfig 10 (osAssignReadyVectorInit sampleConfig sampleState)
        [.startup 3, .startupAssign, .suspend 3, .startup 9, .assign 0 false] = some s ∧
      (s.task 3).stat = .suspend ∧ RunsAboveWoken sampleConfig s s' ∧
      ∃ n, ∀ fuel ≥ n, wakeupWqueue sampleConfig fuel 0 false 0 1 s (sampleWaitqueues 3) =
        some (s', q) := by
  have hrun : ((run sampleConfig 10 (osAssignReadyVectorInit sampleConfig sampleState)
      [.startup 3, .startupAssign, .suspend 3, .startup 9, .assign 0 false]).map fun s =>
        (s.osRunningTask, (s.task 3).stat, (s.task 3).curPrio, (s.task 9).curPrio)) =
      some (some 9, .suspend, 3, 9) := by
    decide +kernel
  obtain ⟨s, hs, he⟩ := map_eq_some_iff.mp hrun
  simp only [Prod.mk.injEq] at he
  obtain ⟨hcur, hstat, hthree, hnine⟩ := he
  obtain ⟨⟨s', q⟩, hiff, hret⟩ := (wakeupWqueue_runsAbove_iff
    ((inv_init sampleState_initial).run hs)
    rfl hcur (sampleWaitqueues_rings 3) 0 1).eventually
  refine ⟨s, s', q, hs, hstat, hiff.mpr fun n _ _ _ => ?_, hret⟩
  rw [show ((sampleWaitqueues 3).node n).pollingTask = 3 from rfl, hthree, hnine]
  decide

theorem wakeupWqueue_runs_lower :
    ∃ s r, run sampleConfig 10 (osAssignReadyVectorInit sampleConfig sampleState)
        [.startup 9, .startupAssign, .suspend 9, .startup 3, .assign 0 false] = some s ∧
      wakeupWqueue sampleConfig 10 0 false 0 1 s (sampleWaitqueues 9) = some r ∧
      (s.task 9).stat = .suspend ∧ (r.1.task 9).stat = .ready ∧ r.1.osRunningTask = some 3 ∧
      ¬ RunsAboveWoken sampleConfig s r.1 := by
  have hrun : (do
      let s ← run sampleConfig 10 (osAssignReadyVectorInit sampleConfig sampleState)
        [.startup 9, .startupAssign, .suspend 9, .startup 3, .assign 0 false]
      let r ← wakeupWqueue sampleConfig 10 0 false 0 1 s (sampleWaitqueues 9)
      some ((s.task 9).stat, (r.1.task 9).stat, r.1.osRunningTask, (r.1.task 9).curPrio,
        (r.1.task 3).curPrio)) = some (.suspend, .ready, some 3, 9, 3) := by
    decide +kernel
  obtain ⟨s, hs, h⟩ := bind_eq_some_iff.mp hrun
  obtain ⟨r, hr, he⟩ := bind_eq_some_iff.mp h
  simp only [Option.some.injEq, Prod.mk.injEq] at he
  obtain ⟨hstat, hready, hcur, hnine, hthree⟩ := he
  refine ⟨s, r, hs, hr, hstat, hready, hcur, fun h => ?_⟩
  have hle := h 9 3 hstat (by simp [hready]) hcur
  rw [hnine, hthree] at hle
  exact absurd hle (by decide)

end Xiuos.Kernel
