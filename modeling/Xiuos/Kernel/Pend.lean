import Xiuos.Kernel.KtaskLaws

/-! Waiting for objects, with lists in the place of pointers.  The bitmap plays no part here. -/

namespace Xiuos.Kernel
open Lib Function List

def Task.base (task : Task) : String × UInt8 := (task.name, task.originPrio)

def Task.unSetDelay (task : Task) : Task :=
  match task.delay with
  | some ⟨ticks, true⟩ => { task with delay := some ⟨ticks, false⟩ }
  | _ => task

variable {ticks : UInt32}

lemma Task.unSetDelay_of_active {task : Task} (h : task.delay = some ⟨ticks, true⟩) :
    task.unSetDelay = { task with delay := some ⟨ticks, false⟩ } := by rw [unSetDelay, h]

lemma Task.unSetDelay_of_not_active {task : Task}
    (h : ∀ ticks, task.delay ≠ some ⟨ticks, true⟩) : task.unSetDelay = task := by
  rw [unSetDelay]
  split
  · exact absurd ‹_› (h _)
  · rfl

section
variable (task : Task)

lemma Task.unSetDelay_eq : ∃ delay, task.unSetDelay = { task with delay } := by
  by_cases h : ∃ ticks, task.delay = some ⟨ticks, true⟩
  · obtain ⟨ticks, h⟩ := h
    exact ⟨_, unSetDelay_of_active h⟩
  · exact ⟨task.delay, unSetDelay_of_not_active (not_exists.mp h)⟩

@[simp] lemma Task.unSetDelay_stat : task.unSetDelay.stat = task.stat := by
  obtain ⟨_, h⟩ := task.unSetDelay_eq
  rw [h]

@[simp] lemma Task.unSetDelay_curPrio : task.unSetDelay.curPrio = task.curPrio := by
  obtain ⟨_, h⟩ := task.unSetDelay_eq
  rw [h]

@[simp] lemma Task.unSetDelay_exstatus : task.unSetDelay.exstatus = task.exstatus := by
  obtain ⟨_, h⟩ := task.unSetDelay_eq
  rw [h]

@[simp] lemma Task.unSetDelay_base : task.unSetDelay.base = task.base := by
  obtain ⟨_, h⟩ := task.unSetDelay_eq
  rw [h]
  rfl

end

/-- The lists agree with the states of the tasks, and timers belong to tasks that are suspended. -/
structure Placed (lists : Head → List Node) (task : Nat → Task) : Prop where
  ready : ∀ p n, n ∈ lists (.ready p) ↔
    ∃ t, n = .sched t ∧ (task t).stat = .ready ∧ (task t).curPrio.toNat = p
  pend : ∀ k n, n ∈ lists (.pend k) → ∃ t, n = .sched t ∧ (task t).stat = .suspend
  running : ∀ t, (task t).stat = .running → ∀ h, .sched t ∉ lists h
  delay : ∀ t h, .delay t ∈ lists h →
    h = .delay ∧ (task t).stat = .suspend ∧ ∃ ticks, (task t).delay = some ⟨ticks, true⟩

def cut (lists : Head → List Node) (t : Nat) : Head → List Node := fun h =>
  ((lists h).erase (.sched t)).erase (.delay t)

variable {lists : Head → List Node} {task : Nat → Task} {t : Nat} {h : Head}

lemma mem_cut (hnodup : ∀ h, (lists h).Nodup) {n : Node} :
    n ∈ cut lists t h ↔ n ≠ .sched t ∧ n ≠ .delay t ∧ n ∈ lists h := by
  rw [cut, ((hnodup h).erase _).mem_erase_iff, (hnodup h).mem_erase_iff]
  tauto

lemma sched_not_mem_cut (hnodup : ∀ h, (lists h).Nodup) (h : Head) : .sched t ∉ cut lists t h :=
  fun hm => ((mem_cut hnodup).mp hm).1 rfl

namespace Placed
variable (hp : Placed lists task)
include hp

lemma delay_not_mem (ht : (task t).stat ≠ .suspend) (h : Head) : .delay t ∉ lists h :=
  fun hm => ht (hp.delay t h hm).2.1

lemma cut_eq_erase (ht : (task t).stat ≠ .suspend) :
    cut lists t = fun h => (lists h).erase (.sched t) := funext fun h => erase_of_not_mem fun hm =>
    hp.delay_not_mem ht h (mem_of_mem_erase hm)

lemma cut_eq_self (ht : (task t).stat = .running) : cut lists t = lists := by
  rw [hp.cut_eq_erase (by simp [ht])]
  exact funext fun h => erase_of_not_mem (hp.running t ht h)

variable {task' : Task}

lemma leave (hnodup : ∀ h, (lists h).Nodup) (hstat : task'.stat ≠ .ready) :
    Placed (cut lists t) (update task t task') where
  ready p n := by
    rw [mem_cut hnodup, hp.ready]
    constructor
    · rintro ⟨hn, -, m, rfl, hm⟩
      refine ⟨m, rfl, ?_⟩
      rwa [update_of_ne (by simpa using hn)]
    · rintro ⟨m, rfl, hm, hq⟩
      by_cases he : m = t
      · subst he
        rw [update_self] at hm
        exact absurd hm hstat
      · rw [update_of_ne he] at hm hq
        exact ⟨by simpa using he, by simp, m, rfl, hm, hq⟩
  pend k n hn := by
    obtain ⟨hs, -, hn⟩ := (mem_cut hnodup).mp hn
    obtain ⟨m, rfl, hm⟩ := hp.pend k n hn
    exact ⟨m, rfl, by rwa [update_of_ne (by simpa using hs)]⟩
  running m hm h hmem := by
    obtain ⟨hs, -, hmem⟩ := (mem_cut hnodup).mp hmem
    rw [update_of_ne (by simpa using hs)] at hm
    exact hp.running m hm h hmem
  delay m h hm := by
    obtain ⟨-, hd, hm⟩ := (mem_cut hnodup).mp hm
    rw [update_of_ne (by simpa using hd)]
    exact hp.delay m h hm

variable {xs ys : List Node}

lemma enter (hnodup : ∀ h, (lists h).Nodup)
    (hready : ∀ p, h = .ready p ↔ task'.stat = .ready ∧ task'.curPrio.toNat = p)
    (hpend : ∀ k, h = .pend k → task'.stat = .suspend) (hrun : task'.stat ≠ .running)
    (hsplit : cut lists t h = xs ++ ys) :
    Placed (update (cut lists t) h (xs ++ .sched t :: ys)) (update task t task') where
  ready p n := by
    rw [Rings.mem_update_insert hsplit, mem_cut hnodup, hp.ready,
      eq_comm (a := Head.ready p), hready]
    constructor
    · rintro (⟨hs, rfl⟩ | ⟨hn, -, m, rfl, hm⟩)
      · exact ⟨t, rfl, by rwa [update_self]⟩
      · refine ⟨m, rfl, ?_⟩
        rwa [update_of_ne (by simpa using hn)]
    · rintro ⟨m, rfl, hm⟩
      by_cases he : m = t
      · subst he
        rw [update_self] at hm
        exact .inl ⟨hm, rfl⟩
      · rw [update_of_ne he] at hm
        exact .inr ⟨by simpa using he, by simp, m, rfl, hm⟩
  pend k n hn := by
    rw [Rings.mem_update_insert hsplit, mem_cut hnodup] at hn
    obtain ⟨he, rfl⟩ | ⟨hs, -, hn⟩ := hn
    · exact ⟨t, rfl, by rw [update_self]; exact hpend k he.symm⟩
    · obtain ⟨m, rfl, hm⟩ := hp.pend k n hn
      exact ⟨m, rfl, by rwa [update_of_ne (by simpa using hs)]⟩
  running m hm k hmem := by
    rw [Rings.mem_update_insert hsplit, mem_cut hnodup] at hmem
    by_cases he : m = t
    · subst he
      rw [update_self] at hm
      exact hrun hm
    · rw [update_of_ne he] at hm
      obtain ⟨-, heq⟩ | ⟨-, -, hmem⟩ := hmem
      · exact he (by simpa using heq)
      · exact hp.running m hm k hmem
  delay m k hm := by
    rw [Rings.mem_update_insert hsplit, mem_cut hnodup] at hm
    obtain ⟨-, heq⟩ | ⟨-, hd, hm⟩ := hm
    · cases heq
    · rw [update_of_ne (by simpa using hd)]
      exact hp.delay m k hm

lemma arm (hnodup : ∀ h, (lists h).Nodup) (ht : (task t).stat = .suspend)
    (hsplit : (lists .delay).erase (.delay t) = xs ++ ys) :
    Placed (update (fun h => (lists h).erase (.delay t)) .delay (xs ++ .delay t :: ys))
      (update task t { task t with delay := some ⟨ticks, true⟩ }) := by
  have hmem : ∀ {h n}, n ∈ update (fun h => (lists h).erase (.delay t)) .delay
      (xs ++ .delay t :: ys) h ↔ (h = .delay ∧ n = .delay t) ∨ (n ≠ .delay t ∧ n ∈ lists h) := by
    intro h n
    rw [← (hnodup h).mem_erase_iff]
    exact Rings.mem_update_insert hsplit
  have hstat : ∀ m, (update task t { task t with delay := some ⟨ticks, true⟩ } m).stat =
      (task m).stat ∧ (update task t { task t with delay := some ⟨ticks, true⟩ } m).curPrio =
        (task m).curPrio := by
    intro m
    by_cases he : m = t <;> simp [he]
  refine ⟨fun p n => ?_, fun k n hn => ?_, fun m hm h hn => ?_, fun m h hn => ?_⟩
  · simp only [hmem, hstat, hp.ready, reduceCtorEq, false_and, false_or]
    constructor
    · rintro ⟨-, m, hm⟩
      exact ⟨m, hm⟩
    · rintro ⟨m, rfl, hm⟩
      exact ⟨by simp, m, rfl, hm⟩
  · simp only [hmem, reduceCtorEq, false_and, false_or] at hn
    simp only [hstat]
    exact hp.pend k n hn.2
  · simp only [hmem, reduceCtorEq, and_false, false_or] at hn
    rw [(hstat m).1] at hm
    exact hp.running m hm h hn.2
  · rw [hmem] at hn
    by_cases he : m = t
    · subst he
      rw [update_self]
      obtain ⟨rfl, -⟩ | ⟨hne, -⟩ := hn
      · exact ⟨rfl, ht, ticks, rfl⟩
      · exact absurd rfl hne
    · rw [update_of_ne he]
      obtain ⟨-, heq⟩ | ⟨-, hn⟩ := hn
      · exact absurd heq (by simpa using he)
      · exact hp.delay m h hn

lemma modify (hstat : task'.stat = (task t).stat)
    (hcur : (task t).stat ≠ .ready ∨ task'.curPrio = (task t).curPrio)
    (hdelay : task'.delay = (task t).delay ∨ ∀ h, .delay t ∉ lists h) :
    Placed lists (update task t task') := by
  have hstat' : ∀ m, (update task t task' m).stat = (task m).stat := by
    intro m
    by_cases he : m = t <;> simp [he, hstat]
  have hdelay' : ∀ m h, .delay m ∈ lists h → (update task t task' m).delay = (task m).delay := by
    intro m h hm
    by_cases he : m = t
    · subst he
      rw [update_self]
      exact hdelay.resolve_right fun hnot => hnot h hm
    · rw [update_of_ne he]
  have hcur' : ∀ m, (task m).stat = .ready → (update task t task' m).curPrio =
    (task m).curPrio := by
    intro m hm
    by_cases he : m = t
    · subst he
      rw [update_self]
      exact hcur.resolve_left (not_not.mpr hm)
    · rw [update_of_ne he]
  refine ⟨fun p n => ?_, ?_, ?_, fun m h hm => ?_⟩
  · rw [hp.ready]
    refine exists_congr fun m => and_congr_right fun _ => ?_
    rw [hstat']
    exact and_congr_right fun hm => by rw [hcur' m hm]
  · simpa only [hstat'] using hp.pend
  · simpa only [hstat'] using hp.running
  · rw [hstat', hdelay' m h hm]
    exact hp.delay m h hm

end Placed
end Xiuos.Kernel
