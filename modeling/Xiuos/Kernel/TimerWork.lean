import Xiuos.Kernel.Workqueue

/-! What `CheckTimerList` allocates when a timer fires: the record of the work that is queued, and
the thread of the callback that frees it. -/

namespace Xiuos.Kernel
open Lib Function List Nat Option

/-- Allocations are numbered, `tWork` is the number of the record that `t_work` of a timer points
to.  `owners`, `completed` and `freed` are kept by the run alone: the record for which each work in
the queue was submitted, the records whose callback has completed, and all that was freed.  A thread
is its timer with the record for which it was created. -/
structure TimerWorks where
  queue : Workqueue
  allocs : Nat
  tWork : Nat → Option Nat
  threads : List (Nat × Option Nat)
  owners : List (Option Nat)
  completed : List Nat
  freed : List Nat

inductive TimerWorkOp
  | fire (t : Nat)
  | submit (work : Work)
  | worker (created : Bool)
  | finish (thread : Nat × Option Nat)

namespace TimerWorks

def boot : TimerWorks where
  queue := createWorkQueue
  allocs := 0
  tWork _ := none
  threads := []
  owners := []
  completed := []
  freed := []

def submit (s : TimerWorks) (work : Work) (owner : Option Nat) : TimerWorks :=
  if s.queue.full then s
  else { s with queue := s.queue.add work, owners := s.owners ++ [owner] }

def allocate (s : TimerWorks) (t : Nat) : TimerWorks :=
  { s with allocs := s.allocs + 1, tWork := update s.tWork t (some s.allocs) }

def fire (timerWorkFunc : Nat) (s : TimerWorks) (t : Nat) : TimerWorks :=
  (s.allocate t).submit ⟨some timerWorkFunc, t⟩ (some s.allocs)

/-- The worker takes a work and calls its function.  `timer_work_func` creates the thread, if it
can, and other functions have nothing to do with the timers. -/
def worker (timerWorkFunc : Nat) (s : TimerWorks) (created : Bool) : Option TimerWorks :=
  if s.queue.front = s.queue.rear then none
  else
    let work := s.queue.base s.queue.front
    let s' := { s with queue := s.queue.advance, owners := s.owners.tail }
    if work.cbFunc = some timerWorkFunc ∧ created then
      some { s' with threads := s.threads ++ [(work.cbParam, s.owners.head?.join)] }
    else some s'

def timerCBEnter (s : TimerWorks) (thread : Nat × Option Nat) : TimerWorks :=
  { s with
    threads := s.threads.erase thread
    completed := s.completed ++ thread.2.toList
    freed := s.freed ++ (s.tWork thread.1).toList }

def step (timerWorkFunc : Nat) (s : TimerWorks) : TimerWorkOp → Option TimerWorks
  | .fire t => some (s.fire timerWorkFunc t)
  | .submit work => if work.cbFunc = some timerWorkFunc then none else some (s.submit work none)
  | .worker created => s.worker timerWorkFunc created
  | .finish thread => if thread ∈ s.threads then some (s.timerCBEnter thread) else none

def outstanding (s : TimerWorks) : List Nat := (s.owners ++ s.threads.map Prod.snd).reduceOption

structure FreedOnce (s : TimerWorks) : Prop where
  nodup : s.freed.Nodup
  own : ∀ n ∈ s.freed, n ∈ s.completed
  completed : ∀ n ∈ s.completed, n ∈ s.freed
  rest : ∀ n < s.allocs, n ∈ s.freed ∨ n ∈ s.outstanding

def spaced (timerWorkFunc : Nat) (s : TimerWorks) : TimerWorkOp → Bool
  | .fire _ => !s.queue.full
  | .submit _ => true
  | .worker created => (s.queue.base s.queue.front).cbFunc = some timerWorkFunc → created
  | .finish thread => s.tWork thread.1 = thread.2

structure Ledger (timerWorkFunc : Nat) (s : TimerWorks) : Prop where
  queued : ∃ works, s.queue.Queued works ∧
    List.Forall₂ (fun work owner => work.cbFunc = some timerWorkFunc ↔ owner.isSome) works s.owners
  threads : ∀ thread ∈ s.threads, thread.2.isSome
  nodup : s.outstanding.Nodup
  outstanding_lt : ∀ n ∈ s.outstanding, n < s.allocs
  completed_lt : ∀ n ∈ s.completed, n < s.allocs
  disjoint : ∀ n ∈ s.outstanding, n ∉ s.completed

variable {f n : Nat} {s s' : TimerWorks} {thread : Nat × Option Nat} {work : Work}

section
variable (hl : s.Ledger f)
include hl

lemma Ledger.not_freed (hp : s.FreedOnce) (hn : n ∈ s.outstanding) : n ∉ s.freed :=
  fun h => hl.disjoint n hn (hp.own n h)

lemma Ledger.lost (hp : s.FreedOnce) (hallocs : s'.allocs = s.allocs)
    (hfreed : s'.freed = s.freed) (hperm : s.outstanding.Perm (n :: s'.outstanding)) :
    ¬ s'.FreedOnce := by
  intro hp'
  have hmem : n ∈ s.outstanding := hperm.mem_iff.mpr mem_cons_self
  have hnot : n ∉ s'.outstanding := (nodup_cons.mp (hperm.nodup_iff.mp hl.nodup)).1
  obtain h | h := hp'.rest n (hallocs ▸ hl.outstanding_lt n hmem)
  · exact hl.not_freed hp hmem (hfreed ▸ h)
  · exact hnot h

lemma Ledger.perm (s' : TimerWorks)
    (hqueued : ∃ works, s'.queue.Queued works ∧
      List.Forall₂ (fun work owner => work.cbFunc = some f ↔ owner.isSome) works s'.owners)
    (hthreads : ∀ thread ∈ s'.threads, thread.2.isSome) (hout : s'.outstanding.Perm s.outstanding)
    (hallocs : s'.allocs = s.allocs) (hcompleted : s'.completed = s.completed)
    (hfreed : s'.freed = s.freed) : s'.Ledger f ∧ (s.FreedOnce → s'.FreedOnce) := by
  refine ⟨⟨hqueued, hthreads, hout.nodup_iff.mpr hl.nodup, fun n hn => ?_, ?_, fun n hn => ?_⟩,
    fun hp => ⟨?_, ?_, ?_, fun n hn => ?_⟩⟩
  · rw [hallocs]
    exact hl.outstanding_lt n (hout.mem_iff.mp hn)
  · rw [hcompleted, hallocs]
    exact hl.completed_lt
  · rw [hcompleted]
    exact hl.disjoint n (hout.mem_iff.mp hn)
  · rw [hfreed]
    exact hp.nodup
  · rw [hfreed, hcompleted]
    exact hp.own
  · rw [hfreed, hcompleted]
    exact hp.completed
  · rw [hfreed, hout.mem_iff]
    exact hp.rest n (hallocs ▸ hn)

omit hl in
lemma outstanding_submit (hfull : s.queue.full = false) (work : Work) (owner : Option Nat) :
    (s.submit work owner).outstanding.Perm (owner.toList ++ s.outstanding) := by
  rw [submit, if_neg (by simp [hfull])]
  simp only [outstanding, reduceOption_append, reduceOption_singleton]
  rw [append_assoc]
  exact perm_append_comm_assoc _ _ _

lemma queued_submit {owner : Option Nat} (howner : work.cbFunc = some f ↔ owner.isSome) :
    ∃ works, (s.submit work owner).queue.Queued works ∧
      List.Forall₂ (fun work owner => work.cbFunc = some f ↔ owner.isSome) works
        (s.submit work owner).owners := by
  obtain ⟨works, hq, howners⟩ := hl.queued
  rw [submit]
  split
  · exact ⟨works, hq, howners⟩
  · rename_i hfull
    exact ⟨works ++ [work], hq.add hfull work, rel_append howners (.cons howner .nil)⟩

omit hl in
lemma submit_of_full (hfull : s.queue.full = true) (work : Work) (owner : Option Nat) :
    s.submit work owner = s := if_pos hfull

omit hl in
lemma submit_rest (work : Work) (owner : Option Nat) :
    (s.submit work owner).allocs = s.allocs ∧ (s.submit work owner).tWork = s.tWork ∧
      (s.submit work owner).threads = s.threads ∧
      (s.submit work owner).completed = s.completed ∧ (s.submit work owner).freed = s.freed := by
  rw [submit]
  split <;> exact ⟨rfl, rfl, rfl, rfl, rfl⟩

lemma Ledger.submit (hwork : work.cbFunc ≠ some f) :
    (s.submit work none).Ledger f ∧ (s.FreedOnce → (s.submit work none).FreedOnce) := by
  obtain ⟨hallocs, -, hthreads, hcompleted, hfreed⟩ := submit_rest (s := s) work none
  have hout : (s.submit work none).outstanding.Perm s.outstanding := by
    cases hfull : s.queue.full with
    | true => rw [submit_of_full hfull]
    | false => exact outstanding_submit hfull work none
  exact hl.perm _ (queued_submit hl (by simpa using hwork)) (hthreads ▸ hl.threads) hout hallocs
    hcompleted hfreed

lemma Ledger.allocate (t : Nat) : (s.allocate t).Ledger f :=
  ⟨hl.queued, hl.threads, hl.nodup, fun n hn => lt_succ_of_lt (hl.outstanding_lt n hn),
    fun n hn => lt_succ_of_lt (hl.completed_lt n hn), hl.disjoint⟩

lemma Ledger.fire (t : Nat) : (s.fire f t).Ledger f ∧
    (s.FreedOnce → ((s.fire f t).FreedOnce ↔ s.queue.full = false)) := by
  have hl₁ := hl.allocate t
  have hnew : ∀ n ∈ s.outstanding, n ≠ s.allocs := fun n hn =>
    Nat.ne_of_lt (hl.outstanding_lt n hn)
  rw [TimerWorks.fire]
  cases hfull : s.queue.full with
  | true =>
    rw [submit_of_full (s := s.allocate t) hfull]
    refine ⟨hl₁, fun hp => iff_of_false (fun hp' => ?_) Bool.noConfusion⟩
    obtain h | h := hp'.rest s.allocs (lt_succ_self _)
    · exact Nat.lt_irrefl _ (hl.completed_lt _ (hp.own _ h))
    · exact hnew _ h rfl
  | false =>
    have hout := outstanding_submit (s := s.allocate t) hfull ⟨some f, t⟩ (some s.allocs)
    obtain ⟨hallocs, -, hthreads, hcompleted, hfreed⟩ :=
      submit_rest (s := s.allocate t) ⟨some f, t⟩ (some s.allocs)
    have hmem : ∀ n, n ∈ ((s.allocate t).submit ⟨some f, t⟩ (some s.allocs)).outstanding ↔
        n = s.allocs ∨ n ∈ s.outstanding := fun n => hout.mem_iff.trans mem_cons
    refine ⟨⟨queued_submit hl₁ (by simp), hthreads ▸ hl.threads, ?_, fun n hn => ?_, ?_,
      fun n hn => ?_⟩, fun hp => iff_of_true ⟨?_, ?_, ?_, fun n hn => ?_⟩ rfl⟩
    · exact hout.nodup_iff.mpr (nodup_cons.mpr ⟨fun h => hnew _ h rfl, hl.nodup⟩)
    · rw [hallocs]
      obtain rfl | h := (hmem n).mp hn
      · exact lt_succ_self _
      · exact hl₁.outstanding_lt n h
    · rw [hcompleted, hallocs]
      exact hl₁.completed_lt
    · rw [hcompleted]
      obtain rfl | h := (hmem n).mp hn
      · exact fun h => Nat.lt_irrefl _ (hl.completed_lt _ h)
      · exact hl.disjoint n h
    · rw [hfreed]
      exact hp.nodup
    · rw [hfreed, hcompleted]
      exact hp.own
    · rw [hfreed, hcompleted]
      exact hp.completed
    · rw [hmem, hfreed]
      rw [hallocs] at hn
      obtain hlt | rfl := Nat.lt_succ_iff_lt_or_eq.mp hn
      · exact (hp.rest n hlt).imp_right .inr
      · exact .inr (.inl rfl)

lemma Ledger.record (hthread : thread ∈ s.threads) :
    ∃ n, thread.2 = some n ∧ s.outstanding.Perm (n :: (s.timerCBEnter thread).outstanding) := by
  obtain ⟨n, hn⟩ := isSome_iff_exists.mp (hl.threads thread hthread)
  refine ⟨n, hn, ?_⟩
  have hperm := ((perm_cons_erase hthread).map Prod.snd).append_left s.owners
  have hout := (hperm.trans perm_middle).filterMap id
  rw [hn] at hout
  simpa [outstanding, reduceOption, timerCBEnter] using hout

lemma Ledger.finish (hthread : thread ∈ s.threads) :
    (s.timerCBEnter thread).Ledger f ∧
      (s.FreedOnce → ((s.timerCBEnter thread).FreedOnce ↔ s.tWork thread.1 = thread.2)) := by
  obtain ⟨n, hn, hout⟩ := hl.record hthread
  have hmem : ∀ m, m ∈ s.outstanding ↔ m = n ∨ m ∈ (s.timerCBEnter thread).outstanding :=
    fun m => hout.mem_iff.trans mem_cons
  have hnodup := nodup_cons.mp (hout.nodup_iff.mp hl.nodup)
  have hcompleted : (s.timerCBEnter thread).completed = s.completed ++ [n] := by
    simp [timerCBEnter, hn]
  refine ⟨⟨hl.queued, fun u hu => hl.threads u (mem_of_mem_erase hu), hnodup.2,
    fun m hm => hl.outstanding_lt m ((hmem m).mpr (.inr hm)), fun m hm => ?_, fun m hm => ?_⟩,
    fun hp => ?_⟩
  · rw [hcompleted, mem_append, mem_singleton] at hm
    obtain hm | rfl := hm
    · exact hl.completed_lt m hm
    · exact hl.outstanding_lt m ((hmem m).mpr (.inl rfl))
  · rw [hcompleted, mem_append, mem_singleton]
    rintro (h | rfl)
    · exact hl.disjoint m ((hmem m).mpr (.inr hm)) h
    · exact hnodup.1 hm
  have hnot := hl.not_freed hp ((hmem n).mpr (.inl rfl))
  constructor
  · intro hp'
    have hfreed := hp'.completed n (by simp [hcompleted])
    rw [timerCBEnter, mem_append, mem_toList] at hfreed
    rw [hn]
    exact hfreed.resolve_left hnot
  · intro heq
    have hfreed : (s.timerCBEnter thread).freed = s.freed ++ [n] := by simp [timerCBEnter, heq, hn]
    refine ⟨?_, fun m hm => ?_, fun m hm => ?_, fun m hm => ?_⟩
    · rw [hfreed]
      exact nodup_append.mpr ⟨hp.nodup, nodup_singleton n, by
        rintro a ha b hb rfl
        exact hnot (mem_singleton.mp hb ▸ ha)⟩
    · rw [hfreed, mem_append] at hm
      rw [hcompleted, mem_append]
      exact hm.imp_left (hp.own m)
    · rw [hcompleted, mem_append] at hm
      rw [hfreed, mem_append]
      exact hm.imp_left (hp.completed m)
    · rw [hfreed, mem_append, mem_singleton]
      obtain h | h := hp.rest m hm
      · exact .inl (.inl h)
      · obtain rfl | h := (hmem m).mp h
        · exact .inl (.inr rfl)
        · exact .inr h

lemma Ledger.worker {created : Bool} (h : s.worker f created = some s') :
    s'.Ledger f ∧ (s.FreedOnce → (s'.FreedOnce ↔ s.spaced f (.worker created) = true)) := by
  obtain ⟨hne, h⟩ := ite_none_left_eq_some.mp h
  obtain ⟨works, hq, howners⟩ := hl.queued
  cases works with
  | nil => exact absurd (hq.eq_nil_iff.mpr rfl) hne
  | cons work works =>
    rw [hq.front_eq] at h
    rw [spaced, hq.front_eq]
    generalize howns : s.owners = owners at howners h
    cases howners with
    | cons howner howners =>
      rename_i owner owners
      have hqueued : ∃ works, s.queue.advance.Queued works ∧
          List.Forall₂ (fun work owner => work.cbFunc = some f ↔ owner.isSome) works owners :=
        ⟨works, hq.advance, howners⟩
      have hout : s.outstanding = (owner :: (owners ++ s.threads.map Prod.snd)).reduceOption := by
        rw [outstanding, howns, cons_append]
      by_cases hwork : work.cbFunc = some f
      · obtain ⟨n, rfl⟩ := isSome_iff_exists.mp (howner.mp hwork)
        cases created with
        | true =>
          rw [if_pos ⟨hwork, rfl⟩] at h
          cases h
          have hperm := hl.perm { s with
            queue := s.queue.advance
            owners := owners
            threads := s.threads ++ [(work.cbParam, some n)] } hqueued ?_ ?_ rfl rfl rfl
          · exact ⟨hperm.1, fun hp => iff_of_true (hperm.2 hp) (by simp)⟩
          · intro thread hthread
            obtain h | h := mem_append.mp hthread
            · exact hl.threads thread h
            · rw [mem_singleton.mp h]
              rfl
          · rw [hout, outstanding, map_append, ← append_assoc]
            exact (perm_append_singleton _ _).filterMap id
        | false =>
          rw [if_neg (by simp)] at h
          cases h
          have hlost : s.outstanding.Perm
              (n :: outstanding { s with queue := s.queue.advance, owners := owners }) := by
            rw [hout, reduceOption_cons_of_some]
            rfl
          refine ⟨⟨hqueued, hl.threads, ?_, fun m hm => ?_, hl.completed_lt, fun m hm => ?_⟩,
            fun hp => ?_⟩
          · exact (nodup_cons.mp (hlost.nodup_iff.mp hl.nodup)).2
          · exact hl.outstanding_lt m (hlost.mem_iff.mpr (mem_cons_of_mem n hm))
          · exact hl.disjoint m (hlost.mem_iff.mpr (mem_cons_of_mem n hm))
          · exact iff_of_false (hl.lost hp rfl rfl hlost) (by simp [hwork])
      · have hnone : owner = none := by simpa using mt howner.mpr hwork
        subst hnone
        rw [if_neg fun h => hwork h.1] at h
        cases h
        have hperm := hl.perm { s with queue := s.queue.advance, owners := owners }
          hqueued hl.threads ?_ rfl rfl rfl
        · exact ⟨hperm.1, fun hp => iff_of_true (hperm.2 hp) (by simp [hwork])⟩
        · rw [hout, reduceOption_cons_of_none]
          rfl

lemma Ledger.step {op : TimerWorkOp} (h : s.step f op = some s') :
    s'.Ledger f ∧ (s.FreedOnce → (s'.FreedOnce ↔ s.spaced f op = true)) := by
  cases op with
  | fire t =>
    cases h
    simpa [spaced] using hl.fire t
  | submit work =>
    obtain ⟨hwork, h⟩ := ite_none_left_eq_some.mp h
    cases h
    obtain ⟨hl', hp⟩ := hl.submit hwork
    exact ⟨hl', fun h => iff_of_true (hp h) rfl⟩
  | worker created => exact hl.worker h
  | finish thread =>
    obtain ⟨hthread, h⟩ := ite_none_right_eq_some.mp h
    cases h
    simpa [spaced] using hl.finish hthread

end

lemma Ledger.boot (f : Nat) : boot.Ledger f :=
  ⟨⟨[], ⟨succ_pos 31, rfl, succ_pos 31, by simp⟩, .nil⟩, by simp [TimerWorks.boot],
    nodup_nil, by simp [TimerWorks.boot, outstanding], by simp [TimerWorks.boot],
    by simp [TimerWorks.boot, outstanding]⟩

end TimerWorks

/-- Every record is freed once and after its own callback, exactly when no timer fires into a full
queue, all threads can be created, and no timer fires again before its callback has completed. -/
theorem timerWorkRun_freedOnce_iff (timerWorkFunc : Nat) (ops : List TimerWorkOp) :
    Always (TimerWorks.step timerWorkFunc) TimerWorks.FreedOnce .boot ops ↔
      Each (TimerWorks.step timerWorkFunc) (fun s op => s.spaced timerWorkFunc op) .boot ops :=
  always_iff_each (I := TimerWorks.Ledger timerWorkFunc) (fun hl h => (hl.step h).1)
    (fun hl hp h => (hl.step h).2 hp) (.boot timerWorkFunc)
    ⟨nodup_nil, by simp [TimerWorks.boot], by simp [TimerWorks.boot],
      by simp [TimerWorks.boot]⟩

theorem timerCBEnter_frees_twice :
    ∃ s, runs (TimerWorks.step 7) .boot [.fire 5, .worker true, .fire 5, .worker true,
        .finish (5, some 0), .finish (5, some 1)] = some s ∧
      s.allocs = 2 ∧ s.completed = [0, 1] ∧ s.freed = [1, 1] ∧ ¬ s.FreedOnce := by
  have hrun : (do
      let s ← runs (TimerWorks.step 7) .boot [.fire 5, .worker true, .fire 5, .worker true,
        .finish (5, some 0), .finish (5, some 1)]
      some (decide (s.allocs = 2 ∧ s.completed = [0, 1] ∧ s.freed = [1, 1]))) = some true := by
    decide +kernel
  obtain ⟨s, hs, h⟩ := bind_eq_some_iff.mp hrun
  obtain ⟨hallocs, hcompleted, hfreed⟩ := of_decide_eq_true (Option.some.inj h)
  refine ⟨s, hs, hallocs, hcompleted, hfreed, fun hp => ?_⟩
  have hnodup := hp.nodup
  rw [hfreed] at hnodup
  exact absurd hnodup (by decide)

end Xiuos.Kernel
