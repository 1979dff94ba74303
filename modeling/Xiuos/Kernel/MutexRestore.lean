import Xiuos.Kernel.MutexPrio

namespace Xiuos.Kernel
open Lib Function View

section
variable {κ : Type} (k : Sched κ) (s : World κ Mutexes)

def Restored : Prop :=
  ∀ t, (∀ m, (s.obj.mutex m).holder ≠ some t) → s.prio k t = (k.task s.kernel t).originPrio

def RestoreOk : WorldOp MutexOp → Prop
  | .act (.abandon m) => ∀ t, s.caller k = some t → (s.obj.mutex m).holder = some t →
      (s.obj.mutex m).recursiveCnt = 1 → (∀ m' ≠ m, (s.obj.mutex m').holder ≠ some t) →
      isIdle (k.task s.kernel t).name ∨ (s.obj.mutex m).originPrio = (k.task s.kernel t).originPrio
  | _ => True

def IdleKept (v : View) : Prop := ∀ t, isIdle (v.task t).name → v.prio t = (v.task t).originPrio

variable {cfg : Config} {a a' : World View Mutexes} {op : WorldOp MutexOp}

lemma View.prio_cases_of_step {v v' : View} {op : KernelOp}
    (h : (viewSched cfg).step v op = some v') (u : Nat) :
    v'.prio u = v.prio u ∨ v'.prio u = (v.task u).originPrio := by
  obtain t | ⟨t, -⟩ | t | ⟨now, ticks, alloc, t, ht⟩ := step_cases h
  · rw [start_prio]
    split
    · exact .inr rfl
    · exact .inl rfl
  · simp
  · simp
  · split <;> simp

lemma MutexTr.base (h : MutexTr cfg a op a') (u : Nat) :
    (a'.kernel.task u).base = (a.kernel.task u).base := by
  cases h with
  | kernel h => exact base_of_step h.step u
  | finish => rfl
  | nested => rfl
  | _ => simp [World.setCall]

lemma MutexTr.originPrio (h : MutexTr cfg a op a') (u : Nat) :
    (a'.kernel.task u).originPrio = (a.kernel.task u).originPrio := congrArg Prod.snd (h.base u)

lemma MutexTr.prio_cases (hi : MutexInv a) (h : MutexTr cfg a op a') (u : Nat) :
    a'.kernel.prio u = a.kernel.prio u ∨ a'.kernel.prio u = (a.kernel.task u).originPrio ∨
      (¬ isIdle (a.kernel.task u).name ∧ ∃ m, (a.obj.mutex m).holder = some u) := by
  cases h with
  | kernel h =>
    obtain h | h := prio_cases_of_step h.step u
    · exact .inl h
    · exact .inr (.inl h)
  | @wait m t h waitTime now alloc ht hh hne hv hw =>
    have hclose : ((a.kernel.setExstatus t eok).task h).stat ≠ .close := by
      simpa using (hi.holder m h hh).1.2
    simp only [World.setCall, timer_prio, suspend_prio,
      inherit_prio _ _ _ _ _ hclose, setExstatus_prio, setExstatus_name]
    split
    · rename_i hu
      obtain ⟨rfl, -, hidle⟩ := hu
      exact .inr (.inr ⟨hidle, m, hh⟩)
    · exact .inl rfl
  | @free m t ht hh hcnt hp =>
    simp only [restore_prio _ _ _ _ _ (World.active_of_caller ht).begun.2]
    split
    · rename_i hu
      obtain ⟨rfl, hidle⟩ := hu
      exact .inr (.inr ⟨hidle, m, hh⟩)
    · exact .inl rfl
  | @pass m t w us ht hh hcnt hp hne =>
    simp only [World.setCall, release_prio,
      restore_prio _ _ _ _ _ (World.active_of_caller ht).begun.2]
    split
    · rename_i hu
      obtain ⟨rfl, hidle⟩ := hu
      exact .inr (.inr ⟨hidle, m, hh⟩)
    · exact .inl rfl
  | finish => exact .inl rfl
  | nested => exact .inl rfl
  | _ => exact .inl (by simp)

lemma MutexTr.idleKept (hi : MutexInv a) (h : MutexTr cfg a op a') (hidle : IdleKept a.kernel) :
    IdleKept a'.kernel := by
  intro u hu
  have hname : (a'.kernel.task u).name = (a.kernel.task u).name := congrArg Prod.fst (h.base u)
  rw [hname] at hu
  rw [h.originPrio u]
  obtain hp | hp | ⟨hno, -⟩ := h.prio_cases hi u
  · rw [hp]
    exact hidle u hu
  · exact hp
  · exact absurd hu hno

lemma MutexTr.restored (hi : MutexInv a) (hp : Restored (viewSched cfg) a)
    (h : MutexTr cfg a op a')
    (hholder : ∀ m u, (a.obj.mutex m).holder = some u → (a'.obj.mutex m).holder = some u) :
    Restored (viewSched cfg) a' := by
  intro u hu
  have hu' : ∀ m, (a.obj.mutex m).holder ≠ some u := fun m hm => hu m (hholder m u hm)
  have horigin := hp u hu'
  simp only [World.prio, viewSched_task] at horigin ⊢
  rw [h.originPrio u]
  obtain hprio | hprio | ⟨-, m, hm⟩ := h.prio_cases hi u
  · exact hprio.trans horigin
  · exact hprio
  · exact absurd hm (hu' m)

lemma restored_release {m t : Nat} (hp : Restored (viewSched cfg) a) (hidle : IdleKept a.kernel)
    (hh : (a.obj.mutex m).holder = some t) (hm : (a'.obj.mutex m).holder ≠ some t)
    (hother : ∀ j ≠ m, (a'.obj.mutex j).holder = (a.obj.mutex j).holder)
    (hbase : ∀ u, (a'.kernel.task u).originPrio = (a.kernel.task u).originPrio)
    (hprio : ∀ u, a'.kernel.prio u = if u = t ∧ ¬ isIdle (a.kernel.task t).name then
      (a.obj.mutex m).originPrio else a.kernel.prio u) :
    Restored (viewSched cfg) a' ↔ ((∀ m' ≠ m, (a.obj.mutex m').holder ≠ some t) →
      isIdle (a.kernel.task t).name ∨ (a.obj.mutex m).originPrio =
        (a.kernel.task t).originPrio) := by
  have hfree : (∀ j, (a'.obj.mutex j).holder ≠ some t) ↔
    ∀ m' ≠ m, (a.obj.mutex m').holder ≠ some t := by
    constructor
    · intro hn m' hm'
      rw [← hother m' hm']
      exact hn m'
    · intro hn j
      by_cases hj : j = m
      · rwa [hj]
      · rw [hother j hj]
        exact hn j hj
  have hsome : Restored (viewSched cfg) a' ↔ ∀ u, (∀ j, (a'.obj.mutex j).holder ≠ some u) →
      a'.kernel.prio u = (a.kernel.task u).originPrio := by
    simp only [← hbase]
    rfl
  rw [hsome]
  constructor
  · intro hp' hn
    have ht := hp' t (hfree.mpr hn)
    rw [hprio] at ht
    by_cases hi : isIdle (a.kernel.task t).name
    · exact .inl hi
    · exact .inr (by simpa [hi] using ht)
  · intro hok u hu
    rw [hprio]
    by_cases hut : u = t
    · subst hut
      by_cases hi : isIdle (a.kernel.task u).name
      · simpa [hi] using hidle u hi
      · simpa [hi] using (hok (hfree.mp hu)).resolve_left hi
    · rw [if_neg fun h => hut h.1]
      refine hp u fun j hj => ?_
      by_cases hjm : j = m
      · subst hjm
        rw [hh] at hj
        exact hut (Option.some.inj hj).symm
      · exact hu j (by rw [hother j hjm, hj])

lemma restoreOk_abandon {m t : Nat} (ht : a.caller (viewSched cfg) = some t)
    (hh : (a.obj.mutex m).holder = some t) (hcnt : (a.obj.mutex m).recursiveCnt - 1 = 0) :
    RestoreOk (viewSched cfg) a (.act (.abandon m)) ↔
      ((∀ m' ≠ m, (a.obj.mutex m').holder ≠ some t) →
      isIdle (a.kernel.task t).name ∨ (a.obj.mutex m).originPrio =
        (a.kernel.task t).originPrio) := by
  constructor
  · intro hok
    exact hok t ht hh (sub_one_eq_zero.mp hcnt)
  · intro hok t' ht' _ _
    rw [ht] at ht'
    cases ht'
    exact hok

lemma MutexTr.restored_iff_restoreOk (hi : MutexInv a) (hidle : IdleKept a.kernel)
    (hp : Restored (viewSched cfg) a) (h : MutexTr cfg a op a') :
    Restored (viewSched cfg) a' ↔ RestoreOk (viewSched cfg) a op := by
  have hsame := h.restored hi hp
  have hbase := h.originPrio
  cases h with
  | kernel => exact iff_of_true (hsame fun _ _ h => h) trivial
  | @again m t waitTime now alloc ht hh =>
    refine iff_of_true (hsame fun j u hu => ?_) trivial
    by_cases hj : j = m
    · subst hj
      simpa using hu
    · simpa [hj] using hu
  | @take m t waitTime now alloc ht hh hv =>
    refine iff_of_true (hsame fun j u hu => ?_) trivial
    by_cases hj : j = m
    · subst hj
      simp [(hi.held j).of_holder hu] at hv
    · simpa [hj] using hu
  | refuse => exact iff_of_true (hsame fun _ _ h => h) trivial
  | wait => exact iff_of_true (hsame fun _ _ h => h) trivial
  | finish => exact iff_of_true (hsame fun _ _ h => h) trivial
  | denied ht hh =>
    refine iff_of_true (hsame fun _ _ h => h) fun t' ht' hh' => ?_
    rw [ht] at ht'
    cases ht'
    exact absurd hh' hh
  | @nested m t ht hh hcnt =>
    refine iff_of_true (hsame fun j u hu => ?_) fun t' _ _ hone => ?_
    · by_cases hj : j = m
      · subst hj
        simpa using hu
      · simpa [hj] using hu
    · exact absurd (sub_one_eq_zero.mpr hone) hcnt
  | @free m t ht hh hcnt hpend =>
    rw [restoreOk_abandon ht hh hcnt]
    refine restored_release hp hidle hh ?_ (fun j hj => ?_) hbase fun u => ?_
    · simp
    · simp [hj]
    · simp [restore_prio _ _ _ _ _ (World.active_of_caller ht).begun.2]
  | @pass m t w us ht hh hcnt hpend hne =>
    rw [restoreOk_abandon ht hh hcnt]
    refine restored_release hp hidle hh ?_ (fun j hj => ?_) hbase fun u => ?_
    · simpa [World.setCall] using hne
    · simp [World.setCall, hj]
    · simp [World.setCall, restore_prio _ _ _ _ _ (World.active_of_caller ht).begun.2]

end

section
variable {cfg : Config} {fuel : Nat} {s s' : World State Mutexes} {a : World View Mutexes}

lemma WorldSim.restored_iff (hs : WorldSim s a) :
    Restored (stateSched cfg fuel) s ↔ Restored (viewSched cfg) a := by
  simp only [Restored, World.prio, stateSched_task, viewSched_task, hs.obj, hs.kernel.task]

lemma WorldSim.restoreOk_iff (hs : WorldSim s a) (op : WorldOp MutexOp) :
    RestoreOk (stateSched cfg fuel) s op ↔ RestoreOk (viewSched cfg) a op := by
  rcases op with op | (_ | _ | m)
  · exact Iff.rfl
  · exact Iff.rfl
  · exact Iff.rfl
  · simp only [RestoreOk, stateSched_task, viewSched_task, hs.obj, hs.kernel.task, hs.caller]

theorem mutexRun_restored_iff (hs : MutexFresh s)
    (hbase : ∀ t, (s.kernel.task t).curPrio = (s.kernel.task t).originPrio)
      (ops : List (WorldOp MutexOp)) :
    Always (mutexStep (stateSched cfg fuel)) (Restored (stateSched cfg fuel)) s ops ↔
      Each (mutexStep (stateSched cfg fuel)) (RestoreOk (stateSched cfg fuel)) s ops := by
  obtain ⟨a, hsim, hi, -⟩ := hs.mutexInv
  have hI : ∀ {s op s'}, (∃ a, WorldSim s a ∧ MutexInv a ∧ IdleKept a.kernel) →
      mutexStep (stateSched cfg fuel) s op = some s' →
      ∃ a, WorldSim s' a ∧ MutexInv a ∧ IdleKept a.kernel := by
    rintro s op s' ⟨a, hsim, hi, hidle⟩ h
    obtain ⟨a', hsim', htr, hi'⟩ := hi.run_step hsim h
    exact ⟨a', hsim', hi', htr.idleKept hi hidle⟩
  have hprio : ∀ t, a.kernel.prio t = (a.kernel.task t).originPrio := by
    rw [hsim.kernel.task] at hbase
    exact hbase
  refine always_iff_each hI ?_ ⟨a, hsim, hi, fun t _ => hprio t⟩ fun t _ => hbase t
  rintro s op s' ⟨a, hsim, hi, hidle⟩ hp h
  obtain ⟨a', hsim', htr, -⟩ := hi.run_step hsim h
  rw [hsim.restored_iff] at hp
  rw [hsim'.restored_iff, hsim.restoreOk_iff]
  exact htr.restored_iff_restoreOk hi hidle hp

end

def TookOwn {κ : Type} (k : Sched κ) (s : World κ Mutexes) : WorldOp MutexOp → Bool
  | .act (.abandon m) =>
    decide (∀ t ∈ s.caller k, (s.obj.mutex m).originPrio = (k.task s.kernel t).originPrio)
  | _ => true

lemma TookOwn.restoreOk {κ : Type} {k : Sched κ} {s : World κ Mutexes} {op : WorldOp MutexOp}
    (h : TookOwn k s op = true) : RestoreOk k s op := by
  rcases op with op | (_ | _ | m)
  · trivial
  · trivial
  · trivial
  · intro t ht _ _ _
    exact .inr (of_decide_eq_true h t ht)

theorem mutexRun_restored_iff_sample :
    Always (mutexStep (stateSched sampleConfig 20)) (Restored (stateSched sampleConfig 20))
      sampleMutexes [.kernel (.start 3), .kernel (.start 9), .kernel (.dispatch 3),
        .act (.obtain 1 50 0 true), .act (.obtain 2 50 0 true), .kernel (.dispatch 9),
          .act (.obtain 1 50 0 true),
        .kernel (.dispatch 3), .act (.abandon 1), .act (.abandon 2)] := by
  rw [mutexRun_restored_iff sampleMutexes_fresh fun _ => rfl]
  have htook : Each (mutexStep (stateSched sampleConfig 20))
      (fun s op => TookOwn (stateSched sampleConfig 20) s op = true) sampleMutexes
      [.kernel (.start 3), .kernel (.start 9), .kernel (.dispatch 3), .act (.obtain 1 50 0 true),
        .act (.obtain 2 50 0 true), .kernel (.dispatch 9), .act (.obtain 1 50 0 true),
          .kernel (.dispatch 3),
        .act (.abandon 1), .act (.abandon 2)] := by
    decide +kernel
  exact htook.mono fun _ _ => TookOwn.restoreOk

theorem mutexRun_keeps_boost :
    ∃ s, runs (mutexStep (stateSched sampleConfig 20)) sampleMutexes
        [.kernel (.start 3), .kernel (.start 9), .kernel (.dispatch 3), .act (.obtain 1 50 0 true),
          .kernel (.dispatch 9), .act (.obtain 1 50 0 true), .kernel (.dispatch 3),
            .act (.obtain 2 50 0 true),
          .act (.abandon 1), .act (.abandon 2)] = some s ∧
      (∀ m, (s.obj.mutex m).holder ≠ some 3) ∧ (s.kernel.task 3).originPrio = 3 ∧
      (s.kernel.task 3).curPrio = 9 ∧ ¬ Restored (stateSched sampleConfig 20) s := by
  have hrun : (runs (mutexStep (stateSched sampleConfig 20)) sampleMutexes
      [.kernel (.start 3), .kernel (.start 9), .kernel (.dispatch 3), .act (.obtain 1 50 0 true),
        .kernel (.dispatch 9), .act (.obtain 1 50 0 true), .kernel (.dispatch 3),
          .act (.obtain 2 50 0 true),
        .act (.abandon 1), .act (.abandon 2)]).map (fun s =>
          ((s.obj.mutex 1).holder, (s.obj.mutex 2).holder,
          (s.kernel.task 3).originPrio, (s.kernel.task 3).curPrio)) =
      some (some 9, none, 3, 9) := by
    decide +kernel
  obtain ⟨s, hs, h⟩ := Option.map_eq_some_iff.mp hrun
  simp only [Prod.mk.injEq] at h
  obtain ⟨h1, h2, horigin, hcur⟩ := h
  have hfree : ∀ m, (s.obj.mutex m).holder ≠ some 3 := by
    intro m
    by_cases hm : m = 1 ∨ m = 2
    · obtain rfl | rfl := hm
      · simp [h1]
      · simp [h2]
    · rw [mutexRun_mutex_of_ne sampleMutexes_fresh ?_ hs]
      · simp [Mutex.create]
      · simp [mutexOf]
        omega
  refine ⟨s, hs, hfree, horigin, hcur, fun hrestored => ?_⟩
  have heq := hrestored 3 hfree
  simp only [World.prio, stateSched_task, horigin, hcur] at heq
  exact absurd heq (by decide)

end Xiuos.Kernel
