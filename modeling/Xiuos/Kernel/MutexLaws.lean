import Xiuos.Kernel.Mutex

namespace Xiuos.Kernel
open Lib Function Option View World
variable {cfg : Config}

inductive MutexTr (cfg : Config) (a : World View Mutexes) :
    WorldOp MutexOp → World View Mutexes → Prop
  | kernel {op : KernelOp} {v : View} (h : a.KernelTr cfg op v) :
      MutexTr cfg a (.kernel op) { a with kernel := v }
  | again {m t : Nat} {waitTime : Int32} {now : UInt32} {alloc : Bool}
      (ht : a.caller (viewSched cfg) = some t) (hh : (a.obj.mutex m).holder = some t) :
      MutexTr cfg a (.act (.obtain m waitTime now alloc)) { a with
        kernel := a.kernel.setExstatus t eok
        obj := (a.obj.set m { a.obj.mutex m with
          recursiveCnt := (a.obj.mutex m).recursiveCnt + 1 }).count m t 1 }
  | take {m t : Nat} {waitTime : Int32} {now : UInt32} {alloc : Bool}
      (ht : a.caller (viewSched cfg) = some t) (hh : (a.obj.mutex m).holder ≠ some t)
      (hv : 0 < (a.obj.mutex m).val) :
      MutexTr cfg a (.act (.obtain m waitTime now alloc)) { a with
        kernel := a.kernel.setExstatus t eok
        obj := (a.obj.set m {
          val := (a.obj.mutex m).val - 1
          holder := some t
          originPrio := a.kernel.prio t
          recursiveCnt := (a.obj.mutex m).recursiveCnt + 1 }).count m t 1 }
  | refuse {m t : Nat} {now : UInt32} {alloc : Bool} (ht : a.caller (viewSched cfg) = some t)
      (hh : (a.obj.mutex m).holder ≠ some t) (hv : (a.obj.mutex m).val = 0) :
      MutexTr cfg a (.act (.obtain m 0 now alloc)) { a with
        kernel := (a.kernel.setExstatus t eok).setExstatus t (-etimeout) }
  | wait {m t h : Nat} {waitTime : Int32} {now : UInt32} {alloc : Bool}
      (ht : a.caller (viewSched cfg) = some t) (hh : (a.obj.mutex m).holder = some h) (hne : h ≠ t)
      (hv : (a.obj.mutex m).val = 0) (hw : waitTime ≠ 0) :
      MutexTr cfg a (.act (.obtain m waitTime now alloc)) ({ a with
        kernel := (((a.kernel.setExstatus t eok).inherit cfg h t).suspend m t .prio).timer t
          waitTime now alloc }.setCall t (some (m, false)))
  | finish {t : Nat} {c : Call} (ht : a.waker (viewSched cfg) = some (t, c)) :
      MutexTr cfg a (.act .finish) (a.setCall t none)
  | denied {m t : Nat} (ht : a.caller (viewSched cfg) = some t)
      (hh : (a.obj.mutex m).holder ≠ some t) :
      MutexTr cfg a (.act (.abandon m)) { a with kernel := a.kernel.setExstatus t (-error) }
  | nested {m t : Nat} (ht : a.caller (viewSched cfg) = some t)
      (hh : (a.obj.mutex m).holder = some t) (hcnt : (a.obj.mutex m).recursiveCnt - 1 ≠ 0) :
      MutexTr cfg a (.act (.abandon m)) { a with
        obj := (a.obj.set m { a.obj.mutex m with
          recursiveCnt := (a.obj.mutex m).recursiveCnt - 1 }).count m t (-1) }
  | free {m t : Nat} (ht : a.caller (viewSched cfg) = some t)
      (hh : (a.obj.mutex m).holder = some t) (hcnt : (a.obj.mutex m).recursiveCnt - 1 = 0)
      (hp : a.kernel.pend m = []) :
      MutexTr cfg a (.act (.abandon m)) { a with
        kernel := a.kernel.restore cfg t (a.obj.mutex m).originPrio
        obj := (a.obj.set m {
          val := (a.obj.mutex m).val + 1
          holder := none
          originPrio := 0xff
          recursiveCnt := 0 }).count m t (-1) }
  | pass {m t u : Nat} {us : List Nat} (ht : a.caller (viewSched cfg) = some t)
      (hh : (a.obj.mutex m).holder = some t) (hcnt : (a.obj.mutex m).recursiveCnt - 1 = 0)
      (hp : a.kernel.pend m = u :: us) (hne : u ≠ t) :
      MutexTr cfg a (.act (.abandon m)) ({ a with
        kernel := (a.kernel.restore cfg t (a.obj.mutex m).originPrio).release u
          ((a.kernel.restore cfg t (a.obj.mutex m).originPrio).task u).exstatus
        obj := ((a.obj.set m { a.obj.mutex m with
          holder := some u
          originPrio := (a.kernel.restore cfg t (a.obj.mutex m).originPrio).prio u
          recursiveCnt := 1 }).count m t (-1)).count m u 1 }.setCall u (some (m, true)))

variable {op : WorldOp MutexOp} {m : Nat}

section
variable {a a' : World View Mutexes}

lemma mutexTr_obtain {waitTime : Int32} {now : UInt32} {alloc : Bool}
    (h : mutexAct (viewSched cfg) a (.obtain m waitTime now alloc) = some a') :
    MutexTr cfg a (.act (.obtain m waitTime now alloc)) a' := by
  obtain ⟨t, ht, h⟩ := bind_eq_some_iff.mp h
  simp only [mutexObtain, viewSched_setExstatus, viewSched_task] at h
  by_cases hh : (a.obj.mutex m).holder = some t
  · rw [if_pos hh] at h
    cases h
    exact .again ht hh
  rw [if_neg hh] at h
  by_cases hv : 0 < (a.obj.mutex m).val
  · rw [if_pos hv] at h
    cases h
    have htr : MutexTr cfg a (.act (.obtain m waitTime now alloc)) _ := .take ht hh hv
    simpa [mutexObtained, setExstatus_task, View.prio] using htr
  rw [if_neg hv] at h
  have hv0 : (a.obj.mutex m).val = 0 := by simpa using hv
  by_cases hw : waitTime = 0
  · rw [if_pos hw] at h
    cases h
    subst hw
    simp only [Mutexes.set_same]
    exact .refuse ht hh hv0
  rw [if_neg hw] at h
  obtain ⟨r, hr, h⟩ := bind_eq_some_iff.mp h
  obtain ⟨holder, hholder, hr⟩ := bind_eq_some_iff.mp hr
  simp only [inheritPrio_eq, startTimer_eq, bind_eq_bind, bind_some,
    viewSched_linklistSuspend] at hr
  cases hr
  cases h
  simp only [Mutexes.set_same]
  exact .wait ht hholder (fun he => hh (he ▸ hholder)) hv0 hw

lemma mutexTr_abandon (hwaits : a.kernel.Waits)
    (h : mutexAct (viewSched cfg) a (.abandon m) = some a') :
    MutexTr cfg a (.act (.abandon m)) a' := by
  obtain ⟨t, ht, h⟩ := bind_eq_some_iff.mp h
  simp only [mutexAbandon, viewSched_setExstatus, restorePrio_eq, bind_eq_bind, bind_some] at h
  by_cases hh : (a.obj.mutex m).holder = some t
  · rw [if_neg (not_not.mpr hh)] at h
    by_cases hcnt : (a.obj.mutex m).recursiveCnt - 1 = 0
    · rw [if_pos hcnt] at h
      simp only [mutexPass, viewSched_first, viewSched_linklistResume, viewSched_task,
        restore_pend] at h
      cases hp : a.kernel.pend m with
      | nil =>
        simp only [hp, List.head?_nil, bind_some] at h
        cases h
        have htr := MutexTr.free ht hh hcnt hp
        simpa [mutexAbandoned, hcnt] using htr
      | cons u us =>
        have hne : u ≠ t := by
          rintro rfl
          exact hwaits.not_mem (active_of_caller ht) m (by simp [hp])
        simp only [hp, List.head?_cons, map_some, bind_eq_bind, bind_some] at h
        cases h
        have htr := MutexTr.pass ht hh hcnt hp hne
        simpa [mutexAbandoned, hcnt, hne, View.prio] using htr
    · rw [if_neg hcnt] at h
      cases h
      have htr := MutexTr.nested ht hh hcnt
      simpa [mutexAbandoned, hh] using htr
  · rw [if_pos hh] at h
    cases h
    simp only [Mutexes.set_same]
    exact .denied ht hh

lemma mutexTr_of_step (hwaits : a.kernel.Waits) (h : mutexStep (viewSched cfg) a op = some a') :
    MutexTr cfg a op a' := by
  obtain ⟨op', v, rfl, hv, rfl⟩ | ⟨i, rfl, hact⟩ := step_cases h
  · exact .kernel hv
  · cases i with
    | obtain => exact mutexTr_obtain hact
    | finish =>
      obtain ⟨⟨t, c⟩, ht, h⟩ := bind_eq_some_iff.mp hact
      cases h
      exact .finish ht
    | abandon => exact mutexTr_abandon hwaits hact

end

def Held (mutex : Mutex) (pend : List Nat) : Prop :=
  (mutex.val = 1 ∧ mutex.holder = none ∧ pend = []) ∨ (mutex.val = 0 ∧ ∃ h, mutex.holder = some h)

structure MutexInv (a : World View Mutexes) : Prop extends WorldInv a where
  held : ∀ m, Held (a.obj.mutex m) (a.kernel.pend m)
  holder : ∀ m h, (a.obj.mutex m).holder = some h → Begun (a.kernel.task h) ∧ h ∉ a.kernel.pend m

section
variable {a a' : World View Mutexes}

lemma MutexTr.calls (hi : MutexInv a) (h : MutexTr cfg a op a') : CallsOk a'.kernel a'.call := by
  obtain ⟨s, hs⟩ := hi.sim
  cases h with
  | kernel h => exact (hi.toWorldInv.kernel h).calls
  | again ht => exact hi.calls.setExstatus (of_caller ht).2 eok
  | take ht => exact hi.calls.setExstatus (of_caller ht).2 eok
  | refuse ht =>
    have hcall := (of_caller ht).2
    exact (hi.calls.setExstatus hcall eok).setExstatus hcall (-etimeout)
  | @wait m t h waitTime now alloc ht =>
    have hset := hi.calls.setExstatus (of_caller ht).2 eok
    have hinherit : CallsOk ((a.kernel.setExstatus t eok).inherit cfg h t) a.call :=
      hset.congr (by simp) (by simp) (by simp)
    have hex : (((a.kernel.setExstatus t eok).inherit cfg h t).task t).exstatus = eok := by
      simp [setExstatus_exstatus]
    have hflag : LinklistFlag.prio ≠ .other := by decide
    exact (hinherit.suspend m hflag hex).congr (by simp [setCall])
      (by simp [setCall]) (by simp [setCall])
  | finish ht => exact hi.calls.finish hs (Sim.of_caller (of_waker ht).1).2
  | denied ht => exact hi.calls.setExstatus (of_caller ht).2 (-error)
  | nested => exact hi.calls
  | @free m t ht hh hcnt hp =>
    exact hi.calls.congr (by simp) (by simp) (by simp)
  | @pass m t u us ht hh hcnt hp hne =>
    have hmem : u ∈ a.kernel.pend m := by simp [hp]
    have hrestore : CallsOk (a.kernel.restore cfg t (a.obj.mutex m).originPrio) a.call :=
      hi.calls.congr (by simp) (by simp) (by simp)
    refine hrestore.release m (fun k => ?_) ?_
    · rw [restore_pend]
      exact hs.nodup k
    · rw [restore_exstatus]
      exact (hi.calls.of_mem hs hmem).2

lemma MutexTr.begun (h : MutexTr cfg a op a') {u : Nat} (hu : Begun (a.kernel.task u)) :
    Begun (a'.kernel.task u) := by
  cases h with
  | kernel h => exact begun_of_step h.step hu
  | wait =>
    simp only [Begun, setCall, timer_stat, suspend_stat, inherit_stat, setExstatus_stat]
    split
    · simp
    · exact hu
  | pass =>
    simp only [Begun, setCall, release_stat, restore_stat]
    split
    · simp
    · exact hu
  | finish => exact hu
  | nested => exact hu
  | _ => simpa [Begun] using hu

lemma MutexTr.mem (hi : MutexInv a) (h : MutexTr cfg a op a') {k u : Nat}
    (hu : u ∈ a'.kernel.pend k) : u ∈ a.kernel.pend k ∨
      ∃ h, a.caller (viewSched cfg) = some u ∧ (a.obj.mutex k).holder = some h ∧ h ≠ u := by
  obtain ⟨s, hs⟩ := hi.sim
  cases h with
  | kernel h => exact .inl (mem_of_step hs.waits h.step hu)
  | @wait m t h waitTime now alloc ht hh hne =>
    simp only [setCall, timer_pend, suspend_pend, inherit_pend, setExstatus_pend] at hu
    by_cases hk : k = m
    · subst hk
      rw [update_self, mem_enqueue (by simp)] at hu
      obtain rfl | hu := hu
      · exact .inr ⟨h, ht, hh, hne⟩
      · exact .inl hu
    · rw [update_of_ne hk] at hu
      exact .inl hu
  | pass =>
    simp only [setCall, release_pend, restore_pend] at hu
    exact .inl (List.mem_of_mem_erase hu)
  | finish => exact .inl hu
  | nested => exact .inl hu
  | _ => exact .inl (by simpa using hu)

lemma MutexTr.gains (hi : MutexInv a) (h : MutexTr cfg a op a') {m u : Nat}
    (hu : (a'.obj.mutex m).holder = some u) : (a.obj.mutex m).holder = some u ∨
      ((a.obj.mutex m).holder = none ∧ a.caller (viewSched cfg) = some u ∧
        ∃ waitTime now alloc, op = .act (.obtain m waitTime now alloc)) ∨
      ∃ t us, (a.obj.mutex m).holder = some t ∧ a.caller (viewSched cfg) = some t ∧
        op = .act (.abandon m) ∧ a.kernel.pend m = u :: us ∧ u ≠ t ∧ a'.call u = some (m, true) ∧
          u ∉ a'.kernel.pend m := by
  have hupdate : ∀ {m' : Nat} {mutex : Mutex}, (update a.obj.mutex m' mutex m).holder = some u →
      (a.obj.mutex m).holder = some u ∨ (m' = m ∧ mutex.holder = some u) := by
    intro m' mutex h
    by_cases hm : m = m'
    · subst hm
      rw [update_self] at h
      exact .inr ⟨rfl, h⟩
    · rw [update_of_ne hm] at h
      exact .inl h
  cases h with
  | kernel => exact .inl hu
  | refuse => exact .inl hu
  | wait => exact .inl hu
  | finish => exact .inl hu
  | denied => exact .inl hu
  | again =>
    obtain h | ⟨rfl, h⟩ := hupdate hu
    · exact .inl h
    · exact .inl h
  | nested =>
    obtain h | ⟨rfl, h⟩ := hupdate hu
    · exact .inl h
    · exact .inl h
  | free =>
    obtain h | ⟨rfl, h⟩ := hupdate hu
    · exact .inl h
    · cases h
  | @take m' t waitTime now alloc ht hh hv =>
    obtain h | ⟨rfl, h⟩ := hupdate hu
    · exact .inl h
    · cases h
      obtain ⟨-, hn, -⟩ | ⟨hv0, -⟩ := hi.held m'
      · exact .inr (.inl ⟨hn, ht, waitTime, now, alloc, rfl⟩)
      · simp [hv0] at hv
  | @pass m' t w us ht hh hcnt hp hne =>
    obtain h | ⟨rfl, h⟩ := hupdate hu
    · exact .inl h
    · cases h
      obtain ⟨s, hs⟩ := hi.sim
      refine .inr (.inr ⟨t, us, hh, ht, rfl, hp, hne, by simp [setCall], fun hmem => ?_⟩)
      simp only [setCall, release_pend, restore_pend] at hmem
      exact ((hs.nodup m').mem_erase_iff.mp hmem).1 rfl

lemma MutexTr.holder (hi : MutexInv a) (h : MutexTr cfg a op a') {m u : Nat}
    (hu : (a'.obj.mutex m).holder = some u) : Begun (a'.kernel.task u) ∧ u ∉ a'.kernel.pend m := by
  obtain ⟨s, hs⟩ := hi.sim
  obtain hold | ⟨hnone, hcaller, -⟩ | ⟨t, us, -, -, -, hp, -, -, hnot⟩ := h.gains hi hu
  · obtain ⟨hb, hn⟩ := hi.holder m u hold
    refine ⟨h.begun hb, fun hmem => ?_⟩
    obtain hmem | ⟨h', -, hh', hne⟩ := h.mem hi hmem
    · exact hn hmem
    · rw [hold] at hh'
      exact hne (Option.some.inj hh').symm
  · have hact := active_of_caller hcaller
    refine ⟨h.begun hact.begun, fun hmem => ?_⟩
    obtain hmem | ⟨h', -, hh', -⟩ := h.mem hi hmem
    · exact hs.waits.not_mem hact m hmem
    · rw [hnone] at hh'
      cases hh'
  · have hstat := hs.waits m u (by simp [hp])
    exact ⟨h.begun (by simp [Begun, hstat]), hnot⟩

variable {mutex : Mutex}

lemma held_update (pend : Nat → List Nat) (hi : MutexInv a) (hm : Held mutex (pend m))
    (hpend : ∀ k ≠ m, a.kernel.pend k = [] → pend k = []) (k : Nat) :
    Held (update a.obj.mutex m mutex k) (pend k) := by
  by_cases hk : k = m
  · subst hk
    rwa [update_self]
  · rw [update_of_ne hk]
    obtain ⟨hv, hn, hp⟩ | h := hi.held k
    · exact .inl ⟨hv, hn, hpend k hk hp⟩
    · exact .inr h

lemma Held.of_holder {pend : List Nat} {t : Nat} (h : Held mutex pend)
    (hh : mutex.holder = some t) : mutex.val = 0 := by
  obtain ⟨-, hn, -⟩ | ⟨hv, -⟩ := h
  · rw [hh] at hn
    cases hn
  · exact hv

lemma MutexTr.held (hi : MutexInv a) (h : MutexTr cfg a op a') (k : Nat) :
    Held (a'.obj.mutex k) (a'.kernel.pend k) := by
  cases h with
  | kernel h =>
    obtain ⟨s, hs⟩ := hi.sim
    obtain ⟨hv, hn, hp⟩ | hheld := hi.held k
    · refine .inl ⟨hv, hn, List.eq_nil_iff_forall_not_mem.mpr fun u hu => ?_⟩
      have hmem := mem_of_step hs.waits h.step hu
      simp [hp] at hmem
    · exact .inr hheld
  | again ht hh =>
    refine held_update _ hi ?_ (fun _ _ h => h) k
    exact .inr ⟨(hi.held _).of_holder hh, _, hh⟩
  | @take m t waitTime now alloc ht hh hv =>
    obtain ⟨hv1, hn, hp⟩ | ⟨hv0, -⟩ := hi.held m
    · exact held_update _ hi (.inr ⟨by simp [hv1], _, rfl⟩) (fun _ _ h => h) k
    · simp [hv0] at hv
  | refuse => exact hi.held k
  | @wait m t h waitTime now alloc ht hh hne hv hw =>
    by_cases hk : k = m
    · subst hk
      exact .inr ⟨hv, h, hh⟩
    · simpa [setCall, suspend_pend, hk] using hi.held k
  | finish => exact hi.held k
  | denied => exact hi.held k
  | nested ht hh =>
    refine held_update _ hi ?_ (fun _ _ h => h) k
    exact .inr ⟨(hi.held _).of_holder hh, _, hh⟩
  | @free m t ht hh hcnt hp =>
    refine held_update _ hi ?_ (fun _ _ h => by simpa using h) k
    exact .inl ⟨by simp [(hi.held m).of_holder hh], rfl, by simpa using hp⟩
  | @pass m t u us ht hh hcnt hp hne =>
    refine held_update _ hi ?_ (fun _ _ h => ?_) k
    · exact .inr ⟨(hi.held m).of_holder hh, u, rfl⟩
    · simp [setCall, release_pend, h]

lemma MutexInv.step (hi : MutexInv a) (h : mutexStep (viewSched cfg) a op = some a') :
    MutexTr cfg a op a' ∧ MutexInv a' := by
  obtain ⟨s, hs⟩ := hi.sim
  obtain ⟨w, hw⟩ := hi.toWorldInv.exists_sim
  obtain ⟨w', hw'⟩ := (hw.mutexStep op).exists_of_some h
  have htr := mutexTr_of_step hs.waits h
  exact ⟨htr, ⟨⟨_, hw'.kernel⟩, htr.calls hi⟩, htr.held hi, fun _ _ => htr.holder hi⟩

end

structure MutexFresh (w : World State Mutexes) : Prop extends w.Fresh where
  mutex : ∀ m, w.obj.mutex m = .create
  excess : ∀ m t, w.obj.excess m t = 0

section
variable {fuel : Nat} {w w' : World State Mutexes} {a : World View Mutexes}

lemma MutexFresh.mutexInv (hw : MutexFresh w) :
    ∃ a, WorldSim w a ∧ MutexInv a ∧ ∀ k, a.kernel.pend k = [] := by
  obtain ⟨a, hsim, hi, hpend⟩ := hw.inv
  have hmutex : ∀ m, a.obj.mutex m = .create := by
    rw [← hsim.obj]
    exact hw.mutex
  refine ⟨a, hsim, ⟨hi, fun m => .inl ?_, fun m h hh => ?_⟩, hpend⟩
  · simp [hmutex, hpend, Mutex.create]
  · simp [hmutex, Mutex.create] at hh

lemma MutexInv.run_step (hi : MutexInv a) (hs : WorldSim w a)
    (h : mutexStep (stateSched cfg fuel) w op = some w') :
    ∃ a', WorldSim w' a' ∧ MutexTr cfg a op a' ∧ MutexInv a' := by
  obtain ⟨a', ha', hs'⟩ := (hs.mutexStep op).post h
  exact ⟨a', hs', hi.step ha'⟩

def mutexOf : WorldOp MutexOp → Option Nat
  | .act (.obtain m _ _ _) => some m
  | .act (.abandon m) => some m
  | _ => none

lemma MutexTr.mutex_of_ne {a' : World View Mutexes} (h : MutexTr cfg a op a') {j : Nat}
    (hj : mutexOf op ≠ some j) : a'.obj.mutex j = a.obj.mutex j := by
  have hne : ∀ {m}, some m ≠ some j → j ≠ m := fun h he => h (congrArg some he.symm)
  cases h with
  | kernel => rfl
  | refuse => rfl
  | wait => rfl
  | finish => rfl
  | denied => rfl
  | _ => exact update_of_ne (hne hj) _ _

lemma mutexRun_mutex_of_ne (hw : MutexFresh w) {ops : List (WorldOp MutexOp)} {j : Nat}
    (hj : ∀ op ∈ ops, mutexOf op ≠ some j)
    (hrun : runs (mutexStep (stateSched cfg fuel)) w ops = some w') : w'.obj.mutex j = .create := by
  obtain ⟨a, hsim, hi, -⟩ := hw.mutexInv
  have hstep : ∀ {w op w'}, (∃ a, WorldSim w a ∧ MutexInv a ∧ w.obj.mutex j = .create) →
      mutexOf op ≠ some j → mutexStep (stateSched cfg fuel) w op = some w' →
      ∃ a, WorldSim w' a ∧ MutexInv a ∧ w'.obj.mutex j = .create := by
    rintro w op w' ⟨a, hsim, hi, hfree⟩ hop h
    obtain ⟨a', hsim', htr, hi'⟩ := hi.run_step hsim h
    refine ⟨a', hsim', hi', ?_⟩
    rw [hsim'.obj, htr.mutex_of_ne hop, ← hsim.obj, hfree]
  obtain ⟨_, -, -, h⟩ :=
    (always_of_each hstep ⟨a, hsim, hi, hw.mutex j⟩ (Each.of_forall hj)).last hrun
  exact h

end

def sampleMutexes : World State Mutexes := sampleWorld ⟨fun _ => .create, fun _ _ => 0⟩

lemma sampleMutexes_fresh : MutexFresh sampleMutexes where
  toFresh := sampleWorld_fresh _
  mutex _ := rfl
  excess _ _ := rfl

end Xiuos.Kernel
