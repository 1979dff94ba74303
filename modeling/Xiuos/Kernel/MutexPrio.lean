import Xiuos.Kernel.MutexLaws

namespace Xiuos.Kernel
open Lib Function View World

namespace View
variable (v : View) (cfg : Config) (h t u : Nat) (p : UInt8)

lemma setExstatus_name (exstatus : Int) :
    ((v.setExstatus t exstatus).task u).name = (v.task u).name :=
  congrArg Prod.fst (v.setExstatus_base t u exstatus)

lemma setPrio_prio (hc : (v.task t).stat ≠ .close) : (v.setPrio cfg t p).prio u =
    if u = t ∧ ¬ isIdle (v.task t).name then p else v.prio u := by
  rw [setPrio]
  by_cases hidle : isIdle (v.task t).name
  · simp [hidle]
  · simp only [hidle, hc, or_self, Bool.false_eq_true, if_false]
    rw [prio, setTask_task]
    by_cases hu : u = t <;> simp [hu, prio]

lemma inherit_prio (hc : (v.task h).stat ≠ .close) : (v.inherit cfg h t).prio u =
    if u = h ∧ v.prio h < v.prio t ∧ ¬ isIdle (v.task h).name then v.prio t else v.prio u := by
  rw [inherit]
  by_cases hlt : v.prio h < v.prio t
  · simp [hlt, setPrio_prio _ _ _ _ _ hc]
  · simp [hlt]

lemma restore_prio (hc : (v.task t).stat ≠ .close) : (v.restore cfg t p).prio u =
    if u = t ∧ ¬ isIdle (v.task t).name then p else v.prio u := by
  rw [restore]
  by_cases hp : p = v.prio t
  · subst hp
    by_cases hu : u = t <;> simp [hu]
  · simp [hp, setPrio_prio _ _ _ _ _ hc]

end View

section
variable {κ : Type} (k : Sched κ) (s : World κ Mutexes)

def Inherits : Prop :=
  ∀ m h w, (s.obj.mutex m).holder = some h → s.Waiting k m w → s.prio k w ≤ s.prio k h

/-- The steps that keep this: the holder can be raised to the priority of a task that begins to wait
and does not wait itself for a task below; a task that falls back holds no other mutex for which
a task above waits; and the first task of the list, which gets the mutex, is a highest one. -/
def BoostOk : WorldOp MutexOp → Prop
  | .act (.obtain m waitTime _ _) => ∀ t h, s.caller k = some t →
      (s.obj.mutex m).holder = some h → h ≠ t → waitTime ≠ 0 → s.prio k h < s.prio k t →
      ¬ isIdle (k.task s.kernel h).name ∧
        ∀ m' h', s.Waiting k m' h → (s.obj.mutex m').holder = some h' → s.prio k t ≤ s.prio k h'
  | .act (.abandon m) => ∀ t, s.caller k = some t → (s.obj.mutex m).holder = some t →
      (s.obj.mutex m).recursiveCnt = 1 →
      (isIdle (k.task s.kernel t).name ∨ ∀ m' ≠ m, ∀ w, (s.obj.mutex m').holder = some t →
        s.Waiting k m' w → s.prio k w ≤ (s.obj.mutex m).originPrio) ∧
      ∀ u w, k.first s.kernel m = some u → s.Waiting k m w → s.prio k w ≤ s.prio k u
  | _ => True

end

section
variable {cfg : Config} {a a' : World View Mutexes} {op : WorldOp MutexOp} (hi : MutexInv a)
include hi

lemma inherits_iff : Inherits (viewSched cfg) a ↔
    ∀ m h w, (a.obj.mutex m).holder = some h → w ∈ a.kernel.pend m →
      a.kernel.prio w ≤ a.kernel.prio h := by
  simp only [Inherits, hi.toWorldInv.waiting_iff]
  rfl

omit hi in
lemma sub_one_eq_zero {n : UInt8} : n - 1 = 0 ↔ n = 1 := sub_eq_zero

variable (hi' : MutexInv a')
include hi'

section
variable (hp : Inherits (viewSched cfg) a)
include hp

lemma inherits_wait {m t h : Nat} (hh : (a.obj.mutex m).holder = some h) (hne : h ≠ t)
    (hmutex : a'.obj.mutex = a.obj.mutex)
    (hpend : ∀ j w, w ∈ a'.kernel.pend j ↔ (j = m ∧ w = t) ∨ w ∈ a.kernel.pend j)
    (hprio : ∀ u, a'.kernel.prio u = if u = h ∧ a.kernel.prio h < a.kernel.prio t ∧
      ¬ isIdle (a.kernel.task h).name then a.kernel.prio t else a.kernel.prio u) :
    Inherits (viewSched cfg) a' ↔ (a.kernel.prio h < a.kernel.prio t →
      ¬ isIdle (a.kernel.task h).name ∧ ∀ m' h', h ∈ a.kernel.pend m' →
        (a.obj.mutex m').holder = some h' → a.kernel.prio t ≤ a.kernel.prio h') := by
  obtain ⟨s, hs⟩ := hi.sim
  rw [inherits_iff hi']
  rw [inherits_iff hi] at hp
  simp only [hmutex, hpend, hprio]
  constructor
  · intro hp' hlt
    have hidle : ¬ isIdle (a.kernel.task h).name := fun hidle => by
      have hle := hp' m h t hh (.inl ⟨rfl, rfl⟩)
      simp only [if_false, hidle, not_true_eq_false, and_false] at hle
      exact absurd hlt (UInt8.not_lt.mpr hle)
    refine ⟨hidle, fun m' h' hmem hh' => ?_⟩
    have hle := hp' m' h' h hh' (.inr hmem)
    have hne' : h' ≠ h := by
      rintro rfl
      exact (hi.holder m' h' hh').2 hmem
    simpa [hlt, hidle, hne'] using hle
  · intro hok m' h' w hh' hw
    obtain ⟨rfl, rfl⟩ | hw := hw
    · rw [hh] at hh'
      cases hh'
      by_cases hlt : a.kernel.prio h < a.kernel.prio w
      · simp [hlt, (hok hlt).1, Ne.symm hne]
      · simpa [hlt] using UInt8.not_lt.mp hlt
    · have hle := hp m' h' w hh' hw
      by_cases hlt : a.kernel.prio h < a.kernel.prio t
      · obtain ⟨hidle, hok⟩ := hok hlt
        by_cases hwh : w = h
        · subst hwh
          have hne' : h' ≠ w := by
            rintro rfl
            exact (hi.holder m' h' hh').2 hw
          simpa [hlt, hidle, hne'] using hok m' h' hw hh'
        · by_cases hhh : h' = h
          · subst hhh
            simpa [hlt, hidle, hwh] using UInt8.le_trans hle (UInt8.le_of_lt hlt)
          · simpa [hwh, hhh] using hle
      · simpa [hlt] using hle

lemma inherits_release {m t : Nat} (hact : Active (a.kernel.task t))
    (hholder : ∀ j u, (a'.obj.mutex j).holder = some u ↔
      if j = m then (a.kernel.pend m).head? = some u else (a.obj.mutex j).holder = some u)
    (hpend : ∀ j w, w ∈ a'.kernel.pend j ↔ w ∈ a.kernel.pend j ∧ (a.kernel.pend m).head? ≠ some w)
    (hprio : ∀ u, a'.kernel.prio u = if u = t ∧
      ¬ isIdle (a.kernel.task t).name then (a.obj.mutex m).originPrio else a.kernel.prio u) :
    Inherits (viewSched cfg) a' ↔
      (isIdle (a.kernel.task t).name ∨ ∀ m' ≠ m, ∀ w, (a.obj.mutex m').holder = some t →
        w ∈ a.kernel.pend m' → a.kernel.prio w ≤ (a.obj.mutex m).originPrio) ∧
      ∀ u w, (a.kernel.pend m).head? = some u → w ∈ a.kernel.pend m →
        a.kernel.prio w ≤ a.kernel.prio u := by
  obtain ⟨s, hs⟩ := hi.sim
  have hnot := hs.waits.not_mem hact
  have hhead : ∀ {u}, (a.kernel.pend m).head? = some u →
    u ∈ a.kernel.pend m := List.mem_of_mem_head?
  have hne : ∀ {j w}, w ∈ a.kernel.pend j → w ≠ t := fun hw he => hnot _ (he ▸ hw)
  rw [inherits_iff hi']
  rw [inherits_iff hi] at hp
  simp only [hholder, hpend, hprio]
  constructor
  · intro hp'
    refine ⟨or_iff_not_imp_left.mpr fun hidle m' hm' w ht hw => ?_, fun u w hu hw => ?_⟩
    · have hhw : (a.kernel.pend m).head? ≠ some w := fun he =>
        hm' (hs.unique hw (hhead he))
      simpa [hm', ht, hne hw, hidle] using hp' m' t w (by simpa [hm'] using ht) ⟨hw, hhw⟩
    · by_cases hwu : w = u
      · rw [hwu]
        exact UInt8.le_refl _
      · have hhw : (a.kernel.pend m).head? ≠ some w := by simpa [hu] using Ne.symm hwu
        simpa [hne hw, hne (hhead hu)] using hp' m u w (by simpa using hu) ⟨hw, hhw⟩
  · rintro ⟨hother, hfirst⟩ m' h' w hh' ⟨hw, hhw⟩
    by_cases hm' : m' = m
    · subst hm'
      rw [if_pos rfl] at hh'
      simpa [hne hw, hne (hhead hh')] using hfirst h' w hh' hw
    · rw [if_neg hm'] at hh'
      by_cases hidle : isIdle (a.kernel.task t).name
      · simpa [hidle] using hp m' h' w hh' hw
      · by_cases hht : h' = t
        · subst hht
          simpa [hne hw, hidle] using (hother.resolve_left hidle) m' hm' w hh' hw
        · simpa [hne hw, hht] using hp m' h' w hh' hw

lemma MutexTr.inherits (h : MutexTr cfg a op a')
    (hprio : ∀ u, Begun (a.kernel.task u) → a'.kernel.prio u = a.kernel.prio u)
    (hmem : ∀ m w, w ∈ a'.kernel.pend m → w ∈ a.kernel.pend m)
    (hcall : ∀ u c, a'.call u = some c → a.call u = some c) : Inherits (viewSched cfg) a' := by
  obtain ⟨s, hs⟩ := hi.sim
  rw [inherits_iff hi']
  rw [inherits_iff hi] at hp
  intro m u w hu hw
  have hw := hmem m w hw
  obtain hold | ⟨hn, -⟩ | ⟨t, us, -, -, -, hpend, -, hgot, -⟩ := h.gains hi hu
  · have hstat := hs.waits m w hw
    rw [hprio w (by simp [Begun, hstat]), hprio u (hi.holder m u hold).1]
    exact hp m u w hold hw
  · obtain ⟨-, -, hnil⟩ | ⟨-, h, hh⟩ := hi.held m
    · rw [hnil] at hw
      cases hw
    · rw [hn] at hh
      cases hh
  · have hmem : u ∈ a.kernel.pend m := by simp [hpend]
    have hgot := hcall u _ hgot
    rw [(hi.calls.of_mem hs hmem).1] at hgot
    cases hgot

end

omit hi' in
lemma boostOk_abandon {m t : Nat} (ht : a.caller (viewSched cfg) = some t)
    (hh : (a.obj.mutex m).holder = some t) (hcnt : (a.obj.mutex m).recursiveCnt - 1 = 0) :
    BoostOk (viewSched cfg) a (.act (.abandon m)) ↔
      (isIdle (a.kernel.task t).name ∨ ∀ m' ≠ m, ∀ w, (a.obj.mutex m').holder = some t →
        w ∈ a.kernel.pend m' → a.kernel.prio w ≤ (a.obj.mutex m).originPrio) ∧
      ∀ u w, (a.kernel.pend m).head? = some u → w ∈ a.kernel.pend m →
        a.kernel.prio w ≤ a.kernel.prio u := by
  simp only [BoostOk, hi.toWorldInv.waiting_iff]
  constructor
  · intro hok
    exact hok t ht hh (sub_one_eq_zero.mp hcnt)
  · intro hok t' ht' _ _
    rw [ht] at ht'
    cases ht'
    exact hok

lemma MutexTr.inherits_iff_boostOk (hp : Inherits (viewSched cfg) a) (h : MutexTr cfg a op a') :
    Inherits (viewSched cfg) a' ↔ BoostOk (viewSched cfg) a op := by
  obtain ⟨s, hs⟩ := hi.sim
  have hsame := h.inherits hi hi' hp
  cases h with
  | kernel h =>
    exact iff_of_true (hsame (fun u hu => prio_of_step h.step hu.1)
      (fun m w hw => mem_of_step hs.waits h.step hw) fun _ _ h => h) trivial
  | again ht hh =>
    refine iff_of_true (hsame (by simp) (by simp) fun _ _ h => h) ?_
    intro t' h' ht' hh' hne
    rw [ht] at ht'
    rw [hh] at hh'
    cases ht'
    cases hh'
    exact absurd rfl hne
  | @take m t waitTime now alloc ht hh hv =>
    refine iff_of_true (hsame (by simp) (by simp) fun _ _ h => h) ?_
    intro t' h' ht' hh'
    simp [(hi.held m).of_holder hh'] at hv
  | refuse ht hh hv =>
    refine iff_of_true (hsame (by simp) (by simp) fun _ _ h => h) ?_
    intro t' h' ht' hh' hne hw
    exact absurd rfl hw
  | @wait m t h waitTime now alloc ht hh hne hv hw =>
    have hclose : ((a.kernel.setExstatus t eok).task h).stat ≠ .close := by
      simpa using (hi.holder m h hh).1.2
    rw [inherits_wait hi hi' hp hh hne rfl]
    · simp only [BoostOk, hi.toWorldInv.waiting_iff]
      constructor
      · intro hok t' h' ht' hh' _ _ hlt
        rw [ht] at ht'
        rw [hh] at hh'
        cases ht'
        cases hh'
        exact hok hlt
      · intro hok hlt
        exact hok t h ht hh hne hw hlt
    · intro j w
      by_cases hj : j = m
      · subst hj
        simp [setCall, suspend_pend, mem_enqueue]
      · simp [setCall, suspend_pend, hj]
    · intro u
      simp [setCall, inherit_prio _ _ _ _ _ hclose, setExstatus_name]
  | @finish t ht hc =>
    refine iff_of_true (hsame (fun _ _ => rfl) (fun _ _ h => h) fun u c h => ?_) trivial
    by_cases hu : u = t
    · subst hu
      simp [setCall] at h
    · simpa [setCall, hu] using h
  | denied ht hh =>
    refine iff_of_true (hsame (by simp) (by simp) fun _ _ h => h) ?_
    intro t' ht' hh'
    rw [ht] at ht'
    cases ht'
    exact absurd hh' hh
  | nested ht hh hcnt =>
    refine iff_of_true (hsame (fun _ _ => rfl) (fun _ _ h => h) fun _ _ h => h) ?_
    intro t' ht' hh' hone
    exact absurd (sub_one_eq_zero.mpr hone) hcnt
  | @free m t ht hh hcnt hpend =>
    have hact := active_of_caller ht
    rw [boostOk_abandon hi ht hh hcnt]
    refine inherits_release hi hi' hp hact ?_ ?_ ?_
    · intro j u
      by_cases hj : j = m
      · subst hj
        simp [hpend]
      · simp [hj]
    · intro j w
      simp [hpend]
    · intro u
      simp [restore_prio _ _ _ _ _ hact.begun.2]
  | @pass m t u us ht hh hcnt hpend hne =>
    have hact := active_of_caller ht
    rw [boostOk_abandon hi ht hh hcnt]
    refine inherits_release hi hi' hp hact ?_ ?_ ?_
    · intro j u
      by_cases hj : j = m
      · subst hj
        simp [setCall, hpend]
      · simp [setCall, hj]
    · intro j w
      simp only [setCall, release_pend, restore_pend, hpend, (hs.nodup j).mem_erase_iff]
      simp [and_comm, eq_comm]
    · intro u
      simp [setCall, restore_prio _ _ _ _ _ hact.begun.2]

end

section
variable {cfg : Config} {fuel : Nat} {s s' : World State Mutexes} {a : World View Mutexes}

lemma WorldSim.inherits_iff (hs : WorldSim s a) :
    Inherits (stateSched cfg fuel) s ↔ Inherits (viewSched cfg) a := by
  simp only [Inherits, World.Waiting, World.prio, stateSched_task, viewSched_task, hs.obj,
    hs.call, hs.kernel.task]

lemma WorldSim.boostOk_iff (hs : WorldSim s a) (op : WorldOp MutexOp) :
    BoostOk (stateSched cfg fuel) s op ↔ BoostOk (viewSched cfg) a op := by
  rcases op with op | (⟨m, waitTime, now, alloc⟩ | _ | m)
  · exact Iff.rfl
  · simp only [BoostOk, hs.waiting, World.prio, stateSched_task, viewSched_task, hs.obj,
      hs.kernel.task, hs.caller]
  · exact Iff.rfl
  · simp only [BoostOk, hs.waiting, World.prio, stateSched_task, viewSched_task, hs.obj,
      hs.kernel.task, hs.caller, hs.kernel.first]

theorem mutexRun_inherits_iff (hs : MutexFresh s) (ops : List (WorldOp MutexOp)) :
    Always (mutexStep (stateSched cfg fuel)) (Inherits (stateSched cfg fuel)) s ops ↔
      Each (mutexStep (stateSched cfg fuel)) (BoostOk (stateSched cfg fuel)) s ops := by
  obtain ⟨a, hsim, hi, hpend⟩ := hs.mutexInv
  have hI : ∀ {s op s'}, (∃ a, WorldSim s a ∧ MutexInv a) →
      mutexStep (stateSched cfg fuel) s op = some s' → ∃ a, WorldSim s' a ∧ MutexInv a := by
    rintro s op s' ⟨a, hsim, hi⟩ h
    obtain ⟨a', hsim', -, hi'⟩ := hi.run_step hsim h
    exact ⟨a', hsim', hi'⟩
  refine always_iff_each hI ?_ ⟨a, hsim, hi⟩ ?_
  · rintro s op s' ⟨a, hsim, hi⟩ hp h
    obtain ⟨a', hsim', htr, hi'⟩ := hi.run_step hsim h
    rw [hsim.inherits_iff] at hp
    rw [hsim'.inherits_iff, hsim.boostOk_iff]
    exact htr.inherits_iff_boostOk hi hi' hp
  · rw [hsim.inherits_iff, Kernel.inherits_iff hi]
    simp [hpend]

end

def Calm {κ : Type} (k : Sched κ) (s : World κ Mutexes) : WorldOp MutexOp → Bool
  | .act (.obtain m _ _ _) =>
    decide (∀ t ∈ s.caller k, ∀ h ∈ (s.obj.mutex m).holder, ¬ s.prio k h < s.prio k t)
  | .act (.abandon _) => false
  | _ => true

lemma Calm.boostOk {κ : Type} {k : Sched κ} {s : World κ Mutexes} {op : WorldOp MutexOp}
    (h : Calm k s op = true) : BoostOk k s op := by
  rcases op with op | (⟨m, waitTime, now, alloc⟩ | _ | m)
  · trivial
  · intro t h' ht hh _ _ hlt
    exact absurd hlt (of_decide_eq_true h t ht h' hh)
  · trivial
  · cases h

theorem mutexRun_inherits_iff_sample :
    Always (mutexStep (stateSched sampleConfig 20)) (Inherits (stateSched sampleConfig 20))
      sampleMutexes [.kernel (.start 3), .kernel (.start 9), .kernel (.dispatch 9),
        .act (.obtain 1 50 0 true), .kernel (.dispatch 3), .act (.obtain 1 50 0 true)] := by
  rw [mutexRun_inherits_iff sampleMutexes_fresh]
  have hcalm : Each (mutexStep (stateSched sampleConfig 20))
      (fun s op => Calm (stateSched sampleConfig 20) s op = true) sampleMutexes
      [.kernel (.start 3), .kernel (.start 9), .kernel (.dispatch 9), .act (.obtain 1 50 0 true),
        .kernel (.dispatch 3), .act (.obtain 1 50 0 true)] := by
    decide +kernel
  exact hcalm.mono fun _ _ => Calm.boostOk

theorem mutexRun_inverts :
    ∃ s, runs (mutexStep (stateSched sampleConfig 20)) sampleMutexes
        [.kernel (.start 3), .kernel (.start 5), .kernel (.start 9), .kernel (.dispatch 3),
          .act (.obtain 1 50 0 true), .kernel (.dispatch 9), .act (.obtain 1 50 0 true),
            .kernel (.dispatch 5),
          .act (.obtain 1 50 0 true), .kernel (.dispatch 3), .act (.abandon 1)] = some s ∧
      (s.obj.mutex 1).holder = some 5 ∧ s.Waiting (stateSched sampleConfig 20) 1 9 ∧
      ¬ Inherits (stateSched sampleConfig 20) s := by
  have hrun : (runs (mutexStep (stateSched sampleConfig 20)) sampleMutexes
      [.kernel (.start 3), .kernel (.start 5), .kernel (.start 9), .kernel (.dispatch 3),
        .act (.obtain 1 50 0 true), .kernel (.dispatch 9), .act (.obtain 1 50 0 true),
          .kernel (.dispatch 5),
        .act (.obtain 1 50 0 true), .kernel (.dispatch 3), .act (.abandon 1)]).map (fun s =>
          ((s.obj.mutex 1).holder, s.call 9, (s.kernel.task 9).stat, (s.kernel.task 5).curPrio,
            (s.kernel.task 9).curPrio)) = some (some 5, some (1, false), .suspend, 5, 9) := by
    decide +kernel
  obtain ⟨s, hs, h⟩ := Option.map_eq_some_iff.mp hrun
  simp only [Prod.mk.injEq] at h
  obtain ⟨hholder, hcall, hstat, hprio5, hprio9⟩ := h
  refine ⟨s, hs, hholder, ⟨hcall, hstat⟩, fun hinherits => ?_⟩
  have hle := hinherits 1 5 9 hholder ⟨hcall, hstat⟩
  simp only [World.prio, stateSched_task, hprio5, hprio9] at hle
  exact absurd hle (by decide)

end Xiuos.Kernel
