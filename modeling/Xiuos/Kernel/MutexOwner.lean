import Xiuos.Kernel.MutexLaws

namespace Xiuos.Kernel
open Lib Function Option Mutexes UInt8
variable {cfg : Config}

def Counted (mutex : Mutex) (excess : Nat → Int) : Prop :=
  (mutex.holder = none ∧ mutex.recursiveCnt = 0 ∧ ∀ t, excess t = 0) ∨
    ∃ h, mutex.holder = some h ∧ (mutex.recursiveCnt.toNat : Int) = excess h ∧ 0 < excess h ∧
      ∀ t ≠ h, excess t = 0

def NestOk {κ : Type} (k : Sched κ) (s : World κ Mutexes) : WorldOp MutexOp → Prop
  | .act (.obtain m _ _ _) => ∀ t, s.caller k = some t → s.obj.excess m t < 255
  | _ => True

instance {κ : Type} (k : Sched κ) (s : World κ Mutexes) : ∀ op, Decidable (NestOk k s op)
  | .act (.obtain m _ _ _) => inferInstanceAs (Decidable (∀ t ∈ s.caller k, s.obj.excess m t < 255))
  | .act .finish | .act (.abandon _) | .kernel _ => isTrue trivial

variable {excess : Nat → Int} {mutex : Mutex}

lemma Counted.of_holder {t : Nat} (h : Counted mutex excess) (hh : mutex.holder = some t) :
    (mutex.recursiveCnt.toNat : Int) = excess t ∧ 0 < excess t ∧ ∀ u ≠ t, excess u = 0 := by
  obtain ⟨hnone, -⟩ | ⟨h', hsome, hrest⟩ := h
  · rw [hh] at hnone
    cases hnone
  · rw [hh] at hsome
    cases hsome
    exact hrest

lemma recursiveCnt_add_one {n : UInt8} (h : n.toNat < 255) : (n + 1).toNat = n.toNat + 1 := by
  rw [UInt8.toNat_add]
  exact Nat.mod_eq_of_lt (by simpa using by omega)

lemma recursiveCnt_sub_one {n : UInt8} (h : 0 < n.toNat) : (n - 1).toNat = n.toNat - 1 := by
  have hle : 1 ≤ n := le_iff_toNat_le.mpr h
  rw [UInt8.toNat_sub_of_le _ _ hle]
  rfl

variable {op : WorldOp MutexOp} {m : Nat}

section
variable {a a' : World View Mutexes}

lemma counted_update (hc : ∀ k, Counted (a.obj.mutex k) (a.obj.excess k))
    (hm : Counted mutex excess) (k : Nat) :
    Counted (update a.obj.mutex m mutex k) (update a.obj.excess m excess k) := by
  by_cases hk : k = m
  · subst hk
    simpa using hm
  · rw [update_of_ne hk, update_of_ne hk]
    exact hc k

lemma MutexTr.counted (hi : MutexInv a) (hc : ∀ k, Counted (a.obj.mutex k) (a.obj.excess k))
    (hnest : NestOk (viewSched cfg) a op) (h : MutexTr cfg a op a') :
    ∀ k, Counted (a'.obj.mutex k) (a'.obj.excess k) := by
  cases h with
  | kernel => exact hc
  | @again m t waitTime now alloc ht hh =>
    obtain ⟨hr, hpos, hne⟩ := (hc m).of_holder hh
    have hlt := hnest t ht
    have hadd := recursiveCnt_add_one (show (a.obj.mutex m).recursiveCnt.toNat < 255 by omega)
    refine counted_update hc ?_
    refine .inr ⟨t, hh, ?_, ?_, fun u hu => ?_⟩
    · simp only [set_excess, update_self, hadd]
      omega
    · simp only [set_excess, update_self]
      omega
    · simp [hu, hne u hu]
  | @take m t waitTime now alloc ht hh hv =>
    obtain ⟨hn, hr, he⟩ | ⟨h, hholder, -⟩ := hc m
    · refine counted_update hc ?_
      refine .inr ⟨t, rfl, ?_, ?_, fun u hu => ?_⟩
      · simp [hr, he]
      · simp [he]
      · simp [hu, he]
    · simp [(hi.held m).of_holder hholder] at hv
  | refuse => exact hc
  | wait => exact hc
  | finish => exact hc
  | denied => exact hc
  | @nested m t ht hh hcnt =>
    obtain ⟨hr, hpos, hne⟩ := (hc m).of_holder hh
    have hsub := recursiveCnt_sub_one (show 0 < (a.obj.mutex m).recursiveCnt.toNat by omega)
    have hcnt : (a.obj.mutex m).recursiveCnt.toNat ≠ 1 := fun h => hcnt (by
      rw [← UInt8.toNat_inj, hsub, h]
      rfl)
    refine counted_update hc ?_
    refine .inr ⟨t, hh, ?_, ?_, fun u hu => ?_⟩
    · simp only [set_excess, update_self, hsub]
      omega
    · simp only [set_excess, update_self]
      omega
    · simp [hu, hne u hu]
  | @free m t ht hh hcnt hp =>
    obtain ⟨hr, hpos, hne⟩ := (hc m).of_holder hh
    have hsub := recursiveCnt_sub_one (show 0 < (a.obj.mutex m).recursiveCnt.toNat by omega)
    simp only [hcnt, UInt8.toNat_zero] at hsub
    refine counted_update hc ?_
    refine .inl ⟨rfl, rfl, fun u => ?_⟩
    by_cases hu : u = t
    · subst hu
      simp only [set_excess, update_self]
      omega
    · simp [hu, hne u hu]
  | @pass m t u us ht hh hcnt hp hut =>
    obtain ⟨hr, hpos, hne⟩ := (hc m).of_holder hh
    have hsub := recursiveCnt_sub_one (show 0 < (a.obj.mutex m).recursiveCnt.toNat by omega)
    simp only [hcnt, UInt8.toNat_zero] at hsub
    intro k
    simp only [World.setCall, count_mutex, set_mutex, count_excess,
      set_excess, update_self, update_idem]
    refine counted_update hc ?_ k
    refine .inr ⟨u, rfl, ?_, ?_, fun w hw => ?_⟩
    · simp [hut, hne u hut]
    · simp [hut, hne u hut]
    · by_cases hwt : w = t
      · subst hwt
        simp only [hw, ne_eq, not_false_eq_true, update_of_ne, update_self]
        omega
      · simp [hw, hwt, hne w hwt]

variable {κ : Type} (k : Sched κ)

structure MutexOk (s : World κ Mutexes) (m : Nat) : Prop where
  held : (s.obj.mutex m).holder.isSome ↔ (s.obj.mutex m).val = 0
  exceeds : ∀ t, (s.obj.mutex m).holder = some t ↔ 0 < s.obj.excess m t
  others : ∀ t, (s.obj.mutex m).holder ≠ some t → s.obj.excess m t = 0
  recursive : ∀ t, (s.obj.mutex m).holder = some t →
    ((s.obj.mutex m).recursiveCnt.toNat : Int) = s.obj.excess m t

/-- How a mutex gets a new holder: from a task whose excess drops to zero to one that waits, or
from nobody to one that obtains it. -/
structure Handover (s s' : World κ Mutexes) (op : WorldOp MutexOp) (m : Nat) : Prop where
  drops : ∀ t, (s.obj.mutex m).holder = some t →
    ((s'.obj.mutex m).holder ≠ some t ↔ s'.obj.excess m t = 0)
  gains : ∀ u, (s'.obj.mutex m).holder = some u → (s.obj.mutex m).holder ≠ some u →
    (∃ t, (s.obj.mutex m).holder = some t ∧ s'.obj.excess m t = 0 ∧ op = .act (.abandon m) ∧
      s.caller k = some t ∧ k.first s.kernel m = some u ∧ s.call u = some (m, false) ∧
      s'.call u = some (m, true)) ∨
    ((s.obj.mutex m).holder = none ∧ s.caller k = some u ∧
      ∃ waitTime now alloc, op = .act (.obtain m waitTime now alloc))

variable {a a' : World View Mutexes}

lemma Counted.ok (hm : Counted (a.obj.mutex m) (a.obj.excess m))
    (hh : Held (a.obj.mutex m) (a.kernel.pend m)) : MutexOk a m := by
  obtain ⟨hn, hr, he⟩ | ⟨h, hholder, hr, hpos, hother⟩ := hm
  · obtain ⟨hv, -⟩ | ⟨-, h, hholder⟩ := hh
    · exact ⟨by simp [hn, hv], by simp [hn, he], fun t _ => he t, fun t ht => by simp [hn] at ht⟩
    · rw [hn] at hholder
      cases hholder
  · refine ⟨by simp [hholder, hh.of_holder hholder], fun t => ?_, fun t ht => ?_, fun t ht => ?_⟩
    · by_cases hth : t = h
      · subst hth
        simp [hholder, hpos]
      · simp [hholder, hother t hth, Ne.symm hth]
    · refine hother t fun he => ht ?_
      rw [he, hholder]
    · rw [hholder] at ht
      cases ht
      exact hr

lemma MutexTr.handover (hi : MutexInv a) (h : MutexTr cfg a op a') (hok : MutexOk a' m) :
    Handover (viewSched cfg) a a' op m := by
  refine ⟨fun t ht => ⟨hok.others t, fun h0 ht' => ?_⟩, fun u hu hne => ?_⟩
  · have := (hok.exceeds t).mp ht'
    omega
  obtain hold | hfree | ⟨t, us, ht, hcaller, rfl, hp, hut, hcall, -⟩ := h.gains hi hu
  · exact absurd hold hne
  · exact .inr hfree
  · refine .inl ⟨t, ht, hok.others t ?_, rfl, hcaller, by simp [hp], ?_, hcall⟩
    · rw [hu, ne_eq, Option.some.injEq]
      exact hut
    · obtain ⟨s, hs⟩ := hi.sim
      exact (hi.calls.of_mem hs (by simp [hp])).1

lemma MutexInv.obtain_some (cfg : Config) (hi : MutexInv a) (m t : Nat) (waitTime : Int32)
    (now : UInt32) (alloc : Bool) :
    ∃ r, mutexObtain (viewSched cfg) a.kernel (a.obj.mutex m) m t waitTime now alloc = some r ∧
      (r.2.2 = .returned eok ↔ (a.obj.mutex m).holder = some t ∨
        (a.obj.mutex m).holder = none) := by
  simp only [mutexObtain]
  by_cases hh : (a.obj.mutex m).holder = some t
  · rw [if_pos hh]
    exact ⟨_, rfl, by simp [hh]⟩
  rw [if_neg hh]
  obtain ⟨hv, hn, -⟩ | ⟨hv, h, hholder⟩ := hi.held m
  · rw [if_pos (by simp [hv])]
    exact ⟨_, rfl, by simp [hn]⟩
  · rw [if_neg (by simp [hv])]
    by_cases hw : waitTime = 0
    · rw [if_pos hw]
      refine ⟨_, rfl, iff_of_false (by simp [eok, etimeout]) ?_⟩
      simpa [hholder] using hh
    · rw [if_neg hw]
      simp only [hholder, View.inheritPrio_eq, View.startTimer_eq, viewSched_linklistSuspend,
        bind_eq_bind, bind_some]
      refine ⟨_, rfl, iff_of_false (by simp) ?_⟩
      simpa [hholder] using hh

lemma abandon_some (cfg : Config) (v : View) (mutex : Mutex) (m t : Nat) :
    ∃ r, mutexAbandon (viewSched cfg) v mutex m t = some r ∧
      (r.2.2 = eok ↔ mutex.holder = some t) := by
  simp only [mutexAbandon]
  by_cases hh : mutex.holder = some t
  · rw [if_neg (not_not.mpr hh)]
    by_cases hcnt : mutex.recursiveCnt - 1 = 0
    · simp only [hcnt, if_true, View.restorePrio_eq, bind_eq_bind, bind_some,
        mutexPass, viewSched_first, viewSched_linklistResume, View.restore_pend]
      cases v.pend m with
      | nil => exact ⟨_, rfl, by simp [hh]⟩
      | cons u us => exact ⟨_, rfl, by simp [hh]⟩
    · rw [if_neg hcnt]
      exact ⟨_, rfl, by simp [hh]⟩
  · rw [if_pos hh]
    exact ⟨_, rfl, by simp [hh, eok, error]⟩

end

section
variable {fuel : Nat} {s s' : World State Mutexes} {a : World View Mutexes}

lemma WorldSim.nestOk (hs : WorldSim s a) (h : NestOk (stateSched cfg fuel) s op) :
    NestOk (viewSched cfg) a op := by
  rcases op with op | (⟨m, waitTime, now, alloc⟩ | _ | m)
  · trivial
  · intro t ht
    rw [← hs.obj]
    exact h t (hs.caller fuel ▸ ht)
  · trivial
  · trivial

def OwnerInv (s : World State Mutexes) (a : World View Mutexes) : Prop :=
  WorldSim s a ∧ MutexInv a ∧ ∀ m, Counted (a.obj.mutex m) (a.obj.excess m)

lemma MutexFresh.ownerInv (hs : MutexFresh s) : ∃ a, OwnerInv s a := by
  obtain ⟨a, hsim, hi, -⟩ := hs.mutexInv
  refine ⟨a, hsim, hi, fun m => ?_⟩
  rw [← hsim.obj, hs.mutex]
  exact .inl ⟨rfl, rfl, hs.excess m⟩

lemma OwnerInv.step (hi : OwnerInv s a) (hnest : NestOk (stateSched cfg fuel) s op)
    (h : mutexStep (stateSched cfg fuel) s op = some s') :
    ∃ a', MutexTr cfg a op a' ∧ OwnerInv s' a' := by
  obtain ⟨hsim, hi, hc⟩ := hi
  obtain ⟨a', hsim', htr, hi'⟩ := hi.run_step hsim h
  exact ⟨a', htr, hsim', hi', htr.counted hi hc (hsim.nestOk hnest)⟩

lemma MutexOk.of_sim (hs : WorldSim s a) (h : MutexOk a m) : MutexOk s m := by
  constructor
  · rw [hs.obj]
    exact h.held
  · rw [hs.obj]
    exact h.exceeds
  · rw [hs.obj]
    exact h.others
  · rw [hs.obj]
    exact h.recursive

lemma Handover.of_sim {a' : World View Mutexes} (hs : WorldSim s a) (hs' : WorldSim s' a')
    (h : Handover (viewSched cfg) a a' op m) : Handover (stateSched cfg fuel) s s' op m := by
  constructor
  · rw [hs.obj, hs'.obj]
    exact h.drops
  · rw [hs.obj, hs'.obj, hs.caller, hs.kernel.first, hs.call, hs'.call]
    exact h.gains

/-- In every state that a run reaches the holder of a mutex is the task whose obtains exceed its
abandons, only its abandon succeeds, an obtain that had to wait succeeds exactly when the mutex
was handed to it, and the next step hands a mutex over as it should. -/
theorem mutexRun_owned {ops : List (WorldOp MutexOp)} (hs : MutexFresh s)
    (hnest : Each (mutexStep (stateSched cfg fuel)) (NestOk (stateSched cfg fuel)) s ops)
    (hrun : runs (mutexStep (stateSched cfg fuel)) s ops = some s') :
    (∀ m, MutexOk s' m) ∧
    (∀ m t, s'.caller (stateSched cfg fuel) = some t →
      Returns (fun fuel => mutexAbandon (stateSched cfg fuel) s'.kernel (s'.obj.mutex m) m t)
        fun r => (r.2.2 = eok ↔ (s'.obj.mutex m).holder = some t)) ∧
    (∀ m t waitTime now alloc, s'.caller (stateSched cfg fuel) = some t →
      Returns (fun fuel => mutexObtain (stateSched cfg fuel) s'.kernel (s'.obj.mutex m) m t waitTime
        now alloc) fun r => (r.2.2 = .returned eok ↔
          (s'.obj.mutex m).holder = some t ∨ (s'.obj.mutex m).holder = none)) ∧
    (∀ m t got, (stateSched cfg fuel).caller s'.kernel = some t → s'.call t = some (m, got) →
      (s'.kernel.task t).exstatus = if got then eok else -etimeout) ∧
    ∀ op s'', NestOk (stateSched cfg fuel) s' op →
      mutexStep (stateSched cfg fuel) s' op = some s'' →
        ∀ m, Handover (stateSched cfg fuel) s' s'' op m := by
  have hstep : ∀ {s op s'}, (∃ a, OwnerInv s a) → NestOk (stateSched cfg fuel) s op →
      mutexStep (stateSched cfg fuel) s op = some s' → ∃ a, OwnerInv s' a := by
    rintro s op s' ⟨a, ha⟩ hop h
    obtain ⟨a', -, ha'⟩ := ha.step hop h
    exact ⟨a', ha'⟩
  obtain ⟨a, hinv⟩ := (always_of_each hstep hs.ownerInv hnest).last hrun
  have ⟨hsim, hi, hc⟩ := hinv
  refine ⟨fun m => ((hc m).ok (hi.held m)).of_sim hsim, fun m t _ => ?_,
    fun m t waitTime now alloc ht => ?_, fun m t got ht hcall => ?_, fun op s'' hop hstep m => ?_⟩
  · obtain ⟨r, hr, hret⟩ := abandon_some cfg a.kernel (s'.obj.mutex m) m t
    have hfollows : Follows _ (mutexAbandon (viewSched cfg) a.kernel (s'.obj.mutex m) m t) _ :=
      hsim.kernel.mutexAbandon (s'.obj.mutex m) m t
    rw [hr] at hfollows
    exact Returns.mono hfollows fun r' hr' => by rw [hr'.2, hret]
  · rw [hsim.caller] at ht
    obtain ⟨r, hr, hret⟩ := hi.obtain_some cfg m t waitTime now alloc
    have hfollows := hsim.kernel.mutexObtain (World.of_caller ht).1 (a.obj.mutex m) m waitTime now
      alloc
    rw [hr] at hfollows
    rw [hsim.obj]
    exact Returns.mono hfollows fun r' hr' => by rw [hr'.2, hret]
  · rw [hsim.kernel.caller] at ht
    rw [hsim.call] at hcall
    rw [hsim.kernel.task]
    exact hi.calls.result hsim.kernel (Sim.of_caller ht).2 hcall
  · obtain ⟨a'', htr, hsim'', hi'', hc''⟩ := hinv.step hop hstep
    exact (htr.handover hi ((hc'' m).ok (hi''.held m))).of_sim hsim hsim''

end

theorem mutexRun_owned_sample :
    ∃ s, runs (mutexStep (stateSched sampleConfig 20)) sampleMutexes
        [.kernel (.start 3), .kernel (.start 9), .kernel (.dispatch 3),
          .act (.obtain 1 (-1) 0 true),
          .act (.obtain 1 (-1) 0 true), .kernel (.dispatch 9), .act (.obtain 1 50 7 true),
            .kernel (.dispatch 3),
          .act (.abandon 1), .act (.abandon 1)] = some s ∧
      (s.obj.mutex 1).holder = some 9 ∧ s.obj.excess 1 9 = 1 ∧ MutexOk s 1 := by
  have hrun : (runs (mutexStep (stateSched sampleConfig 20)) sampleMutexes
      [.kernel (.start 3), .kernel (.start 9), .kernel (.dispatch 3), .act (.obtain 1 (-1) 0 true),
        .act (.obtain 1 (-1) 0 true), .kernel (.dispatch 9), .act (.obtain 1 50 7 true),
          .kernel (.dispatch 3),
        .act (.abandon 1), .act (.abandon 1)]).map (fun s =>
          ((s.obj.mutex 1).holder, s.obj.excess 1 9)) =
      some (some 9, 1) := by
    decide +kernel
  obtain ⟨s, hs, h⟩ := map_eq_some_iff.mp hrun
  simp only [Prod.mk.injEq] at h
  exact ⟨s, hs, h.1, h.2, (mutexRun_owned sampleMutexes_fresh (by decide +kernel) hs).1 1⟩

end Xiuos.Kernel
