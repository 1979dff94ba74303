import Xiuos.Kernel.Semaphore
import Xiuos.Lib.Count

namespace Xiuos.Kernel
open Lib Function Option Semaphores
variable {a a' : World View Semaphores} {cfg : Config}

inductive SemTr (cfg : Config) (a : World View Semaphores) : SemOp → World View Semaphores → Prop
  | take {m t : Nat} {waitTime : Int32} {now : UInt32} {alloc : Bool}
      (ht : a.caller (viewSched cfg) = some t) (hv : 0 < (a.obj.sem m).value) :
      SemTr cfg a (.obtain m waitTime now alloc) { a with
        obj := (a.obj.set m ⟨(a.obj.sem m).value - 1⟩).countObtain m }
  | refuse {m t : Nat} {now : UInt32} {alloc : Bool} (ht : a.caller (viewSched cfg) = some t)
      (hv : (a.obj.sem m).value = 0) : SemTr cfg a (.obtain m 0 now alloc) a
  | wait {m t : Nat} {waitTime : Int32} {now : UInt32} {alloc : Bool}
      (ht : a.caller (viewSched cfg) = some t) (hv : (a.obj.sem m).value = 0) (hw : waitTime ≠ 0) :
      SemTr cfg a (.obtain m waitTime now alloc) ({ a with
        kernel := ((a.kernel.setExstatus t eok).suspend m t .prio).timer t waitTime now alloc
        }.setCall t (some (m, false)))
  | finish {t : Nat} {c : Call} (ht : a.waker (viewSched cfg) = some (t, c)) :
      SemTr cfg a .finish (a.setCall t none)
  | resume {m u : Nat} {us : List Nat} (hp : a.kernel.pend m = u :: us) :
      SemTr cfg a (.abandon m) ({ a with
        kernel := a.kernel.release u (a.kernel.task u).exstatus
        obj := (a.obj.countAbandon m).countObtain m }.setCall u (some (m, true)))
  | give {m : Nat} (hp : a.kernel.pend m = []) :
      SemTr cfg a (.abandon m) { a with
        obj := (a.obj.set m ⟨(a.obj.sem m).value + 1⟩).countAbandon m }

variable {op : SemOp}

section

@[simp] lemma Semaphores.set_same (o : Semaphores) (m : Nat) : o.set m (o.sem m) = o := by
  simp [Semaphores.set]

lemma semTr_of_act (h : semAct (viewSched cfg) a op = some a') : SemTr cfg a op a' := by
  cases op with
  | obtain m waitTime now alloc =>
    obtain ⟨t, ht, h⟩ := bind_eq_some_iff.mp h
    simp only [semaphoreObtain, viewSched_setExstatus] at h
    by_cases hv : 0 < (a.obj.sem m).value
    · rw [if_pos hv] at h
      cases h
      exact .take ht hv
    have hv0 : (a.obj.sem m).value = 0 := by simpa using hv
    rw [if_neg hv] at h
    by_cases hw : waitTime = 0
    · rw [if_pos hw] at h
      cases h
      subst hw
      simp only [set_same]
      exact .refuse ht hv0
    · simp only [if_neg hw, viewSched_linklistSuspend, View.startTimer_eq, bind_eq_bind,
        bind_some] at h
      cases h
      simp only [set_same]
      exact .wait ht hv0 hw
  | finish =>
    obtain ⟨⟨t, c⟩, ht, h⟩ := bind_eq_some_iff.mp h
    cases h
    exact .finish ht
  | abandon m =>
    simp only [semAct, semaphoreAbandon, viewSched_first, viewSched_linklistResume] at h
    cases hp : a.kernel.pend m with
    | nil =>
      simp only [hp, List.head?_nil, bind_eq_bind, bind_some] at h
      cases h
      exact .give hp
    | cons u us =>
      simp only [hp, List.head?_cons, map_some, bind_eq_bind, bind_some] at h
      cases h
      simp only [set_same]
      exact .resume hp

variable {κ : Type} (k : Sched κ)

def Accounts (init : Nat → Nat) (o : Semaphores) : Prop :=
  ∀ m, ((o.sem m).value.toNat : Int) = init m + o.abandons m - o.obtains m

/-- The semaphores after a run: nobody waits where something is left, the accounts are right, and
an obtain that had to wait returns success exactly when it was resumed. -/
structure SemOk (init : Nat → Nat) (w : World κ Semaphores) : Prop where
  pending : ∀ m, k.first w.kernel m ≠ none → (w.obj.sem m).value = 0
  account : Accounts init w.obj
  result : ∀ t m resumed, w.waker k = some (t, m, resumed) →
    (k.task w.kernel t).exstatus = if resumed then eok else -etimeout

def Completes (w : World κ Semaphores) (m : Nat) (w' : World κ Semaphores) : Prop :=
  ∃ u, w.Waiting k m u ∧ w'.call u = some (m, true) ∧
    (∀ j t, w'.Waiting k j t ↔ w.Waiting k j t ∧ t ≠ u) ∧ w'.obj.sem = w.obj.sem ∧
    w'.obj.obtains m = w.obj.obtains m + 1

def Adds (w : World κ Semaphores) (m : Nat) (w' : World κ Semaphores) : Prop :=
  (w'.obj.sem m).value.toNat = (w.obj.sem m).value.toNat + 1 ∧
    (∀ j t, w'.Waiting k j t ↔ w.Waiting k j t) ∧ w'.obj.obtains = w.obj.obtains

def SemStepOk (w : World κ Semaphores) (op : WorldOp SemOp) (w' : World κ Semaphores) : Prop :=
  match op with
  | .act (.abandon m) => Completes k w m w' ∨ Adds k w m w'
  | _ => ∀ m, (w'.obj.sem m).value.toNat + w'.obj.obtains m =
      (w.obj.sem m).value.toNat + w.obj.obtains m

def CountOk (w : World κ Semaphores) : WorldOp SemOp → Prop
  | .act (.abandon m) => k.first w.kernel m = none → (w.obj.sem m).value ≠ 0xffff
  | _ => True

instance (w : World κ Semaphores) : ∀ op, Decidable (CountOk k w op)
  | .act (.abandon m) =>
    inferInstanceAs (Decidable (k.first w.kernel m = none → (w.obj.sem m).value ≠ 0xffff))
  | .act (.obtain ..) | .act .finish | .kernel _ => isTrue trivial

end

section

lemma WorldInv.semTr (hi : WorldInv a) (h : semAct (viewSched cfg) a op = some a') :
    WorldInv a' := by
  obtain ⟨w, hw⟩ := hi.exists_sim
  obtain ⟨s, hs⟩ := hi.sim
  obtain ⟨w', hw'⟩ := (hw.semAct op).exists_of_some h
  refine ⟨⟨_, hw'.kernel⟩, ?_⟩
  cases semTr_of_act h with
  | take => exact hi.calls
  | refuse => exact hi.calls
  | @wait m t waitTime now alloc ht hv hw =>
    exact (hi.calls.begin (World.of_caller ht).2 m).congr (by simp [World.setCall])
      (by simp [World.setCall]) (by simp [World.setCall])
  | finish ht => exact hi.calls.finish hs (Sim.of_caller (World.of_waker ht).1).2
  | @resume m u us hp =>
    exact hi.calls.release m hs.nodup (hi.calls.of_mem hs (show u ∈ a.kernel.pend m by simp [hp])).2
  | give => exact hi.calls

def Pending (a : World View Semaphores) : Prop :=
  ∀ m u, u ∈ a.kernel.pend m → (a.obj.sem m).value = 0

lemma Pending.kernel (hp : Pending a) (hi : WorldInv a) {op : KernelOp} {v : View}
    (h : a.KernelTr cfg op v) : Pending { a with kernel := v } := by
  obtain ⟨s, hs⟩ := hi.sim
  exact fun m u hu => hp m u (View.mem_of_step hs.waits h.step hu)

lemma Pending.semTr (hp : Pending a) (h : SemTr cfg a op a') : Pending a' := by
  cases h with
  | @take m t waitTime now alloc ht hv =>
    intro j u hu
    by_cases hj : j = m
    · subst hj
      have h0 := hp j u hu
      simp [h0] at hv
    · simpa [Semaphores.set, Semaphores.countObtain, hj] using hp j u hu
  | refuse => exact hp
  | @wait m t waitTime now alloc ht hv hw =>
    intro j u hu
    by_cases hj : j = m
    · rw [hj]
      exact hv
    · refine hp j u ?_
      simpa [World.setCall, View.suspend_pend, hj] using hu
  | finish => exact hp
  | resume =>
    intro j w hw
    exact hp j w (List.mem_of_mem_erase hw)
  | @give m hnil =>
    intro j u hu
    by_cases hj : j = m
    · subst hj
      rw [hnil] at hu
      cases hu
    · simpa [Semaphores.set, Semaphores.countAbandon, hj] using hp j u hu

variable {init : Nat → Nat}

lemma accounts_update {o o' : Semaphores} (m : Nat) (h : Accounts init o)
    (hm : ((o'.sem m).value.toNat : Int) - (o.sem m).value.toNat =
      ((o'.abandons m : Int) - o.abandons m) - ((o'.obtains m : Int) - o.obtains m))
    (hother : ∀ j ≠ m, o'.sem j = o.sem j ∧ o'.abandons j = o.abandons j ∧
      o'.obtains j = o.obtains j)
    : Accounts init o' := by
  intro j
  have hj := h j
  by_cases hjm : j = m
  · subst hjm
    omega
  · obtain ⟨h1, h2, h3⟩ := hother j hjm
    rw [h1, h2, h3]
    exact hj

lemma SemTr.ok_iff (hi : WorldInv a) (hi' : WorldInv a') (hacc : Accounts init a.obj)
    (h : SemTr cfg a op a') :
    (Accounts init a'.obj ∧ SemStepOk (viewSched cfg) a (.act op) a') ↔
      CountOk (viewSched cfg) a (.act op) := by
  cases h with
  | @take m t waitTime now alloc ht hv =>
    have hsub := toNat_sub_one hv
    refine iff_of_true ⟨accounts_update m hacc ?_ fun j hj => ?_, fun j => ?_⟩ trivial
    · simp only [Semaphores.set, Semaphores.countObtain, update_self]
      omega
    · simp [Semaphores.set, Semaphores.countObtain, hj]
    · by_cases hj : j = m
      · subst hj
        simp only [Semaphores.set, Semaphores.countObtain, update_self]
        omega
      · simp [Semaphores.set, Semaphores.countObtain, hj]
  | refuse => exact iff_of_true ⟨hacc, fun _ => rfl⟩ trivial
  | wait => exact iff_of_true ⟨hacc, fun _ => rfl⟩ trivial
  | finish => exact iff_of_true ⟨hacc, fun _ => rfl⟩ trivial
  | @resume m u us hp =>
    obtain ⟨s, hs⟩ := hi.sim
    have hu : u ∈ a.kernel.pend m := by simp [hp]
    refine iff_of_true ⟨accounts_update m hacc ?_ fun j hj => ?_, .inl ⟨u, ?_, ?_, ?_, rfl, ?_⟩⟩ ?_
    · simp only [World.setCall, Semaphores.countAbandon, Semaphores.countObtain, update_self]
      omega
    · simp [World.setCall, Semaphores.countAbandon, Semaphores.countObtain, hj]
    · exact hi.waiting_iff.mpr hu
    · simp [World.setCall]
    · intro j t
      rw [hi'.waiting_iff, hi.waiting_iff]
      simp only [World.setCall, View.release_pend, (hs.nodup j).mem_erase_iff]
      exact and_comm
    · simp [World.setCall, Semaphores.countAbandon, Semaphores.countObtain]
    · intro hn
      simp [hp] at hn
  | @give m hp =>
    constructor
    · rintro ⟨hacc', -⟩ - hmax
      have h := hacc m
      have h' := hacc' m
      simp only [Semaphores.set, Semaphores.countAbandon, update_self, hmax] at h h'
      have h0 : ((0xffff : UInt16) + 1).toNat = 0 := by decide
      have h1 : (0xffff : UInt16).toNat = 65535 := by decide
      omega
    · intro hok
      have hadd := toNat_add_one (hok (by simp [hp]))
      refine ⟨accounts_update m hacc ?_ fun j hj => ?_, .inr ⟨?_, fun _ _ => Iff.rfl, rfl⟩⟩
      · simp only [Semaphores.set, Semaphores.countAbandon, update_self]
        omega
      · simp [Semaphores.set, Semaphores.countAbandon, hj]
      · simpa [Semaphores.set, Semaphores.countAbandon] using hadd

lemma WorldInv.semOk (hi : WorldInv a) (hp : Pending a) (hacc : Accounts init a.obj) :
    SemOk (viewSched cfg) init a := by
  obtain ⟨s, hs⟩ := hi.sim
  refine ⟨fun m hm => ?_, hacc, fun t m resumed ht => ?_⟩
  · obtain ⟨u, hu⟩ := ne_none_iff_exists'.mp hm
    exact hp m u (List.mem_of_mem_head? hu)
  · obtain ⟨hcaller, hcall⟩ := World.of_waker ht
    exact hi.calls.result hs (Sim.of_caller hcaller).2 hcall

def SemInv (w : World State Semaphores) (a : World View Semaphores) : Prop :=
  WorldSim w a ∧ WorldInv a ∧ Pending a

lemma SemInv.step {fuel : Nat} {w w' : World State Semaphores} {op : WorldOp SemOp}
    (init : Nat → Nat) (hi : SemInv w a) (h : semStep (stateSched cfg fuel) w op = some w') :
    ∃ a', SemInv w' a' ∧ (Accounts init a.obj →
      ((Accounts init a'.obj ∧ SemStepOk (viewSched cfg) a op a') ↔
        CountOk (viewSched cfg) a op)) := by
  obtain ⟨hsim, hi, hp⟩ := hi
  obtain ⟨a', ha', hsim'⟩ := (hsim.semStep op).post h
  refine ⟨a', ?_⟩
  obtain ⟨op', v, rfl, hv, rfl⟩ | ⟨i, rfl, hact⟩ := World.step_cases ha'
  · refine ⟨⟨hsim', hi.kernel hv, hp.kernel hi hv⟩, fun hacc => ?_⟩
    exact iff_of_true ⟨hacc, fun _ => rfl⟩ trivial
  · have htr := semTr_of_act hact
    have hi' := hi.semTr hact
    exact ⟨⟨hsim', hi', hp.semTr htr⟩, fun hacc => htr.ok_iff hi hi' hacc⟩

variable {fuel : Nat} {w w' : World State Semaphores}

lemma WorldSim.semOk_iff (hs : WorldSim w a) (init : Nat → Nat) :
    SemOk (stateSched cfg fuel) init w ↔ SemOk (viewSched cfg) init a := by
  constructor
  · rintro ⟨h1, h2, h3⟩
    simp only [hs.kernel.first, hs.obj, hs.waker, stateSched_task, hs.kernel.task] at h1 h2 h3
    exact ⟨h1, h2, h3⟩
  · rintro ⟨h1, h2, h3⟩
    refine ⟨?_, ?_, ?_⟩
    · simpa only [hs.kernel.first, hs.obj] using h1
    · simpa only [hs.obj] using h2
    · simpa only [hs.waker, stateSched_task, viewSched_task, hs.kernel.task] using h3

lemma WorldSim.semStepOk_iff (hs : WorldSim w a) (hs' : WorldSim w' a') (op : WorldOp SemOp) :
    SemStepOk (stateSched cfg fuel) w op w' ↔ SemStepOk (viewSched cfg) a op a' := by
  rcases op with op | (_ | _ | m)
  · simp only [SemStepOk, hs.obj, hs'.obj]
  · simp only [SemStepOk, hs.obj, hs'.obj]
  · simp only [SemStepOk, hs.obj, hs'.obj]
  · simp only [SemStepOk, Completes, Adds, hs.waiting, hs'.waiting, hs.obj, hs'.obj, hs'.call]

lemma WorldSim.countOk_iff (hs : WorldSim w a) (op : WorldOp SemOp) :
    CountOk (stateSched cfg fuel) w op ↔ CountOk (viewSched cfg) a op := by
  rcases op with op | (_ | _ | m)
  · exact Iff.rfl
  · exact Iff.rfl
  · exact Iff.rfl
  · simp only [CountOk, hs.kernel.first, hs.obj]

theorem semRun_accounts_iff (hw : w.Fresh)
    (hcount : ∀ m, w.obj.abandons m = 0 ∧ w.obj.obtains m = 0) (ops : List (WorldOp SemOp)) :
    Along (semStep (stateSched cfg fuel)) (fun w₁ op w₂ =>
        SemOk (stateSched cfg fuel) (fun m => (w.obj.sem m).value.toNat) w₂ ∧
          SemStepOk (stateSched cfg fuel) w₁ op w₂) w ops ↔
      Each (semStep (stateSched cfg fuel)) (CountOk (stateSched cfg fuel)) w ops := by
  obtain ⟨a, hsim, hi, hpend⟩ := hw.inv
  have hinit : ∃ a, SemInv w a := ⟨a, hsim, hi, fun m u hu => by simp [hpend] at hu⟩
  have hI : ∀ {w op w'}, (∃ a, SemInv w a) → semStep (stateSched cfg fuel) w op = some w' →
      ∃ a, SemInv w' a := by
    rintro w₁ op w₂ ⟨a, ha⟩ h
    obtain ⟨a', ha', -⟩ := ha.step (fun _ => 0) h
    exact ⟨a', ha'⟩
  refine along_iff_each (P := fun w₁ => Accounts (fun m => (w.obj.sem m).value.toNat) w₁.obj) hI
    (fun _ _ h _ => h.1.account) ?_ hinit fun m => by simp [hcount]
  rintro w₁ op w₂ ⟨a₁, ha₁⟩ hacc h
  obtain ⟨a₂, ha₂, hiff⟩ := ha₁.step (fun m => (w.obj.sem m).value.toNat) h
  obtain ⟨hsim₁, -⟩ := ha₁
  obtain ⟨hsim₂, hi₂, hp₂⟩ := ha₂
  rw [hsim₁.countOk_iff, hsim₂.semOk_iff, hsim₁.semStepOk_iff hsim₂, ← hiff (hsim₁.obj ▸ hacc)]
  exact and_congr_left fun _ => ⟨fun h => h.account, fun h => hi₂.semOk hp₂ h⟩

end

def sampleSemaphores (value : UInt16) : Semaphores where
  sem _ := ⟨value⟩
  abandons _ := 0
  obtains _ := 0

theorem semRun_accounts_iff_sample :
    Along (semStep (stateSched sampleConfig 20)) (fun w₁ op w₂ =>
        SemOk (stateSched sampleConfig 20) (fun _ => 1) w₂ ∧
          SemStepOk (stateSched sampleConfig 20) w₁ op w₂) (sampleWorld (sampleSemaphores 1))
      [.kernel (.start 3), .kernel (.start 9), .kernel (.dispatch 3), .act (.obtain 1 50 0 true),
        .kernel (.dispatch 9), .act (.obtain 1 50 0 true), .kernel (.dispatch 3), .act (.abandon 1),
        .act (.abandon 1), .kernel (.dispatch 9), .act .finish] :=
  (semRun_accounts_iff (sampleWorld_fresh (sampleSemaphores 1)) (fun _ => ⟨rfl, rfl⟩) _).mpr
    (by decide +kernel)

theorem semRun_overflows :
    ∃ w, semStep (stateSched sampleConfig 20) (sampleWorld (sampleSemaphores 65535))
        (.act (.abandon 1)) = some w ∧ (w.obj.sem 1).value = 0 ∧ w.obj.abandons 1 = 1 ∧
      w.obj.obtains 1 = 0 ∧ ¬ SemOk (stateSched sampleConfig 20) (fun _ => 65535) w := by
  have hrun : (semStep (stateSched sampleConfig 20) (sampleWorld (sampleSemaphores 65535))
      (.act (.abandon 1))).map (fun w => ((w.obj.sem 1).value, w.obj.abandons 1, w.obj.obtains 1)) =
      some (0, 1, 0) := by
    decide +kernel
  obtain ⟨w, hw, h⟩ := map_eq_some_iff.mp hrun
  simp only [Prod.mk.injEq] at h
  obtain ⟨hvalue, habandons, hobtains⟩ := h
  refine ⟨w, hw, hvalue, habandons, hobtains, fun hok => ?_⟩
  have hacc := hok.account 1
  simp [hvalue, habandons, hobtains] at hacc

end Xiuos.Kernel
