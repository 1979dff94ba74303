import Xiuos.Kernel.World

/-! `linklist.c` with `LINKLIST_FLAG_PRIO`: in which order a list that orders its waiters lets them
go. -/

namespace Xiuos.Kernel
open Lib Function List Nat Option View
variable {cfg : Config}

structure Arrivals where
  clock : Nat
  arrival : Nat → Nat

def Arrivals.stamp (o : Arrivals) (t : Nat) : Arrivals where
  clock := o.clock + 1
  arrival := update o.arrival t o.clock

inductive PendOp
  | suspend (m : Nat) (waitTime : Int32) (now : UInt32) (alloc : Bool)
  | finish
  | resume (m : Nat)
  | prioSet (t : Nat) (prio : UInt8)
  deriving DecidableEq

section
variable {κ : Type} (k : Sched κ)

def pendAct (w : World κ Arrivals) : PendOp → Option (World κ Arrivals)
  | .suspend m waitTime now alloc => do
    let t ← w.caller k
    let kernel ← k.linklistSuspend (k.setExstatus w.kernel t eok) m t .prio
    let kernel ← k.startTimer kernel t waitTime now alloc
    some ({ w with kernel, obj := w.obj.stamp t }.setCall t (some (m, false)))
  | .finish => do
    let (t, _) ← w.waker k
    some (w.setCall t none)
  | .resume m => do
    let u ← k.first w.kernel m
    let kernel ← k.linklistResume w.kernel m
    some ({ w with kernel }.setCall u (some (m, true)))
  | .prioSet t prio =>
    if (w.call t).isSome ∧ (k.task w.kernel t).stat = .suspend then none
    else do
      let kernel ← k.kTaskPrioSet w.kernel t prio
      some { w with kernel }

def pendStep (w : World κ Arrivals) (op : WorldOp PendOp) : Option (World κ Arrivals) :=
  w.step k (pendAct k) op

def SamePrio (w : World κ Arrivals) : WorldOp PendOp → Prop
  | .act (.suspend m _ _ _) =>
    ∀ t ∈ w.caller k, ∀ u ∈ k.first w.kernel m, w.prio k t = w.prio k u
  | _ => True

instance (w : World κ Arrivals) : ∀ op, Decidable (SamePrio k w op)
  | .act (.suspend m _ _ _) => inferInstanceAs
      (Decidable (∀ t ∈ w.caller k, ∀ u ∈ k.first w.kernel m, w.prio k t = w.prio k u))
  | .act .finish | .act (.resume _) | .act (.prioSet _ _) | .kernel _ => isTrue trivial

def WakesHighest (cfg : Config) (w : World State Arrivals) : Prop :=
  ∀ fuel m r, linklistResume cfg fuel w.kernel m = some r →
    ∃ u, w.Waiting (stateSched cfg fuel) m u ∧
      ∀ t, w.Waiting (stateSched cfg fuel) m t →
        ((r.1.task t).stat = .ready ↔ t = u) ∧
        (w.kernel.task t).curPrio ≤ (w.kernel.task u).curPrio ∧
        ((w.kernel.task t).curPrio = (w.kernel.task u).curPrio →
          w.obj.arrival u ≤ w.obj.arrival t)

end

section
variable {w : World State Arrivals} {a : World View Arrivals} (hs : WorldSim w a)
include hs

lemma WorldSim.pendAct (op : PendOp) :
    Follows (fun fuel => Kernel.pendAct (stateSched cfg fuel) w op)
      (Kernel.pendAct (viewSched cfg) a op) WorldSim := by
  cases op with
  | suspend m waitTime now alloc =>
    simp only [Kernel.pendAct, hs.caller, hs.obj, stateSched_setExstatus, viewSched_setExstatus]
    cases hc : a.caller (viewSched cfg) with
    | none => exact .none
    | some t =>
      obtain ⟨hcur, hstat⟩ := Sim.of_caller (World.of_caller hc).1
      simp only [startTimer_eq, bind_eq_bind, bind_some]
      refine ((hs.kernel.setExstatus t eok).suspends hcur ?_ m .prio).bind fun s₁ v₁ hv₁ hs₁ => ?_
      · simpa using hstat
      cases hv₁
      refine Returns.bind (hs₁.startTimer ?_ waitTime now alloc) fun s₂ hs₂ => ?_
      · simp [suspend_stat]
      · exact .pure ((hs.set hs₂ _).setCall t _)
  | finish =>
    simp only [Kernel.pendAct, hs.waker]
    cases a.waker (viewSched cfg) with
    | none => exact .none
    | some tc => exact .pure (hs.setCall tc.1 none)
  | resume m =>
    simp only [Kernel.pendAct, hs.kernel.first]
    cases (viewSched cfg).first a.kernel m with
    | none => exact .none
    | some u =>
      refine (hs.kernel.resumes m).bind fun s₁ v₁ _ hs₁ => .pure ?_
      have hw : WorldSim { w with kernel := s₁ } { a with kernel := v₁ } := ⟨hs₁, hs.obj, hs.call⟩
      exact hw.setCall u _
  | prioSet t prio =>
    simp only [Kernel.pendAct, stateSched_task, viewSched_task, hs.kernel.task, hs.call]
    by_cases h : (a.call t).isSome ∧ (a.kernel.task t).stat = .suspend
    · simp only [h, and_self, if_true]
      exact .none
    · simp only [h, if_false]
      exact (hs.kernel.prioSets t prio).bind fun s₁ v₁ _ hs₁ => .pure ⟨hs₁, hs.obj, rfl⟩

lemma WorldSim.pendStep (op : WorldOp PendOp) :
    Follows (fun fuel => Kernel.pendStep (stateSched cfg fuel) w op)
      (Kernel.pendStep (viewSched cfg) a op) WorldSim := WorldSim.step (fun hs => hs.pendAct) hs op

lemma WorldSim.samePrio_iff (fuel : Nat) (op : WorldOp PendOp) :
    SamePrio (stateSched cfg fuel) w op ↔ SamePrio (viewSched cfg) a op := by
  rcases op with op | (⟨m, waitTime, now, alloc⟩ | _ | m | ⟨t, prio⟩)
  · exact Iff.rfl
  · simp only [SamePrio, World.prio, stateSched_task, viewSched_task, hs.kernel.task,
      hs.kernel.first, hs.caller]
  · exact Iff.rfl
  · exact Iff.rfl
  · exact Iff.rfl

end

inductive PendTr (cfg : Config) (a : World View Arrivals) :
    WorldOp PendOp → World View Arrivals → Prop
  | kernel {op : KernelOp} {v : View} (h : a.KernelTr cfg op v) :
      PendTr cfg a (.kernel op) { a with kernel := v }
  | suspend {m t : Nat} {waitTime : Int32} {now : UInt32} {alloc : Bool}
      (ht : a.caller (viewSched cfg) = some t) :
      PendTr cfg a (.act (.suspend m waitTime now alloc)) ({ a with
        kernel := ((a.kernel.setExstatus t eok).suspend m t .prio).timer t waitTime now alloc
        obj := a.obj.stamp t }.setCall t (some (m, false)))
  | finish {t : Nat} {c : Call} (ht : a.waker (viewSched cfg) = some (t, c)) :
      PendTr cfg a (.act .finish) (a.setCall t none)
  | resume {m u : Nat} {us : List Nat} (hp : a.kernel.pend m = u :: us) :
      PendTr cfg a (.act (.resume m)) ({ a with
        kernel := a.kernel.release u (a.kernel.task u).exstatus }.setCall u (some (m, true)))
  | prioSet {t : Nat} {prio : UInt8}
      (h : ¬ ((a.call t).isSome ∧ (a.kernel.task t).stat = .suspend)) :
      PendTr cfg a (.act (.prioSet t prio)) { a with kernel := a.kernel.setPrio cfg t prio }

section
variable {a a' : World View Arrivals}

lemma pendTr_of_act {op : PendOp} (h : pendAct (viewSched cfg) a op = some a') :
    PendTr cfg a (.act op) a' := by
  cases op with
  | suspend m waitTime now alloc =>
    obtain ⟨t, ht, h⟩ := bind_eq_some_iff.mp h
    simp only [viewSched_setExstatus, viewSched_linklistSuspend, startTimer_eq,
      bind_eq_bind, bind_some] at h
    cases h
    exact .suspend ht
  | finish =>
    obtain ⟨⟨t, c⟩, ht, h⟩ := bind_eq_some_iff.mp h
    cases h
    exact .finish ht
  | resume m =>
    simp only [pendAct, viewSched_first, viewSched_linklistResume] at h
    cases hp : a.kernel.pend m with
    | nil => simp [hp] at h
    | cons u us =>
      simp only [hp, head?_cons, map_some, bind_eq_bind, bind_some] at h
      cases h
      exact .resume hp
  | prioSet t prio =>
    simp only [pendAct, viewSched_task] at h
    by_cases hw : (a.call t).isSome ∧ (a.kernel.task t).stat = .suspend
    · simp [hw] at h
    · simp only [hw, if_false] at h
      cases h
      exact .prioSet hw

lemma pendTr_of_step {op : WorldOp PendOp} (h : pendStep (viewSched cfg) a op = some a') :
    PendTr cfg a op a' := by
  obtain ⟨op', v, rfl, hv, rfl⟩ | ⟨i, rfl, h⟩ := World.step_cases h
  · exact .kernel hv
  · exact pendTr_of_act h

variable (prio : Nat → UInt8)

def Before (prio : Nat → UInt8) (arrival : Nat → Nat) (u t : Nat) : Prop :=
  prio u < prio t ∨ prio u = prio t ∧ arrival u ≤ arrival t

lemma enqueue_prio_cons (xs : List Nat) (u t : Nat) :
    enqueue prio (u :: xs) t .prio =
      if prio t < prio u then t :: u :: xs else u :: enqueue prio xs t .prio := by
  by_cases h : prio t < prio u <;> simp [enqueue, h]

lemma pairwise_enqueue {prio : Nat → UInt8} {arrival : Nat → Nat} {xs : List Nat} {t : Nat}
    (hxs : xs.Pairwise (Before prio arrival)) (hlast : ∀ u ∈ xs, arrival u ≤ arrival t) :
    (enqueue prio xs t .prio).Pairwise (Before prio arrival) := by
  induction xs with
  | nil => simp [enqueue]
  | cons u xs ih =>
    obtain ⟨hu, hxs⟩ := pairwise_cons.mp hxs
    rw [enqueue_prio_cons]
    split
    · rename_i hlt
      refine pairwise_cons.mpr ⟨fun m hm => .inl ?_, pairwise_cons.mpr ⟨hu, hxs⟩⟩
      obtain rfl | hm := mem_cons.mp hm
      · exact hlt
      · obtain hlt' | ⟨heq, -⟩ := hu m hm
        · exact UInt8.lt_trans hlt hlt'
        · exact heq ▸ hlt
    · rename_i hle
      refine pairwise_cons.mpr ⟨fun m hm => ?_, ih hxs fun m hm => hlast m (.tail u hm)⟩
      have hprio : LinklistFlag.prio ≠ .other := by decide
      obtain rfl | hm := (mem_enqueue hprio).mp hm
      · obtain hlt | heq := UInt8.lt_or_eq_of_le (UInt8.not_lt.mp hle)
        · exact .inl hlt
        · exact .inr ⟨heq, hlast u (.head xs)⟩
      · exact hu m hm

def Level (a : World View Arrivals) : Prop :=
  ∀ m, ∀ t ∈ a.kernel.pend m, ∀ u ∈ a.kernel.pend m, a.kernel.prio t = a.kernel.prio u

structure PendInv (a : World View Arrivals) : Prop extends WorldInv a where
  order : ∀ m, (a.kernel.pend m).Pairwise (Before a.kernel.prio a.obj.arrival)
  past : ∀ m t, t ∈ a.kernel.pend m → a.obj.arrival t < a.obj.clock

variable {op : WorldOp PendOp}

lemma WorldInv.pendTr (hi : WorldInv a) (h : pendStep (viewSched cfg) a op = some a') :
    WorldInv a' := by
  obtain ⟨w, hw⟩ := hi.exists_sim
  obtain ⟨s, hs⟩ := hi.sim
  obtain ⟨w', hw'⟩ := (hw.pendStep op).exists_of_some h
  refine ⟨⟨_, hw'.kernel⟩, ?_⟩
  cases pendTr_of_step h with
  | kernel hk => exact (hi.kernel hk).calls
  | @suspend m t waitTime now alloc ht =>
    exact (hi.calls.begin (World.of_caller ht).2 m).congr (by simp [World.setCall])
      (by simp [World.setCall]) (by simp [World.setCall])
  | finish ht => exact hi.calls.finish hs (Sim.of_caller (World.of_waker ht).1).2
  | @resume m u us hp =>
    have hu : u ∈ a.kernel.pend m := by simp [hp]
    exact hi.calls.release m hs.nodup (hi.calls.of_mem hs hu).2
  | prioSet => exact hi.calls.congr (by simp) (by simp) (by simp)

variable (hi : PendInv a)
include hi

lemma PendInv.of_sublist (hi' : WorldInv a')
    (hsub : ∀ m, (a'.kernel.pend m).Sublist (a.kernel.pend m))
    (hprio : ∀ m, ∀ t ∈ a'.kernel.pend m, a'.kernel.prio t = a.kernel.prio t)
    (hobj : a'.obj = a.obj) : PendInv a' where
  toWorldInv := hi'
  order m := by
    refine ((hi.order m).sublist (hsub m)).imp_of_mem fun {u t} hu ht h => ?_
    rw [Before, hprio m u hu, hprio m t ht, hobj]
    exact h
  past m t ht := by
    rw [hobj]
    exact hi.past m t ((hsub m).subset ht)

omit hi in
lemma Level.of_sublist (hl : Level a) (hsub : ∀ m, (a'.kernel.pend m).Sublist (a.kernel.pend m))
    (hprio : ∀ m, ∀ t ∈ a'.kernel.pend m, a'.kernel.prio t = a.kernel.prio t) : Level a' := by
  intro m t ht u hu
  rw [hprio m t ht, hprio m u hu]
  exact hl m t ((hsub m).subset ht) u ((hsub m).subset hu)

lemma PendTr.sublist (h : PendTr cfg a op a') :
    (∃ m waitTime now alloc, op = .act (.suspend m waitTime now alloc)) ∨
    (∀ m, (a'.kernel.pend m).Sublist (a.kernel.pend m)) ∧
      (∀ m, ∀ t ∈ a'.kernel.pend m, a'.kernel.prio t = a.kernel.prio t) ∧ a'.obj = a.obj ∧
      SamePrio (viewSched cfg) a op := by
  obtain ⟨s, hs⟩ := hi.sim
  cases h with
  | kernel h =>
    have hsub := sublist_of_step hs.waits h.step
    refine .inr ⟨hsub, fun m t ht => prio_of_step h.step ?_, rfl, trivial⟩
    rw [hs.waits m t ((hsub m).subset ht)]
    decide
  | @suspend m t waitTime now alloc => exact .inl ⟨m, waitTime, now, alloc, rfl⟩
  | finish => exact .inr ⟨fun m => .refl _, fun m t ht => rfl, rfl, trivial⟩
  | resume => exact .inr ⟨fun m => erase_sublist, fun m t ht => by simp [World.setCall],
    rfl, trivial⟩
  | @prioSet t prio hnot =>
    refine .inr ⟨fun m => by simp, fun m u hu => ?_, rfl, trivial⟩
    simp only [setPrio_pend] at hu
    have hut : u ≠ t := by
      rintro rfl
      exact hnot ⟨by simp [(hi.calls.of_mem hs hu).1], hs.waits m u hu⟩
    rw [View.setPrio, View.prio]
    split
    · rfl
    · rw [setTask_task, if_neg hut]
      rfl

lemma PendInv.enter {m t : Nat} (hi' : WorldInv a') (hnot : ∀ j, t ∉ a.kernel.pend j)
    (hpend : a'.kernel.pend = update a.kernel.pend m
      (enqueue a.kernel.prio (a.kernel.pend m) t .prio))
    (hprio : a'.kernel.prio = a.kernel.prio) (hobj : a'.obj = a.obj.stamp t) : PendInv a' := by
  have hold : ∀ {j u}, u ∈ a.kernel.pend j → a'.obj.arrival u = a.obj.arrival u := by
    intro j u hu
    have hne : u ≠ t := fun he => hnot j (he ▸ hu)
    rw [hobj]
    exact update_of_ne hne _ _
  have hnew : a'.obj.arrival t = a.obj.clock := by
    rw [hobj]
    exact update_self _ _ _
  have horder : ∀ j, (a.kernel.pend j).Pairwise (Before a.kernel.prio a'.obj.arrival) := by
    intro j
    refine (hi.order j).imp_of_mem fun {u t} hu ht h => ?_
    rw [Before, hold hu, hold ht]
    exact h
  have hprio' : LinklistFlag.prio ≠ .other := by decide
  refine ⟨hi', fun j => ?_, fun j u hu => ?_⟩
  · rw [hprio, hpend]
    by_cases hj : j = m
    · subst hj
      rw [update_self]
      refine pairwise_enqueue (horder j) fun u hu => ?_
      rw [hold hu, hnew]
      exact Nat.le_of_lt (hi.past j u hu)
    · rw [update_of_ne hj]
      exact horder j
  · have hclock : a'.obj.clock = a.obj.clock + 1 := by rw [hobj, Arrivals.stamp]
    rw [hclock]
    by_cases hj : j = m
    · subst hj
      rw [hpend, update_self, mem_enqueue hprio'] at hu
      obtain rfl | hu := hu
      · exact hnew ▸ lt_succ_self _
      · exact hold hu ▸ lt_succ_of_lt (hi.past j u hu)
    · rw [hpend, update_of_ne hj] at hu
      exact hold hu ▸ lt_succ_of_lt (hi.past j u hu)

lemma PendInv.step (h : pendStep (viewSched cfg) a op = some a') : PendInv a' := by
  have hi' := hi.toWorldInv.pendTr h
  have htr := pendTr_of_step h
  obtain ⟨m, waitTime, now, alloc, rfl⟩ | ⟨hsub, hprio, hobj, -⟩ := htr.sublist hi
  · obtain ⟨s, hs⟩ := hi.sim
    cases htr with
    | suspend ht =>
      refine hi.enter (m := m) hi' (hs.waits.not_mem (World.active_of_caller ht)) ?_
        (funext fun u => ?_) rfl
      · simp only [World.setCall, timer_pend, suspend_pend, setExstatus_pend]
        congr 2
        funext u
        simp
      · simp [World.setCall]
  · exact hi.of_sublist hi' hsub hprio hobj

lemma PendTr.level_iff (hl : Level a) (h : PendTr cfg a op a') :
    Level a' ↔ SamePrio (viewSched cfg) a op := by
  obtain ⟨m, waitTime, now, alloc, rfl⟩ | ⟨hsub, hprio, -, hsame⟩ := h.sublist hi
  · cases h with
    | @suspend _ t _ _ _ ht =>
      have hprio' : LinklistFlag.prio ≠ .other := by decide
      simp only [Level, World.setCall, timer_pend, timer_prio, suspend_pend,
        suspend_prio, setExstatus_pend, setExstatus_prio, SamePrio, ht,
        viewSched_first, mem_def, Option.some.injEq, forall_eq']
      constructor
      · intro hl' u hu
        have hu := mem_of_mem_head? hu
        refine hl' m t ?_ u ?_
        · rw [update_self, mem_enqueue hprio']
          exact .inl rfl
        · rw [update_self, mem_enqueue hprio']
          exact .inr hu
      · intro hsame j
        by_cases hj : j = m
        · subst hj
          have hall : ∀ u ∈ a.kernel.pend j, a.kernel.prio u = a.kernel.prio t := by
            intro u hu
            obtain ⟨x, xs, hx⟩ := exists_cons_of_ne_nil (ne_nil_of_mem hu)
            rw [hl j u hu x (by simp [hx])]
            exact (hsame x (by simp [hx])).symm
          have hall' : ∀ u ∈ enqueue (a.kernel.setExstatus t eok).prio (a.kernel.pend j) t .prio,
              a.kernel.prio u = a.kernel.prio t := by
            intro u hu
            obtain rfl | hu := (mem_enqueue hprio').mp hu
            · rfl
            · exact hall u hu
          rw [update_self]
          exact fun u hu x hx => (hall' u hu).trans (hall' x hx).symm
        · rw [update_of_ne hj]
          exact hl j
  · exact iff_of_true (hl.of_sublist hsub hprio) hsame

end

section
variable {w : World State Arrivals} {a : World View Arrivals}

lemma WorldSim.wakesHighest_iff (hs : WorldSim w a) (hi : PendInv a) :
    WakesHighest cfg w ↔ Level a := by
  have hwaiting : ∀ {fuel m t}, w.Waiting (stateSched cfg fuel) m t ↔ t ∈ a.kernel.pend m := by
    intro fuel m t
    rw [hs.waiting, hi.toWorldInv.waiting_iff]
  have hprio : ∀ t, (w.kernel.task t).curPrio = a.kernel.prio t := fun t => by
    rw [hs.kernel.task, View.prio]
  have hreturns : ∀ {m x xs}, a.kernel.pend m = x :: xs →
      Returns (fun fuel => linklistResume cfg fuel w.kernel m) fun r =>
        Sim r.1 (a.kernel.release x (a.kernel.task x).exstatus) := fun hx =>
    hs.kernel.linklistResume hx
  -- the first task of a list becomes ready and the others stay
  have hready : ∀ {m x xs}, a.kernel.pend m = x :: xs → ∀ {s' : State},
      Sim s' (a.kernel.release x (a.kernel.task x).exstatus) → ∀ t ∈ a.kernel.pend m,
      ((s'.task t).stat = .ready ↔ t = x) := by
    intro m x xs hx s' hs' t ht
    rw [hs'.task, release_stat]
    by_cases htx : t = x
    · simp [htx]
    · simp [htx, hs.kernel.waits m t ht]
  simp only [WakesHighest, hwaiting, hprio, hs.obj]
  constructor
  · intro h m
    cases hx : a.kernel.pend m with
    | nil => exact fun t ht => absurd ht not_mem_nil
    | cons x xs =>
      obtain ⟨r, hr, n, hn⟩ := (hreturns hx).eventually
      obtain ⟨u, hu, hhigh⟩ := h n m r (hn n (Nat.le_refl n))
      have hxm : x ∈ a.kernel.pend m := by simp [hx]
      have hux : x = u := (hhigh x hxm).1.mp ((hready hx hr x hxm).mpr rfl)
      subst hux
      have hall : ∀ t ∈ a.kernel.pend m, a.kernel.prio t = a.kernel.prio x := by
        intro t ht
        have hle := (hhigh t ht).2.1
        rw [hx] at ht
        obtain rfl | ht := mem_cons.mp ht
        · rfl
        · have horder := hi.order m
          rw [hx] at horder
          obtain hlt | ⟨heq, -⟩ := (pairwise_cons.mp horder).1 t ht
          · exact absurd hlt (UInt8.not_lt.mpr hle)
          · exact heq.symm
      rw [← hx]
      exact fun t ht u hu => (hall t ht).trans (hall u hu).symm
  · intro hl fuel m r hr
    cases hx : a.kernel.pend m with
    | nil => simp [linklistResume, hs.kernel.next_pend, hx, Links.entry] at hr
    | cons x xs =>
      have hsim := (hreturns hx).post hr
      have hxm : x ∈ a.kernel.pend m := by simp [hx]
      rw [← hx]
      refine ⟨x, hxm, fun t ht => ⟨hready hx hsim t ht, ?_, fun _ => ?_⟩⟩
      · rw [hl m t ht x hxm]
        exact UInt8.le_refl _
      · rw [hx] at ht
        obtain rfl | ht := mem_cons.mp ht
        · exact Nat.le_refl _
        · have horder := hi.order m
          rw [hx] at horder
          obtain hlt | ⟨-, hle⟩ := (pairwise_cons.mp horder).1 t ht
          · rw [hl m t (by simp [hx, ht]) x hxm] at hlt
            exact absurd hlt (UInt8.lt_irrefl _)
          · exact hle

theorem pendRun_wakesHighest_iff {fuel : Nat} (hw : w.Fresh) (ops : List (WorldOp PendOp)) :
    Always (pendStep (stateSched cfg fuel)) (WakesHighest cfg) w ops ↔
      Each (pendStep (stateSched cfg fuel)) (SamePrio (stateSched cfg fuel)) w ops := by
  obtain ⟨a, hsim, hi, hpend⟩ := hw.inv
  have hinit : PendInv a := ⟨hi, by simp [hpend], by simp [hpend]⟩
  have hI : ∀ {w op w'}, (∃ a, WorldSim w a ∧ PendInv a) →
      pendStep (stateSched cfg fuel) w op = some w' → ∃ a, WorldSim w' a ∧ PendInv a := by
    rintro w op w' ⟨a, hsim, hi⟩ h
    obtain ⟨a', ha', hsim'⟩ := (hsim.pendStep op).post h
    exact ⟨a', hsim', hi.step ha'⟩
  refine always_iff_each hI ?_ ⟨a, hsim, hinit⟩ ?_
  · rintro w op w' ⟨a, hsim, hi⟩ hl h
    obtain ⟨a', ha', hsim'⟩ := (hsim.pendStep op).post h
    rw [hsim.wakesHighest_iff hi] at hl
    rw [hsim'.wakesHighest_iff (hi.step ha'), hsim.samePrio_iff]
    exact (pendTr_of_step ha').level_iff hi hl
  · rw [hsim.wakesHighest_iff hinit]
    intro m
    simp [hpend]

end

def sampleArrivals : World State Arrivals := sampleWorld ⟨0, fun _ => 0⟩

theorem pendRun_wakesHighest_iff_sample :
    Always (pendStep (stateSched sampleConfig 20)) (WakesHighest sampleConfig) sampleArrivals
      [.kernel (.start 3), .kernel (.start 9), .act (.prioSet 9 3), .kernel (.dispatch 9),
        .act (.suspend 1 50 0 true), .kernel (.dispatch 3), .act (.suspend 1 50 0 true),
        .kernel (.expire 3), .act (.resume 1)] :=
  (pendRun_wakesHighest_iff (sampleWorld_fresh _) _).mpr (by decide +kernel)

theorem pendRun_wakes_lowest :
    ∃ w, runs (pendStep (stateSched sampleConfig 20)) sampleArrivals
        [.kernel (.start 3), .kernel (.start 9), .kernel (.dispatch 9), .act (.suspend 1 50 0 true),
          .kernel (.dispatch 3), .act (.suspend 1 50 0 true)] = some w ∧
      w.Waiting (stateSched sampleConfig 20) 1 3 ∧ w.Waiting (stateSched sampleConfig 20) 1 9 ∧
      (w.kernel.task 3).curPrio < (w.kernel.task 9).curPrio ∧
      w.obj.arrival 9 < w.obj.arrival 3 ∧ ¬ WakesHighest sampleConfig w := by
  have hrun : (runs (pendStep (stateSched sampleConfig 20)) sampleArrivals
      [.kernel (.start 3), .kernel (.start 9), .kernel (.dispatch 9), .act (.suspend 1 50 0 true),
        .kernel (.dispatch 3), .act (.suspend 1 50 0 true)]).bind (fun w =>
          (linklistResume sampleConfig 20 w.kernel 1).map fun r =>
            decide ((w.call 3 = some (1, false) ∧ (w.kernel.task 3).stat = .suspend) ∧
              (w.call 9 = some (1, false) ∧ (w.kernel.task 9).stat = .suspend) ∧
              (w.kernel.task 3).curPrio < (w.kernel.task 9).curPrio ∧
              w.obj.arrival 9 < w.obj.arrival 3 ∧ (r.1.task 3).stat = .ready)) = some true := by
    decide +kernel
  obtain ⟨w, hw, h⟩ := bind_eq_some_iff.mp hrun
  obtain ⟨r, hr, h⟩ := map_eq_some_iff.mp h
  obtain ⟨hwait3, hwait9, hprio, harrival, hready⟩ := of_decide_eq_true h
  refine ⟨w, hw, hwait3, hwait9, hprio, harrival, fun hwakes => ?_⟩
  obtain ⟨u, -, hhigh⟩ := hwakes 20 1 r hr
  have hu : 3 = u := (hhigh 3 hwait3).1.mp hready
  subst hu
  exact absurd hprio (UInt8.not_lt.mpr (hhigh 9 hwait9).2.1)

end Xiuos.Kernel
