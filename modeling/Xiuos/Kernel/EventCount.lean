import Xiuos.Kernel.Event
import Xiuos.Lib.Count

namespace Xiuos.Kernel
open Lib Function Bool List Option View Events World
variable {a a' : World View Events} {cfg : Config} (e : BitVec 29) {n : Nat}

lemma bits_iff {x y : BitVec n} : x = y ↔ ∀ (i : Nat) (_ : i < n), x[i] = y[i] :=
  ⟨fun h _ _ => by rw [h], fun h => BitVec.eq_of_getElem_eq h⟩

lemma setWidth_setWidth (w : BitVec 32) :
    (w.setWidth n).setWidth 32 = w &&& (BitVec.allOnes n).setWidth 32 := by
  refine bits_iff.mpr fun i hi => ?_
  simp [hi, Bool.and_comm]

lemma eventOptionsMask_eq : eventOptionsMask = (BitVec.allOnes 3).setWidth 32 := by decide

lemma mode_and (options : BitVec 32) {c : BitVec 32} (hc : eventOptionsMask &&& c = c) :
    ((options &&& eventOptionsMask).setWidth 3).setWidth 32 &&& c = options &&& c := by
  rw [setWidth_setWidth, ← eventOptionsMask_eq, BitVec.and_assoc, BitVec.and_assoc, hc, hc]

lemma setWidth_or_left (w : BitVec 32) :
    (e.setWidth 32 ||| w).setWidth 29 = e ||| w.setWidth 29 := by simp [BitVec.setWidth_or]

lemma setWidth_andNot_left (w : BitVec 32) :
    (e.setWidth 32 &&& ~~~w).setWidth 29 = e &&& ~~~(w.setWidth 29) := by
  simp [BitVec.setWidth_and, BitVec.setWidth_not]

def eventWaitFor (wanted options : BitVec 32) : EventWait where
  idTrigger := (wanted &&& eventEventsMask).setWidth 29
  mode := (options &&& eventOptionsMask).setWidth 3

section
variable {κ : Type} (k : Sched κ)

def triggersBit (m b : Nat) : WorldOp EventOp → Bool
  | .act (.trigger m' events) => m' = m && events.getLsbD b
  | _ => false

def eventCaller (w : World κ Events) : WorldOp EventOp → Option (Nat × Nat)
  | .act (.process m _ _ _ _ _) => (w.caller k).map fun t => (t, m)
  | .act .finish => (w.waker k).map fun r => (r.1, r.2.1)
  | _ => none

def reportsBit (m b : Nat) (w : World κ Events) (op : WorldOp EventOp) (w' : World κ Events) :
    Bool :=
  match eventCaller k w op with
  | some (t, m') => m' = m && w'.obj.ret t = some eok && (w'.obj.processed t).getLsbD b
  | none => false

structure Tally (κ : Type) where
  world : World κ Events
  triggered : Nat
  reported : Nat

def tallyStep (m b : Nat) (x : Tally κ) (op : WorldOp EventOp) : Option (Tally κ) := do
  let world ← eventStep k x.world op
  some { world
         triggered := x.triggered + (triggersBit m b op).toNat
         reported := x.reported + (reportsBit k m b x.world op world).toNat }

def CleansEvent (m : Nat) : WorldOp EventOp → Prop
  | .act (.process m' _ options _ _ _) => m' = m → options &&& eventAutoclean ≠ 0
  | _ => True

instance (m : Nat) : DecidablePred (CleansEvent m)
  | .act (.process m' _ options _ _ _) =>
    inferInstanceAs (Decidable (m' = m → options &&& eventAutoclean ≠ 0))
  | .act .finish | .act (.trigger _ _) | .kernel _ => isTrue trivial

end

def eventTake (o : Events) (m t : Nat) (events options : BitVec 32) : Events :=
  let old := (o.event m).events.setWidth 32
  let o := o.report t (old &&& events)
  let o := if options &&& eventAutoclean ≠ 0 then o.setEvents m ((old &&& ~~~events).setWidth 29)
    else o
  o.setRet t (some eok)

section
variable (o : Events) (m t : Nat) (events options : BitVec 32)

lemma eventTake_wait : (eventTake o m t events options).wait = o.wait := by
  simp only [eventTake]
  split <;> rfl

lemma eventTake_event_of_ne {j : Nat} (hj : j ≠ m) :
    (eventTake o m t events options).event j = o.event j := by
  simp only [eventTake]
  split
  · exact update_of_ne hj ..
  · rfl

lemma eventTake_ret : (eventTake o m t events options).ret t = some eok := by
  simp [eventTake, setRet]

lemma eventTake_processed : (eventTake o m t events options).processed t =
    (o.event m).events.setWidth 32 &&& events := by
  simp only [eventTake]
  split <;> simp [setRet, Events.setEvents, report]

variable {options}

lemma eventTake_events (hcleans : options &&& eventAutoclean ≠ 0) :
    ((eventTake o m t events options).event m).events =
      ((o.event m).events.setWidth 32 &&& ~~~events).setWidth 29 := by
  simp only [eventTake, if_pos hcleans]
  simp [setRet, Events.setEvents, report]

end

inductive EventTr (cfg : Config) (a : World View Events) : EventOp → World View Events → Prop
  | reject {m t : Nat} {options : BitVec 32} {waitTime : Int32} {now : UInt32} {alloc : Bool}
      (ht : a.caller (viewSched cfg) = some t) :
      EventTr cfg a (.process m 0 options waitTime now alloc)
        { a with obj := a.obj.setRet t (some (-error)) }
  | take {m t : Nat} {events options : BitVec 32} {waitTime : Int32} {now : UInt32} {alloc : Bool}
      (ht : a.caller (viewSched cfg) = some t) :
      EventTr cfg a (.process m events options waitTime now alloc) { a with
        kernel := a.kernel.setExstatus t eok
        obj := eventTake a.obj m t events options }
  | refuse {m t : Nat} {events options : BitVec 32} {now : UInt32} {alloc : Bool}
      (ht : a.caller (viewSched cfg) = some t) :
      EventTr cfg a (.process m events options 0 now alloc) { a with
        kernel := (a.kernel.setExstatus t eok).setExstatus t (-etimeout)
        obj := a.obj.setRet t (some (-etimeout)) }
  | wait {m t : Nat} {events options : BitVec 32} {waitTime : Int32} {now : UInt32} {alloc : Bool}
      (ht : a.caller (viewSched cfg) = some t) :
      EventTr cfg a (.process m events options waitTime now alloc) ({ a with
        kernel := ((a.kernel.setExstatus t eok).suspend m t (a.obj.event m).flag).timer t waitTime
          now alloc
        obj := (a.obj.setWait t (eventWaitFor events options)).setRet t none
        }.setCall t (some (m, false)))
  | finish {t : Nat} {c : Call} (ht : a.waker (viewSched cfg) = some (t, c)) :
      EventTr cfg a .finish ({ a with
        obj := eventFinish a.obj t (a.kernel.task t).exstatus }.setCall t none)
  | trigger {m : Nat} {events : BitVec 32} {r : View × Events × List Nat × Int}
      (h : eventTrigger (viewSched cfg) a.kernel a.obj m events = some r) :
      EventTr cfg a (.trigger m events)
        (eventWoken { a with kernel := r.1, obj := r.2.1 } m r.2.2.1)

section

lemma eventTr_of_act {op : EventOp} (h : eventAct (viewSched cfg) a op = some a') :
    EventTr cfg a op a' := by
  cases op with
  | process m events options waitTime now alloc =>
    obtain ⟨t, ht, h⟩ := bind_eq_some_iff.mp h
    obtain ⟨⟨v, o, outcome⟩, hp, h⟩ := bind_eq_some_iff.mp h
    cases h
    simp only [eventProcess, viewSched_setExstatus] at hp
    by_cases he : events = 0
    · rw [if_pos he] at hp
      cases hp
      subst he
      exact .reject ht
    rw [if_neg he] at hp
    cases hmet : eventMet ((a.obj.event m).events.setWidth 32) events options with
    | true =>
      simp only [hmet, if_true] at hp
      cases hp
      exact .take ht
    | false =>
      simp only [hmet, false_eq_true, if_false, viewSched_linklistSuspend, startTimer_eq,
        bind_eq_bind, bind_some] at hp
      split at hp
      · rename_i hw
        cases hp
        subst hw
        exact .refuse ht
      · cases hp
        exact .wait ht
  | finish =>
    obtain ⟨⟨t, c⟩, ht, h⟩ := bind_eq_some_iff.mp h
    cases h
    exact .finish ht
  | trigger m events =>
    obtain ⟨r, hr, h⟩ := bind_eq_some_iff.mp h
    cases h
    exact .trigger hr

variable {e : BitVec 29} {w id mode idTrigger : BitVec 32}

lemma take_bits (e : BitVec 29) (w : BitVec 32) (b : Nat) :
    ((e.setWidth 32 &&& w).getLsbD b).toNat +
      (((e.setWidth 32 &&& ~~~w).setWidth 29).getLsbD b).toNat ≤ (e.getLsbD b).toNat := by
  simp only [BitVec.getLsbD_and, BitVec.getLsbD_setWidth, BitVec.getLsbD_not]
  cases e.getLsbD b <;> cases w.getLsbD b <;> simp [toNat_le]

lemma trigger_bits (e : BitVec 29) (w : BitVec 32) (b : Nat) :
    (((e.setWidth 32 ||| w).setWidth 29).getLsbD b).toNat ≤
      (e.getLsbD b).toNat + (w.getLsbD b).toNat := by
  rw [setWidth_or_left]
  simp only [BitVec.getLsbD_or, BitVec.getLsbD_setWidth]
  cases e.getLsbD b <;> cases w.getLsbD b <;> simp [toNat_le]

lemma eventHit_and (h : eventHit mode idTrigger w = some id) : id &&& w = id := by
  simp only [eventHit] at h
  split at h
  · obtain ⟨hand, h⟩ := ite_none_right_eq_some.mp h
    cases h
    exact hand
  · obtain ⟨-, h⟩ := ite_none_right_eq_some.mp h
    obtain ⟨-, h⟩ := ite_none_right_eq_some.mp h
    cases h
    rw [BitVec.and_assoc, BitVec.and_self]

lemma hit_bits (h : eventHit mode idTrigger (e.setWidth 32 &&& eventEventsMask) = some id)
    (b : Nat) : ((id.setWidth 29).getLsbD b).toNat +
      (((e.setWidth 32 &&& ~~~(id.setWidth 29).setWidth 32).setWidth 29).getLsbD b).toNat ≤
        (e.getLsbD b).toNat := by
  have hid : id.setWidth 29 &&& e = id.setWidth 29 := by
    have hand := congrArg (BitVec.setWidth 29) (eventHit_and h)
    have hmask : eventEventsMask.setWidth 29 = BitVec.allOnes 29 := by decide
    rwa [BitVec.setWidth_and, BitVec.setWidth_and, hmask, BitVec.and_allOnes,
      BitVec.setWidth_setWidth_of_le _ (by decide), BitVec.setWidth_eq] at hand
  have hbit := congrArg (BitVec.getLsbD · b) hid
  rw [setWidth_andNot_left, BitVec.setWidth_setWidth_of_le _ (by decide), BitVec.setWidth_eq]
  simp only [BitVec.getLsbD_and, BitVec.getLsbD_not] at hbit ⊢
  cases he : e.getLsbD b <;> cases hi : (id.setWidth 29).getLsbD b <;>
    simp_all [toNat_le]

end

def Unserved (task : Task) : Prop :=
  task.stat = .suspend ∨ Active task ∧ task.exstatus ≠ eok

structure EventCalls (a : World View Events) : Prop where
  pending : ∀ k t, t ∈ a.kernel.pend k → a.call t = some (k, false)
  waits : ∀ k t, a.call t = some (k, false) → Unserved (a.kernel.task t)

def isOwed (m b : Nat) (a : World View Events) (t : Nat) : Bool :=
  a.call t = some (m, true) && (a.obj.wait t).idTrigger.getLsbD b

/-- Each trigger of the bit pays for one report at most: one that was made, one that a task is
about to make, or one that the event keeps for later. -/
structure EventAccount (m b : Nat) (a : World View Events) (triggered reported : Nat) : Prop where
  cleans : ∀ t, a.call t = some (m, false) → (a.obj.wait t).mode.setWidth 32 &&& eventAutoclean ≠ 0
  paid : ∃ owed, Counts (isOwed m b a) owed ∧
    reported + owed + ((a.obj.event m).events.getLsbD b).toNat ≤ triggered

variable {op : WorldOp EventOp} {c : Call} {waitTime : Int32} {now : UInt32} {alloc : Bool}
  {v v' : View}

section
variable {m b t : Nat}
variable {triggered triggered' reported reported' : Nat}

lemma EventAccount.update (h : EventAccount m b a triggered reported) (t : Nat)
    (hcleans : ∀ u, a'.call u = some (m, false) →
      (a'.obj.wait u).mode.setWidth 32 &&& eventAutoclean ≠ 0)
    (howed : ∀ u ≠ t, isOwed m b a' u = isOwed m b a u)
    (hle : reported' + (isOwed m b a' t).toNat + ((a'.obj.event m).events.getLsbD b).toNat +
        triggered ≤
      reported + (isOwed m b a t).toNat + ((a.obj.event m).events.getLsbD b).toNat +
        triggered') : EventAccount m b a' triggered' reported' := by
  obtain ⟨-, owed, hcount, hpaid⟩ := h
  obtain ⟨owed', hcount', howed'⟩ := hcount.update t howed
  exact ⟨hcleans, owed', hcount', by omega⟩

lemma EventAccount.congr (h : EventAccount m b a triggered reported) (hcall : a'.call = a.call)
    (hwait : a'.obj.wait = a.obj.wait) (hevent : a'.obj.event m = a.obj.event m) :
    EventAccount m b a' triggered reported := by
  refine h.update 0 ?_ (fun u _ => ?_) ?_
  · rw [hcall, hwait]
    exact h.cleans
  · simp only [isOwed, hcall, hwait]
  · simp only [isOwed, hcall, hwait, hevent, Nat.le_refl]

lemma Unserved.step {op : KernelOp} (h : (viewSched cfg).step v op = some v')
    (hu : Unserved (v.task t)) : Unserved (v'.task t) := by
  obtain u | ⟨u, hready⟩ | u | ⟨now, ticks, alloc, u, -⟩ := step_cases h
  · have hne : (v.task t).stat ≠ .init := by
      obtain h | ⟨h | h, -⟩ := hu <;> simp [h]
    simpa [Unserved, Active, start_stat, start_exstatus, hne] using hu
  · obtain hstat | ⟨hact, hex⟩ := hu
    · have hne : t ≠ u := by
        rintro rfl
        simp [hstat] at hready
      exact .inl (by simp [dispatch_stat, hne, hstat])
    · refine .inr ⟨?_, by simpa using hex⟩
      obtain hstat | hstat := hact
      · by_cases htu : t = u <;> simp [Active, dispatch_stat, hstat, htu]
      · by_cases htu : t = u
        · simp [Active, dispatch_stat, htu]
        · by_cases hcur : v.current = some t <;> simp [Active, dispatch_stat, hstat, htu, hcur]
  · by_cases he : t = u ∧ (v.task t).stat = .suspend
    · obtain ⟨rfl, hstat⟩ := he
      have hex : (-etimeout : Int) ≠ eok := by decide
      exact .inr ⟨.inl (by simp [expire_stat, hstat]), by simpa [expire_exstatus, hstat]⟩
    · simpa [Unserved, Active, expire_stat, expire_exstatus, he] using hu
  · split
    · exact hu
    · by_cases htu : t = u
      · exact .inl (by simp [suspend_stat, htu])
      · simpa [Unserved, Active, suspend_stat, htu] using hu

section
variable (hc : EventCalls a)
include hc

lemma EventCalls.kernel {s : State} (hs : Sim s a.kernel) {op : KernelOp} {v : View}
    (h : a.KernelTr cfg op v) : EventCalls { a with kernel := v } :=
  ⟨fun k t ht => hc.pending k t (mem_of_step hs.waits h.step ht),
    fun k t ht => (hc.waits k t ht).step h.step⟩

lemma EventCalls.congr (hpend : a'.kernel.pend = a.kernel.pend) (hcall : a'.call = a.call)
    (hstat : ∀ t, (a'.kernel.task t).stat = (a.kernel.task t).stat)
    (hex : ∀ t, (a'.kernel.task t).exstatus = (a.kernel.task t).exstatus) : EventCalls a' := by
  constructor
  · rw [hpend, hcall]
    exact hc.pending
  · intro k t ht
    rw [hcall] at ht
    simpa only [Unserved, Active, hstat, hex] using hc.waits k t ht

omit hc in
lemma mem_of_mem_suspend {v : View} {k u : Nat} {flag : LinklistFlag}
    (h : u ∈ (v.suspend m t flag).pend k) : u = t ∧ k = m ∨ u ∈ v.pend k := by
  rw [suspend_pend] at h
  by_cases hk : k = m
  · subst hk
    rw [update_self] at h
    by_cases hflag : flag = .other
    · subst hflag
      exact .inr h
    · obtain rfl | h := (mem_enqueue hflag).mp h
      · exact .inl ⟨rfl, rfl⟩
      · exact .inr h
  · rw [update_of_ne hk] at h
    exact .inr h

lemma EventCalls.setExstatus (ht : a.call t = none) (exstatus : Int) (obj : Events) :
    EventCalls { a with kernel := a.kernel.setExstatus t exstatus, obj } := by
  refine ⟨hc.pending, fun k u hu => ?_⟩
  have hne : u ≠ t := by
    rintro rfl
    simp [ht] at hu
  have hun := hc.waits k u hu
  simp only [setExstatus_task, if_neg hne]
  exact hun

lemma EventCalls.suspend (ht : a.call t = none) (m : Nat) (flag : LinklistFlag) (obj : Events) :
    EventCalls ({ a with kernel := a.kernel.suspend m t flag, obj }.setCall t
      (some (m, false))) := by
  constructor
  · intro k u hu
    obtain ⟨rfl, rfl⟩ | hu := mem_of_mem_suspend hu
    · exact update_self ..
    · have hcall := hc.pending k u hu
      have hut : u ≠ t := by
        rintro rfl
        simp [ht] at hcall
      exact (update_of_ne hut ..).trans hcall
  · intro k u hu
    by_cases hut : u = t
    · exact .inl (by simp [World.setCall, suspend_stat, hut])
    · simp only [World.setCall, update_of_ne hut] at hu
      simpa [Unserved, Active, World.setCall, suspend_stat, hut] using hc.waits k u hu

lemma EventCalls.setCall {call : Option Call} (hcall : ∀ k, call ≠ some (k, false))
    (hpend : ∀ k, t ∉ a.kernel.pend k) (obj : Events) :
    EventCalls ({ a with obj }.setCall t call) := by
  constructor
  · intro k u hu
    have hut : u ≠ t := by
      rintro rfl
      exact hpend k hu
    exact (update_of_ne hut ..).trans (hc.pending k u hu)
  · intro k u hu
    by_cases hut : u = t
    · subst hut
      exact absurd ((update_self ..).symm.trans hu) (hcall k)
    · exact hc.waits k u ((update_of_ne hut ..).symm.trans hu)

lemma EventCalls.release (hnodup : ∀ k, (a.kernel.pend k).Nodup) (m t : Nat) (obj : Events) :
    EventCalls ({ a with
      kernel := a.kernel.release t (a.kernel.task t).exstatus, obj }.setCall t
        (some (m, true))) := by
  constructor
  · intro k u hu
    obtain ⟨hut, hu⟩ := (hnodup k).mem_erase_iff.mp hu
    exact (update_of_ne hut ..).trans (hc.pending k u hu)
  · intro k u hu
    by_cases hut : u = t
    · subst hut
      simp [World.setCall] at hu
    · have hun := hc.waits k u ((update_of_ne hut ..).symm.trans hu)
      simpa [Unserved, Active, World.setCall, release_stat, release_exstatus, hut]
        using hun

end

structure EventInv (m b : Nat) (a : World View Events) (triggered reported : Nat) : Prop where
  sim : ∃ s, Sim s a.kernel
  calls : EventCalls a
  account : EventAccount m b a triggered reported

variable (o : Events)

def eventGrant (o : Events) (m t : Nat) (id : BitVec 32) : Events :=
  let o' := o.setWait t { o.wait t with idTrigger := id.setWidth 29 }
  if (o.wait t).mode.setWidth 32 &&& eventAutoclean ≠ 0 then
    o'.setEvents m (((o.event m).events.setWidth 32 &&&
      ~~~(id.setWidth 29).setWidth 32).setWidth 29)
  else o'

lemma eventGrant_wait (m t : Nat) (id : BitVec 32) :
    (eventGrant o m t id).wait =
      Function.update o.wait t { o.wait t with idTrigger := id.setWidth 29 } := by
  rw [eventGrant]
  split <;> rfl

lemma eventGrant_event_of_ne {j : Nat} (hj : j ≠ m) (t : Nat) (id : BitVec 32) :
    (eventGrant o m t id).event j = o.event j := by
  rw [eventGrant]
  split
  · exact update_of_ne hj ..
  · rfl

lemma eventGrant_events {o : Events}
    (hcleans : (o.wait t).mode.setWidth 32 &&& eventAutoclean ≠ 0) (m : Nat) (id : BitVec 32) :
    ((eventGrant o m t id).event m).events =
      ((o.event m).events.setWidth 32 &&& ~~~(id.setWidth 29).setWidth 32).setWidth 29 := by
  rw [eventGrant, if_pos hcleans]
  simp [Events.setEvents]

variable {woken woken' : List Nat}

lemma eventWake_cases {o o' : Events} (hstat : (v.task t).stat = .suspend)
    (h : eventWake (viewSched cfg) m v (o, woken) t = some (v', o', woken')) :
    (v' = v ∧ o' = o ∧ woken' = woken) ∨
    ∃ id, eventHit ((o.wait t).mode.setWidth 32) ((o.wait t).idTrigger.setWidth 32)
        ((o.event m).events.setWidth 32 &&& eventEventsMask) = some id ∧
      v' = v.release t (v.task t).exstatus ∧ o' = eventGrant o m t id ∧ woken' = woken ++ [t] := by
  simp only [eventWake] at h
  split at h
  · cases h
    exact .inl ⟨rfl, rfl, rfl⟩
  · rename_i id hid
    simp only [viewSched_kTaskWakeup, hstat, if_true, bind_eq_bind, bind_some] at h
    cases h
    refine .inr ⟨id, hid, rfl, ?_, rfl⟩
    simp [eventGrant, setWait]

variable {m' : Nat}

lemma EventAccount.grant (h : EventAccount m b a triggered reported) {id : BitVec 32}
    (hcall : a.call t = some (m', false))
    (hid : eventHit ((a.obj.wait t).mode.setWidth 32) ((a.obj.wait t).idTrigger.setWidth 32)
      ((a.obj.event m').events.setWidth 32 &&& eventEventsMask) = some id)
    (v : View) : EventAccount m b ({ a with kernel := v, obj := eventGrant a.obj m' t id }.setCall t
      (some (m', true))) triggered reported := by
  refine h.update t ?_ ?_ ?_
  · intro u hu
    have hut : u ≠ t := by
      rintro rfl
      simp [World.setCall] at hu
    have hu := h.cleans u ((update_of_ne hut ..).symm.trans hu)
    simpa [World.setCall, eventGrant_wait, hut] using hu
  · intro u hut
    simp [isOwed, World.setCall, eventGrant_wait, hut]
  · by_cases hm : m' = m
    · subst hm
      have hbits := hit_bits hid b
      simp only [isOwed, World.setCall, eventGrant_wait, eventGrant_events (h.cleans t hcall),
        update_self, decide_true, Bool.true_and]
      omega
    · simp [isOwed, World.setCall, eventGrant_event_of_ne _ (Ne.symm hm), hm]

section
variable (hi : EventInv m b a triggered reported)
include hi

lemma EventInv.wake {v : View} {o : Events} (ht : t ∈ a.kernel.pend m')
    (h : eventWake (viewSched cfg) m' a.kernel (a.obj, woken) t = some (v, o, woken')) :
    (v = a.kernel ∧ o = a.obj ∧ woken' = woken) ∨
      v.pend m' = (a.kernel.pend m').erase t ∧ woken' = woken ++ [t] ∧
        EventInv m b ({ a with kernel := v, obj := o }.setCall t (some (m', true))) triggered
          reported := by
  obtain ⟨s, hs⟩ := hi.sim
  obtain ⟨r, hr, -⟩ := (hs.eventWake m' _ t).exists_of_some h
  obtain hsame | ⟨id, hid, rfl, rfl, hwoken⟩ := eventWake_cases (hs.waits m' t ht) h
  · exact .inl hsame
  · refine .inr ⟨rfl, hwoken, ⟨r.1, hr⟩, ?_, ?_⟩
    · exact hi.calls.release hs.nodup m' t _
    · exact hi.account.grant (hi.calls.pending m' t ht) hid _

lemma EventInv.loop {ts woken : List Nat} {r : View × Events × List Nat} (hnodup : ts.Nodup)
    (hmem : ∀ t ∈ ts, t ∈ a.kernel.pend m')
    (h : ts.foldlM (fun r t => eventWake (viewSched cfg) m' r.1 r.2 t) (a.kernel, a.obj, woken) =
      some r) :
    ∃ new, r.2.2 = woken ++ new ∧
      EventInv m b (eventWoken { a with kernel := r.1, obj := r.2.1 } m' new) triggered
        reported := by
  induction ts generalizing a woken with
  | nil =>
    cases h
    exact ⟨[], by simp, hi⟩
  | cons t ts ih =>
    rw [foldlM_cons] at h
    obtain ⟨⟨v, o, woken'⟩, hwake, hfold⟩ := bind_eq_some_iff.mp h
    obtain ⟨htts, hnodup⟩ := nodup_cons.mp hnodup
    have hrest : ∀ u ∈ ts, u ∈ a.kernel.pend m' := fun u hu => hmem u (mem_cons_of_mem t hu)
    obtain ⟨rfl, rfl, rfl⟩ | ⟨hpend, rfl, hi'⟩ := hi.wake (hmem t mem_cons_self) hwake
    · exact ih hi hnodup hrest hfold
    · have hrest' : ∀ u ∈ ts, u ∈ v.pend m' := by
        intro u hu
        have hut : u ≠ t := by
          rintro rfl
          exact htts hu
        rw [hpend]
        exact (mem_erase_of_ne hut).mpr (hrest u hu)
      obtain ⟨new, hnew, hinv⟩ := ih hi' hnodup hrest' hfold
      exact ⟨t :: new, by simp [hnew], hinv⟩

lemma EventInv.setEvents (m' : Nat) (events : BitVec 32) :
    EventInv m b { a with
      obj := a.obj.setEvents m' (((a.obj.event m').events.setWidth 32 ||| events).setWidth 29) }
      (triggered + (triggersBit m b (.act (.trigger m' events))).toNat) reported := by
  refine ⟨hi.sim, ⟨hi.calls.pending, hi.calls.waits⟩,
    hi.account.update 0 hi.account.cleans (fun _ _ => rfl) ?_⟩
  by_cases hm : m' = m
  · subst hm
    have hbits := trigger_bits (a.obj.event m').events events b
    simp only [isOwed, Events.setEvents, update_self, triggersBit, decide_true, Bool.true_and]
    omega
  · simp only [isOwed, Events.setEvents, update_of_ne (Ne.symm hm)]
    omega

lemma EventInv.trigger {events : BitVec 32} {r : View × Events × List Nat × Int}
    (h : eventTrigger (viewSched cfg) a.kernel a.obj m' events = some r) :
    EventInv m b (eventWoken { a with kernel := r.1, obj := r.2.1 } m' r.2.2.1)
      (triggered + (triggersBit m b (.act (.trigger m' events))).toNat) reported := by
  simp only [eventTrigger] at h
  split at h
  · rename_i he
    cases h
    subst he
    have hnone : (triggersBit m b (.act (.trigger m' 0))).toNat = 0 := by simp [triggersBit]
    rw [hnone]
    exact hi
  have hi' := hi.setEvents m' events
  split at h
  · cases h
    exact hi'
  · obtain ⟨r', hr', h⟩ := bind_eq_some_iff.mp h
    cases h
    obtain ⟨s, hs⟩ := hi.sim
    obtain ⟨new, hnew, hinv⟩ := hi'.loop (hs.nodup m') (fun _ ht => ht) hr'
    rw [hnew]
    exact hinv

end

lemma reportsBit_process {events options : BitVec 32} (ht : a.caller (viewSched cfg) = some t) :
    reportsBit (viewSched cfg) m b a (.act (.process m' events options waitTime now alloc)) a' =
      (m' = m && a'.obj.ret t = some eok && (a'.obj.processed t).getLsbD b) := by
  simp only [reportsBit, eventCaller, ht, map_some]

lemma reportsBit_of_ret {events options : BitVec 32} (ht : a.caller (viewSched cfg) = some t)
    (hret : a'.obj.ret t ≠ some eok) :
    reportsBit (viewSched cfg) m b a (.act (.process m' events options waitTime now alloc)) a' =
      false := by simp [reportsBit_process ht, hret]

lemma reportsBit_finish (ht : a.waker (viewSched cfg) = some (t, c)) :
    reportsBit (viewSched cfg) m b a (.act .finish) a' =
      (c.1 = m && a'.obj.ret t = some eok && (a'.obj.processed t).getLsbD b) := by
  simp only [reportsBit, eventCaller, ht, map_some]

lemma EventAccount.take (h : EventAccount m b a triggered reported) (events : BitVec 32)
    {options : BitVec 32} (hcleans : m' = m → options &&& eventAutoclean ≠ 0) (v : View) :
    EventAccount m b { a with kernel := v, obj := eventTake a.obj m' t events options } triggered
      (reported + (m' = m && ((a.obj.event m').events.setWidth 32 &&&
        events).getLsbD b).toNat) := by
  by_cases hm : m' = m
  · subst hm
    have hbits := take_bits (a.obj.event m').events events b
    refine h.update t ?_ (fun u _ => ?_) ?_
    · rw [eventTake_wait]
      exact h.cleans
    · simp only [isOwed, eventTake_wait]
    · simp only [isOwed, eventTake_wait, eventTake_events _ _ _ _ (hcleans rfl), decide_true,
        Bool.true_and]
      omega
  · simp only [hm, decide_false, Bool.false_and, toNat_false, Nat.add_zero]
    exact h.congr rfl (eventTake_wait ..) (eventTake_event_of_ne _ _ _ _ _ (Ne.symm hm))

lemma EventAccount.wait (h : EventAccount m b a triggered reported) (ht : a.call t = none)
    (events : BitVec 32) {options : BitVec 32} (hcleans : m' = m → options &&& eventAutoclean ≠ 0)
    (v : View) :
    EventAccount m b ({ a with
      kernel := v
      obj := (a.obj.setWait t (eventWaitFor events options)).setRet t none
      }.setCall t (some (m', false))) triggered reported := by
  refine h.update t (fun u hu => ?_) (fun u hut => ?_) ?_
  · by_cases hut : u = t
    · subst hut
      have hm : m' = m := by simpa [World.setCall] using hu
      simp only [World.setCall, setRet, setWait, update_self, eventWaitFor,
        mode_and options (show eventOptionsMask &&& eventAutoclean = eventAutoclean by decide)]
      exact hcleans hm
    · have hu := h.cleans u ((update_of_ne hut ..).symm.trans hu)
      simpa [World.setCall, setRet, setWait, hut] using hu
  · simp [isOwed, World.setCall, setRet, setWait, hut]
  · simp [isOwed, World.setCall, setRet, setWait, ht]

lemma EventCalls.report_le (hc : EventCalls a) (ht : a.waker (viewSched cfg) = some (t, c))
    (hobj : a'.obj = eventFinish a.obj t (a.kernel.task t).exstatus) :
    (reportsBit (viewSched cfg) m b a (.act .finish) a').toNat ≤ (isOwed m b a t).toNat := by
  obtain ⟨hcaller, hcall⟩ := of_waker ht
  obtain ⟨k, woken⟩ := c
  rw [reportsBit_finish ht, hobj]
  by_cases hex : (a.kernel.task t).exstatus = eok
  · cases woken with
    | true =>
      have hprocessed : (eventFinish a.obj t (a.kernel.task t).exstatus).processed t =
          (a.obj.wait t).idTrigger.setWidth 32 := by
        simp [eventFinish, hex, setRet, report]
      have hwoken : a.call t = some (m, true) ↔ k = m := by simp [hcall]
      simp only [hprocessed, isOwed, hwoken, BitVec.getLsbD_setWidth]
      cases decide (k = m) <;> cases (a.obj.wait t).idTrigger.getLsbD b <;> simp [toNat_le]
    | false =>
      have hact := (Sim.of_caller hcaller).2
      obtain hstat | ⟨-, hne⟩ := hc.waits k t hcall
      · simp [hstat] at hact
      · exact absurd hex hne
  · have hret : (eventFinish a.obj t (a.kernel.task t).exstatus).ret t ≠ some eok := by
      simp [eventFinish, hex, setRet]
    simp [hret]

variable (hi : EventInv m b a triggered reported)
include hi

lemma EventInv.finish (ht : a.waker (viewSched cfg) = some (t, c))
    (ha : a' = { a with obj := eventFinish a.obj t (a.kernel.task t).exstatus }.setCall t none) :
    EventAccount m b a' triggered
      (reported + (reportsBit (viewSched cfg) m b a (.act .finish) a').toNat) := by
  have hobj := congrArg obj ha
  have hcall := congrArg call ha
  have hwait : a'.obj.wait = a.obj.wait := by
    rw [hobj]
    simp only [World.setCall, eventFinish]
    split <;> rfl
  have hevent : a'.obj.event = a.obj.event := by
    rw [hobj]
    simp only [World.setCall, eventFinish]
    split <;> rfl
  have hle := hi.calls.report_le (m := m) (b := b) ht hobj
  refine hi.account.update t (fun u hu => ?_) (fun u hut => ?_) ?_
  · have hut : u ≠ t := by
      rintro rfl
      simp [hcall, World.setCall] at hu
    rw [hwait]
    simp only [hcall, World.setCall, update_of_ne hut] at hu
    exact hi.account.cleans u hu
  · simp [isOwed, hcall, World.setCall, hwait, hut]
  · have hnone : isOwed m b a' t = false := by simp [isOwed, hcall, World.setCall]
    rw [hnone, hevent, toNat_false]
    omega

lemma EventInv.act {op : EventOp} (hcleans : CleansEvent m (.act op))
    (h : eventAct (viewSched cfg) a op = some a') :
    EventInv m b a' (triggered + (triggersBit m b (.act op)).toNat)
      (reported + (reportsBit (viewSched cfg) m b a (.act op) a').toNat) := by
  obtain ⟨s, hs⟩ := hi.sim
  have hsim : WorldSim { a with kernel := s } a := ⟨hs, rfl, rfl⟩
  obtain ⟨w', hw'⟩ := (hsim.eventAct op).exists_of_some h
  cases eventTr_of_act h with
  | @reject m' t options waitTime now alloc ht =>
    rw [reportsBit_of_ret ht (by simp [setRet, error, eok])]
    exact ⟨⟨_, hw'.kernel⟩, ⟨hi.calls.pending, hi.calls.waits⟩, hi.account.congr rfl rfl rfl⟩
  | @take m' t events options waitTime now alloc ht =>
    refine ⟨⟨_, hw'.kernel⟩, hi.calls.setExstatus (of_caller ht).2 eok _, ?_⟩
    simp only [reportsBit_process ht, eventTake_ret, eventTake_processed, decide_true,
      Bool.and_true]
    exact hi.account.take events hcleans _
  | @refuse m' t events options now alloc ht =>
    have hcall := (of_caller ht).2
    rw [reportsBit_of_ret ht (by simp [setRet, etimeout, eok])]
    exact ⟨⟨_, hw'.kernel⟩, (hi.calls.setExstatus hcall eok a.obj).setExstatus hcall _ _,
      hi.account.congr rfl rfl rfl⟩
  | @wait m' t events options waitTime now alloc ht =>
    have hcall := (of_caller ht).2
    rw [reportsBit_of_ret ht (by simp [World.setCall, setRet])]
    refine ⟨⟨_, hw'.kernel⟩, ?_, hi.account.wait hcall events hcleans _⟩
    have hcalls := (hi.calls.setExstatus hcall eok a.obj).suspend hcall m'
      (a.obj.event m').flag a.obj
    exact hcalls.congr (by simp [World.setCall]) rfl (by simp [World.setCall])
      (by simp [World.setCall])
  | @finish t c ht =>
    have hact := (Sim.of_caller (of_waker ht).1).2
    exact ⟨⟨_, hw'.kernel⟩, hi.calls.setCall (by simp) (hs.waits.not_mem hact) _, hi.finish ht rfl⟩
  | @trigger m' events r hr => exact hi.trigger hr

lemma EventInv.step (hcleans : CleansEvent m op) (h : eventStep (viewSched cfg) a op = some a') :
    EventInv m b a' (triggered + (triggersBit m b op).toNat)
      (reported + (reportsBit (viewSched cfg) m b a op a').toNat) := by
  obtain ⟨op', v, rfl, hv, rfl⟩ | ⟨i, rfl, hact⟩ := step_cases h
  · obtain ⟨s, hs⟩ := hi.sim
    exact ⟨(hs.step op').exists_of_some hv.step, hi.calls.kernel hs hv,
      hi.account.congr rfl rfl rfl⟩
  · exact hi.act hcleans hact

end

section
variable {fuel m b : Nat} {w w' : World State Events}

lemma WorldSim.reportsBit (hs : WorldSim w a) (hs' : WorldSim w' a') (op : WorldOp EventOp) :
    Kernel.reportsBit (stateSched cfg fuel) m b w op w' =
      Kernel.reportsBit (viewSched cfg) m b a op a' := by
  have hcaller : eventCaller (stateSched cfg fuel) w op = eventCaller (viewSched cfg) a op := by
    rcases op with op | (_ | _ | _)
    · rfl
    · simp only [eventCaller, hs.caller]
    · simp only [eventCaller, hs.waker]
    · rfl
  simp only [Kernel.reportsBit, hcaller, hs'.obj]

def TallyInv (m b : Nat) (x : Tally State) : Prop :=
  ∃ a, WorldSim x.world a ∧ EventInv m b a x.triggered x.reported

lemma TallyInv.step {x x' : Tally State} (hx : TallyInv m b x) (hcleans : CleansEvent m op)
    (h : tallyStep (stateSched cfg fuel) m b x op = some x') : TallyInv m b x' := by
  obtain ⟨a, hsim, hi⟩ := hx
  obtain ⟨w', hw', h⟩ := bind_eq_some_iff.mp h
  cases h
  obtain ⟨a', ha', hsim'⟩ := (hsim.eventStep op).post hw'
  refine ⟨a', hsim', ?_⟩
  rw [hsim.reportsBit hsim']
  exact hi.step hcleans ha'

theorem eventRun_reports_le (hw : w.Fresh) (hevents : (w.obj.event m).events = 0) (b : Nat)
    {ops : List (WorldOp EventOp)} (hcleans : ∀ op ∈ ops, CleansEvent m op) :
    Always (tallyStep (stateSched cfg fuel) m b) (fun x => x.reported ≤ x.triggered) ⟨w, 0, 0⟩
      ops := by
  obtain ⟨a, hsim, hi, hpend⟩ := hw.inv
  have hcall : ∀ t, a.call t = none := hsim.call ▸ hw.call
  have hinit : TallyInv m b ⟨w, 0, 0⟩ := by
    refine ⟨a, hsim, hi.sim, ⟨?_, ?_⟩, ?_, 0, .zero ?_, ?_⟩
    · simp [hpend]
    · simp [hcall]
    · simp [hcall]
    · simp [isOwed, hcall]
    · simp [← hsim.obj, hevents]
  have hrun : Always (tallyStep (stateSched cfg fuel) m b) (TallyInv m b) ⟨w, 0, 0⟩ ops :=
    always_of_each (fun hx hop h => TallyInv.step hx hop h) hinit (Each.of_forall hcleans)
  refine hrun.mono ?_
  rintro x ⟨a, -, hi⟩
  obtain ⟨owed, -, hle⟩ := hi.account.paid
  omega

end

def sampleEvents (options : BitVec 3) : World State Events :=
  sampleWorld ⟨fun _ => ⟨options, 0⟩, fun _ => ⟨0, 0⟩, fun _ => 0, fun _ => none⟩

def sampleEventOps : List (WorldOp EventOp) :=
  [.kernel (.start 3), .kernel (.start 9), .kernel (.dispatch 3),
    .act (.process 1 5 (eventOr ||| eventAutoclean) 50 0 true), .kernel (.dispatch 9),
    .act (.trigger 1 6), .kernel (.dispatch 3), .act .finish]

theorem eventRun_reports_le_sample :
    (runs (tallyStep (stateSched sampleConfig 20) 1 2) ⟨sampleEvents 1, 0, 0⟩ sampleEventOps).map
        (fun x => (x.triggered, x.reported)) = some (1, 1) ∧
      Always (tallyStep (stateSched sampleConfig 20) 1 2) (fun x => x.reported ≤ x.triggered)
        ⟨sampleEvents 1, 0, 0⟩ sampleEventOps :=
  ⟨by decide +kernel, eventRun_reports_le (sampleWorld_fresh _) rfl 2 (by decide)⟩

end Xiuos.Kernel
