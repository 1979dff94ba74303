import Xiuos.Kernel.SofttimerLaws
import Xiuos.Lib.Requeue

namespace Xiuos.Kernel
open Lib Function List Option Timers
variable {s s' : Timers} {ts : List Nat} {debug : Bool} {fuel : Nat} {t : Nat}

namespace Timers

def key (s : Timers) (t : Nat) : Nat := (s.timer t).deadlineTimeslice.toNat

def due (s : Timers) (deadline : Nat) : Bool := reached s.tick (.ofNat deadline)

def turn (debug : Bool) (s : Timers) (t : Nat) : Turn :=
  if (s.timer t).triggerMode = timerTriggerPeriodic then
    if debug ∧ ¬ (s.timer t).originTimeslice < tickHalf then .stuck
    else .back (s.rearmed t).toNat
  else .leave

/-- Some timers at the front of the list are due, and when each of them has been handled once the
earliest deadline in the list is not due. -/
def Quiet (debug : Bool) (s : Timers) : Prop :=
  ∃ ys zs, Rings s.sort (fun _ => ys ++ zs) ∧ Halts s.due (s.turn debug) s.key ys zs

section

lemma due_key : s.due (s.key t) = reached s.tick (s.timer t).deadlineTimeslice := by
  rw [due, key, UInt32.ofNat_toNat]

lemma insertTimer_eq : s.insertTimer t ts =
    insertFirst (fun u => decide ((s.rearmed t).toNat < s.key u)) t ts :=
  insertFirst_congr fun _ _ => decide_eq_decide.mpr UInt32.lt_iff_toNat_lt

section
variable (sort : Links (Unit ⊕ Nat))
include sort

lemma key_started : key { s.started t with sort } = update s.key t (s.rearmed t).toNat := by
  funext u
  by_cases hu : u = t
  · simp [hu, key, started_timer]
  · simp [hu, key, started_timer]

omit sort in
lemma turn_modify {f : Timer → Timer} (hmode : ∀ timer, (f timer).triggerMode = timer.triggerMode)
    (horigin : ∀ timer, (f timer).originTimeslice = timer.originTimeslice)
    (sort : Links (Unit ⊕ Nat)) : turn debug { s.modify t f with sort } = s.turn debug := by
  funext u
  rw [turn, turn, rearmed, rearmed, modify_tick, modify_timer]
  by_cases hu : u = t
  · simp only [hu, if_true, hmode, horigin]
  · simp only [hu, if_false]

lemma turn_started : turn debug { s.started t with sort } = s.turn debug := by
  refine turn_modify (s := s) (t := t) ?_ ?_ sort
  · exact fun _ => rfl
  · exact fun _ => rfl

lemma turn_stopped : turn debug { s.stopped t with sort } = s.turn debug := by
  refine turn_modify (s := s) (t := t) ?_ ?_ sort
  · exact fun _ => rfl
  · exact fun _ => rfl

end

lemma key_stopped {u : Nat} (hu : u ≠ t) (sort : Links (Unit ⊕ Nat)) :
    key { s.stopped t with sort } u = s.key u := by simp [hu, key, stopped, modify_timer]

variable {key : Nat → Nat}

lemma Sorts.drains (hs : s.Sorts ts) (hl : s.Linked) (hkey : ∀ u ∈ ts, key u = s.key u)
    (h : s.checkTimerList debug fuel = some s') : Drains s.due (s.turn debug) key ts := by
  induction fuel generalizing s ts key with
  | zero => cases h
  | succ fuel ih =>
    rw [hs.checkTimerList_succ] at h
    cases ts with
    | nil => exact .nil
    | cons t ts =>
      have hdue : s.due (key t) = reached s.tick (s.timer t).deadlineTimeslice := by
        rw [hkey t mem_cons_self, due_key]
      have hkeys : ∀ u ∈ ts, key u = s.key u := fun u hu => hkey u (mem_cons_of_mem t hu)
      have hnot : t ∉ ts := (nodup_cons.mp hs.nodup).1
      dsimp only at h
      split at h
      · rename_i hreached
        rw [hreached] at hdue
        split at h
        · rename_i hmode
          obtain ⟨s₁, h₁, h⟩ := bind_eq_some_iff.mp h
          have hcheck : debug = true → (s.timer t).originTimeslice < tickHalf := fun hdebug => by
            have := check_of_startRun h₁ hdebug
            rwa [rmSortlist_eq (hl t hs.first.2)] at this
          have hturn : s.turn debug t = .back (s.rearmed t).toNat := by
            rw [turn, if_pos hmode, if_neg fun h => h.2 (hcheck h.1)]
          obtain ⟨hs', sort, rfl⟩ := (hs.restart hl hcheck).post h₁
          refine .back hdue hturn ?_
          have hinsert : insertFirst (fun u => decide ((s.rearmed t).toNat < key u)) t ts =
              s.insertTimer t ts := by
            rw [insertTimer_eq]
            exact insertFirst_congr fun u hu => by rw [hkeys u hu]
          have hlinked : Linked { s.started t with sort } := hl.started t
          rw [hinsert, ← turn_started sort]
          refine ih hs' hlinked (fun u hu => ?_) h
          rw [key_started]
          obtain rfl | hu := mem_insertFirst.mp hu
          · rw [update_self, update_self]
          · rw [key_update key hnot _ u hu, key_update s.key hnot _ u hu, hkeys u hu]
        · rename_i hmode
          have hturn : s.turn debug t = .leave := by rw [turn, if_neg hmode]
          obtain ⟨hs', sort, heq⟩ := hs.expire hl
          rw [heq] at hs' h
          have hlinked : Linked { s.stopped t with sort } := hl.stopped t
          refine .leave hdue hturn ?_
          rw [← turn_stopped sort]
          refine ih hs' hlinked (fun u hu => ?_) h
          have hne : u ≠ t := fun h => hnot (h ▸ hu)
          rw [key_stopped hne, hkeys u hu]
      · rename_i hreached
        exact .stop (hdue.trans (Bool.eq_false_iff.mpr hreached))

lemma turn_eq_back {k : Nat} (h : s.turn debug t = .back k) :
    (s.timer t).triggerMode = timerTriggerPeriodic ∧
      (debug = true → (s.timer t).originTimeslice < tickHalf) ∧ k = (s.rearmed t).toNat := by
  rw [turn] at h
  split at h
  · rename_i hmode
    split at h
    · cases h
    · rename_i hcheck
      cases h
      exact ⟨hmode, fun hdebug => by_contra fun hlt => hcheck ⟨hdebug, hlt⟩, rfl⟩
  · cases h

lemma turn_eq_leave (h : s.turn debug t = .leave) :
    (s.timer t).triggerMode ≠ timerTriggerPeriodic := by
  intro hmode
  rw [turn, if_pos hmode] at h
  split at h <;> cases h

lemma Sorts.checkTimerList_returns {due : Nat → Bool} {turn : Nat → Turn}
    (h : Drains due turn key ts) (hs : s.Sorts ts) (hl : s.Linked) (hdue : due = s.due)
    (hturn : turn = s.turn debug) (hkey : ∀ u ∈ ts, key u = s.key u) :
    Returns (fun fuel => s.checkTimerList debug fuel) fun _ => True := by
  induction h generalizing s with
  | nil => exact (Returns.pure trivial).round rfl fun fuel => hs.checkTimerList_succ debug fuel
  | @stop key t ts hfirst =>
    rw [hdue, hkey t mem_cons_self, due_key] at hfirst
    refine (Returns.pure (a := s) trivial).round rfl fun fuel => ?_
    rw [hs.checkTimerList_succ]
    simp [hfirst]
  | @leave key t ts hfirst hleave _ ih =>
    rw [hdue, hkey t mem_cons_self, due_key] at hfirst
    rw [hturn] at hleave
    obtain ⟨hs', sort, heq⟩ := hs.expire hl
    rw [heq] at hs'
    have hlinked : Linked { s.stopped t with sort } := hl.stopped t
    have hnot : t ∉ ts := (nodup_cons.mp hs.nodup).1
    have hkeys : ∀ u ∈ ts, key u = Timers.key { s.stopped t with sort } u := fun u hu => by
      have hne : u ≠ t := fun h => hnot (h ▸ hu)
      rw [key_stopped hne, hkey u (mem_cons_of_mem t hu)]
    refine (ih hs' hlinked hdue (hturn.trans (turn_stopped sort).symm) hkeys).round rfl
      fun fuel => ?_
    rw [hs.checkTimerList_succ]
    simp only [hfirst, if_true, turn_eq_leave hleave, if_false, heq]
  | @back key t ts k hfirst hback _ ih =>
    rw [hdue, hkey t mem_cons_self, due_key] at hfirst
    rw [hturn] at hback
    obtain ⟨hmode, hcheck, rfl⟩ := turn_eq_back hback
    have hnot : t ∉ ts := (nodup_cons.mp hs.nodup).1
    have hkeys : ∀ u ∈ ts, key u = s.key u := fun u hu => hkey u (mem_cons_of_mem t hu)
    have hinsert : insertFirst (fun u => decide ((s.rearmed t).toNat < key u)) t ts =
        s.insertTimer t ts := by
      rw [insertTimer_eq]
      exact insertFirst_congr fun u hu => by rw [hkeys u hu]
    have hround : Returns (fun fuel => do
        let s ← Timers.startRun debug fuel (s.rmSortlist t) t
        s.checkTimerList debug fuel) fun _ => True := by
      refine (hs.restart hl hcheck).bind ?_
      rintro _ ⟨hs', sort, rfl⟩
      have hlinked : Linked { s.started t with sort } := hl.started t
      refine ih (hinsert ▸ hs') hlinked hdue (hturn.trans (turn_started sort).symm) fun u hu => ?_
      rw [key_started]
      obtain rfl | hu := mem_insertFirst.mp hu
      · rw [update_self, update_self]
      · rw [key_update key hnot _ u hu, key_update s.key hnot _ u hu, hkeys u hu]
    refine hround.round rfl fun fuel => ?_
    rw [hs.checkTimerList_succ]
    simp only [hfirst, if_true, hmode]

end

structure Ordered (s : Timers) (ts : List Nat) : Prop extends s.Sorts ts where
  order : Ascending s.key ts

section
variable (ho : s.Ordered ts)
include ho

lemma Ordered.sublist {ts' : List Nat} (hs' : s'.Sorts ts') (hsub : ts'.Sublist ts)
    (hkey : ∀ u ∈ ts', s'.key u = s.key u) : s'.Ordered ts' :=
  ⟨hs', Ascending.congr (ho.order.sublist hsub) hkey⟩

omit ho in
lemma ascending_started (ho : Ascending s.key ts) (ht : t ∉ ts)
    (heq : ∃ sort, s' = { s.started t with sort }) : Ascending s'.key (s.insertTimer t ts) := by
  obtain ⟨sort, rfl⟩ := heq
  rw [key_started, insertTimer_eq]
  exact ascending_back ho ht _

omit ho in
lemma ascending_stopped (ho : Ascending s.key (t :: ts)) (hs' : s'.Sorts ts)
    (heq : ∃ sort, s' = { s.stopped t with sort }) : Ascending s'.key ts := by
  obtain ⟨sort, rfl⟩ := heq
  refine Ascending.congr (pairwise_cons.mp ho).2 fun u hu => key_stopped ?_ sort
  rintro rfl
  have := (hs'.mem u).mp hu
  simp [stopped] at this

lemma Ordered.startRun (ht : t ∈ s.live) (hstop : (s.timer t).activeStatus = false)
    (h : Timers.startRun debug fuel s t = some s') : s'.Ordered (s.insertTimer t ts) := by
  obtain ⟨hs', heq⟩ := (ho.toSorts.startRun ht hstop (check_of_startRun h)).post h
  refine ⟨hs', ascending_started ho.order (fun hmem => ?_) heq⟩
  have := (ho.mem t).mp hmem
  simp [hstop] at this

lemma Ordered.setTimeslice (t : Nat) (ticks : UInt32) : (s.setTimeslice t ticks).Ordered ts := by
  refine ho.sublist (ho.toSorts.setTimeslice t ticks) (List.Sublist.refl ts) fun u _ => ?_
  rw [Timers.setTimeslice]
  split
  · rfl
  · rw [key, key, modify_timer]
    by_cases hu : u = t
    · simp [hu]
    · simp [hu]

lemma Ordered.quitRun (hl : s.Linked) (t : Nat) : ∃ ts', (s.quitRun t).Ordered ts' := by
  have hs' := ho.toSorts.quitRun hl t
  rw [Timers.quitRun] at hs' ⊢
  split
  · rename_i hactive
    rw [if_pos hactive, if_pos hactive] at hs'
    refine ⟨_, ho.sublist hs' erase_sublist fun u hu => ?_⟩
    have hne : u ≠ t := (ho.nodup.mem_erase_iff.mp hu).1
    rw [rmSortlist_eq (by simpa using hl t hactive), key, key, modify_timer, if_neg hne]
  · exact ⟨ts, ho⟩

lemma Ordered.checkTimerList (hl : s.Linked) (h : s.checkTimerList debug fuel = some s') :
    ∃ ts', s'.Ordered ts' := by
  obtain ⟨ts', hs', hsorted⟩ := ho.toSorts.checkTimerList (K := fun s ts => Ascending s.key ts)
    (fun hsorted hs _ heq => ascending_started (pairwise_cons.mp hsorted).2
      (nodup_cons.mp hs.nodup).1 heq)
    ascending_stopped hl ho.order h
  exact ⟨ts', hs', hsorted⟩

omit ho in
lemma of_finds {id : Int32} {f : Nat → Option Timers} {q : Nat → Bool}
    (h : s.call fuel id f = some s') (hq : s.finds fuel id q = true) :
    ∃ t ∈ s.live, q t = true ∧ f t = some s' := by
  obtain ⟨found, hfound, h⟩ := bind_eq_some_iff.mp h
  rw [finds, hfound] at hq
  cases found with
  | object t => exact ⟨t, live_of_idGetObj hfound, hq, h⟩
  | missing | freed => cases hq

lemma Ordered.step (hi : s.Inv) {op : TimerOp} (h : timerStep debug fuel s op = some s')
    (hproper : s.proper fuel op = true) : ∃ ts', s'.Ordered ts' := by
  obtain ⟨-, h⟩ := ite_none_left_eq_some.mp h
  cases op with
  | create mem time triggerMode =>
    obtain ⟨hmem, h⟩ := ite_none_right_eq_some.mp h
    cases h
    cases mem with
    | none => exact ⟨ts, ho⟩
    | some t =>
      have ht : t ∉ s.live := hmem t rfl
      have hs' := ho.toSorts.kCreateTimer ht time triggerMode hproper
      refine ⟨ts, ho.sublist hs' (List.Sublist.refl ts) fun u hu => ?_⟩
      have hne : u ≠ t := fun h => ht (h ▸ ((ho.mem u).mp hu).1)
      rw [key, key, kCreateTimer_timer hne]
  | startRun id =>
    obtain ⟨t, ht, hstop, h⟩ := of_finds h hproper
    exact ⟨_, ho.startRun ht (by simpa using hstop) h⟩
  | quitRun id =>
    obtain ⟨t, -, -, h⟩ := of_finds h hproper
    cases h
    exact ho.quitRun hi.linked t
  | modify id ticks =>
    obtain ⟨t, -, -, h⟩ := of_finds h hproper
    cases h
    exact ⟨ts, ho.setTimeslice t ticks⟩
  | assignMemberRun id ticks =>
    obtain ⟨found, hfound, h⟩ := bind_eq_some_iff.mp h
    simp only [proper, finds, hfound, decide_eq_true_eq] at hproper
    cases found with
    | object t =>
      dsimp only at h
      split at h
      · cases h
        exact ⟨ts, ho⟩
      · rename_i hzero
        have hstop := hproper.2.resolve_left hzero
        refine ⟨_, (ho.setTimeslice t ticks).startRun ?_ ?_ h⟩
        · rw [setTimeslice_live]
          exact live_of_idGetObj hfound
        · rw [setTimeslice_active]
          simpa using hstop
    | missing =>
      obtain ⟨-, h⟩ := ite_none_left_eq_some.mp h
      split at h
      · cases h
        exact ⟨ts, ho⟩
      · simp_all
    | freed => simp at hproper
  | delete id =>
    obtain ⟨t, -, hzero, h⟩ := of_finds h hproper
    cases h
    have hzero : (s.timer t).zero = false := by simpa using hzero
    refine ⟨_, ho.sublist (ho.toSorts.delete hi.nodup hzero) erase_sublist fun u _ => ?_⟩
    rw [delete, rmSortlist_eq hzero]
    rfl
  | tick =>
    have htick : Ordered { s with tick := s.tick + 1 } ts := ⟨⟨ho.fault, ho.ring, ho.mem⟩, ho.order⟩
    exact htick.checkTimerList hi.linked h

lemma Ordered.ends_iff (hl : s.Linked) :
    (∃ fuel s', Timers.checkTimerList debug fuel s = some s') ↔ s.Quiet debug := by
  constructor
  · rintro ⟨fuel, s', h⟩
    have hdrains := ho.toSorts.drains hl (fun _ _ => rfl) h
    obtain ⟨ys, zs, rfl, hhalts⟩ := hdrains.halts ho.order ho.nodup
    exact ⟨ys, zs, ho.ring, hhalts⟩
  · rintro ⟨ys, zs, hr, hhalts⟩
    obtain rfl : ts = ys ++ zs := congrFun (ho.ring.lists_eq hr) ()
    have hreturns := Sorts.checkTimerList_returns
      (hhalts.drains ho.order ho.nodup) ho.toSorts hl rfl
      rfl fun _ _ => rfl
    obtain ⟨s', -, fuel, h⟩ := hreturns.eventually
    exact ⟨fuel, s', h fuel (Nat.le_refl fuel)⟩

lemma Ordered.not_quiet (hne : ts ≠ [])
    (h : ∀ t ∈ ts, (s.timer t).triggerMode = timerTriggerPeriodic ∧ s.due (s.key t) = true ∧
      s.due (s.rearmed t).toNat = true)
    : ¬ s.Quiet debug := by
  rintro ⟨ys, zs, hr, hhalts⟩
  obtain rfl : ts = ys ++ zs := congrFun (ho.ring.lists_eq hr) ()
  have hdue : ∀ d, Lib.Pending (s.turn debug) s.key ys zs d → s.due d = true := by
    rintro d (⟨y, hy, hturn⟩ | ⟨z, hz, rfl⟩)
    · obtain ⟨-, -, rfl⟩ := turn_eq_back hturn
      exact (h y (mem_append_left zs hy)).2.2
    · exact (h z (mem_append_right ys hz)).2.1
  obtain ⟨d, hd⟩ : ∃ d, Lib.Pending (s.turn debug) s.key ys zs d := by
    obtain ⟨t, ht⟩ := exists_mem_of_ne_nil _ hne
    obtain hy | hz := mem_append.mp ht
    · have hstuck := (hhalts.taken t hy).2
      cases hturn : s.turn debug t with
      | stuck => exact absurd hturn hstuck
      | leave => exact absurd (h t ht).1 (turn_eq_leave hturn)
      | back k => exact ⟨k, .inl ⟨t, hy, hturn⟩⟩
    · exact ⟨_, .inr ⟨t, hz, rfl⟩⟩
  obtain ⟨b, hb, hnot, -⟩ := hhalts.first d hd (hdue d hd)
  rw [hdue b hb] at hnot
  cases hnot

end

lemma ordered_of_run {idMax hoffset : UInt16} {tick : UInt32} {ops : List TimerOp}
    (hproper : Each (timerStep debug fuel) (fun s op => s.proper fuel op)
      (boot idMax hoffset tick) ops)
    (hrun : runs (timerStep debug fuel) (boot idMax hoffset tick) ops = some s) :
    (∃ ts, s.Ordered ts) ∧ s.Inv := by
  refine (always_of_each (I := fun s => (∃ ts, s.Ordered ts) ∧ s.Inv) ?_ ?_ hproper).last hrun
  · rintro s op s' ⟨⟨ts, ho⟩, hi⟩ hproper h
    exact ⟨ho.step hi h hproper, hi.step h⟩
  · exact ⟨⟨[], sorts_boot _ _ _, List.Pairwise.nil⟩, inv_boot _ _ _⟩

end Timers

/-- After any proper calls, the next tick comes to an end exactly when the list is quiet once each
timer that is due has been handled. -/
theorem timerTick_ends_iff {debug : Bool} {fuel : Nat} {idMax hoffset : UInt16} {tick : UInt32}
    {ops : List TimerOp} {s : Timers}
    (hproper : Each (timerStep debug fuel) (fun s op => s.proper fuel op)
      (.boot idMax hoffset tick) ops)
    (hrun : runs (timerStep debug fuel) (.boot idMax hoffset tick) ops = some s) :
    (∃ fuel s', { s with tick := s.tick + 1 }.checkTimerList debug fuel = some s') ↔
      { s with tick := s.tick + 1 }.Quiet debug := by
  obtain ⟨⟨ts, ho⟩, hi⟩ := ordered_of_run hproper hrun
  have htick : Ordered { s with tick := s.tick + 1 } ts :=
    ⟨⟨ho.fault, ho.ring, ho.mem⟩, ho.order⟩
  exact htick.ends_iff hi.linked

theorem timerTick_ends_iff_sample :
    ∃ s, runs (timerStep false 10) (.boot 16 16 0)
        [.create (some 100) 3 2, .startRun 0, .create (some 200) 1 1, .tick, .tick, .startRun 1] =
          some s ∧ { s with tick := s.tick + 1 }.Quiet false := by
  have hproper : Each (timerStep false 10) (fun s op => s.proper 10 op) (.boot 16 16 0)
      [.create (some 100) 3 2, .startRun 0, .create (some 200) 1 1, .tick, .tick, .startRun 1] := by
    decide +kernel
  have hrun : (do
      let s ← runs (timerStep false 10) (.boot 16 16 0)
        [.create (some 100) 3 2, .startRun 0, .create (some 200) 1 1, .tick, .tick, .startRun 1]
      some ({ s with tick := s.tick + 1 }.checkTimerList false 10).isSome) = some true := by
    decide +kernel
  obtain ⟨s, hs, h⟩ := bind_eq_some_iff.mp hrun
  obtain ⟨s', hs'⟩ := isSome_iff_exists.mp (Option.some.inj h)
  exact ⟨s, hs, (timerTick_ends_iff hproper hs).mp ⟨10, s', hs'⟩⟩

theorem timerTick_endless :
    ∃ s, runs (timerStep false 10) (.boot 16 16 0) [.create (some 100) 0 2, .startRun 0] = some s ∧
      s.fault = false ∧ ∀ fuel, { s with tick := s.tick + 1 }.checkTimerList false fuel = none := by
  have hproper : Each (timerStep false 10) (fun s op => s.proper 10 op) (.boot 16 16 0)
      [.create (some 100) 0 2, .startRun 0] := by
    decide +kernel
  have hrun : (do
      let s ← runs (timerStep false 10) (.boot 16 16 0) [.create (some 100) 0 2, .startRun 0]
      some (decide (s.live = [100] ∧ s.tick = 0 ∧ (s.timer 100).activeStatus = true ∧
        (s.timer 100).triggerMode = timerTriggerPeriodic ∧ (s.timer 100).originTimeslice = 0 ∧
        (s.timer 100).deadlineTimeslice = 0))) = some true := by
    decide +kernel
  obtain ⟨s, hs, h⟩ := bind_eq_some_iff.mp hrun
  obtain ⟨hlive, htime, hactive, hmode, horigin, hdeadline⟩ := of_decide_eq_true (Option.some.inj h)
  obtain ⟨⟨ts, ho⟩, hi⟩ := ordered_of_run hproper hs
  have htick : Ordered { s with tick := s.tick + 1 } ts :=
    ⟨⟨ho.fault, ho.ring, ho.mem⟩, ho.order⟩
  refine ⟨s, hs, ho.fault, fun fuel => eq_none_iff_forall_ne_some.mpr fun s' h => ?_⟩
  have hmem : 100 ∈ ts := (ho.mem 100).mpr ⟨by simp [hlive], hactive⟩
  refine htick.not_quiet (ne_nil_of_mem hmem) ?_ ((htick.ends_iff hi.linked).mp ⟨fuel, s', h⟩)
  intro t ht
  obtain rfl : t = 100 := by simpa [hlive] using ((ho.mem t).mp ht).1
  simp only [due, Timers.key, UInt32.ofNat_toNat, rearmed, hdeadline, horigin, htime]
  exact ⟨hmode, by decide, by decide⟩

end Xiuos.Kernel
