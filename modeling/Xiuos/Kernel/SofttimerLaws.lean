import Xiuos.Kernel.Softtimer

namespace Xiuos.Kernel
open Lib Function List Option Timers
variable {ts : List Nat} {debug : Bool} {fuel : Nat}

namespace Timers

def Bookkept (s : Timers) : Prop :=
  s.fault = false ∧ ∃ ts, Rings s.sort (fun _ => ts) ∧
    ∀ t, t ∈ ts ↔ t ∈ s.live ∧ (s.timer t).activeStatus = true

def finds (fuel : Nat) (s : Timers) (id : Int32) (q : Nat → Bool) : Bool :=
  match s.kGetTimer fuel id with
  | some (.object t) => q t
  | _ => false

/-- A timer is used only between its creation and its deletion, is started only when it is not
active, and is deleted only when it has been started before. -/
def proper (fuel : Nat) (s : Timers) : TimerOp → Bool
  | .create (some t) _ _ => match (s.manager.clear t).idInsertObj (t :: s.live) t with
    | .freed => false
    | _ => true
  | .create none _ _ => true
  | .startRun id => s.finds fuel id fun t => !(s.timer t).activeStatus
  | .quitRun id | .modify id _ => s.finds fuel id fun _ => true
  | .assignMemberRun id ticks => s.kGetTimer fuel id ≠ some .freed ∧
      (ticks = 0 ∨ s.finds fuel id fun t => !(s.timer t).activeStatus)
  | .delete id => s.finds fuel id fun t => !(s.timer t).zero
  | .tick => true

def Linked (s : Timers) : Prop := ∀ t, (s.timer t).activeStatus = true → (s.timer t).zero = false

section
variable (s : Timers) (t u : Nat) (f : Timer → Timer)

@[simp] lemma modify_live : (s.modify t f).live = s.live := rfl

@[simp] lemma modify_sort : (s.modify t f).sort = s.sort := rfl

@[simp] lemma modify_tick : (s.modify t f).tick = s.tick := rfl

@[simp] lemma modify_self : (s.modify t f).timer t = f (s.timer t) := update_self _ _ _

lemma modify_timer : (s.modify t f).timer u = if u = t then f (s.timer u) else s.timer u := by
  rw [modify]
  by_cases hu : u = t
  · subst hu
    simp
  · simp [hu]

end

section
variable {s s' : Timers} {t : Nat}

def rearmed (s : Timers) (t : Nat) : UInt32 := s.tick + (s.timer t).originTimeslice

def started (s : Timers) (t : Nat) : Timers :=
  s.modify t fun timer => { timer with
    deadlineTimeslice := s.tick + timer.originTimeslice
    activeStatus := true
    zero := false }

lemma startRun_eq : startRun debug fuel s t =
    if debug ∧ ¬ (s.timer t).originTimeslice < tickHalf then none
    else (s.sort.find (.inl ()) ((s.started t).later (s.rearmed t)) fuel
      (s.sort.next (.inl ()))).map fun node =>
        { s.started t with sort := s.sort.insertBefore node (.inr t) } := by
  have hstarted : (((s.modify t ({ · with activeStatus := false })).modify t fun timer =>
    { timer with
      deadlineTimeslice := s.tick + timer.originTimeslice
      activeStatus := true }).modify t ({ · with zero := false })) = s.started t := by
    simp [modify, started]
  have hlater : ((s.modify t ({ · with activeStatus := false })).modify t fun timer => { timer with
      deadlineTimeslice := s.tick + timer.originTimeslice
      activeStatus := true }).later (s.rearmed t) = (s.started t).later (s.rearmed t) := by
    funext node
    cases node with
    | inl => rfl
    | inr u =>
      by_cases hu : u = t
      · simp [hu, later, started]
      · simp [hu, later, started, modify_timer]
  simp only [startRun, modify_self, modify_sort, modify_tick]
  split
  · rfl
  · rw [← rearmed, hlater]
    cases s.sort.find (.inl ()) ((s.started t).later (s.rearmed t)) fuel
      (s.sort.next (.inl ())) with
    | none => rfl
    | some node =>
      simp only [bind_eq_bind, bind_some, map_some, hstarted]
      rfl

@[simp] lemma started_live : (s.started t).live = s.live := rfl

lemma started_timer (u : Nat) : (s.started t).timer u =
    if u = t then { s.timer u with
      deadlineTimeslice := s.rearmed u
      activeStatus := true
      zero := false } else s.timer u := s.modify_timer t u _

def insertTimer (s : Timers) (t : Nat) (ts : List Nat) : List Nat :=
  insertFirst (fun u => decide (s.rearmed t < (s.timer u).deadlineTimeslice)) t ts

lemma startRun_returns (hr : Rings s.sort fun _ => ts) (ht : t ∉ ts)
    (hcheck : debug = true → (s.timer t).originTimeslice < tickHalf) :
    Returns (fun fuel => startRun debug fuel s t) fun s' =>
      ∃ sort, Rings sort (fun _ => s.insertTimer t ts) ∧ s' = { s.started t with sort } := by
  have hcond : ¬ (debug = true ∧ ¬ (s.timer t).originTimeslice < tickHalf) := fun h =>
    h.2 (hcheck h.1)
  simp only [startRun_eq, hcond, if_false]
  refine (hr.find_returns () _).map ?_
  rintro _ rfl
  refine ⟨_, ?_, rfl⟩
  have hlater : ∀ u ∈ ts, (s.started t).later (s.rearmed t) (.inr u) =
      decide (s.rearmed t < (s.timer u).deadlineTimeslice) := by
    intro u hu
    have hne : u ≠ t := fun h => ht (h ▸ hu)
    rw [later, started_timer, if_neg hne]
  have hinsert := hr.insertBefore (n := t) (fun _ => ht) (h := ())
    (takeWhile_append_dropWhile
      (p := fun u => !(s.started t).later (s.rearmed t) (.inr u))).symm
  rw [insertTimer, ← insertFirst_congr hlater]
  refine Eq.subst (motive := Rings _) ?_ hinsert
  funext _
  exact update_self _ _ _

def stopped (s : Timers) (t : Nat) : Timers :=
  s.modify t ({ · with activeStatus := false, deadlineTimeslice := 0 })

lemma check_of_startRun (h : startRun debug fuel s t = some s') (hdebug : debug = true) :
    (s.timer t).originTimeslice < tickHalf := by
  rw [startRun_eq] at h
  have hnot := (ite_none_left_eq_some.mp h).1
  by_contra hlt
  exact hnot ⟨hdebug, hlt⟩

lemma startRun_linked (hr : Rings s.sort fun _ => ts) (ht : t ∈ ts)
    (h : startRun debug fuel s t = some s') : ¬ s'.Bookkept := by
  rintro ⟨-, ts', hr', -⟩
  rw [startRun_eq] at h
  obtain ⟨-, h⟩ := ite_none_left_eq_some.mp h
  obtain ⟨node, hfind, rfl⟩ := map_eq_some_iff.mp h
  refine hr.insertBefore_linked (h := ()) ht ?_ hr'
  rintro rfl
  have hstop := (hr.find_returns () _).post hfind
  have hnot : (s.started t).later (s.rearmed t) (.inr t) = false := by simp [later, started_timer]
  have hhead := head?_dropWhile_not (fun u => !(s.started t).later (s.rearmed t) (.inr u)) ts
  cases hdrop : ts.dropWhile fun u => !(s.started t).later (s.rearmed t) (.inr u) with
  | nil => simp [hdrop, Links.entry] at hstop
  | cons u us =>
    obtain rfl : t = u := by simpa [hdrop, Links.entry] using hstop
    simp [hdrop, hnot] at hhead

lemma rmSortlist_eq (h : (s.timer t).zero = false) :
    s.rmSortlist t = { s with sort := s.sort.remove (.inr t) } := by
  rw [rmSortlist, h]
  rfl

structure Sorts (s : Timers) (ts : List Nat) : Prop where
  fault : s.fault = false
  ring : Rings s.sort fun _ => ts
  mem : ∀ t, t ∈ ts ↔ t ∈ s.live ∧ (s.timer t).activeStatus = true

lemma bookkept_iff : s.Bookkept ↔ ∃ ts, s.Sorts ts :=
  ⟨fun ⟨hf, ts, hr, hm⟩ => ⟨ts, hf, hr, hm⟩, fun ⟨ts, hs⟩ => ⟨hs.fault, ts, hs.ring, hs.mem⟩⟩

section
variable (hs : s.Sorts ts)
include hs

lemma Sorts.nodup : ts.Nodup := hs.ring.nodup ()

lemma Sorts.congr (hfault : s'.fault = s.fault) (hsort : s'.sort = s.sort)
    (hmem : ∀ t, t ∈ s'.live ∧ (s'.timer t).activeStatus = true ↔ t ∈ s.live ∧
      (s.timer t).activeStatus = true)
    : s'.Sorts ts :=
  ⟨hfault.trans hs.fault, hsort ▸ hs.ring, fun t => (hs.mem t).trans (hmem t).symm⟩

lemma Sorts.rm (hfault : s'.fault = s.fault) (hsort : s'.sort = s.sort.remove (.inr t))
    (hmem : ∀ u, u ∈ s'.live ∧ (s'.timer u).activeStatus = true ↔ u ≠ t ∧ u ∈ s.live ∧
      (s.timer u).activeStatus = true)
    : s'.Sorts (ts.erase t) := by
  refine ⟨hfault.trans hs.fault, hsort ▸ hs.ring.remove t, fun u => ?_⟩
  rw [hs.nodup.mem_erase_iff, hs.mem, hmem]

lemma Sorts.startRun (hlive : t ∈ s.live) (hstop : (s.timer t).activeStatus = false)
    (hcheck : debug = true → (s.timer t).originTimeslice < tickHalf) :
    Returns (fun fuel => Timers.startRun debug fuel s t) fun s' =>
      s'.Sorts (s.insertTimer t ts) ∧ ∃ sort, s' = { s.started t with sort } := by
  have ht : t ∉ ts := fun ht => by
    have := (hs.mem t).mp ht
    simp [hstop] at this
  refine (startRun_returns hs.ring ht hcheck).mono ?_
  rintro _ ⟨sort, hr, rfl⟩
  refine ⟨⟨hs.fault, hr, fun u => ?_⟩, sort, rfl⟩
  rw [insertTimer, mem_insertFirst, hs.mem, started_timer]
  by_cases hu : u = t
  · simp [hu, hlive]
  · simp [hu]

lemma Sorts.quitRun (hl : s.Linked) (t : Nat) :
    (s.quitRun t).Sorts (if (s.timer t).activeStatus then ts.erase t else ts) := by
  rw [Timers.quitRun]
  split
  · rename_i hactive
    rw [rmSortlist_eq (by simpa using hl t hactive)]
    refine hs.rm rfl rfl fun u => ?_
    rw [modify_timer]
    by_cases hu : u = t
    · simp [hu]
    · simp [hu]
  · exact hs

lemma Sorts.delete (hnodup : s.live.Nodup) (hzero : (s.timer t).zero = false) :
    (s.delete t).Sorts (ts.erase t) := by
  rw [Timers.delete, rmSortlist_eq hzero]
  refine hs.rm rfl rfl fun u => ?_
  rw [hnodup.mem_erase_iff, and_assoc]

end

section
variable (hs : s.Sorts (t :: ts))
include hs

lemma Sorts.first : t ∈ s.live ∧ (s.timer t).activeStatus = true := (hs.mem t).mp mem_cons_self

lemma Sorts.restart (hl : s.Linked)
    (hcheck : debug = true → (s.timer t).originTimeslice < tickHalf) :
    Returns (fun fuel => Timers.startRun debug fuel (s.rmSortlist t) t) fun s' =>
      s'.Sorts (s.insertTimer t ts) ∧ ∃ sort, s' = { s.started t with sort } := by
  have hactive := hs.first.2
  have hring := hs.ring.remove t
  rw [erase_cons_head] at hring
  rw [rmSortlist_eq (hl t hactive)]
  refine (startRun_returns (s := { s with sort := s.sort.remove (.inr t) }) hring
    (nodup_cons.mp hs.nodup).1 hcheck).mono ?_
  rintro _ ⟨sort, hr, rfl⟩
  refine ⟨⟨hs.fault, hr, fun u => ?_⟩, sort, rfl⟩
  rw [insertTimer, mem_insertFirst, ← mem_cons, hs.mem]
  change _ ↔ u ∈ s.live ∧ ((s.started t).timer u).activeStatus = true
  rw [started_timer]
  by_cases hu : u = t
  · simp [hu, hactive]
  · simp [hu]

lemma Sorts.expire (hl : s.Linked) :
    ((s.rmSortlist t).quitRun t).Sorts ts ∧
      ∃ sort, (s.rmSortlist t).quitRun t = { s.stopped t with sort } := by
  have hactive := hs.first.2
  have hzero := hl t hactive
  rw [rmSortlist_eq hzero, Timers.quitRun, if_pos hactive, rmSortlist_eq (by simpa using hzero)]
  refine ⟨⟨hs.fault, ?_, fun u => ?_⟩, _, rfl⟩
  · have hring := (hs.ring.remove t).remove t
    rw [erase_cons_head, erase_of_not_mem (nodup_cons.mp hs.nodup).1] at hring
    exact hring
  · have hmem := hs.mem u
    have hnot := (nodup_cons.mp hs.nodup).1
    change _ ↔ u ∈ s.live ∧ ((s.stopped t).timer u).activeStatus = true
    rw [stopped, modify_timer]
    by_cases hu : u = t
    · simp [hu, hnot]
    · simpa [hu] using hmem

end

lemma Sorts.checkTimerList_succ (hs : s.Sorts ts) (debug : Bool) (fuel : Nat) :
    s.checkTimerList debug (fuel + 1) = match ts with
      | [] => some s
      | t :: _ =>
        if reached s.tick (s.timer t).deadlineTimeslice then
          if (s.timer t).triggerMode = timerTriggerPeriodic then do
            let s ← Timers.startRun debug fuel (s.rmSortlist t) t
            s.checkTimerList debug fuel
          else ((s.rmSortlist t).quitRun t).checkTimerList debug fuel
        else some s := by
  have hnext := (hs.ring.seg ()).next_eq
  cases ts with
  | nil =>
    simp only [map_nil, Links.entry] at hnext
    rw [checkTimerList, hnext]
  | cons t ts =>
    simp only [map_cons, Links.entry] at hnext
    have hmode : ((s.rmSortlist t).timer t).triggerMode = (s.timer t).triggerMode := by
      rw [rmSortlist]
      split <;> rfl
    rw [checkTimerList, hnext]
    simp only [hs.first.2, if_true, hmode]

section
variable (hl : s.Linked)
include hl

lemma Linked.modify {f : Timer → Timer}
    (hf : (f (s.timer t)).activeStatus = true → (f (s.timer t)).zero = false) :
    (s.modify t f).Linked := by
  intro u
  rw [modify_timer]
  by_cases hu : u = t
  · subst hu
    simpa using hf
  · simpa [hu] using hl u

lemma Linked.started (t : Nat) : (s.started t).Linked := hl.modify fun _ => rfl

lemma Linked.stopped (t : Nat) : (s.stopped t).Linked := hl.modify fun h => Bool.noConfusion h

lemma Linked.init (t : Nat) (time : UInt32) (triggerMode : UInt8) :
    (s.init t time triggerMode).Linked := hl.modify fun h => Bool.noConfusion h

end

lemma Sorts.checkTimerList {K : Timers → List Nat → Prop}
    (hstart : ∀ {s t ts s'}, K s (t :: ts) → s.Sorts (t :: ts) → s'.Sorts (s.insertTimer t ts) →
      (∃ sort, s' = { s.started t with sort }) → K s' (s.insertTimer t ts))
    (hstop : ∀ {s t ts s'}, K s (t :: ts) → s'.Sorts ts →
      (∃ sort, s' = { s.stopped t with sort }) → K s' ts)
    (hs : s.Sorts ts) (hl : s.Linked) (hk : K s ts)
    (h : s.checkTimerList debug fuel = some s') : ∃ ts', s'.Sorts ts' ∧ K s' ts' := by
  induction fuel generalizing s ts with
  | zero => cases h
  | succ fuel ih =>
    rw [hs.checkTimerList_succ] at h
    cases ts with
    | nil =>
      cases h
      exact ⟨_, hs, hk⟩
    | cons t ts =>
      dsimp only at h
      split at h
      · split at h
        · obtain ⟨s₁, h₁, h⟩ := bind_eq_some_iff.mp h
          have hcheck : debug = true → (s.timer t).originTimeslice < tickHalf := fun hdebug => by
            have := check_of_startRun h₁ hdebug
            rwa [rmSortlist_eq (hl t hs.first.2)] at this
          obtain ⟨hs', sort, heq⟩ := (hs.restart hl hcheck).post h₁
          refine ih hs' ?_ (hstart hk hs hs' ⟨sort, heq⟩) h
          rw [heq]
          exact hl.started t
        · obtain ⟨hs', sort, heq⟩ := hs.expire hl
          refine ih hs' ?_ (hstop hk hs' ⟨sort, heq⟩) h
          rw [heq]
          exact hl.stopped t
      · cases h
        exact ⟨_, hs, hk⟩

end

variable {op : TimerOp} {id : Int32}

section
variable {s s' : Timers} {t : Nat}

structure Inv (s : Timers) : Prop where
  linked : s.Linked
  nodup : s.live.Nodup

variable (hi : s.Inv)
include hi

lemma Inv.rmSortlist (t : Nat) : (s.rmSortlist t).Inv := by
  rw [Timers.rmSortlist]
  split <;> exact ⟨hi.linked, hi.nodup⟩

lemma Inv.startRun (h : startRun debug fuel s t = some s') : s'.Inv := by
  rw [startRun_eq] at h
  obtain ⟨node, -, rfl⟩ := map_eq_some_iff.mp (ite_none_left_eq_some.mp h).2
  exact ⟨hi.linked.started t, hi.nodup⟩

lemma Inv.quitRun (t : Nat) : (s.quitRun t).Inv := by
  rw [Timers.quitRun]
  split
  · have hstopped : (s.stopped t).Inv := ⟨hi.linked.stopped t, hi.nodup⟩
    exact hstopped.rmSortlist t
  · exact hi

lemma Inv.checkTimerList (h : s.checkTimerList debug fuel = some s') : s'.Inv := by
  induction fuel generalizing s with
  | zero => cases h
  | succ fuel ih =>
    rw [checkTimerList] at h
    split at h
    · cases h
      exact hi
    · split at h
      · split at h
        · dsimp only at h
          split at h
          · obtain ⟨s₁, h₁, h⟩ := bind_eq_some_iff.mp h
            exact ih ((hi.rmSortlist _).startRun h₁) h
          · exact ih ((hi.rmSortlist _).quitRun _) h
        · exact ih hi h
      · cases h
        exact hi

lemma Inv.setTimeslice (t : Nat) (ticks : UInt32) : (s.setTimeslice t ticks).Inv := by
  rw [Timers.setTimeslice]
  split
  · exact hi
  · exact ⟨hi.linked.modify fun h => hi.linked t h, hi.nodup⟩

lemma Inv.call {f : Nat → Option Timers} (h : s.call fuel id f = some s')
    (hf : ∀ t, f t = some s' → s'.Inv) : s'.Inv := by
  obtain ⟨found, -, h⟩ := bind_eq_some_iff.mp h
  cases found with
  | object t => exact hf t h
  | missing | freed =>
    cases h
    exact ⟨hi.linked, hi.nodup⟩

lemma Inv.kCreateTimer {mem : Option Nat} (hmem : ∀ t ∈ mem, t ∉ s.live) (time : UInt32)
    (triggerMode : UInt8) : (s.kCreateTimer mem time triggerMode).1.Inv := by
  cases mem with
  | none => exact hi
  | some t =>
    have hlinked : (s.clear t).Linked := by
      intro u
      by_cases hu : u = t
      · simp [hu, clear, Timer.cleared]
      · simpa [hu, clear] using hi.linked u
    simp only [Timers.kCreateTimer]
    split
    · exact ⟨hlinked, hi.nodup⟩
    · exact ⟨hlinked, hi.nodup⟩
    · rename_i manager id _
      have hlive : Linked { s.clear t with manager, live := t :: s.live } := hlinked
      exact ⟨hlive.init t time triggerMode, nodup_cons.mpr ⟨hmem t rfl, hi.nodup⟩⟩

lemma Inv.step (h : timerStep debug fuel s op = some s') : s'.Inv := by
  obtain ⟨-, h⟩ := ite_none_left_eq_some.mp h
  cases op with
  | create mem time triggerMode =>
    obtain ⟨hmem, h⟩ := ite_none_right_eq_some.mp h
    cases h
    exact hi.kCreateTimer hmem time triggerMode
  | startRun id => exact hi.call h fun t h => hi.startRun h
  | quitRun id =>
    refine hi.call h fun t h => ?_
    cases h
    exact hi.quitRun t
  | modify id ticks =>
    refine hi.call h fun t h => ?_
    cases h
    exact hi.setTimeslice t ticks
  | assignMemberRun id ticks =>
    obtain ⟨found, -, h⟩ := bind_eq_some_iff.mp h
    cases found with
    | object t =>
      dsimp only at h
      split at h
      · cases h
        exact hi
      · exact (hi.setTimeslice t ticks).startRun h
    | missing =>
      obtain ⟨-, h⟩ := ite_none_left_eq_some.mp h
      split at h
      · cases h
        exact hi
      · cases h
        exact ⟨hi.linked, hi.nodup⟩
    | freed =>
      cases h
      exact ⟨hi.linked, hi.nodup⟩
  | delete id =>
    refine hi.call h fun t h => ?_
    cases h
    have hrm := hi.rmSortlist t
    exact ⟨hrm.linked, hrm.nodup.erase t⟩
  | tick =>
    have htick : Inv { s with tick := s.tick + 1 } := ⟨hi.linked, hi.nodup⟩
    exact htick.checkTimerList h

end

section
variable {s s' : Timers} {t : Nat}

lemma not_bookkept_fail : ¬ s.fail.Bookkept := fun h => by simp [fail, Bookkept] at h

variable (hs : s.Sorts ts)
include hs

lemma Sorts.clear (ht : t ∉ s.live) : (s.clear t).Sorts ts := by
  have hnot : t ∉ ts := fun h => ht ((hs.mem t).mp h).1
  have hself := hs.ring.self t fun _ => hnot
  refine hs.congr rfl (Links.init_of_self hself.1 hself.2) fun u => ?_
  by_cases hu : u = t
  · simp [hu, Timers.clear, ht]
  · simp [hu, Timers.clear]

lemma Sorts.kCreateTimer (ht : t ∉ s.live) (time : UInt32) (triggerMode : UInt8)
    (hproper : s.proper fuel (.create (some t) time triggerMode) = true) :
    (s.kCreateTimer (some t) time triggerMode).1.Sorts ts := by
  have hclear := hs.clear ht
  simp only [proper] at hproper
  simp only [Timers.kCreateTimer, clear_idInsertObj]
  split
  · exact hclear
  · rename_i hfreed
    simp [hfreed] at hproper
  · refine hclear.congr rfl rfl fun u => ?_
    rw [init, modify_timer]
    by_cases hu : u = t
    · simp [hu, Timers.clear, Timer.cleared]
    · simp [hu, Timers.clear]

omit hs in
lemma kCreateTimer_timer {u : Nat} (hu : u ≠ t) (time : UInt32) (triggerMode : UInt8) :
    (s.kCreateTimer (some t) time triggerMode).1.timer u = s.timer u := by
  simp only [Timers.kCreateTimer]
  split
  · exact update_of_ne hu _ _
  · exact update_of_ne hu _ _
  · rw [init, modify_timer, if_neg hu]
    exact update_of_ne hu _ _

lemma Sorts.kCreateTimer_iff (ht : t ∉ s.live) (time : UInt32) (triggerMode : UInt8) :
    (s.kCreateTimer (some t) time triggerMode).1.Bookkept ↔
      s.proper fuel (.create (some t) time triggerMode) = true := by
  refine ⟨fun hb => ?_, fun hproper => bookkept_iff.mpr ⟨ts, hs.kCreateTimer ht _ _ hproper⟩⟩
  simp only [Timers.kCreateTimer, clear_idInsertObj] at hb
  rw [proper]
  split
  · rename_i hfreed
    rw [hfreed] at hb
    exact absurd hb not_bookkept_fail
  · rfl

omit hs in
lemma call_iff {id : Int32} {f : Nat → Option Timers}
    (h : s.call fuel id f = some s') {q : Nat → Bool}
    (hf : ∀ t ∈ s.live, f t = some s' → (s'.Bookkept ↔ q t = true)) :
    s'.Bookkept ↔ s.finds fuel id q = true := by
  obtain ⟨found, hfound, h⟩ := bind_eq_some_iff.mp h
  rw [finds, hfound]
  cases found with
  | object t => exact hf t (live_of_idGetObj hfound) h
  | missing | freed =>
    cases h
    simp [not_bookkept_fail]

lemma Sorts.startRun_iff (ht : t ∈ s.live) (h : Timers.startRun debug fuel s t = some s') :
    s'.Bookkept ↔ (!(s.timer t).activeStatus) = true := by
  cases hactive : (s.timer t).activeStatus with
  | true => simp [startRun_linked hs.ring ((hs.mem t).mpr ⟨ht, hactive⟩) h]
  | false =>
    have hs' := ((hs.startRun ht hactive (check_of_startRun h)).post h).1
    exact iff_of_true (bookkept_iff.mpr ⟨_, hs'⟩) rfl

lemma Sorts.setTimeslice (t : Nat) (ticks : UInt32) : (s.setTimeslice t ticks).Sorts ts := by
  rw [Timers.setTimeslice]
  split
  · exact hs
  · refine hs.congr rfl rfl fun u => ?_
    rw [modify_timer]
    by_cases hu : u = t
    · simp [hu]
    · simp [hu]

omit hs in
lemma setTimeslice_live (t : Nat) (ticks : UInt32) : (s.setTimeslice t ticks).live = s.live := by
  rw [Timers.setTimeslice]
  split <;> rfl

omit hs in
lemma setTimeslice_active (t : Nat) (ticks : UInt32) :
    ((s.setTimeslice t ticks).timer t).activeStatus = (s.timer t).activeStatus := by
  rw [Timers.setTimeslice]
  split
  · rfl
  · rw [modify_self]

lemma Sorts.delete_iff (hnodup : s.live.Nodup) :
    (s.delete t).Bookkept ↔ (!(s.timer t).zero) = true := by
  cases hzero : (s.timer t).zero with
  | true =>
    have hfail : s.rmSortlist t = s.fail := by rw [rmSortlist, if_pos hzero]
    refine iff_of_false (fun h => ?_) Bool.noConfusion
    rw [Timers.delete, hfail] at h
    exact absurd h.1 Bool.noConfusion
  | false => exact iff_of_true (bookkept_iff.mpr ⟨_, hs.delete hnodup hzero⟩) rfl

lemma Sorts.assign_iff {ticks : UInt32}
    (h : s.kTimerAssignMemberRun debug fuel id ticks = some s') :
    s'.Bookkept ↔ s.proper fuel (.assignMemberRun id ticks) = true := by
  obtain ⟨found, hfound, h⟩ := bind_eq_some_iff.mp h
  have hok : s.Bookkept := bookkept_iff.mpr ⟨ts, hs⟩
  rw [proper, finds, hfound]
  cases found with
  | object t =>
    dsimp only at h
    split at h
    · rename_i hzero
      cases h
      simp [hzero, hok]
    · rename_i hzero
      rw [(hs.setTimeslice t ticks).startRun_iff ?_ h, setTimeslice_active]
      · simp [hzero]
      · rw [setTimeslice_live]
        exact live_of_idGetObj hfound
  | missing =>
    obtain ⟨-, h⟩ := ite_none_left_eq_some.mp h
    split at h
    · rename_i hzero
      cases h
      simp [hzero, hok]
    · rename_i hzero
      cases h
      simp [hzero, not_bookkept_fail]
  | freed =>
    cases h
    simp [not_bookkept_fail]

lemma Sorts.step_iff (hi : s.Inv) (h : timerStep debug fuel s op = some s') :
    s'.Bookkept ↔ s.proper fuel op = true := by
  obtain ⟨-, h⟩ := ite_none_left_eq_some.mp h
  cases op with
  | create mem time triggerMode =>
    obtain ⟨hmem, h⟩ := ite_none_right_eq_some.mp h
    cases h
    cases mem with
    | none => exact iff_of_true (bookkept_iff.mpr ⟨ts, hs⟩) rfl
    | some t => exact hs.kCreateTimer_iff (hmem t rfl) time triggerMode
  | startRun id => exact call_iff h fun t ht h => hs.startRun_iff ht h
  | quitRun id =>
    refine call_iff h fun t _ h => ?_
    cases h
    exact iff_of_true (bookkept_iff.mpr ⟨_, hs.quitRun hi.linked t⟩) rfl
  | modify id ticks =>
    refine call_iff h fun t _ h => ?_
    cases h
    exact iff_of_true (bookkept_iff.mpr ⟨_, hs.setTimeslice t ticks⟩) rfl
  | assignMemberRun id ticks => exact hs.assign_iff h
  | delete id =>
    refine call_iff h fun t _ h => ?_
    cases h
    exact hs.delete_iff hi.nodup
  | tick =>
    have htick : Sorts { s with tick := s.tick + 1 } ts := ⟨hs.fault, hs.ring, hs.mem⟩
    obtain ⟨ts', hs', -⟩ := htick.checkTimerList (K := fun _ _ => True) (fun _ _ _ _ => trivial)
      (fun _ _ _ => trivial) hi.linked trivial h
    exact iff_of_true (bookkept_iff.mpr ⟨ts', hs'⟩) rfl

end

variable (idMax hoffset : UInt16) (tick : UInt32)

lemma sorts_boot : (boot idMax hoffset tick).Sorts [] :=
  ⟨rfl, ⟨fun _ => ⟨rfl, rfl⟩, fun _ => nodup_nil, fun h => absurd h not_mem_nil,
    fun _ _ => ⟨rfl, rfl⟩⟩, fun t => by simp [boot]⟩

lemma inv_boot : (boot idMax hoffset tick).Inv :=
  ⟨fun _ h => absurd h Bool.noConfusion, nodup_nil⟩

end Timers

theorem timerRun_bookkept_iff (debug : Bool) (fuel : Nat) (idMax hoffset : UInt16) (tick : UInt32)
    (ops : List TimerOp) :
    Always (timerStep debug fuel) Bookkept (.boot idMax hoffset tick) ops ↔
      Each (timerStep debug fuel) (fun s op => s.proper fuel op)
        (.boot idMax hoffset tick) ops := by
  refine always_iff_each (I := Timers.Inv) (fun hi h => hi.step h) ?_ (Timers.inv_boot _ _ _)
    (bookkept_iff.mpr ⟨[], sorts_boot _ _ _⟩)
  intro s op s' hi hs h
  obtain ⟨ts, hs⟩ := bookkept_iff.mp hs
  exact hs.step_iff hi h

theorem timerRun_linked_twice :
    ∃ s, runs (timerStep false 10) (.boot 16 16 0) [.create (some 100) 5 1, .startRun 0,
      .startRun 0] =
        some s ∧ 100 ∈ s.live ∧ (s.timer 100).activeStatus = true ∧ s.fault = false ∧
      ¬ s.Bookkept := by
  have hrun : (do
      let s ← runs (timerStep false 10) (.boot 16 16 0)
        [.create (some 100) 5 1, .startRun 0, .startRun 0]
      some (decide (100 ∈ s.live ∧ (s.timer 100).activeStatus = true ∧ s.fault = false ∧
        s.sort.next (s.sort.prev (.inr 100)) = .inl ()))) = some true := by
    decide +kernel
  obtain ⟨s, hs, h⟩ := bind_eq_some_iff.mp hrun
  obtain ⟨hlive, hactive, hfault, hnext⟩ := of_decide_eq_true (Option.some.inj h)
  refine ⟨s, hs, hlive, hactive, hfault, ?_⟩
  rintro ⟨-, ts, hr, -⟩
  rw [hr.next_prev] at hnext
  cases hnext

end Xiuos.Kernel
