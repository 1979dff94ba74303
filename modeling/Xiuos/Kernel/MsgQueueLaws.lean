import Xiuos.Kernel.MsgQueue
import Xiuos.Lib.Count

/-! What a critical section of `msgqueue.c` can do: it is a queue from which no wakeup is lost. -/

namespace Xiuos.Kernel
open Lib Function Bool List Nat Option View MqRequest MsgQueues
variable {a a' : World View MsgQueues} {request : MqRequest} {cfg : Config}

def View.resumeFirst (v : View) (list : Nat) : View :=
  match v.pend list with
  | [] => v
  | u :: _ => v.release u (v.task u).exstatus

inductive MqTr (a : World View MsgQueues) (m t : Nat) (request : MqRequest) :
    World View MsgQueues → Prop
  | refuse {v : View} {ret : Int} (hret : ret ≠ eok) (hpend : v.pend = a.kernel.pend)
      (hstat : ∀ u, (v.task u).stat = (a.kernel.task u).stat)
      (hex : ∀ u ≠ t, (v.task u).exstatus = (a.kernel.task u).exstatus)
      (hend : request.Blocked (a.obj.queue m) ∨ a.call t = none ∨
        (a.kernel.task t).exstatus ≠ eok) :
      MqTr a m t request ({ a with kernel := v, obj := a.obj.setRet t (some ret) }.setCall t none)
  | wait {timeout : Int32} {now : UInt32} {alloc : Bool} (hb : request.Blocked (a.obj.queue m))
      (hfits : a.call t = none → request.Fits (a.obj.queue m)) :
      MqTr a m t request ({ a with
        kernel := ((a.kernel.setExstatus t eok).suspend (request.list m) t .fifo).timer t timeout
          now alloc
        obj := (a.obj.setLocals t ⟨m, request, timeout, now⟩).setRet t none
        }.setCall t (some (request.list m, false)))
  | serve (hb : ¬ request.Blocked (a.obj.queue m))
      (hfits : a.call t = none → request.Fits (a.obj.queue m)) :
      MqTr a m t request (mqResumed ({ a with
        kernel := a.kernel.resumeFirst (request.other m)
        obj := ((a.obj.set m (request.serve (a.obj.queue m))).setRet t (some eok)).log m
          (request.bytes (a.obj.queue m)) request
        }.setCall t none) (request.other m) (a.kernel.pend (request.other m)).head?)

/-- The task whose call a step is a part of, with the queue and the request of the call. -/
def mqTurn {κ : Type} (k : Sched κ) (w : World κ MsgQueues) :
    WorldOp MqOp → Option (Nat × Nat × MqRequest)
  | .act (.request m request _ _ _) => (w.caller k).map (·, m, request)
  | .act (.goOn _ _) => (w.waker k).map fun c =>
    (c.1, (w.obj.locals c.1).queue, (w.obj.locals c.1).request)
  | _ => none

structure MqTurn (cfg : Config) (a : World View MsgQueues) (m t : Nat) (request : MqRequest) :
    Prop where
  caller : (viewSched cfg).caller a.kernel = some t
  waited : a.call t ≠ none → (a.obj.locals t).queue = m ∧ (a.obj.locals t).request = request

variable (o : MsgQueues)

section
variable {v : View} {m t : Nat} {mq : MsgQueue}
variable {timeout : Int32} {now : UInt32} {alloc : Bool}
variable {r : View × MsgQueue × List UInt8 × Outcome}

lemma viewSched_resumeFirst (v : View) (list : Nat) :
    resumeFirst (viewSched cfg) v list = some (v.resumeFirst list) := by
  simp only [resumeFirst, View.resumeFirst, viewSched_first, viewSched_linklistResume]
  cases v.pend list <;> rfl

lemma viewSched_waitFifo (v : View) (list : Nat) :
    waitFifo (viewSched cfg) v list t timeout now alloc =
      some ((v.suspend list t .fifo).timer t timeout now alloc) := by
  simp only [waitFifo, viewSched_linklistSuspend, startTimer_eq, bind_eq_bind, bind_some]

lemma mqLoop_cases (h : mqLoop (viewSched cfg) v mq m t request timeout now alloc = some r) :
    (request.Blocked mq ∧ ∃ v' ret, r = (v', mq, [], .returned ret) ∧ ret ≠ eok ∧
      v'.pend = v.pend ∧ (∀ u, (v'.task u).stat = (v.task u).stat) ∧
      ∀ u ≠ t, (v'.task u).exstatus = (v.task u).exstatus) ∨
    (request.Blocked mq ∧
      r = (((v.setExstatus t eok).suspend (request.list m) t .fifo).timer t timeout now
        alloc, mq, [], .suspended)) ∨
    (¬ request.Blocked mq ∧
      r = (v.resumeFirst (request.other m), request.serve mq, request.bytes mq,
        .returned eok)) := by
  simp only [mqLoop_eq, viewSched_setExstatus, viewSched_waitFifo, viewSched_resumeFirst,
    bind_eq_bind, bind_some] at h
  split_ifs at h with hb
  · cases h
    refine .inl ⟨hb, _, _, rfl, ?_, ?_, fun u => ?_, fun u hu => ?_⟩
    · cases request <;> simp [refuse, eok, efull, etimeout]
    · cases request <;> rfl
    · cases request <;> simp [refuse]
    · cases request <;> simp [refuse, setExstatus_exstatus, hu]
  · cases h
    exact .inr (.inl ⟨hb, rfl⟩)
  · cases h
    exact .inr (.inr ⟨hb, rfl⟩)

@[simp] lemma MsgQueues.set_same (m : Nat) : o.set m (o.queue m) = o := by simp [MsgQueues.set]

lemma mqTr_of_loop (hfits : a.call t = none → request.Fits (a.obj.queue m))
    (h : mqLoop (viewSched cfg) a.kernel (a.obj.queue m) m t request timeout now alloc = some r) :
    MqTr a m t request (mqDone
      { a with kernel := r.1, obj := a.obj.set m r.2.1 } m t request timeout
      now ((viewSched cfg).first a.kernel (request.other m)) r.2.2.1 r.2.2.2) := by
  obtain ⟨hb, v, ret, rfl, hret, hpend, hstat, hex⟩ | ⟨hb, rfl⟩ | ⟨hb, rfl⟩ := mqLoop_cases h
  · simp only [mqDone, set_same, if_neg hret]
    exact .refuse hret hpend hstat hex (.inl hb)
  · simp only [mqDone, set_same]
    exact .wait hb hfits
  · simp only [mqDone, if_true]
    exact .serve hb hfits

lemma mqTr_of_act {op : MqOp} (h : mqAct (viewSched cfg) a op = some a')
    (hop : ∀ m buffer, op ≠ .urgentSend m buffer) :
    ∃ m t request, mqTurn (viewSched cfg) a (.act op) = some (t, m, request) ∧
      MqTurn cfg a m t request ∧ MqTr a m t request a' := by
  cases op with
  | request m request timeout now alloc =>
    obtain ⟨t, ht, h⟩ := bind_eq_some_iff.mp h
    obtain ⟨r, hr, h⟩ := bind_eq_some_iff.mp h
    cases h
    obtain ⟨hcaller, hcall⟩ := World.of_caller ht
    refine ⟨m, t, request, by rw [mqTurn, ht]; rfl, ⟨hcaller, fun hne => absurd hcall hne⟩, ?_⟩
    obtain ⟨ret, hret, heq⟩ | ⟨hfits, heq⟩ := mqBegin_cases (a.obj.queue m) request timeout
    · cases (heq ..).symm.trans hr
      simp only [mqDone, set_same, if_neg hret]
      exact .refuse hret rfl (fun _ => rfl) (fun _ _ => rfl) (.inr (.inl hcall))
    · exact mqTr_of_loop (fun _ => hfits) ((heq ..).symm.trans hr)
  | goOn now alloc =>
    obtain ⟨⟨t, c⟩, ht, h⟩ := bind_eq_some_iff.mp h
    obtain ⟨hcaller, hcall⟩ := World.of_waker ht
    refine ⟨_, t, _, by rw [mqTurn, ht]; rfl, ⟨hcaller, fun _ => ⟨rfl, rfl⟩⟩, ?_⟩
    by_cases hex : (a.kernel.task t).exstatus = eok
    · simp only [viewSched_task, hex, ne_eq, not_true_eq_false, if_false] at h
      obtain ⟨r, hr, h⟩ := bind_eq_some_iff.mp h
      cases h
      exact mqTr_of_loop (fun hnone => by simp [hcall] at hnone) hr
    · simp only [viewSched_task, hex, ne_eq, not_false_eq_true, if_true] at h
      cases h
      exact .refuse hex rfl (fun _ => rfl) (fun _ _ => rfl) (.inr (.inr hex))
  | urgentSend m buffer => exact absurd rfl (hop m buffer)

section
variable (w : World View MsgQueues)
include w
variable (list : Nat) (first : Option Nat)

lemma mqResumed_call (u : Nat) :
    (mqResumed w list first).call u = if first = some u then some (list, true) else w.call u := by
  cases first with
  | none => rfl
  | some u' =>
    by_cases hu : u = u'
    · simp [mqResumed, World.setCall, hu]
    · simp [mqResumed, World.setCall, hu, Ne.symm hu]

@[simp] lemma mqResumed_obj : (mqResumed w list first).obj = w.obj := by
  cases first <;> rfl

@[simp] lemma mqResumed_kernel : (mqResumed w list first).kernel = w.kernel := by
  cases first <;> rfl

end

lemma WorldInv.mqTr (hi : WorldInv a) (ht : MqTurn cfg a m t request)
    (h : MqTr a m t request a') (hsim : ∃ s, Sim s a'.kernel) : WorldInv a' := by
  obtain ⟨s, hs⟩ := hi.sim
  have hact := (Sim.of_caller ht.caller).2
  have hc := hi.calls.finish hs hact
  refine ⟨hsim, ?_⟩
  cases h with
  | refuse hret hpend hstat hex =>
    refine hc.congr hpend hstat fun u hu => hex u ?_
    rintro rfl
    simp at hu
  | wait =>
    have hset := hc.setExstatus (update_self ..) eok
    have hflag : LinklistFlag.fifo ≠ .other := by decide
    have hwait := hset.suspend (t := t) (request.list m) hflag
      (by simp [setExstatus_exstatus])
    rw [update_idem] at hwait
    exact hwait.congr (by simp [World.setCall]) (by simp [World.setCall]) (by simp [World.setCall])
  | serve =>
    simp only [View.resumeFirst]
    cases hp : a.kernel.pend (request.other m) with
    | nil => exact hc
    | cons u us =>
      have hu : u ∈ a.kernel.pend (request.other m) := by simp [hp]
      exact hc.release (request.other m) hs.nodup (hi.calls.of_mem hs hu).2

def LocalsOk (a : World View MsgQueues) : Prop :=
  ∀ t list resumed, a.call t = some (list, resumed) →
    list = (a.obj.locals t).request.list (a.obj.locals t).queue ∧
      (a.obj.locals t).request.Fits (a.obj.queue (a.obj.locals t).queue)

lemma LocalsOk.of_turn (hl : LocalsOk a) (ht : MqTurn cfg a m t request) {list : Nat}
    {resumed : Bool} (hcall : a.call t = some (list, resumed)) : list = request.list m := by
  obtain ⟨rfl, rfl⟩ := ht.waited (by simp [hcall])
  exact (hl t list resumed hcall).1

end

section
variable {o o' : MsgQueues} {m : Nat}

def NumLe (o : MsgQueues) : Prop :=
  ∀ m, (o.queue m).numMsgs.toNat ≤ (o.queue m).maxMsgs.toNat

def room (o : MsgQueues) (list : Nat) : Nat :=
  if list % 2 = 0 then (o.queue (list / 2)).maxMsgs.toNat - (o.queue (list / 2)).numMsgs.toNat
  else (o.queue (list / 2)).numMsgs.toNat

lemma room_send (o : MsgQueues) (m : Nat) :
    room o (2 * m) = (o.queue m).maxMsgs.toNat - (o.queue m).numMsgs.toNat := by
  rw [room, if_pos (mul_mod_right 2 m), Nat.mul_div_cancel_left m (by decide)]

lemma room_recv (o : MsgQueues) (m : Nat) : room o (2 * m + 1) = (o.queue m).numMsgs.toNat := by
  rw [room, if_neg (by omega), show (2 * m + 1) / 2 = m by omega]

lemma blocked_iff_room : request.Blocked (o.queue m) ↔ room o (request.list m) = 0 := by
  cases request with
  | send buffer =>
    rw [list, room_send, Blocked, ge_iff_le, UInt16.le_iff_toNat_le,
      Nat.sub_eq_zero_iff_le]
  | recv size =>
    rw [list, room_recv, Blocked, UInt16.le_iff_toNat_le]
    exact le_zero

lemma list_ne_other (m : Nat) (request : MqRequest) : request.list m ≠ request.other m := by
  cases request <;> simp [list, other]

structure Moves (o o' : MsgQueues) (m : Nat) (request : MqRequest) : Prop where
  own : room o' (request.list m) + 1 = room o (request.list m)
  other : room o' (request.other m) = room o (request.other m) + 1
  rest : ∀ list, list ≠ request.list m → list ≠ request.other m → room o' list = room o list

lemma numMsgs_push {mq : MsgQueue} (h : ¬ mq.numMsgs ≥ mq.maxMsgs) :
    (mq.numMsgs + 1).toNat = mq.numMsgs.toNat + 1 := by
  refine toNat_add_one ?_
  rintro he
  rw [he] at h
  exact h (UInt16.le_iff_toNat_le.mpr (le_of_lt_succ mq.maxMsgs.toNat_lt))

lemma numMsgs_pop {mq : MsgQueue} (h : ¬ mq.numMsgs ≤ 0) :
    (mq.numMsgs - 1).toNat + 1 = mq.numMsgs.toNat := toNat_sub_one (UInt16.not_le.mp h)

lemma NumLe.serve (hle : NumLe o) (hb : ¬ request.Blocked (o.queue m))
    (hqueue : o'.queue = update o.queue m (request.serve (o.queue m))) :
    NumLe o' ∧ Moves o o' m request := by
  have hm := hle m
  have hq (j : Nat) : o'.queue j = if j = m then request.serve (o.queue m) else o.queue j := by
    rw [hqueue, update_apply]
  have hrest {list : Nat} (hne : list / 2 ≠ m) : room o' list = room o list := by
    simp only [room, hq, hne, if_false]
  cases request with
  | send buffer =>
    have hnum := numMsgs_push hb
    have hlt := UInt16.lt_iff_toNat_lt.mp (UInt16.not_le.mp hb)
    refine ⟨fun j => ?_, ?_, ?_, fun list h1 h2 => hrest ?_⟩
    · grind [NumLe, serve, MsgQueue.push]
    · grind [list, room_send, serve, MsgQueue.push]
    · grind [other, room_recv, serve, MsgQueue.push]
    · grind [list, other]
  | recv size =>
    have hnum := numMsgs_pop hb
    refine ⟨fun j => ?_, ?_, ?_, fun list h1 h2 => hrest ?_⟩
    · grind [NumLe, serve, MsgQueue.pop]
    · grind [list, room_recv, serve, MsgQueue.pop]
    · grind [other, room_send, serve, MsgQueue.pop]
    · grind [list, other]

end

section
variable {m t : Nat}

def isWoken (a : World View MsgQueues) (list t : Nat) : Bool := a.call t = some (list, true)

def NoneLost (a : World View MsgQueues) : Prop :=
  ∀ list, ∃ n, Counts (isWoken a list) n ∧ (a.kernel.pend list ≠ [] → room a.obj list ≤ n)

lemma NoneLost.kernel (hn : NoneLost a) (hi : WorldInv a) {op : KernelOp} {v : View}
    (h : a.KernelTr cfg op v) : NoneLost { a with kernel := v } := by
  obtain ⟨s, hs⟩ := hi.sim
  intro list
  obtain ⟨n, hcount, hroom⟩ := hn list
  refine ⟨n, hcount, fun hne => hroom ?_⟩
  have hsub := sublist_of_step hs.waits h.step list
  rintro hnil
  exact hne (sublist_nil.mp (hnil ▸ hsub))

lemma LocalsOk.isWoken_eq_false (hl : LocalsOk a) (ht : MqTurn cfg a m t request) {list : Nat}
    (hne : list ≠ request.list m) : isWoken a list t = false := by
  simp only [isWoken, decide_eq_false_iff_not]
  exact fun hcall => hne (hl.of_turn ht hcall)

lemma WorldInv.isWoken_eq_false (hi : WorldInv a) {u k : Nat} (hu : u ∈ a.kernel.pend k)
    (list : Nat) : isWoken a list u = false := by
  obtain ⟨s, hs⟩ := hi.sim
  simp [isWoken, (hi.calls.of_mem hs hu).1]

lemma NoneLost.leave (hn : NoneLost a) (hl : LocalsOk a) (ht : MqTurn cfg a m t request)
    (hend : request.Blocked (a.obj.queue m) ∨ ∀ list, isWoken a list t = false) (list : Nat)
    (call : Option Call) (hcall : call ≠ some (list, true)) :
    ∃ n, Counts (isWoken (a.setCall t call) list) n ∧
      (a.kernel.pend list ≠ [] → room a.obj list ≤ n) := by
  obtain ⟨n, hcount, hroom⟩ := hn list
  obtain ⟨n', hcount', hsum⟩ := hcount.update (q := isWoken (a.setCall t call) list) t
    fun u hu => by simp [isWoken, World.setCall, hu]
  have hleft : isWoken (a.setCall t call) list t = false := by
    simpa [isWoken, World.setCall] using hcall
  refine ⟨n', hcount', fun hne => ?_⟩
  have hle := hroom hne
  rw [hleft, toNat_false] at hsum
  by_cases hlist : list = request.list m
  · obtain hb | hnot := hend
    · rw [hlist, blocked_iff_room.mp hb]
      exact Nat.zero_le n'
    · rw [hnot, toNat_false] at hsum
      omega
  · rw [hl.isWoken_eq_false ht hlist, toNat_false] at hsum
    omega

lemma View.resumeFirst_pend_nil {v : View} {k : Nat} (list : Nat) (h : v.pend k = []) :
    (v.resumeFirst list).pend k = [] := by
  rw [View.resumeFirst]
  split
  · exact h
  · rw [release_pend, h, erase_nil]

lemma NoneLost.serve (hn : NoneLost a) (hi : WorldInv a) (hl : LocalsOk a)
    (ht : MqTurn cfg a m t request) (hmoves : Moves a.obj a'.obj m request)
    (hkernel : a'.kernel = a.kernel.resumeFirst (request.other m))
    (hcall : ∀ u, a'.call u = if (a.kernel.pend (request.other m)).head? = some u
      then some (request.other m, true) else update a.call t none u) : NoneLost a' := by
  have hpend : ∀ {list}, a'.kernel.pend list ≠ [] → a.kernel.pend list ≠ [] := by
    intro list hne hnil
    rw [hkernel, resumeFirst_pend_nil _ hnil] at hne
    exact hne rfl
  have hfirst {u : Nat} (hu : (a.kernel.pend (request.other m)).head? = some u) (list : Nat) :=
    hi.isWoken_eq_false (mem_of_mem_head? hu) list
  have hwoken (list u : Nat) : isWoken a' list u =
      if (a.kernel.pend (request.other m)).head? = some u then decide (request.other m = list)
      else !decide (u = t) && isWoken a list u := by
    simp only [isWoken, hcall, update_apply]
    split_ifs <;> simp_all
  intro list
  obtain ⟨n, hcount, hroom⟩ := hn list
  have hnot (hlist : list ≠ request.list m) := hl.isWoken_eq_false ht hlist
  by_cases hother : list = request.other m
  · subst hother
    have hquiet := hnot (list_ne_other m request).symm
    cases hp : a.kernel.pend (request.other m) with
    | nil =>
      refine ⟨n, hcount.congr fun u => ?_, fun hne => absurd hp (hpend hne)⟩
      grind
    | cons u us =>
      obtain ⟨n', hcount', hsum⟩ := hcount.update (q := isWoken a' (request.other m)) u (by grind)
      refine ⟨n', hcount', fun hne => ?_⟩
      have hle := hroom (by simp [hp])
      have hold := hfirst (u := u) (by simp [hp]) (request.other m)
      simp only [hwoken, hp, hold, head?_cons, if_true, decide_true, toNat_false,
        toNat_true] at hsum
      rw [hmoves.other]
      omega
  · obtain ⟨n', hcount', hsum⟩ := hcount.update (q := isWoken a' list) t (by grind)
    refine ⟨n', hcount', fun hne => ?_⟩
    have hle := hroom (hpend hne)
    have hone := toNat_le (isWoken a list t)
    by_cases hlist : list = request.list m
    · have hown := hmoves.own
      rw [← hlist] at hown
      omega
    · rw [hmoves.rest list hlist hother]
      rw [hnot hlist, toNat_false] at hsum
      omega

lemma NoneLost.mqTr (hn : NoneLost a) (hi : WorldInv a) (hl : LocalsOk a) (hle : NumLe a.obj)
    (ht : MqTurn cfg a m t request) (h : MqTr a m t request a') : NoneLost a' := by
  obtain ⟨s, hs⟩ := hi.sim
  have hact := (Sim.of_caller ht.caller).2
  cases h with
  | refuse hret hpend hstat hex hend =>
    intro list
    have hquiet : request.Blocked (a.obj.queue m) ∨ ∀ list, isWoken a list t = false := by
      obtain hb | hcall | hne := hend
      · exact .inl hb
      · exact .inr fun list => by simp [isWoken, hcall]
      · refine .inr fun list => ?_
        simp only [isWoken, decide_eq_false_iff_not]
        exact fun hcall => hne (hi.calls.result hs hact hcall)
    obtain ⟨n, hcount, hroom⟩ := hn.leave hl ht hquiet list none (by simp)
    exact ⟨n, hcount, fun hne => hroom (hpend ▸ hne)⟩
  | wait hb hfits =>
    intro list
    obtain ⟨n, hcount, hroom⟩ := hn.leave hl ht (.inl hb) list
      (some (request.list m, false)) (by simp)
    refine ⟨n, hcount, fun hne => ?_⟩
    by_cases hlist : list = request.list m
    · rw [hlist]
      exact (blocked_iff_room.mp hb).trans_le (Nat.zero_le n)
    · refine hroom ?_
      simpa [World.setCall, suspend_pend, hlist] using hne
  | serve hb hfits =>
    refine hn.serve hi hl ht (hle.serve hb ?_).2 (by simp [World.setCall]) fun u => ?_
    · rw [mqResumed_obj]
      cases request <;> rfl
    · rw [mqResumed_call]
      rfl

end

section
variable {m m' t : Nat}

lemma MqRequest.Fits.congr {mq mq' : MsgQueue} (h : request.Fits mq)
    (heach : mq'.eachLen = mq.eachLen) : request.Fits mq' := by
  cases request with
  | send buffer =>
    rw [Fits, heach]
    exact h
  | recv size => exact h

lemma serve_eachLen (mq : MsgQueue) (request : MqRequest) :
    (request.serve mq).eachLen = mq.eachLen := by
  cases request <;> rfl

lemma log_queue (m : Nat) (bytes : List UInt8) (request : MqRequest) :
    (o.log m bytes request).queue = o.queue := by
  cases request <;> rfl

lemma log_locals (m : Nat) (bytes : List UInt8) (request : MqRequest) :
    (o.log m bytes request).locals = o.locals := by
  cases request <;> rfl

lemma LocalsOk.fits (hl : LocalsOk a) (ht : MqTurn cfg a m t request)
    (hfits : a.call t = none → request.Fits (a.obj.queue m)) : request.Fits (a.obj.queue m) := by
  cases hcall : a.call t with
  | none => exact hfits hcall
  | some c =>
    obtain ⟨rfl, rfl⟩ := ht.waited (by simp [hcall])
    exact (hl t c.1 c.2 hcall).2

lemma LocalsOk.mqTr (hl : LocalsOk a) (hi : WorldInv a) (ht : MqTurn cfg a m t request)
    (h : MqTr a m t request a') : LocalsOk a' := by
  intro u list resumed hu
  cases h with
  | refuse =>
    have hut : u ≠ t := by
      rintro rfl
      simp [World.setCall] at hu
    exact hl u list resumed ((update_of_ne hut ..).symm.trans hu)
  | wait hb hfits =>
    by_cases hut : u = t
    · subst hut
      obtain ⟨rfl, -⟩ : list = request.list m ∧ resumed = false := by
        simpa [World.setCall] using hu.symm
      simp only [World.setCall, setRet, setLocals, update_self]
      exact ⟨trivial, hl.fits ht hfits⟩
    · have hold := hl u list resumed ((update_of_ne hut ..).symm.trans hu)
      simpa [World.setCall, setRet, setLocals, hut] using hold
  | serve hb hfits =>
    obtain ⟨s, hs⟩ := hi.sim
    have hold : list = (a.obj.locals u).request.list (a.obj.locals u).queue ∧
        (a.obj.locals u).request.Fits (a.obj.queue (a.obj.locals u).queue) := by
      rw [mqResumed_call] at hu
      split at hu
      · rename_i hfirst
        obtain ⟨rfl, -⟩ : list = request.other m ∧ resumed = true := by simpa using hu.symm
        have hmem := mem_of_mem_head? hfirst
        exact hl u _ false (hi.calls.of_mem hs hmem).1
      · have hut : u ≠ t := by
          rintro rfl
          simp [World.setCall] at hu
        exact hl u list resumed ((update_of_ne hut ..).symm.trans hu)
    simp only [mqResumed_obj, World.setCall, log_locals, log_queue, setRet, MsgQueues.set]
    refine ⟨hold.1, hold.2.congr ?_⟩
    by_cases hq : (a.obj.locals u).queue = m
    · rw [hq, update_self, serve_eachLen]
    · rw [update_of_ne hq]

def Delivers (o : MsgQueues) (m : Nat) : Prop :=
  ∃ done pending, o.sent m = done ++ pending ∧ List.Forall₂ Agree done (o.received m) ∧
    Slots (o.queue m).msgBuf (o.queue m).eachLen.toNat (o.queue m).maxMsgs.toNat
      (o.queue m).index.toNat pending ∧ (o.queue m).numMsgs.toNat = pending.length

lemma Delivers.congr {o o' : MsgQueues} (h : Delivers o m) (hqueue : o'.queue m = o.queue m)
    (hsent : o'.sent m = o.sent m) (hreceived : o'.received m = o.received m) : Delivers o' m := by
  rw [Delivers, hqueue, hsent, hreceived]
  exact h

lemma Delivers.push {o o' : MsgQueues} (h : Delivers o m) {buffer : List UInt8}
    (hb : ¬ (o.queue m).numMsgs ≥ (o.queue m).maxMsgs)
    (hfits : buffer.length ≤ (o.queue m).eachLen.toNat)
    (hqueue : o'.queue m = (o.queue m).push buffer) (hsent : o'.sent m = o.sent m ++ [buffer])
    (hreceived : o'.received m = o.received m) : Delivers o' m := by
  obtain ⟨done, pending, hsplit, hagree, hslots, hnum⟩ := h
  have hlt := UInt16.lt_iff_toNat_lt.mp (UInt16.not_le.mp hb)
  have hpush := hslots.push (hnum ▸ hlt) hfits
  refine ⟨done, pending ++ [buffer], ?_, hreceived ▸ hagree, ?_, ?_⟩
  · rw [hsent, hsplit, append_assoc]
  · rw [hqueue]
    simpa only [MsgQueue.push, hnum] using hpush
  · rw [hqueue, MsgQueue.push, numMsgs_push hb, hnum, length_append, length_singleton]

lemma Delivers.pop {o o' : MsgQueues} (h : Delivers o m) (size : Nat)
    (hb : ¬ (o.queue m).numMsgs ≤ 0) (hqueue : o'.queue m = (o.queue m).pop)
    (hsent : o'.sent m = o.sent m)
    (hreceived : o'.received m = o.received m ++ [(o.queue m).message size]) : Delivers o' m := by
  obtain ⟨done, pending, hsplit, hagree, hslots, hnum⟩ := h
  have hpop := numMsgs_pop hb
  cases pending with
  | nil =>
    rw [length_nil] at hnum
    omega
  | cons p pending =>
    refine ⟨done ++ [p], pending, ?_, ?_, ?_, ?_⟩
    · rw [hsent, hsplit, append_assoc, singleton_append]
    · rw [hreceived]
      exact rel_append hagree (.cons (hslots.head.agree _) .nil)
    · rw [hqueue]
      have hindex : ((((o.queue m).index.toNat + 1) % (o.queue m).maxMsgs.toNat).toUInt16).toNat =
          ((o.queue m).index.toNat + 1) % (o.queue m).maxMsgs.toNat := by
        have hmax : 0 < (o.queue m).maxMsgs.toNat :=
          Nat.lt_of_lt_of_le (succ_pos _) hslots.length_le
        exact UInt16.toNat_ofNat_of_lt' ((mod_lt _ hmax).trans (UInt16.toNat_lt _))
      simpa only [MsgQueue.pop, hindex] using hslots.pop
    · rw [hqueue, MsgQueue.pop]
      rw [length_cons] at hnum
      dsimp only
      omega

lemma Delivers.mqTr (h : Delivers a.obj m) (hl : LocalsOk a) (ht : MqTurn cfg a m' t request)
    (htr : MqTr a m' t request a') : Delivers a'.obj m := by
  cases htr with
  | refuse => exact h.congr rfl rfl rfl
  | wait => exact h.congr rfl rfl rfl
  | serve hb hfits =>
    have hfits' := hl.fits ht hfits
    rw [mqResumed_obj]
    by_cases hm : m = m'
    · subst hm
      cases request with
      | send buffer =>
        refine h.push hb hfits' ?_ ?_ rfl
        · simp [World.setCall, MsgQueues.log, setRet, MsgQueues.set, serve]
        · simp [World.setCall, MsgQueues.log, setRet, MsgQueues.set]
      | recv size =>
        refine h.pop size hb ?_ rfl ?_
        · simp [World.setCall, MsgQueues.log, setRet, MsgQueues.set, serve]
        · simp [World.setCall, MsgQueues.log, setRet, MsgQueues.set, bytes]
    · refine h.congr ?_ ?_ ?_
      · simp [World.setCall, log_queue, setRet, MsgQueues.set, hm]
      · cases request <;> simp [World.setCall, MsgQueues.log, setRet, MsgQueues.set, hm]
      · cases request <;> simp [World.setCall, MsgQueues.log, setRet, MsgQueues.set, hm]

variable {κ : Type} (k : Sched κ)

def isOrdinary : WorldOp MqOp → Bool
  | .act (.urgentSend _ _) => false
  | _ => true

structure FifoOk (o : MsgQueues) (m : Nat) : Prop where
  order : List.Forall₂ Agree ((o.sent m).take (o.received m).length) (o.received m)
  bound : (o.queue m).numMsgs ≤ (o.queue m).maxMsgs

/-- What a call that has returned `EOK` has done to its queue's history. -/
def Recorded (o o' : MsgQueues) (m : Nat) : MqRequest → Prop
  | .send buffer => o'.sent m = o.sent m ++ [buffer]
  | .recv size => ∃ bytes, o'.received m = o.received m ++ [bytes] ∧
    bytes.length = min size (o.queue m).eachLen.toNat

structure MqCallOk (w : World κ MsgQueues) (op : WorldOp MqOp) (w' : World κ MsgQueues) : Prop where
  error : ∀ t m request, mqTurn k w op = some (t, m, request) → w'.obj.ret t ≠ some eok →
    w'.obj.queue = w.obj.queue ∧ w'.obj.sent = w.obj.sent ∧ w'.obj.received = w.obj.received
  done : ∀ t m request, mqTurn k w op = some (t, m, request) → w'.obj.ret t = some eok →
    Recorded w.obj w'.obj m request

structure WakesEnough (w : World κ MsgQueues) (m : Nat) : Prop where
  recv : k.first w.kernel (2 * m + 1) ≠ none →
    (w.obj.queue m).numMsgs.toNat ≤ {t | w.call t = some (2 * m + 1, true)}.ncard
  send : k.first w.kernel (2 * m) ≠ none →
    (w.obj.queue m).maxMsgs.toNat - (w.obj.queue m).numMsgs.toNat ≤
      {t | w.call t = some (2 * m, true)}.ncard

end

variable {fuel : Nat} {w w' : World State MsgQueues}
variable {m : Nat}

structure MqInv (w : World State MsgQueues) (a : World View MsgQueues) : Prop where
  sim : WorldSim w a
  world : WorldInv a
  locals : LocalsOk a

lemma World.Fresh.mqInv (hw : w.Fresh) :
    ∃ a, MqInv w a ∧ (∀ k, a.kernel.pend k = []) ∧ ∀ t, a.call t = none := by
  obtain ⟨a, hsim, hi, hpend⟩ := hw.inv
  have hcall : ∀ t, a.call t = none := hsim.call ▸ hw.call
  exact ⟨a, ⟨hsim, hi, fun t list resumed ht => by simp [hcall] at ht⟩, hpend, hcall⟩

variable {op : WorldOp MqOp}

lemma MqInv.step (hi : MqInv w a) (hop : isOrdinary op)
    (h : mqStep (stateSched cfg fuel) w op = some w') :
    ∃ a', MqInv w' a' ∧
      ((∃ op' v, op = .kernel op' ∧ a.KernelTr cfg op' v ∧ a' = { a with kernel := v }) ∨
        ∃ m t request, mqTurn (viewSched cfg) a op = some (t, m, request) ∧
          MqTurn cfg a m t request ∧ MqTr a m t request a') := by
  obtain ⟨a', ha', hsim'⟩ := (hi.sim.mqStep op).post h
  refine ⟨a', ?_⟩
  obtain ⟨op', v, rfl, hv, rfl⟩ | ⟨i, rfl, hact⟩ := World.step_cases ha'
  · exact ⟨⟨hsim', hi.world.kernel hv, hi.locals⟩, .inl ⟨op', v, rfl, hv, rfl⟩⟩
  · have hurgent : ∀ m buffer, i ≠ .urgentSend m buffer := by
      rintro m buffer rfl
      simp [isOrdinary] at hop
    obtain ⟨m, t, request, hturn, ht, htr⟩ := mqTr_of_act hact hurgent
    exact ⟨⟨hsim', hi.world.mqTr ht htr ⟨_, hsim'.kernel⟩, hi.locals.mqTr hi.world ht htr⟩,
      .inr ⟨m, t, request, hturn, ht, htr⟩⟩

lemma Delivers.fifoOk {o : MsgQueues} (h : Delivers o m) : FifoOk o m := by
  obtain ⟨done, pending, hsent, hagree, hslots, hnum⟩ := h
  refine ⟨?_, ?_⟩
  · rw [hsent, ← hagree.length_eq, take_left]
    exact hagree
  · rw [UInt16.le_iff_toNat_le, hnum]
    exact hslots.length_le

lemma MqTr.error {t : Nat} {request : MqRequest} (h : MqTr a m t request a')
    (hret : a'.obj.ret t ≠ some eok) : a'.obj.queue = a.obj.queue ∧ a'.obj.sent = a.obj.sent ∧
      a'.obj.received = a.obj.received := by
  cases h with
  | refuse => exact ⟨rfl, rfl, rfl⟩
  | wait => exact ⟨rfl, rfl, rfl⟩
  | serve =>
    rw [mqResumed_obj] at hret
    cases request <;> simp [World.setCall, MsgQueues.log, setRet] at hret

lemma MqTr.recorded {t : Nat} {request : MqRequest} (h : MqTr a m t request a')
    (hret : a'.obj.ret t = some eok) : Recorded a.obj a'.obj m request := by
  cases h with
  | refuse hne => exact absurd (by simpa [World.setCall, setRet] using hret) hne
  | wait => simp [World.setCall, setRet] at hret
  | serve =>
    rw [mqResumed_obj]
    cases request with
    | send buffer => exact update_self ..
    | recv size =>
      refine ⟨_, update_self .., ?_⟩
      simp only [bytes, MsgQueue.message, Mem.get, length_map, length_range]
      split <;> omega

lemma WorldSim.mqTurn (hs : WorldSim w a) :
    Kernel.mqTurn (stateSched cfg fuel) w op = Kernel.mqTurn (viewSched cfg) a op := by
  rcases op with op | (_ | _ | _)
  · rfl
  · simp only [Kernel.mqTurn, hs.caller]
  · simp only [Kernel.mqTurn, hs.waker, hs.obj]
  · rfl

lemma MqInv.callOk {t m : Nat} {request : MqRequest} (hi : MqInv w a) (hi' : MqInv w' a')
    (hturn : mqTurn (viewSched cfg) a op = some (t, m, request))
    (htr : MqTr a m t request a') : MqCallOk (stateSched cfg fuel) w op w' := by
  constructor <;> intro t' m' request' hturn' <;> rw [hi.sim.mqTurn, hturn] at hturn' <;>
    cases hturn' <;> rw [hi.sim.obj, hi'.sim.obj]
  · exact htr.error
  · exact htr.recorded

theorem mqRun_fifo (hw : w.Fresh) (hindex : (w.obj.queue m).index = 0)
    (hnum : (w.obj.queue m).numMsgs = 0) (hsent : w.obj.sent m = [])
    (hreceived : w.obj.received m = []) {ops : List (WorldOp MqOp)}
    (hops : ∀ op ∈ ops, isOrdinary op) :
    Along (mqStep (stateSched cfg fuel)) (fun w₁ op w₂ =>
      FifoOk w₂.obj m ∧ MqCallOk (stateSched cfg fuel) w₁ op w₂) w ops := by
  obtain ⟨a, hi, -⟩ := hw.mqInv
  have hdelivers : Delivers w.obj m := by
    refine ⟨[], [], ?_, ?_, ?_, ?_⟩
    · rw [hsent, nil_append]
    · rw [hreceived]
      exact .nil
    · rw [hindex]
      exact .nil _ _ _
    · rw [hnum]
      rfl
  refine along_of_each (I := fun w => ∃ a, MqInv w a ∧ Delivers w.obj m) ?_ ⟨a, hi, hdelivers⟩
    (Each.of_forall hops)
  rintro w₁ op w₂ ⟨a₁, hi₁, hd₁⟩ hop h
  obtain ⟨a₂, hi₂, hcases⟩ := hi₁.step hop h
  obtain ⟨op', v, rfl, -, rfl⟩ | ⟨m', t, request, hturn, ht, htr⟩ := hcases
  · have hobj : w₂.obj = w₁.obj := hi₂.sim.obj.trans hi₁.sim.obj.symm
    exact ⟨⟨_, hi₂, hobj ▸ hd₁⟩, hobj ▸ hd₁.fifoOk, nofun, nofun⟩
  · have hd₂ : Delivers w₂.obj m := by
      rw [hi₂.sim.obj]
      rw [hi₁.sim.obj] at hd₁
      exact hd₁.mqTr hi₁.locals ht htr
    exact ⟨⟨a₂, hi₂, hd₂⟩, hd₂.fifoOk, hi₁.callOk hi₂ hturn htr⟩

def sampleQueues (index : UInt16) : World State MsgQueues :=
  sampleWorld ⟨fun _ => ⟨index, 0, 4, 2, fun _ => 0⟩, fun _ => ⟨0, .recv 0, 0, 0⟩, fun _ => [],
    fun _ => [], fun _ => none⟩

def sampleMqOps : List (WorldOp MqOp) :=
  [.kernel (.start 3), .kernel (.start 9), .kernel (.start 12), .kernel (.dispatch 3),
    .act (.request 1 (.recv 4) 50 0 true), .kernel (.dispatch 9),
    .act (.request 1 (.recv 4) 50 0 true), .kernel (.dispatch 12),
    .act (.request 1 (.send [1, 2, 3]) 50 0 true)]

theorem mqRun_fifo_sample :
    (runs (mqStep (stateSched sampleConfig 20)) (sampleQueues 0)
        (sampleMqOps ++ [.kernel (.dispatch 3), .act (.goOn 0 true)])).map (·.obj.received 1) =
      some [[1, 2, 3, 0]] ∧
    Along (mqStep (stateSched sampleConfig 20)) (fun w₁ op w₂ =>
        FifoOk w₂.obj 1 ∧ MqCallOk (stateSched sampleConfig 20) w₁ op w₂) (sampleQueues 0)
      (sampleMqOps ++ [.kernel (.dispatch 3), .act (.goOn 0 true)]) :=
  ⟨by decide +kernel, mqRun_fifo (sampleWorld_fresh _) rfl rfl rfl rfl (by decide)⟩

lemma NoneLost.wakesEnough (hn : NoneLost a) (hs : WorldSim w a) (m : Nat) :
    WakesEnough (stateSched cfg fuel) w m := by
  have hset : ∀ list, {t | w.call t = some (list, true)} = {t | isWoken a list t} := by
    intro list
    simp [isWoken, hs.call]
  have hfirst : ∀ {list}, (stateSched cfg fuel).first w.kernel list ≠ none →
      a.kernel.pend list ≠ [] := by
    intro list hne hnil
    simp [hs.kernel.first, hnil] at hne
  refine ⟨fun hne => ?_, fun hne => ?_⟩
  · obtain ⟨n, hcount, hroom⟩ := hn (2 * m + 1)
    have hle := hroom (hfirst hne)
    rwa [room_recv, ← hs.obj, ← hcount.ncard_eq, ← hset] at hle
  · obtain ⟨n, hcount, hroom⟩ := hn (2 * m)
    have hle := hroom (hfirst hne)
    rwa [room_send, ← hs.obj, ← hcount.ncard_eq, ← hset] at hle

lemma NumLe.mqTr {t : Nat} {request : MqRequest} (hle : NumLe a.obj)
    (h : MqTr a m t request a') : NumLe a'.obj := by
  cases h with
  | refuse => exact hle
  | wait => exact hle
  | serve hb =>
    refine (hle.serve hb ?_).1
    rw [mqResumed_obj]
    cases request <;> rfl

/-- No wakeup is lost: neither a message nor a free slot waits for a task in a list. -/
theorem mqRun_wakesEnough (hw : w.Fresh) (hle : NumLe w.obj) {ops : List (WorldOp MqOp)}
    (hops : ∀ op ∈ ops, isOrdinary op) :
    Always (mqStep (stateSched cfg fuel))
      (fun w => ∀ m, WakesEnough (stateSched cfg fuel) w m) w ops := by
  obtain ⟨a, hi, hpend, hcall⟩ := hw.mqInv
  have hnone : NoneLost a := fun list =>
    ⟨0, .zero fun t => by simp [isWoken, hcall], fun hne => absurd (hpend list) hne⟩
  have hrun : Always (mqStep (stateSched cfg fuel))
      (fun w => ∃ a, MqInv w a ∧ NumLe a.obj ∧ NoneLost a) w ops := by
    refine always_of_each ?_ ⟨a, hi, hi.sim.obj ▸ hle, hnone⟩ (Each.of_forall hops)
    rintro w₁ op w₂ ⟨a₁, hi₁, hle₁, hn₁⟩ hop h
    obtain ⟨a₂, hi₂, hcases⟩ := hi₁.step hop h
    obtain ⟨op', v, rfl, hv, rfl⟩ | ⟨m, t, request, -, ht, htr⟩ := hcases
    · exact ⟨_, hi₂, hle₁, hn₁.kernel hi₁.world hv⟩
    · exact ⟨a₂, hi₂, hle₁.mqTr htr, hn₁.mqTr hi₁.world hi₁.locals hle₁ ht htr⟩
  refine hrun.mono ?_
  rintro w ⟨a, hi, -, hn⟩ m
  exact hn.wakesEnough hi.sim m

theorem mqRun_wakesEnough_sample :
    (runs (mqStep (stateSched sampleConfig 20)) (sampleQueues 0) sampleMqOps).map
        (fun w => ((stateSched sampleConfig 20).first w.kernel 3, (w.obj.queue 1).numMsgs,
          w.call 3)) =
      some (some 9, 1, some (3, true)) ∧
    Always (mqStep (stateSched sampleConfig 20))
      (fun w => ∀ m, WakesEnough (stateSched sampleConfig 20) w m) (sampleQueues 0) sampleMqOps :=
  ⟨by decide +kernel, mqRun_wakesEnough (sampleWorld_fresh _) (fun _ => Nat.zero_le _) (by decide)⟩

end Xiuos.Kernel
