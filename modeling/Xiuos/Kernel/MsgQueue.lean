import Xiuos.Kernel.World
import Xiuos.Lib.Slots

/-! `msgqueue.c`: the critical sections of `_MsgQueueSend`, `_MsgQueueUrgentSend` and
`_MsgQueueRecv`, and runs of them. -/

namespace Xiuos.Kernel
open Lib Function Option

def efull : Int := 3

structure MsgQueue where
  index : UInt16
  numMsgs : UInt16
  eachLen : UInt16
  maxMsgs : UInt16
  msgBuf : Mem

namespace MsgQueue

def push (mq : MsgQueue) (buffer : List UInt8) : MsgQueue :=
  { mq with
    msgBuf := mq.msgBuf.put
      ((mq.index.toNat + mq.numMsgs.toNat) % mq.maxMsgs.toNat * mq.eachLen.toNat) buffer
    numMsgs := mq.numMsgs + 1 }

def message (mq : MsgQueue) (size : Nat) : List UInt8 :=
  mq.msgBuf.get (mq.index.toNat * mq.eachLen.toNat)
    (if size > mq.eachLen.toNat then mq.eachLen.toNat else size)

def pop (mq : MsgQueue) : MsgQueue :=
  { mq with
    index := ((mq.index.toNat + 1) % mq.maxMsgs.toNat).toUInt16
    numMsgs := mq.numMsgs - 1 }

def stepBack (mq : MsgQueue) : MsgQueue :=
  let index := mq.index - 1
  { mq with index := if (index.toNat : Int) < 0 then index + mq.maxMsgs else index }

end MsgQueue

inductive MqRequest
  | send (buffer : List UInt8)
  | recv (size : Nat)
  deriving DecidableEq

namespace MqRequest

def list (m : Nat) : MqRequest → Nat
  | .send _ => 2 * m
  | .recv _ => 2 * m + 1

def other (m : Nat) : MqRequest → Nat
  | .send _ => 2 * m + 1
  | .recv _ => 2 * m

def Blocked (mq : MsgQueue) : MqRequest → Prop
  | .send _ => mq.numMsgs ≥ mq.maxMsgs
  | .recv _ => mq.numMsgs ≤ 0

instance (mq : MsgQueue) (request : MqRequest) : Decidable (request.Blocked mq) := by
  cases request <;> rw [Blocked] <;> infer_instance

def Fits (mq : MsgQueue) : MqRequest → Prop
  | .send buffer => buffer.length ≤ mq.eachLen.toNat
  | .recv _ => True

def serve (mq : MsgQueue) : MqRequest → MsgQueue
  | .send buffer => mq.push buffer
  | .recv _ => mq.pop

def bytes (mq : MsgQueue) : MqRequest → List UInt8
  | .send _ => []
  | .recv size => mq.message size

end MqRequest

section
variable {κ : Type} (k : Sched κ)

def resumeFirst (kernel : κ) (list : Nat) : Option κ :=
  match k.first kernel list with
  | some _ => k.linklistResume kernel list
  | none => some kernel

def waitFifo (kernel : κ) (list t : Nat) (timeout : Int32) (now : UInt32) (alloc : Bool) :
    Option κ := do
  let kernel ← k.linklistSuspend kernel list t .fifo
  k.startTimer kernel t timeout now alloc

/-- From the test of the loop of `_MsgQueueSend` to the next point where it waits or returns. -/
def msgQueueSendLoop (kernel : κ) (mq : MsgQueue) (m t : Nat) (buffer : List UInt8)
    (timeout : Int32) (now : UInt32) (alloc : Bool) :
    Option (κ × MsgQueue × List UInt8 × Outcome) :=
  if mq.numMsgs ≥ mq.maxMsgs then
    let kernel := k.setExstatus kernel t eok
    if timeout = 0 then some (kernel, mq, [], .returned (-efull))
    else do
      let kernel ← waitFifo k kernel (2 * m) t timeout now alloc
      some (kernel, mq, [], .suspended)
  else do
    let kernel ← resumeFirst k kernel (2 * m + 1)
    some (kernel, mq.push buffer, [], .returned eok)

def msgQueueRecvLoop (kernel : κ) (mq : MsgQueue) (m t size : Nat) (timeout : Int32) (now : UInt32)
    (alloc : Bool) : Option (κ × MsgQueue × List UInt8 × Outcome) :=
  if mq.numMsgs ≤ 0 then
    let kernel := k.setExstatus kernel t eok
    if timeout = 0 then some (k.setExstatus kernel t (-etimeout), mq, [], .returned (-etimeout))
    else do
      let kernel ← waitFifo k kernel (2 * m + 1) t timeout now alloc
      some (kernel, mq, [], .suspended)
  else do
    let kernel ← resumeFirst k kernel (2 * m)
    some (kernel, mq.pop, mq.message size, .returned eok)

def mqLoop (kernel : κ) (mq : MsgQueue) (m t : Nat) (request : MqRequest) (timeout : Int32)
    (now : UInt32) (alloc : Bool) : Option (κ × MsgQueue × List UInt8 × Outcome) :=
  match request with
  | .send buffer => msgQueueSendLoop k kernel mq m t buffer timeout now alloc
  | .recv size => msgQueueRecvLoop k kernel mq m t size timeout now alloc

def msgQueueSend (kernel : κ) (mq : MsgQueue) (m t : Nat) (buffer : List UInt8) (timeout : Int32)
    (now : UInt32) (alloc : Bool) : Option (κ × MsgQueue × List UInt8 × Outcome) :=
  if buffer.length > mq.eachLen.toNat then some (kernel, mq, [], .returned (-error))
  else if mq.numMsgs ≥ mq.maxMsgs ∧ timeout = 0 then some (kernel, mq, [], .returned (-efull))
  else msgQueueSendLoop k kernel mq m t buffer timeout now alloc

/-- The first check looks at the index and not at the number of messages. -/
def msgQueueRecv (kernel : κ) (mq : MsgQueue) (m t size : Nat) (timeout : Int32) (now : UInt32)
    (alloc : Bool) : Option (κ × MsgQueue × List UInt8 × Outcome) :=
  if mq.index = 0 ∧ timeout = 0 then some (kernel, mq, [], .returned (-etimeout))
  else msgQueueRecvLoop k kernel mq m t size timeout now alloc

def mqBegin (kernel : κ) (mq : MsgQueue) (m t : Nat) (request : MqRequest) (timeout : Int32)
    (now : UInt32) (alloc : Bool) : Option (κ × MsgQueue × List UInt8 × Outcome) :=
  match request with
  | .send buffer => msgQueueSend k kernel mq m t buffer timeout now alloc
  | .recv size => msgQueueRecv k kernel mq m t size timeout now alloc

/-- Those that wait to send are resumed, not those that wait to receive. -/
def msgQueueUrgentSend (kernel : κ) (mq : MsgQueue) (m : Nat) (buffer : List UInt8) :
    Option (κ × MsgQueue × Int) :=
  if buffer.length > mq.eachLen.toNat then some (kernel, mq, -error)
  else if mq.numMsgs ≥ mq.maxMsgs then some (kernel, mq, -efull)
  else do
    let kernel ← resumeFirst k kernel (2 * m)
    some (kernel, mq.stepBack.push buffer, eok)

def mqTimeLeft (timeout : Int32) (tickDelta now : UInt32) : Int32 :=
  if timeout > 0 then
    let timeout := timeout - (now - tickDelta).toInt32
    if timeout < 0 then 0 else timeout
  else timeout

structure MqCall where
  queue : Nat
  request : MqRequest
  timeout : Int32
  tickDelta : UInt32
  deriving DecidableEq

structure MsgQueues where
  queue : Nat → MsgQueue
  locals : Nat → MqCall
  sent : Nat → List (List UInt8)
  received : Nat → List (List UInt8)
  ret : Nat → Option Int

namespace MsgQueues

def set (o : MsgQueues) (m : Nat) (mq : MsgQueue) : MsgQueues :=
  { o with queue := update o.queue m mq }

def setRet (o : MsgQueues) (t : Nat) (ret : Option Int) : MsgQueues :=
  { o with ret := update o.ret t ret }

def setLocals (o : MsgQueues) (t : Nat) (call : MqCall) : MsgQueues :=
  { o with locals := update o.locals t call }

def log (o : MsgQueues) (m : Nat) (bytes : List UInt8) : MqRequest → MsgQueues
  | .send buffer => { o with sent := update o.sent m (o.sent m ++ [buffer]) }
  | .recv _ => { o with received := update o.received m (o.received m ++ [bytes]) }

end MsgQueues

inductive MqOp
  | request (m : Nat) (request : MqRequest) (timeout : Int32) (now : UInt32) (alloc : Bool)
  | goOn (now : UInt32) (alloc : Bool)
  | urgentSend (m : Nat) (buffer : List UInt8)
  deriving DecidableEq

def mqResumed (w : World κ MsgQueues) (list : Nat) : Option Nat → World κ MsgQueues
  | some u => w.setCall u (some (list, true))
  | none => w

def mqDone (w : World κ MsgQueues) (m t : Nat) (request : MqRequest) (timeout : Int32)
    (now : UInt32) (first : Option Nat) (bytes : List UInt8) : Outcome → World κ MsgQueues
  | .returned ret =>
    let w := { w with obj := w.obj.setRet t (some ret) }.setCall t none
    if ret = eok then
      mqResumed { w with obj := w.obj.log m bytes request } (request.other m) first
    else w
  | .suspended =>
    { w with obj := (w.obj.setLocals t ⟨m, request, timeout, now⟩).setRet t none }.setCall t
      (some (request.list m, false))

def mqAct (w : World κ MsgQueues) : MqOp → Option (World κ MsgQueues)
  | .request m request timeout now alloc => do
    let t ← w.caller k
    let (kernel, mq, bytes, outcome) ←
      mqBegin k w.kernel (w.obj.queue m) m t request timeout now alloc
    some (mqDone { w with kernel, obj := w.obj.set m mq } m t request timeout now
      (k.first w.kernel (request.other m)) bytes outcome)
  | .goOn now alloc => do
    let (t, _) ← w.waker k
    let c := w.obj.locals t
    let exstatus := (k.task w.kernel t).exstatus
    if exstatus ≠ eok then some ({ w with obj := w.obj.setRet t (some exstatus) }.setCall t none)
    else
      let timeout := mqTimeLeft c.timeout c.tickDelta now
      let (kernel, mq, bytes, outcome) ←
        mqLoop k w.kernel (w.obj.queue c.queue) c.queue t c.request timeout now alloc
      some (mqDone { w with kernel, obj := w.obj.set c.queue mq } c.queue t c.request timeout now
        (k.first w.kernel (c.request.other c.queue)) bytes outcome)
  | .urgentSend m buffer => do
    let (kernel, mq, ret) ← msgQueueUrgentSend k w.kernel (w.obj.queue m) m buffer
    let w' := { w with kernel, obj := w.obj.set m mq }
    some (if ret = eok then mqResumed w' (2 * m) (k.first w.kernel (2 * m)) else w')

def mqStep (w : World κ MsgQueues) (op : WorldOp MqOp) : Option (World κ MsgQueues) :=
  w.step k (mqAct k) op

end

section
variable {κ : Type} {k : Sched κ} {kernel : κ} {mq : MsgQueue} {m t : Nat} {request : MqRequest}
variable {timeout : Int32} {now : UInt32} {alloc : Bool}

def MqRequest.refuse (k : Sched κ) (kernel : κ) (t : Nat) : MqRequest → κ × Int
  | .send _ => (k.setExstatus kernel t eok, -efull)
  | .recv _ => (k.setExstatus (k.setExstatus kernel t eok) t (-etimeout), -etimeout)

lemma mqLoop_eq : mqLoop k kernel mq m t request timeout now alloc =
    if request.Blocked mq then
      if timeout = 0 then
        some ((request.refuse k kernel t).1, mq, [], .returned (request.refuse k kernel t).2)
      else waitFifo k (k.setExstatus kernel t eok) (request.list m) t timeout now alloc >>=
        fun kernel => some (kernel, mq, [], .suspended)
    else resumeFirst k kernel (request.other m) >>= fun kernel =>
      some (kernel, request.serve mq, request.bytes mq, .returned eok) := by
  cases request <;> rfl

lemma mqBegin_cases (mq : MsgQueue) (request : MqRequest) (timeout : Int32) :
    (∃ ret ≠ eok, ∀ {κ : Type} (k : Sched κ) kernel m t now alloc,
      mqBegin k kernel mq m t request timeout now alloc = some (kernel, mq, [], .returned ret)) ∨
    (request.Fits mq ∧ ∀ {κ : Type} (k : Sched κ) kernel m t now alloc,
      mqBegin k kernel mq m t request timeout now alloc =
        mqLoop k kernel mq m t request timeout now alloc) := by
  cases request with
  | send buffer =>
    simp only [mqBegin, msgQueueSend, mqLoop, MqRequest.Fits]
    split_ifs with hlong hfull
    · exact .inl ⟨_, by decide, fun _ _ _ _ _ _ => rfl⟩
    · exact .inl ⟨_, by decide, fun _ _ _ _ _ _ => rfl⟩
    · exact .inr ⟨Nat.le_of_not_lt hlong, fun _ _ _ _ _ _ => rfl⟩
  | recv size =>
    simp only [mqBegin, msgQueueRecv, mqLoop, MqRequest.Fits]
    split_ifs
    · exact .inl ⟨_, by decide, fun _ _ _ _ _ _ => rfl⟩
    · exact .inr ⟨trivial, fun _ _ _ _ _ _ => rfl⟩

end

variable {cfg : Config} {s : State} {v : View} {t : Nat}

section
variable (hs : Sim s v)
include hs

lemma Sim.resumeFirst (list : Nat) :
    Follows (fun fuel => Kernel.resumeFirst (stateSched cfg fuel) s list)
      (Kernel.resumeFirst (viewSched cfg) v list) Sim := by
  simp only [Kernel.resumeFirst, hs.first]
  cases (viewSched cfg).first v list with
  | none => exact .pure hs
  | some u => exact hs.resumes list

lemma Sim.waitFifo (ht : (viewSched cfg).caller v = some t) (list : Nat) (timeout : Int32)
    (now : UInt32) (alloc : Bool) :
    Follows (fun fuel => Kernel.waitFifo (stateSched cfg fuel) s list t timeout now alloc)
      (Kernel.waitFifo (viewSched cfg) v list t timeout now alloc) Sim := by
  obtain ⟨hcur, hstat⟩ := Sim.of_caller ht
  simp only [Kernel.waitFifo, View.startTimer_eq, bind_eq_bind]
  refine Returns.bind (hs.suspends hcur hstat list .fifo) fun s₁ hs₁ => ?_
  exact hs₁.startTimer (by simp [View.suspend_stat]) timeout now alloc

omit hs in
lemma View.caller_setExstatus (ht : (viewSched cfg).caller v = some t) (u : Nat)
    (exstatus : Int) : (viewSched cfg).caller (v.setExstatus u exstatus) = some t := by
  obtain ⟨hcur, hstat⟩ := Sim.of_caller ht
  rw [Sched.caller, filter_eq_some_iff]
  exact ⟨hcur, decide_eq_true (by simpa using hstat)⟩

lemma Sim.mqLoop (ht : (viewSched cfg).caller v = some t) (mq : MsgQueue) (m : Nat)
    (request : MqRequest) (timeout : Int32) (now : UInt32) (alloc : Bool) :
    Follows (fun fuel => Kernel.mqLoop (stateSched cfg fuel) s mq m t request timeout now alloc)
      (Kernel.mqLoop (viewSched cfg) v mq m t request timeout now alloc) fun r r' =>
        Sim r.1 r'.1 ∧ r.2 = r'.2 := by
  have hs' := hs.setExstatus t eok
  simp only [mqLoop_eq, stateSched_setExstatus, viewSched_setExstatus]
  by_cases hblocked : request.Blocked mq
  · by_cases hzero : timeout = 0
    · simp only [hblocked, hzero, if_true, MqRequest.refuse, stateSched_setExstatus,
        viewSched_setExstatus]
      cases request with
      | send => exact .pure ⟨hs', rfl⟩
      | recv => exact .pure ⟨hs'.setExstatus t _, rfl⟩
    · simp only [hblocked, hzero, if_true, if_false]
      exact (hs'.waitFifo (View.caller_setExstatus ht t eok) _ timeout now alloc).bind
        fun s₁ v₁ _ hs₁ => .pure ⟨hs₁, rfl⟩
  · simp only [hblocked, if_false]
    exact (hs.resumeFirst _).bind fun s₁ v₁ _ hs₁ => .pure ⟨hs₁, rfl⟩

lemma Sim.mqBegin (ht : (viewSched cfg).caller v = some t) (mq : MsgQueue) (m : Nat)
    (request : MqRequest) (timeout : Int32) (now : UInt32) (alloc : Bool) :
    Follows (fun fuel => Kernel.mqBegin (stateSched cfg fuel) s mq m t request timeout now alloc)
      (Kernel.mqBegin (viewSched cfg) v mq m t request timeout now alloc) fun r r' =>
        Sim r.1 r'.1 ∧ r.2 = r'.2 := by
  obtain ⟨ret, -, h⟩ | ⟨-, h⟩ := mqBegin_cases mq request timeout
  · simp only [h]
    exact .pure ⟨hs, rfl⟩
  · simp only [h]
    exact hs.mqLoop ht mq m request timeout now alloc

lemma Sim.msgQueueUrgentSend (mq : MsgQueue) (m : Nat) (buffer : List UInt8) :
    Follows (fun fuel => Kernel.msgQueueUrgentSend (stateSched cfg fuel) s mq m buffer)
      (Kernel.msgQueueUrgentSend (viewSched cfg) v mq m buffer) fun r r' =>
        Sim r.1 r'.1 ∧ r.2 = r'.2 := by
  simp only [Kernel.msgQueueUrgentSend]
  split
  · exact .pure ⟨hs, rfl⟩
  split
  · exact .pure ⟨hs, rfl⟩
  · exact (hs.resumeFirst _).bind fun s₁ v₁ _ hs₁ => .pure ⟨hs₁, rfl⟩

end

variable {w : World State MsgQueues} {a : World View MsgQueues} (hs : WorldSim w a)
include hs

lemma WorldSim.mqResumed (list : Nat) (first : Option Nat) :
    WorldSim (Kernel.mqResumed w list first) (Kernel.mqResumed a list first) := by
  cases first with
  | none => exact hs
  | some u => exact hs.setCall u _

lemma WorldSim.mqDone (m t : Nat) (request : MqRequest) (timeout : Int32) (now : UInt32)
    (first : Option Nat) (bytes : List UInt8) (outcome : Outcome) :
    WorldSim (Kernel.mqDone w m t request timeout now first bytes outcome)
      (Kernel.mqDone a m t request timeout now first bytes outcome) := by
  cases outcome with
  | returned ret =>
    have hs' := (hs.modify (·.setRet t (some ret))).setCall t none
    simp only [Kernel.mqDone]
    split
    · exact (hs'.modify (·.log m bytes request)).mqResumed _ first
    · exact hs'
  | suspended =>
    exact (hs.modify fun o => (o.setLocals t ⟨m, request, timeout, now⟩).setRet t none).setCall t _

lemma WorldSim.mqAct (op : MqOp) :
    Follows (fun fuel => Kernel.mqAct (stateSched cfg fuel) w op)
      (Kernel.mqAct (viewSched cfg) a op) WorldSim := by
  cases op with
  | request m request timeout now alloc =>
    simp only [Kernel.mqAct, hs.caller, hs.obj, hs.kernel.first]
    cases hc : a.caller (viewSched cfg) with
    | none => exact .none
    | some t =>
      refine (hs.kernel.mqBegin (World.of_caller hc).1 _ m request timeout now alloc).bind ?_
      rintro ⟨s', r⟩ ⟨v', r'⟩ - ⟨hk, rfl : r = r'⟩
      exact .pure ((hs.set hk _).mqDone m t request timeout now _ _ _)
  | goOn now alloc =>
    simp only [Kernel.mqAct, hs.waker, hs.obj, stateSched_task, viewSched_task, hs.kernel.task,
      hs.kernel.first]
    cases hc : a.waker (viewSched cfg) with
    | none => exact .none
    | some tc =>
      simp only [bind_eq_bind, bind_some]
      by_cases hex : (a.kernel.task tc.1).exstatus = eok
      · simp only [hex, ne_eq, not_true_eq_false, if_false]
        refine (hs.kernel.mqLoop (World.of_waker hc).1 _ _ _ _ now alloc).bind ?_
        rintro ⟨s', r⟩ ⟨v', r'⟩ - ⟨hk, rfl : r = r'⟩
        exact .pure ((hs.set hk _).mqDone _ _ _ _ _ _ _ _)
      · simp only [hex, ne_eq, not_false_eq_true, if_true]
        exact .pure ((hs.set hs.kernel _).setCall tc.1 none)
  | urgentSend m buffer =>
    simp only [Kernel.mqAct, hs.obj, hs.kernel.first]
    refine (hs.kernel.msgQueueUrgentSend _ m buffer).bind ?_
    rintro ⟨s', r⟩ ⟨v', r'⟩ - ⟨hk, rfl : r = r'⟩
    split
    · exact .pure ((hs.set hk _).mqResumed _ _)
    · exact .pure (hs.set hk _)

lemma WorldSim.mqStep (op : WorldOp MqOp) :
    Follows (fun fuel => Kernel.mqStep (stateSched cfg fuel) w op)
      (Kernel.mqStep (viewSched cfg) a op) WorldSim := WorldSim.step (fun hs => hs.mqAct) hs op

end Xiuos.Kernel
