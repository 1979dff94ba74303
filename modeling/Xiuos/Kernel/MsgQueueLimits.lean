import Xiuos.Kernel.HeapSafe
import Xiuos.Kernel.MsgQueueLaws
import Xiuos.Kernel.Object

/-! What urgent messages do to a message queue, and what a queue holds that `KCreateMsgQueue` has
made for given sizes. -/

namespace Xiuos.Kernel
open Lib Function List Nat Option HeapUser

namespace MsgQueue

def receives : Nat → MsgQueue → List (List UInt8)
  | 0, _ => []
  | n + 1, mq => mq.message mq.eachLen.toNat :: receives n mq.pop

def queued (mq : MsgQueue) : List (List UInt8) := mq.receives mq.numMsgs.toNat

end MsgQueue

structure MsgQueue.Next (mq mq' : MsgQueue) (buffer : List UInt8) : Prop where
  queued : ∃ first, mq'.queued = first :: mq.queued ∧ Agree buffer first
  index_lt : mq'.index < mq'.maxMsgs

structure UrgentOk (k : Sched κ) (m : Nat) (buffer : List UInt8) (w w' : World κ MsgQueues) :
    Prop where
  next : (w.obj.queue m).Next (w'.obj.queue m) buffer
  wakes : (∃ t, w.Waiting k (2 * m + 1) t) →
    ∃ t, w.Waiting k (2 * m + 1) t ∧ ¬ w'.Waiting k (2 * m + 1) t

def UrgentNext (cfg : Config) (w : World State MsgQueues) (m : Nat) : Prop :=
  (w.obj.queue m).numMsgs < (w.obj.queue m).maxMsgs →
    ∀ buffer, buffer.length ≤ (w.obj.queue m).eachLen.toNat →
      Returns (fun fuel => mqStep (stateSched cfg fuel) w (.act (.urgentSend m buffer)))
        (UrgentOk (stateSched cfg 0) m buffer w)

def UrgentCond (cfg : Config) (w : World State MsgQueues) (m : Nat) : Prop :=
  (w.obj.queue m).numMsgs < (w.obj.queue m).maxMsgs →
    (∀ t, ¬ w.Waiting (stateSched cfg 0) (2 * m + 1) t) ∧ 0 < (w.obj.queue m).index ∧
      (w.obj.queue m).index ≤ (w.obj.queue m).maxMsgs ∧
      ((w.obj.queue m).numMsgs = 0 ∨ (w.obj.queue m).eachLen = 0)

section
variable {mq : MsgQueue} {buffer : List UInt8}

lemma MsgQueue.stepBack_eq (mq : MsgQueue) : mq.stepBack = { mq with index := mq.index - 1 } := by
  have hnot : ¬ ((mq.index - 1).toNat : Int) < 0 := Int.not_lt.mpr (Int.natCast_nonneg _)
  simp only [MsgQueue.stepBack, if_neg hnot]

lemma sub_one_lt_iff {i n : UInt16} : i - 1 < n ↔ 0 < i ∧ i ≤ n := by
  have hi := i.toNat_lt
  have hn := n.toNat_lt
  rw [UInt16.lt_iff_toNat_lt, UInt16.lt_iff_toNat_lt, UInt16.le_iff_toNat_le, UInt16.toNat_sub,
    UInt16.toNat_one, UInt16.toNat_zero]
  omega

lemma MsgQueue.message_length (mq : MsgQueue) :
    (mq.message mq.eachLen.toNat).length = mq.eachLen.toNat := by simp [MsgQueue.message, Mem.get]

lemma MsgQueue.queued_push (hroom : mq.numMsgs < mq.maxMsgs) :
    (mq.push buffer).queued = (mq.push buffer).message mq.eachLen.toNat ::
      (mq.push buffer).pop.receives mq.numMsgs.toNat := by
  have hnum : (mq.push buffer).numMsgs.toNat = mq.numMsgs.toNat + 1 :=
    numMsgs_push (UInt16.not_le.mpr hroom)
  rw [MsgQueue.queued, hnum]
  rfl

lemma MsgQueue.receives_of_eachLen {n : Nat} (h : mq.eachLen = 0) :
    mq.receives n = replicate n [] := by
  induction n generalizing mq with
  | zero => rfl
  | succ n ih =>
    rw [MsgQueue.receives, ih (show mq.pop.eachLen = 0 from h), replicate_succ]
    congr 1
    exact eq_nil_of_length_eq_zero (by rw [mq.message_length, h]; rfl)

lemma MsgQueue.push_next (hindex : mq.index < mq.maxMsgs) (hnum : mq.numMsgs = 0) :
    Agree buffer ((mq.push buffer).message mq.eachLen.toNat) := by
  have hslot : (mq.index.toNat + mq.numMsgs.toNat) % mq.maxMsgs.toNat = mq.index.toNat := by
    rw [hnum, UInt16.toNat_zero, Nat.add_zero, mod_eq_of_lt (UInt16.lt_iff_toNat_lt.mp hindex)]
  simp only [MsgQueue.message, MsgQueue.push, hslot]
  exact Mem.has_put.agree _

lemma MsgQueue.push_next_old (hindex : mq.index < mq.maxMsgs) (hroom : mq.numMsgs < mq.maxMsgs)
    (hnum : mq.numMsgs ≠ 0) (hfits : buffer.length ≤ mq.eachLen.toNat) :
    (mq.push buffer).message mq.eachLen.toNat = mq.message mq.eachLen.toNat := by
  rw [UInt16.lt_iff_toNat_lt] at hindex hroom
  have hpos : mq.numMsgs.toNat ≠ 0 := fun h => hnum (UInt16.toNat_inj.mp h)
  have hslot : (mq.index.toNat + mq.numMsgs.toNat) % mq.maxMsgs.toNat ≠ mq.index.toNat := by
    intro h
    refine hpos (Slots.slot_injective mq.index.toNat hroom (zero_lt_of_lt hroom) ?_)
    rw [h, Nat.add_zero, mod_eq_of_lt hindex]
  simp only [MsgQueue.message, MsgQueue.push, Mem.get, gt_iff_lt, Nat.lt_irrefl, if_false]
  refine map_congr_left fun j hj => ?_
  have hj := mem_range.mp hj
  obtain hle | hle := Slots.apart mq.eachLen.toNat hslot
  · exact Mem.put_of_le (by omega)
  · exact Mem.put_of_lt (by omega)

lemma MsgQueue.urgent_iff (hroom : mq.numMsgs < mq.maxMsgs) :
    (∀ buffer, buffer.length ≤ mq.eachLen.toNat → mq.Next (mq.stepBack.push buffer) buffer) ↔
    0 < mq.index ∧ mq.index ≤ mq.maxMsgs ∧ (mq.numMsgs = 0 ∨ mq.eachLen = 0) := by
  have hindex : mq.stepBack.index < mq.stepBack.maxMsgs ↔
      0 < mq.index ∧ mq.index ≤ mq.maxMsgs := by
    rw [stepBack_eq]
    exact sub_one_lt_iff
  have hroom' : mq.stepBack.numMsgs < mq.stepBack.maxMsgs := hroom
  have heach : mq.stepBack.eachLen = mq.eachLen := rfl
  constructor
  · intro h
    obtain ⟨hpos, hle⟩ := hindex.mp (h [] (Nat.zero_le _)).index_lt
    refine ⟨hpos, hle, or_iff_not_imp_left.mpr fun hnum => ?_⟩
    by_contra hlen
    have hlen : 0 < mq.eachLen.toNat := Nat.pos_of_ne_zero fun h => hlen (UInt16.toNat_inj.mp h)
    -- a message that differs from what stands in the slot before the first one
    let old := mq.stepBack.msgBuf (mq.stepBack.index.toNat * mq.eachLen.toNat)
    obtain ⟨⟨first, hqueued, hagree⟩, -⟩ := h [old + 1] hlen
    have hlt := hindex.mpr ⟨hpos, hle⟩
    rw [queued_push hroom', heach] at hqueued
    have hold := (List.cons.inj hqueued).1
    have hshort : [old + 1].length ≤ mq.stepBack.eachLen.toNat := hlen
    rw [← heach, push_next_old hlt hroom' hnum hshort] at hold
    have hfirst : first[0]? = some old := by
      rw [← hold]
      simp [MsgQueue.message, Mem.get, heach, hlen, old]
    rw [hagree 0 _ rfl (by rw [← hold, message_length]; exact hlen)] at hfirst
    simp at hfirst
  · rintro ⟨hpos, hle, hone⟩ buffer hfits
    have hlt := hindex.mpr ⟨hpos, hle⟩
    refine ⟨⟨(mq.stepBack.push buffer).message mq.eachLen.toNat, ?_, ?_⟩, hlt⟩
    · rw [queued_push hroom', heach]
      congr 1
      obtain hnum | hlen := hone
      · rw [MsgQueue.queued, show mq.stepBack.numMsgs = mq.numMsgs from rfl, hnum]
        rfl
      · rw [MsgQueue.queued, receives_of_eachLen hlen]
        exact receives_of_eachLen hlen
    · obtain hnum | hlen := hone
      · exact push_next hlt hnum
      · obtain rfl : buffer = [] := eq_nil_of_length_eq_zero (by simpa [hlen] using hfits)
        intro j byte hj
        simp at hj

variable {cfg : Config} {fuel m : Nat} {w w' : World State MsgQueues} {a a' : World View MsgQueues}

def urgentSent (a : World View MsgQueues) (m : Nat) (buffer : List UInt8) : World View MsgQueues :=
  mqResumed { a with
    kernel := a.kernel.resumeFirst (2 * m)
    obj := a.obj.set m ((a.obj.queue m).stepBack.push buffer) } (2 * m)
    (a.kernel.pend (2 * m)).head?

lemma mqAct_urgentSend : mqAct (viewSched cfg) a (.urgentSend m buffer) =
    some (if buffer.length ≤ (a.obj.queue m).eachLen.toNat ∧
        (a.obj.queue m).numMsgs < (a.obj.queue m).maxMsgs then urgentSent a m buffer else a) := by
  simp only [mqAct, msgQueueUrgentSend, viewSched_resumeFirst, bind_eq_bind, bind_some]
  by_cases hfits : buffer.length ≤ (a.obj.queue m).eachLen.toNat
  · by_cases hroom : (a.obj.queue m).numMsgs < (a.obj.queue m).maxMsgs
    · rw [if_neg (Nat.not_lt.mpr hfits), if_neg (UInt16.not_le.mpr hroom), if_pos ⟨hfits, hroom⟩]
      rfl
    · rw [if_neg (Nat.not_lt.mpr hfits), if_pos (UInt16.not_lt.mp hroom), if_neg fun h => hroom h.2]
      simp [eok, efull]
  · rw [if_pos (Nat.not_le.mp hfits), if_neg fun h => hfits h.1]
    simp [eok, error]

lemma WorldInv.urgentSent (hi : WorldInv a) (hsim : ∃ s, Sim s (a.kernel.resumeFirst (2 * m))) :
    WorldInv (urgentSent a m buffer) := by
  obtain ⟨s, hs⟩ := hi.sim
  refine ⟨by rwa [Kernel.urgentSent, mqResumed_kernel], ?_⟩
  simp only [Kernel.urgentSent, View.resumeFirst]
  cases hp : a.kernel.pend (2 * m) with
  | nil => exact hi.calls
  | cons u us =>
    have hu : u ∈ a.kernel.pend (2 * m) := by simp [hp]
    exact hi.calls.release (2 * m) hs.nodup (hi.calls.of_mem hs hu).2

lemma WorldInv.mqStep {op : WorldOp MqOp} (hi : WorldInv a)
    (h : mqStep (viewSched cfg) a op = some a') (hsim : ∃ s, Sim s a'.kernel) : WorldInv a' := by
  obtain ⟨op', v, rfl, hv, rfl⟩ | ⟨i, rfl, hact⟩ := World.step_cases h
  · exact hi.kernel hv
  · by_cases hurgent : ∃ m buffer, i = .urgentSend m buffer
    · obtain ⟨m, buffer, rfl⟩ := hurgent
      rw [mqAct_urgentSend] at hact
      cases hact
      split
      · rename_i hok
        rw [if_pos hok, Kernel.urgentSent, mqResumed_kernel] at hsim
        exact hi.urgentSent hsim
      · exact hi
    · obtain ⟨m, t, request, -, ht, htr⟩ :=
        mqTr_of_act hact fun m buffer he => hurgent ⟨m, buffer, he⟩
      exact hi.mqTr ht htr hsim

lemma WorldInv.urgentSent_waiting {t : Nat} (hi : WorldInv a)
    (h : a.Waiting (viewSched cfg) (2 * m + 1) t) :
    (Kernel.urgentSent a m buffer).Waiting (viewSched cfg) (2 * m + 1) t := by
  obtain ⟨s, hs⟩ := hi.sim
  have hne : ∀ u ∈ a.kernel.pend (2 * m), t ≠ u := by
    rintro u hu rfl
    have hcall := (hi.calls.of_mem hs hu).1
    rw [h.1] at hcall
    simp at hcall
  obtain ⟨hcall, hstat⟩ := h
  cases hp : a.kernel.pend (2 * m) with
  | nil =>
    simp only [Kernel.urgentSent, View.resumeFirst, hp]
    exact ⟨hcall, hstat⟩
  | cons u us =>
    have htu := hne u (by simp [hp])
    simp only [Kernel.urgentSent, View.resumeFirst, hp]
    refine ⟨?_, ?_⟩
    · simpa [mqResumed, World.setCall, htu] using hcall
    · simpa [mqResumed, World.setCall, View.release_stat, htu] using hstat

lemma WorldSim.urgentOk_iff (hs : WorldSim w a) (hi : WorldInv a)
    (hs' : WorldSim w' (urgentSent a m buffer)) :
    UrgentOk (stateSched cfg fuel) m buffer w w' ↔
      (w.obj.queue m).Next ((w.obj.queue m).stepBack.push buffer) buffer ∧
      ∀ t, ¬ w.Waiting (stateSched cfg fuel) (2 * m + 1) t := by
  have hqueue : w'.obj.queue m = (w.obj.queue m).stepBack.push buffer := by
    rw [hs'.obj, hs.obj, urgentSent, mqResumed_obj]
    exact update_self ..
  have hwaits : ∀ t, w.Waiting (stateSched cfg fuel) (2 * m + 1) t →
      w'.Waiting (stateSched cfg fuel) (2 * m + 1) t := by
    intro t ht
    rw [hs'.waiting]
    exact hi.urgentSent_waiting ((hs.waiting ..).mp ht)
  constructor
  · rintro ⟨hnext, hwakes⟩
    rw [hqueue] at hnext
    refine ⟨hnext, fun t ht => ?_⟩
    obtain ⟨u, hu, hnot⟩ := hwakes ⟨t, ht⟩
    exact hnot (hwaits u hu)
  · rintro ⟨hnext, hnone⟩
    rw [← hqueue] at hnext
    exact ⟨hnext, fun ⟨t, ht⟩ => absurd ht (hnone t)⟩

lemma urgentNext_iff (hs : WorldSim w a) (hi : WorldInv a) (m : Nat) :
    UrgentNext cfg w m ↔ UrgentCond cfg w m := by
  refine imp_congr_right fun hroom => ?_
  have hsend : ∀ buffer, buffer.length ≤ (w.obj.queue m).eachLen.toNat →
      (Returns (fun fuel => mqStep (stateSched cfg fuel) w (.act (.urgentSend m buffer)))
          (UrgentOk (stateSched cfg 0) m buffer w) ↔
        (w.obj.queue m).Next ((w.obj.queue m).stepBack.push buffer) buffer ∧
          ∀ t, ¬ w.Waiting (stateSched cfg 0) (2 * m + 1) t) := by
    intro buffer hfits
    have hfollows : Follows _ (mqStep (viewSched cfg) a (.act (.urgentSend m buffer))) _ :=
      hs.mqStep _
    rw [hs.obj] at hroom hfits
    rw [mqStep, World.step, mqAct_urgentSend, if_pos ⟨hfits, hroom⟩] at hfollows
    exact Returns.iff_of_forall hfollows fun w' hs' => hs.urgentOk_iff hi hs'
  rw [← MsgQueue.urgent_iff hroom]
  constructor
  · intro h
    have hempty := (hsend [] (Nat.zero_le _)).mp (h [] (Nat.zero_le _))
    exact ⟨hempty.2, fun buffer hfits => ((hsend buffer hfits).mp (h buffer hfits)).1⟩
  · rintro ⟨hnone, hnext⟩ buffer hfits
    exact (hsend buffer hfits).mpr ⟨hnext buffer hfits, hnone⟩

/-- In every state that is reached, urgent messages do what they should exactly when no one waits,
nothing is queued and the index is not zero. -/
theorem mqRun_urgent_iff (hw : w.Fresh) (ops : List (WorldOp MqOp)) :
    Always (mqStep (stateSched cfg fuel))
      (fun w => ∀ m, UrgentNext cfg w m ↔ UrgentCond cfg w m) w ops := by
  obtain ⟨a, hs, hi, -⟩ := hw.inv
  have hrun : Always (mqStep (stateSched cfg fuel))
      (fun w => ∃ a, WorldSim w a ∧ WorldInv a) w ops := by
    refine always_of_step ?_ ⟨a, hs, hi⟩ ops
    rintro w₁ op w₂ ⟨a₁, hs₁, hi₁⟩ h
    obtain ⟨a₂, ha₂, hs₂⟩ := (hs₁.mqStep op).post h
    exact ⟨a₂, hs₂, hi₁.mqStep ha₂ ⟨_, hs₂.kernel⟩⟩
  refine hrun.mono ?_
  rintro w ⟨a, hs, hi⟩ m
  exact urgentNext_iff hs hi m

theorem mqRun_urgent_iff_sample : UrgentNext sampleConfig (sampleQueues 1) 1 := by
  have hrun : Always (mqStep (stateSched sampleConfig 20))
      (fun w => ∀ m, UrgentNext sampleConfig w m ↔ UrgentCond sampleConfig w m)
        (sampleQueues 1) [] :=
    mqRun_urgent_iff (sampleWorld_fresh _) []
  refine (hrun.head 1).mpr fun _ => ⟨fun t ht => ?_, by decide, by decide, .inl rfl⟩
  simp [World.Waiting, sampleQueues, sampleWorld] at ht

theorem urgentSend_index_wraps :
    (mqStep (stateSched sampleConfig 20) (sampleQueues 0) (.act (.urgentSend 1 [7]))).map
        (fun w => ((w.obj.queue 1).index, (w.obj.queue 1).maxMsgs)) = some (65535, 2) ∧
      ¬ UrgentNext sampleConfig (sampleQueues 0) 1 := by
  refine ⟨by decide +kernel, fun h => ?_⟩
  obtain ⟨a, hs, hi, -⟩ := World.Fresh.inv (sampleWorld_fresh _ : (sampleQueues 0).Fresh)
  have hcond := (urgentNext_iff hs hi 1).mp h (by decide)
  exact absurd hcond.2.1 (by decide)

end

variable (cfg : HeapConfig)

/-- The product is an `int`, which becomes a large number when it is negative. -/
def MsgQueue.bufSize (mq : MsgQueue) : Nat :=
  let product := mq.eachLen.toNat * mq.maxMsgs.toNat
  if product < 2 ^ 31 then product else cfg.limit - (2 ^ 32 - product)

variable (heap : HeapState)

/-- `_InitMsgQueue`; both sizes are numbers of `x_size_t` and the fields are of `uint16`. -/
def initMsgQueue (heap : HeapState) (msgSize maxMsgs : Nat) : Option (MsgQueue × Int) := do
  let mq : MsgQueue :=
    { index := 0
      numMsgs := 0
      eachLen := (cfg.alignUp msgSize cfg.memAlign).toUInt16
      maxMsgs := maxMsgs.toUInt16
      msgBuf := heap.mem }
  let (heap, buf) ← xMalloc cfg heap (mq.bufSize cfg)
  some ({ mq with msgBuf := fun x => heap.mem (buf + x) }, if buf = 0 then -enomemory else eok)

def kCreateMsgQueue (heap : HeapState) (p : Pool) (mem : Option Nat) (msgSize maxMsgs : Nat) :
    Option (Pool × Option MsgQueue × Int) := do
  let (p', id) ← p.kCreateMsgQueue mem true
  if id < 0 then some (p', none, id)
  else
    let (mq, ret) ← initMsgQueue cfg heap msgSize maxMsgs
    if ret = eok then some (p', some mq, id)
    else
      let (p', id) ← p.kCreateMsgQueue mem false
      some (p', none, id)

def sendsAll (k : Sched κ) (m t : Nat) (timeout : Int32) (now : UInt32) (alloc : Bool) :
    κ → MsgQueue → List (List UInt8) → Bool
  | _, _, [] => true
  | kernel, mq, buffer :: buffers =>
    match msgQueueSend k kernel mq m t buffer timeout now alloc with
    | some (kernel, mq, _, .returned ret) =>
      ret = eok && sendsAll k m t timeout now alloc kernel mq buffers
    | _ => false

structure Capacity (k : Sched κ) (kernel : κ) (m : Nat) (mq : MsgQueue) (msgSize maxMsgs : Nat) :
    Prop where
  sends : ∀ t timeout now alloc buffers, buffers.length ≤ maxMsgs →
    (∀ buffer ∈ buffers, buffer.length ≤ msgSize) →
    sendsAll k m t timeout now alloc kernel mq buffers
  room : maxMsgs * msgSize ≤ mq.bufSize cfg

variable {cfg} {κ : Type} {k : Sched κ} {kernel : κ} {heap : HeapState} {p p' : Pool}
variable {mem : Option Nat} {m t msgSize maxMsgs : Nat} {mq : MsgQueue} {id : Int}

lemma initMsgQueue_spec {ret : Int} (h : initMsgQueue cfg heap msgSize maxMsgs = some (mq, ret))
    (hret : ret = eok) :
    mq.eachLen = (cfg.alignUp msgSize cfg.memAlign).toUInt16 ∧ mq.maxMsgs = maxMsgs.toUInt16 ∧
      mq.numMsgs = 0 ∧ mq.bufSize cfg ≠ 0 := by
  obtain ⟨⟨heap', buf⟩, hmalloc, h⟩ := bind_eq_some_iff.mp h
  cases h
  refine ⟨rfl, rfl, rfl, fun hzero => ?_⟩
  have hbuf : xMalloc cfg heap (MsgQueue.bufSize cfg _) = some (heap, 0) := if_pos (.inl hzero)
  cases hmalloc.symm.trans hbuf
  exact absurd hret (by decide)

lemma of_created
    (h : Kernel.kCreateMsgQueue cfg heap p mem msgSize maxMsgs = some (p', some mq, id)) :
    mq.eachLen = (cfg.alignUp msgSize cfg.memAlign).toUInt16 ∧ mq.maxMsgs = maxMsgs.toUInt16 ∧
      mq.numMsgs = 0 ∧ mq.bufSize cfg ≠ 0 := by
  obtain ⟨⟨p₁, id₁⟩, -, h⟩ := bind_eq_some_iff.mp h
  by_cases hid : id₁ < 0
  · simp [hid] at h
  · simp only [if_neg hid] at h
    obtain ⟨⟨mq', ret⟩, hinit, h⟩ := bind_eq_some_iff.mp h
    by_cases hret : ret = eok
    · simp only [if_pos hret] at h
      cases h
      exact initMsgQueue_spec hinit hret
    · simp only [if_neg hret] at h
      obtain ⟨⟨p₂, id₂⟩, -, h⟩ := bind_eq_some_iff.mp h
      cases h

lemma resumeFirst_of_none (hfirst : k.first kernel m = none) :
    resumeFirst k kernel m = some kernel := by simp only [resumeFirst, hfirst]

lemma msgQueueSend_of_room (hfirst : k.first kernel (2 * m + 1) = none) {buffer : List UInt8}
    (timeout : Int32) (now : UInt32) (alloc : Bool) (hfits : buffer.length ≤ mq.eachLen.toNat)
    (hroom : mq.numMsgs < mq.maxMsgs) :
    msgQueueSend k kernel mq m t buffer timeout now alloc =
      some (kernel, mq.push buffer, [], .returned eok) := by
  have hroom := UInt16.not_le.mpr hroom
  rw [msgQueueSend, if_neg (Nat.not_lt.mpr hfits), if_neg fun h => hroom h.1, msgQueueSendLoop,
    if_neg hroom, resumeFirst_of_none hfirst]
  rfl

variable {timeout : Int32} {now : UInt32} {alloc : Bool}

lemma fits_of_msgQueueSend {buffer bytes : List UInt8} {kernel' : κ} {mq' : MsgQueue}
    (h : msgQueueSend k kernel mq m t buffer timeout now alloc =
      some (kernel', mq', bytes, .returned eok))
    : buffer.length ≤ mq.eachLen.toNat ∧ mq.numMsgs < mq.maxMsgs := by
  by_contra hnot
  rw [msgQueueSend] at h
  split at h
  · cases h
  · rename_i hfits
    have hfull : mq.numMsgs ≥ mq.maxMsgs :=
      UInt16.not_lt.mp fun hroom => hnot ⟨Nat.not_lt.mp hfits, hroom⟩
    rw [msgQueueSendLoop, if_pos hfull] at h
    by_cases hzero : timeout = 0
    · rw [if_pos ⟨hfull, hzero⟩] at h
      cases h
    · rw [if_neg fun hz => hzero hz.2, if_neg hzero] at h
      obtain ⟨kernel₁, -, h⟩ := bind_eq_some_iff.mp h
      cases h

lemma sendsAll_iff (hfirst : k.first kernel (2 * m + 1) = none) {buffers : List (List UInt8)}
    (hle : mq.numMsgs ≤ mq.maxMsgs) :
    sendsAll k m t timeout now alloc kernel mq buffers ↔
      mq.numMsgs.toNat + buffers.length ≤ mq.maxMsgs.toNat ∧
        ∀ buffer ∈ buffers, buffer.length ≤ mq.eachLen.toNat := by
  induction buffers generalizing mq with
  | nil => simpa [sendsAll] using UInt16.le_iff_toNat_le.mp hle
  | cons buffer buffers ih =>
    by_cases hok : buffer.length ≤ mq.eachLen.toNat ∧ mq.numMsgs < mq.maxMsgs
    · obtain ⟨hfits, hroom⟩ := hok
      have hnum : (mq.push buffer).numMsgs.toNat = mq.numMsgs.toNat + 1 :=
        numMsgs_push (UInt16.not_le.mpr hroom)
      have hle' : (mq.push buffer).numMsgs ≤ (mq.push buffer).maxMsgs := by
        rw [UInt16.le_iff_toNat_le, hnum]
        exact UInt16.lt_iff_toNat_lt.mp hroom
      rw [sendsAll, msgQueueSend_of_room hfirst timeout now alloc hfits hroom]
      simp only [decide_true, Bool.true_and, length_cons, forall_mem_cons]
      rw [ih hle', hnum, Nat.add_right_comm, Nat.add_assoc]
      exact and_congr_right fun _ => (and_iff_right hfits).symm
    · refine iff_of_false (fun h => hok ?_) fun h => hok ⟨h.2 buffer mem_cons_self, ?_⟩
      · rw [sendsAll] at h
        split at h
        · rename_i heq
          simp only [Bool.and_eq_true, decide_eq_true_eq] at h
          rw [h.1] at heq
          exact fits_of_msgQueueSend heq
        · cases h
      · rw [UInt16.lt_iff_toNat_lt]
        have hlen := h.1
        simp only [length_cons] at hlen
        omega

lemma le_eachLen_iff :
    msgSize ≤ (cfg.alignUp msgSize cfg.memAlign).toUInt16.toNat ↔
      msgSize + cfg.memAlign ≤ 2 ^ 16 := by
  have hlimit := cfg.le_limit
  have hfield := (cfg.alignUp msgSize cfg.memAlign).toUInt16.toNat_lt
  by_cases hlt : msgSize < 2 ^ 16
  · obtain halign | halign := cfg.align_eq <;>
    · rw [HeapConfig.alignUp, halign, mod_eq_of_lt (by omega : msgSize + _ - 1 < cfg.limit),
        mod_eq_of_lt (by omega), toUInt16_eq, UInt16.toNat_ofNat']
      omega
  · obtain halign | halign := cfg.align_eq <;> exact iff_of_false (by omega) (by omega)

lemma le_maxMsgs_iff : maxMsgs ≤ maxMsgs.toUInt16.toNat ↔ maxMsgs < 2 ^ 16 := by
  rw [toUInt16_eq, UInt16.toNat_ofNat']
  omega

lemma MsgQueue.le_bufSize (mq : MsgQueue) :
    mq.eachLen.toNat * mq.maxMsgs.toNat ≤ mq.bufSize cfg := by
  have hlimit := cfg.le_limit
  have hlt : mq.eachLen.toNat * mq.maxMsgs.toNat < 2 ^ 16 * 2 ^ 16 :=
    Nat.mul_lt_mul'' mq.eachLen.toNat_lt mq.maxMsgs.toNat_lt
  rw [MsgQueue.bufSize]
  split <;> omega

lemma MsgQueue.bufSize_eq_zero (h : mq.maxMsgs = 0) : mq.bufSize cfg = 0 := by
  rw [MsgQueue.bufSize, h, UInt16.toNat_zero, Nat.mul_zero]
  exact if_pos (by decide)

lemma Capacity.size_le (hcap : Capacity cfg k kernel m mq msgSize maxMsgs)
    (hfirst : k.first kernel (2 * m + 1) = none) (hnum : mq.numMsgs = 0) (hpos : 1 ≤ maxMsgs) :
    msgSize ≤ mq.eachLen.toNat := by
  have hle : mq.numMsgs ≤ mq.maxMsgs := hnum ▸ UInt16.zero_le
  have hone := hcap.sends 0 0 0 false [replicate msgSize 0] hpos (by simp)
  simpa using ((sendsAll_iff hfirst hle).mp hone).2

theorem kCreateMsgQueue_capacity_iff (hfirst : k.first kernel (2 * m + 1) = none)
    (h : Kernel.kCreateMsgQueue cfg heap p mem msgSize maxMsgs = some (p', some mq, id)) :
    Capacity cfg k kernel m mq msgSize maxMsgs ↔
      msgSize + cfg.memAlign ≤ 2 ^ 16 ∧ maxMsgs < 2 ^ 16 := by
  obtain ⟨heach, hmax, hnum, hbuf⟩ := of_created h
  have hle : mq.numMsgs ≤ mq.maxMsgs := hnum ▸ UInt16.zero_le
  have hpos : 1 ≤ maxMsgs := by
    refine one_le_iff_ne_zero.mpr fun hzero => hbuf (MsgQueue.bufSize_eq_zero ?_)
    rw [hmax, hzero]
    rfl
  rw [← le_eachLen_iff, ← le_maxMsgs_iff, ← heach, ← hmax]
  constructor
  · intro hcap
    refine ⟨hcap.size_le hfirst hnum hpos, ?_⟩
    have hall := hcap.sends 0 0 0 false (List.replicate maxMsgs []) (by simp) (by simp)
    simpa [hnum] using ((sendsAll_iff hfirst hle).mp hall).1
  · rintro ⟨hsize, hcount⟩
    refine ⟨fun t timeout now alloc buffers hlen hfits => ?_, ?_⟩
    · refine (sendsAll_iff hfirst hle).mpr ⟨?_, fun buffer hb => (hfits buffer hb).trans hsize⟩
      rw [hnum, UInt16.toNat_zero, Nat.zero_add]
      exact hlen.trans hcount
    · rw [Nat.mul_comm]
      exact (Nat.mul_le_mul hsize hcount).trans mq.le_bufSize

def sampleCreate (msgSize maxMsgs : Nat) : Option (Pool × Option MsgQueue × Int) := do
  let heap ← initBoardMemory narrowBoard (bootState fun _ => 0) 64 1088
  Kernel.kCreateMsgQueue narrowBoard heap (.boot 4 1) (some 7) msgSize maxMsgs

lemma sampleCreate_fields :
    (sampleCreate 5 3).map (fun r => (r.2.1.map (·.eachLen), r.2.2)) = some (some 8, 0) ∧
    (sampleCreate 65538 3).map (fun r => (r.2.1.map (·.eachLen), r.2.2)) = some (some 8, 0) := by
  decide +kernel

lemma sampleCreate_eq {msgSize : Nat}
    (h : (sampleCreate msgSize 3).map (fun r => (r.2.1.map (·.eachLen), r.2.2)) =
      some (some 8, 0)) :
    ∃ heap p mq, mq.eachLen = 8 ∧ Kernel.kCreateMsgQueue narrowBoard heap (.boot 4 1)
      (some 7) msgSize 3 = some (p, some mq, 0) := by
  obtain ⟨⟨p, mq, id⟩, hcreate, h⟩ := map_eq_some_iff.mp h
  rw [sampleCreate, bind_eq_bind, bind_eq_some_iff] at hcreate
  obtain ⟨heap, -, hcreate⟩ := hcreate
  simp only [Prod.mk.injEq, map_eq_some_iff] at h
  obtain ⟨⟨mq, rfl, heach⟩, rfl⟩ := h
  exact ⟨heap, p, mq, heach, hcreate⟩

lemma World.Fresh.first {ο : Type} {w : World State ο} (hw : w.Fresh) (cfg : Config)
    (fuel list : Nat) : (stateSched cfg fuel).first w.kernel list = none := by
  obtain ⟨v, hs, hpend⟩ := hw.kernel
  rw [hs.first, viewSched_first, hpend]
  rfl

lemma sampleQueues_first (list : Nat) :
    (stateSched sampleConfig 20).first (sampleQueues 0).kernel list = none := by
  have hfresh : (sampleQueues 0).Fresh := sampleWorld_fresh _
  exact hfresh.first sampleConfig 20 list

theorem kCreateMsgQueue_capacity_iff_sample : ∃ heap p mq,
    Kernel.kCreateMsgQueue narrowBoard heap (.boot 4 1) (some 7) 5 3 =
      some (p, some mq, 0) ∧
    Capacity narrowBoard (stateSched sampleConfig 20)
      (sampleQueues 0).kernel 1 mq 5 3 := by
  obtain ⟨heap, p, mq, -, h⟩ := sampleCreate_eq sampleCreate_fields.1
  have hfirst := sampleQueues_first (2 * 1 + 1)
  exact ⟨heap, p, mq, h, (kCreateMsgQueue_capacity_iff hfirst h).mpr (by decide)⟩

theorem kCreateMsgQueue_truncates : ∃ heap p mq,
    Kernel.kCreateMsgQueue narrowBoard heap (.boot 4 1) (some 7) 65538 3 =
      some (p, some mq, 0) ∧ mq.eachLen = 8 ∧
    ¬ Capacity narrowBoard (stateSched sampleConfig 20) (sampleQueues 0).kernel 1 mq
      65538 3 := by
  obtain ⟨heap, p, mq, heach, h⟩ := sampleCreate_eq sampleCreate_fields.2
  refine ⟨heap, p, mq, h, heach, fun hcap => ?_⟩
  have hfirst := sampleQueues_first (2 * 1 + 1)
  have hle := hcap.size_le hfirst (of_created h).2.2.1 (by decide)
  rw [heach] at hle
  exact absurd hle (by decide)

end Xiuos.Kernel
