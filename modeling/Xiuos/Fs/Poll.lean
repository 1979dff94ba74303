import Xiuos.Kernel.Tick
import Xiuos.Kernel.Waitqueue
import Xiuos.Lib.Run

/-! `poll.c`, with the interrupts and the time that pass meanwhile. -/

namespace Xiuos.Fs
open Lib Kernel Nat Option

structure PollFd where
  fd : Int
  events : BitVec 16
  revents : BitVec 16
  deriving DecidableEq

/-- What a descriptor turns out to be: there is none, its file system has no `poll`, or its `poll`
adds the request to some wait queues and returns a mask. The flag says whether the node could be
allocated. -/
inductive FdAnswer
  | missing
  | noPoll
  | poll (queues : List (Nat × Bool)) (mask : BitVec 32)

def pollErrHup : BitVec 16 := 0xc

def pollnval : BitVec 32 := 0x10

def pollmaskDefault : BitVec 32 := 0x3

def wanted (events : BitVec 16) : BitVec 32 := (events ||| pollErrHup).signExtend 32

structure PollTable where
  proc : Bool
  nodes : List (Nat × UInt32)

def pollAdd (key : UInt32) (t : PollTable) (queue : Nat × Bool) : PollTable :=
  if t.proc ∧ queue.2 then { t with nodes := (queue.1, key) :: t.nodes } else t

def fdMask (pf : PollFd) (a : FdAnswer) : BitVec 32 :=
  if pf.fd < 0 then 0
  else
    match a with
    | .missing => pollnval
    | .noPoll => pollmaskDefault &&& wanted pf.events
    | .poll _ mask => mask &&& wanted pf.events

def doPollFd (t : PollTable) (pf : PollFd) (a : FdAnswer) : PollTable × PollFd :=
  let t :=
    match a with
    | .poll queues _ =>
      if pf.fd < 0 then t else queues.foldl (pollAdd (.ofBitVec (wanted pf.events))) t
    | _ => t
  (t, { pf with revents := (fdMask pf a).truncate 16 })

def scanFds (answers : Nat → FdAnswer) : Nat → PollTable → List PollFd →
    PollTable × List PollFd × Nat
  | _, t, [] => (t, [], 0)
  | n, t, pf :: fds =>
    let (t, pf') := doPollFd t pf (answers n)
    let ready := fdMask pf (answers n) ≠ 0
    let (t, fds, num) := scanFds answers (n + 1) (if ready then { t with proc := false } else t) fds
    (t, pf' :: fds, if ready then num + 1 else num)

inductive PollPhase
  | check
  | wait
  | suspended (deadline : Option Nat)
  | awake
  | returned (num : Nat)
  deriving DecidableEq

def PollPhase.wake : PollPhase → PollPhase
  | .suspended _ => .awake
  | phase => phase

def PollPhase.expire (now : Nat) : PollPhase → PollPhase
  | .suspended (some d) => if d ≤ now then .awake else .suspended (some d)
  | phase => phase

def PollPhase.Waits (phase : PollPhase) : Prop := phase ≠ .check ∧ ∀ num, phase ≠ .returned num

/-- `fresh` is kept by the run alone, and so are the numbers: whether a wait queue has woken the
task since the last check began, how often that was since the call, how often it had been when the
task last came out of a suspension, and how many checks there were. -/
structure Poll where
  msec : UInt32
  table : PollTable
  triggered : Bool
  fds : List PollFd
  istimeout : Bool
  phase : PollPhase
  hasDelay : Bool
  start : Nat
  now : Nat
  fresh : Bool
  wakes : Nat
  ended : Option Nat
  checks : Nat

inductive PollOp
  | check (answers : Nat → FdAnswer)
  | wait (alloc : Bool)
  | resume
  | wake (queue key : Nat)
  | tick

def Poll.init (fds : List PollFd) (msec : UInt32) (hasDelay : Bool) (now : Nat) : Poll where
  msec := msec
  table := ⟨decide (msec ≠ 0), []⟩
  triggered := false
  fds := fds
  istimeout := decide (msec = 0)
  phase := .check
  hasDelay := hasDelay
  start := now
  now := now
  fresh := false
  wakes := 0
  ended := none
  checks := 0

namespace Poll
variable (tickPerSecond : UInt32) (s : Poll)

def ticks (s : Poll) : Nat := (calculteTickFromTimeMs tickPerSecond s.msec).toNat

variable (answers : Nat → FdAnswer)

def check (s : Poll) (answers : Nat → FdAnswer) : Poll :=
  let (table, fds, num) := scanFds answers 0 s.table s.fds
  let s := { s with
    table := { table with proc := false }, fds, fresh := false, checks := s.checks + 1 }
  if num ≠ 0 ∨ s.istimeout then
    { s with phase := .returned num, table := { s.table with nodes := [] } }
  else { s with phase := .wait }

def setDelay (s : Poll) (alloc : Bool) : Poll :=
  if s.hasDelay ∨ alloc then
    { s with phase := .suspended (some (s.now + s.ticks tickPerSecond)), hasDelay := true }
  else { s with phase := .suspended none }

def pollWaitTimeout (s : Poll) (alloc : Bool) : Poll :=
  if s.ticks tickPerSecond ≠ 0 ∧ s.triggered = false then
    -- The count is an `int32` here.
    if s.ticks tickPerSecond < 2 ^ 31 then s.setDelay tickPerSecond alloc
    else { s with phase := .suspended none }
  else { s with phase := .check, istimeout := s.istimeout || !s.triggered }

def resume (s : Poll) : Poll :=
  { s with
    phase := .check
    istimeout := s.istimeout || !s.triggered
    ended := some s.wakes }

def keyMatches (key : Nat) (nodeKey : UInt32) : Bool := key = 0 ∨ key &&& nodeKey.toNat ≠ 0

def wakeup (s : Poll) (queue key : Nat) : Poll :=
  if s.table.nodes.any fun node => node.1 = queue ∧ keyMatches key node.2 then
    { s with
      triggered := true
      phase := s.phase.wake
      fresh := true
      wakes := s.wakes + 1 }
  else s

def tick (s : Poll) : Poll :=
  { s with now := s.now + 1, phase := s.phase.expire (s.now + 1) }

def step (s : Poll) : PollOp → Option Poll
  | .check answers => if s.phase = .check then some (s.check answers) else none
  | .wait alloc => if s.phase = .wait then some (s.pollWaitTimeout tickPerSecond alloc) else none
  | .resume => if s.phase = .awake then some s.resume else none
  | .wake queue key => some (s.wakeup queue key)
  | .tick => some s.tick

def limit (s : Poll) : Nat := s.start + s.msec.toNat * tickPerSecond.toNat / 1000 + 1

def Exceeded (s : Poll) : Prop := s.limit tickPerSecond ≤ s.now

variable (fds : List PollFd)

def NothingReady (fds : List PollFd) (answers : Nat → FdAnswer) : Prop :=
  ∀ n pf, fds[n]? = some pf → fdMask pf (answers n) = 0

structure Bounded (s : Poll) : Prop where
  armed : ∀ deadline, s.phase = .suspended deadline →
    ∃ d, deadline = some d ∧ d ≤ s.limit tickPerSecond
  finite : s.checks ≤ s.wakes + 2

/-- A check that finds nothing after the timeout ends the poll, and without a new wakeup a check
that finds nothing is followed by a suspension. -/
def Behaves (s : Poll) (op : PollOp) (s' : Poll) : Prop :=
  Bounded tickPerSecond s' ∧
    match op with
    | .check answers => NothingReady s.fds answers → s.Exceeded tickPerSecond →
      s'.phase = .returned 0
    | .wait _ => s.fresh = false → ∃ deadline, s'.phase = .suspended deadline
    | _ => True

def Undisturbed (s : Poll) : PollOp → Prop
  | .check answers => NothingReady s.fds answers → s.Exceeded tickPerSecond →
    s.msec = 0 ∨ s.ended = some 0
  | .wait alloc =>
    if s.wakes = 0 then
      (s.hasDelay = true ∨ alloc = true) ∧ s.now + s.ticks tickPerSecond ≤ s.limit tickPerSecond
    else s.fresh = true
  | _ => True

structure Paid (s : Poll) : Prop where
  checks : (∀ num, s.phase ≠ .returned num) → s.checks + s.fresh.toNat ≤ s.wakes + 1
  cause : s.phase = .check → s.checks = 0 ∨ s.fresh = true ∨ s.istimeout = true
  suspended : ∀ deadline, s.phase = .suspended deadline → s.wakes = 0
  awake : s.phase = .awake → 0 < s.wakes → s.fresh = true

section
variable {tickPerSecond} {s s' : Poll} {op : PollOp}

lemma scanFds_num (k : Nat) (t : PollTable) :
    (scanFds answers k t fds).2.2 = 0 ↔
      ∀ n pf, fds[n]? = some pf → fdMask pf (answers (k + n)) = 0 := by
  induction fds generalizing k t with
  | nil => simp [scanFds]
  | cons pf fds ih =>
    have hsplit : (∀ n pf', (pf :: fds)[n]? = some pf' → fdMask pf' (answers (k + n)) = 0) ↔
        fdMask pf (answers k) = 0 ∧
          ∀ n pf', fds[n]? = some pf' → fdMask pf' (answers (k + 1 + n)) = 0 := by
      constructor
      · intro h
        refine ⟨h 0 pf rfl, fun n pf' hn => ?_⟩
        have := h (n + 1) pf' (by simpa using hn)
        rwa [show k + 1 + n = k + (n + 1) by omega]
      · rintro ⟨hhead, hrest⟩ n pf' hn
        cases n with
        | zero =>
          cases hn
          exact hhead
        | succ n =>
          rw [show k + (n + 1) = k + 1 + n by omega]
          exact hrest n pf' (by simpa using hn)
    rw [hsplit, scanFds]
    by_cases hmask : fdMask pf (answers k) = 0
    · simp only [ne_eq, hmask, not_true_eq_false, if_false, ih, true_and]
    · simp only [ne_eq, hmask, not_false_eq_true, if_true, false_and, iff_false]
      exact succ_ne_zero _

lemma scanFds_nothingReady (t : PollTable) (fds : List PollFd) :
    (scanFds answers 0 t fds).2.2 = 0 ↔ NothingReady fds answers := by
  rw [scanFds_num]
  simp [NothingReady]

lemma ticks_pos (s : Poll) : s.ticks tickPerSecond ≠ 0 := by
  rw [ticks, calculteTickFromTimeMs_toNat]
  exact one_le_iff_ne_zero.mp (one_le_ticksOf _)

lemma ticks_lt (s : Poll) : s.ticks tickPerSecond < 2 ^ 31 := by
  have hlt : product32 tickPerSecond s.msec < 2 ^ 32 := mod_lt _ (by decide)
  rw [ticks, calculteTickFromTimeMs_toNat, ticksOf]
  split
  · decide
  · split
    · omega
    · omega

lemma check_cases (s : Poll) (answers : Nat → FdAnswer) :
    (s.check answers).checks = s.checks + 1 ∧ (s.check answers).wakes = s.wakes ∧
      (s.check answers).fresh = false ∧ (s.check answers).triggered = s.triggered ∧
      ((∃ num, (s.check answers).phase = .returned num ∧ (num = 0 ↔ NothingReady s.fds answers) ∧
          (num ≠ 0 ∨ s.istimeout = true)) ∨
        (s.check answers).phase = .wait ∧ NothingReady s.fds answers ∧ s.istimeout = false) := by
  have hnum := scanFds_nothingReady answers s.table s.fds
  rw [check]
  simp only
  split
  · rename_i h
    exact ⟨rfl, rfl, rfl, rfl, .inl ⟨_, rfl, hnum, h⟩⟩
  · rename_i h
    rw [not_or, not_not, Bool.not_eq_true] at h
    exact ⟨rfl, rfl, rfl, rfl, .inr ⟨rfl, hnum.mp h.1, h.2⟩⟩

lemma pollWaitTimeout_eq (s : Poll) (alloc : Bool) :
    s.pollWaitTimeout tickPerSecond alloc =
      if s.triggered = false then s.setDelay tickPerSecond alloc
      else { s with phase := .check } := by
  rw [pollWaitTimeout]
  by_cases htrig : s.triggered = false
  · rw [if_pos ⟨ticks_pos s, htrig⟩, if_pos (ticks_lt s), if_pos htrig]
  · rw [Bool.not_eq_false] at htrig
    simp [htrig]

/-- What the flags of the source say about the wakeups. -/
structure Flagged (s : Poll) : Prop where
  triggered : s.triggered = decide (0 < s.wakes)
  istimeout : s.istimeout = true ↔ s.msec = 0 ∨ s.ended = some 0
  waits : s.phase.Waits → s.istimeout = false

lemma Flagged.check (h : s.Flagged) (answers : Nat → FdAnswer) : (s.check answers).Flagged := by
  have hkeeps : (s.check answers).triggered = s.triggered ∧ (s.check answers).wakes = s.wakes ∧
      (s.check answers).istimeout = s.istimeout ∧ (s.check answers).msec = s.msec ∧
      (s.check answers).ended = s.ended := by
    rw [Poll.check]
    simp only
    split
    · exact ⟨rfl, rfl, rfl, rfl, rfl⟩
    · exact ⟨rfl, rfl, rfl, rfl, rfl⟩
  obtain ⟨htrig, hwakes, hout, hmsec, hended⟩ := hkeeps
  refine ⟨by rw [htrig, hwakes, h.triggered], by rw [hout, hmsec, hended, h.istimeout], ?_⟩
  intro hw
  obtain ⟨-, -, -, -, ⟨num, hret, -⟩ | ⟨-, -, hfalse⟩⟩ := s.check_cases answers
  · exact absurd hret (hw.2 num)
  · rwa [hout]

lemma Flagged.resume (h : s.Flagged) (hphase : s.phase = .awake) : s.resume.Flagged := by
  have hfalse := h.waits (by simp [hphase, PollPhase.Waits])
  have hmsec : s.msec ≠ 0 := fun hzero => by simp [h.istimeout.mpr (.inl hzero)] at hfalse
  refine ⟨h.triggered, ?_, fun hw => absurd rfl hw.1⟩
  simp [Poll.resume, hfalse, h.triggered, hmsec]

lemma Flagged.step (h : s.Flagged) (hstep : s.step tickPerSecond op = some s') : s'.Flagged := by
  cases op with
  | check answers =>
    obtain ⟨-, heq⟩ := ite_none_right_eq_some.mp hstep
    cases heq
    exact h.check answers
  | wait alloc =>
    obtain ⟨hphase, heq⟩ := ite_none_right_eq_some.mp hstep
    cases heq
    have hfalse := h.waits (by simp [hphase, PollPhase.Waits])
    rw [pollWaitTimeout_eq, setDelay]
    split
    · split
      · exact ⟨h.triggered, h.istimeout, fun _ => hfalse⟩
      · exact ⟨h.triggered, h.istimeout, fun _ => hfalse⟩
    · exact ⟨h.triggered, h.istimeout, fun _ => hfalse⟩
  | resume =>
    obtain ⟨hphase, heq⟩ := ite_none_right_eq_some.mp hstep
    cases heq
    exact h.resume hphase
  | wake queue key =>
    cases hstep
    rw [wakeup]
    split
    · refine ⟨by simp, h.istimeout, fun hw => h.waits ?_⟩
      cases hphase : s.phase <;> simp_all [PollPhase.Waits, PollPhase.wake]
    · exact h
  | tick =>
    cases hstep
    refine ⟨h.triggered, h.istimeout, fun hw => h.waits ?_⟩
    cases hphase : s.phase <;> simp_all [PollPhase.Waits, PollPhase.expire, Poll.tick]

lemma Paid.check (tickPerSecond : UInt32) (h : s.Paid) (hphase : s.phase = .check)
    (answers : Nat → FdAnswer) :
    (s.check answers).Paid ∧ Bounded tickPerSecond (s.check answers) := by
  obtain ⟨hchecks, hwakes, hfresh, -, ⟨num, hret, -, -⟩ | ⟨hwait, -, htimeout⟩⟩ :=
    s.check_cases answers
  · have hle := h.checks (by simp [hphase])
    refine ⟨⟨fun hne => absurd hret (hne num), ?_, ?_, ?_⟩, ?_, ?_⟩
    · simp [hret]
    · simp [hret]
    · simp [hret]
    · simp [hret]
    · omega
  · have hle := h.checks (by simp [hphase])
    have hpaid : s.checks + 1 ≤ s.wakes + 1 := by
      obtain hzero | hnew | hout := h.cause hphase
      · omega
      · rw [hnew, Bool.toNat_true] at hle
        omega
      · simp [htimeout] at hout
    refine ⟨⟨fun _ => ?_, ?_, ?_, ?_⟩, ?_, ?_⟩
    · rwa [hchecks, hwakes, hfresh, Bool.toNat_false, Nat.add_zero]
    · simp [hwait]
    · simp [hwait]
    · simp [hwait]
    · simp [hwait]
    · omega

lemma setDelay_cases (tickPerSecond : UInt32) (s : Poll) (alloc : Bool) :
    (s.setDelay tickPerSecond alloc).checks = s.checks ∧
      (s.setDelay tickPerSecond alloc).wakes = s.wakes ∧
      (s.setDelay tickPerSecond alloc).fresh = s.fresh ∧
      (s.setDelay tickPerSecond alloc).limit tickPerSecond = s.limit tickPerSecond ∧
      (s.setDelay tickPerSecond alloc).phase = .suspended
        (if s.hasDelay = true ∨ alloc = true then some (s.now + s.ticks tickPerSecond)
          else none) := by
  rw [setDelay]
  split
  · exact ⟨rfl, rfl, rfl, rfl, rfl⟩
  · exact ⟨rfl, rfl, rfl, rfl, rfl⟩

lemma wait_iff (hf : s.Flagged) (h : s.Paid) (hphase : s.phase = .wait) (alloc : Bool) :
    Behaves tickPerSecond s (.wait alloc) (s.pollWaitTimeout tickPerSecond alloc) ↔
      s.Undisturbed tickPerSecond (.wait alloc) := by
  have hle := h.checks (by simp [hphase])
  rw [pollWaitTimeout_eq, hf.triggered, Behaves, Undisturbed]
  by_cases hwakes : s.wakes = 0
  · obtain ⟨hchecks, hw, -, hlimit, hsusp⟩ := setDelay_cases tickPerSecond s alloc
    simp only [hwakes, Nat.lt_irrefl, decide_false, if_true]
    constructor
    · rintro ⟨hb, -⟩
      obtain ⟨d, hd, hdle⟩ := hb.armed _ hsusp
      split at hd
      · cases hd
        exact ⟨‹_›, hlimit ▸ hdle⟩
      · simp at hd
    · rintro ⟨hdelay, hin⟩
      rw [if_pos hdelay] at hsusp
      refine ⟨⟨fun deadline hd => ?_, by omega⟩, fun _ => ⟨_, hsusp⟩⟩
      rw [hsusp] at hd
      cases hd
      exact ⟨_, rfl, hlimit ▸ hin⟩
  · have hpos : 0 < s.wakes := Nat.pos_of_ne_zero hwakes
    simp only [hpos, decide_true, Bool.true_eq_false, if_false, hwakes]
    constructor
    · rintro ⟨-, hnew⟩
      by_contra hfresh
      obtain ⟨deadline, hd⟩ := hnew (by simpa using hfresh)
      cases hd
    · intro hfresh
      refine ⟨⟨by simp, ?_⟩, fun hnot => ?_⟩
      · simp only
        omega
      · simp [hfresh] at hnot

lemma Paid.wait (hf : s.Flagged) (h : s.Paid) (hphase : s.phase = .wait) {alloc : Bool}
    (hc : s.Undisturbed tickPerSecond (.wait alloc)) :
    (s.pollWaitTimeout tickPerSecond alloc).Paid := by
  have hle := h.checks (by simp [hphase])
  rw [pollWaitTimeout_eq, hf.triggered]
  rw [Undisturbed] at hc
  by_cases hwakes : s.wakes = 0
  · obtain ⟨hchecks, hw, hfresh, -, hsusp⟩ := setDelay_cases tickPerSecond s alloc
    simp only [hwakes, Nat.lt_irrefl, decide_false, if_true]
    refine ⟨fun _ => ?_, by simp [hsusp], fun _ _ => hw.trans hwakes, by simp [hsusp]⟩
    rwa [hchecks, hw, hfresh]
  · have hpos : 0 < s.wakes := Nat.pos_of_ne_zero hwakes
    simp only [hpos, decide_true, Bool.true_eq_false, if_false]
    rw [if_neg hwakes] at hc
    exact ⟨fun _ => hle, fun _ => .inr (.inl hc), by simp, by simp⟩

lemma Paid.resume (hf : s.Flagged) (h : s.Paid) (hphase : s.phase = .awake) : s.resume.Paid := by
  have hle := h.checks (by simp [hphase])
  refine ⟨fun _ => hle, fun _ => ?_, by simp [Poll.resume], by simp [Poll.resume]⟩
  by_cases hwakes : 0 < s.wakes
  · exact .inr (.inl (h.awake hphase hwakes))
  · have htrig : s.triggered = false := by rw [hf.triggered, decide_eq_false hwakes]
    exact .inr (.inr (by simp [Poll.resume, htrig]))

variable (phase : PollPhase)

lemma wake_cases :
    (∃ deadline, phase = .suspended deadline) ∧ phase.wake = .awake ∨
      (∀ deadline, phase ≠ .suspended deadline) ∧ phase.wake = phase := by
  cases phase with
  | suspended deadline => exact .inl ⟨⟨deadline, rfl⟩, rfl⟩
  | check => exact .inr ⟨by simp, rfl⟩
  | wait => exact .inr ⟨by simp, rfl⟩
  | awake => exact .inr ⟨by simp, rfl⟩
  | returned num => exact .inr ⟨by simp, rfl⟩

lemma expire_cases (now : Nat) :
    (∃ deadline, phase = .suspended deadline) ∧ phase.expire now = .awake ∨
      phase.expire now = phase := by
  cases phase with
  | suspended deadline =>
    cases deadline with
    | none => exact .inr rfl
    | some d =>
      simp only [PollPhase.expire]
      split
      · exact .inl ⟨⟨some d, rfl⟩, rfl⟩
      · exact .inr rfl
  | check => exact .inr rfl
  | wait => exact .inr rfl
  | awake => exact .inr rfl
  | returned num => exact .inr rfl

lemma Paid.wakeup (h : s.Paid) (hb : Bounded tickPerSecond s) (queue key : Nat) :
    (s.wakeup queue key).Paid ∧ Bounded tickPerSecond (s.wakeup queue key) := by
  have hfinite := hb.finite
  rw [Poll.wakeup]
  split
  · obtain ⟨⟨deadline, hsusp⟩, hwake⟩ | ⟨hnot, hwake⟩ := wake_cases s.phase
    · have hle := h.checks (by simp [hsusp])
      refine ⟨⟨fun _ => ?_, by simp [hwake], by simp [hwake], fun _ _ => rfl⟩, by simp [hwake], ?_⟩
      · simp only [Bool.toNat_true]
        omega
      · simp only
        omega
    · simp only [hwake]
      refine ⟨⟨fun hne => ?_, fun _ => .inr (.inl rfl), fun d hd => absurd hd (hnot d),
        fun _ _ => rfl⟩, fun d hd => absurd hd (hnot d), ?_⟩
      · have hle := h.checks hne
        simp only [Bool.toNat_true]
        omega
      · simp only
        omega
  · exact ⟨h, hb⟩

lemma Paid.tick (h : s.Paid) (hb : Bounded tickPerSecond s) :
    s.tick.Paid ∧ Bounded tickPerSecond s.tick := by
  rw [Poll.tick]
  obtain ⟨⟨deadline, hsusp⟩, hexpire⟩ | hexpire := expire_cases s.phase (s.now + 1)
  · simp only [hexpire]
    have hzero := h.suspended deadline hsusp
    refine ⟨⟨fun _ => h.checks (by simp [hsusp]), by simp, by simp, fun _ hpos => ?_⟩, by simp,
      hb.finite⟩
    simp only at hpos
    omega
  · simp only [hexpire]
    exact ⟨⟨h.checks, h.cause, h.suspended, h.awake⟩, hb.armed, hb.finite⟩

lemma check_iff (hf : s.Flagged) (h : s.Paid) (hphase : s.phase = .check)
    (answers : Nat → FdAnswer) :
    Behaves tickPerSecond s (.check answers) (s.check answers) ↔
      s.Undisturbed tickPerSecond (.check answers) := by
  rw [Behaves, Undisturbed, and_iff_right (h.check tickPerSecond hphase answers).2]
  refine imp_congr_right fun hnothing => imp_congr_right fun _ => ?_
  rw [← hf.istimeout]
  obtain ⟨-, -, -, -, ⟨num, hret, hnum, hcause⟩ | ⟨hwait, -, htimeout⟩⟩ := s.check_cases answers
  · have hzero := hnum.mpr hnothing
    subst hzero
    exact iff_of_true hret (hcause.resolve_left fun h => h rfl)
  · exact iff_of_false (by simp [hwait]) (by simp [htimeout])

lemma behaves_iff (hf : s.Flagged) (h : s.Paid ∧ Bounded tickPerSecond s)
    (hstep : s.step tickPerSecond op = some s') :
    Behaves tickPerSecond s op s' ↔ s.Undisturbed tickPerSecond op := by
  cases op with
  | check answers =>
    obtain ⟨hphase, heq⟩ := ite_none_right_eq_some.mp hstep
    cases heq
    exact check_iff hf h.1 hphase answers
  | wait alloc =>
    obtain ⟨hphase, heq⟩ := ite_none_right_eq_some.mp hstep
    cases heq
    exact wait_iff hf h.1 hphase alloc
  | resume =>
    obtain ⟨hphase, heq⟩ := ite_none_right_eq_some.mp hstep
    cases heq
    exact iff_of_true ⟨⟨by simp [resume], h.2.finite⟩, True.intro⟩ True.intro
  | wake queue key =>
    cases hstep
    exact iff_of_true ⟨(h.1.wakeup h.2 queue key).2, True.intro⟩ True.intro
  | tick =>
    cases hstep
    exact iff_of_true ⟨(h.1.tick h.2).2, True.intro⟩ True.intro

lemma Paid.step (hf : s.Flagged) (h : s.Paid ∧ Bounded tickPerSecond s)
    (hstep : s.step tickPerSecond op = some s') (hc : s.Undisturbed tickPerSecond op) :
    s'.Paid ∧ Bounded tickPerSecond s' := by
  refine ⟨?_, ((behaves_iff hf h hstep).mpr hc).1⟩
  cases op with
  | check answers =>
    obtain ⟨hphase, heq⟩ := ite_none_right_eq_some.mp hstep
    cases heq
    exact (h.1.check tickPerSecond hphase answers).1
  | wait alloc =>
    obtain ⟨hphase, heq⟩ := ite_none_right_eq_some.mp hstep
    cases heq
    exact h.1.wait hf hphase hc
  | resume =>
    obtain ⟨hphase, heq⟩ := ite_none_right_eq_some.mp hstep
    cases heq
    exact h.1.resume hf hphase
  | wake queue key =>
    cases hstep
    exact (h.1.wakeup h.2 queue key).1
  | tick =>
    cases hstep
    exact (h.1.tick h.2).1

end

theorem behaves_iff_undisturbed (fds : List PollFd) (msec : UInt32) (hasDelay : Bool) (now : Nat)
    (ops : List PollOp) :
    Along (step tickPerSecond) (Behaves tickPerSecond) (.init fds msec hasDelay now) ops ↔
      Each (step tickPerSecond) (Undisturbed tickPerSecond) (.init fds msec hasDelay now) ops := by
  have hflagged : (init fds msec hasDelay now).Flagged :=
    ⟨rfl, by simp [init], fun hw => absurd rfl hw.1⟩
  refine along_iff_each (I := Flagged)
    (P := fun s => (s.Paid ∧ Bounded tickPerSecond s) ∧ s.Flagged) (fun hf hstep => hf.step hstep)
    (fun h hstep _ hc => ⟨Paid.step h.2 h.1 hstep hc, h.2.step hstep⟩)
    (fun hf h hstep => behaves_iff hf h.1 hstep) hflagged
    ⟨⟨⟨fun _ => ?_, ?_, ?_, ?_⟩, ?_, ?_⟩, hflagged⟩
  · simp [init]
  · simp [init]
  · simp [init]
  · simp [init]
  · simp [init]
  · simp [init]

theorem poll_spins :
    ∃ s, runs (step 1000) (.init [⟨3, 1, 0⟩] 2 true 0)
      [.check fun _ => .poll [(0, true)] 0, .wait true, .wake 0 1, .resume,
        .check fun _ => .poll [] 0, .wait true, .tick, .tick, .tick, .tick,
        .check fun _ => .poll [] 0, .wait true, .check fun _ => .poll [] 0] = some s ∧
      s.limit 1000 < s.now ∧ s.phase = .wait ∧ s.wakes = 1 ∧ s.checks = 4 :=
  ⟨_, rfl, by decide, by decide, by decide, by decide⟩

end Poll
end Xiuos.Fs
