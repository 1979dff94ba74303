import Xiuos.Kernel.Ktask
import Xiuos.Kernel.Tick
import Xiuos.Lib.Cycle
import Xiuos.Lib.Count
import Xiuos.Lib.Run

/-! The data queue of `data_queue.c`, with any number of tasks in the middle of its calls. -/

namespace Xiuos.Kernel
open Lib Function Nat

structure DataElem where
  data : Nat
  length : Nat
  deriving DecidableEq

structure PendSem where
  value : UInt16
  pend : List Nat

inductive QueueSem
  | blank
  | data
  deriving DecidableEq

structure DataQueue where
  front : Nat
  rear : Nat
  maxLen : Nat
  base : Nat → DataElem
  live : QueueSem → Bool
  sem : QueueSem → PendSem

/-- `x_malloc` gives no memory for no nodes, and `id` is what `KSemaphoreCreate` returns: 0 is taken
for its failure and the negative ids that it fails with are not, so that a semaphore may be missing
from a queue that is reported as ready. -/
def initDataqueue (nodeNumber : UInt16) (base : Option (Nat → DataElem)) (id : QueueSem → Int32) :
    Option DataQueue := do
  let base ← base
  if nodeNumber = 0 ∨ id .blank = 0 ∨ id .data = 0 then none
  else some {
    front := 0
    rear := 0
    maxLen := nodeNumber.toNat
    base
    live := fun s => 0 < id s
    sem := fun
      | .blank => ⟨nodeNumber - 1, []⟩
      | .data => ⟨0, []⟩ }

namespace DataQueue

def setSem (q : DataQueue) (s : QueueSem) (sem : PendSem) : DataQueue :=
  { q with sem := update q.sem s sem }

def store (q : DataQueue) (elem : DataElem) : DataQueue × Option DataElem :=
  if (q.rear + 1) % q.maxLen ≠ q.front then
    ({ q with base := update q.base q.rear elem, rear := (q.rear + 1) % q.maxLen }, some elem)
  else (q, none)

def take (q : DataQueue) : DataQueue × Option DataElem :=
  if q.front ≠ q.rear then
    ({ q with front := (q.front + 1) % q.maxLen }, some (q.base q.front))
  else (q, none)

def contents (q : DataQueue) : List DataElem :=
  arc q.base q.maxLen q.front ((q.rear + q.maxLen - q.front) % q.maxLen)

end DataQueue

inductive DqCall
  | push (elem : DataElem) (timeout : Int32)
  | pop (timeout : Int32)
  deriving DecidableEq

namespace DqCall

def timeout : DqCall → Int32
  | push _ timeout => timeout
  | pop timeout => timeout

def obtains : DqCall → QueueSem
  | push _ _ => .blank
  | pop _ => .data

def abandons : DqCall → QueueSem
  | push _ _ => .data
  | pop _ => .blank

def forever : Int32 := -1

end DqCall

inductive DqPc
  | wait (call : DqCall)
  | guarded (call : DqCall)
  | moved (call : DqCall) (elem : Option DataElem)
  deriving DecidableEq

/-- A critical section that has been passed, with the element that it has stored or taken. -/
structure DqSection where
  task : Nat
  call : DqCall
  elem : Option DataElem
  deriving DecidableEq

structure DqReturn extends DqSection where
  ret : Int
  deriving DecidableEq

structure DqWorld where
  queue : DataQueue
  pc : Nat → Option DqPc
  passed : List DqSection
  returns : List DqReturn

inductive DqOp
  | call (t : Nat) (call : DqCall)
  | expire (t : Nat)
  | enter (t : Nat)
  | leave (t next : Nat)
  deriving DecidableEq

namespace DqWorld

def start (queue : DataQueue) : DqWorld := ⟨queue, fun _ => none, [], []⟩

def setSem (w : DqWorld) (s : QueueSem) (sem : PendSem) : DqWorld :=
  { w with queue := w.queue.setSem s sem }

def setPc (w : DqWorld) (t : Nat) (pc : Option DqPc) : DqWorld := { w with pc := update w.pc t pc }

def ret (w : DqWorld) (t : Nat) (call : DqCall) (ret : Int) (elem : Option DataElem) : DqWorld :=
  { w.setPc t none with returns := w.returns ++ [⟨⟨t, call, elem⟩, ret⟩] }

/-- `KSemaphoreObtain` has no token for the call: it fails with the timeout 0, and otherwise goes
on. -/
def refused (w : DqWorld) (t : Nat) (call : DqCall) : DqWorld :=
  if call.timeout = 0 then w.ret t call (-error) none else w.setPc t (some (.guarded call))

def enterCall (tickPerSecond : UInt32) (w : DqWorld) (t : Nat) (call : DqCall) : DqWorld :=
  if call.timeout = DqCall.forever ∨ call.timeout = 0 then
    let sem := w.queue.sem call.obtains
    if w.queue.live call.obtains = false then w.refused t call
    else if sem.value > 0 then
      (w.setSem call.obtains { sem with value := sem.value - 1 }).setPc t (some (.guarded call))
    else if calculteTickFromTimeMs tickPerSecond call.timeout.toUInt32 = 0 then w.refused t call
    else
      (w.setSem call.obtains { sem with pend := sem.pend ++ [t] }).setPc t (some (.wait call))
  else w.setPc t (some (.guarded call))

def pass (w : DqWorld) (t : Nat) (call : DqCall) (r : DataQueue × Option DataElem) : DqWorld :=
  { w.setPc t (some (.moved call r.2)) with
    queue := r.1, passed := w.passed ++ [⟨t, call, r.2⟩] }

def move (w : DqWorld) (t : Nat) : DqCall → DqWorld
  | .push elem timeout => w.pass t (.push elem timeout) (w.queue.store elem)
  | .pop timeout => w.pass t (.pop timeout) w.queue.take

def abandon (w : DqWorld) (s : QueueSem) (next : Nat) : Option DqWorld :=
  let sem := w.queue.sem s
  if w.queue.live s = false then some w
  else if sem.pend = [] then
    some (w.setSem s { sem with value := sem.value + 1 })
  else if next ∈ sem.pend then
    match w.pc next with
    | some (.wait call) =>
      some ((w.setSem s { sem with pend := sem.pend.filter (· ≠ next) }).setPc next
        (some (.guarded call)))
    | _ => none
  else none

def step (tickPerSecond : UInt32) (w : DqWorld) : DqOp → Option DqWorld
  | .call t call => if w.pc t = none then some (w.enterCall tickPerSecond t call) else none
  | .expire t =>
    match w.pc t with
    | some (.wait call) =>
      let sem := w.queue.sem call.obtains
      some ((w.setSem call.obtains { sem with pend := sem.pend.filter (· ≠ t) }).refused t call)
    | _ => none
  | .enter t =>
    match w.pc t with
    | some (.guarded call) => some (w.move t call)
    | _ => none
  | .leave t next =>
    match w.pc t with
    | some (.moved call elem) => (w.ret t call eok elem).abandon call.abandons next
    | _ => none

end DqWorld

namespace DataQueue
variable {q : DataQueue}

structure Ring (q : DataQueue) : Prop where
  front : q.front < q.maxLen
  rear : q.rear < q.maxLen

lemma mod_of_lt_two_mul {x n : Nat} (h : x < 2 * n) : x % n = if x < n then x else x - n := by
  split
  · exact mod_eq_of_lt ‹_›
  · rw [mod_eq_sub_mod (by omega), mod_eq_of_lt (by omega)]

lemma length_contents (q : DataQueue) :
    q.contents.length = (q.rear + q.maxLen - q.front) % q.maxLen := length_arc ..

lemma Ring.rear_eq (h : q.Ring) : q.rear = (q.front + q.contents.length) % q.maxLen := by
  have hfront := h.front
  have hrear := h.rear
  rw [length_contents, mod_of_lt_two_mul (x := _ - _) (by omega)]
  split <;> rw [mod_of_lt_two_mul (by omega)] <;> split <;> omega

lemma Ring.length_lt (h : q.Ring) : q.contents.length < q.maxLen := by
  rw [length_contents]
  exact mod_lt _ (zero_lt_of_lt h.front)

lemma contents_eq (q : DataQueue) :
    q.contents = arc q.base q.maxLen q.front q.contents.length := by rw [contents, length_arc]

lemma contents_of_rear_eq {n : Nat} (hfront : q.front < q.maxLen) (hn : n < q.maxLen)
    (h : q.rear = (q.front + n) % q.maxLen) : q.contents = arc q.base q.maxLen q.front n := by
  have hlen : (q.rear + q.maxLen - q.front) % q.maxLen = n := by
    rw [h, mod_of_lt_two_mul (x := q.front + n) (by omega)]
    split <;> rw [mod_of_lt_two_mul (by omega)] <;> split <;> omega
  rw [contents, hlen]

lemma contents_eq_nil (h : q.front = q.rear) : q.contents = [] := by
  rw [contents, h, Nat.add_sub_cancel_left, mod_self]
  rfl

lemma Ring.store_eq (h : q.Ring) (elem : DataElem) (hlt : q.contents.length + 1 < q.maxLen) :
    ∃ q', q.store elem = (q', some elem) ∧ q'.Ring ∧ q'.maxLen = q.maxLen ∧ q'.live = q.live ∧
      q'.sem = q.sem ∧ q'.contents = q.contents ++ [elem] := by
  have hfront := h.front
  have hrear := h.rear_eq
  have hnext : (q.rear + 1) % q.maxLen = (q.front + (q.contents.length + 1)) % q.maxLen := by
    rw [hrear, mod_add_mod, Nat.add_assoc]
  have hne : (q.rear + 1) % q.maxLen ≠ q.front := by
    rw [hnext, mod_of_lt_two_mul (by omega)]
    split <;> omega
  refine ⟨_, if_pos hne, ⟨hfront, mod_lt _ (zero_lt_of_lt hfront)⟩, rfl, rfl, rfl, ?_⟩
  rw [contents_of_rear_eq (q := { q with
    base := update q.base q.rear elem, rear := (q.rear + 1) % q.maxLen }) hfront hlt hnext]
  simp only
  rw [hrear, arc_update h.length_lt, ← contents_eq]

lemma Ring.take_eq (h : q.Ring) (hpos : 0 < q.contents.length) :
    ∃ q' elem, q.take = (q', some elem) ∧ q'.Ring ∧ q'.maxLen = q.maxLen ∧ q'.live = q.live ∧
      q'.sem = q.sem ∧ q.contents = elem :: q'.contents := by
  have hfront := h.front
  have hrear := h.rear_eq
  have hlt := h.length_lt
  obtain ⟨n, hn⟩ := exists_eq_add_one_of_ne_zero hpos.ne'
  have hne : q.front ≠ q.rear := by
    rw [hrear, mod_of_lt_two_mul (by omega)]
    split <;> omega
  have hnext : q.rear = ((q.front + 1) % q.maxLen + n) % q.maxLen := by
    rw [hrear, hn, mod_add_mod, Nat.add_assoc, Nat.add_comm 1]
  have hmod := mod_lt (q.front + 1) (zero_lt_of_lt hfront)
  have hlen : n < q.maxLen := by omega
  refine ⟨_, _, if_pos hne, ⟨hmod, h.rear⟩, rfl, rfl, rfl, ?_⟩
  rw [contents_of_rear_eq (q := { q with front := (q.front + 1) % q.maxLen }) hmod hlen hnext]
  simp only
  rw [contents_eq, hn, arc_succ, mod_eq_of_lt hfront, arc_mod]

end DataQueue
end Xiuos.Kernel
