import Xiuos.Lib.Cycle
import Xiuos.Lib.Run

/-! The receive buffer of `dev_serial.c` in interrupt mode, and the semaphore that its readers wait
for. -/

namespace Xiuos.Resources
open Lib Function Fin List Nat Option
variable {size : Nat} (i : Fin size)

def next (i : Fin size) : Fin size :=
  if h : i.val + 1 ≥ size then ⟨0, i.pos⟩ else ⟨i.val + 1, by omega⟩

lemma next_val : (next i).val = (i.val + 1) % size := by
  have hi := i.isLt
  rw [next]
  split
  · rw [show i.val + 1 = size by omega, mod_self]
  · exact (mod_eq_of_lt (by omega)).symm

lemma next_ne {i : Fin size} (hsize : size ≠ 1) : next i ≠ i := by
  have hi := i.isLt
  rw [next, ne_eq, Fin.ext_iff]
  split
  · simp only
    omega
  · simp

/-- `struct SerialRx`. The flag is only kept with equal places in a buffer of one byte. -/
structure SerialRx (size : Nat) where
  buffer : Nat → UInt8
  sendNum : Fin size
  recvNum : Fin size
  full : Bool
  full_of_eq : full = true → recvNum = sendNum → size = 1

variable (rx : SerialRx size)

namespace SerialRx

def put (rx : SerialRx size) (c : UInt8) : SerialRx size :=
  if h : next rx.sendNum = rx.recvNum then
    { buffer := update rx.buffer rx.sendNum c
      sendNum := next rx.sendNum
      recvNum := next rx.recvNum
      full := true
      full_of_eq := fun _ heq => by
        by_contra hsize
        rw [h] at heq
        exact next_ne hsize heq }
  else
    { buffer := update rx.buffer rx.sendNum c
      sendNum := next rx.sendNum
      recvNum := rx.recvNum
      full := rx.full
      full_of_eq := fun _ heq => absurd heq.symm h }

def rxLength (rx : SerialRx size) : Nat :=
  if rx.sendNum < rx.recvNum then size - rx.recvNum + rx.sendNum else rx.sendNum - rx.recvNum

def get (rx : SerialRx size) : Option (UInt8 × SerialRx size) :=
  if rx.recvNum = rx.sendNum ∧ rx.full = false then none
  else some (rx.buffer rx.recvNum, { rx with
    recvNum := next rx.recvNum, full := false, full_of_eq := fun h => nomatch h })

def count (rx : SerialRx size) : Nat :=
  if rx.recvNum = rx.sendNum ∧ rx.full = true then size else rx.rxLength

def unread (rx : SerialRx size) : List UInt8 := arc rx.buffer size rx.recvNum rx.count

variable {rx : SerialRx size}

lemma count_eq_zero : rx.count = 0 ↔ rx.recvNum = rx.sendNum ∧ rx.full = false := by
  have hr := rx.recvNum.isLt
  have hs := rx.sendNum.isLt
  simp only [count, rxLength, Fin.ext_iff, lt_def]
  cases rx.full with
  | true =>
    simp only [and_true, Bool.true_eq_false, and_false, iff_false]
    split
    · omega
    · split
      · omega
      · omega
  | false =>
    simp only [Bool.false_eq_true, and_false, if_false, and_true]
    split
    · omega
    · omega

lemma unread_eq_nil : rx.unread = [] ↔ rx.recvNum = rx.sendNum ∧ rx.full = false := by
  rw [← count_eq_zero, ← length_eq_zero_iff, unread, length_arc]

lemma get_eq_none : rx.get = none ↔ rx.unread = [] := by
  rw [unread_eq_nil, get]
  split
  · simp [*]
  · simp [*]

lemma rxLength_lt (rx : SerialRx size) : rx.rxLength < size := by
  have hr := rx.recvNum.isLt
  have hs := rx.sendNum.isLt
  simp only [rxLength, lt_def]
  split
  · omega
  · omega

lemma add_rxLength (rx : SerialRx size) : (rx.recvNum + rx.rxLength) % size = rx.sendNum := by
  have hr := rx.recvNum.isLt
  have hs := rx.sendNum.isLt
  simp only [rxLength, lt_def]
  split
  · rw [show rx.recvNum.val + (size - rx.recvNum + rx.sendNum) = rx.sendNum + size by omega,
      add_mod_right, mod_eq_of_lt hs]
  · rw [show rx.recvNum.val + (rx.sendNum - rx.recvNum) = rx.sendNum by omega, mod_eq_of_lt hs]

lemma rxLength_eq {n : Nat} (hn : n < size) (h : (rx.recvNum + n) % size = rx.sendNum) :
    rx.rxLength = n :=
  Slots.slot_injective rx.recvNum rx.rxLength_lt hn (rx.add_rxLength.trans h.symm)

lemma count_of_ne (h : size ≠ 1) : rx.count = rx.rxLength :=
  if_neg fun hfull => h (rx.full_of_eq hfull.2 hfull.1)

lemma unread_put (rx : SerialRx size) (c : UInt8) :
    (rx.put c).unread =
      (if next rx.sendNum = rx.recvNum then rx.unread.tail else rx.unread) ++ [c] := by
  have hs := rx.sendNum.isLt
  have hr := rx.recvNum.isLt
  by_cases hsize : size = 1
  · subst hsize
    have hnext : next rx.sendNum = rx.recvNum := Subsingleton.elim _ _
    have hle : rx.count ≤ 1 := by
      have hlt := rx.rxLength_lt
      rw [count]
      split
      · omega
      · omega
    have htail : rx.unread.tail = [] := by
      rw [← length_eq_zero_iff, length_tail, unread, length_arc]
      omega
    have hput : (rx.put c).count = 1 := by
      rw [put, dif_pos hnext, count, if_pos ⟨Subsingleton.elim _ _, rfl⟩]
    rw [if_pos hnext, htail, unread, hput, put, dif_pos hnext, arc]
    simp [mod_one]
  · by_cases hnext : next rx.sendNum = rx.recvNum
    · have hrecv : (rx.sendNum + 1) % size = rx.recvNum.val := by rw [← next_val, hnext]
      have hlen : rx.rxLength = size - 2 + 1 := by
        refine rxLength_eq (by omega) ?_
        rw [← hrecv, mod_add_mod, show rx.sendNum + 1 + (size - 2 + 1) = rx.sendNum + size by
          omega, add_mod_right, mod_eq_of_lt hs]
      have hput : (rx.put c).count = size - 2 + 1 := by
        rw [count_of_ne hsize]
        refine rxLength_eq (by omega) ?_
        rw [put, dif_pos hnext]
        simp only [next_val]
        rw [mod_add_mod, show rx.recvNum + 1 + (size - 2 + 1) = rx.recvNum + size by omega,
          add_mod_right, mod_eq_of_lt hr, hrecv]
      have hplace : rx.sendNum.val = (rx.recvNum + 1 + (size - 2)) % size := by
        rw [← rx.add_rxLength, hlen, Nat.add_assoc, Nat.add_comm 1]
      have htail : rx.unread.tail = arc rx.buffer size (rx.recvNum + 1) (size - 2) := by
        rw [unread, count_of_ne hsize, hlen, arc_succ, List.tail_cons]
      rw [if_pos hnext, htail, unread, hput, put, dif_pos hnext]
      simp only [next_val, arc_mod]
      rw [hplace, arc_update (by omega)]
    · have hlt : rx.rxLength + 1 < size := by
        have hle := rx.rxLength_lt
        by_contra hge
        refine hnext (Fin.ext ?_)
        rw [next_val, ← rx.add_rxLength, mod_add_mod,
          show rx.recvNum + rx.rxLength + 1 = rx.recvNum + size by omega, add_mod_right,
          mod_eq_of_lt hr]
      have hput : (rx.put c).count = rx.rxLength + 1 := by
        rw [count_of_ne hsize]
        refine rxLength_eq hlt ?_
        rw [put, dif_neg hnext]
        simp only [next_val]
        rw [← Nat.add_assoc, ← rx.add_rxLength, mod_add_mod]
      rw [if_neg hnext, unread, hput, put, dif_neg hnext, unread, count_of_ne hsize]
      simp only
      rw [← rx.add_rxLength, arc_update rx.rxLength_lt]

lemma unread_put_ne_nil (rx : SerialRx size) (c : UInt8) : (rx.put c).unread ≠ [] := by
  rw [unread_put]
  exact append_ne_nil_of_right_ne_nil _ (cons_ne_nil c [])

end SerialRx

inductive ReadPhase
  | idle
  | suspended (readLength : Nat)
  | reading (readLength : Nat)
  deriving DecidableEq

structure Serial (size : Nat) where
  rx : SerialRx size
  value : UInt16
  phase : ReadPhase
  readData : List UInt8

inductive SerialOp
  | interrupt (bytes : List UInt8)
  | read (readLength : Nat)
  | get
  | expire

namespace Serial

def init (hsize : 0 < size) : Serial size :=
  ⟨⟨fun _ => 0, ⟨0, hsize⟩, ⟨0, hsize⟩, false, fun h => nomatch h⟩, 0, .idle, []⟩

variable (s : Serial size)

def abandon (s : Serial size) : Serial size :=
  match s.phase with
  | .suspended readLength => { s with phase := .reading readLength }
  | _ => { s with value := s.value + 1 }

variable (bytes : List UInt8)

def interrupt (s : Serial size) (bytes : List UInt8) : Serial size :=
  let s := { s with rx := bytes.foldl SerialRx.put s.rx }
  if s.rx.rxLength ≠ 0 then s.abandon else s

def obtain (s : Serial size) (readLength : Nat) : Serial size :=
  if s.value > 0 then { s with value := s.value - 1, phase := .reading readLength, readData := [] }
  else { s with phase := .suspended readLength, readData := [] }

def round (s : Serial size) : Nat → Serial size
  | 0 => { s with phase := .idle }
  | readLength + 1 =>
    match s.rx.get with
    | none => { s with phase := .idle }
    | some (c, rx) => { s with rx, phase := .reading readLength, readData := s.readData ++ [c] }

def step (s : Serial size) : SerialOp → Option (Serial size)
  | .interrupt bytes => some (s.interrupt bytes)
  | .read readLength =>
    if s.phase = .idle ∧ readLength ≠ 0 then some (s.obtain readLength) else none
  | .get =>
    match s.phase with
    | .reading readLength => some (s.round readLength)
    | _ => none
  | .expire =>
    match s.phase with
    | .suspended _ => some { s with phase := .idle }
    | _ => none

def Prompt (s : Serial size) : Prop :=
  (∀ n, s.phase ≠ .reading n) → s.value = 0 → s.rx.unread = []

/-- A read that gets all that it asked for leaves nothing behind, unless the semaphore has another
token. The counter of 16 bits does not wrap around, and a buffer of one byte, which is never
reported, gets nothing that somebody waits for. -/
def Drained (s : Serial size) : SerialOp → Prop
  | .get => s.phase = .reading 0 → s.value = 0 → s.rx.unread = []
  | .interrupt bytes =>
    match s.phase with
    | .reading _ => True
    | .suspended _ => size = 1 → bytes = []
    | .idle =>
      if size = 1 then s.value = 0 → bytes = []
      else s.value = 65535 → bytes = [] ∧ s.rx.unread = []
  | .read _ => True
  | .expire => True

instance decidableDrained (s : Serial size) : ∀ op, Decidable (s.Drained op)
  | .get => inferInstanceAs (Decidable (_ → _ → _))
  | .interrupt _ => by
    rw [Drained]
    split
    · infer_instance
    · infer_instance
    · split <;> infer_instance
  | .read _ | .expire => isTrue trivial

variable {s s' : Serial size} {op : SerialOp}

lemma unread_puts : (bytes.foldl SerialRx.put rx).unread = [] ↔ bytes = [] ∧ rx.unread = [] := by
  induction bytes generalizing rx with
  | nil => simp
  | cons c bytes ih => simp [ih, rx.unread_put_ne_nil c]

lemma rxLength_eq_zero : rx.rxLength = 0 ↔ size = 1 ∨ rx.unread = [] := by
  by_cases hsize : size = 1
  · have hlt := rx.rxLength_lt
    exact iff_of_true (by omega) (.inl hsize)
  · rw [← rx.count_of_ne hsize, SerialRx.unread, ← length_eq_zero_iff, length_arc]
    simp [hsize]

def Tokenless (s : Serial size) : Prop := ∀ n, s.phase = .suspended n → s.value = 0

variable {bytes : List UInt8}

lemma interrupt_of_eq (h : (bytes.foldl SerialRx.put s.rx).rxLength = 0) :
    s.interrupt bytes = { s with rx := bytes.foldl SerialRx.put s.rx } := by simp [interrupt, h]

lemma interrupt_of_ne (h : (bytes.foldl SerialRx.put s.rx).rxLength ≠ 0) :
    s.interrupt bytes = abandon { s with rx := bytes.foldl SerialRx.put s.rx } := by
  simp [interrupt, h]

lemma add_one_eq_zero {v : UInt16} : v + 1 = 0 ↔ v = 65535 := by
  have hv := v.toNat_lt
  rw [← UInt16.toNat_inj, ← UInt16.toNat_inj, UInt16.toNat_add]
  simp only [UInt16.reduceToNat]
  omega

lemma prompt_interrupt_iff (ht : s.Tokenless) (hp : s.Prompt) (bytes : List UInt8) :
    (s.interrupt bytes).Prompt ↔ s.Drained (.interrupt bytes) := by
  have hputs := unread_puts s.rx bytes
  have hlen := rxLength_eq_zero (bytes.foldl SerialRx.put s.rx)
  rw [hputs] at hlen
  cases hphase : s.phase with
  | reading n =>
    simp only [Drained, hphase, iff_true]
    by_cases h : (bytes.foldl SerialRx.put s.rx).rxLength = 0
    · rw [interrupt_of_eq h]
      exact fun hnot => absurd hphase (hnot n)
    · rw [interrupt_of_ne h, abandon]
      simp only [hphase]
      exact fun hnot => absurd rfl (hnot n)
  | suspended n =>
    have hzero := ht n hphase
    have hnil := hp (by simp [hphase]) hzero
    simp only [Drained, hphase]
    by_cases h : (bytes.foldl SerialRx.put s.rx).rxLength = 0
    · rw [interrupt_of_eq h, Prompt]
      simp only [hphase, hputs, hnil, hzero, and_true, forall_const, ne_eq, reduceCtorEq,
        not_false_eq_true]
      obtain hone | hnone := hlen.mp h
      · simp [hone]
      · simp [hnone.1]
    · rw [interrupt_of_ne h, abandon]
      simp only [hphase]
      refine iff_of_true (fun hnot => absurd rfl (hnot n)) fun hone => ?_
      exact absurd (hlen.mpr (.inl hone)) h
  | idle =>
    simp only [Drained, hphase]
    by_cases h : (bytes.foldl SerialRx.put s.rx).rxLength = 0
    · rw [interrupt_of_eq h, Prompt]
      simp only [hphase, hputs, ne_eq, reduceCtorEq, not_false_eq_true, implies_true, forall_const]
      by_cases hone : size = 1
      · rw [if_pos hone]
        exact ⟨fun hall hv => (hall hv).1,
          fun hall hv => ⟨hall hv, hp (by simp [hphase]) hv⟩⟩
      · rw [if_neg hone]
        have hboth := (hlen.mp h).resolve_left hone
        exact iff_of_true (fun _ => hboth) fun _ => hboth
    · have hone : size ≠ 1 := fun hone => h (hlen.mpr (.inl hone))
      have hsome : ¬ (bytes = [] ∧ s.rx.unread = []) := fun hboth => h (hlen.mpr (.inr hboth))
      rw [interrupt_of_ne h, abandon, Prompt, if_neg hone]
      simp [hphase, hputs, hsome, add_one_eq_zero]

lemma prompt_step_iff (ht : s.Tokenless) (hp : s.Prompt) (hstep : s.step op = some s') :
    s'.Prompt ↔ s.Drained op := by
  cases op with
  | interrupt bytes =>
    cases hstep
    exact prompt_interrupt_iff ht hp bytes
  | read readLength =>
    obtain ⟨⟨hphase, -⟩, heq⟩ := ite_none_right_eq_some.mp hstep
    cases heq
    refine iff_of_true ?_ True.intro
    rw [obtain]
    split
    · exact fun hnot => absurd rfl (hnot readLength)
    · exact fun _ hv => hp (by simp [hphase]) hv
  | get =>
    rw [step] at hstep
    split at hstep
    · rename_i n hphase
      cases hstep
      simp only [Drained, hphase]
      cases n with
      | zero => simp [round, Prompt]
      | succ n =>
        refine iff_of_true ?_ (by simp)
        rw [round]
        split
        · rename_i hget
          exact fun _ _ => SerialRx.get_eq_none.mp hget
        · exact fun hnot => absurd rfl (hnot n)
    · simp at hstep
  | expire =>
    rw [step] at hstep
    split at hstep
    · rename_i n hphase
      cases hstep
      exact iff_of_true (fun _ hv => hp (by simp [hphase]) hv) True.intro
    · simp at hstep

lemma Tokenless.step (ht : s.Tokenless) (hstep : s.step op = some s') : s'.Tokenless := by
  cases op with
  | interrupt bytes =>
    cases hstep
    by_cases h : (bytes.foldl SerialRx.put s.rx).rxLength = 0
    · rw [interrupt_of_eq h]
      exact ht
    · rw [interrupt_of_ne h, abandon]
      split
      · simp [Tokenless]
      · rename_i hnot
        exact fun n hn => absurd hn (hnot n)
  | read readLength =>
    obtain ⟨-, heq⟩ := ite_none_right_eq_some.mp hstep
    cases heq
    rw [obtain]
    split
    · simp [Tokenless]
    · rename_i hv
      intro n _
      simpa using hv
  | get =>
    rw [Serial.step] at hstep
    split at hstep
    · rename_i n hphase
      cases hstep
      cases n with
      | zero => simp [round, Tokenless]
      | succ n =>
        rw [round]
        split
        · simp [Tokenless]
        · simp [Tokenless]
    · simp at hstep
  | expire =>
    rw [Serial.step] at hstep
    split at hstep
    · cases hstep
      simp [Tokenless]
    · simp at hstep

theorem prompt_iff_drained (hsize : 0 < size) (ops : List SerialOp) :
    (Always step Prompt (init hsize) ops ↔ Each step Drained (init hsize) ops) ∧
      (Each step Drained (init hsize) ops →
        Always step (fun s => ∀ n, s.phase = .suspended n → s.rx.unread = []) (init hsize)
          ops) := by
  have ht : (init hsize).Tokenless := by simp [Tokenless, init]
  have hp : (init hsize).Prompt := fun _ _ => by
    rw [SerialRx.unread_eq_nil]
    exact ⟨rfl, rfl⟩
  refine ⟨always_iff_each (I := Tokenless) (fun ht hstep => ht.step hstep)
    (fun ht hp hstep => prompt_step_iff ht hp hstep) ht hp, fun hdrained => ?_⟩
  have hrun := always_of_each (I := fun s => s.Tokenless ∧ s.Prompt)
    (fun h hd hstep => ⟨h.1.step hstep, (prompt_step_iff h.1 h.2 hstep).mpr hd⟩) ⟨ht, hp⟩ hdrained
  exact hrun.mono fun s h n hn => h.2 (by simp [hn]) (h.1 n hn)

theorem prompt_iff_drained_sample :
    Always step Prompt (init (by decide) : Serial 4)
        [.interrupt [65, 66], .read 2, .get, .get, .get, .read 1] ∧
      ∃ s : Serial 4, runs step (init (by decide))
          [.interrupt [65, 66], .read 2, .get, .get, .get, .read 1] = some s ∧
        s.phase = .suspended 1 ∧ s.rx.unread = [] :=
  ⟨(prompt_iff_drained (by decide) _).1.mpr (by decide), _, rfl, by decide, by decide⟩

theorem read_waits_on_data :
    ∃ s : Serial 4, runs step (init (by decide))
        [.interrupt [65, 66], .read 1, .get, .get, .read 1] = some s ∧
      s.phase = .suspended 1 ∧ s.rx.unread = [66] := ⟨_, rfl, by decide, by decide⟩

end Serial
end Xiuos.Resources
