import Xiuos.Framework.AtAgent
import Xiuos.Lib.Run

/-! `EntmRecv` beside the receive task, in transparent mode. -/

namespace Xiuos.Framework
open Lib List

inductive EntmPc
  | delay
  | clear
  | setLen
  | setValue
  | obtain
  | waiting
  | check
  | nul
  | copy (nulLen : Nat)
  | returned (ok : Bool)
  deriving DecidableEq

/-- `received` is kept by the run alone: what has come since the buffer was cleared. -/
structure EntmWorld where
  agent : AtAgent
  reading : Reading
  notice : UInt16
  bufferLen : Nat
  pc : EntmPc
  revBuffer : List UInt8
  received : List UInt8

inductive EntmOp
  | call (bufferLen : Nat)
  | caller
  | expire
  | char (ch : UInt8)

namespace EntmWorld
variable (maintainMax : Nat)

def init (maintainMax : Nat) : EntmWorld where
  agent := ⟨[], 0, maintainMax, List.replicate entmRecvMax 0, 0, .entm⟩
  reading := ⟨0, 0, false⟩
  notice := 0
  bufferLen := 0
  pc := .returned false
  revBuffer := []
  received := []

variable (w : EntmWorld)

/-- `entm_recv_len - 2` is an `uint32`: with less than two bytes the NUL is written in front of the
buffer, and `memcpy` runs over the buffer's end. -/
def copyLen (len : Nat) : Nat := (len + (2 ^ 32 - 2)) % 2 ^ 32

def nulled (len : Nat) (buf : List UInt8) : List UInt8 :=
  if len < 2 then buf else buf.set (len - 2) 0

def caller (w : EntmWorld) : Option EntmWorld :=
  match w.pc with
  | .delay => some { w with pc := .clear }
  | .clear => some { w with
    agent := { w.agent with entmRecvBuf := List.replicate entmRecvMax 0 }, pc := .setLen }
  | .setLen => some { w with
    agent := { w.agent with entmRecvLen := 0 }, received := [], pc := .setValue }
  | .setValue => some { w with notice := 0, pc := .obtain }
  | .obtain =>
    if 0 < w.notice then some { w with notice := w.notice - 1, pc := .check }
    else some { w with pc := .waiting }
  | .waiting => none
  | .check =>
    some { w with pc := if w.bufferLen < w.agent.entmRecvLen then .returned false else .nul }
  | .nul => some { w with
    agent := { w.agent with entmRecvBuf := nulled w.agent.entmRecvLen w.agent.entmRecvBuf }
    pc := .copy w.agent.entmRecvLen }
  | .copy _ => some { w with
    revBuffer := w.agent.entmRecvBuf.take (copyLen w.agent.entmRecvLen), pc := .returned true }
  | .returned _ => none

def abandon (w : EntmWorld) : EntmWorld :=
  if w.pc = .waiting then { w with pc := .check } else { w with notice := w.notice + 1 }

def char (w : EntmWorld) (ch : UInt8) : EntmWorld :=
  match w.agent.receiveChar w.reading ch with
  | (agent, reading, notice, _) =>
    let w := { w with agent, reading, received := w.received ++ [ch] }
    if notice then w.abandon else w

def step (w : EntmWorld) : EntmOp → Option EntmWorld
  | .call bufferLen =>
    match w.pc with
    | .returned _ => some { w with bufferLen, pc := .delay }
    | _ => none
  | .caller => w.caller
  | .expire => if w.pc = .waiting then some { w with pc := .returned false } else none
  | .char ch => some (w.char ch)

def Delivers (w : EntmWorld) (op : EntmOp) (w' : EntmWorld) : Prop :=
  match op, w.pc with
  | .caller, .copy _ => ∃ body rest, w'.received = body ++ [bang, at64] ++ rest ∧
    Open bang at64 (body ++ [bang]) ∧ w'.revBuffer = body
  | _, _ => True

def stored (w : EntmWorld) : List UInt8 := w.received.take entmRecvMax

def Undisturbed (w : EntmWorld) (op : EntmOp) : Prop :=
  match op, w.pc with
  | .caller, .copy nulLen => Ended bang at64 w.stored ∧
    (nulLen < 2 ∨ nulLen = w.stored.length ∨ w.stored.getD (nulLen - 2) 0 = 0)
  | _, _ => True

def text (w : EntmWorld) : Option (List UInt8) :=
  match w.pc with
  | .setValue | .obtain | .waiting | .check | .nul => some w.stored
  | .copy nulLen => some (nulled nulLen w.stored)
  | _ => none

structure Inv (w : EntmWorld) : Prop where
  mode : w.agent.receiveMode = .entm
  length : w.agent.entmRecvBuf.length = entmRecvMax
  holds : ∀ text, w.text = some text →
    w.agent.entmRecvLen = w.stored.length ∧ w.agent.entmRecvBuf.take w.agent.entmRecvLen = text
  nul : ∀ nulLen, w.pc = .copy nulLen → nulLen ≤ w.agent.entmRecvLen

section
variable {w w' : EntmWorld} {op : EntmOp}

lemma init_inv : (init maintainMax).Inv :=
  ⟨rfl, by simp [init], by simp [init, text], by simp [init]⟩

variable {l : List UInt8} {n : Nat}

lemma take_set_succ (hn : n < l.length) (ch : UInt8) :
    (l.set n ch).take (n + 1) = l.take n ++ [ch] := by
  have hn' : n < (l.set n ch).length := by simpa using hn
  rw [take_succ_eq_append_getElem hn', getElem_set_self, take_set_of_le (Nat.le_refl n)]

lemma take_concat_of_lt (h : (l.take n).length < n) (ch : UInt8) :
    (l ++ [ch]).take n = l.take n ++ [ch] := by
  rw [length_take] at h
  rw [take_of_length_le (by simp; omega), take_of_length_le (show l.length ≤ n by omega)]

lemma take_concat_of_le (h : n ≤ (l.take n).length) (ch : UInt8) :
    (l ++ [ch]).take n = l.take n := by
  rw [length_take] at h
  exact take_append_of_le_length (by omega)

@[simp] lemma length_nulled (n : Nat) (l : List UInt8) : (nulled n l).length = l.length := by
  rw [nulled]
  split
  · rfl
  · exact length_set

lemma take_nulled (n m : Nat) (l : List UInt8) : (nulled n l).take m = nulled n (l.take m) := by
  rw [nulled, nulled]
  split
  · rfl
  · exact take_set

lemma nulled_append (h : n ≤ l.length) (ch : UInt8) :
    nulled n (l ++ [ch]) = nulled n l ++ [ch] := by
  rw [nulled, nulled]
  split
  · rfl
  · exact set_append_left _ _ (by omega)

variable (h : w.Inv)
include h

lemma Inv.store (hroom : w.agent.entmRecvLen < entmRecvMax) (ch : UInt8) (reading : Reading) :
    Inv { w with
      agent := { w.agent with
        entmRecvBuf := w.agent.entmRecvBuf.set w.agent.entmRecvLen ch
        entmRecvLen := w.agent.entmRecvLen + 1 }
      reading, received := w.received ++ [ch] } := by
  have hbuf := take_set_succ (h.length.symm ▸ hroom) ch
  have hgrow : ∀ t, w.text = some t → w.agent.entmRecvLen + 1 =
      ((w.received ++ [ch]).take entmRecvMax).length ∧
      (w.received ++ [ch]).take entmRecvMax = w.stored ++ [ch] := by
    intro t ht
    have hlen := (h.holds t ht).1
    have hstored := take_concat_of_lt (show (w.received.take entmRecvMax).length < entmRecvMax from
      hlen ▸ hroom) ch
    exact ⟨by rw [hstored, length_append, hlen]; rfl, hstored⟩
  refine ⟨h.mode, by simpa using h.length, fun t ht => ?_, fun nulLen hpc => ?_⟩
  · cases hpc : w.pc with
    | copy nulLen =>
      have ht' : w.text = some (nulled nulLen w.stored) := by simp [text, hpc]
      obtain ⟨hlen, htake⟩ := h.holds _ ht'
      obtain ⟨hlen', hstored⟩ := hgrow _ ht'
      simp only [text, hpc, stored, Option.some.injEq] at ht
      refine ⟨hlen', hbuf.trans ?_⟩
      rw [htake, ← ht, hstored, nulled_append (hlen ▸ h.nul nulLen hpc)]
    | setValue | obtain | waiting | check | nul =>
      have ht' : w.text = some w.stored := by simp [text, hpc]
      obtain ⟨hlen, htake⟩ := h.holds _ ht'
      obtain ⟨hlen', hstored⟩ := hgrow _ ht'
      simp only [text, hpc, stored, Option.some.injEq] at ht
      exact ⟨hlen', by rw [hbuf, htake, ← ht, hstored]⟩
    | delay | clear | setLen | returned ok => simp [text, hpc] at ht
  · exact (h.nul nulLen hpc).trans (Nat.le_succ _)

lemma Inv.drop (hfull : entmRecvMax ≤ w.agent.entmRecvLen) (ch : UInt8) :
    Inv { w with received := w.received ++ [ch] } := by
  have hsame : ∀ t, w.text = some t → (w.received ++ [ch]).take entmRecvMax = w.stored := by
    intro t ht
    exact take_concat_of_le (show entmRecvMax ≤ (w.received.take entmRecvMax).length from
      (h.holds t ht).1 ▸ hfull) ch
  refine ⟨h.mode, h.length, fun t ht => ?_, h.nul⟩
  cases hpc : w.pc with
  | copy nulLen =>
    have ht' : w.text = some (nulled nulLen w.stored) := by simp [text, hpc]
    simp only [text, hpc, stored, hsame _ ht'] at ht
    simp only [stored, hsame _ ht']
    exact h.holds t (ht' ▸ ht)
  | setValue | obtain | waiting | check | nul =>
    have ht' : w.text = some w.stored := by simp [text, hpc]
    simp only [text, hpc, stored, hsame _ ht'] at ht
    simp only [stored, hsame _ ht']
    exact h.holds t (ht' ▸ ht)
  | delay | clear | setLen | returned ok => simp [text, hpc] at ht

lemma Inv.abandon : w.abandon.Inv := by
  rw [EntmWorld.abandon]
  split
  · rename_i hpc
    refine ⟨h.mode, h.length, fun t ht => h.holds t ?_, by simp⟩
    simpa [text, hpc, stored] using ht
  · exact ⟨h.mode, h.length, h.holds, h.nul⟩

lemma Inv.char (ch : UInt8) : (w.char ch).Inv := by
  have hmode : w.agent.receiveChar w.reading ch =
      ((w.agent.receiveEntm w.reading ch).1, (w.agent.receiveEntm w.reading ch).2.1,
        (w.agent.receiveEntm w.reading ch).2.2, none) := by simp only [AtAgent.receiveChar, h.mode]
  rw [EntmWorld.char, hmode, AtAgent.receiveEntm]
  by_cases hroom : w.agent.entmRecvLen < entmRecvMax
  · have hstore := h.store hroom ch { w.reading with lastCh := ch }
    simp only [hroom, if_true]
    split
    · exact hstore.abandon
    · exact hstore
  · simp only [hroom, if_false, Bool.false_eq_true]
    exact h.drop (Nat.le_of_not_lt hroom) ch

lemma Inv.caller (hcaller : w.caller = some w') : w'.Inv := by
  rw [EntmWorld.caller.eq_def] at hcaller
  cases hpc : w.pc with
  | delay =>
    obtain rfl : _ = w' := by simpa [hpc] using hcaller
    exact ⟨h.mode, h.length, by simp [text], by simp⟩
  | clear =>
    obtain rfl : _ = w' := by simpa [hpc] using hcaller
    exact ⟨h.mode, by simp, by simp [text], by simp⟩
  | setLen =>
    obtain rfl : _ = w' := by simpa [hpc] using hcaller
    exact ⟨h.mode, h.length, by simp [text, stored], by simp⟩
  | setValue =>
    obtain rfl : _ = w' := by simpa [hpc] using hcaller
    refine ⟨h.mode, h.length, fun t ht => h.holds t ?_, by simp⟩
    simpa [text, hpc, stored] using ht
  | obtain =>
    simp only [hpc] at hcaller
    split at hcaller
    all_goals
      obtain rfl : _ = w' := by simpa using hcaller
      refine ⟨h.mode, h.length, fun t ht => h.holds t ?_, by simp⟩
      simpa [text, hpc, stored] using ht
  | waiting => simp [hpc] at hcaller
  | check =>
    obtain rfl : _ = w' := by simpa [hpc] using hcaller
    by_cases hlong : w.bufferLen < w.agent.entmRecvLen
    · exact ⟨h.mode, h.length, by simp [text, hlong], by simp [hlong]⟩
    · refine ⟨h.mode, h.length, fun t ht => h.holds t ?_, by simp [hlong]⟩
      simpa [text, hpc, hlong, stored] using ht
  | nul =>
    obtain rfl : _ = w' := by simpa [hpc] using hcaller
    obtain ⟨hstored, htake⟩ := h.holds w.stored (by simp [text, hpc])
    refine ⟨h.mode, by simpa using h.length, fun t ht => ?_, ?_⟩
    · obtain rfl : nulled w.agent.entmRecvLen w.stored = t := by
        simpa [text, stored] using ht
      exact ⟨hstored, by simp only [take_nulled, htake]⟩
    · intro nulLen hnul
      cases hnul
      exact Nat.le_refl _
  | copy nulLen =>
    obtain rfl : _ = w' := by simpa [hpc] using hcaller
    exact ⟨h.mode, h.length, by simp [text], by simp⟩
  | returned ok => simp [hpc] at hcaller

lemma Inv.step (hstep : w.step op = some w') : w'.Inv := by
  cases op with
  | call bufferLen =>
    simp only [EntmWorld.step] at hstep
    split at hstep
    · cases hstep
      exact ⟨h.mode, h.length, by simp [text], by simp⟩
    · cases hstep
  | caller => exact h.caller hstep
  | expire =>
    simp only [EntmWorld.step] at hstep
    split at hstep
    · cases hstep
      exact ⟨h.mode, h.length, by simp [text], by simp⟩
    · cases hstep
  | char ch =>
    cases hstep
    exact h.char ch

omit h in
lemma overwritten_iff (hn : n ≤ l.length) :
    (nulled n l).take (l.length - 2) = l.take (l.length - 2) ↔
      n < 2 ∨ n = l.length ∨ l.getD (n - 2) 0 = 0 := by
  rw [nulled]
  split
  · rename_i h2
    exact iff_of_true rfl (.inl h2)
  rename_i h2
  have hi : n - 2 < l.length := by omega
  have hget : l.getD (n - 2) 0 = l[n - 2] := by simp [hi]
  rw [or_iff_right h2]
  constructor
  · intro heq
    obtain rfl | hlt := Nat.eq_or_lt_of_le hn
    · exact Or.inl rfl
    · have hat := congrArg (·[n - 2]?) heq
      have hlt' : n - 2 < l.length - 2 := by omega
      simp only [getElem?_take_of_lt hlt', getElem?_set_self hi,
        getElem?_eq_getElem hi, Option.some.injEq] at hat
      exact Or.inr (hget.trans hat.symm)
  · rintro (rfl | hzero)
    · exact take_set_of_le (Nat.le_refl _)
    · have hself : l.set (n - 2) 0 = l := by
        rw [← hzero, hget]
        exact set_getElem_self hi
      rw [hself]

omit h in
lemma two_le_of_ended (h : Ended bang at64 l) : 2 ≤ l.length := by
  obtain ⟨p, rfl, -, hlast⟩ := h
  obtain ⟨body, rfl⟩ := getLast?_eq_some_iff.mp hlast
  simp

omit h in
lemma two_le_of_received {body rest : List UInt8}
    (h : w.received = body ++ [bang, at64] ++ rest) : 2 ≤ w.stored.length := by
  rw [stored, h, length_take]
  simp only [length_append, length_cons, length_nil, entmRecvMax]
  omega

omit h in
lemma copyLen_of_le (h2 : 2 ≤ n) (hn : n ≤ entmRecvMax) : copyLen n = n - 2 := by
  rw [entmRecvMax] at hn
  rw [copyLen]
  omega

lemma Inv.copied_iff {nulLen : Nat} (hpc : w.pc = .copy nulLen) :
    (∃ body rest, w.received = body ++ [bang, at64] ++ rest ∧ Open bang at64 (body ++ [bang]) ∧
        w.agent.entmRecvBuf.take (copyLen w.agent.entmRecvLen) = body) ↔
      Ended bang at64 w.stored ∧
        (nulLen < 2 ∨ nulLen = w.stored.length ∨ w.stored.getD (nulLen - 2) 0 = 0) := by
  obtain ⟨hlen, htake⟩ := h.holds _ (show w.text = some (nulled nulLen w.stored) by
    simp [text, hpc])
  have hmax : w.stored.length ≤ entmRecvMax := length_take_le ..
  have hcopy : 2 ≤ w.stored.length → w.agent.entmRecvBuf.take (copyLen w.agent.entmRecvLen) =
      (nulled nulLen w.stored).take (w.stored.length - 2) := by
    intro htwo
    rw [← htake, take_take, hlen, copyLen_of_le htwo hmax]
    congr 1
    omega
  rw [← overwritten_iff (hlen ▸ h.nul nulLen hpc)]
  constructor
  · rintro ⟨body, rest, hreceived, hopen, hbody⟩
    have htwo := two_le_of_received hreceived
    rw [hcopy htwo] at hbody
    have hbodyLen : body.length + 2 = w.stored.length := by
      rw [← hbody, length_take, length_nulled]
      omega
    have hstored : w.stored = body ++ [bang, at64] := by
      have hpre : w.stored <+: body ++ [bang, at64] ++ rest :=
        hreceived ▸ take_prefix entmRecvMax w.received
      exact (prefix_of_prefix_length_le hpre (prefix_append _ _)
        (by simp; omega)).eq_of_length (by simp; omega)
    refine ⟨⟨body ++ [bang], by simp [hstored], hopen, by simp⟩, hbody.trans ?_⟩
    rw [hstored]
    simp
  · rintro ⟨hended, hsame⟩
    rw [hcopy (two_le_of_ended hended)]
    obtain ⟨p, hstored, hopen, hlast⟩ := hended
    obtain ⟨body, rfl⟩ := getLast?_eq_some_iff.mp hlast
    refine ⟨body, w.received.drop entmRecvMax, ?_, hopen, hsame.trans (by simp [hstored])⟩
    rw [← take_append_drop entmRecvMax w.received]
    have hall : w.received.take entmRecvMax = body ++ [bang, at64] := by
      simpa [stored] using hstored
    rw [hall]
    simp [← hall]

lemma Inv.delivers_iff (hstep : w.step op = some w') : w.Delivers op w' ↔ w.Undisturbed op := by
  cases op with
  | caller =>
    cases hpc : w.pc with
    | copy nulLen =>
      obtain rfl : _ = w' := by simpa [EntmWorld.step, EntmWorld.caller, hpc] using hstep
      simpa [Delivers, Undisturbed, hpc] using h.copied_iff hpc
    | _ => simp [Delivers, Undisturbed, hpc]
  | _ => simp [Delivers, Undisturbed]

end

end EntmWorld
end Xiuos.Framework
