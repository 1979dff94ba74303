import Xiuos.Framework.AtAgent
import Xiuos.Lib.Run

/-! `ATOrderSend` and `ATAgentReceiveProcess`, one statement after the other. -/

namespace Xiuos.Framework
open Lib Function Nat Option

inductive OutsidePc
  | idle
  | clear (reply : Option Nat)
  | lock (reply : Option Nat)
  | inside
  | entm (ok : Bool)
  deriving DecidableEq

inductive InsidePc
  | setReply (reply : Option Nat)
  | resetLen (reply : Nat)
  | send (reply : Option Nat)
  | obtain (reply call : Nat)
  | waiting (reply call : Nat)
  | clearReply (ok : Bool)
  | unlock (ok : Bool)
  deriving DecidableEq

/-- The receive task. A call that ends between the check and the load leaves it a NULL reply. -/
inductive ReceivePc
  | begin
  | reading (l : Reading)
  | check
  | load
  | terminate (reply : Option Nat)
  | copy (reply : Option Nat)
  | clear
  | post
  deriving DecidableEq

/-- No complete line is being handled. -/
def ReceivePc.reads : ReceivePc → Bool
  | .begin => true
  | .reading _ => true
  | _ => false

/-- No byte of a line is in the line buffer. -/
def ReceivePc.between : ReceivePc → Bool
  | .begin => true
  | .reading l => l.readLen = 0
  | _ => false

/-- `origin` is kept by the run alone, and so are `line`, `completed` and `sends`: the line that
was stored in a reply object and how many commands had been sent when it was complete, what was
received of a line, the number of commands at its end, and the number of commands. -/
structure AtWorld where
  agent : AtAgent
  reply : Option Nat
  rspSem : UInt16
  outside : Nat → OutsidePc
  locked : Option (Nat × InsidePc)
  receiver : ReceivePc
  replyBuffer : Nat → List UInt8
  replyLen : Nat → Nat
  origin : Nat → Option (Nat × List UInt8)
  line : List UInt8
  completed : Nat
  sends : Nat

inductive AtOp
  | call (c : Nat) (reply : Option Nat)
  | caller (c : Nat)
  | expire
  | char (ch : UInt8)
  | receive
  deriving DecidableEq

namespace AtWorld
variable (maintainMax : Nat)

def init (maintainMax : Nat) : AtWorld where
  agent := ⟨[], 0, maintainMax, [], 0, .entm⟩
  reply := none
  rspSem := 0
  outside := fun _ => .idle
  locked := none
  receiver := .begin
  replyBuffer := fun _ => []
  replyLen := fun _ => 0
  origin := fun _ => none
  line := []
  completed := 0
  sends := 0

def setOutside (w : AtWorld) (c : Nat) (pc : OutsidePc) : AtWorld :=
  { w with outside := update w.outside c pc }

def inside (w : AtWorld) (c : Nat) : InsidePc → Option AtWorld
  | .setReply reply =>
    some { w with
      reply
      locked := some (c, match reply with
        | none => .send none
        | some r => .resetLen r) }
  | .resetLen r =>
    some { w with replyLen := update w.replyLen r 0, locked := some (c, .send (some r)) }
  | .send none => some { w with sends := w.sends + 1, locked := some (c, .clearReply true) }
  | .send (some r) =>
    some { w with sends := w.sends + 1, locked := some (c, .obtain r (w.sends + 1)) }
  | .obtain r call =>
    if 0 < w.rspSem then
      some { w with rspSem := w.rspSem - 1, locked := some (c, .clearReply true) }
    else some { w with locked := some (c, .waiting r call) }
  | .waiting _ _ => none
  | .clearReply ok => some { w with reply := none, locked := some (c, .unlock ok) }
  | .unlock ok => some ({ w with locked := none }.setOutside c (.entm ok))

def caller (w : AtWorld) (c : Nat) : Option AtWorld :=
  match w.outside c with
  | .idle => none
  | .clear reply =>
    let agent := { w.agent.clearMaintain with
      entmRecvBuf := List.replicate entmRecvMax 0, entmRecvLen := 0 }
    some ({ w with agent }.setOutside c (.lock reply))
  | .lock reply =>
    if w.locked = none then
      some ({ w with locked := some (c, .setReply reply) }.setOutside c .inside)
    else none
  | .inside =>
    match w.locked with
    | some (c', pc) => if c' = c then w.inside c pc else none
    | none => none
  | .entm _ => some ({ w with agent := { w.agent with receiveMode := .entm } }.setOutside c .idle)

def abandon (w : AtWorld) : AtWorld :=
  match w.locked with
  | some (c, .waiting _ _) => { w with locked := some (c, .clearReply true) }
  | _ => { w with rspSem := w.rspSem + 1 }

def store (w : AtWorld) (r : Nat) : AtWorld :=
  let text := w.agent.maintainBuffer.take w.agent.maintainLen
  { w with
    replyBuffer := update w.replyBuffer r (text ++ (w.replyBuffer r).drop text.length)
    replyLen := update w.replyLen r w.agent.maintainLen
    origin := update w.origin r (some (w.completed, w.line)) }

variable (replyMax : Option Nat → Nat)

def receive (w : AtWorld) : Option AtWorld :=
  match w.receiver with
  | .begin => some { w with
    agent := w.agent.clearMaintain, receiver := .reading ⟨0, 0, false⟩, line := [] }
  | .reading _ => none
  | .check => some { w with receiver := if w.reply = none then .begin else .load }
  | .load => some { w with receiver := .terminate w.reply }
  | .terminate reply =>
    -- for a length of 0 it is the byte in front of the line buffer that is written
    let agent := if w.agent.maintainLen = 0 then w.agent else w.agent.terminate
    some { w with agent, receiver := .copy reply }
  | .copy reply =>
    if w.agent.maintainLen < replyMax reply then
      some { reply.elim w w.store with receiver := .clear }
    else some { w with receiver := .clear }
  | .clear => some { w with reply := none, receiver := .post }
  | .post => some { w.abandon with receiver := .begin }

def char (w : AtWorld) (ch : UInt8) : Option AtWorld :=
  match w.receiver with
  | .reading l =>
    let line := if w.agent.receiveMode = .at then w.line ++ [ch] else w.line
    match w.agent.receiveChar l ch with
    | (agent, l, _, none) => some { w with agent, line, receiver := .reading l }
    | (agent, _, _, some ret) => some { w with
      agent, line, completed := w.sends, receiver := if ret > 0 then .check else .begin }
  | _ => none

def step (w : AtWorld) : AtOp → Option AtWorld
  | .call c reply =>
    if w.outside c = .idle then
      some ({ w with agent := { w.agent with receiveMode := .at } }.setOutside c (.clear reply))
    else none
  | .caller c => w.caller c
  | .expire =>
    match w.locked with
    | some (c, .waiting _ _) => some { w with locked := some (c, .clearReply false) }
    | _ => none
  | .char ch => w.char ch
  | .receive => w.receive replyMax

def Filled (w : AtWorld) (r call : Nat) : Prop :=
  ∃ sent line, w.origin r = some (sent, line) ∧ call ≤ sent ∧
    (w.replyBuffer r).take (w.replyLen r) = line.dropLast ++ [0]

def granted (w : AtWorld) : AtOp → Option (Nat × Nat)
  | .caller c =>
    match w.outside c, w.locked with
    | .inside, some (c', .obtain r call) => if c' = c ∧ 0 < w.rspSem then some (r, call) else none
    | _, _ => none
  | .receive =>
    match w.receiver, w.locked with
    | .post, some (_, .waiting r call) => some (r, call)
    | _, _ => none
  | _ => none

def Fresh (w : AtWorld) (op : AtOp) (w' : AtWorld) : Prop :=
  ∀ r call, w.granted op = some (r, call) → w'.Filled r call

/-- A caller clears the line buffer between two lines, a command with a reply object is sent when
no token is left and no complete line is being handled, and a line fits into the reply object. -/
def Orderly (w : AtWorld) : AtOp → Prop
  | .caller c =>
    match w.outside c, w.locked with
    | .clear _, _ => w.receiver.between
    | .inside, some (c', .send (some _)) => c' = c → w.rspSem = 0 ∧ w.receiver.reads
    | _, _ => True
  | .receive =>
    match w.receiver with
    | .copy (some r) => w.line.length < replyMax (some r)
    | _ => True
  | _ => True

instance decidableOrderly (w : AtWorld) : ∀ op, Decidable (w.Orderly replyMax op)
  | .call _ _ | .expire | .char _ => isTrue trivial
  | .caller c => by rw [Orderly]; split <;> infer_instance
  | .receive => by rw [Orderly]; split <;> infer_instance

structure Stored (agent : AtAgent) (l : Reading) (line : List UInt8) : Prop where
  len : agent.maintainLen = l.readLen
  room : agent.maintainBuffer.length = agent.maintainMax
  le : l.readLen ≤ agent.maintainMax
  bytes : l.isFull = false → agent.maintainBuffer.take l.readLen = line

structure Whole (agent : AtAgent) (line text : List UInt8) : Prop where
  ne : line ≠ []
  len : agent.maintainLen = line.length
  bytes : agent.maintainBuffer.take agent.maintainLen = text

section
variable {agent : AtAgent} {l : Reading} {line : List UInt8} {ch : UInt8}

lemma stored_clearMaintain (agent : AtAgent) (lastCh : UInt8) (isFull : Bool) :
    Stored agent.clearMaintain ⟨0, lastCh, isFull⟩ [] :=
  ⟨rfl, by simp [AtAgent.clearMaintain], Nat.zero_le _, fun _ => rfl⟩

lemma Stored.storeAt (h : Stored agent l line) (ch : UInt8) :
    Stored (agent.storeAt l ch).1 (agent.storeAt l ch).2 (line ++ [ch]) := by
  rw [AtAgent.storeAt]
  split
  · rename_i hlt
    refine ⟨rfl, by simp [h.room], hlt, fun hfull => ?_⟩
    have hget : (agent.maintainBuffer.set l.readLen ch)[l.readLen]? = some ch :=
      List.getElem?_set_self (by rw [h.room]; exact hlt)
    simp only [List.take_add_one, hget, List.take_set_of_le (Nat.le_refl _), h.bytes hfull,
      toList_some]
  · exact ⟨h.len, h.room, h.le, by simp⟩

variable {agent' : AtAgent} {l' : Reading} {ret : Option Int} {notice : Bool}

lemma Stored.endAt (h : Stored agent l line) (hend : agent.endAt l ch = (agent', l', ret)) :
    (ret = none → Stored agent' l' line) ∧
      ∀ n, ret = some n → n > 0 → Whole agent' line line := by
  rw [AtAgent.endAt] at hend
  split_ifs at hend with hlf hfull <;> cases hend
  · exact ⟨by simp, fun n hn hpos => by cases hn; omega⟩
  · refine ⟨by simp, fun n hn hpos => ?_⟩
    have hbytes := h.bytes (eq_false_of_ne_true hfull)
    have hlen := congrArg List.length hbytes
    rw [List.length_take, h.room, Nat.min_eq_left h.le] at hlen
    refine ⟨?_, h.len.trans hlen, by rw [h.len, hbytes]⟩
    rintro rfl
    rw [← Option.some.inj hn, intOf, hlen] at hpos
    simp at hpos
  · exact ⟨fun _ => ⟨h.len, h.room, h.le, h.bytes⟩, by simp⟩

lemma Stored.receiveChar (h : Stored agent l line)
    (hchar : agent.receiveChar l ch = (agent', l', notice, ret)) :
    (ret = none → Stored agent' l' (if agent.receiveMode = .at then line ++ [ch] else line)) ∧
      ∀ n, ret = some n → n > 0 →
        Whole agent' (if agent.receiveMode = .at then line ++ [ch] else line)
          (if agent.receiveMode = .at then line ++ [ch] else line) := by
  rw [AtAgent.receiveChar] at hchar
  split at hchar
  · rename_i hmode
    rw [hmode, if_neg (by decide)]
    simp only [AtAgent.receiveEntm] at hchar
    split_ifs at hchar <;> cases hchar
    · exact ⟨fun _ => ⟨h.len, h.room, h.le, h.bytes⟩, by simp⟩
    · exact ⟨fun _ => h, by simp⟩
  · rename_i hmode
    rw [hmode, if_pos rfl]
    have hend : (agent.storeAt l ch).1.endAt (agent.storeAt l ch).2 ch = (agent', l', ret) := by
      simp only [Prod.mk.injEq] at hchar ⊢
      grind
    exact (h.storeAt ch).endAt hend

lemma Whole.terminate (h : Whole agent line line) :
    Whole agent.terminate line (line.dropLast ++ [0]) := by
  refine ⟨h.ne, h.len, ?_⟩
  have hpos := List.length_pos_iff.mpr h.ne
  obtain ⟨init, last, hline⟩ := (List.eq_nil_or_concat line).resolve_left h.ne
  have hbytes := h.bytes
  rw [AtAgent.terminate, List.take_set, hbytes, h.len, hline]
  simp

end

/-- The line buffer holds what was received of the line. -/
def LineKept (w : AtWorld) : Prop :=
  match w.receiver with
  | .reading l => Stored w.agent l w.line
  | .check | .load | .terminate _ => Whole w.agent w.line w.line
  | .copy _ => Whole w.agent w.line (w.line.dropLast ++ [0])
  | _ => True

def held (w : AtWorld) : Option Nat :=
  match w.locked with
  | some (_, .resetLen r) => some r
  | some (_, .send reply) => reply
  | some (_, .obtain r _) => some r
  | some (_, .waiting r _) => some r
  | _ => none

def sent (w : AtWorld) : Option (Nat × Nat) :=
  match w.locked with
  | some (_, .obtain r call) => some (r, call)
  | some (_, .waiting r call) => some (r, call)
  | _ => none

/-- A token is there only for a line that has been stored for the call. -/
def TokenKept (w : AtWorld) (r call : Nat) : Prop :=
  match w.receiver with
  | .begin | .reading _ => w.rspSem = 0 ∨ w.Filled r call ∧ w.reply = none
  | .check => w.rspSem = 0 ∧ call ≤ w.completed ∨ w.Filled r call ∧ w.reply = none
  | .load => w.rspSem = 0 ∧ call ≤ w.completed ∧ w.reply = some r
  | .terminate reply | .copy reply => w.rspSem = 0 ∧ call ≤ w.completed ∧ reply = some r
  | .clear => w.rspSem = 0 ∧ w.Filled r call
  | .post => w.rspSem = 0 ∧ w.Filled r call ∧ w.reply = none

structure Inv (w : AtWorld) : Prop where
  line : w.LineKept
  reply : ∀ r, w.held = some r → w.reply = none ∨ w.reply = some r
  call : ∀ r call, w.sent = some (r, call) → call ≤ w.sends
  token : ∀ r call, w.sent = some (r, call) → w.TokenKept r call

section
variable {replyMax} {w w' : AtWorld} {op : AtOp}

lemma init_inv : (init maintainMax).Inv :=
  ⟨trivial, by simp [init, held], by simp [init, sent], by simp [init, sent]⟩

lemma held_of_sent {r call : Nat} (hs : w.sent = some (r, call)) : w.held = some r := by
  rw [sent] at hs
  rw [held]
  split at hs <;> cases hs
  all_goals
    rename_i hlocked
    rw [hlocked]

lemma of_held (hheld : w.held = none) (hline : w.LineKept) : w.Inv := by
  have hsent : ∀ r call, w.sent ≠ some (r, call) := fun r call hs => by
    rw [held_of_sent hs] at hheld
    cases hheld
  exact ⟨hline, by simp [hheld], fun r call hs => absurd hs (hsent r call),
    fun r call hs => absurd hs (hsent r call)⟩

lemma tokenKept_of_reads {r call : Nat} (hsem : w.rspSem = 0) (hreads : w.receiver.reads) :
    w.TokenKept r call := by
  rw [TokenKept]
  cases hpc : w.receiver with
  | begin => exact .inl hsem
  | reading l => exact .inl hsem
  | _ => simp [hpc, ReceivePc.reads] at hreads

variable (h : w.Inv)
include h

lemma Inv.of_agent {agent : AtAgent} {outside : Nat → OutsidePc}
    (hline : LineKept { w with agent, outside }) : Inv { w with agent, outside } :=
  ⟨hline, h.reply, h.call, h.token⟩

/-- Only the line buffer matters to the receive task. -/
lemma Inv.frame (receiveMode : ReceiveMode) (outside : Nat → OutsidePc) :
    Inv { w with agent := { w.agent with receiveMode }, outside } := by
  refine h.of_agent ?_
  have hline := h.line
  rw [LineKept] at hline ⊢
  dsimp only
  split at hline
  · exact ⟨hline.len, hline.room, hline.le, hline.bytes⟩
  · exact ⟨hline.ne, hline.len, hline.bytes⟩
  · exact ⟨hline.ne, hline.len, hline.bytes⟩
  · exact ⟨hline.ne, hline.len, hline.bytes⟩
  · exact ⟨hline.ne, hline.len, hline.bytes⟩
  · trivial

lemma Inv.clearMaintain {entmRecvBuf : List UInt8} {entmRecvLen : Nat}
    (outside : Nat → OutsidePc) (hbetween : w.receiver.between) :
    Inv { w with agent := { w.agent.clearMaintain with entmRecvBuf, entmRecvLen }, outside } := by
  refine h.of_agent ?_
  have hline := h.line
  rw [LineKept] at hline ⊢
  cases hpc : w.receiver with
  | begin => trivial
  | reading l =>
    simp only [hpc, ReceivePc.between, decide_eq_true_eq] at hline hbetween ⊢
    obtain ⟨hlen, hroom, hle, -⟩ := stored_clearMaintain w.agent l.lastCh l.isFull
    refine ⟨hbetween.symm, hroom, by rw [hbetween]; exact hle, fun hfull => ?_⟩
    rw [← hline.bytes hfull, hbetween]
    rfl
  | _ => simp [hpc, ReceivePc.between] at hbetween

attribute [grind =] sent held Filled TokenKept ReceivePc.reads

lemma Inv.char {ch : UInt8} (hstep : w.char ch = some w') : w'.Inv := by
  rw [AtWorld.char] at hstep
  split at hstep
  · rename_i l hreading
    have hline := h.line
    simp only [LineKept, hreading] at hline
    cases hround : w.agent.receiveChar l ch with
    | mk agent round =>
      obtain ⟨l', notice, ret⟩ := round
      obtain ⟨hnone, hsome⟩ := hline.receiveChar hround
      rw [hround] at hstep
      obtain ⟨-, hr, hc, ht⟩ := h
      cases ret with
      | none =>
        cases hstep
        refine ⟨hnone rfl, hr, hc, ?_⟩
        grind
      | some ret =>
        cases hstep
        by_cases hret : ret > 0
        · rw [if_pos hret]
          refine ⟨hsome ret rfl hret, hr, hc, ?_⟩
          grind
        · rw [if_neg hret]
          refine ⟨trivial, hr, hc, ?_⟩
          grind
  · simp at hstep

lemma Inv.copy {reply : Option Nat} (hcopy : w.receiver = .copy reply)
    (hfits : ∀ r, reply = some r → w.line.length < replyMax reply)
    (hstep : w.receive replyMax = some w') : w'.Inv := by
  obtain ⟨hl, hr, hc, ht⟩ := h
  rw [receive, hcopy] at hstep
  simp only [LineKept, hcopy] at hl
  have hlen := hl.len
  have hbytes := hl.bytes
  simp only at hstep
  split at hstep
  · cases hstep
    cases reply with
    | none => exact ⟨trivial, hr, hc, by grind⟩
    | some r =>
      refine ⟨trivial, hr, hc, fun r' call hs => ?_⟩
      have hold := ht r' call hs
      simp only [TokenKept, hcopy] at hold
      obtain ⟨hsem, hle, heq⟩ := hold
      cases heq
      refine ⟨hsem, w.completed, w.line, by simp [store], hle, ?_⟩
      have htext : (w.line.dropLast ++ [0]).length = w.agent.maintainLen := by
        have hpos := List.length_pos_iff.mpr hl.ne
        rw [List.length_append, List.length_dropLast, hlen]
        exact Nat.sub_add_cancel hpos
      simp only [store, elim_some, update_self, hbytes]
      exact List.take_left' htext
  · cases hstep
    refine ⟨trivial, hr, hc, ?_⟩
    grind

omit h in
lemma abandon_cases (w : AtWorld) :
    (∃ c r call, w.locked = some (c, .waiting r call) ∧
      w.abandon = { w with locked := some (c, .clearReply true) }) ∨
    (∀ c r call, w.locked ≠ some (c, .waiting r call)) ∧
      w.abandon = { w with rspSem := w.rspSem + 1 } := by
  rw [abandon]
  split
  · rename_i c r call hwait
    exact .inl ⟨c, r, call, hwait, rfl⟩
  · rename_i hwait
    exact .inr ⟨hwait, rfl⟩

lemma Inv.post (hpost : w.receiver = .post) : Inv { w.abandon with receiver := .begin } := by
  obtain ⟨-, hr, hc, ht⟩ := h
  obtain ⟨c, r, call, -, heq⟩ | ⟨hwait, heq⟩ := abandon_cases w
  · rw [heq]
    exact of_held rfl trivial
  · rw [heq]
    refine ⟨trivial, hr, hc, ?_⟩
    grind

lemma Inv.receive (horderly : w.Orderly replyMax .receive)
    (hstep : w.receive replyMax = some w') : w'.Inv := by
  have ⟨hl, hr, hc, ht⟩ := h
  have hstep' := hstep
  rw [LineKept] at hl
  rw [AtWorld.receive] at hstep
  split at hstep
  case h_1 =>
    cases hstep
    exact ⟨stored_clearMaintain .., hr, hc, by grind⟩
  case h_2 => cases hstep
  case h_3 hpc =>
    cases hstep
    rw [hpc] at hl
    by_cases hreply : w.reply = none
    · rw [if_pos hreply]
      exact ⟨trivial, hr, hc, by grind⟩
    · rw [if_neg hreply]
      refine ⟨hl, hr, hc, fun r call hs => ?_⟩
      have hheld := hr r (held_of_sent hs)
      have htoken := ht r call hs
      grind
  case h_4 hpc =>
    cases hstep
    rw [hpc] at hl
    exact ⟨hl, hr, hc, by grind⟩
  case h_5 reply hpc =>
    rw [hpc] at hl
    have hlen : w.agent.maintainLen ≠ 0 := by
      rw [hl.len]
      exact fun h0 => hl.ne (List.length_eq_zero_iff.mp h0)
    rw [if_neg hlen] at hstep
    cases hstep
    exact ⟨hl.terminate, hr, hc, by grind⟩
  case h_6 reply hpc =>
    refine h.copy hpc (fun r hr => ?_) hstep'
    subst hr
    simpa [Orderly, hpc] using horderly
  case h_7 =>
    cases hstep
    exact ⟨trivial, fun _ _ => .inl rfl, hc, by grind⟩
  case h_8 hpc =>
    cases hstep
    exact h.post hpc

lemma Inv.inside {c : Nat} {pc : InsidePc} (hlocked : w.locked = some (c, pc))
    (hsend : ∀ r, pc = .send (some r) → w.rspSem = 0 ∧ w.receiver.reads)
    (hstep : w.inside c pc = some w') : w'.Inv := by
  obtain ⟨hl, hr, hc, ht⟩ := h
  cases pc with
  | setReply reply =>
    cases hstep
    cases reply with
    | none => exact of_held rfl hl
    | some r => exact ⟨hl, by grind, by grind, by grind⟩
  | resetLen r =>
    cases hstep
    exact ⟨hl, by grind, by grind, by grind⟩
  | send reply =>
    cases reply with
    | none =>
      cases hstep
      exact of_held rfl hl
    | some r =>
      obtain ⟨hsem, hreads⟩ := hsend r rfl
      cases hstep
      exact ⟨hl, by grind, by grind, fun r' call _ => tokenKept_of_reads hsem hreads⟩
  | obtain r call =>
    simp only [AtWorld.inside] at hstep
    split at hstep
    · cases hstep
      exact of_held rfl hl
    · cases hstep
      exact ⟨hl, by grind, by grind, by grind⟩
  | waiting r call => cases hstep
  | clearReply ok =>
    cases hstep
    exact of_held rfl hl
  | unlock ok =>
    cases hstep
    exact of_held rfl hl

lemma Inv.caller {c : Nat} (horderly : w.Orderly replyMax (.caller c))
    (hstep : w.caller c = some w') : w'.Inv := by
  rw [AtWorld.caller] at hstep
  split at hstep
  · simp at hstep
  · rename_i reply hclear
    cases hstep
    rw [Orderly, hclear] at horderly
    exact h.clearMaintain _ horderly
  · split at hstep
    · cases hstep
      exact of_held rfl h.line
    · simp at hstep
  · rename_i hinside
    split at hstep
    · rename_i c' pc hlocked
      split at hstep
      · rename_i hc
        subst hc
        refine h.inside hlocked (fun r hpc => ?_) hstep
        subst hpc
        simpa [Orderly, hinside, hlocked] using horderly
      · simp at hstep
    · simp at hstep
  · cases hstep
    exact h.frame _ _

lemma Inv.step (horderly : w.Orderly replyMax op) (hstep : w.step replyMax op = some w') :
    w'.Inv := by
  cases op with
  | call c reply =>
    obtain ⟨-, heq⟩ := ite_none_right_eq_some.mp hstep
    cases heq
    exact h.frame _ _
  | caller c => exact h.caller horderly hstep
  | expire =>
    rw [AtWorld.step] at hstep
    split at hstep
    · cases hstep
      exact of_held rfl h.line
    · simp at hstep
  | char ch => exact h.char hstep
  | receive => exact h.receive horderly hstep

omit h in
lemma granted_caller {c r call : Nat} (hg : w.granted (.caller c) = some (r, call)) :
    w.outside c = .inside ∧ w.locked = some (c, .obtain r call) ∧ 0 < w.rspSem := by
  simp only [granted] at hg
  split at hg
  · rename_i c' r' call' hout hlocked
    obtain ⟨⟨rfl, hsem⟩, heq⟩ := ite_none_right_eq_some.mp hg
    cases heq
    exact ⟨hout, hlocked, hsem⟩
  · simp at hg

omit h in
lemma granted_receive {r call : Nat} (hg : w.granted .receive = some (r, call)) :
    w.receiver = .post ∧ ∃ c, w.locked = some (c, .waiting r call) := by
  simp only [granted] at hg
  split at hg
  · rename_i c r' call' hpost hlocked
    cases hg
    exact ⟨hpost, c, hlocked⟩
  · simp at hg

lemma Inv.fresh (hstep : w.step replyMax op = some w') : w.Fresh op w' := by
  intro r call hg
  cases op with
  | call c reply => simp [granted] at hg
  | expire => simp [granted] at hg
  | char ch => simp [granted] at hg
  | caller c =>
    obtain ⟨hout, hlocked, hsem⟩ := granted_caller hg
    have htoken := h.token r call (by simp [sent, hlocked])
    have hne : w.rspSem ≠ 0 := UInt16.pos_iff_ne_zero.mp hsem
    simp only [AtWorld.step, AtWorld.caller, hout, hlocked, AtWorld.inside, hsem, if_true,
      Option.some.injEq] at hstep
    subst hstep
    grind
  | receive =>
    obtain ⟨hpost, c, hlocked⟩ := granted_receive hg
    have htoken := h.token r call (by simp [sent, hlocked])
    simp only [AtWorld.step, AtWorld.receive, hpost, abandon, hlocked, Option.some.injEq] at hstep
    subst hstep
    grind

end

def sampleAtOps : List AtOp :=
  [.call 0 (some 0), .caller 0, .caller 0, .caller 0, .receive, .caller 0, .caller 0, .caller 0,
    .char 79, .char 75, .char 13, .char 10, .receive, .receive, .receive, .receive, .receive,
    .receive, .caller 0, .caller 0]

end AtWorld
end Xiuos.Framework
