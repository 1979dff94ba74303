import Mathlib.Algebra.Group.Int.Defs
import Mathlib.Algebra.Group.Nat.Defs
import Xiuos.Lib.Frame

/-! `GetCompleteATReply` of `xs_adapter_at_agent.c`. -/

namespace Xiuos.Framework
open Lib List

inductive ReceiveMode
  | entm
  | at
  deriving DecidableEq

def entmRecvMax : Nat := 256

structure AtAgent where
  maintainBuffer : List UInt8
  maintainLen : Nat
  maintainMax : Nat
  entmRecvBuf : List UInt8
  entmRecvLen : Nat
  receiveMode : ReceiveMode
  deriving DecidableEq

structure Reading where
  readLen : Nat
  lastCh : UInt8
  isFull : Bool
  deriving DecidableEq

def cr : UInt8 := 13

def lf : UInt8 := 10

def bang : UInt8 := 33

def at64 : UInt8 := 64

def intOf (n : Nat) : Int := if n < 2 ^ 31 then n else n - 2 ^ 32

namespace AtAgent

def clearMaintain (agent : AtAgent) : AtAgent :=
  { agent with maintainBuffer := List.replicate agent.maintainMax 0, maintainLen := 0 }

def terminate (agent : AtAgent) : AtAgent :=
  { agent with maintainBuffer := agent.maintainBuffer.set (agent.maintainLen - 1) 0 }

def receiveEntm (agent : AtAgent) (l : Reading) (ch : UInt8) : AtAgent × Reading × Bool :=
  if agent.entmRecvLen < entmRecvMax then
    ({ agent with
        entmRecvBuf := agent.entmRecvBuf.set agent.entmRecvLen ch
        entmRecvLen := agent.entmRecvLen + 1 },
      { l with lastCh := ch }, l.lastCh = bang ∧ ch = at64)
  else (agent, l, false)

def storeAt (agent : AtAgent) (l : Reading) (ch : UInt8) : AtAgent × Reading :=
  if l.readLen < agent.maintainMax then
    ({ agent with
        maintainBuffer := agent.maintainBuffer.set l.readLen ch, maintainLen := l.readLen + 1 },
      { l with readLen := l.readLen + 1 })
  else (agent, { l with isFull := true })

def endAt (agent : AtAgent) (l : Reading) (ch : UInt8) : AtAgent × Reading × Option Int :=
  if ch = lf ∧ l.lastCh = cr then
    if l.isFull then (agent.clearMaintain, l, some (-1)) else (agent, l, some (intOf l.readLen))
  else (agent, { l with lastCh := ch }, none)

def receiveChar (agent : AtAgent) (l : Reading) (ch : UInt8) :
    AtAgent × Reading × Bool × Option Int :=
  match agent.receiveMode with
  | .entm =>
    let (agent, l, notice) := agent.receiveEntm l ch
    (agent, l, notice, none)
  | .at =>
    let (agent, l) := agent.storeAt l ch
    let (agent, l, ret) := agent.endAt l ch
    (agent, l, false, ret)

def receiveLoop : AtAgent → Reading → List UInt8 → Option (AtAgent × Int × List UInt8)
  | _, _, [] => none
  | agent, l, ch :: stream =>
    match agent.receiveChar l ch with
    | (agent, l, _, none) => receiveLoop agent l stream
    | (agent, _, _, some ret) => some (agent, ret, stream)

def getCompleteATReply (agent : AtAgent) (stream : List UInt8) :
    Option (AtAgent × Int × List UInt8) :=
  receiveLoop agent.clearMaintain ⟨0, 0, false⟩ stream

end AtAgent

structure Reply where
  ret : Int
  maintainLen : Nat
  maintainBuffer : List UInt8
  deriving DecidableEq

def replies (waiting : Nat → Bool) : Nat → AtAgent → List UInt8 → List Reply
  | 0, _, _ => []
  | n + 1, agent, stream =>
    match agent.getCompleteATReply stream with
    | none => []
    | some (agent, ret, stream) =>
      ⟨ret, agent.maintainLen, agent.maintainBuffer⟩ ::
        replies waiting n (if ret > 0 ∧ waiting n then agent.terminate else agent) stream

variable (max : Nat)

def lineReply (max : Nat) (line : List UInt8) : Reply :=
  if line.length ≤ max then
    ⟨intOf line.length, line.length, line ++ List.replicate (max - line.length) 0⟩
  else ⟨-1, 0, List.replicate max 0⟩

section
variable {agent : AtAgent} {p line stream : List UInt8} {ch : UInt8}

def filled (agent : AtAgent) (p : List UInt8) : AtAgent :=
  { agent with
    maintainBuffer := (p ++ List.replicate (agent.maintainMax - p.length) 0).take agent.maintainMax
    maintainLen := min p.length agent.maintainMax }

def reading (max : Nat) (p : List UInt8) : Reading :=
  ⟨min p.length max, p.getLast?.getD 0, decide (max < p.length)⟩

lemma filled_nil (agent : AtAgent) : filled agent [] = agent.clearMaintain := by
  simp [filled, AtAgent.clearMaintain]

lemma reading_nil : reading max [] = ⟨0, 0, false⟩ := by simp [reading]

lemma storeAt_filled (agent : AtAgent) (p : List UInt8) (ch : UInt8) :
    (filled agent p).storeAt (reading agent.maintainMax p) ch =
      (filled agent (p ++ [ch]),
        { reading agent.maintainMax (p ++ [ch]) with lastCh := p.getLast?.getD 0 }) := by
  rw [AtAgent.storeAt]
  by_cases hroom : p.length < agent.maintainMax
  · have hzeros : agent.maintainMax - p.length = agent.maintainMax - (p.length + 1) + 1 := by omega
    have hset : (p ++ replicate (agent.maintainMax - p.length) 0).set p.length ch =
        p ++ [ch] ++ replicate (agent.maintainMax - (p.length + 1)) 0 := by
      rw [hzeros, replicate_succ, set_append_right _ _ (Nat.le_refl _)]
      simp
    have htake : ∀ l : List UInt8, l.length = agent.maintainMax → l.take agent.maintainMax = l :=
      fun l hl => take_of_length_le (Nat.le_of_eq hl)
    simp only [reading, filled, Nat.min_eq_left hroom.le, hroom, if_true]
    rw [htake _ (by simp; omega), hset, htake _ (by simp; omega)]
    simp [Nat.min_eq_left (show p.length + 1 ≤ agent.maintainMax by omega)]
    omega
  · have hle : agent.maintainMax ≤ p.length := Nat.le_of_not_lt hroom
    simp only [reading, filled, Nat.min_eq_right hle, Nat.lt_irrefl, if_false]
    simp [Nat.min_eq_right (show agent.maintainMax ≤ p.length + 1 by omega),
      Nat.sub_eq_zero_of_le hle, take_append_of_le_length hle,
      Nat.sub_eq_zero_of_le (show agent.maintainMax ≤ p.length + 1 by omega)]
    omega

variable (hmode : agent.receiveMode = .at)
include hmode

lemma receiveChar_filled (hnot : ¬ (p.getLast? = some cr ∧ ch = lf)) :
    (filled agent p).receiveChar (reading agent.maintainMax p) ch =
      (filled agent (p ++ [ch]), reading agent.maintainMax (p ++ [ch]), false, none) := by
  have hcond : ¬ (ch = lf ∧ p.getLast?.getD 0 = cr) := by
    rintro ⟨hch, hlast⟩
    refine hnot ⟨?_, hch⟩
    cases hp : p.getLast? with
    | none => simp [hp, cr] at hlast
    | some c => simpa [hp] using hlast
  have hmode' : (filled agent p).receiveMode = .at := hmode
  simp only [AtAgent.receiveChar, hmode', storeAt_filled, AtAgent.endAt]
  simp only [hcond, if_false]
  simp [reading]

lemma receiveChar_end (hlast : p.getLast? = some cr) :
    ∃ agent' l, (filled agent p).receiveChar (reading agent.maintainMax p) lf =
        (agent', l, false, some (lineReply agent.maintainMax (p ++ [lf])).ret) ∧
      agent'.maintainLen = (lineReply agent.maintainMax (p ++ [lf])).maintainLen ∧
      agent'.maintainBuffer = (lineReply agent.maintainMax (p ++ [lf])).maintainBuffer ∧
      agent'.maintainMax = agent.maintainMax ∧ agent'.receiveMode = agent.receiveMode := by
  have hmode' : (filled agent p).receiveMode = .at := hmode
  simp only [AtAgent.receiveChar, hmode', storeAt_filled, AtAgent.endAt]
  simp only [hlast, Option.getD_some, and_self, if_true]
  by_cases hlong : agent.maintainMax < (p ++ [lf]).length
  · refine ⟨(filled agent (p ++ [lf])).clearMaintain,
      { reading agent.maintainMax (p ++ [lf]) with lastCh := cr }, ?_, ?_⟩
    · simp only [reading, hlong, decide_true, if_true, lineReply, Nat.not_le.mpr hlong, if_false]
    · simp only [lineReply, Nat.not_le.mpr hlong, if_false]
      exact ⟨rfl, rfl, rfl, hmode ▸ rfl⟩
  · have hle := Nat.le_of_not_lt hlong
    refine ⟨filled agent (p ++ [lf]),
      { reading agent.maintainMax (p ++ [lf]) with lastCh := cr }, ?_, ?_⟩
    · simp only [reading, hlong, decide_false, Bool.false_eq_true, if_false, lineReply, hle,
        if_true, Nat.min_eq_left]
    · simp only [lineReply, hle, if_true, filled, Nat.min_eq_left, true_and, and_true]
      refine take_of_length_le ?_
      simp only [length_append, length_replicate] at hle ⊢
      omega

lemma receiveLoop_open (h : Open cr lf (p ++ stream)) :
    (filled agent p).receiveLoop (reading agent.maintainMax p) stream = none := by
  induction stream generalizing p with
  | nil => rfl
  | cons ch stream ih =>
    have happ : p ++ ch :: stream = p ++ [ch] ++ stream := by simp
    rw [happ] at h
    have hopen : Open cr lf (p ++ [ch]) := fun hpair =>
      h (hpair.trans (prefix_append _ _).isInfix)
    rw [AtAgent.receiveLoop, receiveChar_filled hmode (open_concat.mp hopen).2]
    exact ih h

lemma receiveLoop_ended (h : Ended cr lf (p ++ line)) (hline : line ≠ []) (rest : List UInt8) :
    ∃ agent', (filled agent p).receiveLoop (reading agent.maintainMax p) (line ++ rest) =
        some (agent', (lineReply agent.maintainMax (p ++ line)).ret, rest) ∧
      agent'.maintainLen = (lineReply agent.maintainMax (p ++ line)).maintainLen ∧
      agent'.maintainBuffer = (lineReply agent.maintainMax (p ++ line)).maintainBuffer ∧
      agent'.maintainMax = agent.maintainMax ∧ agent'.receiveMode = agent.receiveMode := by
  induction line generalizing p with
  | nil => exact absurd rfl hline
  | cons ch line ih =>
    have happ : p ++ ch :: line = p ++ [ch] ++ line := by simp
    obtain ⟨q, hq, hopen, hlast⟩ := h
    by_cases hnil : line = []
    · subst hnil
      obtain ⟨rfl, hch⟩ := append_inj' (hq : p ++ [ch] = q ++ [lf]) rfl
      rw [singleton_inj.mp hch]
      obtain ⟨agent', l, hend, hrest⟩ := receiveChar_end hmode hlast
      refine ⟨agent', ?_, hrest⟩
      rw [singleton_append, AtAgent.receiveLoop, hend]
    · have hpre : p ++ [ch] <+: q := by
        have hlen := congrArg List.length hq
        have hpos := length_pos_iff.mpr hnil
        simp only [length_append, length_cons, length_nil] at hlen
        have hfull : p ++ [ch] <+: q ++ [lf] := by
          rw [← hq, happ]
          exact prefix_append _ _
        refine prefix_of_prefix_length_le hfull (prefix_append _ _) ?_
        · simp only [length_append, length_cons, length_nil]
          omega
      have hnext : Open cr lf (p ++ [ch]) := fun hpair => hopen (hpair.trans hpre.isInfix)
      rw [happ] at hq
      obtain ⟨agent', hloop, hrest⟩ := ih ⟨q, hq, hopen, hlast⟩ hnil
      rw [← happ] at hloop hrest
      refine ⟨agent', ?_, hrest⟩
      rw [cons_append, AtAgent.receiveLoop, receiveChar_filled hmode (open_concat.mp hnext).2]
      exact hloop

end

theorem replies_eq_lines (agent : AtAgent) (hmode : agent.receiveMode = .at)
    (waiting : Nat → Bool) (stream : List UInt8) (n : Nat) :
    ∃ (lines : List (List UInt8)) (rest : List UInt8), stream = lines.flatten ++ rest ∧
      (∀ line ∈ lines, Ended cr lf line) ∧ Open cr lf rest ∧
      replies waiting n agent stream = (lines.take n).map (lineReply agent.maintainMax) := by
  obtain ⟨lines, rest, rfl, hlines, hrest⟩ := exists_frames cr lf stream
  refine ⟨lines, rest, rfl, hlines, hrest, ?_⟩
  induction lines generalizing agent n with
  | nil =>
    cases n with
    | zero => rfl
    | succ n =>
      have hnone : agent.getCompleteATReply rest = none := by
        rw [AtAgent.getCompleteATReply, ← filled_nil, ← reading_nil agent.maintainMax]
        exact receiveLoop_open hmode hrest
      simp [replies, hnone]
  | cons line lines ih =>
    cases n with
    | zero => rfl
    | succ n =>
      have hended := hlines line mem_cons_self
      have hne : line ≠ [] := by
        obtain ⟨p, rfl, -⟩ := hended
        simp
      obtain ⟨agent', hloop, hlen, hbuf, hmax, hmode'⟩ :=
        receiveLoop_ended (p := []) hmode hended hne (lines.flatten ++ rest)
      have hcall : agent.getCompleteATReply (line ++ (lines.flatten ++ rest)) =
          some (agent', (lineReply agent.maintainMax line).ret, lines.flatten ++ rest) := by
        rw [AtAgent.getCompleteATReply, ← filled_nil, ← reading_nil agent.maintainMax]
        exact hloop
      rw [flatten_cons, append_assoc, replies, hcall]
      simp only [take_succ_cons, map_cons, hlen, hbuf]
      congr 1
      have hlines' : ∀ l ∈ lines, Ended cr lf l := fun l hl =>
        hlines l (mem_cons_of_mem line hl)
      split
      · rw [ih agent'.terminate (hmode'.trans hmode) n hlines', ← hmax]
        rfl
      · rw [ih agent' (hmode'.trans hmode) n hlines', hmax]

theorem replies_eq_lines_sample :
    ∃ (lines : List (List UInt8)) (rest : List UInt8),
      [65, 66, 13, 10, 65, 66, 67, 13, 10, 67, 13, 10, 68] = lines.flatten ++ rest ∧
      (∀ line ∈ lines, Ended cr lf line) ∧ Open cr lf rest ∧
      replies (fun _ => true) 3 ⟨[], 0, 4, [], 0, .at⟩
        [65, 66, 13, 10, 65, 66, 67, 13, 10, 67, 13, 10, 68] = (lines.take 3).map (lineReply 4) :=
  replies_eq_lines ⟨[], 0, 4, [], 0, .at⟩ rfl (fun _ => true) _ 3

end Xiuos.Framework
