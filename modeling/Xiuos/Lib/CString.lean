import Mathlib.Data.List.TakeWhile

namespace Xiuos.Lib
open List

@[ext]
structure CString where
  val : List UInt8
  nul : (0 : UInt8) ∉ val
  deriving DecidableEq

variable (buf : List UInt8) (i : Nat)

namespace CString

def length (s : CString) : Nat := s.val.length

def byte (s : CString) (i : Nat) : UInt8 := s.val.getD i 0

def ofBuffer (buf : List UInt8) (i : Nat) : CString :=
  ⟨(buf.drop i).takeWhile (· ≠ 0), fun h => by simpa using mem_takeWhile_imp h⟩

def append (s s' : CString) : CString :=
  ⟨s.val ++ s'.val, by simp [s.nul, s'.nul]⟩

def single (c : UInt8) (h : c ≠ 0) : CString := ⟨[c], by simpa using h.symm⟩

def strcat (cap : Nat) (dst src : CString) : Option CString :=
  if dst.length + src.length < cap then some (dst.append src) else none

lemma ofBuffer_val : (ofBuffer buf i).val = (buf.drop i).takeWhile (· ≠ 0) := rfl

lemma ofBuffer_append {l w : List UInt8} (hw : (0 : UInt8) ∉ w) (l' : List UInt8) :
    (ofBuffer (l ++ (w ++ 0 :: l')) l.length).val = w := by
  rw [ofBuffer_val, drop_left]
  induction w with
  | nil => simp
  | cons c w ih =>
    rw [mem_cons, not_or] at hw
    simpa [Ne.symm hw.1] using ih hw.2

def strncmpEq : Nat → List UInt8 → List UInt8 → Bool
  | 0, _, _ => true
  | n + 1, s, s' =>
    if s.headD 0 ≠ s'.headD 0 then false
    else if s.headD 0 = 0 then true
    else strncmpEq n s.tail s'.tail

lemma strncmpEq_iff {s s' : List UInt8} (hs : (0 : UInt8) ∉ s) (hs' : (0 : UInt8) ∉ s')
    (n : Nat) : strncmpEq n s s' = true ↔ s.take n = s'.take n := by
  induction n generalizing s s' with
  | zero => simp [strncmpEq]
  | succ n ih =>
    cases s with
    | nil =>
      cases s' with
      | nil => simp [strncmpEq]
      | cons c s' =>
        have hc : (0 : UInt8) ≠ c := fun h => hs' (by simp [h])
        simp [strncmpEq, hc]
    | cons c s =>
      have hc : c ≠ 0 := fun h => hs (by simp [h])
      cases s' with
      | nil => simp [strncmpEq, hc]
      | cons c' s' =>
        have ih' := ih (fun h => hs (mem_cons_of_mem c h))
          (fun h => hs' (mem_cons_of_mem c' h))
        by_cases hcc : c = c'
        · simp only [strncmpEq, hcc, headD_cons, tail_cons, take_succ_cons] at hc ⊢
          simp [hc, ih']
        · simp [strncmpEq, hcc]

end CString

def memset (buf : List UInt8) (i n : Nat) : List UInt8 :=
  buf.take i ++ List.replicate n 0 ++ buf.drop (i + n)

lemma memset_append (l w l' : List UInt8) :
    memset (l ++ (w ++ l')) l.length w.length = l ++ (replicate w.length 0 ++ l') := by
  have hdrop : (l ++ (w ++ l')).drop (l.length + w.length) = l' := by
    rw [← append_assoc, ← length_append, drop_left]
  rw [memset, take_left, hdrop, append_assoc]

end Xiuos.Lib
