import Xiuos.Lib.CString
import Xiuos.Lib.Words
import Xiuos.Lib.Fuel

/-! `GetAbsolutePath` of `iot-vfs.c`. -/

namespace Xiuos.Fs
open Lib

def slash : UInt8 := 47

lemma slash_ne_zero : slash ≠ 0 := by decide

def dot : UInt8 := 46

def joinPath (workingDir path : CString) : CString :=
  if path.byte 0 = slash then path
  else (workingDir.append (.single slash slash_ne_zero)).append path

def pathLen (workingDir path : CString) : Nat := (joinPath workingDir path).length + 1

def splitPath (workingDir path : CString) : List UInt8 :=
  ((joinPath workingDir path).val ++ [0]).map fun c => if c = slash then 0 else c

/-- `while (prev >= tmp && *prev == '\0') prev--;` from the byte before `curr`. -/
def prevByte (tmp : List UInt8) : Nat → Option Nat
  | 0 => none
  | prev + 1 => if tmp.getD prev 0 = 0 then prevByte tmp prev else some prev

/-- `while (prev > tmp && *(prev - 1) != '\0') prev--;` -/
def componentStart (tmp : List UInt8) : Nat → Nat
  | 0 => 0
  | prev + 1 => if tmp.getD prev 0 ≠ 0 then componentStart tmp prev else prev + 1

def erasePrev (tmp : List UInt8) (curr : Nat) : List UInt8 :=
  match prevByte tmp curr with
  | none => tmp
  | some prev =>
    let prev := componentStart tmp prev
    memset tmp prev (CString.ofBuffer tmp prev).length

/-- The first loop over the components. One that begins with a dot and is neither `.` nor `..`
leaves everything as it is. -/
def eraseDots : Nat → List UInt8 → Nat → Option (List UInt8)
  | 0, _, _ => none
  | fuel + 1, tmp, curr =>
    if curr < tmp.length then
      if tmp.getD curr 0 = 0 then eraseDots fuel tmp (curr + 1)
      else if tmp.getD curr 0 = dot then
        if (CString.ofBuffer tmp curr).length = 1 then
          eraseDots fuel (tmp.set curr 0) (curr + 1)
        else if (CString.ofBuffer tmp curr).length = 2 ∧ tmp.getD (curr + 1) 0 = dot then
          eraseDots fuel (((erasePrev tmp curr).set curr 0).set (curr + 1) 0) (curr + 2)
        else eraseDots fuel tmp curr
      else eraseDots fuel tmp (curr + (CString.ofBuffer tmp curr).length)
    else some tmp

def joinComponents (len : Nat) (tmp : List UInt8) : Nat → Nat → CString → Option CString
  | 0, _, _ => none
  | fuel + 1, curr, abspath =>
    if curr < tmp.length then
      if tmp.getD curr 0 = 0 then joinComponents len tmp fuel (curr + 1) abspath
      else do
        let abspath ← CString.strcat len abspath (.single slash slash_ne_zero)
        let abspath ← CString.strcat len abspath (.ofBuffer tmp curr)
        joinComponents len tmp fuel (curr + (CString.ofBuffer tmp curr).length) abspath
    else some abspath

/-- `none` inside is the null pointer of an allocation that failed. -/
def getAbsolutePath (fuel : Nat) (workingDir path : CString) (allocTmp allocAbspath : Bool) :
    Option (Option CString) :=
  if allocTmp && allocAbspath then do
    let tmp ← eraseDots fuel (splitPath workingDir path) 0
    let abspath ← joinComponents (pathLen workingDir path) tmp fuel 0 ⟨[], by simp⟩
    some (some (if abspath.byte 0 = 0 then .single slash slash_ne_zero else abspath))
  else some none

def push (stack : List (List UInt8)) (c : List UInt8) : List (List UInt8) :=
  if c = [] ∨ c = [dot] then stack
  else if c = [dot, dot] then stack.dropLast
  else stack ++ [c]

def normalise (cs : List (List UInt8)) : List (List UInt8) := cs.foldl push []

def components (path : CString) : List (List UInt8) := path.val.splitOn slash

def absoluteComponents (workingDir path : CString) : List (List UInt8) :=
  if path.byte 0 = slash then components path else components workingDir ++ components path

def render (cs : List (List UInt8)) : List UInt8 :=
  if cs = [] then [slash] else cs.flatMap (slash :: ·)

structure Proper (c : List UInt8) : Prop where
  ne_nil : c ≠ []
  slash : slash ∉ c
  nul : (0 : UInt8) ∉ c
  ne_dot : c ≠ [dot]
  ne_dots : c ≠ [dot, dot]

def Normalised (path : CString) : Prop := ∃ cs, (∀ c ∈ cs, Proper c) ∧ path.val = render cs

def Hidden (c : List UInt8) : Prop := c.head? = some dot ∧ c ≠ [dot] ∧ c ≠ [dot, dot]

instance : DecidablePred Hidden := fun c =>
  inferInstanceAs (Decidable (c.head? = some dot ∧ c ≠ [dot] ∧ c ≠ [dot, dot]))

end Xiuos.Fs
