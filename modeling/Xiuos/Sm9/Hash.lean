import Xiuos.Sm9.Join
import Xiuos.Sm9.Para

/-! Reduction of 16-word numbers by `bignum.c`, and the function `H` of `sm9_util.c` that
hashes into the range of `N`.  SM3 is a parameter. -/

namespace Xiuos.Sm9
open Lib

def shiftLeftWords (rest : UInt32) : UInt32 → List UInt32 → List UInt32
  | _, [] => []
  | prev, w :: ws => (w <<< rest ||| prev >>> (32 - rest)) :: shiftLeftWords rest w ws

@[simp] lemma shiftLeftWords_length (rest prev : UInt32) (ws : List UInt32) :
    (shiftLeftWords rest prev ws).length = ws.length := by
  induction ws generalizing prev with
  | nil => rfl
  | cons w ws ih => simp [shiftLeftWords, ih]

def big16wLeftShift (bignum : Big8w) (kround : Nat) (rest : UInt32) (length highestbit : Nat) :
    Option Big16w :=
  let len := if rest ≠ 0 ∧ rest.toNat + highestbit > 31 then length + kround + 1
    else length + kround
  let word := (List.replicate kround 0 ++ bignum.word.take (length + 1) ++
    List.replicate 16 0).take 16
  if h : len < 16 then
    some ⟨if rest = 0 then word else word.take kround ++
      (shiftLeftWords rest 0 ((word.drop kround).take (len + 1 - kround)) ++ word.drop (len + 1)),
      by
        have hlen : kround ≤ len := by simp only [len]; split <;> omega
        have hword : word.length = 16 := by simp [word]; omega
        split <;> simp [hword]
        omega,
      len⟩
  else
    none

def big16wHighestbit (bignum16w : Big16w) : Option Nat := do
  let elem ← bignum16w.word[bignum16w.length]?
  if bignum16w.length = 0 ∧ elem = 0 then some 0
  else if elem = 0 then none
  else some (bitFrom elem 31)

variable (bn1 bn2 : Big16w)

def big16wBigThan (bn1 bn2 : Big16w) : Bool :=
  if bn1.length > bn2.length then true
  else if bn1.length < bn2.length then false
  else Limbs.geDown (bn1.word.take (bn1.length + 1)).reverse
    (bn2.word.take (bn1.length + 1)).reverse

def minusLow (bn1 bn2 : Big16w) : List UInt32 :=
  (Limbs.ripple minusStep (bn1.word.take (bn1.length + 1))
    (bn2.word.take (bn1.length + 1)) false).1

lemma minusLow_length : (minusLow bn1 bn2).length = min (bn1.length + 1) 16 := by
  rw [minusLow, Limbs.ripple_length _ (by simp [bn1.size, bn2.size]), List.length_take, bn1.size]

/-- The search for the top word of the difference leaves the array when there is none. -/
def big16wMinus (bn1 bn2 : Big16w) : Option Big16w := do
  let i ← topIndex (minusLow bn1 bn2)
  some ⟨minusLow bn1 bn2 ++ List.replicate (16 - (bn1.length + 1)) 0,
    by simp [minusLow_length]; omega, i⟩

def mod8wLoop (p : Big8w) (plen pbit : Nat) : Nat → Big16w → Bool → Option (Big16w × Bool)
  | 0, _, _ => none
  | fuel + 1, bignum16w, turn =>
    if bignum16w.length > 7 then do
      let bit ← big16wHighestbit bignum16w
      let gap := bignum16w.length * 32 + bit - 255
      let temp ← big16wLeftShift p (gap >>> 5) (gap &&& 0x1f).toUInt32 plen pbit
      if big16wBigThan bignum16w temp then do
        let bignum16w ← big16wMinus bignum16w temp
        mod8wLoop p plen pbit fuel bignum16w turn
      else do
        let bignum16w ← big16wMinus temp bignum16w
        mod8wLoop p plen pbit fuel bignum16w (!turn)
    else
      some (bignum16w, turn)

def subtractLoop (p : Big8w) : Nat → Big8w → Option Big8w
  | 0, _ => none
  | fuel + 1, ret =>
    if big8wBigThan ret p then do
      let ret ← big8wMinusMod ret p p
      subtractLoop p fuel ret
    else
      some ret

def big16wmod8w (stray : Nat → UInt32) (fuel : Nat) (bignum16w : Big16w) (p : Big8w) :
    Option Big8w := do
  let pbit ← big8wHighestbit stray p
  let plen ← topIndex p.word
  let (bignum16w, turn) ← mod8wLoop p plen pbit fuel bignum16w false
  let ret ← subtractLoop p fuel (firstWords bignum16w.word)
  if turn then big8wMinusMod p ret p else some ret

abbrev Digest := Vector UInt8 32

def hashBytes (ha ha2 : Digest) : List UInt8 := ha.toList ++ ha2.toList.take 8

/-- The search for the top word starts at `word[10]` and leaves the array when every word is
zero. -/
def hashLoad (ha ha2 : Digest) : Option Big16w :=
  let word := (getWords 10 (hashBytes ha ha2)).reverse ++ List.replicate 6 0
  do
    let i ← topIndex (word.take 11)
    some ⟨word, by simp [word], i⟩

/-- The increment at the end of `H`: its carry loop tests `word[0]` without changing it. -/
def hashIncrement (tmp : Big8w) : Option Big8w :=
  if tmp.word.headD 0 = 0xffffffff then none
  else some ⟨tmp.word.modify 0 (· + 1), by rw [List.length_modify, tmp.size]⟩

def nMinusOne (g : Globals) : Big8w :=
  ⟨g.N.word.modify 0 (· - 1), by rw [List.length_modify, g.N.size]⟩

def hashDigests (stray : Nat → UInt32) (fuel : Nat) (g : Globals) (ha ha2 : Digest) :
    Option Big8w := do
  let ret ← hashLoad ha ha2
  let tmp ← big16wmod8w stray fuel ret (nMinusOne g)
  hashIncrement tmp

def H (sm3 : List UInt8 → Digest) (stray : Nat → UInt32) (fuel : Nat) (g : Globals)
    (Z : List UInt8) (funcflag : UInt8) : Option Big8w :=
  hashDigests stray fuel g (sm3 (funcflag :: Z ++ [0, 0, 0, 1]))
    (sm3 (funcflag :: Z ++ [0, 0, 0, 2]))

end Xiuos.Sm9
