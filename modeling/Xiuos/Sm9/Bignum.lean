import Xiuos.Lib.Limbs

/-! `crypto/sm9/bignum.c`, word by word. `none` is a call that never returns or reads past the array
it is given. -/

namespace Xiuos.Sm9
open Lib List

structure Big8w where
  word : List UInt32
  size : word.length = 8
  deriving DecidableEq

structure Big16w where
  word : List UInt32
  size : word.length = 16
  length : Nat
  deriving DecidableEq

def Big8w.val (bn : Big8w) : Nat := Limbs.val bn.word

def Big16w.val (bn : Big16w) : Nat := Limbs.val bn.word

def Big8w.zero : Big8w := ⟨List.replicate 8 0, rfl⟩

def Big8w.one : Big8w := ⟨1 :: List.replicate 7 0, rfl⟩

def topIndex : List UInt32 → Option Nat
  | [] => none
  | w :: ws =>
    match topIndex ws with
    | some i => some (i + 1)
    | none => if w = 0 then none else some 0

def bitFrom (elem : UInt32) : Nat → Nat
  | 0 => 0
  | i + 1 => if (elem >>> (i + 1).toUInt32) &&& 1 = 1 then i + 1 else bitFrom elem i

/-- The index of the first loop is a `uint8_t`: for a zero number it wraps to 255 and goes on
through `stray`, the words of memory behind the number. -/
def big8wHighestbit (stray : Nat → UInt32) (bignum : Big8w) : Option Nat :=
  ((bignum.word.reverse ++ (List.range' 8 248).reverse.map stray).find? (· ≠ 0)).map
    (bitFrom · 31)

def big8wIsZero (bignum : Big8w) : Bool := bignum.word.all (· == 0)

def big8wBigThan (bn1 bn2 : Big8w) : Bool := Limbs.geDown bn1.word.reverse bn2.word.reverse

def big8wEqual (bn1 bn2 : Big8w) : Bool := Limbs.eqDown bn1.word.reverse bn2.word.reverse

def minusStep (x y : UInt32) (borrow : Bool) : UInt32 × Bool :=
  let r := x - y - borrow.toUInt32
  (r, if r < x || (r == x && borrow == false) then false else true)

def addStep (x y : UInt32) (flag : Bool) : UInt32 × Bool :=
  let r := x + y + flag.toUInt32
  (r, if (r > x && r > y) || ((r == x || r == y) && flag == false) then false else true)

def minusWords (bn1 bn2 : Big8w) : Big8w :=
  ⟨(Limbs.ripple minusStep bn1.word bn2.word false).1, by
    rw [Limbs.ripple_length _ (bn1.size.trans bn2.size.symm), bn1.size]⟩

def addWords (bn1 bn2 : Big8w) : Big8w × Bool :=
  (⟨(Limbs.ripple addStep bn1.word bn2.word false).1, by
    rw [Limbs.ripple_length _ (bn1.size.trans bn2.size.symm), bn1.size]⟩,
    (Limbs.ripple addStep bn1.word bn2.word false).2)

def minusModRec : Nat → Big8w → Big8w → Big8w → Option Big8w
  | 0, _, _, _ => none
  | depth + 1, bn1, bn2, p =>
    if big8wEqual bn2 bn1 then
      some .zero
    else if big8wBigThan bn2 bn1 then do
      let ret ← minusModRec depth bn2 bn1 p
      minusModRec depth p ret p
    else
      some (minusWords bn1 bn2)

/-- Every level of the recursion but the first takes `p` off a 256-bit value, so one that
goes deeper than this never returns. -/
def big8wMinusMod (bn1 bn2 p : Big8w) : Option Big8w :=
  minusModRec (2 ^ 256 + 4) bn1 bn2 p

def isMax (w : UInt32) : Bool := w == 0xffffffff

/-- The increment of `Big8wAddMod`: the loop that clears the words below the incremented one
stops before it reaches `word[0]`. -/
def plusOne (bignum : Big8w) : Option Big8w :=
  let i := (bignum.word.takeWhile isMax).length
  if i < 8 then
    some ⟨bignum.word.mapIdx fun j w => if j = i then w + 1 else if 0 < j ∧ j < i then 0 else w,
      by rw [length_mapIdx, bignum.size]⟩
  else
    none

def complement (bignum : Big8w) : Big8w :=
  ⟨bignum.word.map (0xffffffff - ·), by rw [length_map, bignum.size]⟩

def big8wAddMod (bn1 bn2 p : Big8w) : Option Big8w := do
  let (ret, flag) := addWords bn1 bn2
  let ret ← if flag then do
      let ret ← big8wMinusMod p ret p
      plusOne (complement ret)
    else
      some ret
  if big8wBigThan ret p then big8wMinusMod ret p p else some ret

def shiftRightWords (rest : UInt32) : List UInt32 → List UInt32
  | [] => []
  | [w] => [w >>> rest]
  | w :: v :: ws => (w >>> rest ||| v <<< (32 - rest)) :: shiftRightWords rest (v :: ws)

lemma shiftRightWords_length (rest : UInt32) (ws : List UInt32) :
    (shiftRightWords rest ws).length = ws.length := by
  induction ws with
  | nil => rfl
  | cons w ws ih => cases ws <;> simp_all [shiftRightWords]

def big8wRightShift (bignum : Big8w) (round : UInt8) : Big8w :=
  let kround := (round >>> 5).toNat
  let rest := (round &&& 0x1f).toUInt32
  let ret : List UInt32 := (bignum.word ++ List.replicate kround 0).drop kround
  have hret : ret.length = 8 := by simp [ret, bignum.size]
  if rest = 0 then ⟨ret, hret⟩
  else ⟨shiftRightWords rest ret, by rw [shiftRightWords_length, hret]⟩

def setTopBit (bignum : Big8w) : Big8w :=
  ⟨bignum.word.modify 7 (· ||| 0x80000000), by rw [length_modify, bignum.size]⟩

def plusAndRightShiftOne (bignum N : Big8w) : Big8w :=
  let (ret, flag) := addWords bignum N
  let ret := big8wRightShift ret 1
  if flag then setTopBit ret else ret

structure ReverseState where
  x1 : Big8w
  y1 : Big8w
  x2 : Big8w
  y2 : Big8w

def isEven (bignum : Big8w) : Bool := bignum.word.headD 0 &&& 1 == 0

def halve (N x y : Big8w) : Big8w × Big8w :=
  if isEven x && isEven y then
    (big8wRightShift x 1, big8wRightShift y 1)
  else if isEven x && !isEven y then
    (big8wRightShift x 1, plusAndRightShiftOne y N)
  else
    (x, y)

def reverseStep (N : Big8w) (s : ReverseState) : Option (Big8w ⊕ ReverseState) :=
  let (x1, y1) := halve N s.x1 s.y1
  if big8wEqual x1 .one then some (.inl y1)
  else
    let (x2, y2) := halve N s.x2 s.y2
    if big8wEqual x2 .one then some (.inl y2)
    else if big8wBigThan x1 x2 then do
      let x1 ← big8wMinusMod x1 x2 N
      let y1 ← big8wMinusMod y1 y2 N
      if big8wEqual x1 .one then some (.inl y1) else some (.inr ⟨x1, y1, x2, y2⟩)
    else do
      let x2 ← big8wMinusMod x2 x1 N
      let y2 ← big8wMinusMod y2 y1 N
      if big8wEqual x2 .one then some (.inl y2) else some (.inr ⟨x1, y1, x2, y2⟩)

def reverseLoop (N : Big8w) : Nat → ReverseState → Option Big8w
  | 0, _ => none
  | fuel + 1, s => do
    match ← reverseStep N s with
    | .inl ret => some ret
    | .inr s => reverseLoop N fuel s

def big8wReverse (fuel : Nat) (bignum N : Big8w) : Option Big8w :=
  reverseLoop N fuel ⟨bignum, .one, N, .zero⟩

def u32CMP (bn1 bn2 : List UInt32) : Bool := Limbs.geDown bn1.reverse bn2.reverse

def multNumLoop (elem : UInt32) : List UInt32 → UInt32 → List UInt32 × UInt32
  | [], overflow => ([], overflow)
  | w :: ws, overflow =>
    let temp := elem.toUInt64 * w.toUInt64 + overflow.toUInt64
    let rest := multNumLoop elem ws (temp >>> 32).toUInt32
    (temp.toUInt32 :: rest.1, rest.2)

def big8wMultNum (bignum : Big8w) (elem : UInt32) : List UInt32 :=
  (multNumLoop elem bignum.word 0).1 ++ [(multNumLoop elem bignum.word 0).2, 0]

def u32AddStep (x y : UInt32) (overflow : Bool) : UInt32 × Bool :=
  let temp := x.toUInt64 + y.toUInt64 + overflow.toUInt64
  (temp.toUInt32, temp >>> 32 != 0)

def u32MinusStep (x y : UInt32) (borrow : Bool) : UInt32 × Bool :=
  (x - y - borrow.toUInt32, x.toUInt64 < y.toUInt64 + borrow.toUInt64)

def u32Add (bn1 bn2 : List UInt32) : List UInt32 := (Limbs.ripple u32AddStep bn1 bn2 false).1

def u32Minus (bn1 bn2 : List UInt32) : List UInt32 := (Limbs.ripple u32MinusStep bn1 bn2 false).1

def montAdd (bn1 : Big8w) (elem : UInt32) (ret : List UInt32) : List UInt32 :=
  u32Add (big8wMultNum bn1 elem) ret

def montFill (p : Big8w) (fill : UInt32) (ret : List UInt32) : List UInt32 :=
  u32Add (big8wMultNum p (fill * ret.headD 0)) ret

def montStep (bn1 p : Big8w) (fill : UInt32) (ret : List UInt32) (elem : UInt32) : List UInt32 :=
  (montFill p fill (montAdd bn1 elem ret)).tail ++ [0]

def montLoop (bn1 p : Big8w) (fill : UInt32) (elems : List UInt32) : List UInt32 :=
  elems.foldl (montStep bn1 p fill) (List.replicate 10 0)

def big8wMontMult (bn1 bn2 p : Big8w) (fill : UInt32) : Option (List UInt32) := do
  let _ ← topIndex bn2.word
  let ret := montLoop bn1 p fill bn2.word
  let temp := p.word ++ [0, 0]
  if u32CMP ret temp then some (u32Minus ret temp) else some ret

end Xiuos.Sm9
