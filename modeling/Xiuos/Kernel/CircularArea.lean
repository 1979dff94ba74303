import Mathlib.Data.UInt
import Xiuos.Kernel.Ktask
import Xiuos.Lib.Circle
import Xiuos.Lib.Run

/-! `circular_area.c`: a buffer of bytes that is used in a circle. -/

namespace Xiuos.Kernel
open Lib Bool List Nat Option Mem
variable {input : List UInt8} {debug : Bool} {q : List UInt8}

attribute [grind =] UInt8.toNat_toUInt32 UInt32.toNat_toUInt8 UInt8.toNat_ofNat'
  UInt32.toNat_ofNat' UInt32.toNat_add UInt32.toNat_sub UInt32.toNat_mod UInt32.lt_iff_toNat_lt
  UInt32.le_iff_toNat_le Nat.toUInt32_eq

structure CircularArea where
  dataBuffer : Mem
  readidx : UInt8
  writeidx : UInt8
  areaLength : UInt32
  bStatus : Bool

namespace CircularArea

section
variable (c : CircularArea)

def isFull : Bool := c.readidx = c.writeidx && c.bStatus

def isEmpty : Bool := c.readidx = c.writeidx && !c.bStatus

def getDataLength : UInt32 :=
  if c.isFull then c.areaLength
  else (c.writeidx.toUInt32 - c.readidx.toUInt32 + c.areaLength) % c.areaLength

def divideRdData (dataLength : UInt32) : Bool :=
  !(c.readidx.toUInt32 + dataLength ≤ c.areaLength)

def divideWrData (dataLength : UInt32) : Bool :=
  !(c.writeidx.toUInt32 + dataLength ≤ c.areaLength)

def copyOut (i len : UInt32) : Option (List UInt8) :=
  if i.toNat + len.toNat ≤ c.areaLength.toNat then some (c.dataBuffer.get i.toNat len.toNat)
  else none

def copyIn (i : UInt32) (bytes : List UInt8) : Option CircularArea :=
  if i.toNat + bytes.length ≤ c.areaLength.toNat then
    some { c with dataBuffer := c.dataBuffer.put i.toNat bytes }
  else none

def read (debug : Bool) (dataLength : UInt32) : Option (CircularArea × List UInt8 × Int) :=
  if debug ∧ dataLength = 0 then none
  else if c.isEmpty then some (c, [], error)
  else
    let dataLength := if dataLength > c.getDataLength then c.getDataLength else dataLength
    if c.divideRdData dataLength then do
      let readLenUp := c.areaLength - c.readidx.toUInt32
      let readLenDown := dataLength - readLenUp
      let up ← c.copyOut c.readidx.toUInt32 readLenUp
      let down ← c.copyOut 0 readLenDown
      some ({ c with readidx := readLenDown.toUInt8, bStatus := false }, up ++ down, eok)
    else do
      let bytes ← c.copyOut c.readidx.toUInt32 dataLength
      some ({ c with
        readidx := ((c.readidx.toUInt32 + dataLength) % c.areaLength).toUInt8
        bStatus := false }, bytes, eok)

def store (input : List UInt8) (dataLength : UInt32) : Option CircularArea :=
  if c.divideWrData dataLength then do
    let writeLenUp := c.areaLength - c.writeidx.toUInt32
    let writeLenDown := dataLength - writeLenUp
    let c' ← c.copyIn c.writeidx.toUInt32 (input.take writeLenUp.toNat)
    let c' ← c'.copyIn 0 ((input.drop writeLenUp.toNat).take writeLenDown.toNat)
    some { c' with writeidx := writeLenDown.toUInt8 }
  else do
    let c' ← c.copyIn c.writeidx.toUInt32 (input.take dataLength.toNat)
    some { c' with writeidx := ((c.writeidx.toUInt32 + dataLength) % c.areaLength).toUInt8 }

def write (debug : Bool) (input : List UInt8) (bForce : Bool) : Option (CircularArea × Int) :=
  let dataLength := input.length.toUInt32
  if debug ∧ dataLength = 0 then none
  else if c.isFull && !bForce then some (c, error)
  else do
    let writeDataLength := c.areaLength - c.getDataLength
    let dataLength := if dataLength > writeDataLength then writeDataLength else dataLength
    let c ← c.store input dataLength
    let c := { c with bStatus := true }
    some (if bForce then { c with readidx := c.writeidx } else c, eok)

end

def fresh (dataBuffer : Mem) (areaLength : UInt32) : CircularArea where
  dataBuffer
  readidx := 0
  writeidx := 0
  areaLength
  bStatus := false

def init (debug : Bool) (memAlign circularAreaLength : UInt32) (area : Option Unit)
    (buffer : Option Mem) : Option CircularArea :=
  if debug ∧ circularAreaLength = 0 then none
  else do
    let circularAreaLength := circularAreaLength / memAlign * memAlign
    area
    let dataBuffer ← if circularAreaLength = 0 then none else buffer
    some (fresh dataBuffer circularAreaLength)

def contents (c : CircularArea) : List UInt8 :=
  c.dataBuffer.window c.areaLength.toNat c.readidx.toNat c.getDataLength.toNat

structure InBounds (c : CircularArea) : Prop where
  readidx_lt : c.readidx.toNat < c.areaLength.toNat
  writeidx_lt : c.writeidx.toNat < c.areaLength.toNat

section
variable {c : CircularArea} {k : Nat}

lemma isFull_iff : c.isFull = true ↔ c.readidx = c.writeidx ∧ c.bStatus = true := by simp [isFull]

lemma isEmpty_iff : c.isEmpty = true ↔ c.readidx = c.writeidx ∧ c.bStatus = false := by
  simp [isEmpty]

def LengthFits (c : CircularArea) : Prop :=
  c.writeidx.toNat + c.areaLength.toNat < c.readidx.toNat + 2 ^ 32

variable (hb : c.InBounds)
include hb

lemma InBounds.pos : 0 < c.areaLength.toNat := zero_lt_of_lt hb.readidx_lt

omit hb in
lemma getDataLength_of_full (h : c.isFull = true) : c.getDataLength = c.areaLength := if_pos h

variable (hfits : c.LengthFits)
include hfits

lemma getDataLength_of_not_full (h : ¬ c.isFull = true) :
    c.getDataLength.toNat =
      (c.writeidx.toNat + c.areaLength.toNat - c.readidx.toNat) % c.areaLength.toNat := by
  have hr := hb.readidx_lt
  have hw := hb.writeidx_lt
  have ha := c.areaLength.toNat_lt
  rw [LengthFits] at hfits
  rw [getDataLength, if_neg h, UInt32.toNat_mod]
  congr 1
  grind

lemma getDataLength_eq (hk : k ≤ c.areaLength.toNat)
    (hw : (c.readidx.toNat + k) % c.areaLength.toNat = c.writeidx.toNat)
    (hfull : k = c.areaLength.toNat → c.bStatus = true) (hempty : k = 0 → c.bStatus = false) :
    c.getDataLength.toNat = k := by
  have hr := hb.readidx_lt
  by_cases hka : k = c.areaLength.toNat
  · have heq : c.readidx = c.writeidx := by
      rw [hka, add_mod_right, mod_eq_of_lt hr] at hw
      exact UInt8.toNat_inj.mp hw
    rw [getDataLength_of_full (isFull_iff.mpr ⟨heq, hfull hka⟩), hka]
  · have hnot : ¬ c.isFull = true := by
      rw [isFull_iff]
      rintro ⟨heq, hstatus⟩
      have hzero : k = 0 := by
        refine Slots.slot_injective c.readidx.toNat (Nat.lt_of_le_of_ne hk hka) hb.pos ?_
        rw [hw, ← heq, Nat.add_zero, mod_eq_of_lt hr]
      rw [hempty hzero] at hstatus
      cases hstatus
    rw [getDataLength_of_not_full hb hfits hnot, ← hw]
    obtain h | h := Nat.lt_or_ge (c.readidx.toNat + k) c.areaLength.toNat
    · rw [mod_eq_of_lt h, show c.readidx.toNat + k + c.areaLength.toNat - c.readidx.toNat =
        k + c.areaLength.toNat by omega, add_mod_right, mod_eq_of_lt (by omega)]
    · have hwrap : (c.readidx.toNat + k) % c.areaLength.toNat =
          c.readidx.toNat + k - c.areaLength.toNat := by
        rw [mod_eq_sub_mod h, mod_eq_of_lt (by omega)]
      rw [hwrap, Nat.sub_add_cancel h, Nat.add_sub_cancel_left, mod_eq_of_lt (by omega)]

lemma getDataLength_spec :
    c.getDataLength.toNat ≤ c.areaLength.toNat ∧
      (c.readidx.toNat + c.getDataLength.toNat) % c.areaLength.toNat = c.writeidx.toNat := by
  have hr := hb.readidx_lt
  have hw := hb.writeidx_lt
  by_cases hfull : c.isFull = true
  · rw [getDataLength_of_full hfull, add_mod_right, mod_eq_of_lt hr, (isFull_iff.mp hfull).1]
    exact ⟨Nat.le_refl _, rfl⟩
  · rw [getDataLength_of_not_full hb hfits hfull, add_mod_mod]
    refine ⟨Nat.le_of_lt (mod_lt _ hb.pos), ?_⟩
    rw [show c.readidx.toNat + (c.writeidx.toNat + c.areaLength.toNat - c.readidx.toNat) =
      c.writeidx.toNat + c.areaLength.toNat by omega, add_mod_right, mod_eq_of_lt hw]

end

section
variable {i : UInt8} {a d : UInt32}

lemma toNat_index_add (hfits : i.toNat + d.toNat < 2 ^ 32) :
    (i.toUInt32 + d).toNat = i.toNat + d.toNat := by
  rw [UInt32.toNat_add, UInt8.toNat_toUInt32, mod_eq_of_lt hfits]

lemma toNat_cut (d l : UInt32) : (if d > l then l else d).toNat = min d.toNat l.toNat := by grind

variable (hi : i.toNat < a.toNat)
include hi

lemma toNat_up : (a - i.toUInt32).toNat = a.toNat - i.toNat := by
  have ha := a.toNat_lt
  grind

lemma toNat_down (hlt : a.toNat < i.toNat + d.toNat) :
    (d - (a - i.toUInt32)).toNat = i.toNat + d.toNat - a.toNat := by
  have ha := a.toNat_lt
  have hd := d.toNat_lt
  grind

omit hi in
lemma straight_index (hfits : i.toNat + d.toNat < 2 ^ 32) :
    ((i.toUInt32 + d) % a).toUInt8 = UInt8.ofNat ((i.toNat + d.toNat) % a.toNat) := by
  rw [← UInt8.toNat_inj, UInt32.toNat_toUInt8, UInt32.toNat_mod, toNat_index_add hfits,
    UInt8.toNat_ofNat']

lemma divided_index (hd : d.toNat ≤ a.toNat) (hlt : a.toNat < i.toNat + d.toNat) :
    (d - (a - i.toUInt32)).toUInt8 = UInt8.ofNat ((i.toNat + d.toNat) % a.toNat) := by
  have hmod : (i.toNat + d.toNat) % a.toNat = i.toNat + d.toNat - a.toNat := by
    rw [mod_eq_sub_mod (Nat.le_of_lt hlt), mod_eq_of_lt (by omega)]
  rw [← UInt8.toNat_inj, UInt32.toNat_toUInt8, toNat_down hi hlt, UInt8.toNat_ofNat', hmod]

end

variable {bytes : List UInt8} {bForce : Bool}

section
variable {c : CircularArea} {d : UInt32}

lemma copyIn_eq {i : UInt32} (h : i.toNat + bytes.length ≤ c.areaLength.toNat) :
    c.copyIn i bytes = some { c with dataBuffer := c.dataBuffer.put i.toNat bytes } := if_pos h

lemma copyOut_eq {i len : UInt32} (h : i.toNat + len.toNat ≤ c.areaLength.toNat) :
    c.copyOut i len = some (c.dataBuffer.get i.toNat len.toNat) := if_pos h

lemma store_eq (hb : c.InBounds) (hd : d.toNat ≤ c.areaLength.toNat)
    (hlen : d.toNat ≤ input.length) (hfits : c.writeidx.toNat + d.toNat < 2 ^ 32) :
    c.store input d = some { c with
      dataBuffer := c.dataBuffer.putCircle c.areaLength.toNat c.writeidx.toNat
        (input.take d.toNat)
      writeidx := UInt8.ofNat ((c.writeidx.toNat + d.toNat) % c.areaLength.toNat) } := by
  have hw := hb.writeidx_lt
  have htake : (input.take d.toNat).length = d.toNat := length_take_of_le hlen
  by_cases hle : c.writeidx.toNat + d.toNat ≤ c.areaLength.toNat
  · have hdiv : c.divideWrData d = false := by
      simpa [divideWrData, UInt32.le_iff_toNat_le, toNat_index_add hfits] using hle
    simp only [store, hdiv, false_eq_true, if_false, straight_index hfits]
    rw [copyIn_eq (by rw [htake, UInt8.toNat_toUInt32]; exact hle), Mem.putCircle, htake,
      if_pos hle, UInt8.toNat_toUInt32]
    rfl
  · have hlt := Nat.not_le.mp hle
    have hdiv : c.divideWrData d = true := by
      simpa [divideWrData, UInt32.le_iff_toNat_le, toNat_index_add hfits] using hlt
    have hup : (input.take (c.areaLength.toNat - c.writeidx.toNat)).length =
        c.areaLength.toNat - c.writeidx.toNat := length_take_of_le (by omega)
    have hrest : ((input.drop (c.areaLength.toNat - c.writeidx.toNat)).take
        (c.writeidx.toNat + d.toNat - c.areaLength.toNat)) =
        (input.take d.toNat).drop (c.areaLength.toNat - c.writeidx.toNat) := by
      rw [drop_take]
      congr 1
      omega
    have hdown : ((input.take d.toNat).drop (c.areaLength.toNat - c.writeidx.toNat)).length =
        c.writeidx.toNat + d.toNat - c.areaLength.toNat := by
      rw [length_drop, htake]
      omega
    have htop : (input.take d.toNat).take (c.areaLength.toNat - c.writeidx.toNat) =
        input.take (c.areaLength.toNat - c.writeidx.toNat) := by
      rw [take_take, Nat.min_eq_left (by omega)]
    simp only [store, hdiv, if_true, toNat_up hw, toNat_down hw hlt, hrest, divided_index hw hd hlt]
    rw [copyIn_eq (by rw [hup, UInt8.toNat_toUInt32]; omega)]
    simp only [bind_eq_bind, bind_some]
    rw [copyIn_eq (by simp only [hdown, UInt32.toNat_zero]; omega), Mem.putCircle, htake,
      if_neg hle, htop, UInt8.toNat_toUInt32]
    rfl

lemma store_eq_none (hb : c.InBounds) (hd : d.toNat ≤ c.areaLength.toNat)
    (hlen : d.toNat ≤ input.length) (hwrap : 2 ^ 32 ≤ c.writeidx.toNat + d.toNat) :
    c.store input d = none := by
  have hw := hb.writeidx_lt
  have ha := c.areaLength.toNat_lt
  have htake : (input.take d.toNat).length = d.toNat := length_take_of_le hlen
  have hsum : (c.writeidx.toUInt32 + d).toNat = c.writeidx.toNat + d.toNat - 2 ^ 32 := by
    rw [UInt32.toNat_add, UInt8.toNat_toUInt32]
    omega
  have hdiv : c.divideWrData d = false := by
    simp only [divideWrData, UInt32.le_iff_toNat_le, hsum, not_eq_eq_eq_not, Bool.not_false,
      decide_eq_true_eq]
    omega
  have hput : c.copyIn c.writeidx.toUInt32 (input.take d.toNat) = none :=
    if_neg (by rw [htake, UInt8.toNat_toUInt32]; omega)
  simp [store, hdiv, hput]

lemma toNat_length (hlt : input.length < 2 ^ 32) :
    input.length.toUInt32.toNat = input.length := by
  rw [toUInt32_eq, UInt32.toNat_ofNat', mod_eq_of_lt hlt]

lemma length_ne_zero (hpos : 0 < input.length) (hlt : input.length < 2 ^ 32) :
    input.length.toUInt32 ≠ 0 := by
  rw [Ne, ← UInt32.toNat_inj, toNat_length hlt]
  exact Nat.ne_of_gt hpos

def cutLength (c : CircularArea) (input : List UInt8) : UInt32 :=
  if input.length.toUInt32 > c.areaLength - c.getDataLength then c.areaLength - c.getDataLength
  else input.length.toUInt32

lemma toNat_cutLength (hlt : input.length < 2 ^ 32)
    (hle : c.getDataLength.toNat ≤ c.areaLength.toNat) :
    (c.cutLength input).toNat = min input.length (c.areaLength.toNat - c.getDataLength.toNat) := by
  rw [cutLength, toNat_cut, toNat_length hlt,
    UInt32.toNat_sub_of_le _ _ (UInt32.le_iff_toNat_le.mpr hle)]

lemma write_of_open (debug : Bool) (hpos : 0 < input.length) (hlt : input.length < 2 ^ 32)
    (hopen : ¬ (c.isFull && !bForce) = true) :
    c.write debug input bForce = (c.store input (c.cutLength input)).bind fun c =>
      some (if bForce then { c with bStatus := true, readidx := c.writeidx }
        else { c with bStatus := true }, eok) := by
  rw [write, if_neg fun hz => length_ne_zero hpos hlt hz.2, if_neg hopen]
  rfl

lemma read_eq (debug : Bool) (hb : c.InBounds) (hne : ¬ c.isEmpty = true) (hpos : d ≠ 0)
    (hle : c.getDataLength.toNat ≤ c.areaLength.toNat)
    (hfits : c.readidx.toNat + c.areaLength.toNat < 2 ^ 32) :
    c.read debug d = some ({ c with
      readidx := UInt8.ofNat
        ((c.readidx.toNat + min d.toNat c.getDataLength.toNat) % c.areaLength.toNat)
      bStatus := false }, c.dataBuffer.window c.areaLength.toNat c.readidx.toNat
        (min d.toNat c.getDataLength.toNat), eok) := by
  have hr := hb.readidx_lt
  obtain ⟨l, hl⟩ : ∃ l, (if d > c.getDataLength then c.getDataLength else d) = l := ⟨_, rfl⟩
  have hmin : l.toNat = min d.toNat c.getDataLength.toNat := hl ▸ toNat_cut d _
  have hla : l.toNat ≤ c.areaLength.toNat := by omega
  have hsum : c.readidx.toNat + l.toNat < 2 ^ 32 := by omega
  rw [← hmin, read, if_neg fun h => hpos h.2, if_neg hne]
  simp only [hl]
  by_cases hin : c.readidx.toNat + l.toNat ≤ c.areaLength.toNat
  · have hdiv : c.divideRdData l = false := by
      simpa [divideRdData, UInt32.le_iff_toNat_le, toNat_index_add hsum] using hin
    simp only [hdiv, false_eq_true, if_false, straight_index hsum]
    rw [copyOut_eq (by rw [UInt8.toNat_toUInt32]; exact hin), window_eq_get hin,
      UInt8.toNat_toUInt32]
    rfl
  · have hlt := Nat.not_le.mp hin
    have hdiv : c.divideRdData l = true := by
      simpa [divideRdData, UInt32.le_iff_toNat_le, toNat_index_add hsum] using hlt
    have hsplit : l.toNat = (c.areaLength.toNat - c.readidx.toNat) +
        (c.readidx.toNat + l.toNat - c.areaLength.toNat) := by omega
    have hend : c.readidx.toNat + (c.areaLength.toNat - c.readidx.toNat) = c.areaLength.toNat :=
      add_sub_of_le (Nat.le_of_lt hr)
    simp only [hdiv, if_true, divided_index hr hla hlt]
    rw [copyOut_eq (by rw [toNat_up hr, UInt8.toNat_toUInt32]; omega)]
    simp only [bind_eq_bind, bind_some]
    rw [copyOut_eq (by rw [toNat_down hr hlt, UInt32.toNat_zero]; omega), toNat_up hr,
      toNat_down hr hlt, UInt8.toNat_toUInt32, UInt32.toNat_zero, bind_some,
      ← window_eq_get_append hend (by omega), ← hsplit]

end

inductive Op
  | read (dataLength : UInt32)
  | write (input : List UInt8) (bForce : Bool)
  deriving DecidableEq

def Op.Positive : Op → Prop
  | .read dataLength => dataLength ≠ 0
  | .write input _ => 0 < input.length ∧ input.length < 2 ^ 32

instance (op : Op) : Decidable op.Positive :=
  match op with
  | .read dataLength => inferInstanceAs (Decidable (dataLength ≠ 0))
  | .write input _ => inferInstanceAs (Decidable (0 < input.length ∧ input.length < 2 ^ 32))

def Op.Unforced : Op → Prop
  | .read _ => True
  | .write _ bForce => bForce = false

instance (op : Op) : Decidable op.Unforced :=
  match op with
  | .read _ => isTrue True.intro
  | .write _ bForce => inferInstanceAs (Decidable (bForce = false))

def step (debug : Bool) (c : CircularArea) : Op → Option CircularArea
  | .read dataLength => (c.read debug dataLength).map Prod.fst
  | .write input bForce => (c.write debug input bForce).map Prod.fst

structure Exact (c : CircularArea) (q : List UInt8) : Prop where
  contents : c.contents = q
  full : c.isFull = true ↔ q.length = c.areaLength.toNat
  empty : c.isEmpty = true ↔ q = []
  length : c.getDataLength.toNat = q.length

def Fifo (debug : Bool) : CircularArea → List UInt8 → List Op → Prop
  | c, q, [] => c.Exact q
  | c, q, .read dataLength :: ops => c.Exact q ∧ ∃ c',
    c.read debug dataLength = some (c', q.take dataLength.toNat, if q = [] then error else eok) ∧
      Fifo debug c' (q.drop dataLength.toNat) ops
  | c, q, .write input bForce :: ops => c.Exact q ∧ ∃ c',
    c.write debug input bForce = some (c', if q.length = c.areaLength.toNat then error else eok) ∧
      Fifo debug c' (q ++ input.take (c.areaLength.toNat - q.length)) ops

structure Holds (c : CircularArea) (q : List UInt8) : Prop where
  inBounds : c.InBounds
  small : c.areaLength.toNat ≤ 256
  length_le : q.length ≤ c.areaLength.toNat
  writeidx : (c.readidx.toNat + q.length) % c.areaLength.toNat = c.writeidx.toNat
  full : q.length = c.areaLength.toNat → c.bStatus = true
  empty : q.length = 0 → c.bStatus = false
  window : c.dataBuffer.window c.areaLength.toNat c.readidx.toNat q.length = q

namespace Holds
variable {c c' : CircularArea} {d : UInt32} (h : c.Holds q)
include h

lemma lengthFits : c.LengthFits := by
  have hw := h.inBounds.writeidx_lt
  have hsmall := h.small
  rw [LengthFits]
  omega

lemma getDataLength : c.getDataLength.toNat = q.length :=
  getDataLength_eq h.inBounds h.lengthFits h.length_le h.writeidx h.full h.empty

lemma readidx_eq_iff : c.readidx = c.writeidx ↔ q.length = 0 ∨ q.length = c.areaLength.toNat := by
  have hr := h.inBounds.readidx_lt
  have hlen := h.length_le
  rw [← UInt8.toNat_inj, ← h.writeidx]
  constructor
  · intro heq
    refine or_iff_not_imp_right.mpr fun hne => ?_
    refine Slots.slot_injective c.readidx.toNat (Nat.lt_of_le_of_ne hlen hne) h.inBounds.pos ?_
    rw [← heq, Nat.add_zero, mod_eq_of_lt hr]
  · rintro (hz | hz)
    · rw [hz, Nat.add_zero, mod_eq_of_lt hr]
    · rw [hz, add_mod_right, mod_eq_of_lt hr]

lemma isFull : c.isFull = true ↔ q.length = c.areaLength.toNat := by
  rw [isFull_iff, h.readidx_eq_iff]
  constructor
  · rintro ⟨hz | hfull, hstatus⟩
    · rw [h.empty hz] at hstatus
      cases hstatus
    · exact hfull
  · exact fun hfull => ⟨.inr hfull, h.full hfull⟩

lemma isEmpty : c.isEmpty = true ↔ q = [] := by
  rw [isEmpty_iff, h.readidx_eq_iff, ← length_eq_zero_iff]
  constructor
  · rintro ⟨hz | hfull, hstatus⟩
    · exact hz
    · rw [h.full hfull] at hstatus
      cases hstatus
  · exact fun hz => ⟨.inl hz, h.empty hz⟩

lemma exact : c.Exact q where
  contents := by rw [contents, h.getDataLength, h.window]
  full := h.isFull
  empty := h.isEmpty
  length := h.getDataLength

lemma fits : c.readidx.toNat + c.areaLength.toNat < 2 ^ 32 := by
  have hr := h.inBounds.readidx_lt
  have hsmall := h.small
  omega

lemma toNat_ofNat (i : Nat) :
    (UInt8.ofNat (i % c.areaLength.toNat)).toNat = i % c.areaLength.toNat := by
  have hlt := mod_lt i h.inBounds.pos
  have hsmall := h.small
  rw [UInt8.toNat_ofNat', mod_eq_of_lt (by omega : _ < 2 ^ 8)]

lemma advance {k : Nat} (hk : 0 < k) (hle : k ≤ q.length) :
    Holds { c with
      readidx := UInt8.ofNat ((c.readidx.toNat + k) % c.areaLength.toNat)
      bStatus := false } (q.drop k) where
  inBounds := ⟨(h.toNat_ofNat _).trans_lt (mod_lt _ h.inBounds.pos), h.inBounds.writeidx_lt⟩
  small := h.small
  length_le := (drop_sublist ..).length_le.trans h.length_le
  writeidx := by
    simp only [h.toNat_ofNat, mod_add_mod, length_drop]
    rw [Nat.add_assoc, add_sub_of_le hle, h.writeidx]
  full := by
    have hlen := h.length_le
    simp only [length_drop]
    omega
  empty _ := rfl
  window := by
    simp only [h.toNat_ofNat, window_mod, length_drop]
    rw [← drop_window hle, h.window]

lemma extend (bytes : List UInt8) (hpos : 0 < bytes.length)
    (hle : q.length + bytes.length ≤ c.areaLength.toNat) :
    Holds { c with
      dataBuffer := c.dataBuffer.putCircle c.areaLength.toNat c.writeidx.toNat bytes
      writeidx := UInt8.ofNat ((c.writeidx.toNat + bytes.length) % c.areaLength.toNat)
      bStatus := true } (q ++ bytes) where
  inBounds := ⟨h.inBounds.readidx_lt, (h.toNat_ofNat _).trans_lt (mod_lt _ h.inBounds.pos)⟩
  small := h.small
  length_le := by rwa [length_append]
  writeidx := by
    simp only [h.toNat_ofNat, length_append]
    rw [← h.writeidx, mod_add_mod, Nat.add_assoc]
  full _ := rfl
  empty := by
    simp only [length_append]
    omega
  window := by
    simp only [length_append]
    rw [window_putCircle_append h.inBounds.pos h.writeidx hle, h.window]

lemma read (hd : d ≠ 0) : ∃ c',
    c.read debug d = some (c', q.take d.toNat, if q = [] then error else eok) ∧
      c'.Holds (q.drop d.toNat) := by
  by_cases hq : q = []
  · subst hq
    refine ⟨c, ?_, by simpa using h⟩
    rw [CircularArea.read, if_neg fun hz => hd hz.2, if_pos (h.isEmpty.mpr rfl), if_pos rfl,
      take_nil]
  · have hempty : ¬ c.isEmpty = true := fun he => hq (h.isEmpty.mp he)
    have hlen := h.length_le
    have hmin := Nat.min_le_right d.toNat q.length
    have hzero : d.toNat ≠ 0 := fun hz => hd (UInt32.toNat_inj.mp hz)
    have hpos := length_pos_iff.mpr hq
    rw [drop_eq_drop_min]
    refine ⟨_, ?_, h.advance (by omega) hmin⟩
    rw [read_eq debug h.inBounds hempty hd (h.getDataLength ▸ hlen) h.fits, h.getDataLength,
      if_neg hq, ← take_window hmin, h.window, ← take_eq_take_min]

lemma write (hpos : 0 < input.length) (hlt : input.length < 2 ^ 32) : ∃ c',
    c.write debug input false = some (c', if q.length = c.areaLength.toNat then error else eok) ∧
      c'.Holds (q ++ input.take (c.areaLength.toNat - q.length)) := by
  have hlen := h.length_le
  have hw := h.inBounds.writeidx_lt
  have hsmall := h.small
  by_cases hfull : q.length = c.areaLength.toNat
  · refine ⟨c, ?_, by simpa [hfull] using h⟩
    rw [CircularArea.write, if_neg fun hz => length_ne_zero hpos hlt hz.2,
      if_pos (by simp [h.isFull.mpr hfull]), if_pos hfull]
  · have hcut := toNat_cutLength hlt (h.getDataLength ▸ hlen)
    rw [h.getDataLength] at hcut
    have hbytes : input.take (c.cutLength input).toNat =
        input.take (c.areaLength.toNat - q.length) := by rw [hcut, Nat.min_comm, ← take_eq_take_min]
    have hcount : (input.take (c.cutLength input).toNat).length = (c.cutLength input).toNat :=
      length_take_of_le (by omega)
    have hopen : ¬ (c.isFull && !false) = true := by simpa using mt h.isFull.mp hfull
    have hstore : c.store input (c.cutLength input) = some _ :=
      store_eq h.inBounds (by omega) (by omega) (by omega)
    rw [← hbytes, write_of_open debug hpos hlt hopen, hstore, if_neg hfull]
    refine ⟨_, rfl, ?_⟩
    have hext := h.extend (input.take (c.cutLength input).toNat) (by omega) (by omega)
    rwa [hcount] at hext

end Holds

section
variable {c : CircularArea} {dataBuffer : Mem}
variable {areaLength : UInt32}

lemma holds_fresh (hpos : areaLength ≠ 0) (hsmall : areaLength.toNat ≤ 256) :
    (fresh dataBuffer areaLength).Holds [] := by
  have hlt : 0 < areaLength.toNat := Nat.pos_of_ne_zero fun h => hpos (UInt32.toNat_inj.mp h)
  exact ⟨⟨hlt, hlt⟩, hsmall, Nat.zero_le _, zero_mod _, fun h => absurd h (Nat.ne_of_lt hlt),
    fun _ => rfl, rfl⟩

lemma Holds.fifo (h : c.Holds q) {ops : List Op}
    (hops : ∀ op ∈ ops, op.Positive ∧ op.Unforced) : Fifo debug c q ops := by
  induction ops generalizing c q with
  | nil => exact h.exact
  | cons op ops ih =>
    have hrest : ∀ op ∈ ops, op.Positive ∧ op.Unforced := fun o ho =>
      hops o (mem_cons_of_mem op ho)
    obtain ⟨hpositive, hunforced⟩ := hops op mem_cons_self
    cases op with
    | read dataLength =>
      obtain ⟨c', hread, hc'⟩ := h.read hpositive
      exact ⟨h.exact, c', hread, ih hc' hrest⟩
    | write input bForce =>
      obtain rfl : bForce = false := hunforced
      obtain ⟨c', hwrite, hc'⟩ := h.write hpositive.1 hpositive.2
      exact ⟨h.exact, c', hwrite, ih hc' hrest⟩

lemma fresh_write (debug : Bool) (dataBuffer : Mem) (hlarge : 256 < areaLength.toNat)
    (input : List UInt8)
    (hlen : input.length = 256) : ∃ c',
    (fresh dataBuffer areaLength).write debug input false = some (c', eok) ∧
      c'.isFull = true ∧ c'.areaLength = areaLength := by
  have hb : (fresh dataBuffer areaLength).InBounds :=
    ⟨Nat.lt_of_le_of_lt (Nat.zero_le _) hlarge, Nat.lt_of_le_of_lt (Nat.zero_le _) hlarge⟩
  have hdata : (fresh dataBuffer areaLength).getDataLength.toNat = 0 :=
    getDataLength_eq hb (by simpa [LengthFits, fresh] using areaLength.toNat_lt) (Nat.zero_le _)
      (mod_eq_of_lt hb.readidx_lt) (fun h => absurd h.symm (Nat.ne_of_gt hb.pos)) fun _ => rfl
  have hcut : ((fresh dataBuffer areaLength).cutLength input).toNat = 256 := by
    rw [toNat_cutLength (by omega) (hdata ▸ Nat.zero_le _), hdata, hlen]
    exact Nat.min_eq_left (Nat.le_of_lt hlarge)
  have hzero : (fresh dataBuffer areaLength).writeidx.toNat = 0 := rfl
  have hstore : (fresh dataBuffer areaLength).store input
      ((fresh dataBuffer areaLength).cutLength input) = some _ :=
    store_eq hb (hcut ▸ Nat.le_of_lt hlarge) (by omega) (by omega)
  rw [write_of_open debug (by omega) (by omega) (by simp [isFull, fresh]), hstore]
  refine ⟨_, rfl, isFull_iff.mpr ⟨?_, rfl⟩, rfl⟩
  simp only [false_eq_true, if_false, hcut, hzero, Nat.zero_add]
  rw [show (fresh dataBuffer areaLength).areaLength = areaLength from rfl, mod_eq_of_lt hlarge]
  rfl

theorem fifo_iff (debug : Bool) (dataBuffer : Mem) (areaLength : UInt32) (hpos : areaLength ≠ 0) :
    (∀ ops : List Op, (∀ op ∈ ops, op.Positive ∧ op.Unforced) →
      Fifo debug (fresh dataBuffer areaLength) [] ops) ↔ areaLength.toNat ≤ 256 := by
  constructor
  · intro h
    by_contra hlarge
    have hlarge := Nat.not_le.mp hlarge
    obtain ⟨input, hlen⟩ : ∃ input : List UInt8, input.length = 256 :=
      ⟨List.replicate 256 0, length_replicate⟩
    obtain ⟨-, c₁, hwrite₁, hexact⟩ := h [.write input false] fun op hop => by
      rw [mem_singleton.mp hop]
      exact ⟨⟨by omega, by omega⟩, rfl⟩
    obtain ⟨c', hwrite, hfull, hsame⟩ := fresh_write debug dataBuffer hlarge input hlen
    obtain rfl : c₁ = c' := (Prod.mk.inj (Option.some.inj (hwrite₁.symm.trans hwrite))).1
    have hstored := hexact.full.mp hfull
    rw [nil_append, length_take, hlen, hsame] at hstored
    omega
  · exact fun hsmall ops hops => (holds_fresh hpos hsmall).fifo hops

theorem fifo_iff_sample :
    Fifo true (fresh (fun _ => 0) 8) []
      [.write [1, 2, 3, 4, 5, 6] false, .read 4, .write [7, 8, 9, 10, 11, 12, 13] false, .read 9] :=
  (fifo_iff true (fun _ => 0) 8 (by decide)).mpr (by decide) _ (by decide)

theorem write_wraps : ∃ c c', init true 8 264 (some ()) (some fun _ => 0) = some c ∧
    c.write true (List.replicate 256 7) false = some (c', eok) ∧ c'.isFull = true ∧
    c'.getDataLength = 264 ∧ ¬ c'.Exact (List.replicate 256 7) := by
  obtain ⟨c', hwrite, hfull, hsame⟩ := fresh_write true (fun _ => 0)
    (by decide : 256 < (264 : UInt32).toNat) (List.replicate 256 7) length_replicate
  refine ⟨_, c', rfl, hwrite, hfull, (getDataLength_of_full hfull).trans hsame, fun hexact => ?_⟩
  have hstored := hexact.full.mp hfull
  rw [length_replicate, hsame] at hstored
  exact absurd hstored (by decide)

end

variable {c c' : CircularArea} {d : UInt32}

def ForcedOk (debug : Bool) (c : CircularArea) (input : List UInt8) : Prop :=
  ∃ c', c.write debug input true = some (c', eok) ∧
    c'.contents = (c.contents ++ input).drop
      (c.contents.length + input.length - c.areaLength.toNat)

structure ForcedCond (c : CircularArea) (input : List UInt8) : Prop where
  lengthFits : c.LengthFits
  indexFits : c.writeidx.toNat + (c.cutLength input).toNat < 2 ^ 32
  fills : c.areaLength.toNat ≤ c.contents.length + input.length
  same : c.contents ++ input.take (c.areaLength.toNat - c.contents.length) =
    (c.contents ++ input).drop (c.contents.length + input.length - c.areaLength.toNat)

@[simp] lemma length_contents : c.contents.length = c.getDataLength.toNat := length_window ..

lemma contents_of_full (h : c.isFull = true) :
    c.contents = c.dataBuffer.window c.areaLength.toNat c.readidx.toNat c.areaLength.toNat := by
  rw [contents, getDataLength_of_full h]

lemma getDataLength_le (hpos : 0 < c.areaLength.toNat) :
    c.getDataLength.toNat ≤ c.areaLength.toNat := by
  rw [getDataLength]
  split
  · exact Nat.le_refl _
  · rw [UInt32.toNat_mod]
    exact Nat.le_of_lt (mod_lt _ hpos)

lemma write_forced (hpos : 0 < input.length) (hlt : input.length < 2 ^ 32) :
    c.write debug input true = (c.store input (c.cutLength input)).bind fun c =>
      some ({ c with bStatus := true, readidx := c.writeidx }, eok) :=
  write_of_open debug hpos hlt (by simp)

lemma copyIn_frame {i : UInt32} (h : c.copyIn i bytes = some c') :
    c'.areaLength = c.areaLength ∧ c'.readidx = c.readidx := by
  obtain ⟨-, h⟩ := ite_none_right_eq_some.mp h
  cases h
  exact ⟨rfl, rfl⟩

lemma store_frame (h : c.store input d = some c') :
    c'.areaLength = c.areaLength ∧ c'.readidx = c.readidx := by
  rw [store] at h
  split at h
  · obtain ⟨c₁, h₁, h⟩ := bind_eq_some_iff.mp h
    obtain ⟨c₂, h₂, h⟩ := bind_eq_some_iff.mp h
    cases h
    obtain ⟨hlen₁, hread₁⟩ := copyIn_frame h₁
    obtain ⟨hlen₂, hread₂⟩ := copyIn_frame h₂
    exact ⟨hlen₂.trans hlen₁, hread₂.trans hread₁⟩
  · obtain ⟨c₁, h₁, h⟩ := bind_eq_some_iff.mp h
    cases h
    have hframe := copyIn_frame h₁
    exact hframe

lemma ForcedOk.fills (h : c.ForcedOk debug input) (hpos : 0 < input.length)
    (hlt : input.length < 2 ^ 32) : c.areaLength.toNat ≤ c.contents.length + input.length := by
  obtain ⟨c', hwrite, hcontents⟩ := h
  rw [write_forced hpos hlt] at hwrite
  obtain ⟨c₁, hstore, h⟩ := bind_eq_some_iff.mp hwrite
  cases h
  have hlen := congrArg List.length hcontents
  rw [contents_of_full (isFull_iff.mpr ⟨rfl, rfl⟩), length_window, length_drop,
    length_append] at hlen
  simp only [(store_frame hstore).1] at hlen
  omega

lemma le_index_of_overflow (hb : c.InBounds) (hover : ¬ c.LengthFits)
    (hlt : input.length < 2 ^ 32) (hfills : c.areaLength.toNat ≤ c.contents.length + input.length) :
    2 ^ 32 ≤ c.writeidx.toNat + (c.cutLength input).toNat := by
  have hr := hb.readidx_lt
  have hw := hb.writeidx_lt
  have ha := c.areaLength.toNat_lt
  have hr' := c.readidx.toNat_lt
  have hw' := c.writeidx.toNat_lt
  rw [LengthFits, Nat.not_lt] at hover
  have hfull : ¬ c.isFull = true := by
    rw [isFull_iff]
    rintro ⟨heq, -⟩
    rw [heq] at hover
    omega
  have hsum : (c.writeidx.toUInt32 - c.readidx.toUInt32 + c.areaLength).toNat =
      c.writeidx.toNat + c.areaLength.toNat - c.readidx.toNat - 2 ^ 32 := by
    simp only [UInt32.toNat_add, UInt32.toNat_sub, UInt8.toNat_toUInt32]
    omega
  have hdata : c.getDataLength.toNat =
      c.writeidx.toNat + c.areaLength.toNat - c.readidx.toNat - 2 ^ 32 := by
    rw [getDataLength, if_neg hfull, UInt32.toNat_mod, hsum, mod_eq_of_lt (by omega)]
  rw [length_contents] at hfills
  rw [toNat_cutLength hlt (by omega)]
  omega

lemma forced_contents (debug : Bool) (hb : c.InBounds) (hfits : c.LengthFits)
    (hindex : c.writeidx.toNat + (c.cutLength input).toNat < 2 ^ 32) (hpos : 0 < input.length)
    (hlt : input.length < 2 ^ 32)
    (hfills : c.areaLength.toNat ≤ c.contents.length + input.length) : ∃ c',
    c.write debug input true = some (c', eok) ∧
      c'.contents = c.contents ++ input.take (c.areaLength.toNat - c.contents.length) := by
  have hr := hb.readidx_lt
  obtain ⟨hle, hwrite⟩ := getDataLength_spec hb hfits
  rw [length_contents] at hfills ⊢
  have hcut : (c.cutLength input).toNat = c.areaLength.toNat - c.getDataLength.toNat := by
    rw [toNat_cutLength hlt hle]
    omega
  have hcount : (input.take (c.areaLength.toNat - c.getDataLength.toNat)).length =
      c.areaLength.toNat - c.getDataLength.toNat := length_take_of_le (by omega)
  have hback : (c.writeidx.toNat + (c.areaLength.toNat - c.getDataLength.toNat)) %
      c.areaLength.toNat = c.readidx.toNat := by
    rw [← hwrite, mod_add_mod, Nat.add_assoc, add_sub_of_le hle, add_mod_right, mod_eq_of_lt hr]
  have hstore : c.store input (c.cutLength input) = some _ :=
    store_eq hb (by omega) (by omega) hindex
  rw [write_forced hpos hlt, hstore]
  refine ⟨_, rfl, ?_⟩
  rw [contents_of_full (isFull_iff.mpr ⟨rfl, rfl⟩)]
  simp only [hcut, hback, UInt8.ofNat_toNat]
  have hall := window_putCircle_all (m := c.dataBuffer) hb.writeidx_lt
    (hcount.trans_le (sub_le _ _))
  rw [hcount, ← window_mod, ← window_mod c.dataBuffer, hback, Nat.sub_sub_self hle] at hall
  exact hall

lemma InBounds.forced_iff (hb : c.InBounds) (hpos : 0 < input.length)
    (hlt : input.length < 2 ^ 32) : c.ForcedOk debug input ↔ c.ForcedCond input := by
  constructor
  · intro h
    have hfills := h.fills hpos hlt
    obtain ⟨c', hwrite, hcontents⟩ := h
    have hcut := toNat_cutLength hlt (getDataLength_le hb.pos)
    have hindex : c.writeidx.toNat + (c.cutLength input).toNat < 2 ^ 32 := by
      by_contra hover
      rw [write_forced hpos hlt, store_eq_none hb (by omega) (by omega) (Nat.not_lt.mp hover)]
        at hwrite
      cases hwrite
    have hfits : c.LengthFits := by
      by_contra hover
      exact absurd hindex (Nat.not_lt.mpr (le_index_of_overflow hb hover hlt hfills))
    obtain ⟨c₁, hwrite₁, hcontents₁⟩ := forced_contents debug hb hfits hindex hpos hlt
      hfills
    cases hwrite.symm.trans hwrite₁
    exact ⟨hfits, hindex, hfills, hcontents₁.symm.trans hcontents⟩
  · rintro ⟨hfits, hindex, hfills, hsame⟩
    obtain ⟨c', hwrite, hcontents⟩ := forced_contents debug hb hfits hindex hpos hlt
      hfills
    exact ⟨c', hwrite, hcontents.trans hsame⟩

lemma straight_index_lt {i : UInt8} {a : UInt32} (hpos : 0 < a.toNat) :
    ((i.toUInt32 + d) % a).toUInt8.toNat < a.toNat := by
  rw [UInt32.toNat_toUInt8, UInt32.toNat_mod]
  exact (mod_le _ _).trans_lt (mod_lt _ hpos)

lemma divided_index_lt {i : UInt8} {a : UInt32} (hi : i.toNat < a.toNat)
    (hd : d.toNat ≤ a.toNat) (hdiv : ¬ i.toUInt32 + d ≤ a) :
    (d - (a - i.toUInt32)).toUInt8.toNat < a.toNat := by
  have hlt : a.toNat < i.toNat + d.toNat := by
    rw [UInt32.le_iff_toNat_le, Nat.not_le, UInt32.toNat_add, UInt8.toNat_toUInt32] at hdiv
    exact hdiv.trans_le (mod_le _ _)
  rw [UInt32.toNat_toUInt8, toNat_down hi hlt]
  exact (mod_le _ _).trans_lt (by omega)

lemma InBounds.store (hb : c.InBounds) (hd : d.toNat ≤ c.areaLength.toNat)
    (h : c.store input d = some c') : c'.writeidx.toNat < c'.areaLength.toNat := by
  rw [(store_frame h).1]
  rw [CircularArea.store] at h
  split at h
  · rename_i hdiv
    obtain ⟨c₁, -, h⟩ := bind_eq_some_iff.mp h
    obtain ⟨c₂, -, h⟩ := bind_eq_some_iff.mp h
    cases h
    exact divided_index_lt hb.writeidx_lt hd (by simpa [divideWrData] using hdiv)
  · obtain ⟨c₁, -, h⟩ := bind_eq_some_iff.mp h
    cases h
    exact straight_index_lt hb.pos

lemma InBounds.read {r : CircularArea × List UInt8 × Int} (hb : c.InBounds)
    (h : c.read debug d = some r) : r.1.InBounds := by
  obtain ⟨-, h⟩ := ite_none_left_eq_some.mp h
  split at h
  · cases h
    exact hb
  · have hd := toNat_cut d c.getDataLength
    have hle := getDataLength_le hb.pos
    generalize (if d > c.getDataLength then c.getDataLength else d) = l at hd h
    dsimp only at h
    split at h
    · rename_i hdiv
      obtain ⟨up, -, h⟩ := bind_eq_some_iff.mp h
      obtain ⟨down, -, h⟩ := bind_eq_some_iff.mp h
      cases h
      refine ⟨divided_index_lt hb.readidx_lt (by omega) ?_, hb.writeidx_lt⟩
      simpa [divideRdData] using hdiv
    · obtain ⟨bytes, -, h⟩ := bind_eq_some_iff.mp h
      cases h
      exact ⟨straight_index_lt hb.pos, hb.writeidx_lt⟩

lemma InBounds.write {r : CircularArea × Int} (hb : c.InBounds)
    (h : c.write debug input bForce = some r) : r.1.InBounds := by
  obtain ⟨-, h⟩ := ite_none_left_eq_some.mp h
  split at h
  · cases h
    exact hb
  · obtain ⟨c₁, hstore, h⟩ := bind_eq_some_iff.mp h
    cases h
    have hd := toNat_cut input.length.toUInt32 (c.areaLength - c.getDataLength)
    have hle := getDataLength_le hb.pos
    rw [UInt32.toNat_sub_of_le _ _ (UInt32.le_iff_toNat_le.mpr hle)] at hd
    have hw := hb.store (by omega) hstore
    have hr := hb.readidx_lt
    rw [← (store_frame hstore).1, ← (store_frame hstore).2] at hr
    cases bForce with
    | true => exact ⟨hw, hw⟩
    | false => exact ⟨hr, hw⟩

lemma InBounds.step {op : Op} (hb : c.InBounds) (h : c.step debug op = some c') :
    c'.InBounds := by
  cases op with
  | read dataLength =>
    obtain ⟨r, hr, rfl⟩ := map_eq_some_iff.mp h
    exact hb.read hr
  | write input bForce =>
    obtain ⟨r, hr, rfl⟩ := map_eq_some_iff.mp h
    exact hb.write hr

theorem run_forced_iff (debug : Bool) (dataBuffer : Mem) {areaLength : UInt32}
    (hpos : areaLength ≠ 0) (ops : List Op) :
    Always (step debug) (fun c => ∀ input, 0 < input.length → input.length < 2 ^ 32 →
      (c.ForcedOk debug input ↔ c.ForcedCond input)) (fresh dataBuffer areaLength) ops := by
  have hlt : 0 < areaLength.toNat := Nat.pos_of_ne_zero fun h => hpos (UInt32.toNat_inj.mp h)
  have hrun : Always (step debug) InBounds (fresh dataBuffer areaLength) ops :=
    always_of_step (fun hb h => hb.step h) ⟨hlt, hlt⟩ ops
  exact hrun.mono fun c hb input h0 h1 => hb.forced_iff h0 h1

theorem run_forced_iff_sample :
    ∃ c, runs (step true) (fresh (fun _ => 0) 8) [.write [9, 9, 9] false, .read 3] = some c ∧
      c.readidx = 3 ∧ c.ForcedOk true [1, 2, 3, 4, 5, 6, 7, 8] :=
  ⟨_, rfl, rfl, ((run_forced_iff true (fun _ => 0) (by decide : (8 : UInt32) ≠ 0)
    [.write [9, 9, 9] false, .read 3]).last rfl _ (by decide) (by decide)).mpr
    ⟨by unfold LengthFits; decide, by decide, by decide, by decide⟩⟩

theorem forced_write_garbage :
    ((fresh (fun _ => 0) 8).write true [1] true).map (fun r => r.1.contents) =
      some [0, 0, 0, 0, 0, 0, 0, 1] ∧ ¬ (fresh (fun _ => 0) 8).ForcedOk true [1] := by
  refine ⟨by decide, fun h => ?_⟩
  have hfills := h.fills (by decide) (by decide)
  exact absurd hfills (by decide)

end CircularArea
end Xiuos.Kernel
