import Mathlib

/-! Buffers of a fixed length, with reads and writes that fail outside of them. -/

namespace Xiuos.Lib.Buffer
open List
variable {α : Type} (buf : List α)

def write (buf : List α) (off : Nat) (xs : List α) : Option (List α) :=
  if off + xs.length ≤ buf.length then
    some (buf.take off ++ (xs ++ buf.drop (off + xs.length)))
  else none

def read (buf : List α) (off n : Nat) : Option (List α) :=
  if off + n ≤ buf.length then some ((buf.drop off).take n) else none

def readAt (buf : List α) (i : Int) : Option α := if 0 ≤ i then buf[i.toNat]? else none

def writeAt (buf : List α) (i : Int) (x : α) : Option (List α) :=
  if 0 ≤ i ∧ i < buf.length then some (buf.set i.toNat x) else none

lemma write_zero (buf xs : List α) :
    write buf 0 xs = if xs.length ≤ buf.length then some (xs ++ buf.drop xs.length) else none := by
  simp [write]

lemma write_append {as bs xs : List α} (cs : List α) (h : bs.length = xs.length) :
    write (as ++ (bs ++ cs)) as.length xs = some (as ++ (xs ++ cs)) := by
  have hdrop : (as ++ (bs ++ cs)).drop (as.length + xs.length) = cs := by
    rw [← h, ← append_assoc, ← length_append, drop_left]
  rw [write, if_pos (by simp [h]), take_left, hdrop]

lemma set_eq_self_iff (as : List α) (i : Nat) (x : α) : as.set i x = as ↔ as.getD i x = x := by
  by_cases hi : i < as.length
  · rw [getD_eq_getElem as x hi]
    constructor
    · intro h
      have hx := getElem_set_self (a := x) (by simpa using hi : i < (as.set i x).length)
      simpa only [h] using hx
    · intro h
      nth_rewrite 1 [← h]
      exact set_getElem_self hi
  · have hle : as.length ≤ i := Nat.le_of_not_lt hi
    simp [set_eq_of_length_le hle, getElem?_eq_none hle]

lemma writeAt_take_iff (as : List α) {bs : List α} (hbs : bs ≠ []) {i : Int}
    (hi : i ≤ as.length) (x : α) :
    (∃ buf, writeAt (as ++ bs) i x = some buf ∧ buf.take as.length = as) ↔
      0 ≤ i ∧ as.getD i.toNat x = x := by
  have hpos := length_pos_iff.mpr hbs
  rw [writeAt, length_append]
  by_cases h0 : 0 ≤ i
  · rw [if_pos ⟨h0, by omega⟩]
    simp only [Option.some.injEq, exists_eq_left', take_set, take_left, h0, true_and,
      set_eq_self_iff]
  · simp [h0]

end Xiuos.Lib.Buffer
