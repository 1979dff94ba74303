import Xiuos.Lib.Memory

namespace Xiuos.Lib
open List Nat

namespace Mem
variable {m : Mem} {a b n : Nat} {bytes bytes' : List UInt8}

def put (m : Mem) (a : Nat) (bytes : List UInt8) : Mem := fun x =>
  if a ≤ x then bytes.getD (x - a) (m x) else m x

def get (m : Mem) (a n : Nat) : List UInt8 := (List.range n).map fun j => m (a + j)

def Has (m : Mem) (a : Nat) (bytes : List UInt8) : Prop :=
  ∀ j byte, bytes[j]? = some byte → m (a + j) = byte

lemma put_of_lt {x : Nat} (h : x < a) : put m a bytes x = m x := if_neg (Nat.not_le.mpr h)

lemma put_of_le {x : Nat} (h : a + bytes.length ≤ x) : put m a bytes x = m x := by
  rw [put, if_pos (by omega), getD_eq_default _ _ (by omega)]

lemma has_put : Has (put m a bytes) a bytes := by
  intro j byte hj
  rw [put, if_pos (Nat.le_add_right a j), Nat.add_sub_cancel_left, getD_eq_getElem?_getD, hj,
    Option.getD_some]

lemma Has.put (h : Has m b bytes') (hdisj : a + bytes.length ≤ b ∨ b + bytes'.length ≤ a) :
    Has (put m a bytes) b bytes' := by
  intro j byte hj
  have hlt := (List.getElem?_eq_some_iff.mp hj).1
  rw [← h j byte hj]
  obtain hle | hle := hdisj
  · exact put_of_le (by omega)
  · exact put_of_lt (by omega)

end Mem

def Agree (sent received : List UInt8) : Prop :=
  ∀ j byte, sent[j]? = some byte → j < received.length → received[j]? = some byte

lemma Mem.Has.agree {m : Mem} {a : Nat} {bytes : List UInt8} (h : m.Has a bytes) (n : Nat) :
    Agree bytes (m.get a n) := by
  intro j byte hj hlt
  have hn : j < n := by simpa [Mem.get] using hlt
  simp [Mem.get, hn, h j byte hj]

structure Slots (m : Mem) (len cap index : Nat) (ps : List (List UInt8)) : Prop where
  length_le : ps.length ≤ cap
  index_lt : 0 < cap → index < cap
  fits : ∀ p ∈ ps, p.length ≤ len
  holds : ∀ i p, ps[i]? = some p → m.Has ((index + i) % cap * len) p

namespace Slots
variable {m : Mem} {len cap index : Nat} {p : List UInt8} {ps : List (List UInt8)}

lemma nil (m : Mem) (len cap : Nat) : Slots m len cap 0 [] :=
  ⟨Nat.zero_le cap, id, by simp, by simp⟩

lemma apart (len : Nat) {i j : Nat} (hne : i ≠ j) :
    i * len + len ≤ j * len ∨ j * len + len ≤ i * len := by
  obtain h | h := Nat.lt_or_gt_of_ne hne
  · exact .inl (succ_mul i len ▸ Nat.mul_le_mul_right len h)
  · exact .inr (succ_mul j len ▸ Nat.mul_le_mul_right len h)

lemma slot_injective (index : Nat) {i j : Nat} (hi : i < cap) (hj : j < cap)
    (h : (index + i) % cap = (index + j) % cap) : i = j := by
  have hmod : i ≡ j [MOD cap] := Nat.ModEq.add_left_cancel' index h
  rwa [Nat.ModEq, mod_eq_of_lt hi, mod_eq_of_lt hj] at hmod

lemma push (h : Slots m len cap index ps) (hlt : ps.length < cap) (hp : p.length ≤ len) :
    Slots (m.put ((index + ps.length) % cap * len) p) len cap index (ps ++ [p]) := by
  refine ⟨by simpa using hlt, h.index_lt, ?_, ?_⟩
  · intro q hq
    obtain hq | hq := mem_append.mp hq
    · exact h.fits q hq
    · rwa [mem_singleton.mp hq]
  · intro i q hq
    by_cases hi : i < ps.length
    · rw [getElem?_append_left hi] at hq
      have hlen := h.fits q (mem_of_getElem? hq)
      have hne : (index + ps.length) % cap ≠ (index + i) % cap := fun he =>
        absurd (slot_injective index hlt (by omega) he) (by omega)
      refine (h.holds i q hq).put ?_
      obtain hle | hle := apart len hne
      · exact .inl (by omega)
      · exact .inr (by omega)
    · obtain rfl : i = ps.length := by
        have := (List.getElem?_eq_some_iff.mp hq).1
        simp only [length_append, length_singleton] at this
        omega
      rw [getElem?_concat_length] at hq
      cases hq
      exact Mem.has_put

lemma head (h : Slots m len cap index (p :: ps)) : m.Has (index * len) p := by
  have hcap : 0 < cap := Nat.lt_of_lt_of_le (succ_pos _) h.length_le
  have hhead := h.holds 0 p rfl
  rwa [Nat.add_zero, mod_eq_of_lt (h.index_lt hcap)] at hhead

lemma pop (h : Slots m len cap index (p :: ps)) : Slots m len cap ((index + 1) % cap) ps := by
  refine ⟨le_of_succ_le h.length_le, mod_lt _, fun q hq => ?_, fun i q hq => ?_⟩
  · exact h.fits q (mem_cons_of_mem p hq)
  · have hnext := h.holds (i + 1) q hq
    rwa [mod_add_mod, Nat.add_assoc, Nat.add_comm 1 i]

end Slots
end Xiuos.Lib
