import Xiuos.Lib.Slots

namespace Xiuos.Lib.Mem
open List Nat
variable {m m' : Mem} {cap i n : Nat} {bytes : List UInt8}

def window (m : Mem) (cap i n : Nat) : List UInt8 := (List.range n).map fun j => m ((i + j) % cap)

@[simp] lemma length_window (m : Mem) (cap i n : Nat) : (window m cap i n).length = n := by
  simp [window]

lemma window_add (m : Mem) (cap i a b : Nat) :
    window m cap i (a + b) = window m cap i a ++ window m cap (i + a) b := by
  simp [window, range_add, Function.comp_def, Nat.add_assoc]

lemma window_mod (m : Mem) (cap i n : Nat) : window m cap (i % cap) n = window m cap i n := by
  simp [window]

lemma window_congr (h : ∀ j < n, m ((i + j) % cap) = m' ((i + j) % cap)) :
    window m cap i n = window m' cap i n := map_congr_left fun j hj => h j (mem_range.mp hj)

variable {k : Nat}

lemma take_window (hk : k ≤ n) : (window m cap i n).take k = window m cap i k := by
  obtain ⟨l, rfl⟩ := Nat.exists_eq_add_of_le hk
  rw [window_add, take_left' (length_window ..)]

lemma drop_window (hk : k ≤ n) : (window m cap i n).drop k = window m cap (i + k) (n - k) := by
  obtain ⟨l, rfl⟩ := Nat.exists_eq_add_of_le hk
  rw [window_add, drop_left' (length_window ..), Nat.add_sub_cancel_left]

lemma window_eq_get (h : i + n ≤ cap) : window m cap i n = get m i n := by
  refine map_congr_left fun j hj => ?_
  rw [mod_eq_of_lt (by have := mem_range.mp hj; omega)]

lemma window_eq_get_append {up down : Nat} (hi : i + up = cap) (h : down ≤ cap) :
    window m cap i (up + down) = get m i up ++ get m 0 down := by
  rw [window_add, window_eq_get (Nat.le_of_eq hi), hi]
  have hstart := window_mod m cap cap down
  rw [mod_self] at hstart
  rw [← hstart, window_eq_get (by omega)]

def putCircle (m : Mem) (cap i : Nat) (bytes : List UInt8) : Mem :=
  if i + bytes.length ≤ cap then put m i bytes
  else put (put m i (bytes.take (cap - i))) 0 (bytes.drop (cap - i))

section
variable (hi : i < cap)
include hi

lemma putCircle_slot {j : Nat} (hj : j < cap) (hlen : bytes.length ≤ cap) :
    putCircle m cap i bytes ((i + j) % cap) = bytes.getD j (m ((i + j) % cap)) := by
  have hmod : i + j < cap ∧ (i + j) % cap = i + j ∨ cap ≤ i + j ∧ (i + j) % cap = i + j - cap := by
    obtain h | h := Nat.lt_or_ge (i + j) cap
    · exact .inl ⟨h, mod_eq_of_lt h⟩
    · exact .inr ⟨h, by rw [mod_eq_sub_mod h, mod_eq_of_lt (by omega)]⟩
  rw [putCircle]
  split
  · rename_i hfits
    obtain ⟨h, he⟩ | ⟨h, he⟩ := hmod
    · rw [he, put, if_pos (by omega), Nat.add_sub_cancel_left]
    · rw [he, put_of_lt (by omega), getD_eq_default _ _ (by omega)]
  · rename_i hfits
    obtain ⟨h, he⟩ | ⟨h, he⟩ := hmod
    · rw [he, put_of_le (by simp; omega), put, if_pos (by omega), Nat.add_sub_cancel_left]
      simp only [getD_eq_getElem?_getD]
      rw [getElem?_take_of_lt (by omega)]
    · rw [he, put, if_pos (by omega), put_of_lt (by omega)]
      simp only [getD_eq_getElem?_getD, getElem?_drop]
      rw [show cap - i + (i + j - cap - 0) = j by omega]

variable (hlen : bytes.length ≤ cap)
include hlen

lemma window_putCircle : window (putCircle m cap i bytes) cap i bytes.length = bytes := by
  refine ext_getElem (by simp) fun j hj hj' => ?_
  simp only [window, getElem_map, getElem_range]
  rw [putCircle_slot hi (by omega) hlen, getD_eq_getElem _ _ hj']

lemma window_putCircle_rest :
    window (putCircle m cap i bytes) cap (i + bytes.length) (cap - bytes.length) =
      window m cap (i + bytes.length) (cap - bytes.length) := by
  refine window_congr fun j hj => ?_
  rw [Nat.add_assoc, putCircle_slot hi (by omega) hlen, getD_eq_default _ _ (by omega)]

lemma window_putCircle_all :
    window (putCircle m cap i bytes) cap (i + bytes.length) cap =
      window m cap (i + bytes.length) (cap - bytes.length) ++ bytes := by
  have hsplit := window_add (putCircle m cap i bytes) cap (i + bytes.length) (cap - bytes.length)
    bytes.length
  have hround := window_mod (putCircle m cap i bytes) cap (i + cap) bytes.length
  rw [add_mod_right, mod_eq_of_lt hi] at hround
  rw [Nat.sub_add_cancel hlen, window_putCircle_rest hi hlen, Nat.add_assoc,
    add_sub_of_le hlen, ← hround, window_putCircle hi hlen] at hsplit
  exact hsplit

end

lemma window_putCircle_append (hcap : 0 < cap) (hi : (k + n) % cap = i)
    (hlen : n + bytes.length ≤ cap) :
    window (putCircle m cap i bytes) cap k (n + bytes.length) = window m cap k n ++ bytes := by
  have hlt : i < cap := hi ▸ mod_lt _ hcap
  rw [window_add, ← window_mod _ _ (k + n), hi, window_putCircle hlt (by omega)]
  congr 1
  refine window_congr fun j hj => ?_
  have hslot : (k + j) % cap = (i + (cap - n + j)) % cap := by
    rw [← hi, mod_add_mod, show k + n + (cap - n + j) = k + j + cap by omega, add_mod_right]
  rw [hslot, putCircle_slot hlt (by omega) (by omega), getD_eq_default _ _ (by omega)]

end Xiuos.Lib.Mem
