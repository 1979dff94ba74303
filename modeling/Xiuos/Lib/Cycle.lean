import Xiuos.Lib.Slots

namespace Xiuos.Lib
open Function List
variable {α : Type} {base : Nat → α} {cap i n : Nat}

def arc (base : Nat → α) (cap i n : Nat) : List α :=
  (List.range n).map fun j => base ((i + j) % cap)

@[simp] lemma length_arc (base : Nat → α) (cap i n : Nat) : (arc base cap i n).length = n := by
  simp [arc]

lemma arc_mod (base : Nat → α) (cap i n : Nat) : arc base cap (i % cap) n = arc base cap i n := by
  simp [arc]

lemma arc_succ (base : Nat → α) (cap i n : Nat) :
    arc base cap i (n + 1) = base (i % cap) :: arc base cap (i + 1) n := by
  simp [arc, range_succ_eq_map, comp_def, Nat.add_assoc, Nat.add_comm 1]

lemma arc_update (hn : n < cap) (a : α) :
    arc (update base ((i + n) % cap) a) cap i (n + 1) = arc base cap i n ++ [a] := by
  rw [arc, range_succ, map_append, map_singleton, update_self]
  congr 1
  refine map_congr_left fun j hj => update_of_ne ?_ _ _
  have hj := mem_range.mp hj
  exact fun heq => hj.ne (Slots.slot_injective i (by omega) hn heq)

end Xiuos.Lib
