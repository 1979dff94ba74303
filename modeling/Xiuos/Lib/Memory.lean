import Mathlib

namespace Xiuos.Lib

abbrev Mem := Nat → UInt8

namespace Mem

def load (m : Mem) (a : Nat) : Nat → Nat
  | 0 => 0
  | k + 1 => (m a).toNat + 256 * load m (a + 1) k

variable (m : Mem)

def store (m : Mem) (a k v : Nat) : Mem := fun x =>
  if a ≤ x ∧ x < a + k then (v / 256 ^ (x - a)).toUInt8 else m x

def fill (m : Mem) (a n : Nat) (v : UInt8) : Mem := fun x =>
  if a ≤ x ∧ x < a + n then v else m x

def copy (m : Mem) (dst src n : Nat) : Mem := fun x =>
  if dst ≤ x ∧ x < dst + n then m (src + (x - dst)) else m x

variable {m m' : Mem} {a b j k v x : Nat}

lemma load_congr (h : ∀ x, a ≤ x → x < a + k → m' x = m x) : load m' a k = load m a k := by
  induction k generalizing a with
  | zero => rfl
  | succ k ih =>
    rw [load, load, h a (by omega) (by omega), ih fun x h1 h2 => h x (by omega) (by omega)]

lemma eq_of_load_eq (h : load m' a k = load m a k) (h1 : a ≤ x) (h2 : x < a + k) :
    m' x = m x := by
  induction k generalizing a with
  | zero => omega
  | succ k ih =>
    have hb := (m a).toNat_lt
    have hb' := (m' a).toNat_lt
    rw [load, load] at h
    obtain rfl | hlt := Nat.eq_or_lt_of_le h1
    · exact UInt8.toNat_inj.mp (by omega)
    · exact ih (a := a + 1) (by omega) hlt (by omega)

lemma load_lt : load m a k < 256 ^ k := by
  induction k generalizing a with
  | zero => simp [load]
  | succ k ih =>
    have h := ih (a := a + 1)
    have hb := (m a).toNat_lt
    rw [load, pow_succ]
    omega

lemma load_eq_zero (h : ∀ x, a ≤ x → x < a + k → m x = 0) : load m a k = 0 := by
  induction k generalizing a with
  | zero => rfl
  | succ k ih =>
    rw [load, h a (by omega) (by omega), ih fun x h1 h2 => h x (by omega) (by omega)]
    rfl

section
variable (h : x < a ∨ a + k ≤ x)
include h

lemma store_outside : store m a k v x = m x := if_neg (by omega)

lemma fill_outside {v : UInt8} : fill m a k v x = m x := if_neg (by omega)

lemma copy_outside : copy m a b k x = m x := if_neg (by omega)

end

lemma load_store_of_disjoint (h : a + k ≤ b ∨ b + j ≤ a) :
    load (store m a k v) b j = load m b j := load_congr fun _ _ _ => store_outside (by omega)

lemma load_store_part : load (store m a (j + k) v) (a + j) k = v / 256 ^ j % 256 ^ k := by
  induction k generalizing j with
  | zero => simp [load, Nat.mod_one]
  | succ k ih =>
    have hbyte : (store m a (j + (k + 1)) v (a + j)).toNat = v / 256 ^ j % 256 := by
      rw [store, if_pos ⟨by omega, by omega⟩, Nat.add_sub_cancel_left]
      rfl
    have htail := ih (j := j + 1)
    rw [Nat.add_right_comm j 1 k, ← Nat.add_assoc] at htail
    rw [load, hbyte, ← Nat.add_assoc j k 1, htail, pow_succ, pow_succ', ← Nat.div_div_eq_div_mul,
      Nat.mod_mul]

lemma load_store_self : load (store m a k v) a k = v % 256 ^ k := by
  have h := load_store_part (m := m) (a := a) (j := 0) (k := k) (v := v)
  simpa using h

end Mem
end Xiuos.Lib
