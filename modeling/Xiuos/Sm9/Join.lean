import Xiuos.Sm9.BignumLaws

/-! The byte strings of `join.c`: numbers, points and elements of the extension field. -/

namespace Xiuos.Sm9
open Lib List Nat

structure Q2 (α : Type := Big8w) where
  high : α
  low : α
  deriving DecidableEq

structure Q4 (α : Type := Big8w) where
  high : Q2 α
  low : Q2 α
  deriving DecidableEq

structure Q12 (α : Type := Big8w) where
  high : Q4 α
  mid : Q4 α
  low : Q4 α
  deriving DecidableEq

structure G1point where
  x : Big8w
  y : Big8w
  deriving DecidableEq

def wordBytes (elem : UInt32) : List UInt8 :=
  [(elem >>> 24).toUInt8, (elem >>> 16).toUInt8, (elem >>> 8).toUInt8, elem.toUInt8]

def big8wIntou8string (bignum : Big8w) : List UInt8 := bignum.word.reverse.flatMap wordBytes

def Q2.bytes (num : Q2) : List UInt8 := big8wIntou8string num.high ++ big8wIntou8string num.low

def Q4.bytes (num : Q4) : List UInt8 := num.high.bytes ++ num.low.bytes

def q12Intou8string (num : Q12) : List UInt8 := num.high.bytes ++ (num.mid.bytes ++ num.low.bytes)

variable (point : G1point)

def G1point.bytes (point : G1point) : List UInt8 :=
  big8wIntou8string point.x ++ big8wIntou8string point.y

def getU32 (p : List UInt8) : UInt32 :=
  (p.getD 0 0).toUInt32 <<< 24 ||| (p.getD 1 0).toUInt32 <<< 16 ||| (p.getD 2 0).toUInt32 <<< 8 |||
    (p.getD 3 0).toUInt32

def getWords : Nat → List UInt8 → List UInt32
  | 0, _ => []
  | k + 1, p => getU32 p :: getWords k (p.drop 4)

@[simp] lemma getWords_length (k : Nat) (p : List UInt8) : (getWords k p).length = k := by
  induction k generalizing p with
  | zero => rfl
  | succ k ih => simp [getWords, ih]

def u8stringToG1point (string : List UInt8) : G1point :=
  ⟨⟨(getWords 8 string).reverse, by simp⟩, ⟨(getWords 8 (string.drop 32)).reverse, by simp⟩⟩

def joinIDhid (ID : List UInt8) (hid : UInt8) : List UInt8 := ID ++ [hid]

def joinMsgW (message : List UInt8) (w : Q12) : List UInt8 := message ++ q12Intou8string w

def joinIDAIDBRARBg123 (IDChallenger IDResponser : List UInt8) (RChallenger RResponser : G1point)
    (g1 g2 g3 : Q12) : List UInt8 :=
  IDChallenger ++ (IDResponser ++ (RChallenger.bytes ++ (RResponser.bytes ++
    (q12Intou8string g1 ++ (q12Intou8string g2 ++ q12Intou8string g3)))))

def joinCwID (C : G1point) (w : Q12) (ID : List UInt8) : List UInt8 :=
  C.bytes ++ (q12Intou8string w ++ ID)

variable {p : List UInt8}

lemma getU32_val (h : 4 ≤ p.length) : (getU32 p).toNat = Limbs.bigEndian (p.take 4) := by
  obtain ⟨a, b, c, d, rest, rfl⟩ : ∃ a b c d rest, p = a :: b :: c :: d :: rest := by
    match p, h with
    | a :: b :: c :: d :: rest, _ => exact ⟨a, b, c, d, rest, rfl⟩
  have ha := a.toNat_lt
  have hb := b.toNat_lt
  have hc := c.toNat_lt
  have hd := d.toNat_lt
  have h1 : a.toNat <<< 24 ||| b.toNat <<< 16 = (2 ^ 8 * a.toNat + b.toNat) <<< 16 := by
    rw [← shiftLeft_add_eq_or_of_lt (by rw [shiftLeft_eq]; omega)]
    simp only [shiftLeft_eq]
    omega
  have h2 : (2 ^ 8 * a.toNat + b.toNat) <<< 16 ||| c.toNat <<< 8 =
      (2 ^ 8 * (2 ^ 8 * a.toNat + b.toNat) + c.toNat) <<< 8 := by
    rw [← shiftLeft_add_eq_or_of_lt (by rw [shiftLeft_eq]; omega)]
    simp only [shiftLeft_eq]
    omega
  have hsh : ∀ (x : UInt8) (k : UInt32), k.toNat ≤ 24 →
      (x.toUInt32 <<< k).toNat = x.toNat <<< k.toNat := by
    intro x k hk
    have hx := x.toNat_lt
    have hpow : 2 ^ k.toNat ≤ 2 ^ 24 := Nat.pow_le_pow_right (by decide) hk
    have hmul : x.toNat * 2 ^ k.toNat ≤ 255 * 2 ^ 24 := Nat.mul_le_mul (by omega) hpow
    rw [UInt32.toNat_shiftLeft, UInt8.toNat_toUInt32, mod_eq_of_lt (by omega : k.toNat < 32),
      mod_eq_of_lt (by rw [shiftLeft_eq]; omega)]
  simp only [getU32, getD_cons_zero, getD_cons_succ, UInt32.toNat_or,
    UInt8.toNat_toUInt32, hsh a 24 (by decide), hsh b 16 (by decide), hsh c 8 (by decide)]
  rw [show (24 : UInt32).toNat = 24 from rfl, show (16 : UInt32).toNat = 16 from rfl,
    show (8 : UInt32).toNat = 8 from rfl, h1, h2, ← shiftLeft_add_eq_or_of_lt hd, shiftLeft_eq]
  simp [Limbs.bigEndian]
  omega

lemma getWords_val {k : Nat} (h : 4 * k ≤ p.length) :
    Limbs.val (getWords k p).reverse = Limbs.bigEndian (p.take (4 * k)) := by
  induction k generalizing p with
  | zero => rfl
  | succ k ih =>
    have hsplit : p.take (4 * (k + 1)) = p.take 4 ++ (p.drop 4).take (4 * k) := by
      rw [mul_succ, Nat.add_comm, take_add]
    rw [getWords, reverse_cons, Limbs.val_append, ih (by rw [length_drop]; omega),
      Limbs.val_cons, Limbs.val_nil, getU32_val (by omega), hsplit, Limbs.bigEndian_append,
      length_reverse, getWords_length, length_take, length_drop,
      Nat.min_eq_left (by omega), ← Nat.mul_assoc, Nat.mul_zero, Nat.add_zero, Nat.add_comm]

variable (w : UInt32)

lemma wordBytes_length : (wordBytes w).length = 4 := rfl

lemma wordBytes_val : Limbs.bigEndian (wordBytes w) = w.toNat := by
  have hw := w.toNat_lt
  simp only [wordBytes, Limbs.bigEndian, foldl_cons, foldl_nil, UInt32.toNat_toUInt8,
    UInt32.toNat_shiftRight, shiftRight_eq_div_pow, show (24 : UInt32).toNat % 32 = 24 from rfl,
    show (16 : UInt32).toNat % 32 = 16 from rfl, show (8 : UInt32).toNat % 32 = 8 from rfl]
  omega

variable (rest : List UInt8)

lemma getU32_wordBytes : getU32 (wordBytes w ++ rest) = w := by
  rw [← UInt32.toNat_inj, getU32_val (by simp [wordBytes]), take_left' (wordBytes_length w),
    wordBytes_val]

lemma getWords_flatMap (ws : List UInt32) (rest : List UInt8) :
    getWords ws.length (ws.flatMap wordBytes ++ rest) = ws := by
  induction ws with
  | nil => rfl
  | cons w ws ih =>
    rw [flatMap_cons, append_assoc, length_cons, getWords, getU32_wordBytes,
      drop_left' (wordBytes_length w), ih]

@[simp] lemma big8wIntou8string_length (bn : Big8w) : (big8wIntou8string bn).length = 32 := by
  have hlen : ∀ ws : List UInt32, (ws.flatMap wordBytes).length = 4 * ws.length := by
    intro ws
    induction ws with
    | nil => rfl
    | cons w ws ih => simp [wordBytes, ih]; omega
  rw [big8wIntou8string, hlen, length_reverse, bn.size]

lemma getWords_big8wIntou8string (bn : Big8w) (rest : List UInt8) :
    (getWords 8 (big8wIntou8string bn ++ rest)).reverse = bn.word := by
  have h := getWords_flatMap bn.word.reverse rest
  rw [length_reverse, bn.size] at h
  rw [big8wIntou8string, h, reverse_reverse]

lemma u8stringToG1point_bytes : u8stringToG1point (point.bytes ++ rest) = point := by
  cases point
  simp [u8stringToG1point, G1point.bytes, getWords_big8wIntou8string, drop_left']

lemma big8wIntou8string_injective : Function.Injective big8wIntou8string := by
  intro bn bn' h
  have hw := getWords_big8wIntou8string bn []
  rw [h, getWords_big8wIntou8string] at hw
  cases bn
  cases bn'
  simp_all

@[simp] lemma Q2.bytes_length (num : Q2) : num.bytes.length = 64 := by simp [Q2.bytes]

@[simp] lemma Q4.bytes_length (num : Q4) : num.bytes.length = 128 := by simp [Q4.bytes]

@[simp] lemma q12Intou8string_length (num : Q12) : (q12Intou8string num).length = 384 := by
  simp [q12Intou8string]

@[simp] lemma G1point.bytes_length : point.bytes.length = 64 := by simp [G1point.bytes]

lemma append_eq_append_iff_of_length {xs xs' ys ys' : List UInt8} (h : xs.length = xs'.length) :
    xs ++ ys = xs' ++ ys' ↔ xs = xs' ∧ ys = ys' :=
  ⟨fun he => append_inj he h, fun ⟨h1, h2⟩ => by rw [h1, h2]⟩

lemma Q2.bytes_inj {num num' : Q2} : num.bytes = num'.bytes ↔ num = num' := by
  cases num
  cases num'
  simp [Q2.bytes, append_eq_append_iff_of_length, big8wIntou8string_injective.eq_iff]

lemma Q4.bytes_inj {num num' : Q4} : num.bytes = num'.bytes ↔ num = num' := by
  cases num
  cases num'
  simp [Q4.bytes, append_eq_append_iff_of_length, Q2.bytes_inj]

lemma q12Intou8string_inj {num num' : Q12} :
    q12Intou8string num = q12Intou8string num' ↔ num = num' := by
  cases num
  cases num'
  simp [q12Intou8string, append_eq_append_iff_of_length, Q4.bytes_inj]

lemma G1point.bytes_inj {point point' : G1point} :
    point.bytes = point'.bytes ↔ point = point' := by
  cases point
  cases point'
  simp [G1point.bytes, append_eq_append_iff_of_length, big8wIntou8string_injective.eq_iff]

lemma joinIDAIDBRARBg123_inj {IDA IDB : List UInt8} {RA RB RA' RB' : G1point}
    {g1 g2 g3 g1' g2' g3' : Q12} :
    joinIDAIDBRARBg123 IDA IDB RA RB g1 g2 g3 = joinIDAIDBRARBg123 IDA IDB RA' RB' g1' g2' g3' ↔
      RA = RA' ∧ RB = RB' ∧ g1 = g1' ∧ g2 = g2' ∧ g3 = g3' := by
  simp [joinIDAIDBRARBg123, append_eq_append_iff_of_length, G1point.bytes_inj, q12Intou8string_inj]

end Xiuos.Sm9
