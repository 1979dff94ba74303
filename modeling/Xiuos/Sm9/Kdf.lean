import Xiuos.Sm9.Encrypt

/-! Encryption of `sm9.c` with a key stream from the KDF. -/

namespace Xiuos.Sm9
open Lib List Option Buffer

section
variable (sm3 : List UInt8 → Digest) (fresh : Nat → UInt8) (ID : List UInt8)

/-- `K`, once a key is written to it; `fresh` is what `malloc` leaves there. -/
def keyBuffer (klen : UInt32) (key : List UInt8) : List UInt8 :=
  key ++ ((List.range (((klen >>> 8) + 1) * 32).toNat).map fresh).drop key.length

def packagedKey (klen : UInt32) (C : G1point) (w : Q12) : List UInt8 :=
  keyBuffer fresh klen (kdf sm3 (joinCwID C w ID) klen)

def xorBytes (msg K : List UInt8) : List UInt8 := zipWith (· ^^^ ·) msg K

/-- `packages` are the points of successive calls of `SM9KeyPackage`, each with its pairing. -/
def sm9EncryptWithKDF (message : List UInt8) (msglen K2len : UInt32)
    (packages : List (G1point × Q12)) : Option (List UInt8) := do
  let klen := msglen + K2len
  let m := (msglen >>> 3).toNat
  let (C1, w) ← packages.find? fun p =>
    !stringEqualZero fresh (packagedKey sm3 fresh ID klen p.1 p.2) m
  let K := packagedKey sm3 fresh ID klen C1 w
  let C2 := xorBytes (← Buffer.read message 0 m) (← Buffer.read K 0 m)
  let C2K2 ← write ((List.range (m + (K2len >>> 3).toNat)).map fresh) 0 C2
  let C2K2 ← write C2K2 m (← Buffer.read K m ((klen >>> 3).toNat - m))
  some (C1.bytes ++ ((sm3 C2K2).toList ++ C2))

variable (pointInG1 : G1point → Bool) (pairing : G1point → Q12)

/-- What `SM9KeyDepackage` leaves in `K`: its result is not read. -/
def depackagedKey (klen : UInt32) (C : G1point) : List UInt8 :=
  if !pointInG1 C then keyBuffer fresh klen [] else packagedKey sm3 fresh ID klen C (pairing C)

def sm9DecryptWithKDF (message : List UInt8) (msglen K2len : UInt32) (C : List UInt8) :
    Option (Bool × List UInt8) :=
  let m := (msglen >>> 3).toNat
  let K := depackagedKey sm3 fresh ID pointInG1 pairing (msglen + K2len) (u8stringToG1point C)
  if stringEqualZero fresh K m then some (false, message)
  else do
    let C2 ← Buffer.read C 96 m
    let message ← write message 0 (xorBytes (← Buffer.read K 0 m) C2)
    let K2 ← Buffer.read K m (K2len >>> 3).toNat
    let C3 ← Buffer.read C 64 32
    some ((sm3 (C2 ++ K2)).toList == C3, message)

end

variable {sm3 : List UInt8 → Digest} {fresh fresh' : Nat → UInt8} {ID : List UInt8}
  {pointInG1 : G1point → Bool} {pairing : G1point → Q12}

lemma shiftRight_three (n : UInt32) : (n >>> 3).toNat = n.toNat / 8 := by
  rw [UInt32.toNat_shiftRight, Nat.shiftRight_eq_div_pow]
  rfl

variable {msg K : List UInt8}

lemma xorBytes_length (h : msg.length = K.length) : (xorBytes msg K).length = msg.length := by
  simp [xorBytes, h]

lemma xorBytes_xorBytes (h : msg.length = K.length) : xorBytes K (xorBytes msg K) = msg := by
  induction msg generalizing K with
  | nil => simp [xorBytes]
  | cons b msg ih =>
    obtain ⟨c, K, rfl⟩ := exists_cons_of_length_eq_add_one h.symm
    have htail := ih (Nat.succ.inj h)
    simp only [xorBytes, zipWith_cons_cons] at htail ⊢
    rw [htail, UInt8.xor_comm b, ← UInt8.xor_assoc, UInt8.xor_self, UInt8.zero_xor]

variable {key : List UInt8}

lemma stringEqualZero_append {behind : Nat → UInt8} (rest : List UInt8) {n : Nat}
    (h : n ≤ key.length) :
    stringEqualZero behind (key ++ rest) n = stringEqualZero (fun _ => 0) key n := by
  rw [Bool.eq_iff_iff, stringEqualZero, stringEqualZero, List.all_eq_true, List.all_eq_true]
  refine forall₂_congr fun i hi => ?_
  rw [mem_range] at hi
  rw [getD_append _ _ _ _ (by omega), getD_eq_getElem _ _ (by omega),
    getD_eq_getElem _ _ (by omega)]

lemma read_append {key rest : List UInt8} {off n : Nat} (h : off + n ≤ key.length) :
    Buffer.read (key ++ rest) off n = some ((key.drop off).take n) := by
  rw [read_eq (by rw [length_append]; omega), drop_append_of_le_length (by omega),
    take_append_of_le_length (by rw [length_drop]; omega)]

lemma write_end {b x : List UInt8} (a : List UInt8) (h : b.length = x.length) :
    write (a ++ b) a.length x = some (a ++ x) := by simpa using write_append [] h

variable (klen : UInt32)

lemma keyBuffer_length (h : key.length ≤ (klen.toNat + 255) / 256 * 32) :
    (keyBuffer fresh klen key).length = (klen.toNat / 256 + 1) * 32 := by
  have hlt := klen.toNat_lt
  have hsize : (((klen >>> 8) + 1) * 32).toNat = (klen.toNat / 256 + 1) * 32 := by
    have hshift : (klen >>> 8).toNat = klen.toNat / 2 ^ 8 := by
      rw [UInt32.toNat_shiftRight, Nat.shiftRight_eq_div_pow]
      rfl
    rw [UInt32.toNat_mul, UInt32.toNat_add, hshift, UInt32.toNat_one,
      show (32 : UInt32).toNat = 32 from rfl]
    omega
  rw [keyBuffer, length_append, length_drop, length_map, length_range, hsize]
  omega

variable {message buffer : List UInt8} {msglen K2len : UInt32} {k2 : Nat}
  {packages : List (G1point × Q12)} {C1 : G1point} {w : Q12}

lemma sm9EncryptWithKDF_eq (hm : (msglen >>> 3).toNat = message.length)
    (h2 : (K2len >>> 3).toNat = k2) (hk : ((msglen + K2len) >>> 3).toNat = message.length + k2)
    (hp : packages.find? (fun p => !stringEqualZero fresh
      (packagedKey sm3 fresh ID (msglen + K2len) p.1 p.2) (msglen >>> 3).toNat) = some (C1, w))
    (hkey : kdf sm3 (joinCwID C1 w ID) (msglen + K2len) = key)
    (hlen : message.length + k2 ≤ key.length) :
    sm9EncryptWithKDF sm3 fresh ID message msglen K2len packages =
      some (C1.bytes ++ ((sm3 (xorBytes message (key.take message.length) ++
        (key.drop message.length).take k2)).toList ++
        xorBytes message (key.take message.length))) := by
  have hxor : (xorBytes message (key.take message.length)).length = message.length :=
    xorBytes_length (by rw [length_take]; omega)
  have hread : Buffer.read message 0 message.length = some message := by
    rw [read_eq (by omega), drop_zero, take_length]
  have hwrite := write_end (xorBytes message (key.take message.length))
    (by simp; omega : (((range (message.length + k2)).map fresh).drop message.length).length =
      ((key.drop message.length).take k2).length)
  rw [hxor] at hwrite
  simp only [sm9EncryptWithKDF, hp, bind_eq_bind, bind_some]
  simp only [packagedKey, hkey, keyBuffer, hm, h2, hk, Nat.add_sub_cancel_left]
  rw [hread, bind_some, read_append (by omega), bind_some, drop_zero, write_zero,
    if_pos (by simp [hxor]), bind_some, read_append (by omega), bind_some, hxor, hwrite, bind_some]

lemma sm9DecryptWithKDF_eq (hm : (msglen >>> 3).toNat = message.length)
    (h2 : (K2len >>> 3).toNat = k2) (hin : pointInG1 C1)
    (hkey : kdf sm3 (joinCwID C1 (pairing C1) ID) (msglen + K2len) = key)
    (hlen : message.length + k2 ≤ key.length)
    (hzero : stringEqualZero (fun _ => 0) key message.length = false)
    (hbuf : message.length ≤ buffer.length) :
    sm9DecryptWithKDF sm3 fresh ID pointInG1 pairing buffer msglen K2len
      (C1.bytes ++ ((sm3 (xorBytes message (key.take message.length) ++
        (key.drop message.length).take k2)).toList ++
        xorBytes message (key.take message.length))) =
      some (true, message ++ buffer.drop message.length) := by
  have htake : message.length = (key.take message.length).length := by
    rw [length_take]
    omega
  have hxor := xorBytes_length htake
  have hC1 := C1.bytes_length
  have hC3 : ∀ d : Digest, d.toList.length = 32 := fun d => Vector.length_toList ..
  have hdrop : ∀ (d : Digest) (C2 : List UInt8), (C1.bytes ++ (d.toList ++ C2)).drop 96 = C2 := by
    intro d C2
    rw [← append_assoc, drop_left' (by rw [length_append, hC1, hC3])]
  rw [sm9DecryptWithKDF, u8stringToG1point_bytes, depackagedKey, hin, Bool.not_true,
    if_neg Bool.false_ne_true, packagedKey, hkey, keyBuffer]
  simp only [hm, h2]
  rw [stringEqualZero_append _ (by omega), hzero, if_neg Bool.false_ne_true,
    read_eq (by simp [hC1, hxor]; omega), hdrop, bind_eq_bind, bind_some, read_append (by omega),
    drop_zero, take_of_length_le hxor.le]
  simp only [bind_some, xorBytes_xorBytes htake, write_zero, if_pos hbuf, read_append hlen]
  rw [read_eq (by rw [length_append, length_append, hC1, hC3]; omega), bind_some, drop_left' hC1,
    take_left' (hC3 _)]
  simp

lemma sm9DecryptWithKDF_ne_true {C out : List UInt8} (hm : 8 ∣ msglen.toNat)
    (h2 : 8 ∣ K2len.toNat) (hge : 2 ^ 32 ≤ msglen.toNat + K2len.toNat) :
    sm9DecryptWithKDF sm3 fresh ID pointInG1 pairing buffer msglen K2len C ≠ some (true, out) := by
  have hshort : ∀ c, (depackagedKey sm3 fresh ID pointInG1 pairing (msglen + K2len) c).length <
      (msglen >>> 3).toNat + (K2len >>> 3).toNat := by
    have hlen : ∀ c, (depackagedKey sm3 fresh ID pointInG1 pairing (msglen + K2len) c).length =
        ((msglen + K2len).toNat / 256 + 1) * 32 := by
      intro c
      rw [depackagedKey]
      split
      · exact keyBuffer_length _ (Nat.zero_le _)
      · exact keyBuffer_length _ (kdf_length ..).le
    intro c
    have hlt := (msglen + K2len).toNat_lt
    rw [hlen, UInt32.toNat_add, shiftRight_three, shiftRight_three]
    rw [UInt32.toNat_add] at hlt
    omega
  intro h
  rw [sm9DecryptWithKDF] at h
  split at h
  · cases h
  · simp only [bind_eq_bind, bind_eq_some_iff] at h
    obtain ⟨_, _, _, _, _, _, _, hread, _⟩ := h
    rw [Buffer.read, if_neg (Nat.not_le.mpr (hshort _))] at hread
    cases hread

theorem sm9EncryptWithKDF_roundTrip_iff (hm : msglen.toNat = 8 * message.length)
    (h2 : 8 ∣ K2len.toNat) (hin : pointInG1 C1) (hw : pairing C1 = w)
    (hp : packages.find? (fun p => !stringEqualZero fresh
      (packagedKey sm3 fresh ID (msglen + K2len) p.1 p.2) (msglen >>> 3).toNat) = some (C1, w))
    (hbuf : message.length ≤ buffer.length) :
    (∃ C out, sm9EncryptWithKDF sm3 fresh ID message msglen K2len packages = some C ∧
      sm9DecryptWithKDF sm3 fresh' ID pointInG1 pairing buffer msglen K2len C = some (true, out) ∧
      out.take message.length = message) ↔ msglen.toNat + K2len.toNat < 2 ^ 32 := by
  obtain ⟨k2, h2⟩ := h2
  have hm3 : (msglen >>> 3).toNat = message.length := by
    rw [shiftRight_three]
    omega
  have h23 : (K2len >>> 3).toNat = k2 := by
    rw [shiftRight_three]
    omega
  have hkey := kdf_length sm3 (joinCwID C1 w ID) (msglen + K2len)
  have hsum := UInt32.toNat_add msglen K2len
  constructor
  · rintro ⟨C, out, -, hdec, -⟩
    by_contra hge
    exact sm9DecryptWithKDF_ne_true ⟨_, hm⟩ ⟨k2, h2⟩ (Nat.le_of_not_lt hge) hdec
  · intro hlt
    rw [Nat.mod_eq_of_lt hlt] at hsum
    have hk : ((msglen + K2len) >>> 3).toNat = message.length + k2 := by
      rw [shiftRight_three]
      omega
    have hlen : message.length + k2 ≤ (kdf sm3 (joinCwID C1 w ID) (msglen + K2len)).length := by
      omega
    have hzero := find?_some hp
    dsimp only at hzero
    rw [packagedKey, keyBuffer, hm3, stringEqualZero_append _ (by omega),
      Bool.not_eq_true'] at hzero
    rw [← hw] at hp hlen hzero
    exact ⟨_, _, sm9EncryptWithKDF_eq hm3 h23 hk hp rfl hlen,
      sm9DecryptWithKDF_eq hm3 h23 hin rfl hlen hzero hbuf, take_left⟩

section
variable {C : List UInt8}

lemma keyBuffer_const (c : UInt8) : ∃ n, keyBuffer (fun _ => c) klen [] = c :: replicate n c := by
  have hlen : (keyBuffer (fun _ => c) klen []).length = _ := keyBuffer_length klen (Nat.zero_le _)
  refine ⟨klen.toNat / 256 * 32 + 31, ?_⟩
  rw [← replicate_succ, eq_replicate_iff]
  constructor
  · rw [hlen]
    omega
  · simp [keyBuffer]

lemma sm9DecryptWithKDF_const {c : UInt8} (hc : c ≠ 0) (hm : (msglen >>> 3).toNat ≠ 0)
    {r : Bool} {out : List UInt8} (hin : pointInG1 (u8stringToG1point C) = false)
    (h : sm9DecryptWithKDF sm3 (fun _ => c) ID pointInG1 pairing buffer msglen K2len C =
      some (r, out)) : ∃ d rest, C.drop 96 = d :: rest ∧ out[0]? = some (c ^^^ d) := by
  obtain ⟨n, hn⟩ := keyBuffer_const (msglen + K2len) c
  obtain ⟨m, hm⟩ := Nat.exists_eq_succ_of_ne_zero hm
  have hne : stringEqualZero (fun _ => c) (c :: replicate n c) (m + 1) = false := by
    rw [stringEqualZero, List.all_eq_false]
    exact ⟨0, by simp, by simpa using hc⟩
  simp only [sm9DecryptWithKDF, depackagedKey, hin, Bool.not_false, if_true, hn, hm, hne,
    Bool.false_eq_true, if_false, bind_eq_bind, bind_eq_some_iff, Nat.succ_eq_add_one] at h
  obtain ⟨C2, hC2, K1, hK1, message, hwrite, _, _, _, _, hout⟩ := h
  rw [Buffer.read, ite_none_right_eq_some] at hC2 hK1
  rw [write_zero, ite_none_right_eq_some] at hwrite
  obtain ⟨d, rest, hd⟩ := exists_cons_of_ne_nil
    (by rw [Ne, drop_eq_nil_iff]; omega : C.drop 96 ≠ [])
  refine ⟨d, rest, hd, ?_⟩
  cases hout
  rw [← Option.some.inj hwrite.2, ← Option.some.inj hC2.2, ← Option.some.inj hK1.2, hd, drop_zero]
  rfl

/-- A point that is not on the curve is turned down with the same result for any memory only where
there is no message. -/
theorem decrypt_rejects_iff (sm4 : Sm4.Cipher) {key : G1point → Option (List UInt8)}
    {K1len Cbyteslen : UInt32} (hin : pointInG1 (u8stringToG1point C) = false) :
    ((∃ out, ∀ fresh, sm9DecryptWithKDF sm3 fresh ID pointInG1 pairing buffer msglen K2len C =
      some (false, out)) ∧
      ∃ out, sm9DecryptWithSM4 sm4 sm3 (fun c => if !pointInG1 c then none else key c) buffer msglen
        K1len K2len C Cbyteslen = some (false, out)) ↔ msglen >>> 3 = 0 := by
  have hSM4 : ∃ out, sm9DecryptWithSM4 sm4 sm3 (fun c => if !pointInG1 c then none else key c)
      buffer msglen K1len K2len C Cbyteslen = some (false, out) := by
    simp [sm9DecryptWithSM4, hin]
  rw [and_iff_left hSM4]
  constructor
  · rintro ⟨out, hout⟩
    by_contra hm
    rw [← UInt32.toNat_inj] at hm
    obtain ⟨d, rest, hd, h1⟩ := sm9DecryptWithKDF_const (c := 1) (by decide) hm hin (hout _)
    obtain ⟨d', rest', hd', h2⟩ := sm9DecryptWithKDF_const (c := 2) (by decide) hm hin (hout _)
    rw [hd] at hd'
    cases hd'
    rw [h1, Option.some.injEq, UInt8.xor_left_inj] at h2
    exact absurd h2 (by decide)
  · intro hm
    refine ⟨buffer, fun fresh => ?_⟩
    simp [sm9DecryptWithKDF, hm, stringEqualZero]

end

def onesDigest : Digest := .replicate 32 1

def onesQ12 : Q12 :=
  let one : Q2 Big8w := ⟨.one, .one⟩
  ⟨⟨one, one⟩, ⟨one, one⟩, ⟨one, one⟩⟩

def onesPackages : List (G1point × Q12) := [(⟨.one, .one⟩, onesQ12)]

theorem sm9EncryptWithKDF_wrapped :
    onesPackages.find? (fun p => !stringEqualZero (fun _ => 0)
      (packagedKey (fun _ => onesDigest) (fun _ => 0) [] (16 + 0xFFFFFFF8) p.1 p.2)
      ((16 : UInt32) >>> 3).toNat) = some (⟨.one, .one⟩, onesQ12) ∧
    ¬ ∃ C out, sm9EncryptWithKDF (fun _ => onesDigest) (fun _ => 0) [] [1, 2] 16 0xFFFFFFF8
        onesPackages = some C ∧
      sm9DecryptWithKDF (fun _ => onesDigest) (fun _ => 0) [] (fun _ => true) (fun _ => onesQ12)
        [0, 0] 16 0xFFFFFFF8 C = some (true, out) ∧ out.take 2 = [1, 2] := by
  refine ⟨by decide +kernel, ?_⟩
  rintro ⟨C, out, -, hdec, -⟩
  exact sm9DecryptWithKDF_ne_true (by decide) (by decide) (by decide) hdec

theorem sm9EncryptWithKDF_roundTrip_two :
    ∃ C out, sm9EncryptWithKDF (fun _ => onesDigest) (fun _ => 7) [] [1, 2] 16 8 onesPackages =
        some C ∧
      sm9DecryptWithKDF (fun _ => onesDigest) (fun _ => 9) [] (fun _ => true) (fun _ => onesQ12)
        [0, 0] 16 8 C = some (true, out) ∧ out.take 2 = [1, 2] := by
  have hp : onesPackages.find? (fun p => !stringEqualZero (fun _ => 7)
      (packagedKey (fun _ => onesDigest) (fun _ => 7) [] (16 + 8) p.1 p.2)
      ((16 : UInt32) >>> 3).toNat) = some (⟨.one, .one⟩, onesQ12) := by
    decide +kernel
  exact (sm9EncryptWithKDF_roundTrip_iff rfl (by decide) rfl rfl hp (by decide)).mpr (by decide)

theorem sm9DecryptWithKDF_accepts :
    let C := replicate 64 0 ++ replicate 32 1 ++ [0]
    sm9DecryptWithKDF (fun _ => onesDigest) (fun _ => 1) [] (fun _ => false)
      (fun _ => onesQ12) [0] 8 8
      C = some (true, [1]) ∧
    sm9DecryptWithKDF (fun _ => onesDigest) (fun _ => 2) [] (fun _ => false)
      (fun _ => onesQ12) [0] 8 8
      C = some (true, [2]) := by
  decide +kernel

theorem decrypt_rejects_short :
    let C := replicate 64 0 ++ replicate 32 1 ++ [0]
    (∃ out, ∀ fresh, sm9DecryptWithKDF (fun _ => onesDigest) fresh [] (fun _ => false)
      (fun _ => onesQ12) [0] 7 8 C = some (false, out)) ∧
    ∃ out, sm9DecryptWithSM4 identityCipher (fun _ => onesDigest)
      (fun _ => if !false then none else some []) [0] 7 128 8 C 97 = some (false, out) :=
  (decrypt_rejects_iff identityCipher rfl).mpr rfl

end Xiuos.Sm9
