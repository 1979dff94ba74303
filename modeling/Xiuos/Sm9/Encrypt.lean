import Xiuos.Sm4.Mode
import Xiuos.Sm9.Exchange

/-! Key encapsulation of `sm9.c`, and encryption with SM4 on top of it. -/

namespace Xiuos.Sm9
open Lib Sm4 List Option

/-- `behind` is the memory behind the string. -/
def stringEqualZero (behind : Nat → UInt8) (string : List UInt8) (stringlen : Nat) : Bool :=
  (List.range stringlen).all fun i => string.getD i (behind (i - string.length)) == 0

section
variable {G1 G2 GT : Type} [Mul GT] (env : Env) (o : Groups G1 G2 GT) (g : Globals)
  (behind : Nat → UInt8)

/-- The length is a number of bits, and is passed to `StringEqualZero` as one of bytes. -/
def emptyKey (K : List UInt8) (klen : UInt32) : Bool := stringEqualZero behind K klen.toNat

def packageLoop (ID : List UInt8) (PpubE : G1) (klen : UInt32) (QB : G1) :
    List Big8w → Option (List UInt8 × G1)
  | [] => none
  | raw :: draws => do
    let r ← randomNumGenerate g raw
    let temp := o.g1pointMult r QB
    let w ← q12PowerMod env.stray (o.biLinearPairing PpubE o.P2) r
    let K := kdf env.sm3 (joinCwID (o.coords temp) (o.q12 w) ID) klen
    if emptyKey behind K klen then packageLoop ID PpubE klen QB draws else some (K, temp)

def sm9KeyPackage (ID : List UInt8) (hid : UInt8) (PpubE : G1) (klen : UInt32)
    (draws : List Big8w) : Option (List UInt8 × G1) := do
  let h ← env.hash g (joinIDhid ID hid) 0x01
  let QB := o.g1pointAdd (o.g1pointMult h o.P1) PpubE
  packageLoop env o g behind ID PpubE klen QB draws

/-- The key, or `none` where the function returns false. -/
def sm9KeyDepackage (C : G1) (de : G2) (ID : List UInt8) (klen : UInt32) : Option (List UInt8) :=
  if !o.pointInG1 C then none
  else
    let K := kdf env.sm3 (joinCwID (o.coords C) (o.q12 (o.biLinearPairing C de)) ID) klen
    if emptyKey behind K klen then none else some K

end

section

variable {G1 G2 GT : Type} [AddCommGroup G1] [AddCommGroup G2] [CommGroup GT]
  (env : Env) {o : Groups G1 G2 GT} (ex : o.Exact sm9Init.N.val)
include ex
variable {draws : List Big8w} {ID : List UInt8} {klen : UInt32} {de : G2} {C : G1}
  {behind : Nat → UInt8}

lemma packageLoop_depackage {ke h1 : Nat} (hke : ke.Coprime sm9Init.N.val)
    (hde : IsEncryptKey o sm9Init.N.val ke h1 de)
    (hdraws : ∀ raw ∈ draws, raw.val % sm9Init.N.val ≠ 0) {K : List UInt8}
    (h : packageLoop env o sm9Init behind ID (ke • o.P1) klen ((h1 + ke) • o.P1) draws =
      some (K, C)) :
    emptyKey behind K klen = false ∧ ∀ behind', emptyKey behind' K klen = false →
      sm9KeyDepackage env o behind' C de ID klen = some K := by
  induction draws with
  | nil => cases h
  | cons raw draws ih =>
    have hr := hdraws raw (mem_cons_self ..)
    have hlt : raw.val % sm9Init.N.val < sm9Init.N.val := Nat.mod_lt _ (by decide +kernel)
    have hv : (Big8w.ofNat (raw.val % sm9Init.N.val)).val = raw.val % sm9Init.N.val :=
      Big8w.val_ofNat (hlt.trans sm9Init.N.val_lt)
    have hne : (Big8w.ofNat (raw.val % sm9Init.N.val)).val ≠ 0 := by rwa [hv]
    rw [packageLoop, randomNumGenerate_eq, bind_eq_bind, bind_some,
      q12PowerMod_of_ne_zero _ _ hne, bind_eq_bind, bind_some,
      ex.g1pointMult_eq _ _ hne, ← mul_nsmul', hv] at h
    dsimp only at h
    split at h
    · exact ih (fun raw' hmem => hdraws raw' (mem_cons_of_mem _ hmem)) h
    · rename_i hempty
      cases h
      refine ⟨eq_false_of_ne_true hempty, fun behind' hempty' => ?_⟩
      rw [sm9KeyDepackage, pointInG1_exchange ex hke hde hr hlt, pairing_encryptKey ex hde]
      simp [hempty']

omit ex in
lemma emptyKey_eq_false {K : List UInt8} (hK : ∃ i < klen.toNat, K.getD i 0 ≠ 0)
    (behind : Nat → UInt8) : emptyKey behind K klen = false := by
  obtain ⟨i, hi, hne⟩ := hK
  rw [emptyKey, stringEqualZero, List.all_eq_false]
  refine ⟨i, mem_range.mpr hi, ?_⟩
  rw [getD_eq_getElem?_getD] at hne ⊢
  cases hget : K[i]? with
  | none => simp [hget] at hne
  | some c => simpa [hget] using hne

/-- The key that is packed comes out again, with the same memory behind it, and with any memory if
it is not zero. -/
theorem sm9KeyPackage_depackage {hid : UInt8} {ke : Nat} {h1 : Big8w}
    (hke : ke.Coprime sm9Init.N.val) (hh1 : env.hash sm9Init (joinIDhid ID hid) 0x01 = some h1)
    (hde : IsEncryptKey o sm9Init.N.val ke h1.val de)
    (hdraws : ∀ raw ∈ draws, raw.val % sm9Init.N.val ≠ 0) {K : List UInt8}
    (h : sm9KeyPackage env o sm9Init behind ID hid (ke • o.P1) klen draws = some (K, C)) :
    sm9KeyDepackage env o behind C de ID klen = some K ∧
      ∀ behind', (∃ i < klen.toNat, K.getD i 0 ≠ 0) →
        sm9KeyDepackage env o behind' C de ID klen = some K := by
  have hpos : h1.val ≠ 0 := by
    have := (hashDigests_sound hh1).1
    omega
  rw [sm9KeyPackage, hh1, bind_eq_bind, bind_some, ex.g1pointMult_eq _ _ hpos,
    ex.g1pointAdd_eq, ← add_nsmul] at h
  obtain ⟨hempty, hdepackage⟩ := packageLoop_depackage env ex hke hde hdraws h
  exact ⟨hdepackage _ hempty, fun behind' hK => hdepackage _ (emptyKey_eq_false hK _)⟩

end

/-- Only the long strings of the key derivation get another digest. -/
def keyEnv : Env :=
  { sampleEnv with sm3 := fun Z => if Z.length < 100 then sampleEnv.sm3 Z else .replicate 32 3 }

theorem sm9KeyPackage_depackage_one :
    sm9KeyPackage keyEnv residueGroups sm9Init (fun _ => 0) [] 0x02 (1 • residueGroups.P1) 256
      [.one] = some (List.replicate 32 3, 5) ∧
    ∀ behind, sm9KeyDepackage keyEnv residueGroups behind 5 (fifth : ZMod _) [] 256 =
      some (List.replicate 32 3) := by
  have hK : sm9KeyPackage keyEnv residueGroups sm9Init (fun _ => 0) [] 0x02
      (1 • residueGroups.P1) 256 [.one] = some (List.replicate 32 3, 5) := by
    decide +kernel
  refine ⟨hK, fun behind => (sm9KeyPackage_depackage keyEnv residueGroups_exact
    (Nat.coprime_one_left _)
    (by decide +kernel : keyEnv.hash sm9Init (joinIDhid [] 0x02) 0x01 = some (.ofNat 4))
    isEncryptKey_fifth (by decide +kernel) hK).2 behind ⟨0, by decide, by decide⟩⟩

variable (sm4 : Cipher) (sm3 : List UInt8 → Digest)

def sm4EncryptWithEcbMode (message key ciphertext : List UInt8) : Option (List UInt8) := do
  let renckey ← getBlock key
  let r ← sms4EcbEncryptPkcs7Padding sm4 message ciphertext 0 renckey
  some r.buf

def sm4DecryptWithEcbMode (ciphertext : List UInt8) (ciphertextlen : UInt32)
    (message : List UInt8) (msglen : Int) (key : List UInt8) : Option (List UInt8) := do
  let rdeckey ← getBlock key
  let r ← sms4EcbDecryptPkcs7Padding sm4 ciphertext ciphertextlen.toBitVec.toInt message msglen
    rdeckey
  some r.buf

/-- `packages` are the results of successive calls of `SM9KeyPackage`, `fresh` is what `malloc`
leaves in the memory of `C2`. -/
def sm9EncryptWithSM4 (message : List UInt8) (K1len K2len : UInt32) (fresh : Nat → UInt8)
    (packages : List (List UInt8 × G1point)) : Option (List UInt8) := do
  let C2byteslen := ((K1len >>> 7) + 1) * 16
  let (K, C1) ← packages.find? fun p => !stringEqualZero fresh p.1 (K1len >>> 3).toNat
  let C2 ← sm4EncryptWithEcbMode sm4 message K ((List.range C2byteslen.toNat).map fresh)
  let K2 ← Buffer.read K (K1len >>> 3).toNat (K2len >>> 3).toNat
  some (C1.bytes ++ ((sm3 (C2 ++ K2)).toList ++ C2))

def sm9DecryptWithSM4 (depackage : G1point → Option (List UInt8)) (message : List UInt8)
    (msglen K1len K2len : UInt32) (C : List UInt8) (Cbyteslen : UInt32) :
    Option (Bool × List UInt8) :=
  let C2byteslen := Cbyteslen - 96
  match depackage (u8stringToG1point C) with
  | none => some (false, message)
  | some K => do
    let message ← sm4DecryptWithEcbMode sm4 (C.drop 96) C2byteslen message msglen.toBitVec.toInt K
    let C2 ← Buffer.read C 96 C2byteslen.toNat
    let K2 ← Buffer.read K (K1len >>> 3).toNat (K2len >>> 3).toNat
    let C3 ← Buffer.read C 64 32
    some ((sm3 (C2 ++ K2)).toList == C3, message)

variable {fresh : Nat → UInt8} {K2len : UInt32} {K : List UInt8} {C1 : G1point}

lemma read_eq {buf : List UInt8} {off n : Nat} (h : off + n ≤ buf.length) :
    Buffer.read buf off n = some ((buf.drop off).take n) := if_pos h

lemma sm9EncryptWithSM4_eq {message : List UInt8} (hm : message ≠ [])
    {packages : List (List UInt8 × G1point)}
    (hp : packages.find? (fun p => !stringEqualZero fresh p.1 16) = some (K, C1))
    (hK : 16 + (K2len >>> 3).toNat ≤ K.length) :
    ∃ key enc rest, getBlock K = some key ∧
      ecbBlocks (sm4.encrypt key) (message.length / 16 + 1) (padded message) = some enc ∧
      rest.length = 32 - (padded message).length ∧
      sm9EncryptWithSM4 sm4 sm3 message 128 K2len fresh packages =
        if (padded message).length ≤ 32 then
          some (C1.bytes ++ ((sm3 (enc ++ rest ++ (K.drop 16).take (K2len >>> 3).toNat)).toList ++
            (enc ++ rest)))
        else none := by
  obtain ⟨key, hkey⟩ := getBlock_of_le (by omega : 16 ≤ K.length)
  obtain ⟨enc, henc, heq⟩ := sms4EcbEncryptPkcs7Padding_eq sm4 hm ((range 32).map fresh) 0 key
  refine ⟨key, enc, ((range 32).map fresh).drop (padded message).length, hkey, henc,
    by simp, ?_⟩
  rw [sm9EncryptWithSM4]
  simp only [show ((128 : UInt32) >>> 3).toNat = 16 from rfl,
    show (((128 : UInt32) >>> 7 + 1) * 16).toNat = 32 from rfl, hp, bind_eq_bind,
    bind_some, sm4EncryptWithEcbMode, hkey, heq, read_eq hK, length_map, length_range]
  split <;> rfl

lemma sm9DecryptWithSM4_eq {depackage : G1point → Option (List UInt8)}
    (hde : depackage C1 = some K) (hK : 16 + (K2len >>> 3).toNat ≤ K.length) {C2 : List UInt8}
    (hC2 : C2.length = 32) (buffer : List UInt8) (msglen : UInt32) :
    sm9DecryptWithSM4 sm4 sm3 depackage buffer msglen 128 K2len
        (C1.bytes ++ ((sm3 (C2 ++ (K.drop 16).take (K2len >>> 3).toNat)).toList ++ C2)) 128 =
      (sm4DecryptWithEcbMode sm4 C2 32 buffer msglen.toBitVec.toInt K).map (true, ·) := by
  have hC1 := C1.bytes_length
  have hC3 : ∀ d : Digest, d.toList.length = 32 := fun d => Vector.length_toList ..
  have hdrop : ∀ d : Digest, (C1.bytes ++ (d.toList ++ C2)).drop 96 = C2 := by
    intro d
    rw [← append_assoc, drop_left' (by rw [length_append, hC1, hC3])]
  have hlen : ∀ d : Digest, (C1.bytes ++ (d.toList ++ C2)).length = 128 := by
    intro d
    rw [length_append, length_append, hC1, hC3, hC2]
  rw [sm9DecryptWithSM4, u8stringToG1point_bytes, hde]
  simp only [show ((128 : UInt32) >>> 3).toNat = 16 from rfl,
    show (128 : UInt32) - 96 = 32 from rfl,
    show (32 : UInt32).toNat = 32 from rfl, hdrop, read_eq hK]
  rw [read_eq (by rw [hlen]), read_eq (by rw [hlen]; decide), hdrop, drop_left' hC1,
    take_left' (hC3 _), take_of_length_le hC2.le]
  cases sm4DecryptWithEcbMode sm4 C2 32 buffer msglen.toBitVec.toInt K <;> simp

/-- The round trip succeeds exactly for messages shorter than 32 bytes, with the exception of
those of sixteen bytes whose last byte points to a byte of the message other than zero. -/
theorem sm9EncryptWithSM4_roundTrip_iff (hinv : sm4.Inverse) {message : List UInt8}
    (hm : message ≠ []) {packages : List (List UInt8 × G1point)}
    (hp : packages.find? (fun p => !stringEqualZero fresh p.1 16) = some (K, C1))
    (hK : 16 + (K2len >>> 3).toNat ≤ K.length) {depackage : G1point → Option (List UInt8)}
    (hde : depackage C1 = some K) {buffer : List UInt8} (hbuf : 32 ≤ buffer.length) :
    (∃ C out, sm9EncryptWithSM4 sm4 sm3 message 128 K2len fresh packages = some C ∧
      sm9DecryptWithSM4 sm4 sm3 depackage buffer message.length.toUInt32 128 K2len C
        C.length.toUInt32 = some (true, out) ∧
      out.take message.length = message) ↔
    message.length < 32 ∧ (message.length = 16 → (message.getD 15 0).toNat ≤ 16 ∧
      message.getD (16 - (message.getD 15 0).toNat) 0 = 0) := by
  have hpos := length_pos_iff.mpr hm
  have hpad := padded_length message
  obtain ⟨key, enc, rest, hkey, henc, hrest, heq⟩ := sm9EncryptWithSM4_eq sm4 sm3 hm hp hK
  have hlen := ecbBlocks_length henc
  rw [heq]
  split
  · have hC2 : (enc ++ rest).length = 32 := by
      rw [length_append]
      omega
    have hC : (C1.bytes ++ ((sm3 (enc ++ rest ++ (K.drop 16).take (K2len >>> 3).toNat)).toList ++
        (enc ++ rest))).length.toUInt32 = 128 := by
      rw [length_append, length_append, hC2, G1point.bytes_length, Vector.length_toList]
      rfl
    obtain ⟨tail, hdec, htail⟩ := sms4EcbDecryptBlocks_eq hinv henc
      (by omega : rest.length = 16 * (1 - message.length / 16)) (by omega : _ ≤ buffer.length)
    have hne : tail ≠ [] := by
      rintro rfl
      rw [length_nil] at htail
      omega
    have hmsg : message.length.toUInt32.toBitVec.toInt = message.length := by
      have hn : message.length.toUInt32.toNat = message.length := by
        rw [UInt32.toNat_ofNat']
        omega
      rw [BitVec.toInt_eq_toNat_of_lt (by rw [UInt32.toNat_toBitVec]; omega),
        UInt32.toNat_toBitVec, hn]
    have hrun : sm4DecryptWithEcbMode sm4 (enc ++ rest) 32 buffer message.length K =
        (pkcs7UnPadding (message ++ tail) message.length).map Result.buf := by
      rw [← length_append, hC2] at hdec
      simp only [sm4DecryptWithEcbMode, hkey, sms4EcbDecryptPkcs7Padding,
        show (32 : UInt32).toBitVec.toInt = (32 : Nat) from rfl, hdec,
        bind_eq_bind, bind_some]
      cases pkcs7UnPadding (message ++ tail) message.length <;> rfl
    have hun := pkcs7UnPadding_message_iff hm hne
    simp only [Option.some.injEq, exists_and_left, exists_eq_left', hC,
      sm9DecryptWithSM4_eq sm4 sm3 hde hK hC2, hmsg, hrun, Option.map_map, map_eq_some_iff,
      Function.comp_apply, Prod.mk.injEq, true_and]
    constructor
    · rintro ⟨_, ⟨r, hr, rfl⟩, htake⟩
      refine ⟨by omega, fun h16 => ?_⟩
      have h := hun.mp ⟨r, hr, htake⟩ (by omega)
      rwa [h16] at h
    · rintro ⟨-, h⟩
      obtain ⟨r, hr, htake⟩ := hun.mpr fun h0 => by
        have h16 : message.length = 16 := by omega
        rw [h16]
        exact h h16
      exact ⟨_, ⟨r, hr, rfl⟩, htake⟩
  · simp
    omega

def identityCipher : Cipher := ⟨fun _ b => b, fun _ b => b⟩

def sampleKey : List UInt8 := List.replicate 32 1

theorem sm9EncryptWithSM4_sixteen_lost :
    identityCipher.Inverse ∧
    [(sampleKey, ⟨.one, .one⟩)].find? (fun p => !stringEqualZero (fun _ => 0) p.1 16) =
      some (sampleKey, (⟨.one, .one⟩ : G1point)) ∧
    (do
      let C ← sm9EncryptWithSM4 identityCipher (fun _ => .replicate 32 0) (List.replicate 16 1) 128
        128 (fun _ => 0) [(sampleKey, ⟨.one, .one⟩)]
      let (res, out) ← sm9DecryptWithSM4 identityCipher (fun _ => .replicate 32 0)
        (fun _ => some sampleKey) (List.replicate 32 0) 16 128 128 C C.length.toUInt32
      some (res, out.take 16)) = some (true, List.replicate 15 1 ++ [0]) ∧
    List.replicate 15 1 ++ [0] ≠ List.replicate 16 (1 : UInt8) :=
  ⟨fun _ _ => rfl, by decide +kernel, by decide +kernel, by decide⟩

theorem sm9EncryptWithSM4_roundTrip_twenty :
    ∃ C out, sm9EncryptWithSM4 identityCipher (fun _ => .replicate 32 0) (List.replicate 20 1) 128
        128 (fun _ => 0) [(sampleKey, ⟨.one, .one⟩)] = some C ∧
      sm9DecryptWithSM4 identityCipher (fun _ => .replicate 32 0) (fun _ => some sampleKey)
        (List.replicate 32 0) (List.replicate 20 (1 : UInt8)).length.toUInt32 128 128 C
        C.length.toUInt32 = some (true, out) ∧
      out.take (List.replicate 20 (1 : UInt8)).length = List.replicate 20 1 :=
  (sm9EncryptWithSM4_roundTrip_iff identityCipher _ (fun _ _ => rfl) (by decide)
    (by decide +kernel : [(sampleKey, ⟨.one, .one⟩)].find?
      (fun p => !stringEqualZero (fun _ => 0) p.1 16) = some (sampleKey, (⟨.one, .one⟩ : G1point)))
    (by decide) rfl (by decide)).mpr (by decide)

end Xiuos.Sm9
