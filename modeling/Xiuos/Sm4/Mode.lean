import Xiuos.Lib.Buffer

/-! The padding and the ECB mode of `sm4_enc_mode.c`, over an arbitrary block cipher.  `none` is
an access outside of a buffer. -/

namespace Xiuos.Sm4
open Lib Nat Option Buffer

def sm4BadPaddingFormat : Int := -4

def sm4BadLength : Int := -5

abbrev Block := Vector UInt8 16

structure Cipher where
  encrypt : Block → Block → Block
  decrypt : Block → Block → Block

def Cipher.Inverse (sm4 : Cipher) : Prop := ∀ key b, sm4.decrypt key (sm4.encrypt key b) = b

def getBlock (p : List UInt8) : Option Block :=
  if h : (p.take 16).length = 16 then some ⟨(p.take 16).toArray, by simpa using h⟩ else none

structure Result where
  res : Int
  buf : List UInt8
  olen : Int
  deriving DecidableEq

def pkcs7Padding (input output : List UInt8) (olen : Int) : Option Result :=
  if input.length = 0 then some ⟨sm4BadLength, output, olen⟩
  else do
    let paddingValue : UInt8 := (16 - input.length % 16).toUInt8
    let lenAfterPadding := input.length + paddingValue.toNat
    let output ← write output 0 (List.replicate lenAfterPadding 0)
    let output ← write output 0 input
    let output ← write output input.length (List.replicate paddingValue.toNat paddingValue)
    some ⟨lenAfterPadding, output, lenAfterPadding⟩

variable (input : List UInt8)

def pkcs7UnPadding (input : List UInt8) (ilen : Int) : Option Result :=
  if ilen.tmod 16 ≠ 0 then some ⟨sm4BadPaddingFormat, input, ilen⟩
  else do
    let value ← readAt input (ilen - 1)
    let ilen := ilen - value.toNat
    let input ← writeAt input ilen 0
    some ⟨ilen, input, ilen⟩

/-- What the loop over the blocks writes.  Each block is read before its place is written, so
that the input may be the output buffer itself. -/
def ecbBlocks (crypt : Block → Block) : Nat → List UInt8 → Option (List UInt8)
  | 0, _ => some []
  | blocks + 1, inp => do
    let b ← getBlock inp
    let rest ← ecbBlocks crypt blocks (inp.drop 16)
    some ((crypt b).toList ++ rest)

section
variable (sm4 : Cipher)

def sms4EcbEncryptBlocks (inp : List UInt8) (ilen : Int) (out : List UInt8) (key : Block) :
    Option (List UInt8) := do
  let res ← ecbBlocks (sm4.encrypt key) (ilen.tdiv 16).toNat inp
  write out 0 res

def sms4EcbDecryptBlocks (inp : List UInt8) (ilen : Int) (out : List UInt8) (key : Block) :
    Option (List UInt8) := do
  let res ← ecbBlocks (sm4.decrypt key) (ilen.tdiv 16).toNat inp
  write out 0 res

def sms4EcbEncryptPkcs7Padding (inp out : List UInt8) (olen : Int) (key : Block) :
    Option Result := do
  let r ← pkcs7Padding inp out olen
  if r.res < 0 then some r
  else
    let out ← sms4EcbEncryptBlocks sm4 r.buf r.olen r.buf key
    some ⟨r.olen, out, r.olen⟩

def sms4EcbDecryptPkcs7Padding (inp : List UInt8) (ilen : Int) (out : List UInt8) (olen : Int)
    (key : Block) : Option Result := do
  let out ← sms4EcbDecryptBlocks sm4 inp ilen out key
  pkcs7UnPadding out olen

end

def padded (input : List UInt8) : List UInt8 :=
  input ++ List.replicate (16 - input.length % 16) (16 - input.length % 16).toUInt8

lemma padded_length : (padded input).length = 16 * (input.length / 16 + 1) := by
  rw [padded, List.length_append, List.length_replicate]
  omega

lemma pkcs7Padding_eq {input : List UInt8} (h : input ≠ []) (output : List UInt8) (olen : Int) :
    pkcs7Padding input output olen =
      if (padded input).length ≤ output.length then
        some ⟨(padded input).length, padded input ++ output.drop (padded input).length,
          (padded input).length⟩
      else none := by
  have hv : (16 - input.length % 16).toUInt8.toNat = 16 - input.length % 16 := by
    rw [UInt8.toNat_ofNat']
    omega
  have hlen : input.length + (16 - input.length % 16) = (padded input).length := by
    rw [padded, List.length_append, List.length_replicate]
  rw [pkcs7Padding, if_neg (mt List.length_eq_zero_iff.mp h)]
  simp only [hv, hlen, write_zero, List.length_replicate, bind_eq_bind]
  split
  · rw [bind_some, if_pos (by simp; omega), bind_some, ← hlen,
      List.replicate_add, List.append_assoc, List.drop_left' (List.length_replicate ..),
      write_append _ (by simp), padded, List.append_assoc]
    rfl
  · rfl

lemma getBlock_append (b : Block) (rest : List UInt8) : getBlock (b.toList ++ rest) = some b := by
  have h : (b.toList ++ rest).take 16 = b.toList := List.take_left' (Vector.length_toList ..)
  rw [getBlock, dif_pos (by rw [h, Vector.length_toList])]
  simp only [h]
  rfl

variable {p : List UInt8}

lemma getBlock_toList {b : Block} (h : getBlock p = some b) : b.toList = p.take 16 := by
  rw [getBlock] at h
  split at h
  · cases h
    rfl
  · cases h

lemma getBlock_of_le (h : 16 ≤ p.length) : ∃ b, getBlock p = some b := by
  rw [getBlock, dif_pos (by simp [h])]
  exact ⟨_, rfl⟩

variable {inp out : List UInt8} {blocks : Nat} {crypt : Block → Block}

lemma ecbBlocks_length (h : ecbBlocks crypt blocks inp = some out) :
    out.length = 16 * blocks := by
  induction blocks generalizing inp out with
  | zero =>
    cases h
    rfl
  | succ blocks ih =>
    obtain ⟨b, -, h⟩ := bind_eq_some_iff.mp h
    obtain ⟨rest, hrest, h⟩ := bind_eq_some_iff.mp h
    cases h
    simp [ih hrest]
    omega

lemma ecbBlocks_of_le (crypt : Block → Block) {inp : List UInt8} (h : 16 * blocks ≤ inp.length) :
    ∃ out, ecbBlocks crypt blocks inp = some out := by
  induction blocks generalizing inp with
  | zero => exact ⟨[], rfl⟩
  | succ blocks ih =>
    obtain ⟨b, hb⟩ := getBlock_of_le (by omega : 16 ≤ inp.length)
    obtain ⟨rest, hrest⟩ := ih (by rw [List.length_drop]; omega :
      16 * blocks ≤ (inp.drop 16).length)
    exact ⟨_, by rw [ecbBlocks, hb, hrest]; rfl⟩

variable {key : Block}

lemma ecbBlocks_inverse {sm4 : Cipher} (hinv : sm4.Inverse) {blocks more : Nat}
    (h : ecbBlocks (sm4.encrypt key) blocks inp = some out) {rest : List UInt8}
    (hrest : 16 * more ≤ rest.length) :
    ∃ tail, ecbBlocks (sm4.decrypt key) (blocks + more) (out ++ rest) =
      some (inp.take (16 * blocks) ++ tail) := by
  induction blocks generalizing inp out with
  | zero =>
    cases h
    obtain ⟨tail, htail⟩ := ecbBlocks_of_le (sm4.decrypt key) hrest
    exact ⟨tail, by simpa using htail⟩
  | succ blocks ih =>
    obtain ⟨b, hb, h⟩ := bind_eq_some_iff.mp h
    obtain ⟨out, hout, h⟩ := bind_eq_some_iff.mp h
    cases h
    obtain ⟨tail, htail⟩ := ih hout
    refine ⟨tail, ?_⟩
    have hsplit : inp.take (16 * (blocks + 1)) = inp.take 16 ++
      (inp.drop 16).take (16 * blocks) := by rw [mul_succ, Nat.add_comm, List.take_add]
    rw [succ_add, ecbBlocks, List.append_assoc, getBlock_append,
      List.drop_left' (Vector.length_toList ..), htail, bind_eq_bind, bind_some,
      bind_eq_bind, bind_some, hinv, getBlock_toList hb, hsplit, List.append_assoc]

lemma ecbBlocks_append_eq (h : ecbBlocks crypt blocks inp = some out) (rest : List UInt8) :
    ecbBlocks crypt blocks (inp ++ rest) = some out := by
  induction blocks generalizing inp out with
  | zero => exact h
  | succ blocks ih =>
    obtain ⟨b, hb, h⟩ := bind_eq_some_iff.mp h
    obtain ⟨out, hout, h⟩ := bind_eq_some_iff.mp h
    cases h
    have hsplit : inp ++ rest = b.toList ++ (inp.drop 16 ++ rest) := by
      rw [getBlock_toList hb, ← List.append_assoc, List.take_append_drop]
    have hlen : b.toList.length = 16 := Vector.length_toList ..
    rw [hsplit, ecbBlocks, getBlock_append, List.drop_left' hlen, ih hout]
    rfl

lemma sms4EcbEncryptBlocks_eq {sm4 : Cipher} {inp enc : List UInt8}
    (h : ecbBlocks (sm4.encrypt key) blocks inp = some enc) (hlen : inp.length = 16 * blocks)
    (rest : List UInt8) :
    sms4EcbEncryptBlocks sm4 (inp ++ rest) inp.length (inp ++ rest) key = some (enc ++ rest) := by
  have hdiv : ((inp.length : Int).tdiv 16).toNat = blocks := by
    rw [Int.tdiv_eq_ediv_of_nonneg (by omega)]
    omega
  have henc : enc.length = inp.length := (ecbBlocks_length h).trans hlen.symm
  rw [sms4EcbEncryptBlocks, hdiv, ecbBlocks_append_eq h, bind_eq_bind, bind_some,
    write_zero, if_pos (by simp [henc]), henc, List.drop_left]

lemma sms4EcbEncryptPkcs7Padding_eq (sm4 : Cipher) {inp : List UInt8} (h : inp ≠ [])
    (out : List UInt8) (olen : Int) (key : Block) :
    ∃ enc, ecbBlocks (sm4.encrypt key) (inp.length / 16 + 1) (padded inp) = some enc ∧
      sms4EcbEncryptPkcs7Padding sm4 inp out olen key =
        if (padded inp).length ≤ out.length then
          some ⟨(padded inp).length, enc ++ out.drop (padded inp).length, (padded inp).length⟩
        else none := by
  obtain ⟨enc, henc⟩ := ecbBlocks_of_le (sm4.encrypt key) (padded_length inp).ge
  refine ⟨enc, henc, ?_⟩
  rw [sms4EcbEncryptPkcs7Padding, pkcs7Padding_eq h]
  split
  · simp [sms4EcbEncryptBlocks_eq henc (padded_length inp)]
  · rfl

lemma sms4EcbDecryptBlocks_eq {sm4 : Cipher} (hinv : sm4.Inverse) {inp enc rest out : List UInt8}
    {more : Nat} (h : ecbBlocks (sm4.encrypt key) (inp.length / 16 + 1) (padded inp) = some enc)
    (hrest : rest.length = 16 * more) (hfit : enc.length + rest.length ≤ out.length) :
    ∃ tail, sms4EcbDecryptBlocks sm4 (enc ++ rest) (enc.length + rest.length : Nat) out key =
      some (inp ++ tail) ∧ inp.length + tail.length = out.length := by
  have hlen := ecbBlocks_length h
  have hblocks : (((enc.length + rest.length : Nat) : Int).tdiv 16).toNat =
      inp.length / 16 + 1 + more := by
    rw [Int.tdiv_eq_ediv_of_nonneg (by omega)]
    omega
  obtain ⟨tail, htail⟩ := ecbBlocks_inverse hinv h hrest.ge
  have htlen := ecbBlocks_length htail
  rw [List.take_of_length_le (padded_length inp).le] at htail htlen
  rw [sms4EcbDecryptBlocks, hblocks, htail, bind_eq_bind, bind_some,
    write_zero, if_pos (by omega), padded, List.append_assoc, List.append_assoc]
  refine ⟨_, rfl, ?_⟩
  rw [← List.length_append, ← List.append_assoc, ← List.append_assoc, ← padded, List.length_append,
    List.length_drop]
  omega

lemma pkcs7UnPadding_message_iff {message rest : List UInt8} (hm : message ≠ [])
    (hr : rest ≠ []) :
    (∃ r, pkcs7UnPadding (message ++ rest) message.length = some r ∧
      r.buf.take message.length = message) ↔
    (message.length % 16 = 0 →
      (message.getD (message.length - 1) 0).toNat ≤ message.length ∧
      message.getD (message.length - (message.getD (message.length - 1) 0).toNat) 0 = 0) := by
  have hpos := List.length_pos_iff.mpr hm
  rw [pkcs7UnPadding]
  by_cases hmod : message.length % 16 = 0
  · have hread : readAt (message ++ rest) (message.length - 1 : Int) =
        some (message.getD (message.length - 1) 0) := by
      rw [readAt, if_pos (by omega), show (message.length - 1 : Int).toNat =
        message.length - 1 by omega, List.getElem?_append_left (by omega),
        List.getD_eq_getElem?_getD, List.getElem?_eq_getElem (by omega)]
      rfl
    rw [if_neg (by rw [Int.tmod_eq_emod_of_nonneg (by omega)]; omega), hread]
    generalize message.getD (message.length - 1) 0 = value
    have hwrite := writeAt_take_iff message hr
      (by omega : (message.length - value.toNat : Int) ≤ message.length) 0
    rw [show (message.length - value.toNat : Int).toNat = message.length - value.toNat by omega,
      Int.sub_nonneg, cast_le] at hwrite
    simp only [hmod, bind_eq_bind, bind_some, forall_const, ← hwrite]
    cases writeAt (message ++ rest) (message.length - value.toNat) 0 <;> simp
  · rw [if_pos (by rw [Int.tmod_eq_emod_of_nonneg (by omega)]; omega)]
    simp [hmod]

end Xiuos.Sm4
