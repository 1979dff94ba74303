import Xiuos.Sm4.Cbc

/-! What removing a padding does to arbitrary bytes, and to a message that was padded. -/

namespace Xiuos.Sm4
open Lib List Option Buffer

def zeroPadding (input output : List UInt8) : Option Result := do
  let paddingLen := if input.length % 16 = 0 then input.length + 16
    else input.length + (16 - input.length % 16)
  let output ← write output 0 (replicate paddingLen 0)
  let output ← write output 0 input
  some ⟨paddingLen, output, paddingLen⟩

/-- With nothing left the byte before the buffer is read. -/
def zeroStrip (input : List UInt8) : Nat → Option Nat
  | 0 => none
  | n + 1 => do
    let value ← input[n]?
    if value = 0 then zeroStrip input n else some (n + 1)

variable (input : List UInt8)

def zeroUnPadding (input : List UInt8) (ilen : Nat) : Option Result :=
  if ilen % 16 ≠ 0 then some ⟨sm4BadPaddingFormat, input, ilen⟩
  else do
    let ilen ← zeroStrip input ilen
    some ⟨ilen, input, ilen⟩

def restores (pad : List UInt8 → List UInt8 → Option Result) (buf : List UInt8) (n : Int) : Bool :=
  0 ≤ n && (pad (buf.take n.toNat) (replicate (buf.length + 16) 0)).any fun r =>
    r.res == (buf.length : Int) && r.buf.take buf.length == buf

def sound (unpad : List UInt8 → Option Result) (pad : List UInt8 → List UInt8 → Option Result)
    (buf : List UInt8) : Bool :=
  (unpad buf).any fun r => r.res == sm4BadPaddingFormat || restores pad buf r.res

variable (buf : List UInt8)

def pkcs7Sound (buf : List UInt8) : Bool :=
  sound (fun buf => pkcs7UnPadding buf buf.length) (fun input out => pkcs7Padding input out 0) buf

def zeroSound (buf : List UInt8) : Bool :=
  sound (fun buf => zeroUnPadding buf buf.length) zeroPadding buf

def Pkcs7Padded (buf : List UInt8) : Prop :=
  let v := buf.getD (buf.length - 1) 0
  1 ≤ v.toNat ∧ v.toNat ≤ 16 ∧ v.toNat < buf.length ∧
    buf.drop (buf.length - v.toNat) = replicate v.toNat v

def ZeroPadded (buf : List UInt8) : Prop :=
  let n := (buf.rdropWhile (· = 0)).length
  0 < n ∧ n < buf.length ∧ buf.length ≤ n + 16

variable {buf : List UInt8}

lemma pkcs7UnPadding_eq (hb : buf ≠ []) (h16 : buf.length % 16 = 0) :
    pkcs7UnPadding buf buf.length =
      let v := (buf.getD (buf.length - 1) 0).toNat
      if 1 ≤ v ∧ v ≤ buf.length then
        some ⟨buf.length - v, buf.set (buf.length - v) 0, buf.length - v⟩
      else none := by
  have hpos := length_pos_iff.mpr hb
  have hread : readAt buf (buf.length - 1 : Int) = some (buf.getD (buf.length - 1) 0) := by
    rw [readAt, if_pos (by omega), show (buf.length - 1 : Int).toNat =
      buf.length - 1 by omega, getD_eq_getElem?_getD, getElem?_eq_getElem (by omega), getD_some]
  rw [pkcs7UnPadding, if_neg (by rw [Int.tmod_eq_emod_of_nonneg (by omega)]; omega), hread]
  simp only [bind_eq_bind, bind_some, writeAt]
  generalize (buf.getD (buf.length - 1) 0).toNat = v
  by_cases hv : 1 ≤ v ∧ v ≤ buf.length
  · rw [if_pos (by omega), if_pos hv, show (buf.length - v : Int).toNat = buf.length - v by omega]
    rfl
  · rw [if_neg (by omega), if_neg hv]
    rfl

lemma pkcs7Sound_iff (hb : buf ≠ []) (h16 : buf.length % 16 = 0) :
    pkcs7Sound buf ↔ Pkcs7Padded buf := by
  have hpos := length_pos_iff.mpr hb
  rw [pkcs7Sound, sound, pkcs7UnPadding_eq hb h16, Pkcs7Padded]
  generalize buf.getD (buf.length - 1) 0 = v
  dsimp only
  split
  · rename_i hv
    have hn : (buf.length - v.toNat : Int).toNat = buf.length - v.toNat := by omega
    have hbad : ¬ (buf.length - v.toNat : Int) = sm4BadPaddingFormat := by
      rw [sm4BadPaddingFormat]
      omega
    have htake : (buf.take (buf.length - v.toNat)).length = buf.length - v.toNat := by simp
    simp only [any_some, hbad, restores, hn, Bool.or_eq_true, Bool.and_eq_true, decide_eq_true_eq,
      beq_iff_eq, false_or, (by omega : (0 : Int) ≤ buf.length - v.toNat), true_and]
    by_cases hall : v.toNat = buf.length
    · simp [hall, pkcs7Padding, sm4BadLength]
    · have hne : buf.take (buf.length - v.toNat) ≠ [] := by
        rw [← length_pos_iff, htake]
        omega
      have hlen := padded_length (buf.take (buf.length - v.toNat))
      rw [htake] at hlen
      rw [pkcs7Padding_eq hne, if_pos (by simp; omega)]
      simp only [any_some, Bool.and_eq_true, beq_iff_eq, Nat.cast_inj]
      have hbyte : v.toNat.toUInt8 = v := by simp
      constructor
      · rintro ⟨hl, hbuf⟩
        have hv16 : 16 - (buf.length - v.toNat) % 16 = v.toNat := by omega
        rw [take_left' hl, padded, htake, hv16, hbyte] at hbuf
        refine ⟨hv.1, by omega, by omega, ?_⟩
        nth_rewrite 2 [← hbuf]
        rw [drop_left' htake]
      · rintro ⟨-, hle, -, hdrop⟩
        have hv16 : 16 - (buf.length - v.toNat) % 16 = v.toNat := by omega
        have hl : (padded (buf.take (buf.length - v.toNat))).length = buf.length := by omega
        refine ⟨hl, ?_⟩
        rw [take_left' hl, padded, htake, hv16, hbyte, ← hdrop, take_append_drop]
  · rename_i hv
    simp only [any_none, Bool.false_eq_true, false_iff]
    omega

lemma zeroPadding_eq {input output : List UInt8} {n : Nat} (hn : n = 16 * (input.length / 16 + 1))
    (h : n ≤ output.length) : zeroPadding input output =
      some ⟨n, input ++ (replicate (n - input.length) 0 ++ output.drop n), n⟩ := by
  have hlen : (if input.length % 16 = 0 then input.length + 16
      else input.length + (16 - input.length % 16)) = n := by
    split <;> omega
  simp only [zeroPadding, hlen, write_zero, length_replicate, if_pos h, bind_eq_bind,
    bind_some]
  rw [if_pos (by simp; omega), drop_append_of_le_length (by simp; omega), drop_replicate]
  rfl

lemma zeroStrip_append (input rest : List UInt8) {n : Nat} (hn : n ≤ input.length) :
    zeroStrip (input ++ rest) n = zeroStrip input n := by
  induction n with
  | zero => rfl
  | succ n ih => rw [zeroStrip, zeroStrip, getElem?_append_left (by omega), ih (by omega)]

lemma zeroStrip_eq :
    zeroStrip input input.length =
      (if (input.rdropWhile (· = 0)) = [] then none else some (input.rdropWhile (· = 0)).length) ∧
    input.rdropWhile (· = 0) ++ replicate (input.length - (input.rdropWhile (· = 0)).length) 0 =
      input := by
  induction input using reverseRecOn with
  | nil => exact ⟨rfl, rfl⟩
  | append_singleton input x ih =>
    obtain ⟨hstrip, hsplit⟩ := ih
    have hle := ( rdropWhile_prefix (· = 0) input).length_le
    rw [length_append, length_singleton, zeroStrip, getElem?_concat_length, bind_eq_bind,
      bind_some, zeroStrip_append _ _ le_rfl, hstrip]
    by_cases hx : x = 0
    · rw [if_pos hx, rdropWhile_concat_pos _ _ _ (by simpa using hx),
        Nat.sub_add_comm hle, replicate_succ', ← append_assoc, hsplit, hx]
      exact ⟨rfl, rfl⟩
    · rw [if_neg hx, rdropWhile_concat_neg _ _ _ (by simpa using hx)]
      simp

lemma zeroSound_iff (h16 : buf.length % 16 = 0) : zeroSound buf ↔ ZeroPadded buf := by
  obtain ⟨hstrip, hsplit⟩ := zeroStrip_eq buf
  rw [zeroSound, sound, zeroUnPadding, if_neg (by omega), hstrip, ZeroPadded]
  generalize buf.rdropWhile (· = 0) = front at hsplit ⊢
  have hlen := congrArg length hsplit
  rw [length_append, length_replicate] at hlen
  split
  · simp [*]
  · rename_i hne
    have hpos := length_pos_iff.mpr hne
    have htake : buf.take front.length = front := by rw [← hsplit, take_left]
    have hbad : ¬ (front.length : Int) = sm4BadPaddingFormat := by
      rw [sm4BadPaddingFormat]
      omega
    have hle : 16 * (front.length / 16 + 1) ≤ (replicate (buf.length + 16) (0 : UInt8)).length := by
      rw [length_replicate]
      omega
    have hpad := zeroPadding_eq rfl hle
    simp only [bind_eq_bind, bind_some, any_some, restores, Int.toNat_natCast, htake, hpad, hbad,
      Bool.or_eq_true, Bool.and_eq_true, decide_eq_true_eq, beq_iff_eq, false_or, Nat.cast_inj,
      Nat.cast_nonneg, true_and]
    constructor
    · rintro ⟨hl, -⟩
      exact ⟨hpos, by omega, by omega⟩
    · rintro ⟨-, hlt, hle⟩
      have hl : 16 * (front.length / 16 + 1) = buf.length := by omega
      refine ⟨hl, ?_⟩
      rw [hl, ← append_assoc, hsplit, take_left]

/-- Padding is removed from exactly those buffers that are some bytes with their padding.  All
others give a length that is wrong, or an access outside of the buffer. -/
theorem unPadding_sound_iff {buf : List UInt8} (hb : buf ≠ []) (h16 : buf.length % 16 = 0) :
    (pkcs7Sound buf ↔ Pkcs7Padded buf) ∧ (zeroSound buf ↔ ZeroPadded buf) :=
  ⟨pkcs7Sound_iff hb h16, zeroSound_iff h16⟩

theorem unPadding_not_sound : pkcs7Sound (replicate 15 1 ++ [3]) = false ∧
    pkcs7UnPadding (replicate 15 1 ++ [3]) 16 =
      some ⟨13, replicate 13 1 ++ [0, 1, 3], 13⟩ ∧ zeroUnPadding (replicate 16 0) 16 = none := by
  decide

theorem unPadding_sound_iff_thirteen : pkcs7Sound (replicate 13 1 ++ [3, 3, 3]) :=
  (unPadding_sound_iff (by decide) (by decide)).1.mpr (by unfold Pkcs7Padded; decide)

lemma sms4EcbDecryptBlocks_padded {sm4 : Cipher} (hinv : sm4.Inverse) {key : Block}
    {message enc rest out : List UInt8}
    (h : ecbBlocks (sm4.encrypt key) (message.length / 16 + 1) (padded message) = some enc)
    (hfit : (padded message).length ≤ out.length) :
    sms4EcbDecryptBlocks sm4 (enc ++ rest) (padded message).length out key =
      some (padded message ++ out.drop (padded message).length) := by
  have hlen := padded_length message
  have hblocks : (((padded message).length : Int).tdiv 16).toNat = message.length / 16 + 1 + 0 := by
    rw [Int.tdiv_eq_ediv_of_nonneg (by omega)]
    omega
  obtain ⟨tail, htail⟩ := ecbBlocks_inverse hinv h (by omega : 16 * 0 ≤ rest.length)
  have htlen := ecbBlocks_length htail
  rw [take_of_length_le hlen.le] at htail htlen
  have hnil : tail = [] := by
    rw [length_append] at htlen
    exact length_eq_zero_iff.mp (by omega)
  rw [sms4EcbDecryptBlocks, hblocks, htail, hnil, append_nil, bind_eq_bind, bind_some,
    write_zero, if_pos hfit]

lemma pkcs7UnPadding_gives_iff (message rest : List UInt8) (olen : Int) :
    (∃ r, pkcs7UnPadding (padded message ++ rest) olen = some r ∧ r.res = message.length ∧
      r.olen = message.length ∧ r.buf.take message.length = message) ↔
    olen % 16 = 0 ∧ ∃ v, readAt (padded message ++ rest) (olen - 1) = some v ∧
      olen = message.length + v.toNat := by
  have hlen := padded_length message
  have hmod : olen.tmod 16 = 0 ↔ olen % 16 = 0 := by
    rw [← Int.dvd_iff_tmod_eq_zero, Int.dvd_iff_emod_eq_zero]
  rw [pkcs7UnPadding]
  by_cases h16 : olen % 16 = 0
  · rw [if_neg (not_not.mpr (hmod.mpr h16))]
    cases readAt (padded message ++ rest) (olen - 1) with
    | none => simp
    | some v =>
      simp only [bind_eq_bind, bind_some, h16, true_and, Option.some.injEq, exists_eq_left']
      constructor
      · rintro ⟨r, hr, hres, -⟩
        obtain ⟨buf, -, hr⟩ := bind_eq_some_iff.mp hr
        cases hr
        dsimp only at hres
        omega
      · intro h
        have hwrite : writeAt (padded message ++ rest) (olen - v.toNat) 0 =
            some ((padded message ++ rest).set message.length 0) := by
          rw [writeAt, if_pos (by rw [length_append]; omega),
            show (olen - v.toNat).toNat = message.length by omega]
        rw [hwrite]
        refine ⟨_, rfl, by dsimp only; omega, by dsimp only; omega, ?_⟩
        dsimp only
        rw [take_set_of_le le_rfl, padded, append_assoc, take_left]
  · rw [if_pos (mt hmod.mp h16)]
    simp only [h16, false_and, iff_false, not_exists, Option.some.injEq]
    rintro r ⟨rfl, hres, -⟩
    simp only [sm4BadPaddingFormat] at hres
    omega

variable (message out : List UInt8) (olen : Int)

/-- The length in which the caller wants the size of the message is the size of the ciphertext, or
one with which the wrong byte happens to be right. -/
def LengthFits (message out : List UInt8) (olen : Int) : Prop :=
  olen = (padded message).length ∨
  (olen = message.length ∧ message.length % 16 = 0 ∧ message.getLast? = some 0) ∨
  (padded message).length < olen ∧ olen % 16 = 0 ∧
    ∃ v : UInt8, out[(olen - 1).toNat]? = some v ∧ olen = message.length + v.toNat

lemma readAt_padded_iff :
    (olen % 16 = 0 ∧ ∃ v, readAt (padded message ++ out.drop (padded message).length)
      (olen - 1) = some v ∧ olen = message.length + v.toNat) ↔ LengthFits message out olen := by
  have hlen := padded_length message
  have hfront {i : Int} (h0 : 0 ≤ i) (hi : i < message.length) :
      readAt (padded message ++ out.drop (padded message).length) i = message[i.toNat]? := by
    rw [readAt, if_pos h0, padded, append_assoc, getElem?_append_left (by omega)]
  have hbehind {i : Int} (hi : (padded message).length ≤ i) :
      readAt (padded message ++ out.drop (padded message).length) i = out[i.toNat]? := by
    rw [readAt, if_pos (by omega), getElem?_append_right (by omega), getElem?_drop]
    congr 1
    omega
  constructor
  · rintro ⟨h16, v, hread, h⟩
    have hpos : 0 ≤ olen - 1 := by
      by_contra hneg
      rw [readAt, if_neg hneg] at hread
      cases hread
    rcases lt_trichotomy olen (padded message).length with hlt | heq | hgt
    · have hv : v.toNat = 0 := by omega
      have hv0 : v = 0 := UInt8.toNat_inj.mp hv
      rw [hfront hpos (by omega), hv0] at hread
      refine .inr (.inl ⟨by omega, by omega, ?_⟩)
      rw [getLast?_eq_getElem?, ← hread]
      congr 1
      omega
    · exact .inl heq
    · rw [hbehind (by omega)] at hread
      exact .inr (.inr ⟨hgt, h16, v, hread, h⟩)
  · rintro (rfl | ⟨heq, hmod, hlast⟩ | ⟨hgt, h16, v, hv, h⟩)
    · obtain ⟨buf, hpad, hbuf⟩ := pkcs7UnPadding_padded message (out.drop (padded message).length)
      exact (pkcs7UnPadding_gives_iff message _ _).mp ⟨_, hpad, rfl, rfl, hbuf⟩
    · rw [getLast?_eq_getElem?] at hlast
      have hpos := (List.getElem?_eq_some_iff.mp hlast).1
      refine ⟨by omega, 0, ?_, by simp [heq]⟩
      rw [hfront (by omega) (by omega), ← hlast]
      congr 1
      omega
    · exact ⟨h16, v, by rw [hbehind (by omega), hv], h⟩

/-- ECB decryption gives a message back when the caller happens to know its size in advance; CBC
decryption always does. -/
theorem sms4Ecb_roundTrip_iff {sm4 : Cipher} (hinv : sm4.Inverse) {message : List UInt8}
    (hm : message ≠ []) {out₀ out : List UInt8} (hfit₀ : (padded message).length ≤ out₀.length)
    (hfit : (padded message).length ≤ out.length) (key : Block) (olen₀ olen : Int) :
    ((∃ r r', sms4EcbEncryptPkcs7Padding sm4 message out₀ olen₀ key = some r ∧
        sms4EcbDecryptPkcs7Padding sm4 r.buf r.olen out olen key = some r' ∧
        r'.res = message.length ∧ r'.olen = message.length ∧
        r'.buf.take message.length = message) ↔ LengthFits message out olen) ∧
    ∀ iv, ∃ r r', sms4CbcEncryptPkcs7Padding sm4 key message out₀ olen₀ iv = some r ∧
      sms4CbcDecryptPkcs7Padding sm4 key (some r.buf) r.olen out iv = some r' ∧
      r'.res = message.length ∧ r'.olen = message.length ∧
      r'.buf.take message.length = message := by
  constructor
  · obtain ⟨enc, henc, heq⟩ := sms4EcbEncryptPkcs7Padding_eq sm4 hm out₀ olen₀ key
    rw [← readAt_padded_iff, ← pkcs7UnPadding_gives_iff, heq, if_pos hfit₀]
    simp only [Option.some.injEq, exists_and_left, exists_eq_left', sms4EcbDecryptPkcs7Padding,
      sms4EcbDecryptBlocks_padded hinv henc hfit, bind_eq_bind, bind_some]
  · intro iv
    obtain ⟨bs, hbs⟩ := exists_ofBlocks (show (padded message).length % 16 = 0 by
      rw [padded_length]
      omega)
    have hinp : ofBlocks (chain (encryptStep sm4 key) iv bs).1 <+: (some
        (ofBlocks (chain (encryptStep sm4 key) iv bs).1 ++ out₀.drop (padded message).length)).getD
          out := prefix_append ..
    obtain ⟨r', hr'⟩ := sms4CbcDecryptPkcs7Padding_eq (hinv key) hbs hinp hfit
    exact ⟨_, r', sms4CbcEncryptPkcs7Padding_eq hm hfit₀ hbs olen₀ iv, hr'⟩

theorem sms4Ecb_length_unset :
    ((sms4EcbEncryptPkcs7Padding xorCipher [1, 2, 3] (replicate 16 0) 0 (.replicate 16 7)).bind
      fun r => sms4EcbDecryptPkcs7Padding xorCipher r.buf r.olen (replicate 16 0) 0
        (.replicate 16 7)) = none ∧
    ((sms4EcbEncryptPkcs7Padding xorCipher [1, 2, 3] (replicate 16 0) 0 (.replicate 16 7)).bind
      fun r => sms4EcbDecryptPkcs7Padding xorCipher r.buf r.olen (replicate 16 0) 3
        (.replicate 16 7)).map Result.res = some sm4BadPaddingFormat := by
  decide +kernel

theorem sms4Ecb_roundTrip_three : ∃ r r',
    sms4EcbEncryptPkcs7Padding xorCipher [1, 2, 3] (replicate 16 0) 0 (.replicate 16 7) = some r ∧
    sms4EcbDecryptPkcs7Padding xorCipher r.buf r.olen (replicate 16 0) 16 (.replicate 16 7) =
      some r' ∧ r'.res = ([1, 2, 3] : List UInt8).length ∧
    r'.olen = ([1, 2, 3] : List UInt8).length ∧
    r'.buf.take ([1, 2, 3] : List UInt8).length = [1, 2, 3] :=
  (sms4Ecb_roundTrip_iff (fun _ b => xorBlock_cancel b _) (by decide) (by decide) (by decide) _ 0
    16).1.mpr (.inl (by decide))

end Xiuos.Sm4
