import Xiuos.Lib.Chaining
import Xiuos.Sm4.Mode

/-! The CBC mode of `sm4_enc_mode.c`.  An input `none` is the output buffer itself. -/

namespace Xiuos.Sm4
open Lib List Option

def xorBlock (a b : Block) : Block := Vector.zipWith (fun x y => x ^^^ y) a b

structure CbcResult extends Result where
  iv : Block
  deriving DecidableEq

/-- The loop over the blocks: `step` makes of the vector and a block of the input what is written
to the output and the next vector. -/
def cbcBlocks (step : Block → Block → Block × Block) (inp : Option (List UInt8)) :
    Nat → Nat → List UInt8 → Block → Option (List UInt8 × Block)
  | 0, _, out, iv => some (out, iv)
  | blocks + 1, off, out, iv => do
    let b ← getBlock ((inp.getD out).drop off)
    let out ← Buffer.write out off (step iv b).1.toList
    cbcBlocks step inp blocks (off + 16) out (step iv b).2

section
variable (sm4 : Cipher) (key : Block)

def encryptStep (iv b : Block) : Block × Block :=
  let c := sm4.encrypt key (xorBlock b iv)
  (c, c)

def decryptStep (iv c : Block) : Block × Block := (xorBlock (sm4.decrypt key c) iv, c)

def sms4CbcEncryptBlocks (inp : Option (List UInt8)) (ilen : Int) (out : List UInt8) (iv : Block) :
    Option (List UInt8 × Block) :=
  cbcBlocks (encryptStep sm4 key) inp (ilen.tdiv 16).toNat 0 out iv

def sms4CbcDecryptBlocks (inp : Option (List UInt8)) (ilen : Int) (out : List UInt8) (iv : Block) :
    Option (List UInt8 × Block) :=
  cbcBlocks (decryptStep sm4 key) inp (ilen.tdiv 16).toNat 0 out iv

def cbcNoPadding (blocks : Option (List UInt8) → Int → List UInt8 → Block →
    Option (List UInt8 × Block))
    (inp : Option (List UInt8)) (ilen : Int) (out : List UInt8) (olen : Int) (iv : Block) :
    Option CbcResult :=
  if ilen.tmod 16 ≠ 0 then some ⟨⟨sm4BadLength, out, olen⟩, iv⟩
  else do
    let (out, iv) ← blocks inp ilen out iv
    some ⟨⟨ilen, out, ilen⟩, iv⟩

def sms4CbcDecryptNoPadding (inp : Option (List UInt8)) (ilen : Int) (out : List UInt8) (olen : Int)
    (iv : Block) : Option CbcResult :=
  cbcNoPadding (sms4CbcDecryptBlocks sm4 key) inp ilen out olen iv

def sms4CbcEncryptNoPadding (inp : Option (List UInt8)) (ilen : Int) (out : List UInt8) (olen : Int)
    (iv : Block) : Option CbcResult :=
  cbcNoPadding (sms4CbcEncryptBlocks sm4 key) inp ilen out olen iv

def sms4CbcEncryptPkcs7Padding (inp out : List UInt8) (olen : Int) (iv : Block) :
    Option CbcResult := do
  let r ← pkcs7Padding inp out olen
  if r.res < 0 then some ⟨r, iv⟩
  else
    let (out, iv) ← sms4CbcEncryptBlocks sm4 key none r.olen r.buf iv
    some ⟨⟨r.olen, out, r.olen⟩, iv⟩

def sms4CbcDecryptPkcs7Padding (inp : Option (List UInt8)) (ilen : Int) (out : List UInt8)
    (iv : Block) : Option CbcResult := do
  let (out, iv) ← sms4CbcDecryptBlocks sm4 key inp ilen out iv
  let r ← pkcs7UnPadding out ilen
  some ⟨r, iv⟩

end

def ofBlocks (bs : List Block) : List UInt8 := bs.flatMap Vector.toList

lemma ofBlocks_length (bs : List Block) : (ofBlocks bs).length = 16 * bs.length := by
  induction bs with
  | nil => rfl
  | cons b bs ih =>
    rw [ofBlocks, flatMap_cons, length_append, Vector.length_toList, length_cons, ← ofBlocks, ih]
    omega

lemma exists_ofBlocks {p : List UInt8} (h : p.length % 16 = 0) : ∃ bs, p = ofBlocks bs := by
  obtain ⟨n, hn⟩ : ∃ n, p.length = 16 * n := ⟨p.length / 16, by omega⟩
  clear h
  induction n generalizing p with
  | zero => exact ⟨[], length_eq_zero_iff.mp hn⟩
  | succ n ih =>
    obtain ⟨b, hb⟩ := getBlock_of_le (show 16 ≤ p.length by omega)
    obtain ⟨bs, hbs⟩ := ih (p := p.drop 16) (by rw [length_drop]; omega)
    refine ⟨b :: bs, ?_⟩
    rw [ofBlocks, flatMap_cons, ← ofBlocks, ← hbs, getBlock_toList hb, take_append_drop]

variable {inp : Option (List UInt8)}

lemma input_next {front first others behind : List UInt8} {b c : Block}
    (h : (inp.getD (front ++ (first ++ others))).drop front.length = b.toList ++ behind)
    (hfirst : first.length = 16) :
    (inp.getD ((front ++ c.toList) ++ others)).drop (front ++ c.toList).length = behind := by
  have hb : b.toList.length = 16 := Vector.length_toList ..
  have hc : c.toList.length = 16 := Vector.length_toList ..
  cases inp with
  | some p =>
    have hdrop := congrArg (List.drop 16) h
    rw [drop_left' hb, drop_drop] at hdrop
    rwa [length_append, hc]
  | none =>
    simp only [getD_none, drop_left] at h ⊢
    exact (append_inj h (hfirst.trans hb.symm)).2

variable (step : Block → Block → Block × Block)

lemma cbcBlocks_eq (bs : List Block) {front old rest behind : List UInt8}
    (hinp : (inp.getD (front ++ (old ++ rest))).drop front.length = ofBlocks bs ++ behind)
    (hold : old.length = 16 * bs.length) (iv : Block) :
    cbcBlocks step inp bs.length front.length (front ++ (old ++ rest)) iv =
      some (front ++ (ofBlocks (chain step iv bs).1 ++ rest), (chain step iv bs).2) := by
  induction bs generalizing front old iv with
  | nil =>
    rw [length_eq_zero_iff.mp hold]
    rfl
  | cons b bs ih =>
    rw [ofBlocks, flatMap_cons, ← ofBlocks, append_assoc] at hinp
    obtain ⟨first, others, rfl, hfirst⟩ : ∃ first others, old = first ++ others ∧
      first.length = 16 := ⟨old.take 16, old.drop 16, (take_append_drop ..).symm, by
        rw [length_take]; rw [length_cons] at hold; omega⟩
    have hc : (step iv b).1.toList.length = 16 := Vector.length_toList ..
    have hothers : others.length = 16 * bs.length := by
      rw [length_append, length_cons] at hold
      omega
    rw [append_assoc] at hinp
    have hih := ih (input_next (c := (step iv b).1) hinp hfirst) hothers (step iv b).2
    rw [length_append, hc, append_assoc, append_assoc] at hih
    rw [length_cons, cbcBlocks, append_assoc, hinp, getBlock_append,
      bind_eq_bind, bind_some, Buffer.write_append _ (hfirst.trans hc.symm),
      bind_eq_bind, bind_some, hih, chain, ofBlocks, ofBlocks, flatMap_cons, append_assoc]

variable {bs : List Block}

lemma cbcBlocks_message {out : List UInt8} (hinp : ofBlocks bs <+: inp.getD out)
    (hfit : (ofBlocks bs).length ≤ out.length) (iv : Block) :
    cbcBlocks step inp (((ofBlocks bs).length : Int).tdiv 16).toNat 0 out iv =
      some (ofBlocks (chain step iv bs).1 ++ out.drop (ofBlocks bs).length,
        (chain step iv bs).2) := by
  obtain ⟨behind, hbehind⟩ := hinp
  have hlen := ofBlocks_length bs
  have hblocks : (((ofBlocks bs).length : Int).tdiv 16).toNat = bs.length := by
    rw [Int.tdiv_eq_ediv_of_nonneg (by omega)]
    omega
  rw [hblocks]
  have hold : (out.take (ofBlocks bs).length).length = 16 * bs.length := by
    rw [length_take]
    omega
  have hsplit : [] ++ (out.take (ofBlocks bs).length ++ out.drop (ofBlocks bs).length) = out := by
    simp
  have hdrop : (inp.getD ([] ++ (out.take (ofBlocks bs).length ++
    out.drop (ofBlocks bs).length))).drop
      ([] : List UInt8).length = ofBlocks bs ++ behind := by
    rw [hsplit]
    exact hbehind.symm
  have hloop := cbcBlocks_eq step bs hdrop hold iv
  rwa [hsplit] at hloop

lemma xorBlock_cancel (a b : Block) : xorBlock (xorBlock a b) b = a := by
  ext i hi
  simp [xorBlock]

lemma decryptStep_encryptStep {sm4 : Cipher} {key : Block}
    (hinv : ∀ b, sm4.decrypt key (sm4.encrypt key b) = b) (iv b : Block) :
    decryptStep sm4 key iv (encryptStep sm4 key iv b).1 = (b, (encryptStep sm4 key iv b).2) := by
  simp [decryptStep, encryptStep, hinv, xorBlock_cancel]

lemma pkcs7UnPadding_padded (message rest : List UInt8) :
    ∃ buf, pkcs7UnPadding (padded message ++ rest) (padded message).length =
      some ⟨message.length, buf, message.length⟩ ∧ buf.take message.length = message := by
  have hlen := padded_length message
  have hlast : Buffer.readAt (padded message ++ rest) ((padded message).length - 1 : Int) =
      some (16 - message.length % 16).toUInt8 := by
    have hidx : ((padded message).length - 1 : Int).toNat = (padded message).length - 1 := by omega
    have hrep : (padded message).length - 1 - message.length < 16 - message.length % 16 := by omega
    rw [Buffer.readAt, if_pos (by omega), hidx, getElem?_append_left (by omega), padded,
      getElem?_append_right (by rw [← padded]; omega), ← padded, getElem?_replicate_of_lt hrep]
  have hvalue : (16 - message.length % 16).toUInt8.toNat = 16 - message.length % 16 := by
    rw [UInt8.toNat_ofNat']
    omega
  have hshort : ((padded message).length - (16 - message.length % 16 : Nat) : Int) =
      message.length := by omega
  have hwrite : Buffer.writeAt (padded message ++ rest) message.length 0 =
      some ((padded message ++ rest).set message.length 0) := by
    rw [Buffer.writeAt, if_pos (by rw [length_append]; omega), Int.toNat_natCast]
  refine ⟨(padded message ++ rest).set message.length 0, ?_, ?_⟩
  · rw [pkcs7UnPadding, if_neg (by rw [Int.tmod_eq_emod_of_nonneg (by omega)]; omega), hlast]
    simp only [bind_eq_bind, bind_some, hvalue, hshort, hwrite]
  · rw [take_set_of_le (Nat.le_refl _), padded, append_assoc, take_left]

section
variable {sm4 : Cipher} {key : Block} {message out : List UInt8}

lemma sms4CbcEncryptPkcs7Padding_eq (hm : message ≠ [])
    (hfit : (padded message).length ≤ out.length) (hbs : padded message = ofBlocks bs) (olen : Int)
    (iv : Block) :
    sms4CbcEncryptPkcs7Padding sm4 key message out olen iv =
      some ⟨⟨(padded message).length, ofBlocks (chain (encryptStep sm4 key) iv bs).1 ++
        out.drop (padded message).length, (padded message).length⟩,
        (chain (encryptStep sm4 key) iv bs).2⟩ := by
  have hfront : ofBlocks bs <+: Option.getD none
      (padded message ++ out.drop (padded message).length) := by
    rw [← hbs]
    exact prefix_append ..
  have hloop := cbcBlocks_message (encryptStep sm4 key) hfront (by rw [hbs]; simp) iv
  rw [← hbs, drop_left] at hloop
  rw [sms4CbcEncryptPkcs7Padding, pkcs7Padding_eq hm, if_pos hfit, bind_eq_bind,
    bind_some, if_neg (by simp), sms4CbcEncryptBlocks, hloop]
  rfl

lemma sms4CbcDecryptPkcs7Padding_eq (hinv : ∀ b, sm4.decrypt key (sm4.encrypt key b) = b)
    (hbs : padded message = ofBlocks bs) {iv : Block}
    (hinp : ofBlocks (chain (encryptStep sm4 key) iv bs).1 <+: inp.getD out)
    (hfit : (padded message).length ≤ out.length) :
    ∃ r, sms4CbcDecryptPkcs7Padding sm4 key inp (padded message).length out iv = some r ∧
      r.res = message.length ∧ r.olen = message.length ∧ r.buf.take message.length = message := by
  have hlen : (ofBlocks (chain (encryptStep sm4 key) iv bs).1).length =
    (padded message).length := by rw [hbs, ofBlocks_length, ofBlocks_length, chain_length]
  have hloop := cbcBlocks_message (decryptStep sm4 key) hinp (by omega) iv
  rw [chain_inverse (decryptStep_encryptStep hinv), ← hbs, hlen] at hloop
  obtain ⟨buf, hpad, hbuf⟩ := pkcs7UnPadding_padded message (out.drop (padded message).length)
  refine ⟨⟨⟨message.length, buf, message.length⟩, (chain (encryptStep sm4 key) iv bs).2⟩, ?_, rfl,
    rfl, hbuf⟩
  rw [sms4CbcDecryptPkcs7Padding, sms4CbcDecryptBlocks, hloop, bind_eq_bind, bind_some]
  simp only [hpad]
  rfl

end

def Splits (crypt : Option (List UInt8) → Int → List UInt8 → Int → Block →
    Option CbcResult) : Prop :=
  ∀ (m₁ m₂ : List UInt8) (inp₁ inp₂ inp : Option (List UInt8)) (out₁ out₂ out : List UInt8),
    m₁.length % 16 = 0 → m₂.length % 16 = 0 →
    m₁ <+: inp₁.getD out₁ → m₂ <+: inp₂.getD out₂ → m₁ ++ m₂ <+: inp.getD out →
    m₁.length ≤ out₁.length → m₂.length ≤ out₂.length → (m₁ ++ m₂).length ≤ out.length →
    ∀ olen₁ olen₂ olen iv, ∃ r₁ r₂ r,
      crypt inp₁ m₁.length out₁ olen₁ iv = some r₁ ∧
      crypt inp₂ m₂.length out₂ olen₂ r₁.iv = some r₂ ∧
      crypt inp (m₁ ++ m₂).length out olen iv = some r ∧
      r.buf.take (m₁ ++ m₂).length = r₁.buf.take m₁.length ++ r₂.buf.take m₂.length ∧
      r.iv = r₂.iv ∧ r.olen = r₁.olen + r₂.olen ∧ r.res = r₁.res + r₂.res

lemma cbcNoPadding_eq {out : List UInt8} (hinp : ofBlocks bs <+: inp.getD out)
    (hfit : (ofBlocks bs).length ≤ out.length) (olen : Int) (iv : Block) :
    ∃ r, cbcNoPadding (fun inp ilen => cbcBlocks step inp (ilen.tdiv 16).toNat 0) inp
        (ofBlocks bs).length out olen iv = some r ∧
      r.buf.take (ofBlocks bs).length = ofBlocks (chain step iv bs).1 ∧
      r.iv = (chain step iv bs).2 ∧ r.olen = (ofBlocks bs).length ∧
      r.res = (ofBlocks bs).length := by
  have hlen := ofBlocks_length bs
  have hmod : ¬ ((ofBlocks bs).length : Int).tmod 16 ≠ 0 := by
    rw [Int.tmod_eq_emod_of_nonneg (by omega)]
    omega
  have hchain : (ofBlocks (chain step iv bs).1).length = (ofBlocks bs).length := by
    rw [ofBlocks_length, ofBlocks_length, chain_length]
  refine ⟨_, by rw [cbcNoPadding, if_neg hmod, cbcBlocks_message step hinp hfit]; rfl, ?_, rfl, rfl,
    rfl⟩
  exact take_left' hchain

lemma cbcNoPadding_splits :
    Splits (cbcNoPadding fun inp ilen => cbcBlocks step inp (ilen.tdiv 16).toNat 0) := by
  intro m₁ m₂ inp₁ inp₂ inp out₁ out₂ out hm₁ hm₂ hinp₁ hinp₂ hinp hfit₁ hfit₂ hfit olen₁ olen₂ olen
    iv
  obtain ⟨bs₁, rfl⟩ := exists_ofBlocks hm₁
  obtain ⟨bs₂, rfl⟩ := exists_ofBlocks hm₂
  have hcat : ofBlocks bs₁ ++ ofBlocks bs₂ = ofBlocks (bs₁ ++ bs₂) := by
    rw [ofBlocks, ofBlocks, ofBlocks, flatMap_append]
  obtain ⟨r₁, hcall₁, hbuf₁, hiv₁, holen₁, hres₁⟩ := cbcNoPadding_eq step hinp₁ hfit₁ olen₁ iv
  obtain ⟨r₂, hcall₂, hbuf₂, hiv₂, holen₂, hres₂⟩ := cbcNoPadding_eq step hinp₂ hfit₂ olen₂ r₁.iv
  rw [hcat] at hinp hfit
  obtain ⟨r, hcall, hbuf, hiv, holen, hres⟩ := cbcNoPadding_eq step hinp hfit olen iv
  have hlen : ((ofBlocks (bs₁ ++ bs₂)).length : Int) =
      (ofBlocks bs₁).length + (ofBlocks bs₂).length := by rw [← hcat, length_append, Nat.cast_add]
  rw [hcat]
  refine ⟨r₁, r₂, r, hcall₁, hcall₂, hcall, ?_, ?_, by rw [holen, holen₁, holen₂, hlen],
    by rw [hres, hres₁, hres₂, hlen]⟩
  · rw [hbuf, hbuf₁, hbuf₂, hiv₁, chain_append, ofBlocks, ofBlocks, ofBlocks, flatMap_append]
  · rw [hiv, hiv₂, hiv₁, chain_append]

theorem sms4Cbc_correct {sm4 : Cipher} {key : Block}
    (hinv : ∀ b, sm4.decrypt key (sm4.encrypt key b) = b) :
    (∀ (message out : List UInt8) (olen : Int) (iv : Block), message ≠ [] →
      (padded message).length ≤ out.length →
      ∃ r, sms4CbcEncryptPkcs7Padding sm4 key message out olen iv = some r ∧
        r.olen = (padded message).length ∧
        ∀ (inp : Option (List UInt8)) (out' : List UInt8),
          r.buf.take (padded message).length <+: inp.getD out' →
          (padded message).length ≤ out'.length →
          ∃ r', sms4CbcDecryptPkcs7Padding sm4 key inp r.olen out' iv = some r' ∧
            r'.res = message.length ∧ r'.olen = message.length ∧
            r'.buf.take message.length = message) ∧
    Splits (sms4CbcEncryptNoPadding sm4 key) ∧ Splits (sms4CbcDecryptNoPadding sm4 key) := by
  refine ⟨?_, cbcNoPadding_splits _, cbcNoPadding_splits _⟩
  intro message out olen iv hm hfit
  obtain ⟨bs, hbs⟩ := exists_ofBlocks (show (padded message).length % 16 = 0 by
    rw [padded_length]
    omega)
  have hlen : (ofBlocks (chain (encryptStep sm4 key) iv bs).1).length =
    (padded message).length := by
    rw [hbs, ofBlocks_length, ofBlocks_length, chain_length]
  refine ⟨_, sms4CbcEncryptPkcs7Padding_eq hm hfit hbs olen iv, rfl, ?_⟩
  intro inp out' hinp hfit'
  rw [take_left' hlen] at hinp
  exact sms4CbcDecryptPkcs7Padding_eq hinv hbs hinp hfit'

def xorCipher : Cipher where
  encrypt := fun key b => xorBlock b key
  decrypt := fun key b => xorBlock b key

theorem sms4Cbc_correct_sample : ∃ r r',
    sms4CbcEncryptPkcs7Padding xorCipher (Vector.replicate 16 7) [1, 2, 3] (List.replicate 16 0) 0
      (Vector.replicate 16 1) = some r ∧
    sms4CbcDecryptPkcs7Padding xorCipher (Vector.replicate 16 7) (some r.buf) r.olen
      (List.replicate 16 0) (Vector.replicate 16 1) = some r' ∧
    r'.res = 3 ∧ r'.olen = 3 ∧ r'.buf.take 3 = [1, 2, 3] := by
  have hinv (b : Block) : xorCipher.decrypt (Vector.replicate 16 7)
      (xorCipher.encrypt (Vector.replicate 16 7) b) = b := xorBlock_cancel b _
  obtain ⟨r, hr, -, hback⟩ := (sms4Cbc_correct hinv).1 [1, 2, 3] (List.replicate 16 0) 0
    (Vector.replicate 16 1) (by decide) (by decide)
  obtain ⟨r', hr'⟩ := hback (some r.buf) (List.replicate 16 0) ( take_prefix ..) (by decide)
  exact ⟨r, r', hr, hr'⟩

end Xiuos.Sm4
