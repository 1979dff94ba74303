import Xiuos.Lib.Feistel
import Xiuos.Sm4.Mode
import Xiuos.Sm9.Join

/-! The block cipher: `sms4_enc.c` and `sms4_setkey.c`, with the tables of `sm4_common.c`. -/

namespace Xiuos.Sm4
open Lib Sm9 List

/-- The `i`th entry of a table in rows of `n` entries of `width` bits. -/
def entry (rows : List Nat) (n width i : Nat) : UInt32 :=
  (rows.getD (i / n) 0 >>> (width * (n - 1 - i % n)) % 2 ^ width).toUInt32

def sms4S : List Nat := [
  0xd690e9fecce13db7, 0x16b614c228fb2c05, 0x2b679a762abe04c3, 0xaa44132649860699,
  0x9c4250f491ef987a, 0x33540b43edcfac62, 0xe4b31ca9c908e895, 0x80df94fa758f3fa6,
  0x4707a7fcf37317ba, 0x83593c19e6854fa8, 0x686b81b27164da8b, 0xf8eb0f4b70569d35,
  0x1e240e5e6358d1a2, 0x25227c3b01217887, 0xd40046579fd32752, 0x4c3602e7a0c4c89e,
  0xeabf8ad240c738b5, 0xa3f7f2cef96115a1, 0xe0ae5da49b341a55, 0xad933230f58cb1e3,
  0x1df6e22e8266ca60, 0xc02923ab0d534e6f, 0xd5db3745defd8e2f, 0x03ff6a726d6c5b51,
  0x8d1baf92bbddbc7f, 0x11d95c411f105ad8, 0x0ac13188a5cd7bbd, 0x2d74d012b8e5b4b0,
  0x8969974a0c96777e, 0x65b9f109c56ec684, 0x18f07dec3adc4d20, 0x79ee5f3ed7cb3948]

def sms4T : List Nat := [
  0x8ed55b5bd09242424deaa7a706fdfbfb, 0xfccf333365e28787c93df4f46bb5dede,
  0x4e1658586eb4dada44145050cac10b0b, 0x8828a0a017f8efef9c2cb0b011051414,
  0x872bacacfb669d9df2986a6aae77d9d9, 0x822aa8a846bcfafa14041010cfc00f0f,
  0x02a8aaaa544511115f134c4cbe269898, 0x6d4825259e841a1a1e061818fd9b6666,
  0xec9e72724a4309091051414124f7d3d3, 0xd593464653ecbfbff89a6262927be9e9,
  0xff33cccc04555151270b2c2c4f420d0d, 0x59eeb7b7f3cc3f3f1caeb2b2ea638989,
  0x74e793937fb1cece6c1c70700daba6a6, 0xedca27272808202048eba3a3c1975656,
  0x80820202a3dc7f7fc496525212f9ebeb, 0xa174d5d5b38d3e3ec33ffcfc3ea49a9a,
  0x5b461d1d1b071c1c3ba59e9e0cfff3f3, 0x3ff0cfcfbf72cdcd4b175c5c52b8eaea,
  0x8f810e0e3d586565cc3cf0f07d196464, 0x7ee59b9b91871616734e3d3d08aaa2a2,
  0xc869a1a1c76aadad858306067ab0caca, 0xb570c5c5f4659191b2d96b6ba7892e2e,
  0x18fbe3e347e8afaf330f3c3c674a2d2d, 0xb071c1c10e575959e99f7676e135d4d4,
  0x661e7878b4249090360e3838265f7979, 0xef628d8d3859616195d247472aa08a8a,
  0xb1259494aa2288888c7df1f1d73becec, 0x05010404a52184849879e1e19b851e1e,
  0x84d75353000000005e4719190b565d5d, 0xe39d7e7e9fd04f4fbb279c9c1a534949,
  0x7c4d3131ee36d8d80a0208087be49f9f, 0x20a28282d4c71313e8cb2323e69c7a7a,
  0x42e9abab43bdfefea2882a2a9ad14b4b, 0x40410101dbc41f1fd838e0e061b7d6d6,
  0x2fa18e8e2bf4dfdf3af1cbcbf6cd3b3b, 0x1dfae7e7e56085854115545425a38686,
  0x60e3838316acbaba295c757534a69292, 0xf7996e6ee434d0d0721a686801545555,
  0x19afb6b6df914e4efa32c8c8f030c0c0, 0x21f6d7d7bc8e323275b3c6c66fe08f8f,
  0x691d74742ef5dbdb6ae18b8b962eb8b8, 0x8a800a0afe679999e2c92b2be0618181,
  0xc0c303038d29a4a4af238c8c07a9aeae, 0x390d34341f524d4d764f3939d36ebdbd,
  0x81d65757b7d86f6feb37dcdc51441515, 0xa6dd7b7b09fef7f7b68c3a3a932fbcbc,
  0x0f030c0c03fcffffc26ba9a9ba73c9c9, 0xd96cb5b5dc6db1b1375a6d6d15504545,
  0xb98f3636771b6c6c13adbebeda904a4a, 0x57b9eeeea9de77774cbef2f2837efdfd,
  0x55114444bdda67672c5d717145400505, 0x631f7c7c50104040325b6969b8db6363,
  0x220a2828c5c20707f531c4c4a88a2222, 0x31a79696f9ce3737977aeded49bff6f6,
  0x992db4b4a475d1d190d343435a124848, 0x58bae2e271e6979764b6d2d270b2c2c2,
  0xad8b2626cd68a5a5cb955e5e624b2929, 0x3c0c3030ce945a5aab76dddd867ff9f9,
  0xf16495955dbbe6e635f2c7c72d092424, 0xd1c61717d66fb9b9dec51b1b94861212,
  0x7818606030f3c3c3897cf5f55cefb3b3, 0xd23ae8e8acdf7373794c3535a0208080,
  0x9d78e5e556edbbbb235e7d7dc63ef8f8, 0x8bd45f5fe7c82f2fdd39e4e468492121]

def ck : List UInt32 := [
  0x00070e15, 0x1c232a31, 0x383f464d, 0x545b6269, 0x70777e85, 0x8c939aa1, 0xa8afb6bd, 0xc4cbd2d9,
  0xe0e7eef5, 0xfc030a11, 0x181f262d, 0x343b4249, 0x50575e65, 0x6c737a81, 0x888f969d, 0xa4abb2b9,
  0xc0c7ced5, 0xdce3eaf1, 0xf8ff060d, 0x141b2229, 0x30373e45, 0x4c535a61, 0x686f767d, 0x848b9299,
  0xa0a7aeb5, 0xbcc3cad1, 0xd8dfe6ed, 0xf4fb0209, 0x10171e25, 0x2c333a41, 0x484f565d, 0x646b7279]

def fk : Window UInt32 := ⟨0xa3b1bac6, 0x56aa3350, 0x677d9197, 0xb27022dc⟩

def sbox (i : Nat) : UInt32 := entry sms4S 8 8 i

def tbox (i : Nat) : UInt32 := entry sms4T 4 32 i

variable (a rk : UInt32) (x : Window UInt32)

def rol32 (n : UInt32) : UInt32 := a <<< n ||| a >>> (32 - n)

def s32 : UInt32 :=
  sbox (a >>> 24).toNat <<< 24 ^^^ sbox (a >>> 16 &&& 0xff).toNat <<< 16 ^^^
    sbox (a >>> 8 &&& 0xff).toNat <<< 8 ^^^ sbox (a &&& 0xff).toNat

def l32Key : UInt32 := a ^^^ rol32 a 13 ^^^ rol32 a 23

def roundTbox : UInt32 :=
  let x4 := x.x1 ^^^ x.x2 ^^^ x.x3 ^^^ rk
  let x0 := x.x0 ^^^ rol32 (tbox x4.toUInt8.toNat) 8
  let x4 := x4 >>> 8
  let x0 := x0 ^^^ rol32 (tbox x4.toUInt8.toNat) 16
  let x4 := x4 >>> 8
  let x0 := x0 ^^^ rol32 (tbox x4.toUInt8.toNat) 24
  let x4 := x4 >>> 8
  x0 ^^^ tbox x4.toNat

def roundKey : UInt32 := x.x0 ^^^ l32Key (s32 (x.x1 ^^^ x.x2 ^^^ x.x3 ^^^ rk))

def getBlockWords (p : Block) : Window UInt32 :=
  ⟨getU32 p.toList, getU32 (p.toList.drop 4), getU32 (p.toList.drop 8), getU32 (p.toList.drop 12)⟩

def putBlockWords : Block :=
  ⟨(wordBytes x.x0 ++ wordBytes x.x1 ++ wordBytes x.x2 ++ wordBytes x.x3).toArray, rfl⟩

/-- The registers change places with every round: `ROUNDS` ends on the window `x2, x3, x4, x0`. -/
def sms4Encrypt (rk : List UInt32) (p : Block) : Block :=
  putBlockWords (rk.foldl (Window.round roundTbox) (getBlockWords p)).reverse

variable (userKey : Block)

def keyStart : Window UInt32 :=
  let x := getBlockWords userKey
  ⟨x.x0 ^^^ fk.x0, x.x1 ^^^ fk.x1, x.x2 ^^^ fk.x2, x.x3 ^^^ fk.x3⟩

def encRound (s : Window UInt32 × List UInt32) (ck : UInt32) : Window UInt32 × List UInt32 :=
  (s.1.round roundKey ck, s.2 ++ [roundKey ck s.1])

def decRound (s : Window UInt32 × List UInt32) (ck : UInt32) : Window UInt32 × List UInt32 :=
  (s.1.round roundKey ck, roundKey ck s.1 :: s.2)

/-- The part of `rk` that is written grows from its front. -/
def sms4SetEncryptKey : List UInt32 := (ck.foldl encRound (keyStart userKey, [])).2

/-- The part of `rk` that is written grows from its end. -/
def sms4SetDecryptKey : List UInt32 := (ck.foldl decRound (keyStart userKey, [])).2

def sms4 : Cipher where
  encrypt key := sms4Encrypt (sms4SetEncryptKey key)
  decrypt key := sms4Encrypt (sms4SetDecryptKey key)

lemma getBlockWords_putBlockWords : getBlockWords (putBlockWords x) = x := by
  have hlist : (putBlockWords x).toList = [x.x0, x.x1, x.x2, x.x3].flatMap wordBytes ++ [] := by
    simp [putBlockWords]
  have h := getWords_flatMap [x.x0, x.x1, x.x2, x.x3] []
  rw [← hlist] at h
  simp only [getWords, length_cons, length_nil, drop_drop, cons.injEq] at h
  simp only [getBlockWords, h]

lemma wordBytes_getU32 {p : List UInt8} (h : 4 ≤ p.length) : wordBytes (getU32 p) = p.take 4 := by
  have hval := getU32_val h
  obtain ⟨a, b, c, d, hp⟩ := length_eq_four.mp (show (p.take 4).length = 4 by simp [h])
  have ha := a.toNat_lt
  have hb := b.toNat_lt
  have hc := c.toNat_lt
  have hd := d.toNat_lt
  rw [hp] at hval ⊢
  simp only [Limbs.bigEndian, foldl_cons, foldl_nil] at hval
  simp only [wordBytes, cons.injEq, ← UInt8.toNat_inj, UInt32.toNat_toUInt8,
    UInt32.toNat_shiftRight, Nat.shiftRight_eq_div_pow, hval,
    show (24 : UInt32).toNat % 32 = 24 from rfl, show (16 : UInt32).toNat % 32 = 16 from rfl,
    show (8 : UInt32).toNat % 32 = 8 from rfl]
  refine ⟨?_, ?_, ?_, ?_, trivial⟩ <;> omega

lemma putBlockWords_getBlockWords (p : Block) : putBlockWords (getBlockWords p) = p := by
  have hlen : p.toList.length = 16 := Vector.length_toList ..
  apply Vector.toList_inj.mp
  change wordBytes _ ++ wordBytes _ ++ wordBytes _ ++ wordBytes _ = _
  simp only [getBlockWords]
  rw [wordBytes_getU32 (by omega), wordBytes_getU32 (by simp), wordBytes_getU32 (by simp),
    wordBytes_getU32 (by simp), ← take_add, ← take_add, ← take_add]
  exact take_of_length_le (by omega)

lemma xor_cancel (a b c d e : UInt32) : a ^^^ b ^^^ c ^^^ d ^^^ e ^^^ b ^^^ c ^^^ d ^^^ e = a := by
  have h : a ^^^ b ^^^ c ^^^ d ^^^ e ^^^ b ^^^ c ^^^ d ^^^ e =
      a ^^^ ((b ^^^ c ^^^ d ^^^ e) ^^^ (b ^^^ c ^^^ d ^^^ e)) := by ac_rfl
  rw [h, UInt32.xor_self, UInt32.xor_zero]

lemma reversible_roundTbox : Window.Reversible roundTbox := by
  intro rk x
  have hxor : x.x3 ^^^ x.x2 ^^^ x.x1 ^^^ rk = x.x1 ^^^ x.x2 ^^^ x.x3 ^^^ rk := by ac_rfl
  simp only [roundTbox, Window.round, Window.reverse, hxor]
  exact xor_cancel ..

lemma foldl_decRound (cks rk : List UInt32) (x : Window UInt32) :
    (cks.foldl decRound (x, rk.reverse)).2 = (cks.foldl encRound (x, rk)).2.reverse := by
  induction cks generalizing x rk with
  | nil => rfl
  | cons c cks ih =>
    rw [foldl_cons, foldl_cons, encRound, ← ih]
    simp [decRound]

theorem sms4_inverse : sms4.Inverse := by
  intro key p
  have hkey : sms4SetDecryptKey key = (sms4SetEncryptKey key).reverse :=
    foldl_decRound ck [] (keyStart key)
  simp only [sms4, hkey, sms4Encrypt]
  rw [getBlockWords_putBlockWords, Window.foldl_round_reverse reversible_roundTbox]
  exact putBlockWords_getBlockWords p

end Xiuos.Sm4
