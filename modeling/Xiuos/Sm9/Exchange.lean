import Xiuos.Sm9.Sign

/-! The key exchange of `sm9.c`. -/

namespace Xiuos.Sm9
open Lib List Nat

def kdfRounds (klen : UInt32) : UInt32 :=
  if klen &&& 0xff ≠ 0 then (klen >>> 8) + 1 else klen >>> 8

variable (sm3 : List UInt8 → Digest) (Z : List UInt8)

/-- `KDF`: whole digests are written, whatever the length in bits. -/
def kdf (sm3 : List UInt8 → Digest) (Z : List UInt8) (klen : UInt32) : List UInt8 :=
  (List.range' 1 (kdfRounds klen).toNat).flatMap fun ctr =>
    (sm3 (Z ++ wordBytes ctr.toUInt32)).toList

section
variable {G1 G2 GT : Type} [Mul GT] (env : Env) (o : Groups G1 G2 GT) (g : Globals)

def sm9KeyExchangeProduceR (ID : List UInt8) (raw : Big8w) (encryptPublickey : G1) :
    Option (Big8w × G1) := do
  let h ← env.hash g (joinIDhid ID 0x02) 0x01
  let R := o.g1pointAdd (o.g1pointMult h o.P1) encryptPublickey
  let r ← randomNumGenerate g raw
  some (r, o.g1pointMult r R)

def sm9KeyExchangeProduceKey (RA RB : G1) (r : Big8w) (klen : UInt32)
    (challengerID responserID : List UInt8) (sponsor : Bool) (encryptPublickey : G1)
    (encryptSecretkey : G2) : Option (Option (List UInt8)) :=
  if !o.pointInG1 RB then some none
  else do
    let p1 ← q12PowerMod env.stray (o.biLinearPairing encryptPublickey o.P2) r
    let p2 := o.biLinearPairing RB encryptSecretkey
    let (g1, g2) := if !sponsor then (p2, p1) else (p1, p2)
    let g3 ← q12PowerMod env.stray g2 r
    some (some (kdf env.sm3 (joinIDAIDBRARBg123 challengerID responserID (o.coords RA) (o.coords RB)
      (o.q12 g1) (o.q12 g2) (o.q12 g3)) klen))

end

lemma kdfRounds_toNat (klen : UInt32) : (kdfRounds klen).toNat = (klen.toNat + 255) / 256 := by
  have hlt := klen.toNat_lt
  have hand : (klen &&& 0xff).toNat = klen.toNat % 2 ^ 8 := by
    rw [UInt32.toNat_and]
    exact and_two_pow_sub_one_eq_mod _ 8
  have hshift : (klen >>> 8).toNat = klen.toNat / 2 ^ 8 := by
    rw [UInt32.toNat_shiftRight, shiftRight_eq_div_pow]
    rfl
  rw [kdfRounds]
  simp only [ne_eq, ← UInt32.toNat_inj, hand, UInt32.toNat_zero]
  split
  · rw [UInt32.toNat_add, hshift, UInt32.toNat_one]
    omega
  · rw [hshift]
    omega

variable {klen : UInt32}

lemma kdfRounds_eq_zero : (kdfRounds klen).toNat = 0 ↔ klen = 0 := by
  rw [kdfRounds_toNat, ← UInt32.toNat_inj, UInt32.toNat_zero]
  omega

lemma kdf_length (klen : UInt32) : (kdf sm3 Z klen).length = (klen.toNat + 255) / 256 * 32 := by
  simp [kdf, length_flatMap, kdfRounds_toNat]

lemma kdf_eq_iff {Z Z' : List UInt8} :
    (∀ sm3, kdf sm3 Z klen = kdf sm3 Z' klen) ↔ klen = 0 ∨ Z = Z' := by
  constructor
  · intro h
    by_contra hc
    rw [not_or] at hc
    obtain ⟨n, hn⟩ := exists_eq_succ_of_ne_zero (mt kdfRounds_eq_zero.mp hc.1)
    have hne : Z' ++ wordBytes (Nat.toUInt32 1) ≠ Z ++ wordBytes (Nat.toUInt32 1) :=
      fun he => hc.2 (append_cancel_right he).symm
    have h1 := h fun z => if z = Z ++ wordBytes (Nat.toUInt32 1) then .replicate 32 0
      else .replicate 32 1
    rw [kdf, kdf, hn, range'_succ, flatMap_cons, flatMap_cons, if_pos rfl, if_neg hne] at h1
    have h2 := (append_inj h1 (by simp)).1
    simp at h2
  · rintro (rfl | rfl) sm3
    · rfl
    · rfl

section
variable {G1 G2 GT : Type} [AddCommGroup G1] [AddCommGroup G2] [CommGroup GT]

/-- The pairing of the generators has order `N`, and elements are told apart by coordinates. -/
structure Groups.Faithful (o : Groups G1 G2 GT) (N : Nat) : Prop where
  nondegenerate : ∀ n, o.biLinearPairing o.P1 o.P2 ^ n = 1 → N ∣ n
  coords_injective : Function.Injective o.coords
  q12_injective : Function.Injective o.q12

def IsEncryptKey (o : Groups G1 G2 GT) (N ke h1 : Nat) (de : G2) : Prop :=
  ∃ t2, t2 * (h1 + ke) ≡ ke [MOD N] ∧ de = t2 • o.P2

variable (env : Env) {o : Groups G1 G2 GT} (ex : o.Exact sm9Init.N.val)
include ex

lemma sm9KeyExchangeProduceR_some {ID : List UInt8} {raw r h1 : Big8w} {ke : Nat} {R : G1}
    (hh1 : env.hash sm9Init (joinIDhid ID 0x02) 0x01 = some h1)
    (h : sm9KeyExchangeProduceR env o sm9Init ID raw (ke • o.P1) = some (r, R)) (hr : r.val ≠ 0) :
    r.val < sm9Init.N.val ∧ R = (r.val * (h1.val + ke)) • o.P1 := by
  have hpos : h1.val ≠ 0 := by
    have := (hashDigests_sound hh1).1
    omega
  have hlt : raw.val % sm9Init.N.val < sm9Init.N.val := mod_lt _ (by decide +kernel)
  simp only [sm9KeyExchangeProduceR, hh1, randomNumGenerate_eq, Option.bind_eq_bind,
    Option.bind_some, Option.some.injEq, Prod.mk.injEq] at h
  obtain ⟨rfl, rfl⟩ := h
  rw [ex.g1pointMult_eq _ _ hr, ex.g1pointAdd_eq, ex.g1pointMult_eq _ _ hpos, ← add_nsmul,
    ← mul_nsmul']
  exact ⟨by rwa [Big8w.val_ofNat (hlt.trans sm9Init.N.val_lt)], rfl⟩

variable {de : G2} {ke h1 r : Nat}

lemma pairing_encryptKey (hde : IsEncryptKey o sm9Init.N.val ke h1 de) :
    o.biLinearPairing ((r * (h1 + ke)) • o.P1) de = o.biLinearPairing (ke • o.P1) o.P2 ^ r := by
  obtain ⟨t2, ht2, rfl⟩ := hde
  rw [ex.bilinear.nsmul_right, ex.bilinear.nsmul_left, ex.bilinear.nsmul_left, ← pow_mul, ← pow_mul]
  apply ex.bilinear.pow_congr (ex.order o.P1)
  calc r * (h1 + ke) * t2 = r * (t2 * (h1 + ke)) := by ring
    _ ≡ r * ke [MOD sm9Init.N.val] := ht2.mul_left r
    _ = ke * r := mul_comm r ke

lemma pointInG1_exchange (hke : ke.Coprime sm9Init.N.val)
    (hde : IsEncryptKey o sm9Init.N.val ke h1 de) (hr : r ≠ 0) (hlt : r < sm9Init.N.val) :
    o.pointInG1 ((r * (h1 + ke)) • o.P1) = true := by
  obtain ⟨t2, ht2, -⟩ := hde
  have hcop : (h1 + ke).Coprime sm9Init.N.val := Nat.Coprime.coprime_mul_left (ht2.gcd_eq.trans hke)
  apply ex.pointInG1_eq
  intro h0
  have hd := hcop.symm.dvd_of_dvd_mul_right (ex.order_P1 _ h0)
  exact absurd (le_of_dvd (Nat.pos_of_ne_zero hr) hd) (by omega)

lemma sm9KeyExchangeProduceKey_eq {RA : G1} {r : Big8w} {ke h1 rPeer : Nat} (klen : UInt32)
    (IDA IDB : List UInt8) (sponsor : Bool) (hke : ke.Coprime sm9Init.N.val)
    (hde : IsEncryptKey o sm9Init.N.val ke h1 de) (hr : r.val ≠ 0) (hp : rPeer ≠ 0)
    (hlt : rPeer < sm9Init.N.val) : let pair := o.biLinearPairing (ke • o.P1) o.P2
    let g2 := if sponsor then pair ^ rPeer else pair ^ r.val
    sm9KeyExchangeProduceKey env o RA ((rPeer * (h1 + ke)) • o.P1) r klen IDA IDB sponsor
      (ke • o.P1) de = some (some (kdf env.sm3 (joinIDAIDBRARBg123 IDA IDB (o.coords RA)
        (o.coords ((rPeer * (h1 + ke)) • o.P1))
        (o.q12 (if sponsor then pair ^ r.val else pair ^ rPeer)) (o.q12 g2)
        (o.q12 (g2 ^ r.val))) klen)) := by
  intro pair g2
  rw [sm9KeyExchangeProduceKey, pointInG1_exchange ex hke hde hp hlt, pairing_encryptKey ex hde,
    q12PowerMod_of_ne_zero _ _ hr]
  cases sponsor <;>
    simp [q12PowerMod_of_ne_zero _ env.stray hr, pair, g2]

lemma nsmul_P1_eq_iff {a b : Nat} : a • o.P1 = b • o.P1 ↔ a ≡ b [MOD sm9Init.N.val] := by
  have hN : addOrderOf o.P1 = sm9Init.N.val :=
    Nat.dvd_antisymm (addOrderOf_dvd_of_nsmul_eq_zero (ex.order _))
      (ex.order_P1 _ (addOrderOf_nsmul_eq_zero _))
  rw [nsmul_eq_nsmul_iff_modEq, hN]

lemma pairing_pow_eq_iff (fa : o.Faithful sm9Init.N.val) {ke a b : Nat}
    (hke : ke.Coprime sm9Init.N.val) :
    o.biLinearPairing (ke • o.P1) o.P2 ^ a = o.biLinearPairing (ke • o.P1) o.P2 ^ b ↔
      a ≡ b [MOD sm9Init.N.val] := by
  have hN : orderOf (o.biLinearPairing o.P1 o.P2) = sm9Init.N.val :=
    Nat.dvd_antisymm (orderOf_dvd_of_pow_eq_one (ex.bilinear.pow_eq_one (ex.order _) _))
      (fa.nondegenerate _ (pow_orderOf_eq_one _))
  rw [ex.bilinear.nsmul_left, ← pow_mul, ← pow_mul, pow_eq_pow_iff_modEq, hN]
  exact ⟨Nat.ModEq.cancel_left_of_coprime hke.symm, fun h => h.mul_left ke⟩

theorem sm9KeyExchange_agree_iff (fa : o.Faithful sm9Init.N.val) {IDA IDB : List UInt8} {ke : Nat}
    {hA hB rawA rawB rA rB : Big8w} {RA RB : G1} {deA deB : G2} {klen : UInt32}
    (hke : ke.Coprime sm9Init.N.val)
    (hhA : env.hash sm9Init (joinIDhid IDA 0x02) 0x01 = some hA)
    (hhB : env.hash sm9Init (joinIDhid IDB 0x02) 0x01 = some hB)
    (hdeA : IsEncryptKey o sm9Init.N.val ke hA.val deA)
    (hdeB : IsEncryptKey o sm9Init.N.val ke hB.val deB)
    (hRA : sm9KeyExchangeProduceR env o sm9Init IDB rawA (ke • o.P1) = some (rA, RA))
    (hRB : sm9KeyExchangeProduceR env o sm9Init IDA rawB (ke • o.P1) = some (rB, RB))
    (hrA : rA.val ≠ 0) (hrB : rB.val ≠ 0) :
    (∀ sm3, sm9KeyExchangeProduceKey { env with sm3 } o RA RB rA klen IDA IDB true (ke • o.P1) deA =
      sm9KeyExchangeProduceKey { env with sm3 } o RB RA rB klen IDA IDB false (ke • o.P1) deB) ↔
    klen = 0 ∨ (rA.val * (hB.val + ke) ≡ rB.val * (hA.val + ke) [MOD sm9Init.N.val] ∧
      rB.val * rA.val ≡ rB.val * rB.val [MOD sm9Init.N.val]) := by
  obtain ⟨hltA, rfl⟩ := sm9KeyExchangeProduceR_some env ex hhB hRA hrA
  obtain ⟨hltB, rfl⟩ := sm9KeyExchangeProduceR_some env ex hhA hRB hrB
  simp only [sm9KeyExchangeProduceKey_eq _ ex klen IDA IDB _ hke hdeA hrA hrB hltB,
    sm9KeyExchangeProduceKey_eq _ ex klen IDA IDB _ hke hdeB hrB hrA hltA, Option.some.injEq,
    kdf_eq_iff, joinIDAIDBRARBg123_inj, fa.coords_injective.eq_iff, fa.q12_injective.eq_iff,
    nsmul_P1_eq_iff ex, if_true, Bool.false_eq_true, if_false, ← pow_mul,
    pairing_pow_eq_iff ex fa hke, true_and]
  constructor
  · rintro (h | ⟨h, -, h3⟩)
    · exact .inl h
    · exact .inr ⟨h, h3⟩
  · rintro (h | ⟨h, h3⟩)
    · exact .inl h
    · exact .inr ⟨h, h.symm, h3⟩

end

lemma ofNat_zmodVal_injective :
    Function.Injective fun P : ZMod sm9Init.N.val => Big8w.ofNat P.val := by
  have : NeZero sm9Init.N.val := ⟨by decide +kernel⟩
  intro P Q h
  have hv := congrArg Big8w.val h
  rw [Big8w.val_ofNat ((ZMod.val_lt P).trans sm9Init.N.val_lt),
    Big8w.val_ofNat ((ZMod.val_lt Q).trans sm9Init.N.val_lt)] at hv
  exact ZMod.val_injective _ hv

lemma residueGroups_faithful : residueGroups.Faithful sm9Init.N.val where
  nondegenerate n h := by
    simp only [residueGroups, mul_one, ← ofAdd_nsmul, nsmul_one, ofAdd_eq_one] at h
    exact (ZMod.natCast_eq_zero_iff n _).mp h
  coords_injective P Q h := by
    simp only [residueGroups, G1point.mk.injEq, and_true] at h
    exact ofNat_zmodVal_injective h
  q12_injective w w' h := by
    simp only [residueGroups, Q12.mk.injEq, Q4.mk.injEq, Q2.mk.injEq, true_and] at h
    exact Multiplicative.toAdd.injective (ofNat_zmodVal_injective h)

def fifth : Nat := 0x48e666666774a92d88ce448662391c81b72dd484705dd192c22c5a3ebc3f860f

lemma isEncryptKey_fifth : IsEncryptKey residueGroups sm9Init.N.val 1 4 (fifth : ZMod _) :=
  ⟨fifth, by decide +kernel, (nsmul_one fifth).symm⟩

theorem sm9KeyExchange_disagree :
    residueGroups.Exact sm9Init.N.val ∧ residueGroups.Faithful sm9Init.N.val ∧
    Nat.Coprime 1 sm9Init.N.val ∧
    sampleEnv.hash sm9Init (joinIDhid [] 0x02) 0x01 = some (.ofNat 4) ∧
    IsEncryptKey residueGroups sm9Init.N.val 1 4 (fifth : ZMod _) ∧
    sm9KeyExchangeProduceR sampleEnv residueGroups sm9Init [] .one (1 • residueGroups.P1) =
      some (.one, 5) ∧
    sm9KeyExchangeProduceR sampleEnv residueGroups sm9Init [] (.ofNat 2) (1 • residueGroups.P1) =
      some (.ofNat 2, 10) ∧
    sm9KeyExchangeProduceKey sampleEnv residueGroups 5 10 .one 512 [] [] true
        (1 • residueGroups.P1) (fifth : ZMod _) ≠
      sm9KeyExchangeProduceKey sampleEnv residueGroups 10 5 (.ofNat 2) 512 [] [] false
        (1 • residueGroups.P1) (fifth : ZMod _) :=
  ⟨residueGroups_exact, residueGroups_faithful, coprime_one_left _, by decide +kernel,
    isEncryptKey_fifth, by decide +kernel, by decide +kernel, by decide +kernel⟩

theorem sm9KeyExchange_agree_one :
    sm9KeyExchangeProduceKey sampleEnv residueGroups 5 5 .one 512 [] [] true
        (1 • residueGroups.P1) (fifth : ZMod _) =
      sm9KeyExchangeProduceKey sampleEnv residueGroups 5 5 .one 512 [] [] false
        (1 • residueGroups.P1) (fifth : ZMod _) := by
  have hhash : sampleEnv.hash sm9Init (joinIDhid [] 0x02) 0x01 = some (.ofNat 4) := by
    decide +kernel
  have hR : sm9KeyExchangeProduceR sampleEnv residueGroups sm9Init [] .one
      (1 • residueGroups.P1) = some (.one, 5) := by decide +kernel
  exact (sm9KeyExchange_agree_iff sampleEnv residueGroups_exact residueGroups_faithful
    (coprime_one_left _) hhash hhash isEncryptKey_fifth isEncryptKey_fifth hR hR
    (by decide) (by decide)).mpr (.inr ⟨rfl, rfl⟩) sampleEnv.sm3

end Xiuos.Sm9
