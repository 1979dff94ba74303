import Xiuos.Lib.Pairing
import Xiuos.Sm9.AddMod
import Xiuos.Sm9.HashLaws
import Xiuos.Sm9.PowerMod

/-! Signing and verification of `sm9.c`.  The operations on points and on the extension field
that lie below are parameters, and so is SM3. -/

namespace Xiuos.Sm9

open Lib Nat Option

structure Groups (G1 G2 GT : Type) where
  P1 : G1
  P2 : G2
  g1pointMult : Big8w → G1 → G1
  g1pointAdd : G1 → G1 → G1
  g2PointMult : Big8w → G2 → G2
  g2PointAdd : G2 → G2 → G2
  biLinearPairing : G1 → G2 → GT
  pointInG1 : G1 → Bool
  coords : G1 → G1point
  q12 : GT → Q12

/-- What the code takes from its surroundings: SM3, the words of memory behind a number, and a
bound on the passes through a loop. -/
structure Env where
  sm3 : List UInt8 → Digest
  stray : Nat → UInt32
  fuel : Nat

def Env.hash (env : Env) (g : Globals) (Z : List UInt8) (funcflag : UInt8) : Option Big8w :=
  H env.sm3 env.stray env.fuel g Z funcflag

structure Signature (G1 : Type) where
  h : Big8w
  S : G1
  deriving DecidableEq

/-- `raw` is the number made of the 32 bytes that the random source delivers. -/
def randomNumGenerate (g : Globals) (raw : Big8w) : Option Big8w :=
  if big8wBigThan raw g.N then big8wMinusMod raw g.N g.N else some raw

section

variable {G1 G2 GT : Type} [Mul GT] (env : Env) (o : Groups G1 G2 GT) (g : Globals)

/-- One pass through the loop of `SM9Sign`; `none` inside asks for another random number. -/
def signRound (message : List UInt8) (ds : G1) (PpubS : G2) (raw : Big8w) :
    Option (Option (Signature G1)) := do
  let r ← randomNumGenerate g raw
  let w ← q12PowerMod env.stray (o.biLinearPairing o.P1 PpubS) r
  let h ← env.hash g (joinMsgW message (o.q12 w)) 0x02
  let L ← big8wMinusMod r h g.N
  if big8wEqual L .zero then some none else some (some ⟨h, o.g1pointMult L ds⟩)

def sm9Sign (message : List UInt8) (ds : G1) (PpubS : G2) : List Big8w → Option (Signature G1)
  | [] => none
  | raw :: draws => do
    match ← signRound env o g message ds PpubS raw with
    | some sig => some sig
    | none => sm9Sign message ds PpubS draws

def sm9VerifySignature (ID : List UInt8) (hid : UInt8) (message : List UInt8)
    (signature : Signature G1) (PpubS : G2) : Option Bool :=
  if big8wBigThan signature.h g.N || big8wEqual signature.h .zero then some false
  else if !o.pointInG1 signature.S then some false
  else do
    let t ← q12PowerMod env.stray (o.biLinearPairing o.P1 PpubS) signature.h
    let h ← env.hash g (joinIDhid ID hid) 0x01
    let P := o.g2PointAdd (o.g2PointMult h o.P2) PpubS
    let w := o.biLinearPairing signature.S P * t
    let h ← env.hash g (joinMsgW message (o.q12 w)) 0x02
    some (big8wEqual h signature.h)

variable {env o g} in

lemma sm9Sign_some {message : List UInt8} {ds : G1} {PpubS : G2} {draws : List Big8w}
    {sig : Signature G1} (h : sm9Sign env o g message ds PpubS draws = some sig) :
    ∃ raw ∈ draws, signRound env o g message ds PpubS raw = some (some sig) := by
  induction draws with
  | nil => cases h
  | cons raw draws ih =>
    rw [sm9Sign] at h
    obtain ⟨round, hround, h⟩ := bind_eq_some_iff.mp h
    cases round with
    | some sig' =>
      cases h
      exact ⟨raw, by simp, hround⟩
    | none =>
      obtain ⟨raw', hmem, hraw'⟩ := ih h
      exact ⟨raw', by simp [hmem], hraw'⟩

end

section

variable {G1 G2 GT : Type} [AddCommGroup G1] [AddCommGroup G2] [CommGroup GT]

/-- The operations are those of two groups of order `N` with a bilinear pairing.  Multiples are
exact for scalars other than zero. -/
structure Groups.Exact (o : Groups G1 G2 GT) (N : Nat) : Prop where
  bilinear : Bilinear o.biLinearPairing
  g1pointMult_eq : ∀ n P, n.val ≠ 0 → o.g1pointMult n P = n.val • P
  g1pointAdd_eq : ∀ P Q, o.g1pointAdd P Q = P + Q
  g2PointMult_eq : ∀ n Q, n.val ≠ 0 → o.g2PointMult n Q = n.val • Q
  g2PointAdd_eq : ∀ Q R, o.g2PointAdd Q R = Q + R
  pointInG1_eq : ∀ P, P ≠ 0 → o.pointInG1 P = true
  order : ∀ P : G1, N • P = 0
  order_P1 : ∀ n, n • o.P1 = 0 → N ∣ n

/-- The signing key of an identity with hash `h1` under the master key `ks`: the multiple of
`P1` by `ks / (h1 + ks)` modulo `N`. -/
def IsSignKey (o : Groups G1 G2 GT) (N ks h1 : Nat) (ds : G1) : Prop :=
  ∃ t2, t2 * (h1 + ks) ≡ ks [MOD N] ∧ ds = t2 • o.P1

lemma randomNumGenerate_eq (raw : Big8w) :
    randomNumGenerate sm9Init raw = some (.ofNat (raw.val % sm9Init.N.val)) := by
  have hraw := raw.val_lt
  have hN : 2 ^ 255 ≤ sm9Init.N.val := by decide +kernel
  rw [randomNumGenerate, reduce_once]
  split
  · rename_i h
    rw [mod_eq_sub_mod h, mod_eq_of_lt (by omega)]
  · rename_i h
    rw [mod_eq_of_lt (by omega)]

lemma big8wMinusMod_hash {r h : Big8w} (hr : r.val < sm9Init.N.val) (hh : h.val ≤ sm9Init.N.val)
    (hpos : 1 ≤ h.val) :
    ∃ L, big8wMinusMod r h sm9Init.N = some L ∧ L.val < sm9Init.N.val ∧
      L.val + h.val ≡ r.val [MOD sm9Init.N.val] ∧ (h.val = sm9Init.N.val → L.val = r.val) := by
  have hN := sm9Init.N.val_lt
  by_cases hle : h.val ≤ r.val
  · refine ⟨_, big8wMinusMod_of_le _ hle, ?_⟩
    rw [Big8w.val_ofNat (by omega)]
    refine ⟨by omega, ?_, by omega⟩
    rw [Nat.sub_add_cancel hle]
  · refine ⟨_, big8wMinusMod_of_lt (by omega) (by omega), ?_⟩
    rw [Big8w.val_ofNat (by omega)]
    refine ⟨by omega, ?_, by omega⟩
    rw [Nat.sub_add_cancel (by omega)]
    exact add_modEq_left

section Scheme

variable (env : Env) {o : Groups G1 G2 GT} (ex : o.Exact sm9Init.N.val)

include ex

lemma pairing_signKey {ks h1 : Nat} {ds : G1} (hds : IsSignKey o sm9Init.N.val ks h1 ds) :
    o.biLinearPairing ds (h1 • o.P2 + ks • o.P2) = o.biLinearPairing o.P1 (ks • o.P2) := by
  obtain ⟨t2, ht2, rfl⟩ := hds
  rw [← add_nsmul, ex.bilinear.nsmul_left, ex.bilinear.nsmul_right, ex.bilinear.nsmul_right,
    ← pow_mul, mul_comm]
  exact ex.bilinear.pow_congr (ex.order o.P1) _ ht2

lemma nsmul_signKey_ne_zero {ks h1 L : Nat} {ds : G1} (hks : ks.Coprime sm9Init.N.val)
    (hds : IsSignKey o sm9Init.N.val ks h1 ds) (hL : ¬ sm9Init.N.val ∣ L) : L • ds ≠ 0 := by
  obtain ⟨t2, ht2, rfl⟩ := hds
  intro h0
  rw [← mul_nsmul'] at h0
  have hdvd := ex.order_P1 _ h0
  have hcop : t2.Coprime sm9Init.N.val := Nat.Coprime.coprime_mul_right (ht2.gcd_eq.trans hks)
  exact hL (hcop.symm.dvd_of_dvd_mul_right hdvd)

lemma sm9VerifySignature_eq {ID : List UInt8} {hid : UInt8} (message : List UInt8)
    {ks r L : Nat} {h h1 : Big8w} {ds : G1} (hks : ks.Coprime sm9Init.N.val)
    (hh1 : env.hash sm9Init (joinIDhid ID hid) 0x01 = some h1)
    (hds : IsSignKey o sm9Init.N.val ks h1.val ds) (hpos : 1 ≤ h.val) (hlt : h.val < sm9Init.N.val)
    (hL : ¬ sm9Init.N.val ∣ L) (hr : L + h.val ≡ r [MOD sm9Init.N.val]) :
    sm9VerifySignature env o sm9Init ID hid message ⟨h, L • ds⟩ (ks • o.P2) =
      (env.hash sm9Init (joinMsgW message (o.q12 (o.biLinearPairing o.P1 (ks • o.P2) ^ r)))
        0x02).map
        (big8wEqual · h) := by
  have hh1pos : h1.val ≠ 0 := by
    have := (hashDigests_sound hh1).1
    omega
  have hne : h ≠ .zero := by
    rintro rfl
    simp at hpos
  have hw : o.biLinearPairing (L • ds) (o.g2PointAdd (o.g2PointMult h1 o.P2) (ks • o.P2)) *
      o.biLinearPairing o.P1 (ks • o.P2) ^ h.val = o.biLinearPairing o.P1 (ks • o.P2) ^ r := by
    rw [ex.g2PointAdd_eq, ex.g2PointMult_eq _ _ hh1pos, ex.bilinear.nsmul_left,
      pairing_signKey ex hds, ← pow_add]
    exact ex.bilinear.pow_congr (ex.order o.P1) _ hr
  rw [sm9VerifySignature, big8wBigThan_eq, big8wEqual_eq, decide_eq_false (Nat.not_le.mpr hlt),
    decide_eq_false hne, ex.pointInG1_eq _ (nsmul_signKey_ne_zero ex hks hds hL)]
  simp only [Bool.or_self, Bool.false_eq_true, if_false, Bool.not_true,
    q12PowerMod_of_ne_zero _ env.stray (by omega : h.val ≠ 0), bind_eq_bind, bind_some, hh1, hw]
  cases env.hash sm9Init (joinMsgW message (o.q12 (o.biLinearPairing o.P1 (ks • o.P2) ^ r))) 0x02
    <;> rfl

lemma signRound_eq {message : List UInt8} (ds : G1) {PpubS : G2} {raw h : Big8w} {w : GT}
    (hw : q12PowerMod env.stray (o.biLinearPairing o.P1 PpubS)
      (.ofNat (raw.val % sm9Init.N.val)) = some w)
    (hh : env.hash sm9Init (joinMsgW message (o.q12 w)) 0x02 = some h) :
    ∃ L, signRound env o sm9Init message ds PpubS raw =
        some (if L = 0 then none else some ⟨h, L • ds⟩) ∧
      L < sm9Init.N.val ∧ L + h.val ≡ raw.val [MOD sm9Init.N.val] ∧
      (h.val = sm9Init.N.val → L = raw.val % sm9Init.N.val) := by
  have hlt : raw.val % sm9Init.N.val < sm9Init.N.val := mod_lt _ (by decide +kernel)
  have hv : (Big8w.ofNat (raw.val % sm9Init.N.val)).val = raw.val % sm9Init.N.val :=
    Big8w.val_ofNat (hlt.trans sm9Init.N.val_lt)
  obtain ⟨hpos, hle, -⟩ := hashDigests_sound hh
  obtain ⟨L, hL, hLlt, hmod, hN⟩ := big8wMinusMod_hash (by rwa [hv]) hle hpos
  rw [hv] at hmod hN
  refine ⟨L.val, ?_, hLlt, hmod.trans (mod_modEq _ _), hN⟩
  rw [signRound, randomNumGenerate_eq]
  simp only [bind_eq_bind, bind_some, hw, hh, hL, big8wEqual_eq]
  by_cases hz : L.val = 0
  · rw [if_pos hz, decide_eq_true (Big8w.val_injective hz)]
    rfl
  · have hne : L ≠ .zero := fun h0 => hz (by rw [h0]; rfl)
    rw [if_neg hz, decide_eq_false hne, ex.g1pointMult_eq _ _ hz]
    rfl

lemma signRound_some {message : List UInt8} {ds : G1} {PpubS : G2} {raw : Big8w}
    {sig : Signature G1} (h : signRound env o sm9Init message ds PpubS raw = some (some sig)) :
    ∃ (w : GT) (L : Nat),
      q12PowerMod env.stray (o.biLinearPairing o.P1 PpubS) (.ofNat (raw.val % sm9Init.N.val)) =
        some w ∧
      env.hash sm9Init (joinMsgW message (o.q12 w)) 0x02 = some sig.h ∧
      sig.S = L • ds ∧ ¬ sm9Init.N.val ∣ L ∧
      L + sig.h.val ≡ raw.val [MOD sm9Init.N.val] ∧
      (sig.h.val = sm9Init.N.val → raw.val % sm9Init.N.val ≠ 0) := by
  have hround := h
  rw [signRound, randomNumGenerate_eq, bind_eq_bind, bind_some] at h
  obtain ⟨w, hw, h⟩ := bind_eq_some_iff.mp h
  obtain ⟨hash, hh, -⟩ := bind_eq_some_iff.mp h
  obtain ⟨L, hL, hlt, hmod, hN⟩ := signRound_eq env ex ds hw hh
  rw [hround, Option.some.injEq] at hL
  split at hL
  · cases hL
  · rename_i hne
    cases hL
    refine ⟨w, L, hw, hh, rfl, fun hd => ?_, hmod, fun hh => hN hh ▸ hne⟩
    exact absurd (le_of_dvd (Nat.pos_of_ne_zero hne) hd) (by omega)

def Env.HashWraps (env : Env) (Z : List UInt8) (funcflag : UInt8) : Prop :=
  let Ha := hashNum (env.sm3 (funcflag :: Z ++ [0, 0, 0, 1]))
    (env.sm3 (funcflag :: Z ++ [0, 0, 0, 2]))
  Ha % (sm9Init.N.val - 1) = 0 ∧ Ha / (sm9Init.N.val - 1) % 4 = 3

/-- A signature is accepted exactly when it was made with a random number other than zero modulo
`N` and its hash did not wrap to `N`; or when the number was zero and the hash with the power
that the code takes instead of one collides with the hash with one. -/
theorem sm9Sign_accepted_iff {ID : List UInt8} {hid : UInt8} {message : List UInt8} {ks : Nat}
    {h1 : Big8w} {ds : G1} {draws : List Big8w} {sig : Signature G1}
    (hks : ks.Coprime sm9Init.N.val)
    (hh1 : env.hash sm9Init (joinIDhid ID hid) 0x01 = some h1)
    (hds : IsSignKey o sm9Init.N.val ks h1.val ds)
    (hsig : sm9Sign env o sm9Init message ds (ks • o.P2) draws = some sig) :
    ∃ raw ∈ draws, signRound env o sm9Init message ds (ks • o.P2) raw = some (some sig) ∧
      (sm9VerifySignature env o sm9Init ID hid message sig (ks • o.P2) = some true ↔
        (raw.val % sm9Init.N.val ≠ 0 ∧ ¬ env.HashWraps (joinMsgW message
          (o.q12 (o.biLinearPairing o.P1 (ks • o.P2) ^ (raw.val % sm9Init.N.val)))) 0x02) ∨
        (raw.val % sm9Init.N.val = 0 ∧ ∃ b, big8wHighestbit env.stray .zero = some b ∧
          env.hash sm9Init (joinMsgW message (o.q12 1)) 0x02 =
            env.hash sm9Init (joinMsgW message
              (o.q12 (o.biLinearPairing o.P1 (ks • o.P2) ^ 2 ^ b))) 0x02)) := by
  obtain ⟨raw, hmem, hround⟩ := sm9Sign_some hsig
  refine ⟨raw, hmem, hround, ?_⟩
  obtain ⟨w, L, hw, hh, hS, hL, hmod, hN⟩ := signRound_some env ex hround
  obtain ⟨hpos, hle, hwraps⟩ := hashDigests_sound hh
  have hv : (Big8w.ofNat (raw.val % sm9Init.N.val)).val = raw.val % sm9Init.N.val :=
    Big8w.val_ofNat ((mod_lt _ (by decide +kernel)).trans sm9Init.N.val_lt)
  have hverify : sig.h.val < sm9Init.N.val →
      sm9VerifySignature env o sm9Init ID hid message sig (ks • o.P2) =
        (env.hash sm9Init (joinMsgW message
          (o.q12 (o.biLinearPairing o.P1 (ks • o.P2) ^ (raw.val % sm9Init.N.val)))) 0x02).map
            (big8wEqual · sig.h) := by
    intro hlt
    rw [show sig = ⟨sig.h, L • ds⟩ by rw [← hS]]
    exact sm9VerifySignature_eq env ex message hks hh1 hds hpos hlt hL
      (hmod.trans (mod_modEq _ _).symm)
  by_cases hr : raw.val % sm9Init.N.val = 0
  · have hlt : sig.h.val < sm9Init.N.val := lt_of_le_of_ne hle fun he => hN he hr
    rw [hr] at hw
    rw [show Big8w.ofNat 0 = .zero from rfl, q12PowerMod_zero, map_eq_some_iff] at hw
    obtain ⟨b, hb, rfl⟩ := hw
    rw [hverify hlt, hr, pow_zero, hb]
    simp only [ne_eq, not_true_eq_false, false_and, false_or, true_and, Option.some.injEq,
      exists_eq_left', hh, big8wEqual_eq, map_eq_some_iff, decide_eq_true_eq]
    simp
  · rw [q12PowerMod_of_ne_zero _ _ (by rwa [hv]), hv, Option.some.injEq] at hw
    subst hw
    simp only [hr, ne_eq, not_false_eq_true, true_and, false_and, or_false]
    rw [Env.HashWraps, ← hwraps]
    by_cases hlt : sig.h.val < sm9Init.N.val
    · rw [hverify hlt, hh]
      simp [big8wEqual_eq, hlt.ne]
    · have he : sig.h.val = sm9Init.N.val := by omega
      simp [sm9VerifySignature, big8wBigThan_eq, he]

end Scheme

end

section

def residueGroups :
    Groups (ZMod sm9Init.N.val) (ZMod sm9Init.N.val) (Multiplicative (ZMod sm9Init.N.val)) where
  P1 := 1
  P2 := 1
  g1pointMult n P := n.val * P
  g1pointAdd P Q := P + Q
  g2PointMult n Q := n.val * Q
  g2PointAdd Q R := Q + R
  biLinearPairing P Q := .ofAdd (P * Q)
  pointInG1 P := decide (P ≠ 0)
  coords P := ⟨.ofNat P.val, .zero⟩
  q12 w := ⟨⟨⟨.zero, .zero⟩, ⟨.zero, .zero⟩⟩, ⟨⟨.zero, .zero⟩, ⟨.zero, .zero⟩⟩,
    ⟨⟨.zero, .zero⟩, ⟨.zero, .ofNat w.toAdd.val⟩⟩⟩

lemma residueGroups_exact : residueGroups.Exact sm9Init.N.val where
  bilinear := ⟨fun P P' Q => by simp [residueGroups, add_mul],
    fun P Q Q' => by simp [residueGroups, mul_add]⟩
  g1pointMult_eq n P _ := (nsmul_eq_mul n.val P).symm
  g1pointAdd_eq _ _ := rfl
  g2PointMult_eq n Q _ := (nsmul_eq_mul n.val Q).symm
  g2PointAdd_eq _ _ := rfl
  pointInG1_eq P h := by simp [residueGroups, h]
  order P := by simp
  order_P1 n h := by
    simp only [residueGroups, nsmul_one] at h
    exact (ZMod.natCast_eq_zero_iff n _).mp h

def lastByteSm3 (z : List UInt8) : Digest :=
  match z.reverse with
  | ctr :: _ :: _ :: _ :: b :: _ =>
    if ctr = 1 then .replicate 32 0 else (Vector.replicate 32 0).set 7 (b + 1)
  | _ => .replicate 32 0

def sampleEnv : Env := ⟨lastByteSm3, fun _ => 1, 4⟩

def quarter : Nat := 0x88b0000001fabd356082c07bf82b15733775ee7852afe8f32c132935a0f71b5c

lemma isSignKey_quarter : IsSignKey residueGroups sm9Init.N.val 1 3 (quarter : ZMod _) :=
  ⟨quarter, by decide +kernel, (nsmul_one quarter).symm⟩

theorem sm9Sign_zero_rejected :
    residueGroups.Exact sm9Init.N.val ∧ Nat.Coprime 1 sm9Init.N.val ∧
    sampleEnv.hash sm9Init (joinIDhid [] 1) 0x01 = some (.ofNat 3) ∧
    IsSignKey residueGroups sm9Init.N.val 1 3 (quarter : ZMod _) ∧
    (do
      let sig ← sm9Sign sampleEnv residueGroups sm9Init [] (quarter : ZMod _)
        (1 • residueGroups.P2) [.zero]
      sm9VerifySignature sampleEnv residueGroups sm9Init [] 1 [] sig (1 • residueGroups.P2)) =
        some false :=
  ⟨residueGroups_exact, coprime_one_left _, by decide +kernel, isSignKey_quarter,
    by decide +kernel⟩

theorem sm9Sign_one_accepted :
    sm9VerifySignature sampleEnv residueGroups sm9Init [] 1 []
      ⟨.ofNat 3, -((2 * quarter : Nat) : ZMod _)⟩ (1 • residueGroups.P2) = some true := by
  obtain ⟨raw, hmem, -, hiff⟩ := sm9Sign_accepted_iff sampleEnv residueGroups_exact
    (coprime_one_left _)
    (by decide +kernel : sampleEnv.hash sm9Init (joinIDhid [] 1) 0x01 = some (.ofNat 3))
    isSignKey_quarter
    (by decide +kernel : sm9Sign sampleEnv residueGroups sm9Init [] (quarter : ZMod _)
      (1 • residueGroups.P2) [.one] = some ⟨.ofNat 3, -((2 * quarter : Nat) : ZMod _)⟩)
  rw [List.mem_singleton] at hmem
  subst hmem
  refine hiff.mpr (.inl ⟨by decide +kernel, fun hwraps => ?_⟩)
  exact absurd hwraps.1 (by decide +kernel)

end

end Xiuos.Sm9
