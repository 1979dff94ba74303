import Xiuos.Sm9.Para
import Xiuos.Sm9.Qn

/-! The Frobenius maps of `qn.c` with the constants of `sm9_para.c`, and the final exponentiation
that is built on them. -/

namespace Xiuos.Sm9
open Lib Radical Big8w

def fc1_1 : Big8w :=
  ⟨[0xE351457C, 0xE56F9B27, 0x1A7AEEDB, 0x21F2934B,
    0xF58EC745, 0xD603AB4F, 0x02A3A6F1, 0xB6400000], rfl⟩

def fc1_2 : Big8w :=
  ⟨[0xDA24D011, 0xF5B21FD3, 0x06DC5177, 0x9F9D4118,
    0xEE0BAF15, 0xF55ACC93, 0xDC0A3F2C, 0x6C648DE5], rfl⟩

def fc1_3 : Big8w :=
  ⟨[0x092c756c, 0xefbd7b54, 0x139e9d63, 0x82555233,
    0x0783182f, 0xe0a8debc, 0x269967c4, 0x49db721a], rfl⟩

def fc1_4 : Big8w :=
  ⟨[0x377b698b, 0xa91d8354, 0x0ddd04ed, 0x47c5c86e,
    0x9c086749, 0x843c6cfa, 0xe5720bdb, 0x3f23ea58], rfl⟩

def fc1_5 : Big8w :=
  ⟨[0xabd5dbf2, 0x3c5217d3, 0x0c9de9ee, 0xda2ccadd,
    0x59865ffb, 0x51c73e55, 0x1d319b16, 0x771c15a7], rfl⟩

def fc1_6 : Big8w :=
  ⟨[0x7be65333, 0xd5fc1196, 0x4f8b78f4, 0x78027235,
    0x02a3a6f2, 0xf3000000, 0, 0], rfl⟩

def fc1_7 : Big8w :=
  ⟨[0x676af24a, 0x0f738991, 0xcaef75e7, 0xa9f02115,
    0xf2eb2052, 0xe303ab4f, 0x02a3a6f0, 0xb6400000], rfl⟩

def fc1_8 : Big8w :=
  ⟨[0x7be65334, 0xd5fc1196, 0x4f8b78f4, 0x78027235,
    0x02a3a6f2, 0xf3000000, 0, 0], rfl⟩

def fc1_9 : Big8w :=
  ⟨[0x676af249, 0x0f738991, 0xcaef75e7, 0xa9f02115,
    0xf2eb2052, 0xe303ab4f, 0x02a3a6f0, 0xb6400000], rfl⟩

def fc1_10 : Big8w :=
  ⟨[0xa2a96686, 0x4c949c7f, 0xf8ff4c8a, 0x57d778a9,
    0x520347cc, 0x711e5f99, 0xf6983351, 0x2d40a38c], rfl⟩

def fc1_11 : Big8w :=
  ⟨[0x40a7def7, 0x98dafea8, 0x217ba251, 0xca1b1aa1,
    0xa38b7f78, 0x64e54bb6, 0x0c0b73a0, 0x88ff5c73], rfl⟩

def fc2_2 : Big8w :=
  ⟨[0xE351457C, 0xE56F9B27, 0x1A7AEEDB, 0x21F2934B,
    0xF58EC745, 0xD603AB4F, 0x02A3A6F1, 0xB6400000], rfl⟩

def fc2_3 : Big8w :=
  ⟨[0xE351457C, 0xE56F9B27, 0x1A7AEEDB, 0x21F2934B,
    0xF58EC745, 0xD603AB4F, 0x02A3A6F1, 0xB6400000], rfl⟩

def fc2_4 : Big8w :=
  ⟨[0x7BE65334, 0xD5FC1196, 0x4F8B78F4, 0x78027235,
    0x02A3A6F2, 0xF3000000, 0, 0], rfl⟩

def fc2_5 : Big8w :=
  ⟨[0x7BE65334, 0xD5FC1196, 0x4F8B78F4, 0x78027235,
    0x02A3A6F2, 0xF3000000, 0, 0], rfl⟩

def fc2_6 : Big8w :=
  ⟨[0x676AF249, 0x0F738991, 0xCAEF75E7, 0xA9F02115,
    0xF2EB2052, 0xE303AB4F, 0x02A3A6F0, 0xB6400000], rfl⟩

def fc2_7 : Big8w :=
  ⟨[0x676AF249, 0x0F738991, 0xCAEF75E7, 0xA9F02115,
    0xF2EB2052, 0xE303AB4F, 0x02A3A6F0, 0xB6400000], rfl⟩

def fc2_8 : Big8w :=
  ⟨[0x7BE65333, 0xD5FC1196, 0x4F8B78F4, 0x78027235,
    0x02A3A6F2, 0xF3000000, 0, 0], rfl⟩

def fc2_9 : Big8w :=
  ⟨[0x7BE65333, 0xD5FC1196, 0x4F8B78F4, 0x78027235,
    0x02A3A6F2, 0xF3000000, 0, 0], rfl⟩

def fc2_10 : Big8w :=
  ⟨[0x676AF24A, 0x0F738991, 0xCAEF75E7, 0xA9F02115,
    0xF2EB2052, 0xE303AB4F, 0x02A3A6F0, 0xB6400000], rfl⟩

def fc2_11 : Big8w :=
  ⟨[0x676AF24A, 0x0F738991, 0xCAEF75E7, 0xA9F02115,
    0xF2EB2052, 0xE303AB4F, 0x02A3A6F0, 0xB6400000], rfl⟩

def frobeniusConstant1 : Fin 12 → Big8w :=
  ![.one, fc1_1, fc1_2, fc1_3, fc1_4, fc1_5, fc1_6, fc1_7, fc1_8, fc1_9, fc1_10, fc1_11]

def frobeniusConstant2 : Fin 12 → Big8w :=
  ![.one, .one, fc2_2, fc2_3, fc2_4, fc2_5, fc2_6, fc2_7, fc2_8, fc2_9, fc2_10, fc2_11]

def sm9T : Big8w := ⟨[0x0058F98A, 0x60000000, 0, 0, 0, 0, 0, 0], rfl⟩

section
variable {α : Type} (k : BaseField α)

def q12Scale (c : Fin 12 → α) (f : Q12 α) : Q12 α where
  high := ⟨⟨k.multMod f.high.high.high (c 11), k.multMod f.high.high.low (c 10)⟩,
    ⟨k.multMod f.high.low.high (c 9), k.multMod f.high.low.low (c 8)⟩⟩
  mid := ⟨⟨k.multMod f.mid.high.high (c 7), k.multMod f.mid.high.low (c 6)⟩,
    ⟨k.multMod f.mid.low.high (c 5), k.multMod f.mid.low.low (c 4)⟩⟩
  low := ⟨⟨k.multMod f.low.high.high (c 3), k.multMod f.low.high.low (c 2)⟩,
    ⟨k.multMod f.low.low.high (c 1), k.multMod f.low.low.low (c 0)⟩⟩

def q12Frobenius (c1 c2 : Fin 12 → α) (f : Q12 α) (flag : UInt8) : Q12 α :=
  if flag = 1 then q12Scale k c1 f
  else if flag = 2 then q12Scale k c2 f
  else if flag = 6 then
    { high := ⟨q2Negate k f.high.high, f.high.low⟩
      mid := ⟨f.mid.high, q2Negate k f.mid.low⟩
      low := ⟨q2Negate k f.low.high, f.low.low⟩ }
  else f

end

section
variable {q : ℕ} {c₁ c₂ c₄ : ZMod q} (h₁ : c₁ ^ 2 = 1) (h₂ : c₂ ^ 2 = c₁) (h₄ : c₄ ^ 3 = c₂)

noncomputable def fq2Map : Fq2 q →+* Fq2 q :=
  twist (.id _) c₁ (by rw [h₁, one_mul, RingHom.id_apply])

noncomputable def fq4Map : Fq4 q →+* Fq4 q :=
  twist (fq2Map h₁) (of c₂) (by rw [← map_pow, h₂, fq2Map, twist_root])

noncomputable def fq12Map : Fq12 q →+* Fq12 q :=
  twist (fq4Map h₁ h₂) (of (of c₄)) (by rw [← map_pow, ← map_pow, h₄, fq4Map, twist_root])

lemma value_q12Scale {α : Type} {k : BaseField α} {val : α → ZMod q} (hk : k.ExactRing val)
    {c : Fin 12 → α}
    (hc : ∀ i : Fin 12, val (c i) = c₁ ^ (i.val % 2) * c₂ ^ (i.val / 2 % 2) * c₄ ^ (i.val / 4))
    (f : Q12 α) : (q12Scale k c f).value val = fq12Map h₁ h₂ h₄ (f.value val) := by
  simp only [Q12.value, Q4.value, Q2.value, q12Scale, hk.mult, hc, fq12Map, fq4Map, fq2Map, map_add,
    map_mul, map_pow, twist_of, twist_root, RingHom.id_apply]
  norm_num
  ring

end

def Big8w.residue (a : Big8w) : ZMod sm9Q.val := a.val

lemma Big8w.residue_eq_iff {a : Big8w} {n : ℕ} :
    a.residue = n ↔ a.val % sm9Q.val = n % sm9Q.val := ZMod.natCast_eq_natCast_iff' ..

variable (i : Fin 12)

lemma frobeniusConstant1_residue : (frobeniusConstant1 i).residue =
    fc1_1.residue ^ (i.val % 2) * fc1_2.residue ^ (i.val / 2 % 2) *
      fc1_4.residue ^ (i.val / 4) := by
  have h : ∀ i : Fin 12, (frobeniusConstant1 i).val % sm9Q.val =
      (fc1_1.val ^ (i.val % 2) * fc1_2.val ^ (i.val / 2 % 2) * fc1_4.val ^ (i.val / 4)) %
        sm9Q.val := by decide +kernel
  have hi := residue_eq_iff.mpr (h i)
  push_cast at hi
  exact hi

lemma residue_pow_eq {a b : Big8w} {n : ℕ} (h : a.val ^ n % sm9Q.val = b.val % sm9Q.val) :
    a.residue ^ n = b.residue := by
  have hb := residue_eq_iff.mpr h.symm
  push_cast at hb
  exact hb.symm

lemma frobeniusConstant2_residue :
    (frobeniusConstant1 i).residue ^ 2 = (frobeniusConstant2 i).residue := by
  have h : ∀ i : Fin 12, (frobeniusConstant1 i).val ^ 2 % sm9Q.val =
      (frobeniusConstant2 i).val % sm9Q.val := by decide +kernel
  exact residue_pow_eq (h i)

lemma frobeniusConstant2_cube : (frobeniusConstant2 i).residue ^ 3 =
    if i.val ∈ [2, 3, 4, 5, 10, 11] then -1 else 1 := by
  have hminus : fc1_1.residue = -1 := by
    rw [eq_neg_iff_add_eq_zero]
    have h := (ZMod.natCast_eq_zero_iff (fc1_1.val + 1) sm9Q.val).mpr (by decide +kernel)
    push_cast at h
    exact h
  have hone : one.residue = 1 := by
    rw [residue, show one.val = 1 by decide +kernel, Nat.cast_one]
  have h : ∀ i : Fin 12, (frobeniusConstant2 i).val ^ 3 % sm9Q.val =
      (if i.val ∈ [2, 3, 4, 5, 10, 11] then fc1_1 else one).val % sm9Q.val := by
    decide +kernel
  rw [residue_pow_eq (h i)]
  split
  · exact hminus
  · exact hone

def sm9Frobenius (k : BaseField Big8w) (f : Q12) (flag : UInt8) : Q12 :=
  q12Frobenius k frobeniusConstant1 frobeniusConstant2 f flag

/-- The map for power one is one of rings, and gives those for the powers two and six. -/
theorem sm9Frobenius_correct {k : BaseField Big8w} (hk : k.ExactRing residue) :
    (∀ f g : Q12, (sm9Frobenius k (q12MultMod k f g) 1).residues residue =
        (q12MultMod k (sm9Frobenius k f 1) (sm9Frobenius k g 1)).residues residue ∧
      (sm9Frobenius k (q12AddMod k f g) 1).residues residue =
        (q12AddMod k (sm9Frobenius k f 1) (sm9Frobenius k g 1)).residues residue) ∧
    ∀ f : Q12, (sm9Frobenius k (sm9Frobenius k f 1) 1).residues residue =
        (sm9Frobenius k f 2).residues residue ∧
      (sm9Frobenius k (sm9Frobenius k (sm9Frobenius k f 2) 2) 2).residues residue =
        (sm9Frobenius k f 6).residues residue := by
  have hvalue := value_q12Scale (residue_pow_eq (b := .one) (by decide +kernel))
    (residue_pow_eq (by decide +kernel)) (residue_pow_eq (by decide +kernel)) hk
    frobeniusConstant1_residue
  refine ⟨fun f g => ⟨Q12.residues_inj ?_, Q12.residues_inj ?_⟩, fun f => ⟨?_, ?_⟩⟩
  · simp only [sm9Frobenius, q12Frobenius, if_true, hvalue, value_q12MultMod hk, map_mul]
  · simp only [sm9Frobenius, q12Frobenius, if_true, hvalue, value_q12AddMod hk, map_add]
  · simp [sm9Frobenius, q12Frobenius, q12Scale, Q12.residues, Q4.residues, Q2.residues, hk.mult,
      mul_assoc, ← sq, frobeniusConstant2_residue]
  · simp [sm9Frobenius, q12Frobenius, q12Scale, q2Negate, Q12.residues, Q4.residues, Q2.residues,
      hk.mult, hk.minus, hk.q, mul_assoc, ← pow_succ, ← sq, frobeniusConstant2_cube]

def residueField : BaseField Big8w where
  q := sm9Q
  addMod a b := .ofNat ((a.val + b.val) % sm9Q.val)
  minusMod a b := .ofNat ((a.val + (sm9Q.val - b.val % sm9Q.val)) % sm9Q.val)
  multMod a b := .ofNat (a.val * b.val % sm9Q.val)
  reverse a := a

lemma residue_ofNat (n : ℕ) : (ofNat (n % sm9Q.val)).residue = n := by
  have hlt : n % sm9Q.val < sm9Q.val := Nat.mod_lt _ (by decide +kernel)
  rw [residue, val_ofNat (hlt.trans sm9Q.val_lt), ZMod.natCast_mod]

lemma residueField_exact : residueField.ExactRing residue where
  q := ZMod.natCast_self _
  add a b := by
    rw [residueField, residue_ofNat, Nat.cast_add]
    rfl
  minus a b := by
    have hle : b.val % sm9Q.val ≤ sm9Q.val := (Nat.mod_lt _ (by decide +kernel)).le
    rw [residueField, residue_ofNat, Nat.cast_add, Nat.cast_sub hle, ZMod.natCast_self,
      ZMod.natCast_mod, zero_sub, ← sub_eq_add_neg]
    rfl
  mult a b := by
    rw [residueField, residue_ofNat, Nat.cast_mul]
    rfl

theorem sm9Frobenius_correct_ones :
    let one : Q2 Big8w := ⟨.one, .one⟩
    let f : Q12 := ⟨⟨one, one⟩, ⟨one, one⟩, ⟨one, one⟩⟩
    (sm9Frobenius residueField (sm9Frobenius residueField f 1) 1).residues residue =
      (sm9Frobenius residueField f 2).residues residue :=
  ((sm9Frobenius_correct residueField_exact).2 _).1

structure Q12Ops (GT : Type) where
  q12MultMod : GT → GT → GT
  q12Reverse : GT → GT
  q12PowerMod : GT → Big8w → GT
  q12Frobenius : GT → UInt8 → GT

def lastPower {GT : Type} (o : Q12Ops GT) (t : Big8w) (f : GT) : GT :=
  let m := o.q12Reverse f
  let f := o.q12Frobenius f 6
  let f := o.q12MultMod f m
  let m := f
  let f := o.q12Frobenius f 2
  let f := o.q12MultMod f m
  let m := f
  let temp := m
  let temp := o.q12Frobenius temp 1
  let s := temp
  let temp := o.q12Frobenius temp 1
  let s := o.q12MultMod s temp
  let temp := o.q12Frobenius temp 1
  let s := o.q12MultMod s temp
  let temp := o.q12PowerMod m t
  let temp := o.q12PowerMod temp t
  let g := o.q12MultMod temp temp
  let temp := o.q12MultMod g g
  let temp := o.q12MultMod temp g
  let temp := o.q12Frobenius temp 2
  let s := o.q12MultMod s temp
  let temp := m
  let temp := o.q12Frobenius temp 6
  let temp := o.q12MultMod temp temp
  let s := o.q12MultMod s temp
  let g := temp
  let temp := o.q12MultMod g g
  let g := o.q12MultMod temp g
  let g := o.q12PowerMod g t
  let temp := o.q12MultMod g g
  let s := o.q12MultMod s (o.q12MultMod temp g)
  let temp := o.q12Frobenius temp 1
  let s := o.q12MultMod s temp
  let g := o.q12PowerMod g t
  let temp := o.q12MultMod g g
  let m := o.q12MultMod g temp
  let s := o.q12MultMod s m
  let s := o.q12MultMod s temp
  let g := m
  let m := o.q12Frobenius m 1
  let s := o.q12MultMod s m
  let g := o.q12MultMod g g
  let g := o.q12PowerMod g t
  let s := o.q12MultMod s g
  let g := o.q12Frobenius g 1
  o.q12MultMod s g

structure Q12Ops.Exact {K : Type} [Field K] (o : Q12Ops K) (q : ℕ) : Prop where
  q12MultMod (a b : K) : o.q12MultMod a b = a * b
  q12Reverse (a : K) : a ≠ 0 → o.q12Reverse a = a⁻¹
  q12PowerMod (a : K) (n : Big8w) : n.val ≠ 0 → o.q12PowerMod a n = a ^ n.val
  q12Frobenius (a : K) : ∀ flag ∈ [1, 2, 6], o.q12Frobenius a flag = a ^ q ^ flag.toNat

theorem lastPower_eq {K : Type} [Field K] {o : Q12Ops K} (ho : o.Exact sm9Q.val)
    (hK : ∀ a : K, a ≠ 0 → a ^ (sm9Q.val ^ 12 - 1) = 1) {f : K} (hf : f ≠ 0) :
    lastPower o sm9T f = f ^ ((sm9Q.val ^ 12 - 1) / sm9N.val) := by
  have hone := hK f hf
  have hinv : o.q12Reverse f = f ^ (sm9Q.val ^ 12 - 2) := by
    rw [ho.q12Reverse f hf, inv_eq_of_mul_eq_one_right]
    rw [← pow_succ', ← hone]
    congr 1
  have ht : ∀ a, o.q12PowerMod a sm9T = a ^ sm9T.val :=
    fun a => ho.q12PowerMod a sm9T (by decide +kernel)
  have h1 : ∀ a, o.q12Frobenius a 1 = a ^ sm9Q.val ^ 1 := fun a => ho.q12Frobenius a 1 (by simp)
  have h2 : ∀ a, o.q12Frobenius a 2 = a ^ sm9Q.val ^ 2 := fun a => ho.q12Frobenius a 2 (by simp)
  have h6 : ∀ a, o.q12Frobenius a 6 = a ^ sm9Q.val ^ 6 := fun a => ho.q12Frobenius a 6 (by simp)
  simp only [lastPower, hinv, ho.q12MultMod, ht, h1, h2, h6, ← pow_mul, ← pow_add]
  rw [pow_eq_pow_mod _ hone]
  congr 1

def powerOps (K : Type) [Field K] (q : ℕ) : Q12Ops K :=
  ⟨(· * ·), (·⁻¹), fun a n => a ^ n.val, fun a flag => a ^ q ^ flag.toNat⟩

lemma powerOps_exact (K : Type) [Field K] (q : ℕ) : (powerOps K q).Exact q :=
  ⟨fun _ _ => rfl, fun _ _ => rfl, fun _ _ _ => rfl, fun _ _ _ => rfl⟩

instance primeSeven : Fact (Nat.Prime 7) := ⟨by norm_num⟩

theorem lastPower_eq_three : lastPower (powerOps (ZMod 7) sm9Q.val) sm9T 3 =
    3 ^ ((sm9Q.val ^ 12 - 1) / sm9N.val) := by
  refine lastPower_eq (powerOps_exact _ _) (fun a ha => ?_) (by decide)
  have hsix : 6 ∣ sm9Q.val ^ 12 - 1 := by decide +kernel
  obtain ⟨k, hk⟩ := hsix
  rw [hk, pow_mul, ZMod.pow_card_sub_one_eq_one ha, one_pow]

end Xiuos.Sm9
