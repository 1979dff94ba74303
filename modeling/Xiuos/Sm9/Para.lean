import Xiuos.Sm9.BignumLaws

/-! The curve constants of `sm9_para.c`, as `SM9Init` loads them, and the multiplication
modulo one of the two moduli. -/

namespace Xiuos.Sm9
open Lib List

def sm9Q : Big8w :=
  ⟨[0xE351457D, 0xE56F9B27, 0x1A7AEEDB, 0x21F2934B,
    0xF58EC745, 0xD603AB4F, 0x02A3A6F1, 0xB6400000], rfl⟩

def sm9N : Big8w :=
  ⟨[0xD69ECF25, 0xE56EE19C, 0x18EA8BEE, 0x49F2934B,
    0xF58EC744, 0xD603AB4F, 0x02A3A6F1, 0xB6400000], rfl⟩

def sm9Q2k : Big8w :=
  ⟨[0xb417e2d2, 0x27dea312, 0xae1a5d3f, 0x88f8105f,
    0xd6706e7b, 0xe479b522, 0x56f62fbd, 0x2ea795a6], rfl⟩

def sm9N2k : Big8w :=
  ⟨[0xcd750c35, 0x7598cd79, 0xbb6daeab, 0xe4a08110,
    0x7d78a1f9, 0xbfee4bae, 0x63695d0e, 0x8894f5d1], rfl⟩

def qlowReverse : UInt32 := 0x2f2ee42b

def nlowReverse : UInt32 := 0x51974b53

structure Globals where
  q : Big8w
  N : Big8w
  q2k : Big8w
  N2k : Big8w

def sm9Init : Globals := ⟨sm9Q, sm9N, sm9Q2k, sm9N2k⟩

def firstWords (res : List UInt32) : Big8w :=
  ⟨(List.range 8).map fun i => res.getD i 0, by simp⟩

lemma firstWords_val {res : List UInt32} (hl : 8 ≤ res.length) (h : Limbs.val res < 2 ^ 256) :
    (firstWords res).val = Limbs.val res := by
  have hw : (firstWords res).word = res.take 8 := by
    apply ext_getElem
    · simp [firstWords, hl]
    · intro i h1 h2
      simp only [firstWords, length_map, length_range] at h1
      simp [firstWords, getD_eq_getElem?_getD, getElem?_eq_getElem (by omega : i < res.length)]
  rw [Big8w.val, hw, Limbs.val_take_of_lt h]

def big8wMultMod (g : Globals) (bn1 bn2 p : Big8w) : Option Big8w :=
  let flag := big8wEqual p g.q
  let fill := if flag then qlowReverse else nlowReverse
  if big8wIsZero bn1 || big8wIsZero bn2 then
    some .zero
  else do
    let res ← big8wMontMult bn1 bn2 p fill
    let ret := firstWords res
    let res ← if flag then big8wMontMult ret g.q2k p fill else big8wMontMult ret g.N2k p fill
    some (firstWords res)

end Xiuos.Sm9
