import Xiuos.Kernel.HeapRealloc
import Xiuos.Lib.Run

namespace Xiuos.Kernel
open Lib Function List Option

structure HeapUser where
  heap : HeapState
  live : List (Nat × Nat)

inductive HeapCall
  | malloc (size : Nat)
  | calloc (count size : Nat)
  | realloc (pointer size : Nat)
  | free (pointer : Nat)
  | write (pointer offset : Nat) (v : UInt8)

namespace HeapUser
variable (cfg : HeapConfig) (w : HeapUser)

def pointers : List Nat := w.live.map Prod.fst

def Legal : HeapCall → Prop
  | .malloc size => size < cfg.limit
  | .calloc count size => count < cfg.limit ∧ size < cfg.limit
  | .realloc pointer size => (pointer = 0 ∨ pointer ∈ w.pointers) ∧ size < cfg.limit
  | .free pointer => pointer = 0 ∨ pointer ∈ w.pointers
  | .write pointer offset _ => pointer ∈ w.pointers ∧ offset < capacity cfg w.heap pointer

instance decidableLegal : ∀ i, Decidable (Legal cfg w i)
  | .malloc size => inferInstanceAs (Decidable (size < cfg.limit))
  | .calloc count size => inferInstanceAs (Decidable (count < cfg.limit ∧ size < cfg.limit))
  | .realloc pointer size =>
    inferInstanceAs (Decidable ((pointer = 0 ∨ pointer ∈ w.pointers) ∧ size < cfg.limit))
  | .free pointer => inferInstanceAs (Decidable (pointer = 0 ∨ pointer ∈ w.pointers))
  | .write pointer offset _ =>
    inferInstanceAs (Decidable (pointer ∈ w.pointers ∧ offset < capacity cfg w.heap pointer))

def gain (result : HeapState × Nat) (size : Nat) : HeapUser where
  heap := result.1
  live := if result.2 = 0 then w.live else (result.2, size) :: w.live

def drop (pointer : Nat) : List (Nat × Nat) := w.live.filter (·.1 ≠ pointer)

def call : HeapCall → Option HeapUser
  | .malloc size => do
    let result ← xMalloc cfg w.heap size
    some (w.gain result size)
  | .calloc count size => do
    let result ← xCalloc cfg w.heap count size
    some (w.gain result (count * size))
  | .realloc pointer size => do
    let result ← xRealloc cfg w.heap pointer size
    if size = 0 then some ⟨result.1, w.drop pointer⟩
    else if result.2 = 0 then some { w with heap := result.1 }
    else some ⟨result.1, (result.2, size) :: w.drop pointer⟩
  | .free pointer => do
    let heap ← xFree cfg w.heap pointer
    some ⟨heap, w.drop pointer⟩
  | .write pointer offset v =>
    some { w with heap := { w.heap with mem := Function.update w.heap.mem (pointer + offset) v } }

def step (i : HeapCall) : Option HeapUser := if Legal cfg w i then call cfg w i else none

end HeapUser

namespace HeapCall

def Concerns (pointer : Nat) : HeapCall → Prop
  | .malloc _ | .calloc .. => False
  | .realloc p _ | .free p | .write p .. => pointer = p

def Exact (cfg : HeapConfig) : HeapCall → Prop
  | .calloc count size => count * size < cfg.limit
  | .malloc _ | .realloc .. | .free _ | .write .. => True

end HeapCall

namespace HeapUser

variable {cfg : HeapConfig} {base : Fin 2 → Option Nat} {w w' : HeapUser} {inner inner' : List Cell}
  {rest rest' : List Entry} {fl fl' : Fin 2 → List Nat} {s s' : HeapState} {p q c d n : Nat}

structure Inv (cfg : HeapConfig) (base : Fin 2 → Option Nat) (w : HeapUser) (inner : List Cell)
    (rest : List Entry) (fl : Fin 2 → List Nat) : Prop where
  good : Good cfg base w.heap inner rest fl
  nodup : w.pointers.Nodup
  live_iff : ∀ p, p ∈ w.pointers ↔ ∃ c, Allocated cfg base w.heap inner fl p c

structure Effect (cfg : HeapConfig) (w : HeapUser) (i : HeapCall) (w' : HeapUser) : Prop where
  stays : ∀ a ∈ w.live, ¬ i.Concerns a.1 → a ∈ w'.live
  capacity_eq : ∀ a ∈ w.live, a ∈ w'.live → capacity cfg w'.heap a.1 = capacity cfg w.heap a.1
  mem_eq : ∀ a ∈ w.live, ¬ i.Concerns a.1 → ∀ x, a.1 ≤ x → x < a.1 + capacity cfg w.heap a.1 →
    w'.heap.mem x = w.heap.mem x
  large : i.Exact cfg → ∀ a ∈ w'.live, a ∈ w.live ∨ a.2 ≤ capacity cfg w'.heap a.1

lemma mem_pointers_drop : q ∈ (w.drop p).map Prod.fst ↔ q ∈ w.pointers ∧ q ≠ p := by
  simp only [drop, pointers, List.mem_map, mem_filter, decide_eq_true_eq]
  constructor
  · rintro ⟨a, ⟨ha, hne⟩, rfl⟩
    exact ⟨⟨a, ha, rfl⟩, hne⟩
  · rintro ⟨⟨a, ha, rfl⟩, hne⟩
    exact ⟨a, ⟨ha, hne⟩, rfl⟩

namespace Inv
variable (h : Inv cfg base w inner rest fl)
include h

lemma allocated {a : Nat × Nat} (ha : a ∈ w.live) :
    Allocated cfg base w.heap inner fl a.1 (capacity cfg w.heap a.1) := by
  obtain ⟨c, hc⟩ := (h.live_iff a.1).mp (List.mem_map_of_mem ha)
  rwa [h.good.capacity_eq hc]

lemma ne_zero (hp : p ∈ w.pointers) : p ≠ 0 := by
  obtain ⟨c, hc⟩ := (h.live_iff p).mp hp
  have := h.good.inside hc
  have := header_lt_freeNode cfg
  omega

lemma gain (hg : Good.Grants cfg base w.heap inner fl s' inner' rest' fl' p c) :
    Inv cfg base ⟨s', (p, n) :: w.live⟩ inner' rest' fl' where
  good := hg.good
  nodup := by
    refine nodup_cons.mpr ⟨fun hp => ?_, h.nodup⟩
    obtain ⟨d, hd⟩ := (h.live_iff p).mp hp
    exact hg.fresh d hd
  live_iff q := by
    have hiff := h.live_iff q
    simp only [pointers, map_cons, mem_cons] at hiff ⊢
    rw [hiff]
    simp only [hg.allocated]
    constructor
    · rintro (rfl | ⟨d, hd⟩)
      · exact ⟨c, .inr ⟨rfl, rfl⟩⟩
      · exact ⟨d, .inl hd⟩
    · rintro ⟨d, hd | ⟨rfl, rfl⟩⟩
      · exact .inr ⟨d, hd⟩
      · exact .inl rfl

lemma lose (hr : Releases cfg base w.heap inner fl s' inner' rest' fl' p) :
    Inv cfg base ⟨s', w.drop p⟩ inner' rest' fl' where
  good := hr.good
  nodup := h.nodup.sublist (filter_sublist.map _)
  live_iff q := by
    rw [pointers, mem_pointers_drop, h.live_iff q]
    simp only [hr.allocated]
    constructor
    · rintro ⟨⟨d, hd⟩, hne⟩
      exact ⟨d, hd, hne⟩
    · rintro ⟨d, hd, hne⟩
      exact ⟨⟨d, hd⟩, hne⟩

lemma replace (hr : Replaces cfg base w.heap inner fl s' inner' rest' fl' p q d) :
    Inv cfg base ⟨s', (q, n) :: w.drop p⟩ inner' rest' fl' where
  good := hr.good
  nodup := by
    refine nodup_cons.mpr ⟨fun hq => ?_, h.nodup.sublist (filter_sublist.map _)⟩
    obtain ⟨e, he⟩ := (h.live_iff q).mp (mem_pointers_drop.mp hq).1
    exact hr.fresh e he
  live_iff r := by
    have hdrop := mem_pointers_drop (w := w) (q := r) (p := p)
    simp only [pointers, map_cons, mem_cons] at hdrop ⊢
    rw [hdrop, ← pointers, h.live_iff r]
    simp only [hr.allocated]
    constructor
    · rintro (rfl | ⟨⟨e, he⟩, hne⟩)
      · exact ⟨d, .inr ⟨rfl, rfl⟩⟩
      · exact ⟨e, .inl ⟨he, hne⟩⟩
    · rintro ⟨e, ⟨he, hne⟩ | ⟨rfl, rfl⟩⟩
      · exact .inr ⟨⟨e, he⟩, hne⟩
      · exact .inl rfl

lemma drop_zero : w.drop 0 = w.live :=
  filter_eq_self.mpr fun a ha => by simpa using h.ne_zero (List.mem_map_of_mem ha)

omit h in
lemma same (i : HeapCall) : Effect cfg w i w where
  stays _ ha _ := ha
  capacity_eq _ _ _ := rfl
  mem_eq _ _ _ _ _ _ := rfl
  large _ _ ha := .inl ha

variable {i : HeapCall}

lemma gain_effect (hg : Good.Grants cfg base w.heap inner fl s' inner' rest' fl' p c)
    (hn : i.Exact cfg → n ≤ c) : Effect cfg w i ⟨s', (p, n) :: w.live⟩ where
  stays _ ha _ := mem_cons_of_mem _ ha
  capacity_eq a ha _ := hg.good.capacity_eq ((hg.allocated _ _).mpr (.inl (h.allocated ha)))
  mem_eq a ha _ x h1 h2 := by
    refine hg.spares _ _ (h.allocated ha) ?_ x h1 h2
    intro heq
    exact hg.fresh _ (heq ▸ h.allocated ha)
  large hi a ha := by
    obtain rfl | ha := mem_cons.mp ha
    · refine .inr ?_
      rw [hg.good.capacity_eq ((hg.allocated p c).mpr (.inr ⟨rfl, rfl⟩))]
      exact hn hi
    · exact .inl ha

omit h in
lemma mem_drop {a : Nat × Nat} : a ∈ w.drop p ↔ a ∈ w.live ∧ a.1 ≠ p := by simp [drop]

lemma lose_effect (hr : Releases cfg base w.heap inner fl s' inner' rest' fl' p)
    (hi : i.Concerns p) : Effect cfg w i ⟨s', w.drop p⟩ := by
  have hne {a : Nat × Nat} (ha : ¬ i.Concerns a.1) : a.1 ≠ p := fun heq => ha (heq ▸ hi)
  exact {
    stays := fun a ha hnot => mem_drop.mpr ⟨ha, hne hnot⟩
    capacity_eq := fun a ha ha' => hr.good.capacity_eq
      ((hr.allocated _ _).mpr ⟨h.allocated ha, (mem_drop.mp ha').2⟩)
    mem_eq := fun a ha hnot x h1 h2 => hr.spares _ _ (h.allocated ha) (hne hnot) x h1 h2
    large := fun _ a ha => .inl (mem_drop.mp ha).1 }

lemma replace_effect (hr : Replaces cfg base w.heap inner fl s' inner' rest' fl' p q d)
    (hi : i.Concerns p) (hn : n ≤ d) : Effect cfg w i ⟨s', (q, n) :: w.drop p⟩ := by
  have hne {a : Nat × Nat} (ha : ¬ i.Concerns a.1) : a.1 ≠ p := fun heq => ha (heq ▸ hi)
  exact {
    stays := fun a ha hnot =>
      mem_cons_of_mem _ (mem_drop.mpr ⟨ha, hne hnot⟩)
    capacity_eq := by
      intro a ha ha'
      obtain rfl | ha' := mem_cons.mp ha'
      · exact absurd (h.allocated ha) (hr.fresh _)
      · exact hr.good.capacity_eq ((hr.allocated _ _).mpr
          (.inl ⟨h.allocated ha, (mem_drop.mp ha').2⟩))
    mem_eq := fun a ha hnot x h1 h2 => hr.spares _ _ (h.allocated ha) (hne hnot) x h1 h2
    large := by
      intro _ a ha
      obtain rfl | ha := mem_cons.mp ha
      · refine .inr ?_
        rw [hr.good.capacity_eq ((hr.allocated q d).mpr (.inr ⟨rfl, rfl⟩))]
        exact hn
      · exact .inl (mem_drop.mp ha).1 }

lemma write (hp : p ∈ w.pointers) (hk : n < capacity cfg w.heap p) (v : UInt8) :
    Inv cfg base { w with heap := { w.heap with
      mem := Function.update w.heap.mem (p + n) v } } inner rest fl ∧
    Effect cfg w (.write p n v) { w with heap := { w.heap with
      mem := Function.update w.heap.mem (p + n) v } } := by
  obtain ⟨c, hc⟩ := (h.live_iff p).mp hp
  rw [h.good.capacity_eq hc] at hk
  have hgood := h.good.write hc (m := Function.update w.heap.mem (p + n) v)
    fun x hx => update_of_ne (by omega) _ _
  have hsame {q d : Nat} (hq : Allocated cfg base w.heap inner fl q d) :
      Allocated cfg base { w.heap with mem := Function.update w.heap.mem (p + n) v } inner fl q d :=
    hq.congr rfl
  refine ⟨⟨hgood, h.nodup, fun q => ?_⟩, fun _ ha _ => ha, fun a ha _ => ?_,
    fun a ha hne x h1 h2 => ?_, fun _ a ha => .inl ha⟩
  · refine (h.live_iff q).trans (exists_congr fun d => ⟨hsame, fun hq => hq.congr rfl⟩)
  · exact hgood.capacity_eq (hsame (h.allocated ha))
  · refine update_of_ne ?_ _ _
    obtain ⟨heq, -⟩ | hapart := h.good.apart hc (h.allocated ha)
    · exact absurd heq.symm hne
    · omega

lemma returns (hr : Good.Roomy cfg) (hl : Legal cfg w i) :
    ∃ w' inner' rest' fl', call cfg w i = some w' ∧
      Inv cfg base w' inner' rest' fl' ∧ Effect cfg w i w' := by
  cases i with
  | malloc size =>
    simp only [HeapUser.call]
    obtain hnull | ⟨s', inner', rest', fl', p, c, hcall, hc, hg⟩ := h.good.xMalloc hr size
    · rw [hnull]
      exact ⟨w, inner, rest, fl, rfl, h, same _⟩
    · rw [hcall]
      refine ⟨_, inner', rest', fl', rfl, ?_⟩
      rw [HeapUser.gain, if_neg hg.ne_zero]
      exact ⟨h.gain hg, h.gain_effect hg fun _ => hc⟩
  | calloc count size =>
    simp only [HeapUser.call]
    obtain hnull | ⟨s', inner', rest', fl', p, c, hcall, hne, hc, hg, -⟩ :=
      h.good.xCalloc hr count size
    · rw [hnull]
      exact ⟨w, inner, rest, fl, rfl, h, same _⟩
    · rw [hcall]
      refine ⟨_, inner', rest', fl', rfl, ?_⟩
      rw [HeapUser.gain, if_neg hne]
      refine ⟨h.gain hg, h.gain_effect hg fun hi => ?_⟩
      rwa [Nat.mod_eq_of_lt hi] at hc
  | realloc pointer size =>
    simp only [HeapUser.call]
    obtain ⟨rfl | hp, -⟩ := hl
    · have hnew : xRealloc cfg w.heap 0 size = xMalloc cfg w.heap size := if_pos rfl
      rw [hnew, h.drop_zero]
      obtain hnull | ⟨s', inner', rest', fl', p, c, hcall, hc, hg⟩ := h.good.xMalloc hr size
      · rw [hnull]
        refine ⟨w, inner, rest, fl, ?_, h, same _⟩
        simp
      · have hsize : size ≠ 0 := by
          rintro rfl
          have hzero : xMalloc cfg w.heap 0 = some (w.heap, 0) := if_pos (.inl rfl)
          rw [hzero] at hcall
          cases hcall
          exact hg.ne_zero rfl
        rw [hcall]
        simp only [bind_eq_bind, bind_some, if_neg hsize, if_neg hg.ne_zero]
        exact ⟨_, inner', rest', fl', rfl, h.gain hg, h.gain_effect hg fun _ => hc⟩
    · obtain ⟨c, hc⟩ := (h.live_iff pointer).mp hp
      by_cases hsize : size = 0
      · obtain ⟨s', inner', rest', fl', hfree, hrel⟩ := h.good.xFree hc
        have hgone : xRealloc cfg w.heap pointer size = some (s', 0) := by
          rw [xRealloc, if_neg (h.ne_zero hp), if_pos hsize, hfree]
          rfl
        rw [hgone]
        simp only [bind_eq_bind, bind_some, if_pos hsize]
        exact ⟨_, inner', rest', fl', rfl, h.lose hrel, h.lose_effect hrel rfl⟩
      · obtain hnull | ⟨s', inner', rest', fl', q, d, hcall, hne, hd, hrep, -⟩ :=
          h.good.xRealloc hr hc hsize
        · rw [hnull]
          simp only [bind_eq_bind, bind_some, if_neg hsize, if_true]
          exact ⟨w, inner, rest, fl, rfl, h, same _⟩
        · rw [hcall]
          simp only [bind_eq_bind, bind_some, if_neg hsize, if_neg hne]
          exact ⟨_, inner', rest', fl', rfl, h.replace hrep, h.replace_effect hrep rfl hd⟩
  | free pointer =>
    simp only [HeapUser.call]
    obtain rfl | hp := hl
    · rw [h.drop_zero]
      exact ⟨w, inner, rest, fl, rfl, h, same _⟩
    · obtain ⟨c, hc⟩ := (h.live_iff pointer).mp hp
      obtain ⟨s', inner', rest', fl', hfree, hrel⟩ := h.good.xFree hc
      rw [hfree]
      exact ⟨_, inner', rest', fl', rfl, h.lose hrel, h.lose_effect hrel rfl⟩
  | write pointer offset v =>
    obtain ⟨hinv, heffect⟩ := h.write hl.1 hl.2 v
    exact ⟨_, inner, rest, fl, rfl, hinv, heffect⟩

lemma step (hr : Good.Roomy cfg) (hstep : step cfg w i = some w') :
    ∃ inner' rest' fl', Inv cfg base w' inner' rest' fl' ∧ Effect cfg w i w' := by
  rw [HeapUser.step] at hstep
  split at hstep
  · rename_i hl
    obtain ⟨w₁, inner', rest', fl', hcall, hinv, heffect⟩ := h.returns hr hl
    obtain rfl : w₁ = w' := Option.some.inj (hcall.symm.trans hstep)
    exact ⟨inner', rest', fl', hinv, heffect⟩
  · cases hstep

end Inv

def Reached (cfg : HeapConfig) (startPhyAddress endPhyAddress : Nat) (boot : HeapState)
    (w : HeapUser) : Prop :=
  ∃ mem calls, initBoardMemory cfg (bootState mem) startPhyAddress endPhyAddress = some boot ∧
    runs (HeapUser.step cfg) ⟨boot, []⟩ calls = some w

lemma start (h : Fresh cfg s inner rest) :
    Inv cfg (poolBase s) ⟨s, []⟩ inner rest (fullLists cfg (poolBase s)) where
  good := h.good
  nodup := nodup_nil
  live_iff p := by
    constructor
    · intro hp
      cases hp
    · rintro ⟨c, hc⟩
      exact absurd hc (h.none p c)

lemma Reached.inv {startPhyAddress endPhyAddress : Nat} {boot : HeapState}
    (h : Reached cfg startPhyAddress endPhyAddress boot w) (hr : Good.Roomy cfg)
    (hregion : Region cfg startPhyAddress endPhyAddress)
    (hlt : Region.size cfg startPhyAddress endPhyAddress < 2 ^ 32) :
    ∃ inner rest fl, Inv cfg (poolBase boot) w inner rest fl := by
  obtain ⟨mem, calls, hboot, hrun⟩ := h
  obtain ⟨s, inner, rest, hboot', hfresh, -⟩ := hregion.boot hlt mem
  obtain rfl : s = boot := Option.some.inj (hboot'.symm.trans hboot)
  have hall : Always (HeapUser.step cfg)
      (fun w => ∃ inner rest fl, Inv cfg (poolBase s) w inner rest fl) ⟨s, []⟩ calls := by
    refine always_of_step ?_ ⟨inner, rest, _, start hfresh⟩ calls
    rintro w i w' ⟨inner, rest, fl, hI⟩ hstep
    obtain ⟨inner', rest', fl', hI', -⟩ := hI.step hr hstep
    exact ⟨inner', rest', fl', hI'⟩
  exact hall.last hrun

end HeapUser
end Xiuos.Kernel
