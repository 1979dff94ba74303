import Xiuos.Kernel.HeapGood

namespace Xiuos.Kernel
open Lib Cell Function Nat Option
open List hiding span
variable (cfg : HeapConfig)

def Spares (cfg : HeapConfig) (base : Fin 2 → Option Nat) (s : HeapState) (inner : List Cell)
    (fl : Fin 2 → List Nat) (p : Nat) (s' : HeapState) : Prop :=
  ∀ q d, Allocated cfg base s inner fl q d → q ≠ p → ∀ x, q ≤ x → x < q + d → s'.mem x = s.mem x

def Vacant (cfg : HeapConfig) (s : HeapState) (inner : List Cell) (fl : Fin 2 → List Nat)
    (p : Nat) : Prop :=
  (∃ x z, At false (s.mmDynamicStart + cfg.header) inner x z ∧ x + cfg.header ≤ p ∧
    p < x + z) ∨ ∃ i x, x ∈ fl i ∧ p = x + cfg.header

section
variable {us vs inner : List Cell} {z least : Nat}

lemma coalesced_room (h : Coalesced us z vs inner)
    (hroom : ∀ c ∈ us ++ ⟨z, true⟩ :: vs, least ≤ c.size) : ∀ c ∈ inner, least ≤ c.size := by
  obtain ⟨us', fl, fr, vs', rfl, rfl, -, -, rfl⟩ := h
  intro c hc
  have hz := hroom ⟨z, true⟩ (by simp)
  rw [mem_append, mem_cons] at hc
  obtain hc | rfl | hc := hc
  · exact hroom c (by simp [hc])
  · simp only at hz ⊢
    omega
  · exact hroom c (by simp [hc])

lemma coalesced_at {a : Nat} (h : Coalesced us z vs inner) :
    ∃ x y, At false a inner x y ∧ x ≤ a + span us ∧ a + span us + z ≤ x + y := by
  obtain ⟨us', fl, fr, vs', rfl, rfl, -, -, rfl⟩ := h
  refine ⟨_, _, ⟨us', vs', rfl, rfl⟩, ?_, ?_⟩
  · simp only [span_append]
    omega
  · simp only [span_append]
    omega

end

inductive Gave (cfg : HeapConfig) (base : Fin 2 → Option Nat) (s : HeapState) :
    List Cell → (Fin 2 → List Nat) → List Cell → (Fin 2 → List Nat) → Nat → Prop
  | cell {us vs inner' : List Cell} {z : Nat} {fl : Fin 2 → List Nat}
    (hbase : ∀ i, base i ≠ some (HeapRep.node cfg s us + cfg.header))
    (hcoal : Coalesced us z vs inner') :
    Gave cfg base s (us ++ ⟨z, true⟩ :: vs) fl inner' fl (HeapRep.node cfg s us + cfg.header)
  | block {inner : List Cell} {fl : Fin 2 → List Nat} {i : Fin 2} {b x : Nat}
    (hb : base i = some b) (hx : IsBlock cfg i b x) :
    Gave cfg base s inner fl inner (Function.update fl i (x :: fl i)) (x + cfg.header)

structure Releases (cfg : HeapConfig) (base : Fin 2 → Option Nat) (s : HeapState)
    (inner : List Cell) (fl : Fin 2 → List Nat) (s' : HeapState) (inner' : List Cell)
    (rest' : List Entry) (fl' : Fin 2 → List Nat) (p : Nat) : Prop where
  good : Good cfg base s' inner' rest' fl'
  start : s'.mmDynamicStart = s.mmDynamicStart
  allocated : ∀ q d, Allocated cfg base s' inner' fl' q d ↔
    Allocated cfg base s inner fl q d ∧ q ≠ p
  spares : Spares cfg base s inner fl p s'
  vacant : Vacant cfg s' inner' fl' p
  lists : ∀ i, fl' i =
    if p - cfg.header ∈ fullLists cfg base i then (p - cfg.header) :: fl i else fl i
  gave : Gave cfg base s inner fl inner' fl' p

namespace Good

variable {cfg : HeapConfig} {base : Fin 2 → Option Nat} {s s' : HeapState} {inner : List Cell}
  {rest : List Entry} {fl : Fin 2 → List Nat} {p c x y z : Nat} {i : Fin 2} {b : Nat}

section
variable (h : Good cfg base s inner rest fl)
include h

lemma capacity_pos (hp : Allocated cfg base s inner fl p c) : 0 < c := by
  cases hp with
  | @cell y z hcell hbase =>
    obtain ⟨us, vs, rfl, -⟩ := hcell
    have hroom := h.room ⟨z, true⟩ (by simp)
    have := header_lt_freeNode cfg
    simp only at hroom
    omega
  | @block i b x hbase hx hout => exact smallBytes_pos i

lemma pool_of_keeps {inner' : List Cell} (halike : HeapRep.Alike cfg inner' s s')
    (hbase : base i = some b)
    (hcell : ∀ y z, b = y + cfg.header → At true (s.mmDynamicStart + cfg.header) inner y z →
      At true (s.mmDynamicStart + cfg.header) inner' y z)
    : BlockPool cfg s' i b (fl i) := by
  obtain ⟨y, z, rfl, hat, hz⟩ := h.cell i b hbase
  refine (h.pool i _ hbase).congr (congrFun halike.staticManager i) fun x hx w h1 h2 => ?_
  have hb := hx.bounds
  rw [itemSize_eq] at hb
  exact halike.keeps w (.inl (payload_guarded (hcell y z rfl hat) (by omega) (by omega)))

lemma freeCell (hcell : At true (s.mmDynamicStart + cfg.header) inner y z)
    (hbase : ∀ i, base i ≠ some (y + cfg.header)) :
    ∃ s' inner' rest', bigMemFree cfg s (y + cfg.header) = some s' ∧
      Releases cfg base s inner fl s' inner' rest' fl (y + cfg.header) := by
  obtain ⟨us, vs, rfl, rfl⟩ := id hcell
  obtain ⟨s', inner', rest', hfree, hheap, hcoal, halike⟩ :=
    h.heap.bigMemFree (h.room ⟨z, true⟩ (by simp))
  have hstart := halike.start
  have hat {y' z' : Nat} : At true (s.mmDynamicStart + cfg.header) inner' y' z' ↔
      At true (s.mmDynamicStart + cfg.header) (us ++ ⟨z, true⟩ :: vs) y' z' ∧
        y' ≠ s.mmDynamicStart + cfg.header + span us := by
    refine hcoal.at_true fun c hc => ?_
    exact lt_of_lt_of_le (Nat.lt_trans (header_lt_freeNode cfg).1 (header_lt_freeNode cfg).2)
      (h.room c hc)
  have hpool {i : Fin 2} {b : Nat} (hb : base i = some b) : BlockPool cfg s' i b (fl i) := by
    refine h.pool_of_keeps halike hb fun y' z' hy hy' => at_release hy' ?_
    rintro rfl
    exact hbase i (hy ▸ hb)
  refine ⟨s', inner', rest', hfree, ?_, hstart, ?_, ?_, .inl ?_, fun i => ?_, .cell hbase hcoal⟩
  · exact {
      heap := hheap
      room := coalesced_room hcoal h.room
      small := h.small
      pool := fun i b hb => hpool hb
      cell := by
        intro i b hb
        obtain ⟨y', z', rfl, hy', hz'⟩ := h.cell i b hb
        refine ⟨y', z', rfl, ?_, hz'⟩
        rw [hstart, hat]
        refine ⟨hy', ?_⟩
        rintro rfl
        exact hbase i hb
      absent := fun i hi => halike.staticManager ▸ h.absent i hi
      base_inj := h.base_inj
      manager_lt := h.manager_lt
      manager_ne := h.manager_ne }
  · intro q d
    constructor
    · rintro (⟨hq, hne⟩ | ⟨hb, hx, hout⟩)
      · rw [hstart, hat] at hq
        exact ⟨.cell hq.1 hne, fun heq => hq.2 (Nat.add_right_cancel heq)⟩
      · refine ⟨.block hb hx hout, fun heq => ?_⟩
        have hapart := h.cell_block hcell hbase hb hx
        have := Nat.add_right_cancel heq
        have := h.room ⟨z, true⟩ (by simp)
        have := header_lt_freeNode cfg
        rw [itemSize_eq] at hapart
        simp only at *
        omega
    · rintro ⟨hq, hne⟩
      cases hq with
      | cell hq hne' =>
        refine .cell ?_ hne'
        rw [hstart, hat]
        exact ⟨hq, fun heq => hne (by rw [heq])⟩
      | block hb hx hout => exact .block hb hx hout
  · intro q d hq hne x h1 h2
    have hhost : ∃ y' z', At true (s.mmDynamicStart + cfg.header)
      (us ++ ⟨z, true⟩ :: vs) y' z' ∧
        y' + cfg.header ≤ q ∧ q + d ≤ y' + z' ∧
        y' ≠ s.mmDynamicStart + cfg.header + span us := by
      obtain ⟨y', z', hy', h3, h4, h5⟩ := h.host hq
      refine ⟨y', z', hy', h3, h4, ?_⟩
      rintro rfl
      exact hne (h5 hbase)
    obtain ⟨y', z', hy', h3, h4, h5⟩ := hhost
    exact halike.keeps x (.inl (payload_guarded (at_release hy' h5) (by omega) (by omega)))
  · have hz := h.room ⟨z, true⟩ (by simp)
    have hpos := header_lt_freeNode cfg
    obtain ⟨x, w, hx, h1, h2⟩ := coalesced_at (a := s.mmDynamicStart + cfg.header) hcoal
    rw [← hstart] at hx
    simp only at hz
    exact ⟨x, w, hx, by omega, by omega⟩
  · rw [if_neg]
    intro hx
    obtain ⟨b, hb, hx⟩ := mem_fullLists.mp hx
    rw [Nat.add_sub_cancel] at hx
    have hapart := h.cell_block hcell hbase hb hx
    have := h.room ⟨z, true⟩ (by simp)
    have := header_lt_freeNode cfg
    rw [itemSize_eq] at hapart
    simp only at *
    omega

end

variable {xs : List Nat}

section
variable (h : Good cfg base s inner rest fl) (hb : base i = some b) (hx : IsBlock cfg i b x)
include h hb hx

lemma header_payload {w : Nat} (h1 : x ≤ w) (h2 : w < x + cfg.header) :
    Payload cfg s.mmDynamicStart (guarded cfg inner) w := by
  obtain ⟨y, z, rfl, hcell, hz⟩ := h.cell i b hb
  have hbounds := hx.bounds
  rw [itemSize_eq] at hbounds
  exact payload_guarded hcell (by omega) (by omega)

lemma header_apart {q d w : Nat} (hq : Allocated cfg base s inner fl q d) (h1 : q ≤ w)
    (h2 : w < q + d) : w < x ∨ x + cfg.header ≤ w := by
  cases hq with
  | @cell y z hcell hne =>
    have hz := h.header_le hcell
    have hapart := h.cell_block hcell hne hb hx
    rw [itemSize_eq] at hapart
    omega
  | @block j b' x' hb' hx' hout =>
    have hapart := h.blocks_apart hb hx hb' hx'
    rw [itemSize_eq, itemSize_eq] at hapart
    omega

lemma block_step {m : Mem} {man : Fin 2 → Segment}
    (hm : ∀ w, w < x ∨ x + cfg.header ≤ w → m w = s.mem w)
    (hman : ∀ j, j ≠ i → man j = s.staticManager j)
    (hpool : BlockPool cfg { s with mem := m, staticManager := man } i b xs) :
    Good cfg base { s with mem := m, staticManager := man } inner rest
      (Function.update fl i xs) := by
  have hpay : ∀ w, ¬ Payload cfg s.mmDynamicStart (guarded cfg inner) w → m w = s.mem w := by
    intro w hw
    refine hm w ?_
    by_contra hin
    exact hw (h.header_payload hb hx (by omega) (by omega))
  exact {
    heap := h.heap.of_payload hpay man
    room := h.room
    small := h.small
    pool := by
      intro j b' hb'
      by_cases hji : j = i
      · subst hji
        obtain rfl : b' = b := Option.some.inj (hb'.symm.trans hb)
        rw [update_self]
        exact hpool
      · rw [update_of_ne hji]
        refine (h.pool j b' hb').congr (hman j hji) fun x' hx' w h1 h2 => hm w ?_
        have hapart := h.blocks_apart hb' hx' hb hx
        rw [itemSize_eq, itemSize_eq] at hapart
        omega
    cell := h.cell
    absent := by
      intro j hj
      have hji : j ≠ i := by
        rintro rfl
        rw [hb] at hj
        cases hj
      rw [update_of_ne hji]
      simp only [hman j hji]
      exact h.absent j hj
    base_inj := h.base_inj
    manager_lt := h.manager_lt
    manager_ne := h.manager_ne }

lemma base_le : b + smallSize cfg i ≤ cfg.limit := by
  obtain ⟨y, z, rfl, hcell, hz⟩ := h.cell i b hb
  have hbounds := hcell.bounds
  have hle := h.heap.placed.hi_le
  rw [span_guarded] at hle
  omega

lemma freeBlock (hout : x ∉ fl i) :
    smallMemFree cfg s (x + cfg.header) = some (BlockPool.pushed cfg s i x) ∧
      Releases cfg base s inner fl (BlockPool.pushed cfg s i x) inner rest
        (Function.update fl i (x :: fl i)) (x + cfg.header) := by
  have hlimit := h.base_le hb hx
  have hpool := h.pool i b hb
  have hm : ∀ w, w < x ∨ x + cfg.header ≤ w → (BlockPool.pushed cfg s i x).mem w = s.mem w :=
    fun w hw => set_header_outside cfg trivial hw
  refine ⟨hpool.smallMemFree_eq hx hout hlimit h.manager_ne,
    h.block_step hb hx hm (fun j hj => update_of_ne hj _ _) (hpool.push hx hout hlimit),
    rfl, fun q d => ?_, fun q d hq _ w h1 h2 => hm w (h.header_apart hb hx hq h1 h2),
    .inr ⟨i, x, by simp, rfl⟩, fun j => ?_, .block hb hx⟩
  on_goal 2 =>
    rw [Nat.add_sub_cancel]
    by_cases hji : j = i
    · subst hji
      rw [update_self, if_pos (mem_fullLists.mpr ⟨b, hb, hx⟩)]
    · rw [update_of_ne hji, if_neg]
      intro hx'
      obtain ⟨b', hb', hx'⟩ := mem_fullLists.mp hx'
      have hapart := h.blocks_apart hb hx hb' hx'
      have hpos := header_lt_freeNode cfg
      rw [itemSize_eq, itemSize_eq] at hapart
      obtain ⟨rfl, -⟩ | hapart := hapart
      · exact hji rfl
      · omega
  constructor
  · rintro (⟨hcell, hne⟩ | @⟨j, b', x', hb', hx', hout'⟩)
    · refine ⟨.cell hcell hne, fun heq => ?_⟩
      have hapart := h.cell_block hcell hne hb hx
      have hz := h.header_le hcell
      have hpos := header_lt_freeNode cfg
      rw [itemSize_eq] at hapart
      omega
    · by_cases hji : j = i
      · subst hji
        rw [update_self, mem_cons, not_or] at hout'
        refine ⟨.block hb' hx' hout'.2, fun heq => hout'.1 (Nat.add_right_cancel heq)⟩
      · rw [update_of_ne hji] at hout'
        refine ⟨.block hb' hx' hout', fun heq => ?_⟩
        have hapart := h.blocks_apart hb' hx' hb hx
        have hpos := header_lt_freeNode cfg
        rw [itemSize_eq, itemSize_eq] at hapart
        omega
  · rintro ⟨hcell | @⟨j, b', x', hb', hx', hout'⟩, hne⟩
    · exact .cell ‹_› ‹_›
    · refine .block hb' hx' ?_
      by_cases hji : j = i
      · subst hji
        rw [update_self, mem_cons, not_or]
        exact ⟨fun heq => hne (by rw [heq]), hout'⟩
      · rwa [update_of_ne hji]

end

lemma check_of {trueCondition : Bool} (h : trueCondition = true) :
    check cfg trueCondition = some () := by
  rw [check, h]
  simp

section
variable (h : Good cfg base s inner rest fl)
include h
variable (hp : Allocated cfg base s inner fl p c)
include hp

lemma judgeValid : judgeValidAddressRange s p = true := by
  have hin := h.inside hp
  have hpos := h.capacity_pos hp
  have hhead := header_lt_freeNode cfg
  simp only [judgeValidAddressRange, decide_eq_true_eq]
  omega

lemma pointer_ne_zero : p ≠ 0 := by
  have := h.inside hp
  have := header_lt_freeNode cfg
  omega

omit hp in
lemma xFree_cell (hcell : At true (s.mmDynamicStart + cfg.header) inner y z)
    (hbase : ∀ i, base i ≠ some (y + cfg.header)) :
    Kernel.xFree cfg s (y + cfg.header) = bigMemFree cfg s (y + cfg.header) := by
  have hp : Allocated cfg base s inner fl (y + cfg.header) (z - cfg.header) := .cell hcell hbase
  have hvalid := h.judgeValid hp
  have hflag := (h.flag_cell hcell).2
  have hcheck : mmAllocNode cfg s.mem y = true := by
    simp only [mmAllocNode, hflag]
    decide
  rw [Kernel.xFree, if_neg (h.pointer_ne_zero hp)]
  simp only [check_of hvalid, Nat.add_sub_cancel, check_of hcheck, hflag, bind_eq_bind, bind_some]
  rw [if_neg fun hc => hc.2 (by decide)]

lemma xFree :
    ∃ s' inner' rest' fl', xFree cfg s p = some s' ∧
      Releases cfg base s inner fl s' inner' rest' fl' p := by
  have hvalid := h.judgeValid hp
  have hne := h.pointer_ne_zero hp
  cases hp with
  | @cell y z hcell hbase =>
    obtain ⟨s', inner', rest', hfree, hrel⟩ := h.freeCell hcell hbase
    exact ⟨s', inner', rest', fl, (h.xFree_cell hcell hbase).trans hfree, hrel⟩
  | @block i b x hbase hx hout =>
    rw [Kernel.xFree, if_neg hne]
    obtain ⟨hfree, hrel⟩ := h.freeBlock hbase hx hout
    have hflag := (h.pool i b hbase).flag x hx
    have hcheck : mmAllocNode cfg s.mem x = true := by
      simp only [mmAllocNode, hflag]
      decide
    refine ⟨_, inner, rest, _, ?_, hrel⟩
    simp only [check_of hvalid, Nat.add_sub_cancel, check_of hcheck, hflag, bind_eq_bind, bind_some]
    rw [if_pos ⟨h.small i b hbase, by decide⟩, hfree]

end

inductive Took (cfg : HeapConfig) (base : Fin 2 → Option Nat) (s : HeapState) :
    List Cell → (Fin 2 → List Nat) → List Cell → (Fin 2 → List Nat) → Nat → Prop
  | cell {us vs : List Cell} {n z : Nat} {fl : Fin 2 → List Nat} (hn : n ≤ z)
    (hbase : ∀ i, base i ≠ some (HeapRep.node cfg s us + cfg.header)) :
    Took cfg base s (us ++ ⟨z, false⟩ :: vs) fl (us ++ (carve memLowRange n z ++ vs)) fl
      (HeapRep.node cfg s us + cfg.header)
  | block {inner : List Cell} {fl : Fin 2 → List Nat} {i : Fin 2} {b x : Nat} {xs : List Nat}
    (hb : base i = some b) (hfl : fl i = x :: xs) :
    Took cfg base s inner fl inner (Function.update fl i xs) (x + cfg.header)

structure Grants (cfg : HeapConfig) (base : Fin 2 → Option Nat) (s : HeapState) (inner : List Cell)
    (fl : Fin 2 → List Nat) (s' : HeapState) (inner' : List Cell) (rest' : List Entry)
    (fl' : Fin 2 → List Nat) (p c : Nat) : Prop where
  good : Good cfg base s' inner' rest' fl'
  start : s'.mmDynamicStart = s.mmDynamicStart
  allocated : ∀ q d, Allocated cfg base s' inner' fl' q d ↔
    Allocated cfg base s inner fl q d ∨ (q = p ∧ d = c)
  fresh : ∀ d, ¬ Allocated cfg base s inner fl p d
  spares : Spares cfg base s inner fl p s'
  took : Took cfg base s inner fl inner' fl' p

lemma carve_room {us vs : List Cell} {n least : Nat} (hle : least ≤ memLowRange) (hn : least ≤ n)
    (hnz : n ≤ z) (hroom : ∀ c ∈ us ++ ⟨z, false⟩ :: vs, least ≤ c.size) :
    ∀ c ∈ us ++ (carve memLowRange n z ++ vs), least ≤ c.size := by
  intro c hc
  rw [mem_append, mem_append] at hc
  obtain hc | hc | hc := hc
  · exact hroom c (by simp [hc])
  · rw [carve] at hc
    split at hc <;> simp only [mem_cons, not_mem_nil, or_false] at hc
    · obtain rfl | rfl := hc <;> simp only <;> omega
    · subst hc
      simp only
      omega
  · exact hroom c (by simp [hc])

lemma mallocCell (h : Good cfg base s inner rest fl) (size : Nat)
    (hlt : size + cfg.header < 2 ^ 32) (hroom : cfg.freeNode ≤ size + cfg.header) :
    bigMemMalloc cfg s size dynamicBlockMask = some (s, 0) ∨
    ∃ s' inner' rest' y c, bigMemMalloc cfg s size dynamicBlockMask =
        some (s', y + cfg.header) ∧ size ≤ c ∧
      Grants cfg base s inner fl s' inner' rest' fl (y + cfg.header) c ∧
      judgeValidAddressRange s' y = true ∧
      At true (s.mmDynamicStart + cfg.header) inner' y (c + cfg.header) ∧
      (∀ i, base i ≠ some (y + cfg.header)) ∧ s'.staticManager = s.staticManager := by
  have hpos := header_lt_freeNode cfg
  obtain ⟨hnull, -⟩ | ⟨us, z, vs, s', rest', rfl, hnz, -, hmalloc, hheap, halike⟩ :=
    h.heap.bigMemMalloc (mod_eq_of_lt hlt) (by omega)
  · exact .inl hnull
  · have hstart := halike.start
    have hle := le_taken memLowRange hnz.le
    have hfree : At false (s.mmDynamicStart + cfg.header) (us ++ ⟨z, false⟩ :: vs)
      (HeapRep.node cfg s us) z := ⟨us, vs, rfl, rfl⟩
    have hz := h.room ⟨z, false⟩ (by simp)
    -- the cell was free, so nothing that is in use stands there
    have hused {y z' : Nat} (hy : At true (s.mmDynamicStart + cfg.header)
        (us ++ ⟨z, false⟩ :: vs) y z') : y ≠ HeapRep.node cfg s us := by
      rintro rfl
      have hz' := h.header_le hy
      obtain ⟨-, -, hu⟩ | hle | hle := hy.apart hfree
      · cases hu
      · omega
      · simp only at hz
        omega
    have hbase : ∀ i, base i ≠ some (HeapRep.node cfg s us + cfg.header) := by
      intro i hb
      obtain ⟨y, z', heq, hy, -⟩ := h.cell i _ hb
      exact hused hy (Nat.add_right_cancel heq).symm
    have hat {y z' : Nat} : At true (s.mmDynamicStart + cfg.header)
        (us ++ (carve memLowRange (size + cfg.header) z ++ vs)) y z' ↔ _ :=
      at_carve hnz.le
    have hfresh : ∀ d, ¬ Allocated cfg base s (us ++ ⟨z, false⟩ :: vs) fl
        (HeapRep.node cfg s us + cfg.header) d := by
      intro d hd
      obtain ⟨y, z', hy, h1, h2, hown⟩ := h.host hd
      have hd := h.capacity_pos hd
      have hz' := h.header_le hy
      simp only at hz
      obtain ⟨-, -, hu⟩ | hle | hle := hy.apart hfree
      · cases hu
      · omega
      · omega
    refine .inr ⟨s', us ++ (carve memLowRange (size + cfg.header) z ++ vs), rest',
      HeapRep.node cfg s us, taken memLowRange (size + cfg.header) z - cfg.header, hmalloc,
      by omega, ⟨?_, hstart, ?_, hfresh, ?_, .cell hnz.le hbase⟩, ?_, ?_, hbase,
      halike.staticManager⟩
    · exact {
        heap := hheap
        room := carve_room (header_le_memLowRange cfg).2 hroom hnz.le h.room
        small := h.small
        pool := fun i b hb => h.pool_of_keeps halike hb fun _ _ _ hy => hy
        cell := by
          intro i b hb
          obtain ⟨y, z', rfl, hy, hz'⟩ := h.cell i b hb
          refine ⟨y, z', rfl, ?_, hz'⟩
          rw [hstart]
          exact hat.mpr (.inl hy)
        absent := fun i hi => halike.staticManager ▸ h.absent i hi
        base_inj := h.base_inj
        manager_lt := h.manager_lt
        manager_ne := h.manager_ne }
    · intro q d
      constructor
      · rintro (⟨hq, hne⟩ | ⟨hb, hx, hout⟩)
        · rw [hstart, hat] at hq
          obtain hq | ⟨rfl, rfl⟩ := hq
          · exact .inl (.cell hq hne)
          · exact .inr ⟨rfl, rfl⟩
        · exact .inl (.block hb hx hout)
      · rintro ((⟨hq, hne⟩ | ⟨hb, hx, hout⟩) | ⟨rfl, rfl⟩)
        · refine .cell ?_ hne
          rw [hstart]
          exact hat.mpr (.inl hq)
        · exact .block hb hx hout
        · refine .cell ?_ hbase
          rw [hstart]
          exact hat.mpr (.inr ⟨rfl, rfl⟩)
    · intro q d hq _ x h1 h2
      obtain ⟨y, z', hhost⟩ := h.host hq
      exact halike.keeps x (.inl (payload_of_host hhost h1 h2))
    · have hbounds := hfree.bounds
      have hstop := h.heap.stop
      simp only [judgeValidAddressRange, decide_eq_true_eq, halike.start, halike.stop] at hz ⊢
      omega
    · rw [Nat.sub_add_cancel (by omega)]
      exact hat.mpr (.inr ⟨rfl, rfl⟩)

lemma mallocBlock (h : Good cfg base s inner rest fl) (hb : base i = some b)
    (hfl : fl i = x :: xs) :
    popSegment cfg s i = ((popSegment cfg s i).1, x) ∧
      Grants cfg base s inner fl (popSegment cfg s i).1 inner rest (Function.update fl i xs)
        (x + cfg.header) (smallBytes i) := by
  have hpool := h.pool i b hb
  rw [hfl] at hpool
  have hx := hpool.isBlock x mem_cons_self
  have hnot := (nodup_cons.mp hpool.nodup).1
  have hpop := hpool.pop (h.manager_lt i)
  rw [hpool.popSegment_eq] at hpop ⊢
  have hm : ∀ w, w < x ∨ x + cfg.header ≤ w → BlockPool.popMem cfg s.mem i x w = s.mem w :=
    fun w hw => BlockPool.popMem_outside hw
  refine ⟨rfl, h.block_step hb hx hm (fun j hj => update_of_ne hj _ _) hpop, rfl, ?_, ?_,
    fun q d hq _ w h1 h2 => hm w (h.header_apart hb hx hq h1 h2), .block hb hfl⟩
  · intro q d
    constructor
    · rintro (⟨hcell, hne⟩ | @⟨j, b', x', hb', hx', hout'⟩)
      · exact .inl (.cell hcell hne)
      · by_cases hji : j = i
        · subst hji
          rw [update_self] at hout'
          by_cases heq : x' = x
          · exact .inr ⟨by rw [heq], rfl⟩
          · exact .inl (.block hb' hx' (by simp [hfl, heq, hout']))
        · rw [update_of_ne hji] at hout'
          exact .inl (.block hb' hx' hout')
    · rintro ((⟨hcell, hne⟩ | @⟨j, b', x', hb', hx', hout'⟩) | ⟨rfl, rfl⟩)
      · exact .cell hcell hne
      · refine .block hb' hx' ?_
        by_cases hji : j = i
        · subst hji
          rw [update_self]
          rw [hfl, mem_cons, not_or] at hout'
          exact hout'.2
        · rwa [update_of_ne hji]
      · refine .block hb hx ?_
        rwa [update_self]
  · intro d hd
    have hpos := header_lt_freeNode cfg
    generalize hq : x + cfg.header = q at hd
    cases hd with
    | @cell y z hcell hne =>
      have hapart := h.cell_block hcell hne hb hx
      have hz := h.header_le hcell
      rw [itemSize_eq] at hapart
      omega
    | @block j b' x' hb' hx' hout' =>
      have hapart := h.blocks_apart hb hx hb' hx'
      rw [itemSize_eq, itemSize_eq] at hapart
      obtain ⟨rfl, rfl⟩ | hapart := hapart
      · rw [hfl] at hout'
        exact hout' mem_cons_self
      · omega

lemma smallBytes_range (i : Fin 2) : smallBytes i = sizeof32B ∨ smallBytes i = sizeof64B := by
  rw [smallBytes]
  split <;> simp

lemma segment_eq (i : Fin 2) : (if smallBytes i = sizeof32B then 0 else 1) = i := by
  match i with
  | 0 => rfl
  | 1 => rfl

lemma smallMemMalloc (h : Good cfg base s inner rest fl) (i : Fin 2) :
    smallMemMalloc cfg s (smallBytes i) = some (s, 0) ∨
    ∃ s' inner' rest' fl' p c, smallMemMalloc cfg s (smallBytes i) = some (s', p) ∧
      smallBytes i ≤ c ∧ Grants cfg base s inner fl s' inner' rest' fl' p c := by
  have hheap : popSegment cfg s i = (s, 0) → Kernel.smallMemMalloc cfg s (smallBytes i) =
      bigMemMalloc cfg s (smallBytes i) dynamicBlockMask := by
    intro hpop
    rw [Kernel.smallMemMalloc, segment_eq, hpop]
    rfl
  have hcell : popSegment cfg s i = (s, 0) →
      Kernel.smallMemMalloc cfg s (smallBytes i) = some (s, 0) ∨
      ∃ s' inner' rest' fl' p c, Kernel.smallMemMalloc cfg s (smallBytes i) = some (s', p) ∧
        smallBytes i ≤ c ∧ Grants cfg base s inner fl s' inner' rest' fl' p c := by
    intro hpop
    have hptr := cfg.ptr_eq
    have hbytes := smallBytes_range i
    simp only [sizeof32B, sizeof64B] at hbytes
    rw [hheap hpop]
    obtain hnull | ⟨s', inner', rest', y, c, hmalloc, hc, hgrants, -⟩ :=
      h.mallocCell (smallBytes i) (by simp only [HeapConfig.header]; omega)
        (by simp only [HeapConfig.freeNode, HeapConfig.header]; omega)
    · exact .inl hnull
    · exact .inr ⟨s', inner', rest', fl, _, c, hmalloc, hc, hgrants⟩
  cases hb : base i with
  | none => exact hcell (BlockPool.popSegment_nil (h.absent i hb).2.2)
  | some b =>
    have hcount := (h.pool i b hb).count
    cases hfl : fl i with
    | nil =>
      rw [hfl] at hcount
      exact hcell (BlockPool.popSegment_nil hcount)
    | cons x xs =>
      obtain ⟨hpop, hgrants⟩ := h.mallocBlock hb hfl
      have hne : x ≠ 0 := by
        have hx := (h.pool i b hb).isBlock x (by rw [hfl]; exact mem_cons_self)
        obtain ⟨y, z, rfl, -, -⟩ := h.cell i b hb
        have := hx.bounds
        have := header_lt_freeNode cfg
        omega
      refine .inr ⟨_, inner, rest, _, x + cfg.header, smallBytes i, ?_, Nat.le_refl _, hgrants⟩
      rw [Kernel.smallMemMalloc, segment_eq, hpop]
      simp only [if_pos hne]

def Roomy (cfg : HeapConfig) : Prop := cfg.kernelSmallMemAlloc = true ∨ 2 * cfg.ptr ≤ cfg.memAlign

variable (h : Good cfg base s inner rest fl)
include h

lemma available_eq : available cfg s = span (guarded cfg inner) - s.activeMemory := by
  have hle := h.heap.span_le
  have hlimit := cfg.le_limit
  have hactive := Cell.active_le_span inner
  have hend := h.heap.end_eq
  rw [← h.heap.active] at hactive
  rw [span_guarded] at hle hend ⊢
  rw [available, hend, h.heap.start_eq, cfg.sub_eq (Nat.le_add_right _ _) (by omega),
    Nat.add_sub_cancel_left, cfg.sub_eq (by omega) (by omega)]

lemma alignUp_bounds {size : Nat} (hsize : size ≤ available cfg s) :
    size ≤ cfg.alignUp size cfg.memAlign ∧ cfg.alignUp size cfg.memAlign ≤ size + 7 ∧
      cfg.memAlign ∣ cfg.alignUp size cfg.memAlign ∧ size + 64 ≤ 2 ^ 32 := by
  have hle := h.heap.span_le
  have hlimit := cfg.le_limit
  rw [h.available_eq] at hsize
  have halign := cfg.align_eq
  have hlt : size + cfg.memAlign - 1 < cfg.limit := by omega
  have hdiv := div_add_mod' (size + cfg.memAlign - 1) cfg.memAlign
  have hmod := mod_lt (size + cfg.memAlign - 1) (show cfg.memAlign > 0 by omega)
  rw [HeapConfig.alignUp, mod_eq_of_lt hlt, mod_eq_of_lt (by omega)]
  exact ⟨by omega, by omega, Nat.dvd_mul_left _ _, by omega⟩

omit h in
lemma Grants.ne_zero {s' : HeapState} {inner' : List Cell} {rest' : List Entry}
    {fl' : Fin 2 → List Nat} (h : Grants cfg base s inner fl s' inner' rest' fl' p c) : p ≠ 0 := by
  have hin := h.good.inside ((h.allocated p c).mpr (.inr ⟨rfl, rfl⟩))
  have hpos := header_lt_freeNode cfg
  omega

lemma xMalloc (hr : Roomy cfg) (size : Nat) :
    xMalloc cfg s size = some (s, 0) ∨
    ∃ s' inner' rest' fl' p c, xMalloc cfg s size = some (s', p) ∧ size ≤ c ∧
      Grants cfg base s inner fl s' inner' rest' fl' p c := by
  rw [Kernel.xMalloc]
  by_cases hbad : size = 0 ∨ size > available cfg s
  · rw [if_pos hbad]
    exact .inl rfl
  · rw [if_neg hbad]
    rw [not_or, Nat.not_lt] at hbad
    obtain ⟨hup, hup', hdvd, hlt⟩ := h.alignUp_bounds hbad.2
    generalize cfg.alignUp size cfg.memAlign = n at hup hup' hdvd
    simp only
    by_cases h32 : cfg.kernelSmallMemAlloc ∧ n ≤ sizeof32B
    · rw [if_pos h32]
      obtain hnull | ⟨s', inner', rest', fl', p, c, hmalloc, hc, hgrants⟩ := h.smallMemMalloc 0
      · exact .inl hnull
      · have hbytes : smallBytes 0 = sizeof32B := rfl
        exact .inr ⟨s', inner', rest', fl', p, c, hmalloc, by omega, hgrants⟩
    · rw [if_neg h32]
      by_cases h64 : cfg.kernelSmallMemAlloc ∧ n ≤ sizeof64B
      · rw [if_pos h64]
        obtain hnull | ⟨s', inner', rest', fl', p, c, hmalloc, hc, hgrants⟩ := h.smallMemMalloc 1
        · exact .inl hnull
        · have hbytes : smallBytes 1 = sizeof64B := rfl
          exact .inr ⟨s', inner', rest', fl', p, c, hmalloc, by omega, hgrants⟩
      · rw [if_neg h64]
        have hptr := cfg.ptr_eq
        have hroom : cfg.freeNode ≤ n + cfg.header := by
          simp only [HeapConfig.freeNode, HeapConfig.header]
          obtain hsmall | hwide := hr
          · simp only [hsmall, true_and, sizeof64B] at h64
            omega
          · have := le_of_dvd (by omega) hdvd
            omega
        obtain hnull | ⟨s', inner', rest', y, c, hmalloc, hc, hgrants, hvalid, -⟩ :=
          h.mallocCell n (by simp only [HeapConfig.header]; omega) hroom
        · rw [hnull]
          exact .inl rfl
        · rw [hmalloc]
          refine .inr ⟨s', inner', rest', fl, y + cfg.header, c, ?_, by omega, hgrants⟩
          simp only [bind_eq_bind, bind_some, Nat.add_sub_cancel]
          rw [if_pos hgrants.ne_zero, check_of hvalid]
          rfl

end Good
end Xiuos.Kernel
