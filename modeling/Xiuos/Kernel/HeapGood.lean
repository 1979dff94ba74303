import Xiuos.Kernel.HeapPool

namespace Xiuos.Kernel
open Lib Cell
variable {rest : List Entry} {cfg : HeapConfig} {s : HeapState}

section
variable {lo x y z : Nat} {m m' : Mem} {cs inner us vs : List Cell}

lemma payload_iff : Payload cfg lo cs x ↔
    ∃ y z, At true lo cs y z ∧ y + cfg.header ≤ x ∧ x < y + z := by
  constructor
  · rintro ⟨us, ⟨z, used⟩, vs, rfl, hu, h1, h2⟩
    cases hu
    exact ⟨_, z, ⟨us, vs, rfl, rfl⟩, h1, h2⟩
  · rintro ⟨y, z, ⟨us, vs, rfl, rfl⟩, h1, h2⟩
    exact ⟨us, _, vs, rfl, rfl, h1, h2⟩

lemma at_guarded {u : Bool} (h : At u (lo + cfg.header) inner y z) :
    At u lo (guarded cfg inner) y z := at_cons.mpr (.inr (at_append.mpr (.inl h)))

lemma payload_guarded (h : At true (lo + cfg.header) inner y z) (h1 : y + cfg.header ≤ x)
    (h2 : x < y + z) : Payload cfg lo (guarded cfg inner) x :=
  payload_iff.mpr ⟨y, z, at_guarded h, h1, h2⟩

lemma at_release (h : At true lo (us ++ ⟨z, true⟩ :: vs) x y) (hne : x ≠ lo + span us) :
    At true lo (us ++ ⟨z, false⟩ :: vs) x y := by
  simp only [at_append, at_cons] at h ⊢
  tauto

lemma Rep.of_payload (hp : Sited cfg lo (lo + span cs)) (h : Rep cfg lo m cs rest)
    (hm : ∀ x, ¬ Payload cfg lo cs x → m' x = m x) : Rep cfg lo m' cs rest := by
  have hbin {i : Nat} {f : Field} (hi : i < memLinknrs) :
      cfg.get m' (cfg.freenode i) f = cfg.get m (cfg.freenode i) f := by
    have hbounds := freenode_bounds cfg hi
    have hout := hp.outside
    refine get_congr_node cfg fun x h1 h2 => hm x fun hx => ?_
    have := hx.bounds
    omega
  have hlink {c : Nat} {f : Field} (hc : IsNode cfg lo cs c) (hf : ¬ f.IsHeader) :
      cfg.get m' c f = cfg.get m c f := by
    have hend := f.end_le_freeNode cfg
    have hoff := f.header_le_offset cfg hf
    refine get_congr cfg fun x h1 h2 => hm x fun hx => ?_
    exact hx.not_pointerByte hp ⟨c, hc, by omega, by omega⟩
  refine ⟨h.fits, h.tagged.congr fun x hx => hm x fun hpay => hpay.not_headerByte h.fits hx,
    fun i hi => (hbin hi).trans (h.bins i hi), ?_, h.bin_lt, h.free_mem, h.nodup⟩
  exact h.linked.congr (fun c hc => hlink (h.isNode_of_mem_map hc) id)
    fun c hc => hlink (h.isNode_of_mem_map (List.mem_cons_of_mem _ hc)) id

lemma HeapRep.of_payload (h : HeapRep cfg s inner rest)
    (hm : ∀ x, ¬ Payload cfg s.mmDynamicStart (guarded cfg inner) x → m' x = s.mem x)
    (man : Fin 2 → Segment) :
    HeapRep cfg { s with mem := m', staticManager := man } inner rest where
  placed := h.placed
  rep := h.rep.of_payload h.placed hm
  ordered := h.ordered
  full := h.full
  merged := h.merged
  span_le := h.span_le
  active := h.active
  stop := h.stop
  start_eq := h.start_eq
  end_eq := h.end_eq

end

structure Good (cfg : HeapConfig) (base : Fin 2 → Option Nat) (s : HeapState) (inner : List Cell)
    (rest : List Entry) (fl : Fin 2 → List Nat) : Prop where
  heap : HeapRep cfg s inner rest
  room : ∀ c ∈ inner, cfg.freeNode ≤ c.size
  small : ∀ i b, base i = some b → cfg.kernelSmallMemAlloc = true
  pool : ∀ i b, base i = some b → BlockPool cfg s i b (fl i)
  cell : ∀ i b, base i = some b → ∃ y z, b = y + cfg.header ∧
    At true (s.mmDynamicStart + cfg.header) inner y z ∧ cfg.header + smallSize cfg i ≤ z
  absent : ∀ i, base i = none →
    fl i = [] ∧ (s.staticManager i).freelist = 0 ∧ (s.staticManager i).blockFreeCount = 0
  base_inj : ∀ i j b, base i = some b → base j = some b → i = j
  manager_lt : ∀ i, cfg.staticManager i < cfg.limit
  manager_ne : cfg.staticManager 0 ≠ cfg.staticManager 1

def fullLists (cfg : HeapConfig) (base : Fin 2 → Option Nat) (i : Fin 2) : List Nat :=
  match base i with
  | none => []
  | some b => blocks cfg i b

lemma mem_fullLists {cfg : HeapConfig} {base : Fin 2 → Option Nat} {i : Fin 2} {x : Nat} :
    x ∈ fullLists cfg base i ↔ ∃ b, base i = some b ∧ IsBlock cfg i b x := by
  rw [fullLists]
  cases base i with
  | none => simp
  | some b => simp [isBlock_iff, blocks]

inductive Allocated (cfg : HeapConfig) (base : Fin 2 → Option Nat) (s : HeapState)
    (inner : List Cell) (fl : Fin 2 → List Nat) : Nat → Nat → Prop
  | cell {y z : Nat} (hcell : At true (s.mmDynamicStart + cfg.header) inner y z)
    (hbase : ∀ i, base i ≠ some (y + cfg.header)) :
    Allocated cfg base s inner fl (y + cfg.header) (z - cfg.header)
  | block {i : Fin 2} {b x : Nat} (hbase : base i = some b) (hx : IsBlock cfg i b x)
    (hout : x ∉ fl i) : Allocated cfg base s inner fl (x + cfg.header) (smallBytes i)

lemma Allocated.congr {cfg : HeapConfig} {base : Fin 2 → Option Nat} {s s' : HeapState}
    {inner : List Cell} {fl : Fin 2 → List Nat} {p c : Nat}
    (h : Allocated cfg base s' inner fl p c) (hstart : s'.mmDynamicStart = s.mmDynamicStart) :
    Allocated cfg base s inner fl p c := by
  cases h with
  | cell hcell hbase => exact .cell (by rwa [← hstart]) hbase
  | block hbase hx hout => exact .block hbase hx hout

namespace Good

variable {base : Fin 2 → Option Nat} {inner : List Cell} {fl : Fin 2 → List Nat} {p q c d x : Nat}
  {i j : Fin 2} {b : Nat}

def Host (cfg : HeapConfig) (base : Fin 2 → Option Nat) (s : HeapState) (inner : List Cell)
    (p c y z : Nat) : Prop :=
  At true (s.mmDynamicStart + cfg.header) inner y z ∧ y + cfg.header ≤ p ∧ p + c ≤ y + z ∧
    ((∀ i, base i ≠ some (y + cfg.header)) → p = y + cfg.header)

variable (h : Good cfg base s inner rest fl)
include h

lemma header_le {y z : Nat} (hcell : At true (s.mmDynamicStart + cfg.header) inner y z) :
    cfg.header ≤ z := by
  obtain ⟨us, vs, rfl, -⟩ := hcell
  have hroom := h.room ⟨z, true⟩ (by simp)
  have := header_lt_freeNode cfg
  simp only at hroom
  omega

lemma cell_block {y z : Nat} (hcell : At true (s.mmDynamicStart + cfg.header) inner y z)
    (hne : ∀ i, base i ≠ some (y + cfg.header)) (hbase : base i = some b) (hx : IsBlock cfg i b x) :
    y + z ≤ x ∨ x + itemSize cfg i ≤ y := by
  obtain ⟨y', z', rfl, hcell', hz⟩ := h.cell i b hbase
  have hb := hx.bounds
  obtain ⟨rfl, -, -⟩ | hle | hle := hcell.apart hcell'
  · exact absurd hbase (hne i)
  · omega
  · omega

lemma blocks_apart {y : Nat} {b' : Nat} (hb : base i = some b) (hx : IsBlock cfg i b x)
    (hb' : base j = some b') (hy : IsBlock cfg j b' y) :
    (i = j ∧ x = y) ∨ x + itemSize cfg i ≤ y ∨ y + itemSize cfg j ≤ x := by
  obtain ⟨u, z, rfl, hcell, hz⟩ := h.cell i b hb
  obtain ⟨u', z', rfl, hcell', hz'⟩ := h.cell j b' hb'
  have hbounds := hx.bounds
  have hbounds' := hy.bounds
  obtain ⟨rfl, rfl, -⟩ | hle | hle := hcell.apart hcell'
  · obtain rfl := h.base_inj i j _ hb hb'
    have hapart := hx.apart hy
    tauto
  · omega
  · omega

lemma host (hp : Allocated cfg base s inner fl p c) : ∃ y z, Host cfg base s inner p c y z := by
  cases hp with
  | @cell y z hcell hbase =>
    have hsize := h.header_le hcell
    exact ⟨y, z, hcell, Nat.le_refl _, by omega, fun _ => rfl⟩
  | @block i b x hbase hx hout =>
    obtain ⟨y, z, rfl, hcell, hz⟩ := h.cell i b hbase
    have hbounds := hx.bounds
    rw [itemSize_eq] at hbounds
    exact ⟨y, z, hcell, by omega, by omega, fun hnot => absurd hbase (hnot i)⟩

omit h in
lemma payload_of_host {y z : Nat} (hhost : Host cfg base s inner p c y z) (h1 : p ≤ x)
    (h2 : x < p + c) : Payload cfg s.mmDynamicStart (guarded cfg inner) x :=
  payload_guarded hhost.1 (by have := hhost.2.1; omega) (by have := hhost.2.2.1; omega)

lemma apart (hp : Allocated cfg base s inner fl p c) (hq : Allocated cfg base s inner fl q d) :
    (p = q ∧ c = d) ∨ p + c ≤ q ∨ q + d ≤ p := by
  cases hp with
  | @cell y z hcell hbase =>
    have hz := h.header_le hcell
    cases hq with
    | @cell y' z' hcell' hbase' =>
      have hz' := h.header_le hcell'
      obtain ⟨rfl, rfl, -⟩ | hle | hle := hcell.apart hcell'
      · exact .inl ⟨rfl, rfl⟩
      · omega
      · omega
    | @block i b x hbase' hx hout =>
      have hapart := h.cell_block hcell hbase hbase' hx
      rw [itemSize_eq] at hapart
      omega
  | @block i b x hbase hx hout =>
    cases hq with
    | @cell y z hcell hbase' =>
      have hz := h.header_le hcell
      have hapart := h.cell_block hcell hbase' hbase hx
      rw [itemSize_eq] at hapart
      omega
    | @block j b' x' hbase' hx' hout' =>
      have hapart := h.blocks_apart hbase hx hbase' hx'
      rw [itemSize_eq, itemSize_eq] at hapart
      obtain ⟨rfl, rfl⟩ | hapart := hapart
      · exact .inl ⟨rfl, rfl⟩
      · omega

lemma inside (hp : Allocated cfg base s inner fl p c) :
    s.mmDynamicStart + 2 * cfg.header ≤ p ∧ p + c ≤ s.mmDynamicEnd := by
  obtain ⟨y, z, hcell, h1, h2, -⟩ := h.host hp
  have hbounds := hcell.bounds
  have hstop := h.heap.stop
  omega

lemma flag_cell {y z : Nat} (hcell : At true (s.mmDynamicStart + cfg.header) inner y z) :
    cfg.get s.mem y .size = z ∧ cfg.get s.mem y .flag = dynamicBlockMask := by
  obtain ⟨us, vs, heq, rfl⟩ := at_guarded hcell
  have htags := h.heap.rep.tagged
  rw [heq] at htags
  have hhead := (tagged_append.mp htags).2.1
  exact ⟨hhead.size, hhead.flag⟩

lemma blockSize_eq (hp : Allocated cfg base s inner fl p c) : blockSize cfg s p = some c := by
  cases hp with
  | @cell y z hcell hbase =>
    obtain ⟨hsize, hflag⟩ := h.flag_cell hcell
    have hz := h.header_le hcell
    have hlt : z < cfg.limit := by
      have hle := h.heap.placed.hi_le
      have hpos := h.heap.placed.lo_pos
      have hbounds := hcell.bounds
      rw [span_guarded] at hle
      omega
    rw [blockSize]
    simp only [Nat.add_sub_cancel, smallMemTypeAlloc, hflag, hsize]
    rw [if_neg (by decide), cfg.sub_eq hz (by omega)]
  | @block i b x hbase hx hout =>
    have hpool := h.pool i b hbase
    rw [blockSize]
    simp only [Nat.add_sub_cancel, smallMemTypeAlloc, hpool.flag x hx, hpool.owner x hx hout]
    rw [if_pos (by decide), BlockPool.find_owner h.manager_ne]
    exact congrArg some hpool.blockSize

end Good
end Xiuos.Kernel
