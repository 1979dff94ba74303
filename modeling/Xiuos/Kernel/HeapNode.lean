import Xiuos.Kernel.ByteManage
import Xiuos.Lib.Tiling

namespace Xiuos.Kernel
open Lib Cell HeapConfig

namespace HeapConfig
variable (cfg : HeapConfig)

lemma ptr_eq : cfg.ptr = 4 ∨ cfg.ptr = 8 := by
  rw [ptr]
  cases cfg.word <;> simp

lemma le_limit : 2 ^ 32 ≤ cfg.limit := by
  obtain h | h := cfg.ptr_eq <;> simp [limit, h]

lemma sub_eq {a b : Nat} (hb : b ≤ a) (hlt : a - b < cfg.limit) : cfg.sub a b = a - b := by
  have hsub : a + cfg.limit - b = a - b + cfg.limit := by omega
  rw [sub, hsub, Nat.add_mod_right, Nat.mod_eq_of_lt hlt]

end HeapConfig

namespace Field

def IsHeader : Field → Prop
  | .size | .prevAdjSize | .flag => True
  | .next | .prev => False

variable (cfg : HeapConfig)
include cfg

lemma end_le_freeNode (f : Field) : cfg.offset f + cfg.width f ≤ cfg.freeNode := by
  have := cfg.ptr_eq
  cases f <;> simp only [offset, width, freeNode,
    header] <;> omega

lemma IsHeader.end_le {f : Field} (h : f.IsHeader) : cfg.offset f + cfg.width f ≤ cfg.header := by
  have := cfg.ptr_eq
  cases f <;> first
    | exact h.elim
    | simp only [offset, width, header]; omega

lemma header_le_offset {f : Field} (h : ¬ f.IsHeader) : cfg.header ≤ cfg.offset f := by
  cases f <;> simp_all [IsHeader, offset]

end Field

section
variable (cfg : HeapConfig) {m m' : Mem} {n n' v x : Nat} {f g : Field}

lemma get_set_self : cfg.get (cfg.set m n f v) n f = v % 256 ^ cfg.width f := Mem.load_store_self

lemma get_set_of_disjoint (h : n + cfg.offset f + cfg.width f ≤ n' + cfg.offset g ∨
    n' + cfg.offset g + cfg.width g ≤ n + cfg.offset f) :
    cfg.get (cfg.set m n f v) n' g = cfg.get m n' g := Mem.load_store_of_disjoint h

lemma get_set_of_ne (h : f ≠ g) : cfg.get (cfg.set m n f v) n g = cfg.get m n g := by
  refine get_set_of_disjoint cfg ?_
  have := cfg.ptr_eq
  cases f <;> cases g <;> simp only [offset, width,
    header] at h ⊢ <;>
    first
    | exact absurd rfl h
    | omega

lemma set_outside (h : x < n + cfg.offset f ∨ n + cfg.offset f + cfg.width f ≤ x) :
    cfg.set m n f v x = m x := Mem.store_outside h

lemma set_header_outside (hf : f.IsHeader) (h : x < n ∨ n + cfg.header ≤ x) :
    cfg.set m n f v x = m x := by
  have := hf.end_le cfg
  exact set_outside cfg (by omega)

lemma get_congr (h : ∀ x, n + cfg.offset f ≤ x → x < n + cfg.offset f + cfg.width f →
    m' x = m x) : cfg.get m' n f = cfg.get m n f := Mem.load_congr h

lemma get_congr_header (hf : f.IsHeader) (h : ∀ x, n ≤ x → x < n + cfg.header → m' x = m x) :
    cfg.get m' n f = cfg.get m n f := by
  have := hf.end_le cfg
  exact get_congr cfg fun x h1 h2 => h x (by omega) (by omega)

lemma get_congr_node (h : ∀ x, n ≤ x → x < n + cfg.freeNode → m' x = m x) :
    cfg.get m' n f = cfg.get m n f := by
  have := f.end_le_freeNode cfg
  exact get_congr cfg fun x h1 h2 => h x (by omega) (by omega)

lemma get_set_apart (hf : f.IsHeader) (hg : g.IsHeader)
    (h : n + cfg.header ≤ n' ∨ n' + cfg.header ≤ n) :
    cfg.get (cfg.set m n f v) n' g = cfg.get m n' g :=
  get_congr_header cfg hg fun _ _ _ => set_header_outside cfg hf (by omega)

end

def flagOf (used : Bool) : Nat := if used then dynamicBlockMask else 0

structure Header (cfg : HeapConfig) (m : Mem) (a p : Nat) (c : Cell) : Prop where
  size : cfg.get m a .size = c.size
  prevAdjSize : cfg.get m a .prevAdjSize = p % 2 ^ 32
  flag : cfg.get m a .flag = flagOf c.used

def Tagged (cfg : HeapConfig) (m : Mem) : Nat → Nat → List Cell → Prop
  | _, _, [] => True
  | a, p, c :: cs => Header cfg m a p c ∧ Tagged cfg m (a + c.size) c.size cs

variable (cfg : HeapConfig) (a : Nat) (cs : List Cell) (x : Nat)

def HeaderByte (cfg : HeapConfig) (a : Nat) (cs : List Cell) (x : Nat) : Prop :=
  ∃ us c vs, cs = us ++ c :: vs ∧ a + Cell.span us ≤ x ∧ x < a + Cell.span us + cfg.header

def LinkByte (cfg : HeapConfig) (a : Nat) (cs : List Cell) (x : Nat) : Prop :=
  ∃ us c vs, cs = us ++ c :: vs ∧ c.used = false ∧ cfg.freeNode ≤ c.size ∧
    a + Cell.span us + cfg.header ≤ x ∧ x < a + Cell.span us + cfg.freeNode

def BinByte (cfg : HeapConfig) (x : Nat) : Prop :=
  cfg.freenodeList ≤ x ∧ x < cfg.freenodeList + memLinknrs * cfg.freeNode

def Payload (cfg : HeapConfig) (a : Nat) (cs : List Cell) (x : Nat) : Prop :=
  ∃ us c vs, cs = us ++ c :: vs ∧ c.used ∧ a + Cell.span us + cfg.header ≤ x ∧
    x < a + Cell.span us + c.size

variable {cfg : HeapConfig} {m m' : Mem} {a p x : Nat} {c : Cell} {cs us vs : List Cell}

lemma tagged_append : Tagged cfg m a p (us ++ vs) ↔
    Tagged cfg m a p us ∧ Tagged cfg m (a + Cell.span us) (Cell.last p us) vs := by
  induction us generalizing a p with
  | nil => simp [Tagged, Cell.last]
  | cons c us ih => simp only [List.cons_append, Tagged, ih, and_assoc, span_cons,
      Nat.add_assoc, Cell.last]

lemma Header.congr (h : Header cfg m a p c) (hm : ∀ x, a ≤ x → x < a + cfg.header → m' x = m x) :
    Header cfg m' a p c where
  size := (get_congr_header cfg (f := .size) trivial hm).trans h.size
  prevAdjSize := (get_congr_header cfg (f := .prevAdjSize) trivial hm).trans h.prevAdjSize
  flag := (get_congr_header cfg (f := .flag) trivial hm).trans h.flag

lemma Tagged.congr (h : Tagged cfg m a p cs) (hm : ∀ x, HeaderByte cfg a cs x → m' x = m x) :
    Tagged cfg m' a p cs := by
  induction cs generalizing a p with
  | nil => trivial
  | cons c cs ih =>
    refine ⟨h.1.congr fun x h1 h2 => hm x ⟨[], c, cs, rfl, by simpa using h1, by simpa using h2⟩,
      ih h.2 ?_⟩
    rintro x ⟨us, d, vs, rfl, h1, h2⟩
    refine hm x ⟨c :: us, d, vs, rfl, ?_, ?_⟩ <;> rw [span_cons] <;> omega

section
variable (hcs : ∀ c ∈ cs, cfg.header ≤ c.size)
include hcs

lemma HeaderByte.bounds (h : HeaderByte cfg a cs x) : a ≤ x ∧ x < a + Cell.span cs := by
  obtain ⟨us, c, vs, rfl, h1, h2⟩ := h
  have hc := hcs c (by simp)
  simp only [span_append, span_cons]
  omega

omit hcs in
lemma Tagged.congr_range (h : Tagged cfg m a p cs) (hcs : ∀ c ∈ cs, cfg.header ≤ c.size)
    (hm : ∀ x, a ≤ x → x < a + Cell.span cs → m' x = m x) : Tagged cfg m' a p cs :=
  h.congr fun x hx => hm x (hx.bounds hcs).1 (hx.bounds hcs).2

lemma HeaderByte.not_linkByte (h : HeaderByte cfg a cs x) : ¬ LinkByte cfg a cs x := by
  rintro ⟨us', d, vs', heq, hd, hd', h3, h4⟩
  obtain ⟨us, c, vs, rfl, h1, h2⟩ := h
  have hc := hcs c (by simp)
  obtain ⟨rfl, -, -⟩ | h | h := Cell.apart heq <;> omega

lemma Payload.not_headerByte (h : Payload cfg a cs x) : ¬ HeaderByte cfg a cs x := by
  rintro ⟨us', d, vs', heq, h3, h4⟩
  obtain ⟨us, c, vs, rfl, hu, h1, h2⟩ := h
  have hd' := hcs d (by rw [heq]; simp)
  obtain ⟨rfl, -, -⟩ | h | h := Cell.apart heq <;> omega

end

lemma Payload.not_linkByte (h : Payload cfg a cs x) : ¬ LinkByte cfg a cs x := by
  rintro ⟨us', d, vs', heq, hd, hd', h3, h4⟩
  obtain ⟨us, c, vs, rfl, hu, h1, h2⟩ := h
  obtain ⟨rfl, rfl, -⟩ | h | h := Cell.apart heq
  · rw [hu] at hd
    cases hd
  · omega
  · omega

lemma Payload.bounds (h : Payload cfg a cs x) : a ≤ x ∧ x < a + Cell.span cs := by
  obtain ⟨us, c, vs, rfl, -, h1, h2⟩ := h
  simp only [span_append, span_cons]
  omega

lemma LinkByte.bounds (h : LinkByte cfg a cs x) : a ≤ x ∧ x < a + Cell.span cs := by
  obtain ⟨us, c, vs, rfl, hu, hc, h1, h2⟩ := h
  simp only [span_append, span_cons]
  omega

end Xiuos.Kernel
