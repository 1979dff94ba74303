import Xiuos.Kernel.HeapNode
import Xiuos.Lib.NullList

namespace Xiuos.Kernel
open Lib Cell Nat
open List hiding span
variable {cfg : HeapConfig} {cs : List Cell} {m m' : Mem}

structure Sited (cfg : HeapConfig) (lo hi : Nat) : Prop where
  lo_pos : 0 < lo
  hi_le : hi ≤ cfg.limit
  list_pos : 0 < cfg.freenodeList
  list_le : cfg.freenodeList + memLinknrs * cfg.freeNode ≤ cfg.limit
  outside : hi ≤ cfg.freenodeList ∨ cfg.freenodeList + memLinknrs * cfg.freeNode ≤ lo

lemma freenode_apart (cfg : HeapConfig) {i j : Nat} (h : i < j) :
    cfg.freenode i + cfg.freeNode ≤ cfg.freenode j := by
  have hmul := Nat.mul_le_mul_right cfg.freeNode (succ_le_of_lt h)
  rw [succ_mul] at hmul
  simp only [HeapConfig.freenode]
  omega

variable {i : Nat}

lemma freenode_bounds (cfg : HeapConfig) (h : i < memLinknrs) :
    cfg.freenodeList ≤ cfg.freenode i ∧
      cfg.freenode i + cfg.freeNode ≤ cfg.freenodeList + memLinknrs * cfg.freeNode := by
  have hmul := Nat.mul_le_mul_right cfg.freeNode (succ_le_of_lt h)
  rw [succ_mul] at hmul
  simp only [HeapConfig.freenode]
  omega

inductive Entry
  | bin (i : Nat)
  | free (addr size : Nat)
  deriving DecidableEq

namespace Entry

def addr (cfg : HeapConfig) : Entry → Nat
  | .bin i => cfg.freenode i
  | .free a _ => a

def size : Entry → Nat
  | .bin _ => 0
  | .free _ z => z

end Entry

def IsNode (cfg : HeapConfig) (lo : Nat) (cs : List Cell) (n : Nat) : Prop :=
  (∃ i < memLinknrs, n = cfg.freenode i) ∨ ∃ z, (n, z) ∈ frees lo cs ∧ cfg.freeNode ≤ z

def PointerByte (cfg : HeapConfig) (lo : Nat) (cs : List Cell) (x : Nat) : Prop :=
  ∃ n, IsNode cfg lo cs n ∧ n + cfg.header ≤ x ∧ x < n + cfg.freeNode

def LinksOnly (cfg : HeapConfig) (lo : Nat) (cs : List Cell) (m m' : Mem) : Prop :=
  ∀ x, ¬ PointerByte cfg lo cs x → m' x = m x

lemma LinksOnly.trans {cfg : HeapConfig} {lo : Nat} {cs : List Cell} {m m' m'' : Mem}
    (h : LinksOnly cfg lo cs m m') (h' : LinksOnly cfg lo cs m' m'') :
    LinksOnly cfg lo cs m m'' := fun x hx => (h' x hx).trans (h x hx)

def links (cfg : HeapConfig) (m : Mem) : Links Nat where
  next n := cfg.get m n .next
  prev n := cfg.get m n .prev

section
variable {lo hi n n' x z : Nat}

lemma header_lt_freeNode (cfg : HeapConfig) : 0 < cfg.header ∧ cfg.header < cfg.freeNode := by
  have := cfg.ptr_eq
  simp only [HeapConfig.freeNode, HeapConfig.header]
  omega

lemma frees_bounds (h : (n, z) ∈ frees lo cs) : lo ≤ n ∧ n + z ≤ lo + span cs := by
  obtain ⟨us, vs, rfl, rfl⟩ := mem_frees.mp h
  simp only [span_append, span_cons]
  exact ⟨by omega, by omega⟩

variable (hp : Sited cfg lo (lo + span cs))
include hp

lemma IsNode.apart (hn : IsNode cfg lo cs n) (hn' : IsNode cfg lo cs n') :
    n = n' ∨ n + cfg.freeNode ≤ n' ∨ n' + cfg.freeNode ≤ n := by
  have hout := hp.outside
  obtain ⟨i, hi, rfl⟩ | ⟨z, hz, hfree⟩ := hn <;> obtain ⟨j, hj, rfl⟩ | ⟨z', hz', hfree'⟩ := hn'
  · obtain h | rfl | h := Nat.lt_trichotomy i j
    · exact .inr (.inl (freenode_apart cfg h))
    · exact .inl rfl
    · exact .inr (.inr (freenode_apart cfg h))
  · have := freenode_bounds cfg hi
    have := frees_bounds hz'
    omega
  · have := freenode_bounds cfg hj
    have := frees_bounds hz
    omega
  · obtain ⟨us, vs, rfl, rfl⟩ := mem_frees.mp hz
    obtain ⟨us', vs', heq, rfl⟩ := mem_frees.mp hz'
    obtain ⟨rfl, -, -⟩ | h | h := apart heq
    · exact .inl rfl
    · exact .inr (.inl (by simp only at h; omega))
    · exact .inr (.inr (by simp only at h; omega))

lemma IsNode.pos (hn : IsNode cfg lo cs n) : 0 < n ∧ n < cfg.limit := by
  have := header_lt_freeNode cfg
  have := hp.lo_pos
  have := hp.list_pos
  have := hp.hi_le
  have := hp.list_le
  obtain ⟨i, hi, rfl⟩ | ⟨z, hz, hfree⟩ := hn
  · have := freenode_bounds cfg hi
    omega
  · have := frees_bounds hz
    omega

omit hp in
lemma PointerByte.cases (h : PointerByte cfg lo cs x) :
    LinkByte cfg lo cs x ∨ ∃ i < memLinknrs, cfg.freenode i + cfg.header ≤ x ∧
      x < cfg.freenode i + cfg.freeNode := by
  obtain ⟨n, ⟨i, hi, rfl⟩ | ⟨z, hz, hfree⟩, h1, h2⟩ := h
  · exact .inr ⟨i, hi, h1, h2⟩
  · obtain ⟨us, vs, rfl, rfl⟩ := mem_frees.mp hz
    exact .inl ⟨us, _, vs, rfl, rfl, hfree, h1, h2⟩

lemma HeaderByte.not_pointerByte (hcs : ∀ c ∈ cs, cfg.header ≤ c.size)
    (h : HeaderByte cfg lo cs x) : ¬ PointerByte cfg lo cs x := by
  intro hx
  obtain hx | ⟨i, hi, h1, h2⟩ := hx.cases
  · exact h.not_linkByte hcs hx
  · have := h.bounds hcs
    have := freenode_bounds cfg hi
    have := hp.outside
    omega

lemma Payload.not_pointerByte (h : Payload cfg lo cs x) : ¬ PointerByte cfg lo cs x := by
  intro hx
  obtain hx | ⟨i, hi, h1, h2⟩ := hx.cases
  · exact h.not_linkByte hx
  · have := h.bounds
    have := freenode_bounds cfg hi
    have := hp.outside
    omega

omit hp in
lemma not_pointerByte_of_outside (h : x < lo ∨ lo + span cs ≤ x) (hb : ¬ BinByte cfg x) :
    ¬ PointerByte cfg lo cs x := by
  intro hx
  obtain hx | ⟨i, hi, h1, h2⟩ := hx.cases
  · have := hx.bounds
    omega
  · have := freenode_bounds cfg hi
    exact hb ⟨by omega, by omega⟩

lemma not_pointerByte_of_bin (hi : i < memLinknrs) (h1 : cfg.freenode i ≤ x)
    (h2 : x < cfg.freenode i + cfg.header) : ¬ PointerByte cfg lo cs x := by
  rintro ⟨n, hn, h3, h4⟩
  have := header_lt_freeNode cfg
  have hbin : IsNode cfg lo cs (cfg.freenode i) := .inl ⟨i, hi, rfl⟩
  have := hn.apart hp hbin
  omega

end

section
variable {lo n n' v : Nat} {f : Field}

lemma set_linksOnly (hn : IsNode cfg lo cs n) (hf : ¬ f.IsHeader) :
    LinksOnly cfg lo cs m (cfg.set m n f v) := by
  intro x hx
  have := f.end_le_freeNode cfg
  have := f.header_le_offset cfg hf
  refine set_outside cfg ?_
  by_contra hc
  exact hx ⟨n, hn, by omega, by omega⟩

variable (hp : Sited cfg lo (lo + span cs))
include hp

section
variable (hn : IsNode cfg lo cs n)
include hn

lemma get_set_node (hn' : IsNode cfg lo cs n') (f g : Field) :
    cfg.get (cfg.set m n f v) n' g =
      if n' = n ∧ g = f then v % 256 ^ cfg.width f else cfg.get m n' g := by
  have hapart := hn.apart hp hn'
  have hf := Field.end_le_freeNode cfg f
  have hg := Field.end_le_freeNode cfg g
  by_cases h : n' = n
  · subst h
    by_cases hgf : g = f
    · subst hgf
      rw [get_set_self, if_pos ⟨rfl, rfl⟩]
    · rw [get_set_of_ne cfg (Ne.symm hgf), if_neg fun h => hgf h.2]
  · rw [get_set_of_disjoint cfg (by omega), if_neg fun h' => h h'.1]

lemma links_set_next (hv : v < cfg.limit) (hn' : IsNode cfg lo cs n') :
    (links cfg (cfg.set m n .next v)).next n' = (if n' = n then v else (links cfg m).next n') ∧
      (links cfg (cfg.set m n .next v)).prev n' = (links cfg m).prev n' := by
  have hmod : v % 256 ^ cfg.width .next = v := mod_eq_of_lt hv
  simp [links, get_set_node hp hn hn', hmod]

lemma links_set_prev (hv : v < cfg.limit) (hn' : IsNode cfg lo cs n') :
    (links cfg (cfg.set m n .prev v)).next n' = (links cfg m).next n' ∧
      (links cfg (cfg.set m n .prev v)).prev n' =
        (if n' = n then v else (links cfg m).prev n') := by
  have hmod : v % 256 ^ cfg.width .prev = v := mod_eq_of_lt hv
  simp [links, get_set_node hp hn hn', hmod]

end

def setBack (cfg : HeapConfig) (m : Mem) (next node : Nat) : Mem :=
  if next ≠ 0 then cfg.set m next .prev node else m

lemma links_setBack (hn : n ≠ 0 → IsNode cfg lo cs n) (hv : v < cfg.limit)
    (hn' : IsNode cfg lo cs n') :
    (links cfg (setBack cfg m n v)).next n' = (links cfg m).next n' ∧
      (links cfg (setBack cfg m n v)).prev n' = (if n' = n then v else (links cfg m).prev n') := by
  rw [setBack]
  by_cases h : n ≠ 0
  · rw [if_pos h]
    exact links_set_prev hp (hn h) hv hn'
  · have hne : n' ≠ n := by
      rintro rfl
      exact h (hn'.pos hp).1.ne'
    rw [if_neg h, if_neg hne]
    exact ⟨rfl, rfl⟩

omit hp in
lemma setBack_linksOnly (hn : n ≠ 0 → IsNode cfg lo cs n) :
    LinksOnly cfg lo cs m (setBack cfg m n v) := by
  rw [setBack]
  split
  case isTrue h => exact set_linksOnly (hn h) id
  case isFalse => exact fun _ _ => rfl

end

/-- The memory has the headers of the cells `cs` and of the bins, and behind the first bin the
chain `rest`, in which a free cell may be missing. -/
structure Rep (cfg : HeapConfig) (lo : Nat) (m : Mem) (cs : List Cell) (rest : List Entry) :
    Prop where
  fits : ∀ c ∈ cs, cfg.header ≤ c.size
  tagged : Tagged cfg m lo 0 cs
  bins : ∀ i < memLinknrs, cfg.get m (cfg.freenode i) .size = 0
  linked : (links cfg m).Ends 0 (cfg.freenode 0) (rest.map (·.addr cfg))
  bin_lt : ∀ i, .bin i ∈ rest → 0 < i ∧ i < memLinknrs
  free_mem : ∀ a z, .free a z ∈ rest → (a, z) ∈ frees lo cs ∧ cfg.freeNode ≤ z
  nodup : rest.Nodup

namespace Rep
variable {lo n : Nat} {rest xs ys : List Entry} {e e' : Entry}

section
variable (h : Rep cfg lo m cs rest)
include h

lemma index_lt (hi : .bin i ∈ Entry.bin 0 :: rest) : i < memLinknrs := by
  obtain hi | hi := mem_cons.mp hi
  · cases hi
    decide
  · exact (h.bin_lt i hi).2

lemma isNode (he : e ∈ .bin 0 :: rest) : IsNode cfg lo cs (e.addr cfg) := by
  cases e with
  | bin i => exact .inl ⟨i, h.index_lt he, rfl⟩
  | free a z => exact .inr ⟨z, h.free_mem a z (by simpa using he)⟩

lemma isNode_of_mem_map (hn : n ∈ cfg.freenode 0 :: rest.map (·.addr cfg)) :
    IsNode cfg lo cs n := by
  obtain ⟨e, he, rfl⟩ : ∃ e ∈ Entry.bin 0 :: rest, e.addr cfg = n := mem_map.mp hn
  exact h.isNode he

end

lemma freenode_inj (cfg : HeapConfig) {i j : Nat} (h : cfg.freenode i = cfg.freenode j) :
    i = j := by
  have := header_lt_freeNode cfg
  obtain hlt | heq | hlt := Nat.lt_trichotomy i j
  · have := freenode_apart cfg hlt
    omega
  · exact heq
  · have := freenode_apart cfg hlt
    omega

lemma frees_unique (hcs : ∀ c ∈ cs, cfg.header ≤ c.size) {a z z' : Nat}
    (h : (a, z) ∈ frees lo cs) (h' : (a, z') ∈ frees lo cs) : z = z' := by
  have := header_lt_freeNode cfg
  obtain ⟨us, vs, rfl, rfl⟩ := mem_frees.mp h
  obtain ⟨us', vs', heq, hspan⟩ := mem_frees.mp h'
  have hz := hcs ⟨z, false⟩ (by simp)
  have hz' := hcs ⟨z', false⟩ (by rw [heq]; simp)
  obtain ⟨-, hc, -⟩ | hle | hle := apart heq
  · exact (Cell.mk.inj hc).1
  · simp only at hle hz
    omega
  · simp only at hle hz'
    omega

section
variable (hp : Sited cfg lo (lo + span cs))
include hp

lemma freenode_ne {i a z : Nat} (hi : i < memLinknrs) (hz : (a, z) ∈ frees lo cs)
    (hfree : cfg.freeNode ≤ z) : cfg.freenode i ≠ a := by
  have := freenode_bounds cfg hi
  have := frees_bounds hz
  have := header_lt_freeNode cfg
  have := hp.outside
  omega

section
variable (h : Rep cfg lo m cs rest)
include h

lemma addr_inj (he : e ∈ .bin 0 :: rest) (he' : e' ∈ .bin 0 :: rest)
    (ha : e.addr cfg = e'.addr cfg) : e = e' := by
  have hbin {i a z : Nat} (hi : .bin i ∈ Entry.bin 0 :: rest)
      (hz : .free a z ∈ Entry.bin 0 :: rest) : cfg.freenode i ≠ a :=
    have hfree := h.free_mem a z (by simpa using hz)
    freenode_ne hp (h.index_lt hi) hfree.1 hfree.2
  cases e <;> cases e'
  case bin.bin i j => rw [freenode_inj cfg ha]
  case bin.free i a z => exact absurd ha (hbin he he')
  case free.bin a z i => exact absurd ha.symm (hbin he' he)
  case free.free a z b y =>
    simp only [Entry.addr] at ha
    subst ha
    rw [frees_unique h.fits (h.free_mem a z (by simpa using he)).1
      (h.free_mem a y (by simpa using he')).1]

lemma nodup_addr : (cfg.freenode 0 :: rest.map (·.addr cfg)).Nodup := by
  have hbin : .bin 0 ∉ rest := fun hb => absurd (h.bin_lt 0 hb).1 (by decide)
  have hnodup : (Entry.bin 0 :: rest).Nodup := nodup_cons.mpr ⟨hbin, h.nodup⟩
  exact (nodup_map_iff_inj_on hnodup).mpr fun e he e' he' ha => h.addr_inj hp he he' ha

lemma null_not_mem : 0 ∉ cfg.freenode 0 :: rest.map (·.addr cfg) := fun h0 =>
  absurd ((h.isNode_of_mem_map h0).pos hp).1 (Nat.lt_irrefl 0)

lemma tags_of_linksOnly (hm : LinksOnly cfg lo cs m m') :
    Tagged cfg m' lo 0 cs ∧ ∀ i < memLinknrs, cfg.get m' (cfg.freenode i) .size = 0 := by
  refine ⟨h.tagged.congr fun x hx => hm x (hx.not_pointerByte hp h.fits), fun i hi => ?_⟩
  rw [← h.bins i hi]
  exact get_congr_header cfg trivial fun x h1 h2 =>
    hm x (not_pointerByte_of_bin hp hi h1 h2)

end

omit hp in
lemma next_lt_limit (cfg : HeapConfig) (m : Mem) (n : Nat) : (links cfg m).next n < cfg.limit :=
  Mem.load_lt

omit hp in
lemma next_isNode (h : Rep cfg lo m cs (xs ++ e :: ys))
    (hnext : (links cfg m).next (e.addr cfg) ≠ 0) :
    IsNode cfg lo cs ((links cfg m).next (e.addr cfg)) := by
  have hlinked := h.linked
  rw [map_append, map_cons] at hlinked
  have hentry := hlinked.tail.next_eq
  cases ys with
  | nil => exact absurd hentry hnext
  | cons e' ys =>
    rw [hentry]
    exact h.isNode (by simp)

variable (h : Rep cfg lo m cs (xs ++ e :: ys))
include h

lemma prev_isNode :
    IsNode cfg lo cs ((links cfg m).prev (e.addr cfg)) ∧
      (links cfg m).prev (e.addr cfg) ≠ e.addr cfg := by
  have hlinked := h.linked
  have hnodup := h.nodup_addr hp
  rw [map_append, map_cons] at hlinked hnodup
  have hn : IsNode cfg lo cs (e.addr cfg) := h.isNode (by simp)
  obtain ⟨hprev, -⟩ := hlinked.exists_prev (hn.pos hp).1.ne'
  constructor
  · refine h.isNode_of_mem_map ?_
    simp only [map_append, map_cons, mem_cons, mem_append] at hprev ⊢
    tauto
  · intro heq
    rw [heq] at hprev
    simp only [nodup_cons, nodup_append, mem_append, mem_cons] at hnodup hprev
    grind

lemma unlinkNode_eq :
    unlinkNode cfg m (e.addr cfg) =
      setBack cfg (cfg.set m ((links cfg m).prev (e.addr cfg)) .next
        ((links cfg m).next (e.addr cfg))) ((links cfg m).next (e.addr cfg))
        ((links cfg m).prev (e.addr cfg)) := by
  obtain ⟨hpnode, hpn⟩ := h.prev_isNode hp
  have hset := links_set_next (m := m) hp hpnode (next_lt_limit cfg m (e.addr cfg))
    (h.isNode (by simp) : IsNode cfg lo cs (e.addr cfg))
  rw [if_neg (Ne.symm hpn)] at hset
  simp only [links] at hset ⊢
  simp only [unlinkNode, setBack, hset.1, hset.2]

lemma unlinkNode_links (hn : IsNode cfg lo cs n) :
    (links cfg (unlinkNode cfg m (e.addr cfg))).next n =
      (if n = (links cfg m).prev (e.addr cfg) then (links cfg m).next (e.addr cfg)
        else (links cfg m).next n) ∧
    (links cfg (Kernel.unlinkNode cfg m (e.addr cfg))).prev n =
      (if n = (links cfg m).next (e.addr cfg) then (links cfg m).prev (e.addr cfg)
        else (links cfg m).prev n) := by
  obtain ⟨hpnode, -⟩ := h.prev_isNode hp
  have hback := links_setBack (m := cfg.set m ((links cfg m).prev (e.addr cfg)) .next
    ((links cfg m).next (e.addr cfg))) hp h.next_isNode (hpnode.pos hp).2 hn
  have hset := links_set_next (m := m) hp hpnode (next_lt_limit cfg m (e.addr cfg)) hn
  rw [h.unlinkNode_eq hp, hback.1, hback.2, hset.1, hset.2]
  exact ⟨rfl, rfl⟩

lemma unlinkNode_linksOnly : LinksOnly cfg lo cs m (unlinkNode cfg m (e.addr cfg)) := by
  rw [h.unlinkNode_eq hp]
  exact (set_linksOnly (h.prev_isNode hp).1 id).trans (setBack_linksOnly h.next_isNode)

lemma unlinkNode : Rep cfg lo (unlinkNode cfg m (e.addr cfg)) cs (xs ++ ys) := by
  obtain ⟨htagged, hbins⟩ := h.tags_of_linksOnly hp (h.unlinkNode_linksOnly hp)
  have hsub : List.Sublist (xs ++ ys) (xs ++ e :: ys) := (sublist_cons_self e ys).append_left xs
  have hnodes {c : Nat} (hc : c ∈ cfg.freenode 0 :: (xs ++ ys).map (·.addr cfg)) :
      IsNode cfg lo cs c := by
    refine h.isNode_of_mem_map ?_
    simp only [map_append, map_cons, mem_cons, mem_append] at hc ⊢
    tauto
  refine ⟨h.fits, htagged, hbins, ?_, fun i hi => h.bin_lt i (hsub.subset hi),
    fun a z hz => h.free_mem a z (hsub.subset hz), h.nodup.sublist hsub⟩
  have hlinked := h.linked
  have hnodup := h.nodup_addr hp
  have hnull := h.null_not_mem hp
  rw [map_append, map_cons] at hlinked hnodup hnull
  rw [map_append]
  refine hlinked.remove hnodup (fun h0 => hnull (mem_cons_of_mem _ h0)) ?_ ?_
  · intro c hc
    rw [← map_append] at hc
    exact (h.unlinkNode_links hp (hnodes hc)).1
  · intro c hc
    rw [← map_append] at hc
    exact (h.unlinkNode_links hp (hnodes (mem_cons_of_mem _ hc))).2

end

def front (cfg : HeapConfig) (xs : List Entry) : Nat :=
  ((Entry.bin 0 :: xs).getLast (cons_ne_nil _ _)).addr cfg

lemma front_isNode (h : Rep cfg lo m cs (xs ++ ys)) : IsNode cfg lo cs (front cfg xs) := by
  refine h.isNode ?_
  have hmem := getLast_mem (cons_ne_nil (Entry.bin 0) xs)
  simp only [mem_cons, mem_append] at hmem ⊢
  tauto

def behind (cfg : HeapConfig) (ys : List Entry) : Nat := Links.entry 0 (ys.map (·.addr cfg))

lemma behind_isNode (h : Rep cfg lo m cs (xs ++ ys)) (hne : behind cfg ys ≠ 0) :
    IsNode cfg lo cs (behind cfg ys) := by
  cases ys with
  | nil => exact absurd rfl hne
  | cons e ys => exact h.isNode (e := e) (by simp)

variable (hp : Sited cfg lo (lo + span cs))
include hp

lemma behind_lt (h : Rep cfg lo m cs (xs ++ ys)) : behind cfg ys < cfg.limit := by
  by_cases hne : behind cfg ys = 0
  · rw [hne]
    exact lt_of_lt_of_le (by decide) cfg.le_limit
  · exact ((h.behind_isNode hne).pos hp).2

lemma insertNode_links (h : Rep cfg lo m cs (xs ++ ys)) {a : Nat} (ha : IsNode cfg lo cs a)
    (hn : IsNode cfg lo cs n) :
    (links cfg (insertNode cfg m a (front cfg xs) (behind cfg ys))).next n =
      (if n = a then behind cfg ys else if n = front cfg xs then a else (links cfg m).next n) ∧
    (links cfg (insertNode cfg m a (front cfg xs) (behind cfg ys))).prev n =
      (if n = behind cfg ys then a else if n = a then front cfg xs else (links cfg m).prev n) := by
  have halt := (ha.pos hp).2
  have hflt := (h.front_isNode.pos hp).2
  have h1 := links_set_next (m := m) hp h.front_isNode halt hn
  generalize hm1 : cfg.set m (front cfg xs) .next a = m1 at h1
  have h2 := links_set_prev (m := m1) hp ha hflt hn
  generalize hm2 : cfg.set m1 a .prev (front cfg xs) = m2 at h2
  have h3 := links_set_next (m := m2) hp ha (h.behind_lt hp) hn
  generalize hm3 : cfg.set m2 a .next (behind cfg ys) = m3 at h3
  have h4 := links_setBack (m := m3) hp h.behind_isNode halt hn
  have hmem : insertNode cfg m a (front cfg xs) (behind cfg ys) =
      setBack cfg m3 (behind cfg ys) a := by rw [insertNode, hm1, hm2, hm3, setBack]
  rw [hmem, h4.1, h4.2, h3.1, h3.2, h2.1, h2.2, h1.1, h1.2]
  exact ⟨rfl, rfl⟩

omit hp in
lemma insertNode_linksOnly (h : Rep cfg lo m cs (xs ++ ys)) {a : Nat} (ha : IsNode cfg lo cs a) :
    LinksOnly cfg lo cs m (insertNode cfg m a (front cfg xs) (behind cfg ys)) :=
  (set_linksOnly h.front_isNode id).trans ((set_linksOnly ha id).trans
    ((set_linksOnly ha id).trans (setBack_linksOnly h.behind_isNode)))

lemma insertNode (h : Rep cfg lo m cs (xs ++ ys)) {a z : Nat} (ha : (a, z) ∈ frees lo cs)
    (hz : cfg.freeNode ≤ z) (hnew : .free a z ∉ xs ++ ys) :
    Rep cfg lo (insertNode cfg m a (front cfg xs) (behind cfg ys)) cs (xs ++ .free a z :: ys) := by
  have hnode : IsNode cfg lo cs a := .inr ⟨z, ha, hz⟩
  obtain ⟨htagged, hbins⟩ := h.tags_of_linksOnly hp (h.insertNode_linksOnly hnode)
  have hmem {e : Entry} : e ∈ xs ++ .free a z :: ys ↔ e = .free a z ∨ e ∈ xs ++ ys := by
    simp only [mem_append, mem_cons]
    tauto
  have hnodes {c : Nat} (hc : c ∈ cfg.freenode 0 :: (xs ++ .free a z :: ys).map (·.addr cfg)) :
      IsNode cfg lo cs c := by
    obtain rfl | hc := mem_cons.mp hc
    · exact h.isNode_of_mem_map mem_cons_self
    · obtain ⟨e, he, rfl⟩ := mem_map.mp hc
      obtain rfl | he := hmem.mp he
      · exact hnode
      · exact h.isNode (mem_cons_of_mem _ he)
  -- an entry at the address of the cell would be the cell itself
  have hout : a ∉ cfg.freenode 0 :: (xs ++ ys).map (·.addr cfg) := by
    intro hin
    obtain ⟨e, he, heq⟩ : ∃ e ∈ Entry.bin 0 :: (xs ++ ys), e.addr cfg = a := mem_map.mp hin
    cases e with
    | bin i => exact freenode_ne hp (h.index_lt he) ha hz heq
    | free b y =>
      simp only [Entry.addr] at heq
      subst heq
      have hy := h.free_mem b y (by simpa using he)
      rw [← frees_unique h.fits ha hy.1] at he
      exact hnew (by simpa using he)
  refine ⟨h.fits, htagged, hbins, ?_, ?_, ?_, ?_⟩
  · have hlinked := h.linked
    have hnodup := h.nodup_addr hp
    have hnull := h.null_not_mem hp
    rw [map_append] at hlinked hnodup hnull hout
    rw [map_append, map_cons] at hnodes ⊢
    refine hlinked.insert hnodup ?_ hout (p := front cfg xs) ?_ ?_ ?_
    · rw [mem_cons, not_or]
      exact ⟨(hnode.pos hp).1.ne, fun h0 => hnull (mem_cons_of_mem _ h0)⟩
    · have hlast := getLast?_eq_some_getLast (cons_ne_nil (Entry.bin 0) xs)
      have := congrArg (Option.map (·.addr cfg)) hlast
      rwa [← getLast?_map] at this
    · intro c hc
      exact (h.insertNode_links hp hnode (hnodes hc)).1
    · intro c hc
      exact (h.insertNode_links hp hnode (hnodes (mem_cons_of_mem _ hc))).2
  · intro i hi
    exact h.bin_lt i ((hmem.mp hi).resolve_left (by simp))
  · intro b y hb
    obtain heq | hb := hmem.mp hb
    · cases heq
      exact ⟨ha, hz⟩
    · exact h.free_mem b y hb
  · exact nodup_middle.mpr (nodup_cons.mpr ⟨hnew, h.nodup⟩)

end Rep
end Xiuos.Kernel
