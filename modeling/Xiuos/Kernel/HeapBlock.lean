import Xiuos.Kernel.HeapBins

namespace Xiuos.Kernel
open Lib Cell Nat
open List hiding span
variable {cfg : HeapConfig} {f : Field} {b : Nat}

section

variable {lo a p v x : Nat} {m m' m'' : Mem} {c d : Cell} {cs us ws ws' vs : List Cell}
  {rest : List Entry}

lemma payload_append : Payload cfg a (us ++ vs) x ↔
    Payload cfg a us x ∨ Payload cfg (a + span us) vs x := by
  constructor
  · rintro ⟨ps, c, qs, heq, hu, h1, h2⟩
    obtain ⟨ts, rfl, htail⟩ | ⟨ts, rfl, htail⟩ := append_eq_append_iff.mp heq
    · refine .inr ⟨ts, c, qs, htail, hu, ?_, ?_⟩ <;> rw [span_append] at h1 h2 <;> omega
    · cases ts with
      | nil =>
        refine .inr ⟨[], c, qs, htail.symm, hu, ?_, ?_⟩ <;> simpa using ‹_›
      | cons t ts =>
        obtain ⟨rfl, rfl⟩ := List.cons.inj htail
        exact .inl ⟨ps, c, ts, rfl, hu, h1, h2⟩
  · rintro (⟨ps, c, qs, rfl, hu, h1, h2⟩ | ⟨ps, c, qs, rfl, hu, h1, h2⟩)
    · exact ⟨ps, c, qs ++ vs, by simp, hu, h1, h2⟩
    · refine ⟨us ++ ps, c, qs, by simp, hu, ?_, ?_⟩ <;> rw [span_append] <;> omega

lemma payload_cons : Payload cfg a (c :: cs) x ↔
    (c.used ∧ a + cfg.header ≤ x ∧ x < a + c.size) ∨ Payload cfg (a + c.size) cs x := by
  rw [← singleton_append, payload_append]
  refine or_congr ⟨?_, ?_⟩ (by simp)
  · rintro ⟨us, d, vs, heq, hu, h1, h2⟩
    obtain ⟨rfl, rfl, rfl⟩ : us = [] ∧ d = c ∧ vs = [] := by
      cases us <;> simp_all
    exact ⟨hu, by simpa using h1, by simpa using h2⟩
  · rintro ⟨hu, h1, h2⟩
    exact ⟨[], c, [], rfl, hu, by simpa using h1, by simpa using h2⟩

def Kept (cfg : HeapConfig) (lo : Nat) (cs : List Cell) (x : Nat) : Prop :=
  Payload cfg lo cs x ∨ (x < lo ∨ lo + span cs ≤ x) ∧ ¬ BinByte cfg x

def Keeps (cfg : HeapConfig) (lo : Nat) (cs : List Cell) (m m' : Mem) : Prop :=
  ∀ x, Kept cfg lo cs x → m' x = m x

lemma Keeps.trans (h : Keeps cfg lo cs m m') (h' : Keeps cfg lo cs m' m'') :
    Keeps cfg lo cs m m'' := fun x hx => (h' x hx).trans (h x hx)

lemma LinksOnly.keeps (hp : Sited cfg lo (lo + span cs)) (h : LinksOnly cfg lo cs m m') :
    Keeps cfg lo cs m m' := by
  rintro x (hx | ⟨hx, hbin⟩)
  · exact h x (hx.not_pointerByte hp)
  · exact h x (not_pointerByte_of_outside hx hbin)

lemma Kept.replace (hspan : span ws' = span ws) (hfree : ∀ c ∈ ws, c.used = false)
    (h : Kept cfg lo (us ++ (ws ++ vs)) x) : Kept cfg lo (us ++ (ws' ++ vs)) x := by
  obtain h | ⟨h, hbin⟩ := h
  · refine .inl ?_
    simp only [payload_append, hspan] at h ⊢
    obtain h | ⟨ps, c, qs, rfl, hu, -⟩ | h := h
    · exact .inl h
    · rw [hfree c (by simp)] at hu
      cases hu
    · exact .inr (.inr h)
  · refine .inr ⟨?_, hbin⟩
    simp only [span_append] at h ⊢
    omega

lemma Keeps.replace (ws ws' : List Cell) (hspan : span ws' = span ws)
    (hfree : ∀ c ∈ ws, c.used = false)
    (h : Keeps cfg lo (us ++ (ws' ++ vs)) m m') : Keeps cfg lo (us ++ (ws ++ vs)) m m' :=
  fun x hx => h x (hx.replace hspan hfree)

def Inside (cfg : HeapConfig) (lo : Nat) (us ws : List Cell) (m m' : Mem) : Prop :=
  ∀ x, x < lo + span us ∨ lo + span us + span ws + cfg.header ≤ x → m' x = m x

lemma Inside.set (h : Inside cfg lo us ws m m') (hf : f.IsHeader) (h1 : lo + span us ≤ b)
    (h2 : b ≤ lo + span us + span ws) :
    Inside cfg lo us ws m (cfg.set m' b f v) := fun x hx =>
  (set_header_outside cfg hf (by omega)).trans (h x hx)

lemma Inside.keeps (ws : List Cell) (hd : cfg.header ≤ d.size) (hfree : ∀ c ∈ ws, c.used = false)
    (h : Inside cfg lo us ws m m') : Keeps cfg lo (us ++ (ws ++ d :: vs)) m m' := by
  rintro x (hx | ⟨hx, hbin⟩)
  · simp only [payload_append, payload_cons] at hx
    refine h x ?_
    obtain hx | ⟨ps, c, qs, rfl, hu, -⟩ | ⟨-, hx, -⟩ | hx := hx
    · exact .inl hx.bounds.2
    · rw [hfree c (by simp)] at hu
      cases hu
    · omega
    · have := hx.bounds
      omega
  · refine h x ?_
    simp only [span_append, span_cons] at hx
    omega

end

section
variable {lo a p v x : Nat} {m m' : Mem} {c d : Cell} {us ws ws' vs : List Cell} {rest : List Entry}

section
variable (h : Header cfg m a p c)
include h

lemma Header.set_prevAdjSize : Header cfg (cfg.set m a .prevAdjSize v) a v c where
  size := (get_set_of_ne cfg (by decide)).trans h.size
  prevAdjSize := get_set_self cfg
  flag := (get_set_of_ne cfg (by decide)).trans h.flag

lemma Header.set_size (hv : v < cfg.limit) :
    Header cfg (cfg.set m a .size v) a p ⟨v, c.used⟩ where
  size := (get_set_self cfg).trans (mod_eq_of_lt hv)
  prevAdjSize := (get_set_of_ne cfg (by decide)).trans h.prevAdjSize
  flag := (get_set_of_ne cfg (by decide)).trans h.flag

omit h in
lemma flagOf_lt (used : Bool) : flagOf used < 256 ^ 4 := by
  cases used <;> decide

lemma Header.set_flag (used : Bool) :
    Header cfg (cfg.set m a .flag (flagOf used)) a p ⟨c.size, used⟩ where
  size := (get_set_of_ne cfg (by decide)).trans h.size
  prevAdjSize := (get_set_of_ne cfg (by decide)).trans h.prevAdjSize
  flag := (get_set_self cfg).trans (mod_eq_of_lt (flagOf_lt used))

lemma Header.set_apart (hf : f.IsHeader) (hab : b + cfg.header ≤ a ∨ a + cfg.header ≤ b) :
    Header cfg (cfg.set m b f v) a p c := h.congr fun _ _ _ => set_header_outside cfg hf (by omega)

end

def splitTags (cfg : HeapConfig) (m : Mem) (node n r z : Nat) : Mem :=
  let m := cfg.set m (node + n) .size r
  let m := cfg.set m (node + n) .prevAdjSize n
  let m := cfg.set m (node + n) .flag 0
  let m := cfg.set m node .size n
  cfg.set m (node + z) .prevAdjSize r

lemma splitTags_inside {n r z : Nat} (hz : n + r = z) :
    Inside cfg lo us [⟨z, false⟩] m (splitTags cfg m (lo + span us) n r z) := by
  have hspan : span [⟨z, false⟩] = z := Nat.add_zero z
  have hrefl : Inside cfg lo us [⟨z, false⟩] m m := fun _ _ => rfl
  have hrem := ((hrefl.set (b := lo + span us + n) (v := r) (f := .size) trivial (by omega)
    (by omega)).set (b := lo + span us + n) (v := n) (f := .prevAdjSize) trivial (by omega)
    (by omega)).set (b := lo + span us + n) (v := 0) (f := .flag) trivial (by omega) (by omega)
  exact (hrem.set (f := .size) trivial (by omega) (by omega)).set trivial (by omega) (by omega)

lemma Header.of_sets (hsize : c.size < cfg.limit) :
    Header cfg (cfg.set (cfg.set (cfg.set m a .size c.size) a .prevAdjSize p) a .flag
      (flagOf c.used)) a p c where
  size := by
    rw [get_set_of_ne cfg (by decide), get_set_of_ne cfg (by decide), get_set_self]
    exact mod_eq_of_lt hsize
  prevAdjSize := by
    rw [get_set_of_ne cfg (by decide), get_set_self]
    rfl
  flag := (get_set_self cfg).trans (mod_eq_of_lt (flagOf_lt c.used))

lemma Tagged.replace (h : Tagged cfg m lo p (us ++ (ws ++ d :: vs)))
    (hfits : ∀ c ∈ us ++ (ws ++ d :: vs), cfg.header ≤ c.size)
    (hspan : span ws' = span ws) (hm : Inside cfg lo us ws m m')
    (hws : Tagged cfg m' (lo + span us) (last p us) ws')
    (hd : Header cfg m' (lo + span us + span ws) (last (last p us) ws') d) :
    Tagged cfg m' lo p (us ++ (ws' ++ d :: vs)) := by
  simp only [tagged_append, Tagged, hspan] at h ⊢
  have hd' := hfits d (by simp)
  refine ⟨h.1.congr_range (fun c hc => hfits c (by simp [hc])) fun x h1 h2 => hm x (.inl h2), hws,
    hd, h.2.2.2.congr_range (fun c hc => hfits c (by simp [hc])) fun x h1 h2 => hm x (by omega)⟩

end

namespace Rep

variable {lo n r z : Nat} {m m' : Mem} {d : Cell} {cs us ws ws' vs : List Cell}
  {rest xs ys : List Entry}

lemma replace (ws ws' : List Cell)
    (hp : Sited cfg lo (lo + span (us ++ (ws ++ d :: vs))))
    (h : Rep cfg lo m (us ++ (ws ++ d :: vs)) rest) (hspan : span ws' = span ws)
    (hfits : ∀ c ∈ ws', cfg.header ≤ c.size)
    (hrest : ∀ a z, .free a z ∈ rest → (a, z) ∉ frees (lo + span us) ws)
    (hm : Inside cfg lo us ws m m')
    (hws : Tagged cfg m' (lo + span us) (last 0 us) ws')
    (hd : Header cfg m' (lo + span us + span ws) (last (last 0 us) ws') d) :
    Rep cfg lo m' (us ++ (ws' ++ d :: vs)) rest := by
  have hdsize : cfg.header ≤ d.size := h.fits d (by simp)
  have hout := hp.outside
  simp only [span_append, span_cons] at hout
  have hfree {a z : Nat} (he : .free a z ∈ rest) :
      (a, z) ∈ frees lo us ∨
        (a, z) ∈ frees (lo + span us + span ws) (d :: vs) := by
    have hmem := (h.free_mem a z he).1
    simp only [frees_append, mem_append] at hmem
    have := hrest a z he
    tauto
  have hnode {e : Entry} {f : Field} (he : e ∈ Entry.bin 0 :: rest) (hf : ¬ f.IsHeader) :
      cfg.get m' (e.addr cfg) f = cfg.get m (e.addr cfg) f := by
    have hend := f.end_le_freeNode cfg
    have hoff := f.header_le_offset cfg hf
    refine get_congr cfg fun x h1 h2 => hm x ?_
    cases e with
    | bin i =>
      have := freenode_bounds cfg (h.index_lt he)
      simp only [Entry.addr] at h1 h2
      omega
    | free a z =>
      have he' : .free a z ∈ rest := by simpa using he
      have hz := (h.free_mem a z he').2
      simp only [Entry.addr] at h1 h2
      obtain hmem | hmem := hfree he'
      · have := frees_bounds hmem
        omega
      · have := frees_bounds hmem
        omega
  refine ⟨?_, h.tagged.replace h.fits hspan hm hws hd, ?_, ?_, h.bin_lt, ?_, h.nodup⟩
  · intro c hc
    rw [mem_append, mem_append] at hc
    obtain hc | hc | hc := hc
    · exact h.fits c (by simp [hc])
    · exact hfits c hc
    · exact h.fits c (by simp at hc ⊢; tauto)
  · intro i hi
    have hbin := freenode_bounds cfg hi
    have := header_lt_freeNode cfg
    rw [← h.bins i hi]
    exact get_congr_header cfg trivial fun x h1 h2 => hm x (by omega)
  · refine h.linked.congr ?_ ?_
    · intro c hc
      obtain ⟨e, he, rfl⟩ : ∃ e ∈ Entry.bin 0 :: rest, e.addr cfg = c := mem_map.mp hc
      exact hnode he id
    · intro c hc
      obtain ⟨e, he, rfl⟩ := mem_map.mp hc
      exact hnode (mem_cons_of_mem _ he) id
  · intro a z he
    refine ⟨?_, (h.free_mem a z he).2⟩
    simp only [frees_append, mem_append, hspan]
    have := hfree he
    tauto

lemma splitTags (hp : Sited cfg lo (lo + span (us ++ ⟨z, false⟩ :: d :: vs)))
    (h : Rep cfg lo m (us ++ ⟨z, false⟩ :: d :: vs) rest)
    (hout : .free (lo + span us) z ∉ rest) (hn : cfg.header ≤ n) (hr : cfg.header ≤ r)
    (hz : n + r = z) :
    Rep cfg lo (Kernel.splitTags cfg m (lo + span us) n r z)
      (us ++ ⟨n, false⟩ :: ⟨r, false⟩ :: d :: vs) rest := by
  have htags := h.tagged
  simp only [tagged_append, Tagged] at htags
  obtain ⟨-, hnode, hd, -⟩ := htags
  have hle := hp.hi_le
  have := hp.lo_pos
  simp only [span_append, span_cons] at hle
  refine h.replace [⟨z, false⟩] [⟨n, false⟩, ⟨r, false⟩] hp ?_ ?_ ?_
    (splitTags_inside hz) ⟨?_, ?_, trivial⟩ ?_
  · simpa using hz
  · simp [hn, hr]
  · rintro a y he hmem
    simp only [frees, Bool.false_eq_true, if_false, mem_singleton] at hmem
    cases hmem
    exact hout he
  · have h' := (((hnode.set_apart (v := r) (b := lo + span us + n) (f := .size) trivial
      (by omega)).set_apart (v := n) (b := lo + span us + n) (f := .prevAdjSize) trivial
      (by omega)).set_apart (v := 0) (b := lo + span us + n) (f := .flag) trivial (by omega))
    exact (h'.set_size (v := n) (by omega)).set_apart trivial (by omega)
  · have h' : Header cfg _ (lo + span us + n) n ⟨r, false⟩ :=
      Header.of_sets (m := m) (c := ⟨r, false⟩) (by simp only; omega)
    exact (h'.set_apart (f := .size) trivial (by omega)).set_apart trivial (by omega)
  · simp only [span_cons, span_nil]
    have h' := (((hd.set_apart (v := r) (b := lo + span us + n) (f := .size) trivial
      (by omega)).set_apart (v := n) (b := lo + span us + n) (f := .prevAdjSize) trivial
      (by omega)).set_apart (v := 0) (b := lo + span us + n) (f := .flag) trivial (by omega))
    exact (h'.set_apart (v := n) (b := lo + span us) (f := .size) trivial
      (by omega)).set_prevAdjSize

lemma set_flag {u : Bool} (hp : Sited cfg lo (lo + span (us ++ ⟨z, u⟩ :: d :: vs)))
    (h : Rep cfg lo m (us ++ ⟨z, u⟩ :: d :: vs) rest)
    (hout : .free (lo + span us) z ∉ rest) (used : Bool) :
    Rep cfg lo (cfg.set m (lo + span us) .flag (flagOf used))
      (us ++ ⟨z, used⟩ :: d :: vs) rest := by
  have htags := h.tagged
  simp only [tagged_append, Tagged] at htags
  obtain ⟨-, hnode, hd, -⟩ := htags
  have hz : cfg.header ≤ z := h.fits ⟨z, u⟩ (by simp)
  have hrefl : Inside cfg lo us [⟨z, u⟩] m m := fun _ _ => rfl
  refine h.replace [⟨z, u⟩] [⟨z, used⟩] hp rfl ?_ ?_
    (hrefl.set trivial (Nat.le_refl _) (Nat.le_add_right _ _)) ⟨hnode.set_flag used, trivial⟩
    (hd.set_apart trivial ?_)
  · simpa using hz
  · intro a y he hmem
    cases u with
    | true => simp [frees] at hmem
    | false =>
      simp only [frees, Bool.false_eq_true, if_false, mem_singleton] at hmem
      cases hmem
      exact hout he
  · exact .inl (Nat.add_le_add_left hz _)

lemma absorbNode {y : Nat} {u w : Bool}
    (hp : Sited cfg lo (lo + span (us ++ ⟨z, u⟩ :: ⟨y, w⟩ :: d :: vs)))
    (h : Rep cfg lo m (us ++ ⟨z, u⟩ :: ⟨y, w⟩ :: d :: vs) rest)
    (hout : .free (lo + span us) z ∉ rest) (hout' : .free (lo + span us + z) y ∉ rest) :
    Rep cfg lo (absorbNode cfg m (lo + span us) (lo + span us + z)
        (lo + span us + z + y)) (us ++ ⟨z + y, u⟩ :: d :: vs) rest ∧
      Inside cfg lo us [⟨z, u⟩, ⟨y, w⟩] m (absorbNode cfg m (lo + span us)
        (lo + span us + z) (lo + span us + z + y)) := by
  have htags := h.tagged
  simp only [tagged_append, Tagged] at htags
  obtain ⟨-, hnode, hnext, hd, -⟩ := htags
  have hz : cfg.header ≤ z := h.fits ⟨z, u⟩ (by simp)
  have hy : cfg.header ≤ y := h.fits ⟨y, w⟩ (by simp)
  have hlim := hp.hi_le
  have := hp.lo_pos
  simp only [span_append, span_cons] at hlim
  have hlt : z + y < cfg.limit := by omega
  have hsize : cfg.get (cfg.set m (lo + span us) .size (z + y)) (lo + span us) .size =
      z + y := (get_set_self cfg).trans (mod_eq_of_lt hlt)
  have heq : Kernel.absorbNode cfg m (lo + span us) (lo + span us + z)
      (lo + span us + z + y) = cfg.set (cfg.set m (lo + span us) .size (z + y))
        (lo + span us + z + y) .prevAdjSize (z + y) := by
    simp only [Kernel.absorbNode, hnode.size, hnext.size, hsize]
  have hspan : span [⟨z, u⟩, ⟨y, w⟩] = z + y := by simp
  have hrefl : Inside cfg lo us [⟨z, u⟩, ⟨y, w⟩] m m := fun _ _ => rfl
  have hinside := (hrefl.set (b := lo + span us) (v := z + y) (f := .size) trivial
    (Nat.le_refl _) (Nat.le_add_right _ _)).set (b := lo + span us + z + y) (v := z + y)
    (f := .prevAdjSize) trivial (by omega) (by omega)
  rw [heq]
  refine ⟨h.replace [⟨z, u⟩, ⟨y, w⟩] [⟨z + y, u⟩] hp ?_ ?_ ?_ hinside
    ⟨(hnode.set_size hlt).set_apart trivial (by omega), trivial⟩ ?_, hinside⟩
  · simp
  · simp only [mem_singleton, forall_eq]
    omega
  · intro a x he hmem
    simp only [frees] at hmem
    have : (a, x) = (lo + span us, z) ∨ (a, x) = (lo + span us + z, y) := by
      revert hmem
      cases u <;> cases w <;> simp <;> tauto
    obtain heq | heq := this <;> cases heq
    · exact hout he
    · exact hout' he
  · rw [hspan]
    simp only [← Nat.add_assoc]
    exact (hd.set_apart (v := z + y) (b := lo + span us) (f := .size) trivial
      (by omega)).set_prevAdjSize

end Rep
end Xiuos.Kernel
