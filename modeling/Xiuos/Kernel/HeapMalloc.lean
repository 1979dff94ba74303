import Xiuos.Kernel.HeapBlock

namespace Xiuos.Kernel
open Lib Cell
open List hiding span
variable {cfg : HeapConfig} {rest : List Entry}

def Full (lo : Nat) (cs : List Cell) (rest : List Entry) : Prop :=
  ∀ a z, (a, z) ∈ frees lo cs → .free a z ∈ rest

lemma Full.replace {lo : Nat} {us vs : List Cell} (ws ws' : List Cell) {rest rest' : List Entry}
    (h : Full lo (us ++ (ws ++ vs)) rest) (hpos : ∀ c ∈ us ++ vs, 0 < c.size)
    (hspan : span ws' = span ws)
    (hkeep : ∀ a z, .free a z ∈ rest → (a, z) ∉ frees (lo + span us) ws →
      .free a z ∈ rest')
    (hnew : ∀ a z, (a, z) ∈ frees (lo + span us) ws' → .free a z ∈ rest') :
    Full lo (us ++ (ws' ++ vs)) rest' := by
  intro a z hmem
  simp only [Full, frees_append, mem_append, hspan] at h hmem
  obtain hmem | hmem | hmem := hmem
  · refine hkeep a z (h a z (.inl hmem)) fun hws => ?_
    obtain ⟨us', vs', rfl, -⟩ := mem_frees.mp hmem
    have := hpos ⟨z, false⟩ (by simp)
    have := frees_bounds hmem
    have := frees_bounds hws
    simp only at *
    omega
  · exact hnew a z hmem
  · refine hkeep a z (h a z (.inr (.inr hmem))) fun hws => ?_
    obtain ⟨us', vs', rfl, -⟩ := mem_frees.mp hmem
    have := hpos ⟨z, false⟩ (by simp)
    have := frees_bounds hmem
    have := frees_bounds hws
    simp only at *
    omega

lemma header_le_memLowRange (cfg : HeapConfig) :
    cfg.header ≤ memLowRange ∧ cfg.freeNode ≤ memLowRange := by
  obtain h | h := cfg.ptr_eq <;> simp [HeapConfig.freeNode, HeapConfig.header, h, memLowRange]

namespace Rep
variable {lo n z : Nat} {m : Mem} {d : Cell} {cs us vs : List Cell}

lemma pos (h : Rep cfg lo m cs rest) : ∀ c ∈ cs, 0 < c.size := fun c hc =>
  lt_of_lt_of_le (header_lt_freeNode cfg).1 (h.fits c hc)

lemma pos_around (ws : List Cell) (h : Rep cfg lo m (us ++ (ws ++ vs)) rest) :
    ∀ c ∈ us ++ vs, 0 < c.size := fun c hc =>
  h.pos c (by simp only [mem_append] at hc ⊢; tauto)

lemma free_eq (h : Rep cfg lo m (us ++ ⟨z, false⟩ :: vs) rest)
    (hn : .free (lo + span us) n ∈ rest) : n = z :=
  frees_unique h.fits (h.free_mem _ _ hn).1 (mem_frees.mpr ⟨us, vs, rfl, rfl⟩)

lemma free_inside {y r : Nat} (h : Rep cfg lo m (us ++ ⟨z, false⟩ :: vs) rest) (hy : 0 < y)
    (hz : y < z) : .free (lo + span us + y) r ∉ rest := by
  intro hmem
  obtain ⟨us', vs', heq, hspan⟩ := mem_frees.mp (h.free_mem _ _ hmem).1
  have hr := h.fits ⟨r, false⟩ (by rw [heq]; simp)
  have := header_lt_freeNode cfg
  obtain ⟨rfl, -, -⟩ | hle | hle := apart heq
  · omega
  · simp only at hle
    omega
  · simp only at hle hr
    omega

lemma takeNode (hp : Sited cfg lo (lo + span (us ++ ⟨z, false⟩ :: d :: vs)))
    (h : Rep cfg lo m (us ++ ⟨z, false⟩ :: d :: vs) rest) (ho : Ordered rest)
    (hfull : Full lo (us ++ ⟨z, false⟩ :: d :: vs) rest) (hn : cfg.header ≤ n) (hnz : n < z)
    (hz : z < 2 ^ 32) :
    ∃ m' rest', takeNode cfg m (lo + span us) n = some m' ∧
      Rep cfg lo (cfg.set m' (lo + span us) .flag dynamicBlockMask)
        (us ++ (carve memLowRange n z ++ d :: vs)) rest' ∧ Ordered rest' ∧
      Full lo (us ++ (carve memLowRange n z ++ d :: vs)) rest' ∧
      Keeps cfg lo (us ++ ⟨z, false⟩ :: d :: vs) m
        (cfg.set m' (lo + span us) .flag dynamicBlockMask) := by
  have hd := h.fits d (by simp)
  have hpos := h.pos_around [⟨z, false⟩]
  obtain ⟨xs, ys, rfl⟩ := append_of_mem
    (hfull _ _ (mem_frees.mpr ⟨us, d :: vs, rfl, rfl⟩))
  have hrep : Rep cfg lo (Kernel.unlinkNode cfg m (lo + span us)) _ _ := h.unlinkNode hp
  have hkeeps : Keeps cfg lo _ m (Kernel.unlinkNode cfg m (lo + span us)) :=
    (h.unlinkNode_linksOnly hp).keeps hp
  have hout : .free (lo + span us) z ∉ xs ++ ys := fun hmem =>
    (nodup_cons.mp (nodup_middle.mp h.nodup)).1 hmem
  have hmem {e : Entry} : e ∈ xs ++ .free (lo + span us) z :: ys ↔
      e = .free (lo + span us) z ∨ e ∈ xs ++ ys := by
    simp only [mem_append, mem_cons]
    tauto
  rw [Kernel.takeNode]
  generalize Kernel.unlinkNode cfg m (lo + span us) = m₁ at hrep hkeeps
  have hsize : cfg.get m₁ (lo + span us) .size = z := (tagged_append.mp hrep.tagged).2.1.size
  have hmod : (z - n) % 2 ^ 32 = z - n := Nat.mod_eq_of_lt (by omega)
  have hmark {m' : Mem} : Keeps cfg lo (us ++ ⟨z, false⟩ :: d :: vs) m'
      (cfg.set m' (lo + span us) .flag dynamicBlockMask) := by
    have hrefl : Inside cfg lo us [⟨z, false⟩] m' m' := fun _ _ => rfl
    exact (hrefl.set (f := .flag) trivial (Nat.le_refl _) (Nat.le_add_right _ _)).keeps
      [⟨z, false⟩] hd
      (by simp)
  simp only [hsize, hmod]
  by_cases hrem : memLowRange ≤ z - n
  · -- the rest is a free cell of its own
    have hhead := header_le_memLowRange cfg
    have hsum : n + (z - n) = z := by omega
    have hsplit := hrep.splitTags hp hout hn (by omega) hsum
    have hspan : span (us ++ ⟨n, false⟩ :: ⟨z - n, false⟩ :: d :: vs) =
        span (us ++ ⟨z, false⟩ :: d :: vs) := by
      simp only [span_append, span_cons]
      omega
    have hp' := hp
    rw [← hspan] at hp'
    have hfree : (lo + span us + n, z - n) ∈
        frees lo (us ++ ⟨n, false⟩ :: ⟨z - n, false⟩ :: d :: vs) :=
      mem_frees.mpr ⟨us ++ [⟨n, false⟩], d :: vs, by simp, by simp; omega⟩
    have hnew : .free (lo + span us + n) (z - n) ∉ xs ++ ys :=
      hrep.free_inside (lt_of_lt_of_le (header_lt_freeNode cfg).1 hn) hnz
    have hsize' : cfg.get (Kernel.splitTags cfg m₁ (lo + span us) n (z - n) z)
        (lo + span us + n) .size = z - n := (tagged_append.mp hsplit.tagged).2.2.1.size
    obtain ⟨m', xs', ys', hadd, hsplit', hrep', ho', hlinks⟩ :=
      hsplit.addNewNodeIntoBuddy hp' ho.remove hfree (by omega) hnew hsize'
    have hmem' {e : Entry} : e ∈ xs' ++ .free (lo + span us + n) (z - n) :: ys' ↔
        e = .free (lo + span us + n) (z - n) ∨ e ∈ xs ++ ys := by
      rw [hsplit']
      simp only [mem_append, mem_cons]
      tauto
    have hcarve : carve memLowRange n z = [⟨n, true⟩, ⟨z - n, false⟩] := if_pos hrem
    refine ⟨m', _, ?_, ?_, ho', ?_, ?_⟩
    · rw [if_pos hrem, Kernel.splitNode, hsize]
      exact hadd
    · rw [hcarve]
      refine hrep'.set_flag hp' (fun he => ?_) true
      obtain heq | he := hmem'.mp he
      · simp only [Entry.free.injEq] at heq
        omega
      · have := hrep.free_eq he
        omega
    · refine hfull.replace [⟨z, false⟩] _ hpos (by simp [span_carve memLowRange hnz.le]) ?_ ?_
      · intro b y he hws
        obtain heq | he := hmem.mp he
        · cases heq
          exact absurd (by simp [frees]) hws
        · exact hmem'.mpr (.inr he)
      · intro b y hb
        rw [hcarve] at hb
        simp only [frees, if_true, Bool.false_eq_true, if_false, mem_singleton] at hb
        cases hb
        exact hmem'.mpr (.inl rfl)
    · have hsplitKeeps : Keeps cfg lo (us ++ ⟨z, false⟩ :: d :: vs) m₁ _ :=
        (splitTags_inside hsum).keeps [⟨z, false⟩] hd (by simp)
      have hlinkKeeps : Keeps cfg lo (us ++ ⟨z, false⟩ :: d :: vs) _ m' :=
        Keeps.replace [⟨z, false⟩] [⟨n, false⟩, ⟨z - n, false⟩]
          (by simpa using hsum) (by simp) (hlinks.keeps hp')
      exact ((hkeeps.trans hsplitKeeps).trans hlinkKeeps).trans hmark
  · have hcarve : carve memLowRange n z = [⟨z, true⟩] := if_neg hrem
    refine ⟨m₁, xs ++ ys, by rw [if_neg hrem], ?_, ho.remove, ?_, hkeeps.trans hmark⟩
    · rw [hcarve]
      exact hrep.set_flag hp hout true
    · refine hfull.replace [⟨z, false⟩] _ hpos (by simp [span_carve memLowRange hnz.le]) ?_ ?_
      · intro b y he hws
        obtain heq | he := hmem.mp he
        · cases heq
          exact absurd (by simp [frees]) hws
        · exact he
      · intro b y hb
        rw [hcarve] at hb
        simp [frees] at hb

end Rep

def guarded (cfg : HeapConfig) (inner : List Cell) : List Cell :=
  ⟨cfg.header, true⟩ :: (inner ++ [⟨cfg.header, true⟩])

section
variable {lo : Nat} {inner us vs : List Cell}

@[simp] lemma span_guarded :
    span (guarded cfg inner) = cfg.header + (span inner + cfg.header) := by simp [guarded]

@[simp] lemma frees_guarded :
    frees lo (guarded cfg inner) = frees (lo + cfg.header) inner := by
  simp [guarded, frees, frees_append]

lemma guarded_append (cfg : HeapConfig) (us vs : List Cell) :
    ∃ d ts, ∀ ws, guarded cfg (us ++ (ws ++ vs)) =
      (⟨cfg.header, true⟩ :: us) ++ (ws ++ d :: ts) := by
  cases vs with
  | nil => exact ⟨⟨cfg.header, true⟩, [], fun ws => by simp [guarded]⟩
  | cons d vs => exact ⟨d, vs ++ [⟨cfg.header, true⟩], fun ws => by simp [guarded]⟩

end

structure HeapRep (cfg : HeapConfig) (s : HeapState) (inner : List Cell) (rest : List Entry) :
    Prop where
  placed : Sited cfg s.mmDynamicStart (s.mmDynamicStart + span (guarded cfg inner))
  rep : Rep cfg s.mmDynamicStart s.mem (guarded cfg inner) rest
  ordered : Ordered rest
  full : Full s.mmDynamicStart (guarded cfg inner) rest
  merged : Merged (guarded cfg inner)
  span_le : span (guarded cfg inner) + 64 ≤ 2 ^ 32
  active : s.activeMemory = Cell.active inner
  stop : s.mmDynamicEnd = s.mmDynamicStart + cfg.header + span inner
  start_eq : s.dynamicBuddyStart = s.mmDynamicStart
  end_eq : s.dynamicBuddyEnd = s.mmDynamicStart + span (guarded cfg inner)

namespace HeapRep
variable {s s' : HeapState} {inner us vs : List Cell} {n z size : Nat}

def node (cfg : HeapConfig) (s : HeapState) (us : List Cell) : Nat :=
  s.mmDynamicStart + cfg.header + span us

structure Alike (cfg : HeapConfig) (inner : List Cell) (s s' : HeapState) : Prop where
  keeps : Keeps cfg s.mmDynamicStart (guarded cfg inner) s.mem s'.mem
  start : s'.mmDynamicStart = s.mmDynamicStart
  stop : s'.mmDynamicEnd = s.mmDynamicEnd
  staticManager : s'.staticManager = s.staticManager

lemma mem_inner (h : HeapRep cfg s inner rest) {a : Nat} (hmem : .free a z ∈ rest) :
    ⟨z, false⟩ ∈ inner ∧ ∃ us vs, inner = us ++ ⟨z, false⟩ :: vs ∧ a = node cfg s us := by
  have hfree := (h.rep.free_mem a z hmem).1
  rw [frees_guarded] at hfree
  obtain ⟨us, vs, rfl, rfl⟩ := mem_frees.mp hfree
  exact ⟨by simp, us, vs, rfl, rfl⟩

lemma exists_free (h : HeapRep cfg s inner rest) (hmem : ⟨z, false⟩ ∈ inner) :
    ∃ a, .free a z ∈ rest := by
  obtain ⟨us, vs, rfl⟩ := append_of_mem hmem
  refine ⟨node cfg s us, h.full _ _ ?_⟩
  rw [frees_guarded]
  exact mem_frees.mpr ⟨us, vs, rfl, rfl⟩

lemma caculateBuddyIndex_eq (n : Nat) :
    (if n ≥ memHighRange then memLinknrs - 1 else caculateBuddyIndex n) = caculateBuddyIndex n := by
  split
  case isTrue h => rw [caculateBuddyIndex, if_neg (Nat.not_lt.mpr h)]
  case isFalse => rfl

lemma take (h : HeapRep cfg s (us ++ ⟨z, false⟩ :: vs) rest) (hle : cfg.header ≤ n)
    (hnz : n < z) :
    ∃ m rest', takeNode cfg s.mem (node cfg s us) n = some m ∧
      let m := cfg.set m (node cfg s us) .flag dynamicBlockMask
      let active := (s.activeMemory + cfg.get m (node cfg s us) .size) % cfg.limit
      ∀ ever, HeapRep cfg { s with mem := m, activeMemory := active, maxEverUsedmem := ever }
        (us ++ (carve memLowRange n z ++ vs)) rest' ∧
      Keeps cfg s.mmDynamicStart (guarded cfg (us ++ ⟨z, false⟩ :: vs)) s.mem m := by
  obtain ⟨d, ts, hguard⟩ := guarded_append cfg us vs
  have hold := hguard [⟨z, false⟩]
  have hnew := hguard (carve memLowRange n z)
  rw [singleton_append] at hold
  have hspan := h.span_le
  have hcarve : span (carve memLowRange n z) = z := span_carve memLowRange hnz.le
  have hspan' : span (guarded cfg (us ++ (carve memLowRange n z ++ vs))) =
      span (guarded cfg (us ++ ⟨z, false⟩ :: vs)) := by
    simp only [span_guarded, span_append, span_cons, hcarve]
  have hnode : node cfg s us = s.mmDynamicStart + span (⟨cfg.header, true⟩ :: us) :=
    Nat.add_assoc _ _ _
  obtain ⟨m, rest', htake, hrep, ho, hfull, hkeeps⟩ := Rep.takeNode (hold ▸ h.placed)
    (hold ▸ h.rep) h.ordered (hold ▸ h.full) hle hnz (by
      simp only [span_guarded, span_append, span_cons] at hspan
      omega)
  rw [← hnode] at htake hrep hkeeps
  refine ⟨m, rest', htake, fun ever => ⟨?_, hold ▸ hkeeps⟩⟩
  have hactive := active_le_span (us ++ (carve memLowRange n z ++ vs))
  obtain ⟨cs, heq, hcs⟩ := carve_eq memLowRange n z
  have hsize : cfg.get (cfg.set m (node cfg s us) .flag dynamicBlockMask) (node cfg s us) .size =
      taken memLowRange n z := by
    have htags := (tagged_append.mp hrep.tagged).2
    rw [heq, ← hnode] at htags
    exact htags.1.size
  have hsum : s.activeMemory + taken memLowRange n z =
      Cell.active (us ++ (carve memLowRange n z ++ vs)) := by
    simp only [h.active, heq, active_append, Cell.active, cons_append,
      active_eq_zero hcs, if_true, Bool.false_eq_true, if_false]
    omega
  have hlimit := cfg.le_limit
  exact {
    placed := by
      rw [hspan']
      exact h.placed
    rep := hnew ▸ hrep
    ordered := ho
    full := hnew ▸ hfull
    merged := by
      have hmerged := h.merged
      rw [hold] at hmerged
      rw [hnew]
      exact hmerged.carve
    span_le := hspan' ▸ hspan
    active := by
      simp only [hsize, hsum]
      rw [span_guarded] at hspan'
      exact Nat.mod_eq_of_lt (by omega)
    stop := by
      rw [h.stop]
      simp only [span_append, span_cons, hcarve]
    start_eq := h.start_eq
    end_eq := by rw [hspan', h.end_eq] }

lemma bigMemMalloc (h : HeapRep cfg s inner rest) (hn : (size + cfg.header) % 2 ^ 32 = n)
    (hle : cfg.header ≤ n) :
    (bigMemMalloc cfg s size dynamicBlockMask = some (s, 0) ∧
      ((∀ y, ⟨y, false⟩ ∈ inner → y < n) ∨ ⟨n, false⟩ ∈ inner)) ∨
    ∃ us z vs s' rest', inner = us ++ ⟨z, false⟩ :: vs ∧ n < z ∧
      (∀ y, ⟨y, false⟩ ∈ inner → n ≤ y → z ≤ y) ∧
      Kernel.bigMemMalloc cfg s size dynamicBlockMask =
        some (s', node cfg s us + cfg.header) ∧
      HeapRep cfg s' (us ++ (carve memLowRange n z ++ vs)) rest' ∧ Alike cfg inner s s' := by
  have hpos := header_lt_freeNode cfg
  obtain ⟨xs, ys, rfl, hfit, hcase⟩ := h.rep.bestFit_smallest h.placed h.ordered
    (show 0 < n by omega)
  rw [Kernel.bigMemMalloc]
  simp only [hn, caculateBuddyIndex_eq, hfit, Option.bind_eq_bind, Option.bind_some]
  obtain ⟨rfl, hsmall⟩ | ⟨a, z, ys, rfl, hnz, hbest⟩ := hcase
  · refine .inl ⟨if_neg fun hc => hc.1 rfl, .inl fun y hy => ?_⟩
    obtain ⟨b, hb⟩ := h.exists_free hy
    exact hsmall b y hb
  · have ha : .free a z ∈ xs ++ .free a z :: ys := by simp
    have hsize : cfg.get s.mem a .size = z := h.rep.get_size (e := .free a z) (by simp)
    have hne : a ≠ 0 := ((h.rep.isNode (e := .free a z) (by simp)).pos h.placed).1.ne'
    obtain ⟨hmem, us, vs, rfl, rfl⟩ := h.mem_inner ha
    obtain rfl | hlt := Nat.eq_or_lt_of_le hnz
    · refine .inl ⟨if_neg fun hc => ?_, .inr hmem⟩
      exact absurd hc.2 (by simp only [Rep.behind, map_cons, Links.entry, Entry.addr, hsize]; omega)
    · obtain ⟨m, rest', htake, hrep⟩ := h.take hle hlt
      have hbehind : Rep.behind cfg (.free (node cfg s us) z :: ys) = node cfg s us := rfl
      rw [hbehind, if_pos ⟨hne, by omega⟩, htake]
      refine .inr ⟨us, z, vs, _, rest', rfl, hlt, ?_, rfl, (hrep _).1, ⟨(hrep 0).2, rfl, rfl, rfl⟩⟩
      intro y hy hny
      obtain ⟨b, hb⟩ := h.exists_free hy
      exact hbest b y hb hny

end HeapRep
end Xiuos.Kernel
