import Xiuos.Kernel.HeapMalloc

namespace Xiuos.Kernel
open Lib Cell
open List hiding span
variable {rest : List Entry} {cfg : HeapConfig} {m : Mem}

lemma flagOf_and (used : Bool) : flagOf used &&& dynamicBlockMask = 0 ↔ used = false := by
  cases used <;> decide

namespace Rep
variable {lo y z : Nat} {c d : Cell} {us vs : List Cell}

lemma unlink (hp : Sited cfg lo (lo + span (us ++ ⟨y, false⟩ :: vs)))
    (h : Rep cfg lo m (us ++ ⟨y, false⟩ :: vs) rest) (ho : Ordered rest)
    (hfull : Full lo (us ++ ⟨y, false⟩ :: vs) rest) :
    ∃ rest', Rep cfg lo (Kernel.unlinkNode cfg m (lo + span us))
      (us ++ ⟨y, false⟩ :: vs) rest' ∧
      Ordered rest' ∧ Full lo (us ++ ⟨y, true⟩ :: vs) rest' ∧
      .free (lo + span us) y ∉ rest' ∧ (∀ e ∈ rest', e ∈ rest) ∧
      Keeps cfg lo (us ++ ⟨y, false⟩ :: vs) m (Kernel.unlinkNode cfg m (lo + span us)) := by
  obtain ⟨xs, ys, rfl⟩ := append_of_mem (hfull _ _ (mem_frees.mpr ⟨us, vs, rfl, rfl⟩))
  refine ⟨xs ++ ys, h.unlinkNode hp, ho.remove, ?_, ?_, ?_, (h.unlinkNode_linksOnly hp).keeps hp⟩
  · refine hfull.replace [⟨y, false⟩] [⟨y, true⟩]
      (h.pos_around [⟨y, false⟩]) rfl ?_ ?_
    · intro b x hb hws
      rw [mem_append, mem_cons] at hb
      obtain hb | heq | hb := hb
      · exact mem_append_left _ hb
      · cases heq
        exact absurd (by simp [frees]) hws
      · exact mem_append_right _ hb
    · intro b x hb
      simp [frees] at hb
  · exact fun hmem => (nodup_cons.mp (nodup_middle.mp h.nodup)).1 hmem
  · intro e he
    simp only [mem_append, mem_cons] at he ⊢
    tauto

lemma full_join {u w : Bool} (h : Rep cfg lo m (us ++ ⟨z, u⟩ :: ⟨y, w⟩ :: vs) rest)
    {rest' : List Entry} (hfull : Full lo (us ++ ⟨z, true⟩ :: ⟨y, true⟩ :: vs) rest') :
    Full lo (us ++ ⟨z + y, true⟩ :: vs) rest' := by
  refine hfull.replace [⟨z, true⟩, ⟨y, true⟩] [⟨z + y, true⟩]
    (h.pos_around [⟨z, u⟩, ⟨y, w⟩]) (by simp) (fun _ _ hb _ => hb) fun b x hb => ?_
  simp [frees] at hb

lemma used_not_mem {x : Nat} (h : Rep cfg lo m (us ++ ⟨z, true⟩ :: vs) rest) :
    .free (lo + span us) x ∉ rest := by
  intro hmem
  obtain ⟨us', vs', heq, hspan⟩ := mem_frees.mp (h.free_mem _ _ hmem).1
  have hz := h.pos ⟨z, true⟩ (by simp)
  have hx := h.pos ⟨x, false⟩ (by rw [heq]; simp)
  obtain ⟨-, hc, -⟩ | hle | hle := apart heq
  · cases hc
  · simp only at hle hz
    omega
  · simp only at hle hx
    omega

lemma mergeNext {g : Cell} (hp : Sited cfg lo (lo + span (us ++ ⟨z, true⟩ :: (vs ++ [g]))))
    (h : Rep cfg lo m (us ++ ⟨z, true⟩ :: (vs ++ [g])) rest) (ho : Ordered rest)
    (hfull : Full lo (us ++ ⟨z, true⟩ :: (vs ++ [g])) rest)
    (hmerged : Merged (us ++ ⟨z, true⟩ :: (vs ++ [g]))) (hg : g.used) :
    ∃ fr d ts m' rest', vs ++ [g] = fr ++ d :: ts ∧ (∀ c ∈ fr, c.used = false) ∧ d.used ∧
      mergeNext cfg m (lo + span us) = (m', lo + span us + (z + span fr)) ∧
      Rep cfg lo m' (us ++ ⟨z + span fr, true⟩ :: d :: ts) rest' ∧ Ordered rest' ∧
      Full lo (us ++ ⟨z + span fr, true⟩ :: d :: ts) rest' ∧
      Keeps cfg lo (us ++ ⟨z, false⟩ :: (vs ++ [g])) m m' := by
  obtain ⟨d, ts, heq⟩ : ∃ d ts, vs ++ [g] = d :: ts := by
    cases vs with
    | nil => exact ⟨g, [], rfl⟩
    | cons d vs => exact ⟨d, vs ++ [g], rfl⟩
  rw [heq] at hp h hfull hmerged ⊢
  have htags := (tagged_append.mp h.tagged).2
  have hnext : lo + span us + cfg.get m (lo + span us) .size = lo + span us + z := by
    rw [htags.1.size]
  have hflag : cfg.get m (lo + span us + z) .flag = flagOf d.used := htags.2.1.flag
  rw [Kernel.mergeNext, hnext]
  simp only [hflag, flagOf_and]
  cases hused : d.used with
  | true =>
    refine ⟨[], d, ts, m, rest, rfl, by simp, hused, ?_, h, ho, hfull, fun _ _ => rfl⟩
    simp
  | false =>
    obtain ⟨y, used⟩ := d
    cases hused
    -- the last cell is in use, so there is one behind the free one
    obtain ⟨d, ts, rfl⟩ : ∃ d ts', ts = d :: ts' := by
      cases ts with
      | nil =>
        cases vs with
        | nil =>
          cases heq
          cases hg
        | cons v vs => simp at heq
      | cons d ts => exact ⟨d, ts, rfl⟩
    have hassoc {u w : Bool} {x : Nat} : us ++ ⟨z, u⟩ :: ⟨x, w⟩ :: d :: ts =
        (us ++ [⟨z, u⟩]) ++ ⟨x, w⟩ :: d :: ts := by simp
    have hspan : lo + span us + z = lo + span (us ++ [⟨z, true⟩]) := by
      simp [Nat.add_assoc]
    have hd : d.used := by
      rw [hassoc] at hmerged
      exact hmerged.next_used
    have hsize : cfg.get m (lo + span us + z) .size = y := htags.2.1.size
    obtain ⟨rest', hrep, ho', hfull', hout, -, hkeeps⟩ :=
      Rep.unlink (hassoc ▸ hp) (hassoc ▸ h) ho (hassoc ▸ hfull)
    rw [← hassoc] at hrep hfull' hkeeps
    rw [← hspan] at hrep hout hkeeps
    obtain ⟨hjoin, hinside⟩ := hrep.absorbNode hp hrep.used_not_mem hout
    rw [if_pos rfl, hsize]
    refine ⟨[⟨y, false⟩], d, ts, _, rest', rfl, by simp, hd,
      Prod.ext rfl (by simp [Nat.add_assoc]), ?_, ho', ?_, ?_⟩
    · simpa using hjoin
    · simpa using h.full_join hfull'
    · have hsame : Keeps cfg lo (us ++ ⟨z, false⟩ :: ⟨y, false⟩ :: d :: ts) m _ :=
        Keeps.replace [⟨z, false⟩] [⟨z, true⟩] rfl (by simp) hkeeps
      refine hsame.trans ?_
      exact Inside.keeps [⟨z, false⟩, ⟨y, false⟩] (h.fits d (by simp)) (by simp) hinside

lemma mergePrev (hp : Sited cfg lo (lo + span (us ++ c :: ⟨z, true⟩ :: d :: vs)))
    (h : Rep cfg lo m (us ++ c :: ⟨z, true⟩ :: d :: vs) rest) (ho : Ordered rest)
    (hfull : Full lo (us ++ c :: ⟨z, true⟩ :: d :: vs) rest)
    (hmerged : Merged (us ++ [c])) (hc : c.size < 2 ^ 32) :
    ∃ us' fl m' rest', us ++ [c] = us' ++ fl ∧ (∀ c ∈ fl, c.used = false) ∧
      mergePrev cfg m (lo + span us + c.size) (lo + span us + c.size + z) =
        (m', lo + span us') ∧
      Rep cfg lo (cfg.set m' (lo + span us') .flag 0)
        (us' ++ ⟨span fl + z, false⟩ :: d :: vs) rest' ∧ Ordered rest' ∧
      Full lo (us' ++ ⟨span fl + z, true⟩ :: d :: vs) rest' ∧
      .free (lo + span us') (span fl + z) ∉ rest' ∧
      Merged (us' ++ [⟨span fl + z, false⟩]) ∧
      Keeps cfg lo (us ++ c :: ⟨z, false⟩ :: d :: vs) m
        (cfg.set m' (lo + span us') .flag 0) := by
  have htags := (tagged_append.mp h.tagged).2
  have hprev : lo + span us + c.size -
      cfg.get m (lo + span us + c.size) .prevAdjSize = lo + span us := by
    rw [htags.2.1.prevAdjSize, Nat.mod_eq_of_lt hc]
    omega
  have hflag : cfg.get m (lo + span us) .flag = flagOf c.used := htags.1.flag
  have hassoc {u : Bool} : us ++ c :: ⟨z, u⟩ :: d :: vs =
    (us ++ [c]) ++ ⟨z, u⟩ :: d :: vs := by simp
  have hspan : lo + span us + c.size = lo + span (us ++ [c]) := by simp [Nat.add_assoc]
  have hd := h.fits d (by simp)
  rw [Kernel.mergePrev, hprev]
  simp only [hflag, flagOf_and]
  cases hused : c.used with
  | true =>
    rw [if_neg (by decide), hspan]
    have hout := Rep.used_not_mem (x := z) (hassoc ▸ h)
    refine ⟨us ++ [c], [], m, rest, by simp, by simp, rfl, ?_, ho, ?_, ?_, ?_, ?_⟩
    · simpa [flagOf] using Rep.set_flag (hassoc ▸ hp) (hassoc ▸ h) hout false
    · simpa using hfull
    · simpa using hout
    · rw [append_assoc]
      exact merged_middle.mpr ⟨hmerged, isChain_cons_cons.mpr
        ⟨.inl hused, isChain_singleton _⟩⟩
    · have hrefl : Inside cfg lo (us ++ [c]) [⟨z, false⟩] m m := fun _ _ => rfl
      rw [hassoc]
      exact (hrefl.set (f := .flag) trivial (Nat.le_refl _) (Nat.le_add_right _ _)).keeps
        [⟨z, false⟩] hd (by simp)
  | false =>
    obtain ⟨y, used⟩ := c
    cases hused
    rw [if_pos rfl]
    obtain ⟨rest', hrep, ho', hfull', hout, -, hkeeps⟩ := h.unlink hp ho hfull
    have hnode : .free (lo + span us + y) z ∉ rest' := by
      have hassoc' : us ++ ⟨y, false⟩ :: ⟨z, true⟩ :: d :: vs =
        (us ++ [⟨y, false⟩]) ++ ⟨z, true⟩ :: d :: vs := by simp
      have := Rep.used_not_mem (x := z) (hassoc' ▸ hrep)
      simpa [Nat.add_assoc] using this
    obtain ⟨hjoin, hinside⟩ := hrep.absorbNode hp hout hnode
    have hspan' : span (us ++ ⟨y + z, false⟩ :: d :: vs) =
        span (us ++ ⟨y, false⟩ :: ⟨z, true⟩ :: d :: vs) := by
      simp only [span_append, span_cons]
      omega
    -- the joined cell is longer than the one that was in the chain
    have hout' : .free (lo + span us) (y + z) ∉ rest' := by
      intro hmem
      have hlong := hrep.free_eq hmem
      have := h.pos ⟨z, true⟩ (by simp)
      simp only at this
      omega
    refine ⟨us, [⟨y, false⟩], _, rest', by simp, by simp, rfl, ?_, ho', ?_, ?_, ?_, ?_⟩
    · simpa [flagOf] using hjoin.set_flag (hspan' ▸ hp) hout' false
    · simpa using h.full_join hfull'
    · simpa using hout'
    · exact hmerged.resize
    · have hinside' : Inside cfg lo us [⟨y, false⟩, ⟨z, false⟩] _ _ :=
        hinside.set (b := lo + span us) (v := 0) (f := .flag) trivial (Nat.le_refl _)
          (Nat.le_add_right _ _)
      have hsame : Keeps cfg lo ((us ++ [⟨y, false⟩]) ++ ([⟨z, false⟩] ++ d :: vs)) m _ :=
        Keeps.replace [⟨z, false⟩] [⟨z, true⟩] rfl (by simp) (by simpa using hkeeps)
      have hmark : Keeps cfg lo (us ++ ([⟨y, false⟩, ⟨z, false⟩] ++ d :: vs)) _ _ :=
        hinside'.keeps [⟨y, false⟩, ⟨z, false⟩] hd (by simp)
      exact (by simpa using hsame : Keeps cfg lo (us ++ ⟨y, false⟩ :: ⟨z, false⟩ :: d :: vs) m
        _).trans hmark

end Rep

def releaseNode (cfg : HeapConfig) (m : Mem) (node : Nat) : Option Mem :=
  let (m, next) := mergeNext cfg m node
  let (m, node) := mergePrev cfg m node next
  addNewNodeIntoBuddy cfg (cfg.set m node .flag 0) node

lemma bigMemFree_eq (cfg : HeapConfig) (s : HeapState) (pointer : Nat) :
    bigMemFree cfg s pointer = (releaseNode cfg s.mem (pointer - cfg.header)).map fun mem =>
      { s with
        mem
        activeMemory := cfg.sub s.activeMemory (cfg.get s.mem (pointer - cfg.header) .size) } := by
  rw [Option.map_eq_bind]
  rfl

namespace Rep
variable {lo z : Nat} {g g' : Cell} {us vs : List Cell}

lemma releaseNode
    (hp : Sited cfg lo (lo + span ((g :: us) ++ ⟨z, true⟩ :: (vs ++ [g']))))
    (h : Rep cfg lo m ((g :: us) ++ ⟨z, true⟩ :: (vs ++ [g'])) rest) (ho : Ordered rest)
    (hfull : Full lo ((g :: us) ++ ⟨z, true⟩ :: (vs ++ [g'])) rest)
    (hmerged : Merged ((g :: us) ++ ⟨z, true⟩ :: (vs ++ [g']))) (hg : g'.used)
    (hsize : ∀ c ∈ g :: us, c.size < 2 ^ 32) (hz : cfg.freeNode ≤ z) :
    ∃ us' fl fr d ts m' rest', g :: us = us' ++ fl ∧ vs ++ [g'] = fr ++ d :: ts ∧
      (∀ c ∈ fl, c.used = false) ∧ (∀ c ∈ fr, c.used = false) ∧
      releaseNode cfg m (lo + span (g :: us)) = some m' ∧
      Rep cfg lo m' (us' ++ ⟨span fl + (z + span fr), false⟩ :: d :: ts) rest' ∧
      Ordered rest' ∧
      Full lo (us' ++ ⟨span fl + (z + span fr), false⟩ :: d :: ts) rest' ∧
      Merged (us' ++ ⟨span fl + (z + span fr), false⟩ :: d :: ts) ∧
      Keeps cfg lo ((g :: us) ++ ⟨z, false⟩ :: (vs ++ [g'])) m m' := by
  obtain ⟨fr, d, ts, m₁, rest₁, hvs, hfr, hd, hnext, hrep₁, ho₁, hfull₁, hkeeps₁⟩ :=
    h.mergeNext hp ho hfull hmerged hg
  obtain ⟨us₀, c, hus⟩ : ∃ us₀ c, g :: us = us₀ ++ [c] :=
    ⟨_, _, (dropLast_append_getLast (cons_ne_nil _ _)).symm⟩
  obtain ⟨hleft, hright⟩ := merged_middle.mp hmerged
  have htail : Merged (d :: ts) := by
    rw [hvs] at hright
    have happend : List.IsChain _ ((⟨z, true⟩ :: fr) ++ d :: ts) := hright
    exact happend.right_of_append
  have hspan₁ {u : Bool} : span ((g :: us) ++ ⟨z + span fr, u⟩ :: d :: ts) =
      span ((g :: us) ++ ⟨z, true⟩ :: (vs ++ [g'])) := by
    rw [hvs]
    simp only [span_append, span_cons]
    omega
  have hp₁ := hp
  rw [← hspan₁ (u := true)] at hp₁
  have hassoc {y : Nat} {u : Bool} :
      (us₀ ++ [c]) ++ ⟨y, u⟩ :: d :: ts = us₀ ++ c :: ⟨y, u⟩ :: d :: ts := by simp
  have hnode : lo + span (g :: us) = lo + span us₀ + c.size := by
    rw [hus]
    simp [Nat.add_assoc]
  have hleft' : Merged (us₀ ++ [c]) := hus ▸ List.IsChain.left_of_append hleft
  obtain ⟨us', fl, m₂, rest₂, heq, hfl, hprev, hrep₂, ho₂, hfull₂, hout₂, hmerged₂, hkeeps₂⟩ :=
    Rep.mergePrev (hassoc ▸ hus ▸ hp₁) (hassoc ▸ hus ▸ hrep₁) ho₁ (hassoc ▸ hus ▸ hfull₁) hleft'
      (hsize c (by simp [hus]))
  rw [← hassoc, ← hus] at hkeeps₂
  have hspan₂ : span (us' ++ ⟨span fl + (z + span fr), false⟩ :: d :: ts) =
      span ((g :: us) ++ ⟨z, true⟩ :: (vs ++ [g'])) := by
    rw [← hspan₁ (u := true), hus, heq]
    simp only [span_append, span_cons]
    omega
  have hp₂ := hp
  rw [← hspan₂] at hp₂
  have hsize₂ := (tagged_append.mp hrep₂.tagged).2.1.size
  have hmem : (lo + span us', span fl + (z + span fr)) ∈
      frees lo (us' ++ ⟨span fl + (z + span fr), false⟩ :: d :: ts) :=
    mem_frees.mpr ⟨us', _, rfl, rfl⟩
  obtain ⟨m', xs, ys, hadd, rfl, hrep, ho', hlinks⟩ :=
    hrep₂.addNewNodeIntoBuddy hp₂ ho₂ hmem (by omega) hout₂ hsize₂
  refine ⟨us', fl, fr, d, ts, m', _, hus.trans heq, hvs, hfl, hfr, ?_, hrep, ho', ?_,
    hmerged₂.between htail hd, ?_⟩
  · rw [Kernel.releaseNode, hnext]
    simp only [hnode, hprev]
    exact hadd
  · refine hfull₂.replace [⟨span fl + (z + span fr), true⟩]
      [⟨span fl + (z + span fr), false⟩]
      (hrep₂.pos_around [⟨span fl + (z + span fr), false⟩]) rfl ?_ ?_
    · intro b x hb _
      simp only [mem_append, mem_cons] at hb ⊢
      tauto
    · intro b x hb
      simp only [frees, Bool.false_eq_true, if_false, mem_singleton] at hb
      cases hb
      simp
  · have hall : (g :: us) ++ ⟨z, false⟩ :: (vs ++ [g']) =
        us' ++ ((fl ++ ⟨z, false⟩ :: fr) ++ d :: ts) := by
      rw [hus, heq, hvs]
      simp
    have hjoined : Keeps cfg lo ((g :: us) ++ ⟨z, false⟩ :: (vs ++ [g'])) m₁
        (cfg.set m₂ (lo + span us') .flag 0) := by
      rw [hvs]
      exact Keeps.replace (⟨z, false⟩ :: fr) [⟨z + span fr, false⟩] (by simp)
        (by simpa using hfr) hkeeps₂
    have hlinked : Keeps cfg lo (us' ++ ((fl ++ ⟨z, false⟩ :: fr) ++ d :: ts)) _ m' :=
      Keeps.replace _ [⟨span fl + (z + span fr), false⟩] (by simp)
        (by simpa [or_imp, forall_and] using ⟨hfl, hfr⟩) (hlinks.keeps hp₂)
    rw [← hall] at hlinked
    exact (hkeeps₁.trans hjoined).trans hlinked

end Rep

namespace HeapRep
variable {s : HeapState} {inner us vs : List Cell} {z : Nat}

lemma split_front {g : Cell} {us us' fl : List Cell} (hg : g.used)
    (hfl : ∀ c ∈ fl, c.used = false) (h : g :: us = us' ++ fl) :
    ∃ us'', us' = g :: us'' ∧ us = us'' ++ fl := by
  cases us' with
  | nil =>
    cases fl with
    | nil => cases h
    | cons c fl =>
      cases h
      rw [hfl g mem_cons_self] at hg
      cases hg
  | cons u us' =>
    cases h
    exact ⟨us', rfl, rfl⟩

lemma split_back {g d : Cell} {vs fr ts : List Cell} (h : vs ++ [g] = fr ++ d :: ts) :
    ∃ vs', vs = fr ++ vs' ∧ vs' ++ [g] = d :: ts := by
  obtain ⟨as, rfl, htail⟩ | ⟨bs, rfl, htail⟩ := append_eq_append_iff.mp h
  · cases as with
    | nil => exact ⟨[], by simp, htail⟩
    | cons a as => simp at htail
  · exact ⟨bs, rfl, htail.symm⟩

lemma bigMemFree (h : HeapRep cfg s (us ++ ⟨z, true⟩ :: vs) rest) (hz : cfg.freeNode ≤ z) :
    ∃ s' inner' rest', bigMemFree cfg s (node cfg s us + cfg.header) = some s' ∧
      HeapRep cfg s' inner' rest' ∧ Coalesced us z vs inner' ∧
      Alike cfg (us ++ ⟨z, false⟩ :: vs) s s' := by
  have hcells {u : Bool} : guarded cfg (us ++ ⟨z, u⟩ :: vs) =
      (⟨cfg.header, true⟩ :: us) ++ ⟨z, u⟩ :: (vs ++ [⟨cfg.header, true⟩]) := by simp [guarded]
  have hspan := h.span_le
  have hp := h.placed
  have hrep := h.rep
  have hfull := h.full
  have hmerged := h.merged
  rw [hcells] at hspan hp hrep hfull hmerged
  have hnode : node cfg s us = s.mmDynamicStart + span (⟨cfg.header, true⟩ :: us) :=
    Nat.add_assoc _ _ _
  have hsize : cfg.get s.mem (node cfg s us) .size = z := by
    rw [hnode]
    exact (tagged_append.mp hrep.tagged).2.1.size
  have hsmall : ∀ c ∈ ⟨cfg.header, true⟩ :: us, c.size < 2 ^ 32 := by
    intro c hc
    obtain ⟨ps, qs, heq⟩ := append_of_mem hc
    simp only [heq, span_append, span_cons] at hspan
    omega
  obtain ⟨us', fl, fr, d, ts, m', rest', hus, hvs, hfl, hfr, hrelease, hrep', ho', hfull', hmerged',
    hkeeps⟩ := hrep.releaseNode hp h.ordered hfull hmerged rfl hsmall hz
  obtain ⟨us', rfl, rfl⟩ := split_front rfl hfl hus
  obtain ⟨vs', rfl, htail⟩ := split_back hvs
  have hcells' : guarded cfg (us' ++ ⟨span fl + (z + span fr), false⟩ :: vs') =
      ⟨cfg.header, true⟩ :: us' ++ ⟨span fl + (z + span fr), false⟩ :: d :: ts := by
    rw [← htail]
    simp [guarded]
  have hinner : span (us' ++ ⟨span fl + (z + span fr), false⟩ :: vs') =
      span (us' ++ fl ++ ⟨z, true⟩ :: (fr ++ vs')) := by
    simp only [span_append, span_cons]
    omega
  have hspan' : span (guarded cfg (us' ++ ⟨span fl + (z + span fr), false⟩ :: vs')) =
      span (guarded cfg (us' ++ fl ++ ⟨z, true⟩ :: (fr ++ vs'))) := by
    rw [span_guarded, span_guarded, hinner]
  rw [bigMemFree_eq, Nat.add_sub_cancel, hsize]
  rw [← hnode] at hrelease
  rw [hrelease]
  refine ⟨_, us' ++ ⟨span fl + (z + span fr), false⟩ :: vs', rest', rfl, ?_,
    ⟨us', fl, fr, vs', rfl, rfl, hfl, hfr, rfl⟩, ⟨hcells ▸ hkeeps, rfl, rfl, rfl⟩⟩
  exact {
    placed := hspan' ▸ h.placed
    rep := hcells' ▸ hrep'
    ordered := ho'
    full := hcells' ▸ hfull'
    merged := hcells' ▸ hmerged'
    span_le := hspan' ▸ h.span_le
    active := by
      have hle := active_le_span (us' ++ fl ++ ⟨z, true⟩ :: (fr ++ vs'))
      have hlt := h.span_le
      have hlimit := cfg.le_limit
      rw [span_guarded] at hlt
      have hold := h.active
      simp only [active_append, Cell.active, active_eq_zero hfl,
        active_eq_zero hfr, if_true, Bool.false_eq_true, if_false] at hold hle ⊢
      rw [hold, cfg.sub_eq (by omega) (by omega)]
      omega
    stop := by rw [hinner, h.stop]
    start_eq := h.start_eq
    end_eq := by rw [hspan', h.end_eq] }

end HeapRep
end Xiuos.Kernel
