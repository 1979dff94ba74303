import Xiuos.Kernel.HeapShape

namespace Xiuos.Kernel
open Lib Cell Option HeapConfig
open List hiding span

section
variable (cfg : HeapConfig)

def heapBlocks (s : HeapState) : Option (List Nat) :=
  (follow (fun a => a + cfg.get s.mem a .size) s.mmDynamicEnd cfg.limit s.mmDynamicStart).map
    (· ++ [s.mmDynamicEnd])

def Joins (m : Mem) (node a : Nat) : Prop :=
  a = node ∨ cfg.get m a .flag &&& dynamicBlockMask = 0 ∧
    (a + cfg.get m a .size = node ∨ node + cfg.get m node .size = a)

def Confined (s : HeapState) (pointer : Nat) (s' : HeapState) : Prop :=
  ∃ blocks, heapBlocks cfg s = some blocks ∧
    (∀ a ∈ blocks, ¬ Joins cfg s.mem (pointer - cfg.header) a →
      cfg.get s'.mem a .size = cfg.get s.mem a .size ∧
      cfg.get s'.mem a .flag = cfg.get s.mem a .flag ∧
      (cfg.get s'.mem a .prevAdjSize = cfg.get s.mem a .prevAdjSize ∨
        ∃ b ∈ blocks, Joins cfg s.mem (pointer - cfg.header) b ∧ a = b + cfg.get s.mem b .size)) ∧
    ∀ x, s'.mem x ≠ s.mem x →
      (∃ b ∈ blocks, Joins cfg s.mem (pointer - cfg.header) b ∧ b ≤ x ∧
        x < b + cfg.get s.mem b .size) ∨
      (∃ b ∈ blocks, Joins cfg s.mem (pointer - cfg.header) b ∧
        b + cfg.get s.mem b .size + cfg.offset .prevAdjSize ≤ x ∧
        x < b + cfg.get s.mem b .size + cfg.offset .prevAdjSize + cfg.width .prevAdjSize) ∨
      BinByte cfg x ∨
      ∃ b ∈ blocks, cfg.get s.mem b .flag &&& dynamicBlockMask = 0 ∧ b + cfg.header ≤ x ∧
        x < b + cfg.get s.mem b .size

end

section
variable {cfg : HeapConfig} {m m' : Mem} {a p x y z : Nat} {u : Bool} {cs : List Cell} {f : Field}

section
variable (h : Tagged cfg m a p cs)
include h

lemma Tagged.header_at (hat : At u a cs x z) :
    cfg.get m x .size = z ∧ cfg.get m x .flag = flagOf u := by
  obtain ⟨us, vs, rfl, rfl⟩ := hat
  have hhead := (tagged_append.mp h).2.1
  exact ⟨hhead.size, hhead.flag⟩

lemma Tagged.get_eq (h' : Tagged cfg m' a p cs) (hat : At u a cs x z) (hf : f.IsHeader) :
    cfg.get m' x f = cfg.get m x f := by
  obtain ⟨us, vs, rfl, rfl⟩ := hat
  have hold := (tagged_append.mp h).2.1
  have hnew := (tagged_append.mp h').2.1
  cases f with
  | size => rw [hold.size, hnew.size]
  | prevAdjSize => rw [hold.prevAdjSize, hnew.prevAdjSize]
  | flag => rw [hold.flag, hnew.flag]
  | next => exact hf.elim
  | prev => exact hf.elim

lemma Tagged.get_eq_or {q : Nat} (h' : Tagged cfg m' a q cs) (hat : At u a cs x z) :
    cfg.get m' x .size = cfg.get m x .size ∧ cfg.get m' x .flag = cfg.get m x .flag ∧
      (cfg.get m' x .prevAdjSize = cfg.get m x .prevAdjSize ∨ x = a) := by
  obtain ⟨us, vs, rfl, rfl⟩ := hat
  have hold := (tagged_append.mp h).2.1
  have hnew := (tagged_append.mp h').2.1
  refine ⟨by rw [hold.size, hnew.size], by rw [hold.flag, hnew.flag], ?_⟩
  cases us with
  | nil => exact .inr rfl
  | cons c us => exact .inl (by rw [hold.prevAdjSize, hnew.prevAdjSize]; rfl)

lemma Tagged.leads (hpos : ∀ c ∈ cs, 0 < c.size) (ha : 0 < a) :
    Leads (fun b => b + cfg.get m b .size) (a + span cs) a (Cell.places a cs) := by
  induction cs generalizing a p with
  | nil => rfl
  | cons c cs ih =>
    have hc := hpos c mem_cons_self
    refine ⟨rfl, ?_, ha.ne', ?_⟩
    · rw [span_cons]
      omega
    · have htail := ih h.2 (fun d hd => hpos d (mem_cons_of_mem c hd)) (by omega)
      simp only [h.1.size]
      rwa [span_cons, ← Nat.add_assoc]

end

lemma byte_eq_of_get (h : cfg.get m' a f = cfg.get m a f) (h1 : a + cfg.offset f ≤ x)
    (h2 : x < a + cfg.offset f + cfg.width f) : m' x = m x := Mem.eq_of_load_eq h h1 h2

lemma exists_field (h1 : a ≤ x) (h2 : x < a + cfg.header) :
    ∃ f : Field, f.IsHeader ∧ a + cfg.offset f ≤ x ∧ x < a + cfg.offset f + cfg.width f := by
  rw [header] at h2
  by_cases hsize : x < a + cfg.ptr
  · exact ⟨.size, trivial, h1, hsize⟩
  by_cases htag : x < a + cfg.ptr + 4
  · exact ⟨.prevAdjSize, trivial, Nat.not_lt.mp hsize, htag⟩
  · exact ⟨.flag, trivial, by simp only [offset]; omega,
      by simp only [offset, width]; omega⟩

end

namespace HeapRep

variable {cfg : HeapConfig} {s s' : HeapState} {inner us us' fl fr vs vs' : List Cell}
  {rest rest' : List Entry} {a x y z : Nat} {u : Bool}

lemma heapBlocks_eq (h : HeapRep cfg s inner rest) :
    heapBlocks cfg s = some (Cell.places s.mmDynamicStart (guarded cfg inner)) := by
  have hfits : ∀ c ∈ guarded cfg inner, 0 < c.size := fun c hc => by
    have := h.rep.fits c hc
    have := header_lt_freeNode cfg
    omega
  have hcells : guarded cfg inner = (⟨cfg.header, true⟩ :: inner) ++ [⟨cfg.header, true⟩] := rfl
  have hspan := h.span_le
  have hlimit := cfg.le_limit
  have htagged := h.rep.tagged
  rw [hcells] at hfits hspan htagged ⊢
  have hpos : ∀ c ∈ (⟨cfg.header, true⟩ :: inner : List Cell), 0 < c.size := fun c hc =>
    hfits c (mem_append_left _ hc)
  have hstop : s.mmDynamicEnd = s.mmDynamicStart + span (⟨cfg.header, true⟩ :: inner) := by
    rw [h.stop, span_cons, Nat.add_assoc]
  have hleads := (tagged_append.mp htagged).1.leads hpos h.placed.lo_pos
  have hlength := Cell.length_places_le (a := s.mmDynamicStart) hpos
  rw [span_append] at hspan
  rw [← hstop] at hleads
  rw [heapBlocks, hleads.follow_eq (by omega), Cell.places_append, ← hstop]
  rfl

lemma guarded_release (cfg : HeapConfig) (us' fl fr vs' : List Cell) (z : Nat) (u : Bool) :
    guarded cfg (us' ++ fl ++ ⟨z, u⟩ :: (fr ++ vs')) =
      (⟨cfg.header, true⟩ :: us') ++ (fl ++ (⟨z, u⟩ :: (fr ++ (vs' ++ [⟨cfg.header, true⟩])))) := by
  simp [guarded]

lemma node_release (cfg : HeapConfig) (s : HeapState) (us' fl : List Cell) :
    s.mmDynamicStart + span (⟨cfg.header, true⟩ :: us') + span fl =
      node cfg s (us' ++ fl) := by simp only [node, span_append, span_cons, Nat.add_assoc]

section

variable (h : HeapRep cfg s (us' ++ fl ++ ⟨z, true⟩ :: (fr ++ vs')) rest)
  (hfl : ∀ c ∈ fl, c.used = false) (hfr : ∀ c ∈ fr, c.used = false)

include h

lemma get_node_size : cfg.get s.mem (node cfg s (us' ++ fl)) .size = z :=
  (h.rep.tagged.header_at (at_guarded ⟨us' ++ fl, fr ++ vs', rfl, rfl⟩)).1

include hfl in
lemma joins_front (hat : At u (s.mmDynamicStart + (cfg.header + span us')) fl a y) :
    Joins cfg s.mem (node cfg s (us' ++ fl)) a := by
  have hmerged := h.merged
  rw [guarded_release] at hmerged
  have hcell : At u s.mmDynamicStart
      (guarded cfg (us' ++ fl ++ ⟨z, true⟩ :: (fr ++ vs'))) a y := by
    rw [guarded_release, at_append, at_append]
    exact .inr (.inl hat)
  obtain rfl | ⟨w, rfl⟩ := hmerged.eq_nil_or_singleton hfl
  · exact absurd hat at_nil
  · obtain ⟨hc, rfl⟩ | hnil := at_cons.mp hat
    · cases hc
      obtain ⟨hsize, hflag⟩ := h.rep.tagged.header_at hcell
      refine .inr ⟨by rw [hflag]; decide, .inl ?_⟩
      simp only [hsize, node, span_append, span_cons, span_nil]
      omega
    · exact absurd hnil at_nil

include hfr in
lemma back_cases : fr = [] ∨ ∃ w, fr = [⟨w, false⟩] := by
  have hmerged : Merged ((⟨cfg.header, true⟩ :: us' ++ fl ++ [⟨z, true⟩]) ++
      (fr ++ (vs' ++ [⟨cfg.header, true⟩]))) := by simpa [guarded] using h.merged
  exact hmerged.eq_nil_or_singleton hfr

omit h in
lemma back_at {w : Nat} : At false s.mmDynamicStart
    (guarded cfg (us' ++ fl ++ ⟨z, true⟩ :: ([⟨w, false⟩] ++ vs')))
    (node cfg s (us' ++ fl) + z) w := by
  refine at_guarded ⟨us' ++ fl ++ [⟨z, true⟩], vs', by simp, ?_⟩
  simp only [node, span_append, span_cons, span_nil]
  omega

include hfr in
lemma joins_back (hat : At u (node cfg s (us' ++ fl) + z) fr a y) :
    Joins cfg s.mem (node cfg s (us' ++ fl)) a := by
  obtain rfl | ⟨w, rfl⟩ := h.back_cases hfr
  · exact absurd hat at_nil
  · obtain ⟨hc, rfl⟩ | hnil := at_cons.mp hat
    · cases hc
      have hflag := (h.rep.tagged.header_at back_at).2
      exact .inr ⟨by rw [hflag]; decide, .inr (by rw [h.get_node_size])⟩
    · exact absurd hnil at_nil

include hfr in
lemma exists_joined : ∃ b ∈ Cell.places s.mmDynamicStart
      (guarded cfg (us' ++ fl ++ ⟨z, true⟩ :: (fr ++ vs'))),
    Joins cfg s.mem (node cfg s (us' ++ fl)) b ∧
      node cfg s (us' ++ fl) + z + span fr = b + cfg.get s.mem b .size := by
  obtain rfl | ⟨w, rfl⟩ := h.back_cases hfr
  · refine ⟨node cfg s (us' ++ fl), mem_places.mpr ⟨true, z, at_guarded ?_⟩, .inl rfl, ?_⟩
    · exact ⟨us' ++ fl, [] ++ vs', rfl, rfl⟩
    · rw [h.get_node_size]
      rfl
  · have hat : At false (node cfg s (us' ++ fl) + z) [⟨w, false⟩]
        (node cfg s (us' ++ fl) + z) w := ⟨[], [], rfl, rfl⟩
    refine ⟨_, mem_places.mpr ⟨false, w, back_at⟩, h.joins_back hfr hat, ?_⟩
    simp only [(h.rep.tagged.header_at back_at).1, span_cons, span_nil, Nat.add_zero]

lemma release_cases (hfl : ∀ c ∈ fl, c.used = false) (hfr : ∀ c ∈ fr, c.used = false)
    (hat : At u s.mmDynamicStart
      (guarded cfg (us' ++ fl ++ ⟨z, true⟩ :: (fr ++ vs'))) a y) :
    At u s.mmDynamicStart (⟨cfg.header, true⟩ :: us') a y ∨
      Joins cfg s.mem (node cfg s (us' ++ fl)) a ∨
      At u (node cfg s (us' ++ fl) + z + span fr) (vs' ++ [⟨cfg.header, true⟩]) a y := by
  rw [guarded_release, at_append, at_append, node_release] at hat
  obtain hat | hat | hat := hat
  · exact .inl hat
  · exact .inr (.inl (h.joins_front hfl hat))
  · obtain ⟨-, rfl⟩ | hat := at_cons.mp hat
    · exact .inr (.inl (.inl rfl))
    · obtain hat | hat := at_append.mp hat
      · exact .inr (.inl (h.joins_back hfr hat))
      · exact .inr (.inr hat)

lemma tagged_back : ∃ p, Tagged cfg s.mem (node cfg s (us' ++ fl) + z + span fr) p
    (vs' ++ [⟨cfg.header, true⟩]) := by
  have htagged := h.rep.tagged
  rw [guarded_release, tagged_append, tagged_append] at htagged
  obtain ⟨-, -, -, hback⟩ := htagged
  rw [tagged_append, node_release] at hback
  exact ⟨_, hback.2⟩

lemma get_release (hfl : ∀ c ∈ fl, c.used = false) (hfr : ∀ c ∈ fr, c.used = false)
    (h' : HeapRep cfg s' (us' ++ ⟨span fl + (z + span fr), false⟩ :: vs') rest')
    (hstart : s'.mmDynamicStart = s.mmDynamicStart)
    (hat : At u s.mmDynamicStart
      (guarded cfg (us' ++ fl ++ ⟨z, true⟩ :: (fr ++ vs'))) a y)
    (hout : ¬ Joins cfg s.mem (node cfg s (us' ++ fl)) a) :
    cfg.get s'.mem a .size = cfg.get s.mem a .size ∧
      cfg.get s'.mem a .flag = cfg.get s.mem a .flag ∧
      (cfg.get s'.mem a .prevAdjSize = cfg.get s.mem a .prevAdjSize ∨
        a = node cfg s (us' ++ fl) + z + span fr) := by
  have hnew : guarded cfg (us' ++ ⟨span fl + (z + span fr), false⟩ :: vs') =
      (⟨cfg.header, true⟩ :: us') ++ ([⟨span fl + (z + span fr), false⟩] ++
        (vs' ++ [⟨cfg.header, true⟩])) := by simp [guarded]
  have htagged := h.rep.tagged
  have htagged' := h'.rep.tagged
  rw [hnew, hstart, tagged_append, tagged_append] at htagged'
  obtain hat | hjoins | hat := h.release_cases hfl hfr hat
  · rw [guarded_release, tagged_append] at htagged
    refine ⟨htagged.1.get_eq htagged'.1 hat trivial,
      htagged.1.get_eq htagged'.1 hat trivial, .inl ?_⟩
    exact htagged.1.get_eq htagged'.1 hat trivial
  · exact absurd hjoins hout
  · obtain ⟨p, hback⟩ := h.tagged_back
    have hback' := htagged'.2.2
    have hspan : span [⟨span fl + (z + span fr), false⟩] =
        span fl + (z + span fr) := Nat.add_zero _
    rw [hspan, ← Nat.add_assoc, ← Nat.add_assoc, node_release] at hback'
    exact hback.get_eq_or hback' hat

end

lemma mem_release (halike : Alike cfg (us' ++ fl ++ ⟨z, false⟩ :: (fr ++ vs')) s s')
    (hat : At true s.mmDynamicStart
      (guarded cfg (us' ++ fl ++ ⟨z, true⟩ :: (fr ++ vs'))) a y)
    (hout : ¬ Joins cfg s.mem (node cfg s (us' ++ fl)) a) (h1 : a + cfg.header ≤ x)
    (h2 : x < a + y) : s'.mem x = s.mem x := by
  refine halike.keeps x (.inl (payload_iff.mpr ⟨a, y, ?_, h1, h2⟩))
  rw [guarded_release, at_append, at_append, node_release] at hat ⊢
  refine hat.imp_right (Or.imp_right fun hat => ?_)
  obtain ⟨-, rfl⟩ | hat := at_cons.mp hat
  · exact (hout (.inl rfl)).elim
  · exact at_cons.mpr (.inr hat)

lemma confined (h : HeapRep cfg s (us ++ ⟨z, true⟩ :: vs) rest) (h' : HeapRep cfg s' inner rest')
    (hcoal : Coalesced us z vs inner) (halike : Alike cfg (us ++ ⟨z, false⟩ :: vs) s s') :
    Confined cfg s (node cfg s us + cfg.header) s' := by
  obtain ⟨us', fl, fr, vs', rfl, rfl, hfl, hfr, rfl⟩ := hcoal
  obtain ⟨b, hb, hjoins, hbehind⟩ := h.exists_joined hfr
  refine ⟨_, h.heapBlocks_eq, fun a ha hout => ?_, fun x hx => ?_⟩
  · rw [Nat.add_sub_cancel] at hout ⊢
    obtain ⟨u, y, hat⟩ := mem_places.mp ha
    obtain ⟨hsize, hflag, htag⟩ := h.get_release hfl hfr h' halike.start hat hout
    exact ⟨hsize, hflag, htag.imp_right fun hab => ⟨b, hb, hjoins, hab.trans hbehind⟩⟩
  · rw [Nat.add_sub_cancel]
    by_cases hbin : BinByte cfg x
    · exact .inr (.inr (.inl hbin))
    have hin : s.mmDynamicStart ≤ x ∧ x < s.mmDynamicStart + span
        (guarded cfg (us' ++ fl ++ ⟨z, true⟩ :: (fr ++ vs'))) := by
      by_contra hnot
      refine hx (halike.keeps x (.inr ⟨?_, hbin⟩))
      simp only [span_guarded, span_append, span_cons] at hnot ⊢
      omega
    obtain ⟨u, a, y, hat, h1, h2⟩ := Cell.exists_at hin.1 hin.2
    have ha := mem_places.mpr ⟨u, y, hat⟩
    obtain ⟨hsize, hflag⟩ := h.rep.tagged.header_at hat
    by_cases hout : Joins cfg s.mem (node cfg s (us' ++ fl)) a
    · exact .inl ⟨a, ha, hout, h1, by rwa [hsize]⟩
    by_cases hhead : x < a + cfg.header
    · -- only the tag of the block behind can differ
      obtain ⟨f, hf, h3, h4⟩ := exists_field h1 hhead
      obtain ⟨hsize', hflag', htag'⟩ := h.get_release hfl hfr h' halike.start hat hout
      cases f with
      | size => exact absurd (byte_eq_of_get hsize' h3 h4) hx
      | flag => exact absurd (byte_eq_of_get hflag' h3 h4) hx
      | prevAdjSize =>
        obtain htag' | rfl := htag'
        · exact absurd (byte_eq_of_get htag' h3 h4) hx
        · rw [hbehind] at h3 h4
          exact .inr (.inl ⟨b, hb, hjoins, h3, h4⟩)
      | next => exact hf.elim
      | prev => exact hf.elim
    · cases u with
      | true => exact absurd (mem_release halike hat hout (Nat.not_lt.mp hhead) h2) hx
      | false =>
        exact .inr (.inr (.inr ⟨a, ha, by rw [hflag]; decide, Nat.not_lt.mp hhead, by rwa [hsize]⟩))

end HeapRep

namespace HeapUser

def Plain : HeapCall → Prop
  | .malloc size => size ≠ 0
  | .free _ | .write .. => True
  | .calloc .. | .realloc .. => False

def FreeConfined (cfg : HeapConfig) (w : HeapUser) (i : HeapCall) (w' : HeapUser) : Prop :=
  ∀ pointer, i = .free pointer → pointer ≠ 0 → Confined cfg w.heap pointer w'.heap

variable {cfg : HeapConfig} {base : Fin 2 → Option Nat} {w w' : HeapUser} {inner : List Cell}
  {rest : List Entry} {fl : Fin 2 → List Nat} {i : HeapCall}

lemma Inv.freeConfined (h : Inv cfg base w inner rest fl)
    (hsmall : cfg.kernelSmallMemAlloc = false)
    (hstep : HeapUser.step cfg w i = some w') : FreeConfined cfg w i w' := by
  rintro p rfl hne
  rw [HeapUser.step] at hstep
  split at hstep
  · rename_i hlegal
    obtain ⟨heap, hfree, hw'⟩ := bind_eq_some_iff.mp hstep
    cases hw'
    obtain ⟨c, hc⟩ := (h.live_iff p).mp (hlegal.resolve_left hne)
    cases hc with
    | @cell y z hcell hbase =>
      rw [h.good.xFree_cell hcell hbase] at hfree
      obtain ⟨us, vs, rfl, rfl⟩ := hcell
      obtain ⟨s', inner', rest', hfree', hheap, hcoal, halike⟩ :=
        h.good.heap.bigMemFree (h.good.room ⟨z, true⟩ (by simp))
      obtain rfl : s' = heap := Option.some.inj (hfree'.symm.trans hfree)
      exact h.good.heap.confined hheap hcoal halike
    | @block i b x hbase hx hout =>
      rw [h.good.small i b hbase] at hsmall
      cases hsmall
  · cases hstep

def plainBoard (word : Word) {align : Nat} (halign : align = 4 ∨ align = 8) : HeapConfig where
  word := word
  memAlign := align
  mmPageSize := 64
  kernelSmallMemAlloc := false
  kernelDebug := false
  small32 := 1
  small64 := 1
  freenodeList := 2 ^ 20
  staticManager i := if i.val = 0 then 2 ^ 21 else 2 ^ 21 + 64
  align_eq := halign
  page_dvd := wideBoard.page_dvd
  small32_range := wideBoard.small32_range
  small64_range := wideBoard.small64_range

lemma plainBoard_region (word : Word) {align : Nat} (halign : align = 4 ∨ align = 8) :
    Region (plainBoard word halign) 64 1088 := by
  have hlimit := (plainBoard word halign).le_limit
  have hnode : (plainBoard word halign).freeNode ≤ 32 := by
    have hptr := (plainBoard word halign).ptr_eq
    rw [freeNode, header]
    omega
  have hlist : (plainBoard word halign).freenodeList = 2 ^ 20 := rfl
  have hpage : (plainBoard word halign).mmPageSize = 64 := rfl
  have hfirst : firstPage (plainBoard word halign) 64 = 64 := by
    have hlt : 64 + 64 - 1 < (plainBoard word halign).limit := by omega
    rw [firstPage, alignUp, hpage, Nat.mod_eq_of_lt hlt, Nat.mod_eq_of_lt (by omega)]
  have hend : endPage (plainBoard word halign) 1088 = 1088 := by rw [endPage, alignDown, hpage]
  have hmanager : (plainBoard word halign).staticManager 0 = 2 ^ 21 ∧
      (plainBoard word halign).staticManager 1 = 2 ^ 21 + 64 := ⟨rfl, rfl⟩
  refine ⟨by decide, by omega, by omega, by omega, by omega, ?_, .inl (by omega), fun i => ?_, ?_⟩
  · rw [memLinknrs]
    omega
  · obtain rfl | rfl : i = 0 ∨ i = 1 := by omega
    · omega
    · omega
  · omega

def overrun (cfg : HeapConfig) (first second : Nat) : Option (Nat × Nat) := do
  let boot ← initBoardMemory cfg (bootState fun _ => 0) 64 1088
  let w ← runs (step cfg) ⟨boot, []⟩ [.malloc 4, .malloc 4]
  let w' ← step cfg w (.free first)
  let blocks ← heapBlocks cfg w.heap
  if second ∈ blocks ∧ cfg.get w.heap.mem second .flag = dynamicBlockMask then
    some (cfg.get w.heap.mem second .size, cfg.get w'.heap.mem second .size)
  else none

lemma overrun_eq :
    overrun (plainBoard .w32 (.inl rfl)) 88 92 = some (16, 1048576) ∧
    overrun (plainBoard .w64 (.inl rfl)) 96 100 = some (20, 4503599627370496) ∧
    overrun (plainBoard .w64 (.inr rfl)) 96 104 = some (24, 1048576) := by decide +kernel

lemma not_confined_of_overrun {first second size size' : Nat}
    (h : overrun cfg first second = some (size, size')) (hne : size' ≠ size)
    (hother : second ≠ first - cfg.header) (hfirst : first ≠ 0) :
    ∃ boot, initBoardMemory cfg (bootState fun _ => 0) 64 1088 = some boot ∧
      ¬ Along (step cfg) (FreeConfined cfg) ⟨boot, []⟩ [.malloc 4, .malloc 4, .free first] := by
  obtain ⟨boot, hboot, h⟩ := bind_eq_some_iff.mp h
  obtain ⟨w, hrun, h⟩ := bind_eq_some_iff.mp h
  obtain ⟨w', hstep, h⟩ := bind_eq_some_iff.mp h
  obtain ⟨blocks, hblocks, h⟩ := bind_eq_some_iff.mp h
  obtain ⟨⟨hsecond, hflag⟩, h⟩ := ite_none_right_eq_some.mp h
  obtain ⟨rfl, rfl⟩ := Prod.mk.inj (Option.some.inj h)
  refine ⟨boot, hboot, fun halong => ?_⟩
  obtain ⟨w₁, h1, hrun⟩ := bind_eq_some_iff.mp hrun
  obtain ⟨w₂, h2, hrun⟩ := bind_eq_some_iff.mp hrun
  obtain rfl : w₂ = w := Option.some.inj hrun
  have hconfined := (((halong w₁ h1).2 w₂ h2).2 w' hstep).1 first rfl hfirst
  obtain ⟨blocks', hblocks', hheaders, -⟩ := hconfined
  obtain rfl : blocks = blocks' := Option.some.inj (hblocks.symm.trans hblocks')
  refine hne (hheaders second hsecond ?_).1
  rintro (heq | ⟨hfree, -⟩)
  · exact hother heq
  · rw [hflag] at hfree
    exact absurd hfree (by decide)

/-- Without pools, `x_free` is confined to its block and its neighbours exactly on 32-bit boards
with sizes that are multiples of eight, where all blocks have room for the two pointers of a free
one. -/
theorem freeConfined_iff (word : Word) {align : Nat} (halign : align = 4 ∨ align = 8) :
    (∀ cfg startPhyAddress endPhyAddress, cfg.word = word → cfg.memAlign = align →
      cfg.kernelSmallMemAlloc = false → Region cfg startPhyAddress endPhyAddress →
      ∀ mem boot calls,
        initBoardMemory cfg (bootState mem) startPhyAddress endPhyAddress = some boot →
        (∀ i ∈ calls, Plain i) → Along (step cfg) (FreeConfined cfg) ⟨boot, []⟩ calls) ↔
      word = .w32 ∧ align = 8 := by
  constructor
  · intro hall
    have hruns {first second size size' : Nat}
        (h : overrun (plainBoard word halign) first second = some (size, size'))
        (hne : size' ≠ size) (hother : second ≠ first - (plainBoard word halign).header)
        (hfirst : first ≠ 0) : False := by
      obtain ⟨boot, hboot, hnot⟩ := not_confined_of_overrun h hne hother hfirst
      refine hnot (hall _ 64 1088 rfl rfl rfl (plainBoard_region word halign) _ boot _ hboot ?_)
      simp [Plain]
    obtain ⟨h1, h2, h3⟩ := overrun_eq
    obtain rfl | rfl := halign
    · cases word with
      | w32 => exact (hruns h1 (by decide) (by decide) (by decide)).elim
      | w64 => exact (hruns h2 (by decide) (by decide) (by decide)).elim
    · cases word with
      | w32 => exact ⟨rfl, rfl⟩
      | w64 => exact (hruns h3 (by decide) (by decide) (by decide)).elim
  · rintro ⟨rfl, rfl⟩ cfg startPhyAddress endPhyAddress hword hmem hsmall hregion mem boot calls
      hboot -
    have hlt := hregion.size_lt_of_w32 hword
    obtain ⟨boot', inner, rest, hboot', hfresh, -⟩ := hregion.boot hlt mem
    obtain rfl : boot' = boot := Option.some.inj (hboot'.symm.trans hboot)
    have hroomy : Good.Roomy cfg := by
      simp [Good.Roomy, ptr, hword, hmem]
    refine along_of_step (I := fun w => ∃ inner rest fl, Inv cfg (poolBase boot') w inner rest fl)
      ?_ ⟨inner, rest, _, start hfresh⟩ calls
    rintro w i w' ⟨inner, rest, fl, hI⟩ hstep
    obtain ⟨inner', rest', fl', hI', -⟩ := hI.step hroomy hstep
    exact ⟨⟨inner', rest', fl', hI'⟩, hI.freeConfined hsmall hstep⟩

theorem freeConfined_iff_narrow : ∃ boot,
    initBoardMemory (plainBoard .w32 (.inr rfl)) (bootState fun _ => 0) 64 1088 = some boot ∧
    Along (step (plainBoard .w32 (.inr rfl))) (FreeConfined (plainBoard .w32 (.inr rfl))) ⟨boot, []⟩
      [.malloc 4, .malloc 4, .free 88] := by
  have hregion := plainBoard_region .w32 (.inr rfl)
  obtain ⟨boot, -, -, hboot, -⟩ := hregion.boot (hregion.size_lt_of_w32 rfl) fun _ => 0
  refine ⟨boot, hboot, (freeConfined_iff .w32 (.inr rfl)).mpr ⟨rfl, rfl⟩ _ 64 1088 rfl rfl rfl
    hregion _ boot _ hboot ?_⟩
  simp [Plain]

theorem free_overruns :
    overrun (plainBoard .w32 (.inl rfl)) 88 92 = some (16, 1048576) ∧
    (∃ boot, initBoardMemory (plainBoard .w32 (.inl rfl)) (bootState fun _ => 0) 64 1088 =
        some boot ∧
      ¬ Along (step (plainBoard .w32 (.inl rfl))) (FreeConfined (plainBoard .w32 (.inl rfl)))
        ⟨boot, []⟩ [.malloc 4, .malloc 4, .free 88]) ∧
    overrun (plainBoard .w64 (.inl rfl)) 96 100 = some (20, 4503599627370496) ∧
    overrun (plainBoard .w64 (.inr rfl)) 96 104 = some (24, 1048576) :=
  ⟨overrun_eq.1, not_confined_of_overrun overrun_eq.1 (by decide) (by decide) (by decide),
    overrun_eq.2⟩

end HeapUser
end Xiuos.Kernel
