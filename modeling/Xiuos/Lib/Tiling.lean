import Mathlib.Data.List.Chain
import Mathlib.Algebra.BigOperators.Group.List.Basic
import Mathlib.Tactic.Linarith

/-! A stretch of memory cut into cells, one behind the other, of which some are in use. -/

namespace Xiuos.Lib
open List

structure Cell where
  size : Nat
  used : Bool
  deriving DecidableEq

namespace Cell

def span : List Cell → Nat
  | [] => 0
  | c :: cs => c.size + span cs

def active : List Cell → Nat
  | [] => 0
  | c :: cs => (if c.used then c.size else 0) + active cs

def last (p : Nat) : List Cell → Nat
  | [] => p
  | c :: cs => last c.size cs

def frees : Nat → List Cell → List (Nat × Nat)
  | _, [] => []
  | a, c :: cs =>
    if c.used then frees (a + c.size) cs else (a, c.size) :: frees (a + c.size) cs

def places : Nat → List Cell → List Nat
  | _, [] => []
  | a, c :: cs => a :: places (a + c.size) cs

def Merged (cs : List Cell) : Prop := cs.IsChain fun c d => c.used ∨ d.used

variable {a b p q x y z : Nat} {c d : Cell} {cs us vs us' vs' : List Cell}

@[simp] lemma span_nil : span [] = 0 := rfl

@[simp] lemma span_cons : span (c :: cs) = c.size + span cs := rfl

@[simp] lemma span_append : span (us ++ vs) = span us + span vs := by
  induction us with
  | nil => simp
  | cons c us ih =>
    rw [cons_append, span_cons, span_cons, ih]
    omega

@[simp] lemma active_append : active (us ++ vs) = active us + active vs := by
  induction us with
  | nil => simp [active]
  | cons c us ih =>
    rw [cons_append, active, active, ih]
    omega

lemma active_le_span (cs : List Cell) : active cs ≤ span cs := by
  induction cs with
  | nil => exact Nat.le_refl 0
  | cons c cs ih =>
    rw [active, span]
    split <;> omega

lemma active_eq_zero (h : ∀ c ∈ cs, c.used = false) : active cs = 0 := by
  induction cs with
  | nil => rfl
  | cons c cs ih =>
    rw [active, h c mem_cons_self, ih fun d hd => h d (mem_cons_of_mem _ hd)]
    rfl

lemma frees_append : frees a (us ++ vs) = frees a us ++ frees (a + span us) vs := by
  induction us generalizing a with
  | nil => simp [frees]
  | cons c us ih =>
    rw [cons_append, frees, frees, ih, span_cons, Nat.add_assoc]
    split <;> simp

lemma mem_frees : (x, z) ∈ frees a cs ↔
    ∃ us vs, cs = us ++ ⟨z, false⟩ :: vs ∧ x = a + span us := by
  induction cs generalizing a with
  | nil => simp [frees]
  | cons c cs ih =>
    obtain ⟨y, used⟩ := c
    constructor
    · intro h
      cases used with
      | true =>
        obtain ⟨us, vs, rfl, rfl⟩ := ih.mp h
        exact ⟨⟨y, true⟩ :: us, vs, rfl, by simp; omega⟩
      | false =>
        obtain h | h := mem_cons.mp h
        · cases h
          exact ⟨[], cs, rfl, rfl⟩
        · obtain ⟨us, vs, rfl, rfl⟩ := ih.mp h
          exact ⟨⟨y, false⟩ :: us, vs, rfl, by simp; omega⟩
    · rintro ⟨us, vs, h, rfl⟩
      cases us with
      | nil =>
        cases h
        exact mem_cons_self
      | cons u us =>
        obtain ⟨rfl, htail⟩ := List.cons.inj h
        have hmem := ih.mpr ⟨us, vs, htail, (Nat.add_assoc a y (span us)).symm⟩
        cases used with
        | true => exact hmem
        | false => exact mem_cons_of_mem _ hmem

lemma nodup_frees (h : ∀ c ∈ cs, 0 < c.size) : (frees a cs).Nodup := by
  induction cs generalizing a with
  | nil => exact nodup_nil
  | cons c cs ih =>
    have hc := h c mem_cons_self
    have hrest := ih (a := a + c.size) fun d hd => h d (mem_cons_of_mem _ hd)
    rw [frees]
    split
    · exact hrest
    · refine nodup_cons.mpr ⟨fun hmem => ?_, hrest⟩
      obtain ⟨us, vs, -, heq⟩ := mem_frees.mp hmem
      omega

lemma apart (h : us ++ c :: vs = us' ++ d :: vs') :
    (us = us' ∧ c = d ∧ vs = vs') ∨ span us + c.size ≤ span us' ∨ span us' + d.size ≤ span us := by
  induction us generalizing us' with
  | nil =>
    cases us' with
    | nil =>
      obtain ⟨rfl, rfl⟩ := List.cons.inj h
      exact .inl ⟨rfl, rfl, rfl⟩
    | cons u us' =>
      obtain ⟨rfl, -⟩ := List.cons.inj h
      exact .inr (.inl (by simp))
  | cons u us ih =>
    cases us' with
    | nil =>
      obtain ⟨rfl, -⟩ := List.cons.inj h
      exact .inr (.inr (by simp))
    | cons u' us' =>
      obtain ⟨rfl, htail⟩ := List.cons.inj h
      obtain ⟨rfl, rfl, rfl⟩ | h | h := ih htail
      · exact .inl ⟨rfl, rfl, rfl⟩
      · exact .inr (.inl (by simp only [span_cons]; omega))
      · exact .inr (.inr (by simp only [span_cons]; omega))

def At (u : Bool) (a : Nat) (cs : List Cell) (x z : Nat) : Prop :=
  ∃ us vs, cs = us ++ ⟨z, u⟩ :: vs ∧ x = a + span us

lemma mem_frees_iff : (x, z) ∈ frees a cs ↔ At false a cs x z := mem_frees

variable {u : Bool}

lemma at_nil : ¬ At u a [] x z := by
  rintro ⟨us, vs, h, -⟩
  simp at h

lemma at_cons : At u a (c :: cs) x z ↔ (c = ⟨z, u⟩ ∧ x = a) ∨ At u (a + c.size) cs x z := by
  constructor
  · rintro ⟨us, vs, h, rfl⟩
    cases us with
    | nil =>
      obtain ⟨rfl, rfl⟩ := List.cons.inj h
      exact .inl ⟨rfl, rfl⟩
    | cons d us =>
      obtain ⟨rfl, rfl⟩ := List.cons.inj h
      exact .inr ⟨us, vs, rfl, (Nat.add_assoc _ _ _).symm⟩
  · rintro (⟨rfl, rfl⟩ | ⟨us, vs, rfl, rfl⟩)
    · exact ⟨[], cs, rfl, rfl⟩
    · exact ⟨c :: us, vs, rfl, Nat.add_assoc _ _ _⟩

lemma at_append : At u a (us ++ vs) x z ↔ At u a us x z ∨ At u (a + span us) vs x z := by
  induction us generalizing a with
  | nil => simp [at_nil]
  | cons c us ih => simp only [cons_append, at_cons, ih, span_cons, Nat.add_assoc, or_assoc]

lemma At.bounds (h : At u a cs x z) : a ≤ x ∧ x + z ≤ a + span cs := by
  obtain ⟨us, vs, rfl, rfl⟩ := h
  simp only [span_append, span_cons]
  omega

lemma At.apart {u w : Bool} (h : At u a cs x z) (h' : At w a cs y b) :
    (x = y ∧ z = b ∧ u = w) ∨ x + z ≤ y ∨ y + b ≤ x := by
  obtain ⟨us, vs, rfl, rfl⟩ := h
  obtain ⟨us', vs', heq, rfl⟩ := h'
  obtain ⟨rfl, hc, -⟩ | h | h := Cell.apart heq
  · cases hc
    exact .inl ⟨rfl, rfl, rfl⟩
  · exact .inr (.inl (by simp only at h; omega))
  · exact .inr (.inr (by simp only at h; omega))

/-- A cell from which `n` is taken, when a rest below `least` is not worth a cell. -/
def carve (least n z : Nat) : List Cell :=
  if least ≤ z - n then [⟨n, true⟩, ⟨z - n, false⟩] else [⟨z, true⟩]

lemma span_carve (least : Nat) {n z : Nat} (h : n ≤ z) : span (carve least n z) = z := by
  rw [carve]
  split <;> simp only [span_cons, span_nil] <;> omega

def taken (least n z : Nat) : Nat := if least ≤ z - n then n else z

lemma carve_eq (least n z : Nat) :
    ∃ ts, carve least n z = ⟨taken least n z, true⟩ :: ts ∧ ∀ c ∈ ts, c.used = false := by
  rw [carve, taken]
  split
  · exact ⟨[⟨z - n, false⟩], rfl, by simp⟩
  · exact ⟨[], rfl, by simp⟩

lemma le_taken (least : Nat) {n z : Nat} (h : n ≤ z) :
    n ≤ taken least n z ∧ taken least n z ≤ z := by
  rw [taken]
  split <;> omega

lemma merged_middle : Merged (us ++ c :: vs) ↔ Merged (us ++ [c]) ∧ Merged (c :: vs) :=
  isChain_split

lemma Merged.use {n : Nat} (h : Merged (us ++ [c])) : Merged (us ++ [⟨n, true⟩]) := by
  rw [Merged, isChain_append] at h ⊢
  exact ⟨h.1, isChain_singleton _, by simp⟩

lemma Merged.next_used (h : Merged (us ++ ⟨z, false⟩ :: d :: vs)) : d.used := by
  have hcd := (isChain_cons_cons.mp (merged_middle.mp h).2).1
  simpa using hcd

lemma Merged.resize {n : Nat} (h : Merged (us ++ [⟨z, u⟩])) : Merged (us ++ [⟨n, u⟩]) := by
  rw [Merged, isChain_append] at h ⊢
  exact ⟨h.1, isChain_singleton _, by simpa using h.2.2⟩

lemma Merged.between (hus : Merged (us ++ [⟨z, false⟩])) (hvs : Merged (d :: vs))
    (hd : d.used) : Merged (us ++ ⟨z, false⟩ :: d :: vs) :=
  merged_middle.mpr ⟨hus, isChain_cons_cons.mpr ⟨.inr hd, hvs⟩⟩

variable {least n : Nat}

lemma Merged.carve (h : Merged (us ++ ⟨z, false⟩ :: vs)) :
    Merged (us ++ (carve least n z ++ vs)) := by
  obtain ⟨hus, hvs⟩ := merged_middle.mp h
  have hused {y : Nat} : Merged (⟨y, true⟩ :: vs) := by
    cases vs with
    | nil => exact isChain_singleton _
    | cons d vs => exact isChain_cons_cons.mpr ⟨.inl rfl, (isChain_cons_cons.mp hvs).2⟩
  rw [Cell.carve]
  split
  · refine merged_middle.mpr ⟨hus.use, isChain_cons_cons.mpr ⟨.inl rfl, ?_⟩⟩
    cases vs with
    | nil => exact isChain_singleton _
    | cons d vs =>
      obtain ⟨hd, hvs⟩ := isChain_cons_cons.mp hvs
      exact isChain_cons_cons.mpr ⟨hd, hvs⟩
  · exact merged_middle.mpr ⟨hus.use, hused⟩

lemma at_true_of_free (h : ∀ c ∈ cs, c.used = false) : ¬ At true a cs x z := by
  rintro ⟨us, vs, rfl, -⟩
  exact absurd (h ⟨z, true⟩ (by simp)) (by simp)

lemma at_carve (hn : n ≤ z) :
    At true a (us ++ (carve least n z ++ vs)) x y ↔
      At true a (us ++ ⟨z, false⟩ :: vs) x y ∨ (x = a + span us ∧ y = taken least n z) := by
  obtain ⟨ts, heq, hfree⟩ := carve_eq least n z
  have hspan := span_carve least hn
  rw [at_append, at_append, hspan, heq, at_cons, at_append, at_cons]
  have := at_true_of_free (a := a + span us + taken least n z) (x := x) (z := y) hfree
  simp only [Cell.mk.injEq, Bool.false_eq_true, and_false, false_and, false_or, and_true]
  tauto

def Coalesced (us : List Cell) (z : Nat) (vs inner : List Cell) : Prop :=
  ∃ us' fl fr vs', us = us' ++ fl ∧ vs = fr ++ vs' ∧ (∀ c ∈ fl, c.used = false) ∧
    (∀ c ∈ fr, c.used = false) ∧ inner = us' ++ ⟨span fl + (z + span fr), false⟩ :: vs'

lemma Coalesced.at_true {inner : List Cell} (h : Coalesced us z vs inner)
    (hpos : ∀ c ∈ us ++ ⟨z, true⟩ :: vs, 0 < c.size) :
    At true a inner x y ↔ At true a (us ++ ⟨z, true⟩ :: vs) x y ∧ x ≠ a + span us := by
  obtain ⟨us', fl, fr, vs', rfl, rfl, hfl, hfr, rfl⟩ := h
  have hflat := at_true_of_free (a := a + span us') (x := x) (z := y) hfl
  have hfrat := at_true_of_free (a := a + span us' + span fl + z) (x := x) (z := y) hfr
  have hz := hpos ⟨z, true⟩ (by simp)
  simp only [at_append, at_cons, span_append, ← Nat.add_assoc, Cell.mk.injEq, Bool.false_eq_true,
    and_false, false_and, false_or, and_true] at hflat hfrat hz ⊢
  constructor
  · rintro (h | h)
    · obtain ⟨ps, qs, heq, rfl⟩ := h
      have hy := hpos ⟨y, true⟩ (by rw [heq]; simp)
      have hspan : span us' = span ps + (y + span qs) := by rw [heq]; simp
      simp only at hy
      exact ⟨.inl (.inl ⟨ps, qs, heq, rfl⟩), by omega⟩
    · have := h.bounds
      exact ⟨.inr (.inr (.inr h)), by omega⟩
  · rintro ⟨(h | h) | ⟨-, rfl⟩ | h | h, hne⟩
    · exact .inl h
    · exact absurd h hflat
    · exact absurd rfl hne
    · exact absurd h hfrat
    · exact .inr h

lemma Merged.eq_nil_right {fr : List Cell} (h : Merged (us ++ ⟨z, false⟩ :: (fr ++ vs)))
    (hfr : ∀ c ∈ fr, c.used = false) : fr = [] := by
  cases fr with
  | nil => rfl
  | cons c fr =>
    have hc := h.next_used
    rw [hfr c mem_cons_self] at hc
    cases hc

lemma Merged.eq_nil_left {fl : List Cell} (h : Merged ((us ++ fl) ++ ⟨z, false⟩ :: vs))
    (hfl : ∀ c ∈ fl, c.used = false) : fl = [] := by
  cases fl using reverseRecOn with
  | nil => rfl
  | append_singleton fl c =>
    have hmid : Merged ((us ++ fl) ++ c :: ⟨z, false⟩ :: vs) := by simpa using h
    have hc := (isChain_cons_cons.mp (merged_middle.mp hmid).2).1
    simp [hfl c (by simp)] at hc

lemma Coalesced.carve {ts inner : List Cell} (hn : n ≤ z)
    (hcells : Merged (us ++ ⟨z, false⟩ :: vs))
    (hts : carve least n z = ⟨taken least n z, true⟩ :: ts)
    (h : Coalesced us (taken least n z) (ts ++ vs) inner) (hinner : Merged inner) :
    inner = us ++ ⟨z, false⟩ :: vs := by
  obtain ⟨us', fl, fr, vs', rfl, hright, hfl, hfr, rfl⟩ := h
  obtain rfl : fl = [] := hcells.eq_nil_left hfl
  obtain ⟨rfl, rfl⟩ : fr = ts ∧ vs' = vs := by
    obtain ⟨ws, rfl, rfl⟩ | ⟨ws, rfl, rfl⟩ := append_eq_append_iff.mp hright
    · -- the run of free cells goes on behind the rest that was cut off
      obtain rfl : ws = [] := hcells.eq_nil_right fun c hc => hfr c (by simp [hc])
      simp
    · have hws : ws = [] := by
        refine hinner.eq_nil_right fun c hc => ?_
        obtain ⟨ts', heq, hfree⟩ := carve_eq least n z
        rw [hts] at heq
        cases heq
        exact hfree c (by simp [hc])
      subst hws
      simp
  have hspan := span_carve least hn
  rw [hts, span_cons] at hspan
  simp only at hspan
  simp [hspan]

lemma mem_places : x ∈ places a cs ↔ ∃ u z, At u a cs x z := by
  induction cs generalizing a with
  | nil => simp [places, at_nil]
  | cons c cs ih =>
    simp only [places, mem_cons, ih, at_cons]
    constructor
    · rintro (rfl | ⟨u, z, h⟩)
      · exact ⟨c.used, c.size, .inl ⟨rfl, rfl⟩⟩
      · exact ⟨u, z, .inr h⟩
    · rintro ⟨u, z, ⟨-, rfl⟩ | h⟩
      · exact .inl rfl
      · exact .inr ⟨u, z, h⟩

lemma places_append : places a (us ++ vs) = places a us ++ places (a + span us) vs := by
  induction us generalizing a with
  | nil => simp [places]
  | cons c us ih => simp [places, ih, Nat.add_assoc]

lemma length_places_le (h : ∀ c ∈ cs, 0 < c.size) : (places a cs).length ≤ span cs := by
  induction cs generalizing a with
  | nil => exact Nat.le_refl 0
  | cons c cs ih =>
    have hc := h c mem_cons_self
    have hle := @ih (a + c.size) fun d hd => h d (mem_cons_of_mem c hd)
    rw [places, length_cons, span_cons]
    omega

lemma exists_at (h1 : a ≤ x) (h2 : x < a + span cs) :
    ∃ u y z, At u a cs y z ∧ y ≤ x ∧ x < y + z := by
  induction cs generalizing a with
  | nil =>
    rw [span] at h2
    omega
  | cons c cs ih =>
    by_cases hx : x < a + c.size
    · exact ⟨c.used, a, c.size, at_cons.mpr (.inl ⟨rfl, rfl⟩), h1, hx⟩
    · rw [span_cons] at h2
      obtain ⟨u, y, z, hat, h3, h4⟩ := ih (Nat.not_lt.mp hx) (by omega)
      exact ⟨u, y, z, at_cons.mpr (.inr hat), h3, h4⟩

lemma Merged.eq_nil_or_singleton (h : Merged (us ++ (cs ++ vs)))
    (hfree : ∀ c ∈ cs, c.used = false) : cs = [] ∨ ∃ z, cs = [⟨z, false⟩] := by
  cases cs with
  | nil => exact .inl rfl
  | cons c cs =>
    obtain ⟨z, u⟩ := c
    obtain rfl : u = false := hfree ⟨z, u⟩ mem_cons_self
    rw [cons_append] at h
    rw [h.eq_nil_right fun d hd => hfree d (mem_cons_of_mem _ hd)]
    exact .inr ⟨z, rfl⟩

end Cell
end Xiuos.Lib
