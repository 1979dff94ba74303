import Xiuos.Lib.Fuel

/-! Runs of a machine whose steps may be refused. -/

namespace Xiuos.Lib
variable {σ τ ι : Type}

def runs (step : σ → ι → Option σ) : σ → List ι → Option σ
  | s, [] => some s
  | s, i :: is => step s i >>= fun s' => runs step s' is

/-- `P` holds in every state that the run passes. -/
def Always (step : σ → ι → Option σ) (P : σ → Prop) : σ → List ι → Prop
  | s, [] => P s
  | s, i :: is => P s ∧ ∀ s', step s i = some s' → Always step P s' is

/-- `C` holds of every step that the run takes, in the state before it. -/
def Each (step : σ → ι → Option σ) (C : σ → ι → Prop) : σ → List ι → Prop
  | _, [] => True
  | s, i :: is => ∀ s', step s i = some s' → C s i ∧ Each step C s' is

/-- `R` holds of every step that the run takes, with the state after it. -/
def Along (step : σ → ι → Option σ) (R : σ → ι → σ → Prop) : σ → List ι → Prop
  | _, [] => True
  | s, i :: is => ∀ s', step s i = some s' → R s i s' ∧ Along step R s' is

/-- `C` holds of every step that the run comes to, taken or refused. -/
def Meets (step : σ → ι → Option σ) (C : σ → ι → Prop) : σ → List ι → Prop
  | _, [] => True
  | s, i :: is => C s i ∧ ∀ s', step s i = some s' → Meets step C s' is

instance decidableEach {step : σ → ι → Option σ} {C : σ → ι → Prop} [∀ s i, Decidable (C s i)] :
    ∀ s is, Decidable (Each step C s is)
  | _, [] => isTrue True.intro
  | s, i :: is =>
    match h : step s i with
    | none => isTrue (by simp [Each, h])
    | some s' =>
      have := (decidableEach s' is : Decidable (Each step C s' is))
      decidable_of_iff (C s i ∧ Each step C s' is) (by simp [Each, h])

section
variable {step : σ → ι → Option σ} {P I : σ → Prop} {C D : σ → ι → Prop} {s s' : σ} {is : List ι}

lemma Always.head (h : Always step P s is) : P s := by
  cases is with
  | nil => exact h
  | cons i is => exact h.1

lemma Always.last (h : Always step P s is) (hrun : runs step s is = some s') : P s' := by
  induction is generalizing s with
  | nil =>
    cases hrun
    exact h
  | cons i is ih =>
    obtain ⟨s₁, h1, hrun⟩ := Option.bind_eq_some_iff.mp hrun
    exact ih (h.2 s₁ h1) hrun

lemma always_of_each (hstep : ∀ {s i s'}, I s → C s i → step s i = some s' → I s') (hs : I s)
    (hC : Each step C s is) : Always step I s is := by
  induction is generalizing s with
  | nil => exact hs
  | cons i is ih =>
    refine ⟨hs, fun s' h => ?_⟩
    obtain ⟨hc, hrest⟩ := hC s' h
    exact ih (hstep hs hc h) hrest

lemma Each.mono (h : Each step C s is) (hCD : ∀ s i, C s i → D s i) : Each step D s is := by
  induction is generalizing s with
  | nil => exact h
  | cons i is ih => exact fun s' hs' => ⟨hCD s i (h s' hs').1, ih (h s' hs').2⟩

lemma Each.of_forall {Q : ι → Prop} (h : ∀ i ∈ is, Q i) : Each step (fun _ => Q) s is := by
  induction is generalizing s with
  | nil => exact True.intro
  | cons i is ih =>
    exact fun s' _ => ⟨h i List.mem_cons_self, ih fun j hj => h j (List.mem_cons_of_mem i hj)⟩

lemma always_of_step (hstep : ∀ {s i s'}, I s → step s i = some s' → I s') (hs : I s)
    (is : List ι) : Always step I s is :=
  always_of_each (C := fun _ _ => True) (fun hs _ h => hstep hs h) hs
    (Each.of_forall fun _ _ => True.intro)

lemma Always.mono {Q : σ → Prop} (h : Always step P s is) (hPQ : ∀ s, P s → Q s) :
    Always step Q s is := by
  induction is generalizing s with
  | nil => exact hPQ s h
  | cons i is ih => exact ⟨hPQ s h.1, fun s' hs' => ih (h.2 s' hs')⟩

lemma always_iff_each_of_keeps (hP : ∀ {s i s'}, I s → step s i = some s' → (P s' ↔ C s i))
    (hI : ∀ {s i s'}, I s → C s i → step s i = some s' → I s') (hs : I s) (hp : P s) :
    Always step P s is ↔ Each step C s is := by
  induction is generalizing s with
  | nil => exact iff_of_true hp True.intro
  | cons i is ih =>
    constructor
    · rintro ⟨-, h⟩ s' hs'
      have hp' := (h s' hs').head
      have hc := (hP hs hs').mp hp'
      exact ⟨hc, (ih (hI hs hc hs') hp').mp (h s' hs')⟩
    · intro h
      refine ⟨hp, fun s' hs' => ?_⟩
      obtain ⟨hc, hrest⟩ := h s' hs'
      exact (ih (hI hs hc hs') ((hP hs hs').mpr hc)).mpr hrest

lemma always_iff_each (hI : ∀ {s i s'}, I s → step s i = some s' → I s')
    (hP : ∀ {s i s'}, I s → P s → step s i = some s' → (P s' ↔ C s i)) (hs : I s) (hp : P s) :
    Always step P s is ↔ Each step C s is :=
  always_iff_each_of_keeps (I := fun s => I s ∧ P s) (fun h hs' => hP h.1 h.2 hs')
    (fun h hc hs' => ⟨hI h.1 hs', (hP h.1 h.2 hs').mpr hc⟩) ⟨hs, hp⟩ hp

variable {R : σ → ι → σ → Prop}

lemma along_iff_each (hI : ∀ {s i s'}, I s → step s i = some s' → I s')
    (hP : ∀ {s i s'}, P s → step s i = some s' → R s i s' → C s i → P s')
    (hR : ∀ {s i s'}, I s → P s → step s i = some s' → (R s i s' ↔ C s i)) (hs : I s) (hp : P s) :
    Along step R s is ↔ Each step C s is := by
  induction is generalizing s with
  | nil => exact Iff.rfl
  | cons i is ih =>
    refine forall_congr' fun s' => imp_congr_right fun hs' => ?_
    rw [hR hs hp hs']
    refine and_congr_right fun hc => ?_
    exact ih (hI hs hs') (hP hp hs' ((hR hs hp hs').mpr hc) hc)

lemma along_of_each (hstep : ∀ {s i s'}, I s → C s i → step s i = some s' → I s' ∧ R s i s')
    (hs : I s) (hC : Each step C s is) : Along step R s is := by
  induction is generalizing s with
  | nil => trivial
  | cons i is ih =>
    intro s' hs'
    obtain ⟨hc, hrest⟩ := hC s' hs'
    obtain ⟨hI, hR⟩ := hstep hs hc hs'
    exact ⟨hR, ih hI hrest⟩

lemma along_of_step (hstep : ∀ {s i s'}, I s → step s i = some s' → I s' ∧ R s i s') (hs : I s)
    (is : List ι) : Along step R s is :=
  along_of_each (C := fun _ _ => True) (fun hs _ h => hstep hs h) hs
    (Each.of_forall fun _ _ => True.intro)

lemma isSome_runs_iff (hC : ∀ s i, (step s i).isSome ↔ C s i) :
    (runs step s is).isSome ↔ Meets step C s is := by
  induction is generalizing s with
  | nil => simp [runs, Meets]
  | cons i is ih =>
    rw [Meets, ← hC, runs]
    cases step s i with
    | none => simp
    | some s' => simpa using ih

lemma always_iff_meets (h : ∀ {s i}, P s → ((∃ s', step s i = some s' ∧ P s') ↔ C s i))
    (hp : P s) : (runs step s is).isSome ∧ Always step P s is ↔ Meets step C s is := by
  induction is generalizing s with
  | nil => simp [runs, Always, Meets, hp]
  | cons i is ih =>
    rw [Meets, ← h hp, runs, Always]
    cases hstep : step s i with
    | none => simp
    | some s₁ =>
      constructor
      · rintro ⟨hsome, -, hall⟩
        have hp₁ := (hall s₁ rfl).head
        refine ⟨⟨s₁, rfl, hp₁⟩, ?_⟩
        rintro s' ⟨⟩
        exact (ih hp₁).mp ⟨hsome, hall s₁ rfl⟩
      · rintro ⟨⟨s', ⟨⟩, hp₁⟩, hmeets⟩
        obtain ⟨hsome, hall⟩ := (ih hp₁).mpr (hmeets s₁ rfl)
        refine ⟨hsome, hp, ?_⟩
        rintro s' ⟨⟩
        exact hall

end

lemma Follows.runs {step : Nat → σ → ι → Option σ} {step' : τ → ι → Option τ} {R : σ → τ → Prop}
    (hstep : ∀ {s t} i, R s t → Follows (fun fuel => step fuel s i) (step' t i) R) {s : σ} {t : τ}
    (h : R s t) (is : List ι) :
    Follows (fun fuel => Lib.runs (step fuel) s is) (Lib.runs step' t is) R := by
  induction is generalizing s t with
  | nil => exact .pure h
  | cons i is ih => exact (hstep i h).bind fun s' t' _ h' => ih h'

end Xiuos.Lib
