import Xiuos.Arch.PmpLaws

/-! `PmpLoad` of the 64-bit RISC-V, which packs the configurations of eight entries into a
register. -/

namespace Xiuos.Arch
open List Nat Option

/-- `pmpcfg << n`, where the byte is promoted to an `int` of 32 bits: the shift has no value when it
is too wide for the type or when the product is. -/
def shiftPmpcfg (pmpcfg : UInt8) (n : Nat) : Option UInt64 :=
  if n < 32 ∧ pmpcfg.toNat <<< n < 2 ^ 31 then some (UInt64.ofNat (pmpcfg.toNat <<< n)) else none

structure Loading64 where
  index : UInt8
  pmpcfg0 : UInt64
  pmpcfg2 : UInt64
  regs : PmpRegisters UInt64

variable (regs : PmpRegisters UInt64)

def pmpClear64 (regs : PmpRegisters UInt64) : PmpRegisters UInt64 where
  pmpcfg := Function.update (Function.update regs.pmpcfg 0 0) 2 0
  pmpaddr := fun _ => 0

variable (l : Loading64)

def loadReserveEntry64 (l : Loading64) (entry : PmpEntry UInt64) : Option Loading64 := do
  let cfg ← shiftPmpcfg entry.pmpcfg (l.index.toNat * 8)
  some
    { l with
      index := l.index + 1
      pmpcfg0 := l.pmpcfg0 ||| cfg
      regs := writePmpaddr l.regs l.index entry.pmpaddr }

def loadTorEntry64 (l : Loading64) (entry : PmpEntry UInt64) : Option Loading64 := do
  let regs := writePmpaddr l.regs l.index entry.pmpaddr
  if l.index.toNat < 8 then
    let cfg ← shiftPmpcfg entry.pmpcfg (l.index.toNat * 8)
    some { l with index := l.index + 1, pmpcfg0 := l.pmpcfg0 ||| cfg, regs }
  else
    let cfg ← shiftPmpcfg entry.pmpcfg ((l.index.toNat - 8) * 8)
    some { l with index := l.index + 1, pmpcfg2 := l.pmpcfg2 ||| cfg, regs }

def pmpLoad64 (taskPmp : Option (Pmp UInt64)) (regs : PmpRegisters UInt64) :
    Option (PmpRegisters UInt64) :=
  match taskPmp with
  | none => some regs
  | some pmp => do
    let l : Loading64 := { index := 0, pmpcfg0 := 0, pmpcfg2 := 0, regs := pmpClear64 regs }
    let l ← (List.range pmp.reserve.toNat).foldlM
      (fun l i => loadReserveEntry64 l (pmp.pmpEntryReserve i)) l
    let l ← pmp.torList.foldlM
      (fun l node => do loadTorEntry64 (← loadTorEntry64 l node.entry0) node.entry1) l
    some (writePmpcfg (writePmpcfg l.regs 0 l.pmpcfg0) 2 l.pmpcfg2)

def byteOf (cfg : UInt64) (i : Nat) : UInt8 := (cfg >>> UInt64.ofNat (8 * i)).toUInt8

def cfgOf (pmpcfg0 pmpcfg2 : UInt64) (i : Fin 16) : UInt8 :=
  if i.val < 8 then byteOf pmpcfg0 i else byteOf pmpcfg2 (i - 8)

def PmpRegisters.cfg64 (regs : PmpRegisters UInt64) : Fin 16 → UInt8 :=
  cfgOf (regs.pmpcfg 0) (regs.pmpcfg 2)

/-- The bytes that a shift of the promoted byte can reach: four entries, and the last of them
without the sign. -/
structure Packs (es : List (PmpEntry UInt64)) : Prop where
  length_le : es.length ≤ 4
  fits : ∀ e, es[3]? = some e → e.pmpcfg.toNat < 2 ^ 7

lemma byteOf_or (a b : UInt64) (i : Nat) : byteOf (a ||| b) i = byteOf a i ||| byteOf b i := by
  rw [byteOf, UInt64.shiftRight_or, UInt64.toUInt8_or, byteOf, byteOf]

lemma byteOf_shift (c : UInt8) {n i : Nat} (hn : n < 4) (hi : i < 8) :
    byteOf (UInt64.ofNat (c.toNat <<< (n * 8))) i = if i = n then c else 0 := by
  have hc := c.toNat_lt
  apply UInt8.toNat_inj.mp
  rw [byteOf]
  interval_cases n <;> interval_cases i <;>
    simp [shiftLeft_eq, shiftRight_eq_div_pow] <;> omega

lemma cfgOf_or_shift (a b : UInt64) (c : UInt8) {n : Nat} (hn : n < 4) (ha : byteOf a n = 0)
    (i : Fin 16) :
    cfgOf (a ||| UInt64.ofNat (c.toNat <<< (n * 8))) b i =
      if i = ⟨n, by omega⟩ then c else cfgOf a b i := by
  rw [cfgOf, cfgOf]
  split
  case isTrue hi =>
    rw [byteOf_or, byteOf_shift c hn hi]
    by_cases heq : i.val = n
    · simp [heq, ha, Fin.ext_iff]
    · simp [heq, Fin.ext_iff]
  case isFalse hi =>
    rw [if_neg]
    rintro rfl
    exact hi (by simp; omega)

structure Loads64 (l : Loading64) (es : List (PmpEntry UInt64)) : Prop where
  packs : Packs es
  index : l.index.toNat = es.length
  pmpcfg2 : l.pmpcfg2 = 0
  pmpcfg : ∀ i : Fin 16, cfgOf l.pmpcfg0 l.pmpcfg2 i = (es.getD i offEntry).pmpcfg
  pmpaddr : ∀ i : Fin 16, l.regs.pmpaddr i = (es.getD i offEntry).pmpaddr

lemma loads64_nil :
    Loads64 { index := 0, pmpcfg0 := 0, pmpcfg2 := 0, regs := pmpClear64 regs } [] where
  packs := ⟨by simp, by simp⟩
  index := rfl
  pmpcfg2 := rfl
  pmpcfg := fun i => by simp [cfgOf, byteOf, offEntry]
  pmpaddr := fun _ => rfl

lemma packs_append_singleton {es : List (PmpEntry UInt64)} (h : Packs es) (e : PmpEntry UInt64) :
    Packs (es ++ [e]) ↔ es.length * 8 < 32 ∧ e.pmpcfg.toNat <<< (es.length * 8) < 2 ^ 31 := by
  have he := e.pmpcfg.toNat_lt
  obtain ⟨hlen, hfits⟩ := h
  rw [shiftLeft_eq]
  constructor
  · rintro ⟨hlen', hfits'⟩
    rw [length_append, length_singleton] at hlen'
    refine ⟨by omega, ?_⟩
    rcases Nat.lt_or_ge es.length 3 with hlt | hge
    · interval_cases es.length <;> omega
    · have h3 : es.length = 3 := by omega
      have := hfits' e (by rw [getElem?_append_right h3.le, h3]; rfl)
      rw [h3]
      omega
  · rintro ⟨hlt, hprod⟩
    refine ⟨by simp; omega, fun e' he' => ?_⟩
    have h3 : es.length = 3 := by
      have := (List.getElem?_eq_some_iff.mp he').1
      simp at this
      omega
    rw [getElem?_append_right h3.le, h3] at he'
    cases he'
    rw [h3] at hprod
    omega

lemma Packs.of_append {es fs : List (PmpEntry UInt64)} (h : Packs (es ++ fs)) : Packs es where
  length_le := by
    have := h.length_le
    rw [length_append] at this
    omega
  fits := fun e he => h.fits e (by
    rw [getElem?_append_left (List.getElem?_eq_some_iff.mp he).1, he])

structure Loader (load : Loading64 → PmpEntry UInt64 → Option Loading64) : Prop where
  exists_of_packs : ∀ {l es e}, Loads64 l es → Packs (es ++ [e]) → ∃ l', load l e = some l'
  loads : ∀ {l es e l'}, Loads64 l es → load l e = some l' → Loads64 l' (es ++ [e])

lemma Loads64.cfg_next {l : Loading64} {es : List (PmpEntry UInt64)} (h : Loads64 l es)
    (hlen : es.length < 4) : byteOf l.pmpcfg0 es.length = 0 := by
  have hcfg := h.pmpcfg ⟨es.length, by omega⟩
  rw [cfgOf, if_pos (by simp; omega)] at hcfg
  rw [hcfg, getD_eq_default _ _ le_rfl, offEntry]

lemma loader_reserve : Loader loadReserveEntry64 where
  exists_of_packs {l es e} h hpacks := by
    have hfits := (packs_append_singleton h.packs e).mp hpacks
    rw [loadReserveEntry64, shiftPmpcfg, h.index, if_pos hfits]
    exact ⟨_, rfl⟩
  loads {l es e l'} h hload := by
    rw [loadReserveEntry64] at hload
    obtain ⟨cfg, hcfg, hl'⟩ := bind_eq_some_iff.mp hload
    cases hl'
    rw [shiftPmpcfg, h.index] at hcfg
    obtain ⟨hfits, ⟨⟩⟩ := ite_none_right_eq_some.mp hcfg
    have hlen : es.length < 4 := by omega
    have hidx : l.index.toNat < 16 := by
      rw [h.index]
      omega
    have hfin : (⟨l.index.toNat, hidx⟩ : Fin 16) = ⟨es.length, by omega⟩ := Fin.ext h.index
    refine ⟨(packs_append_singleton h.packs e).mpr hfits, ?_, h.pmpcfg2, fun i => ?_, fun i => ?_⟩
    · rw [UInt8.toNat_add, h.index, length_append, length_singleton]
      exact mod_eq_of_lt (by simp; omega)
    · rw [← getD_concat_update PmpEntry.pmpcfg _ es e offEntry (by omega) h.pmpcfg i,
        Function.update_apply, cfgOf_or_shift _ _ _ hlen (h.cfg_next hlen)]
    · simp only [writePmpaddr, dif_pos hidx, hfin]
      exact getD_concat_update PmpEntry.pmpaddr _ es e offEntry (by omega) h.pmpaddr i

lemma Loads64.loadTorEntry64_eq {l : Loading64} {es : List (PmpEntry UInt64)} (h : Loads64 l es)
    (e : PmpEntry UInt64) : loadTorEntry64 l e = loadReserveEntry64 l e := by
  have hle := h.packs.length_le
  have hidx : l.index.toNat < 8 := by
    rw [h.index]
    omega
  simp only [loadTorEntry64, if_pos hidx, loadReserveEntry64]

lemma loader_tor : Loader loadTorEntry64 where
  exists_of_packs h hpacks := by
    rw [h.loadTorEntry64_eq]
    exact loader_reserve.exists_of_packs h hpacks
  loads h hload := loader_reserve.loads h (h.loadTorEntry64_eq _ ▸ hload)

variable {load : Loading64 → PmpEntry UInt64 → Option Loading64} {l l' : Loading64}
variable {es fs : List (PmpEntry UInt64)}

lemma Loader.exists_foldlM (hload : Loader load) (h : Loads64 l es) (hpacks : Packs (es ++ fs)) :
    ∃ l', fs.foldlM load l = some l' := by
  induction fs generalizing l es with
  | nil => exact ⟨l, rfl⟩
  | cons f fs ih =>
    rw [← singleton_append, ← append_assoc] at hpacks
    obtain ⟨l₁, hl₁⟩ := hload.exists_of_packs h hpacks.of_append
    obtain ⟨l₂, hl₂⟩ := ih (hload.loads h hl₁) hpacks
    exact ⟨l₂, by simp [foldlM_cons, hl₁, hl₂]⟩

lemma Loader.loads_foldlM (hload : Loader load) (h : Loads64 l es)
    (hfold : fs.foldlM load l = some l') : Loads64 l' (es ++ fs) := by
  induction fs generalizing l es with
  | nil =>
    cases hfold
    rwa [append_nil]
  | cons f fs ih =>
    rw [foldlM_cons] at hfold
    obtain ⟨l₁, hl₁, hfold⟩ := bind_eq_some_iff.mp hfold
    have h' := ih (hload.loads h hl₁) hfold
    rwa [append_assoc] at h'

lemma pmpLoad64_eq (pmp : Pmp UInt64) (regs : PmpRegisters UInt64) :
    pmpLoad64 (some pmp) regs =
      (pmp.reserveList.foldlM loadReserveEntry64
        { index := 0, pmpcfg0 := 0, pmpcfg2 := 0, regs := pmpClear64 regs } >>= fun l =>
      pmp.torEntries.foldlM loadTorEntry64 l >>= fun l =>
      some (writePmpcfg (writePmpcfg l.regs 0 l.pmpcfg0) 2 l.pmpcfg2)) := by
  simp only [pmpLoad64, foldlM_pairs, Pmp.reserveList, foldlM_map, Pmp.torEntries]

variable {pmp : Pmp UInt64}

lemma loads64_of_pmpLoad64 {regs regs' : PmpRegisters UInt64}
    (h : pmpLoad64 (some pmp) regs = some regs') :
    ∃ l, Loads64 l pmp.entries ∧
      regs' = writePmpcfg (writePmpcfg l.regs 0 l.pmpcfg0) 2 l.pmpcfg2 := by
  rw [pmpLoad64_eq] at h
  obtain ⟨l₁, hl₁, h⟩ := bind_eq_some_iff.mp h
  obtain ⟨l₂, hl₂, h⟩ := bind_eq_some_iff.mp h
  have h₁ := loader_reserve.loads_foldlM (loads64_nil regs) hl₁
  exact ⟨l₂, loader_tor.loads_foldlM h₁ hl₂, (Option.some.inj h).symm⟩

lemma exists_pmpLoad64 (h : Packs pmp.entries) (regs : PmpRegisters UInt64) :
    ∃ regs', pmpLoad64 (some pmp) regs = some regs' := by
  have hreserve : Packs ([] ++ pmp.reserveList) := h.of_append
  obtain ⟨l₁, hl₁⟩ := loader_reserve.exists_foldlM (loads64_nil regs) hreserve
  have h₁ := loader_reserve.loads_foldlM (loads64_nil regs) hl₁
  obtain ⟨l₂, hl₂⟩ := loader_tor.exists_foldlM h₁ h
  exact ⟨_, by simp [pmpLoad64_eq, hl₁, hl₂]; rfl⟩

lemma Loads64.registers {l : Loading64} {es : List (PmpEntry UInt64)} (h : Loads64 l es)
    (i : Fin 16) :
    (writePmpcfg (writePmpcfg l.regs 0 l.pmpcfg0) 2 l.pmpcfg2).cfg64 i =
        (es.getD i offEntry).pmpcfg ∧
      (writePmpcfg (writePmpcfg l.regs 0 l.pmpcfg0) 2 l.pmpcfg2).pmpaddr i =
        (es.getD i offEntry).pmpaddr := by
  rw [← h.pmpcfg, ← h.pmpaddr]
  exact ⟨rfl, rfl⟩

def PmpEntry.widen (e : PmpEntry) : PmpEntry UInt64 where
  pmpcfg := e.pmpcfg
  pmpaddr := e.pmpaddr.toUInt64

def PmpRegionTor.widen (r : PmpRegionTor) : PmpRegionTor UInt64 :=
  { r with
    start := r.start.toUInt64
    stop := r.stop.toUInt64
    entry0 := r.entry0.widen
    entry1 := r.entry1.widen }

def Pmp.widen (pmp : Pmp) : Pmp UInt64 :=
  { pmp with
    pmpEntryReserve := fun i => (pmp.pmpEntryReserve i).widen
    torList := pmp.torList.map PmpRegionTor.widen
    torSwapList := pmp.torSwapList.map PmpRegionTor.widen }

lemma Pmp.entries_widen (pmp : Pmp) : pmp.widen.entries = pmp.entries.map PmpEntry.widen := by
  simp [Pmp.entries, Pmp.reserveList, Pmp.torEntries, Pmp.widen, flatMap_map, map_flatMap,
    PmpRegionTor.widen]

lemma getD_map_widen (es : List PmpEntry) (i : Nat) :
    (es.map PmpEntry.widen).getD i offEntry = (es.getD i offEntry).widen :=
  List.getD_map es offEntry PmpEntry.widen

def Installs (regs : PmpRegisters UInt64) (pmp : Pmp UInt64) : Prop :=
  ∀ i : Fin 16, regs.cfg64 i = (pmp.entries.getD i offEntry).pmpcfg ∧
    regs.pmpaddr i = (pmp.entries.getD i offEntry).pmpaddr

def Agrees (regs : PmpRegisters UInt64) (regs32 : PmpRegisters) : Prop :=
  ∀ i : Fin 16, regs.cfg64 i = regs32.cfg i ∧ regs.pmpaddr i = (regs32.pmpaddr i).toUInt64

lemma Installs.agrees {regs : PmpRegisters UInt64} {pmp : Pmp} (h : Installs regs pmp.widen)
    (hlen : pmp.widen.entries.length ≤ 16) (regs32 : PmpRegisters) :
    ∃ regs32', pmpLoad (some pmp) regs32 = some regs32' ∧ Agrees regs regs32' := by
  rw [Pmp.entries_widen, length_map] at hlen
  obtain ⟨l, hload, hl⟩ := pmpLoad_loads pmp regs32 hlen
  refine ⟨_, hload, fun i => ?_⟩
  have hi := h i
  rw [Pmp.entries_widen, getD_map_widen] at hi
  rw [loadPmpcfg_cfg, loadPmpcfg_pmpaddr, hl.pmpcfg, hl.pmpaddr]
  exact hi

theorem pmpLoad64_iff {pmp : Pmp UInt64} (hlen : pmp.entries.length ≤ pmpMaxEntryNumber)
    (regs : PmpRegisters UInt64) :
    (∃ regs', pmpLoad64 (some pmp) regs = some regs' ∧ Installs regs' pmp ∧
      ∀ (pmp32 : Pmp) (regs32 : PmpRegisters), pmp32.widen = pmp →
        ∃ regs32', pmpLoad (some pmp32) regs32 = some regs32' ∧ Agrees regs' regs32') ↔
      Packs pmp.entries := by
  constructor
  · rintro ⟨regs', hload, -⟩
    obtain ⟨l, hl, -⟩ := loads64_of_pmpLoad64 hload
    exact hl.packs
  · intro h
    obtain ⟨regs', hload⟩ := exists_pmpLoad64 h regs
    obtain ⟨l, hl, rfl⟩ := loads64_of_pmpLoad64 hload
    refine ⟨_, hload, hl.registers, ?_⟩
    rintro pmp32 regs32 rfl
    exact Installs.agrees hl.registers hlen regs32

def sixEntries : Pmp UInt64 :=
  { count := 6
    reserve := 6
    pmpEntryReserve := fun _ => torEntry (pmpR ||| pmpW) 0x1000
    torList := []
    torSwapList := [] }

theorem pmpLoad64_undefined :
    sixEntries.entries.length ≤ pmpMaxEntryNumber ∧
      pmpLoad64 (some sixEntries) ⟨fun _ => 0, fun _ => 0⟩ = none := ⟨by decide, rfl⟩

theorem pmpLoad64_four :
    ({ sixEntries with reserve := 4 } : Pmp UInt64).entries.length ≤ pmpMaxEntryNumber ∧
    ∃ regs', pmpLoad64 (some { sixEntries with reserve := 4 }) ⟨fun _ => 0, fun _ => 0⟩ =
        some regs' ∧ Installs regs' { sixEntries with reserve := 4 } ∧
      ∀ (pmp32 : Pmp) (regs32 : PmpRegisters), pmp32.widen = { sixEntries with reserve := 4 } →
        ∃ regs32', pmpLoad (some pmp32) regs32 = some regs32' ∧ Agrees regs' regs32' :=
  ⟨by decide, (pmpLoad64_iff (by decide) _).mpr ⟨by decide, by rintro e ⟨⟩; decide⟩⟩

end Xiuos.Arch
