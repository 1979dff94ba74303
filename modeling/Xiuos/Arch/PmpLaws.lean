import Xiuos.Arch.Pmp
import Mathlib.Data.List.Pairwise

namespace Xiuos.Arch
open Function List Nat Region

def offEntry {α : Type} [OfNat α 0] : PmpEntry α where
  pmpcfg := 0
  pmpaddr := 0

lemma toUInt32_shiftLeft (a : UInt8) {k : UInt32} (hk : k.toNat ≤ 24) :
    (a.toUInt32 <<< k).toNat = 2 ^ k.toNat * a.toNat := by
  have ha := a.toNat_lt
  have hpow : 2 ^ k.toNat ≤ 2 ^ 24 := Nat.pow_le_pow_right (by decide) hk
  have hlt : a.toNat * 2 ^ k.toNat < 2 ^ 32 := by
    calc a.toNat * 2 ^ k.toNat ≤ 255 * 2 ^ 24 := Nat.mul_le_mul (by omega) hpow
      _ < 2 ^ 32 := by decide
  rw [UInt32.toNat_shiftLeft, mod_eq_of_lt (show k.toNat < 32 by omega), shiftLeft_eq,
    UInt8.toNat_toUInt32, mod_eq_of_lt hlt, Nat.mul_comm]

lemma pmpCfgConverse_toNat (a b c d : UInt8) :
    (pmpCfgConverse a b c d).toNat =
      2 ^ 24 * d.toNat + 2 ^ 16 * c.toNat + 2 ^ 8 * b.toNat + a.toNat := by
  have ha := a.toNat_lt
  have hb := b.toNat_lt
  have hc := c.toNat_lt
  have hcd : 2 ^ 24 * d.toNat ||| 2 ^ 16 * c.toNat = 2 ^ 16 * (2 ^ 8 * d.toNat + c.toNat) := by
    rw [← two_pow_add_eq_or_of_lt (show 2 ^ 16 * c.toNat < 2 ^ 24 by omega)]
    omega
  have hbcd : 2 ^ 16 * (2 ^ 8 * d.toNat + c.toNat) ||| 2 ^ 8 * b.toNat =
      2 ^ 8 * (2 ^ 16 * d.toNat + 2 ^ 8 * c.toNat + b.toNat) := by
    rw [← two_pow_add_eq_or_of_lt (show 2 ^ 8 * b.toNat < 2 ^ 16 by omega)]
    omega
  rw [pmpCfgConverse, UInt32.toNat_or, UInt32.toNat_or, UInt32.toNat_or,
    toUInt32_shiftLeft d (by decide), toUInt32_shiftLeft c (by decide),
    toUInt32_shiftLeft b (by decide), UInt8.toNat_toUInt32]
  simp only [UInt32.reduceToNat]
  rw [hcd, hbcd, ← two_pow_add_eq_or_of_lt (show a.toNat < 2 ^ 8 by omega)]
  omega

lemma pmpCfgConverse_byte (a b c d : UInt8) (i : Fin 4) :
    (pmpCfgConverse a b c d >>> UInt32.ofNat (8 * i)).toUInt8 = ![a, b, c, d] i := by
  have ha := a.toNat_lt
  have hb := b.toNat_lt
  have hc := c.toNat_lt
  have hd := d.toNat_lt
  apply UInt8.toNat_inj.mp
  rw [UInt32.toNat_toUInt8, UInt32.toNat_shiftRight, pmpCfgConverse_toNat, shiftRight_eq_div_pow]
  fin_cases i <;> simp <;> omega

lemma writePmpcfg_pmpcfg (regs : PmpRegisters) {index : UInt8} (h : index.toNat < 4)
    (value : UInt32) :
    (writePmpcfg regs index value).pmpcfg = Function.update regs.pmpcfg ⟨index.toNat, h⟩ value := by
  rw [writePmpcfg, dif_pos h]

lemma loadPmpcfg_pmpcfg (l : Loading) (j : Fin 4) :
    (loadPmpcfg l).pmpcfg j =
      pmpCfgConverse (l.pmpcfg ⟨4 * j, by omega⟩) (l.pmpcfg ⟨4 * j + 1, by omega⟩)
        (l.pmpcfg ⟨4 * j + 2, by omega⟩) (l.pmpcfg ⟨4 * j + 3, by omega⟩) := by
  simp only [loadPmpcfg]
  rw [writePmpcfg_pmpcfg _ (by decide), writePmpcfg_pmpcfg _ (by decide),
    writePmpcfg_pmpcfg _ (by decide), writePmpcfg_pmpcfg _ (by decide)]
  fin_cases j <;> simp [Function.update]

lemma loadPmpcfg_cfg (l : Loading) (i : Fin 16) : (loadPmpcfg l).cfg i = l.pmpcfg i := by
  have hbyte := pmpCfgConverse_byte (l.pmpcfg ⟨4 * (i / 4), by omega⟩)
    (l.pmpcfg ⟨4 * (i / 4) + 1, by omega⟩) (l.pmpcfg ⟨4 * (i / 4) + 2, by omega⟩)
    (l.pmpcfg ⟨4 * (i / 4) + 3, by omega⟩) ⟨i % 4, by omega⟩
  rw [PmpRegisters.cfg, loadPmpcfg_pmpcfg]
  refine hbyte.trans ?_
  have hmod : (i : Nat) % 4 = 0 ∨ (i : Nat) % 4 = 1 ∨ (i : Nat) % 4 = 2 ∨ (i : Nat) % 4 = 3 := by
    omega
  rcases hmod with h | h | h | h <;> simp only [h] <;> apply congrArg l.pmpcfg <;>
    apply Fin.ext <;> simp only <;> omega

structure Loads (l : Loading) (es : List PmpEntry) : Prop where
  index : l.index.toNat = es.length
  pmpcfg : ∀ i : Fin 16, l.pmpcfg i = (es.getD i offEntry).pmpcfg
  pmpaddr : ∀ i : Fin 16, l.regs.pmpaddr i = (es.getD i offEntry).pmpaddr

lemma loads_nil : Loads { index := 0, pmpcfg := fun _ => 0, regs := pmpClear } [] where
  index := rfl
  pmpcfg := fun _ => rfl
  pmpaddr := fun _ => rfl

lemma getD_concat_update {α β : Type} (f : α → β) (g : Fin 16 → β) (es : List α) (e d : α)
    (h : es.length < 16) (hg : ∀ i : Fin 16, g i = f (es.getD i d)) (i : Fin 16) :
    Function.update g ⟨es.length, h⟩ (f e) i = f ((es ++ [e]).getD i d) := by
  by_cases hi : i = ⟨es.length, h⟩
  · subst hi
    simp
  · have hne : (i : Nat) ≠ es.length := fun hval => hi (Fin.ext hval)
    rw [update_of_ne hi, hg]
    rcases Nat.lt_or_gt_of_ne hne with hlt | hgt
    · rw [getD_append _ _ _ _ hlt]
    · rw [getD_eq_default _ _ hgt.le, getD_eq_default _ _ (by simpa using hgt)]

variable {es : List PmpEntry} {l : Loading}

lemma Loads.loadEntry (h : Loads l es) (e : PmpEntry) (hlen : es.length < 16) :
    ∃ l', loadEntry l e = some l' ∧ Loads l' (es ++ [e]) := by
  have hidx : l.index.toNat < 16 := h.index ▸ hlen
  have hfin : (⟨l.index.toNat, hidx⟩ : Fin 16) = ⟨es.length, hlen⟩ := Fin.ext h.index
  refine ⟨_, by rw [Arch.loadEntry, dif_pos hidx], ?_, ?_, ?_⟩
  · have hone : (l.index + 1).toNat = l.index.toNat + 1 := by
      rw [UInt8.toNat_add]
      exact mod_eq_of_lt (by simp; omega)
    simp [hone, h.index]
  · intro i
    simp only [hfin]
    exact getD_concat_update PmpEntry.pmpcfg _ es e offEntry hlen h.pmpcfg i
  · intro i
    simp only [writePmpaddr, dif_pos hidx, hfin]
    exact getD_concat_update PmpEntry.pmpaddr _ es e offEntry hlen h.pmpaddr i

lemma Loads.foldlM (h : Loads l es) (fs : List PmpEntry) (hlen : es.length + fs.length ≤ 16) :
    ∃ l', fs.foldlM Arch.loadEntry l = some l' ∧ Loads l' (es ++ fs) := by
  induction fs generalizing l es with
  | nil => exact ⟨l, rfl, by simpa using h⟩
  | cons f fs ih =>
    rw [length_cons] at hlen
    obtain ⟨l₁, hl₁, hes₁⟩ := h.loadEntry f (by omega)
    obtain ⟨l₂, hl₂, hes₂⟩ := ih hes₁ (by simp; omega)
    exact ⟨l₂, by simp [foldlM_cons, hl₁, hl₂], by simpa using hes₂⟩

def Pmp.torEntries {α : Type} (pmp : Pmp α) : List (PmpEntry α) :=
  pmp.torList.flatMap fun node => [node.entry0, node.entry1]

def Pmp.reserveList {α : Type} (pmp : Pmp α) : List (PmpEntry α) :=
  (List.range pmp.reserve.toNat).map pmp.pmpEntryReserve

variable (pmp : Pmp)

lemma loadReserve_eq (l : Loading) : loadReserve pmp l = pmp.reserveList.foldlM loadEntry l := by
  rw [loadReserve, Pmp.reserveList, foldlM_map]

lemma foldlM_pairs {α σ : Type} (load : σ → PmpEntry α → Option σ) (nodes : List (PmpRegionTor α))
    (l : σ) :
    nodes.foldlM (fun l node => do load (← load l node.entry0) node.entry1) l =
      (nodes.flatMap fun node => [node.entry0, node.entry1]).foldlM load l := by
  induction nodes generalizing l with
  | nil => rfl
  | cons node nodes ih =>
    simp only [foldlM_cons, flatMap_cons, cons_append, nil_append, bind_assoc, ih]

lemma loadTorList_eq (l : Loading) :
    loadTorList pmp l = pmp.torEntries.foldlM loadEntry l := foldlM_pairs loadEntry pmp.torList l

lemma ofFn_getD {α : Type} {n : Nat} (es : List α) (d : α) (h : es.length ≤ n) :
    List.ofFn (fun i : Fin n => es.getD i d) = es ++ List.replicate (n - es.length) d := by
  apply ext_getElem (by simp; omega)
  intro i hi hi'
  rw [List.getElem_ofFn]
  by_cases hlt : i < es.length
  · simp [hlt]
  · rw [getD_eq_default _ _ (Nat.le_of_not_lt hlt), getElem_append_right (by omega),
      getElem_replicate]

lemma writePmpcfg_pmpaddr (regs : PmpRegisters) (index : UInt8) (value : UInt32) :
    (writePmpcfg regs index value).pmpaddr = regs.pmpaddr := by
  rw [writePmpcfg]
  split <;> rfl

lemma loadPmpcfg_pmpaddr (l : Loading) : (loadPmpcfg l).pmpaddr = l.regs.pmpaddr := by
  simp only [loadPmpcfg, writePmpcfg_pmpaddr]

lemma Loads.entries (h : Loads l es) (hlen : es.length ≤ 16) :
    (loadPmpcfg l).entries = es ++ List.replicate (16 - es.length) offEntry := by
  rw [← ofFn_getD es offEntry hlen, PmpRegisters.entries]
  congr 1
  funext i
  rw [loadPmpcfg_cfg, loadPmpcfg_pmpaddr, h.pmpcfg, h.pmpaddr]

def Pmp.entries {α : Type} (pmp : Pmp α) : List (PmpEntry α) := pmp.reserveList ++ pmp.torEntries

lemma pmpLoad_loads (regs : PmpRegisters) (hlen : pmp.entries.length ≤ 16) :
    ∃ l, pmpLoad (some pmp) regs = some (loadPmpcfg l) ∧ Loads l pmp.entries := by
  rw [Pmp.entries, length_append] at hlen
  obtain ⟨l₁, hl₁, hes₁⟩ := loads_nil.foldlM pmp.reserveList (by simpa using by omega)
  rw [nil_append] at hes₁
  obtain ⟨l₂, hl₂, hes₂⟩ := hes₁.foldlM pmp.torEntries hlen
  refine ⟨l₂, ?_, hes₂⟩
  simp [pmpLoad, loadReserve_eq, loadTorList_eq, hl₁, hl₂]

lemma pmpLoad_entries (regs : PmpRegisters) (hlen : pmp.entries.length ≤ 16) :
    ∃ regs' n, pmpLoad (some pmp) regs = some regs' ∧
      regs'.entries = pmp.entries ++ List.replicate n offEntry := by
  obtain ⟨l, hload, hl⟩ := pmpLoad_loads pmp regs hlen
  exact ⟨loadPmpcfg l, _, hload, hl.entries hlen⟩

variable (r : Region)

/-- What the two entries of a region cover: the end wraps at the top of the address space. -/
def Region.Reach (r : Region) (word : Nat) : Prop :=
  word = r.start.toNat / 4 ∨
    r.start.toNat / 4 ≤ word ∧ word < (r.start.toNat + r.size.toNat) % 2 ^ 32 / 4

instance (r : Region) (word : Nat) : Decidable (r.Reach word) :=
  inferInstanceAs (Decidable (_ ∨ _))

lemma grants_off (n : Nat) (prev : UInt32) (word : Nat) (access : Access) :
    grants prev (List.replicate n offEntry) word access = false := by
  induction n generalizing prev with
  | zero => rfl
  | succ n ih =>
    rw [replicate_succ, grants]
    exact ih _

variable {entry : PmpEntry}

lemma matches_na4 (h : entry.pmpcfg &&& pmpTypeMask = pmpNa4) (prev : UInt32) (word : Nat) :
    entry.matches prev word ↔ word = entry.pmpaddr.toNat := by
  simp [PmpEntry.matches, h, pmpOff, pmpTor, pmpNa4]

lemma matches_tor (h : entry.pmpcfg &&& pmpTypeMask = pmpTor) (prev : UInt32) (word : Nat) :
    entry.matches prev word ↔ prev.toNat ≤ word ∧ word < entry.pmpaddr.toNat := by
  simp [PmpEntry.matches, h, pmpOff, pmpTor]

variable {flag : UInt8}

lemma flag_cases {P : UInt8 → Prop} (h : ∀ n : Fin 8, P (UInt8.ofNat n)) (hlt : flag.toNat < 8) :
    P flag := by
  have hflag := h ⟨flag.toNat, hlt⟩
  rwa [UInt8.ofNat_toNat] at hflag

lemma na4_type : (pmpNa4 ||| r.flag) &&& pmpTypeMask = pmpNa4 :=
  flag_cases (P := fun flag => (pmpNa4 ||| flag) &&& pmpTypeMask = pmpNa4) (by decide) r.flag_lt

lemma tor_type : (pmpTor ||| r.flag) &&& pmpTypeMask = pmpTor :=
  flag_cases (P := fun flag => (pmpTor ||| flag) &&& pmpTypeMask = pmpTor) (by decide) r.flag_lt

lemma or_bit {mode : UInt8} (hmode : mode = pmpNa4 ∨ mode = pmpTor) (r : Region)
    (access : Access) : (mode ||| r.flag) &&& access.bit = r.flag &&& access.bit := by
  refine flag_cases (P := fun flag => (mode ||| flag) &&& access.bit = flag &&& access.bit) ?_
    r.flag_lt
  obtain rfl | rfl := hmode <;> cases access <;> decide

lemma toPmpAddr_toNat (addr : UInt32) : (toPmpAddr addr).toNat = addr.toNat / 4 := by
  simp [toPmpAddr, shiftRight_eq_div_pow]

lemma alignMenUp_aligned {n : UInt32} (h : n.toNat % 4 = 0) : alignMenUp n 4 = n := by
  have hn := n.toNat_lt
  have hsum : (n + 4 - 1).toNat = n.toNat + 3 := by
    rw [UInt32.toNat_sub, UInt32.toNat_add]
    simp
    omega
  apply UInt32.toNat_inj.mp
  simp [alignMenUp, hsum]
  omega

lemma na4Entry_matches (prev : UInt32) (word : Nat) :
    (na4Entry r.flag r.start).matches prev word ↔ word = r.start.toNat / 4 := by
  rw [matches_na4 (na4_type r), na4Entry, toPmpAddr_toNat]

variable {r : Region}

lemma torEntry_matches (h : r.Aligned) (word : Nat) :
    (torEntry r.flag (r.start + r.size)).matches (na4Entry r.flag r.start).pmpaddr word ↔
      r.start.toNat / 4 ≤ word ∧ word < (r.start.toNat + r.size.toNat) % 2 ^ 32 / 4 := by
  obtain ⟨hstart, hsize, -⟩ := h
  have hend : (r.start + r.size).toNat % 4 = 0 := by
    rw [UInt32.toNat_add]
    omega
  rw [matches_tor (tor_type r), torEntry, na4Entry, alignMenUp_aligned hend, toPmpAddr_toNat,
    toPmpAddr_toNat, UInt32.toNat_add]

lemma grants_region (h : r.Aligned) (prev : UInt32) (es : List PmpEntry) (word : Nat)
    (access : Access) :
    grants prev (r.entries ++ es) word access ↔
      if r.Reach word then r.Allows access
      else grants (torEntry r.flag (r.start + r.size)).pmpaddr es word access := by
  have hna4 := na4Entry_matches r prev word
  have htor := torEntry_matches h word
  rw [entries, cons_append, cons_append, nil_append, grants, grants]
  by_cases hfirst : word = r.start.toNat / 4
  · have hreach : r.Reach word := Or.inl hfirst
    rw [if_pos (hna4.mpr hfirst), if_pos hreach, decide_eq_true_iff, Allows]
    exact not_congr (iff_of_eq (congrArg (· = 0) (or_bit (.inl rfl) r access)))
  · rw [if_neg (mt hna4.mp hfirst)]
    by_cases hrest : r.start.toNat / 4 ≤ word ∧
        word < (r.start.toNat + r.size.toNat) % 2 ^ 32 / 4
    · have hreach : r.Reach word := Or.inr hrest
      rw [if_pos (htor.mpr hrest), if_pos hreach, decide_eq_true_iff, Allows]
      exact not_congr (iff_of_eq (congrArg (· = 0) (or_bit (.inr rfl) r access)))
    · have hreach : ¬ r.Reach word := not_or.mpr ⟨hfirst, hrest⟩
      rw [if_neg (mt htor.mp hrest), if_neg hreach]

lemma grants_regions {rs : List Region} (h : ∀ r ∈ rs, r.Aligned) (prev : UInt32) (n word : Nat)
    (access : Access) :
    grants prev (rs.flatMap entries ++ List.replicate n offEntry) word access ↔
      ∃ r, rs.find? (fun r => r.Reach word) = some r ∧ r.Allows access := by
  induction rs generalizing prev with
  | nil => simp [grants_off]
  | cons r rs ih =>
    rw [flatMap_cons, append_assoc, grants_region (h r mem_cons_self),
      ih fun s hs => h s (mem_cons_of_mem r hs)]
    by_cases hr : r.Reach word
    · simp [hr]
    · simp [hr]

structure Configured (pmp : Pmp) (reserved added : List Region) : Prop where
  reserve : pmp.reserveList = reserved.flatMap entries
  tor : pmp.torEntries = added.flatMap entries
  count : pmp.count.toNat = 2 * (reserved.length + added.length)
  le : reserved.length + added.length ≤ 8

lemma length_entries (rs : List Region) : (rs.flatMap entries).length = 2 * rs.length := by
  induction rs with
  | nil => rfl
  | cons r rs ih =>
    rw [flatMap_cons, length_append, ih, length_cons, entries]
    simp
    omega

lemma toNat_add_two {n : UInt8} (h : n.toNat ≤ 14) : (n + 2).toNat = n.toNat + 2 := by
  rw [UInt8.toNat_add]
  exact mod_eq_of_lt (by simp; omega)

lemma map_range_update {α : Type} (f : Nat → α) (n : Nat) (a b : α) :
    (List.range (n + 2)).map (Function.update (Function.update f n a) (n + 1) b) =
      (List.range n).map f ++ [a, b] := by
  rw [List.range_succ, List.range_succ]
  simp only [map_append, map_cons, map_nil, append_assoc, cons_append, nil_append]
  congr 1
  · apply map_congr_left
    intro i hi
    have hlt := mem_range.mp hi
    rw [update_of_ne (by omega), update_of_ne (by omega)]
  · rw [update_of_ne (by omega), update_self, update_self]

lemma regionIf_length_le (start size : UInt32) (flag : UInt8) (h : flag.toNat < 8) :
    (regionIf start size flag h).length ≤ 1 := by
  rw [regionIf]
  split <;> simp

lemma Configured.reserveEntries {p : Pmp × Nat} {rs : List Region} (h : Configured p.1 rs [])
    (hindex : p.2 = p.1.reserve.toNat) (hrs : rs.length < 3) (hf : flag.toNat < 8)
    {start stop size : UInt32} (hstop : stop = start + size) :
    Configured (reserveEntries flag start stop size p).1 (rs ++ regionIf start size flag hf) [] ∧
      (Arch.reserveEntries flag start stop size p).2 =
        (Arch.reserveEntries flag start stop size p).1.reserve.toNat := by
  obtain ⟨pmp, index⟩ := p
  have hlen : pmp.reserve.toNat = 2 * rs.length := by
    rw [← length_entries, ← h.reserve, Pmp.reserveList, length_map, length_range]
  have hcount := h.count
  simp only [length_nil, Nat.add_zero] at hcount hindex
  rw [Arch.reserveEntries, regionIf]
  by_cases hsize : size > 0
  · simp only [if_pos hsize]
    refine ⟨⟨?_, h.tor, ?_, ?_⟩, ?_⟩
    · rw [Pmp.reserveList, hindex, toNat_add_two (by omega), map_range_update,
        flatMap_append, ← h.reserve, hstop]
      rfl
    · rw [toNat_add_two (by omega), hcount]
      simp
      omega
    · simp
      omega
    · rw [toNat_add_two (by omega), hindex]
  · simp only [if_neg hsize, append_nil]
    exact ⟨h, hindex⟩

lemma configured_zero : Configured pmpZero [] [] where
  reserve := rfl
  tor := rfl
  count := rfl
  le := by decide

variable {stackStart stackSize : UInt32} {user : Userspace}

lemma pmpInitIsolation_configured {malloc : Bool} {pmp : Pmp}
    (h : (pmpInitIsolation user stackStart stackSize malloc).1 = some pmp) :
    Configured pmp (reservedRegions user stackStart stackSize) [] := by
  rw [pmpInitIsolation] at h
  split at h
  · cases h
  cases h
  have hstop (start stop : UInt32) : stop = start + (stop - start) := by
    rw [UInt32.add_comm, UInt32.sub_add_cancel]
  have htext := regionIf_length_le user.textStart (user.textEnd - user.textStart)
    (pmpR ||| pmpX) (by decide)
  have hsram := regionIf_length_le user.sramStart (user.sramEnd - user.sramStart)
    (pmpR ||| pmpW) (by decide)
  obtain ⟨h₁, hindex₁⟩ := configured_zero.reserveEntries (p := (pmpZero, 0)) rfl (by decide)
    (by decide : (pmpR ||| pmpX).toNat < 8) (hstop user.textStart user.textEnd)
  rw [nil_append] at h₁
  obtain ⟨h₂, hindex₂⟩ := h₁.reserveEntries hindex₁ (by omega)
    (by decide : (pmpR ||| pmpW).toNat < 8) (hstop user.sramStart user.sramEnd)
  exact (h₂.reserveEntries hindex₂ (by simp; omega)
    (by decide : (pmpR ||| pmpW ||| pmpX).toNat < 8) rfl).1

variable {pmp pmp' : Pmp} {add : AddTor}

lemma pmpAddTorRegion_cases
    (h : (pmpAddTorRegion (some pmp) add.start add.size add.type add.malloc).1 = some pmp') :
    (add.region = [] ∧ pmp' = pmp) ∨
    (∃ r, add.region = [r] ∧ pmp.count.toNat ≤ 14 ∧ pmp'.count = pmp.count + 2 ∧
      pmp'.reserveList = pmp.reserveList ∧ pmp'.torEntries = r.entries ++ pmp.torEntries) := by
  simp only [pmpAddTorRegion, insertTor] at h
  rw [AddTor.region, regionIf]
  by_cases hsize : add.size = 0
  · rw [if_pos hsize] at h
    cases h
    simp [hsize]
  rw [if_neg hsize] at h
  have hpos : add.size > 0 := UInt32.pos_iff_ne_zero.mpr hsize
  by_cases hmalloc : add.malloc = false
  · rw [if_pos hmalloc] at h
    cases h
    simp [hmalloc]
  rw [if_neg hmalloc] at h
  rw [Bool.not_eq_false] at hmalloc
  by_cases hcount : pmp.count.toNat ≤ pmpMaxEntryNumber - 2
  · rw [if_pos hcount] at h
    cases h
    rw [if_pos hmalloc, if_pos hpos]
    exact Or.inr ⟨_, rfl, hcount, rfl, rfl, rfl⟩
  · rw [if_neg hcount] at h
    cases h

lemma foldl_addTor_none (adds : List AddTor) : adds.foldl addTor none = none := by
  induction adds with
  | nil => rfl
  | cons add adds ih => exact ih

variable {reserved added : List Region}

lemma Configured.addTor (h : Configured pmp reserved added)
    (hadd : addTor (some pmp) add = some pmp') :
    Configured pmp' reserved (add.region ++ added) := by
  obtain ⟨hregion, rfl⟩ | ⟨r, hregion, hle, hcount, hreserve, htor⟩ := pmpAddTorRegion_cases hadd
  · rwa [hregion, nil_append]
  · have hlen := h.count
    refine ⟨hreserve.trans h.reserve, ?_, ?_, ?_⟩
    · rw [htor, h.tor, hregion, flatMap_append, flatMap_singleton]
    · rw [hcount, toNat_add_two hle, hregion, length_append, length_singleton]
      omega
    · rw [hregion, length_append, length_singleton]
      omega

variable {adds : List AddTor}

lemma Configured.run (h : Configured pmp reserved added)
    (hrun : adds.foldl Arch.addTor (some pmp) = some pmp') :
    ∃ all, Configured pmp' reserved all ∧ List.Perm all (added ++ adds.flatMap AddTor.region) := by
  induction adds generalizing pmp added with
  | nil =>
    cases hrun
    exact ⟨added, h, by simp⟩
  | cons add adds ih =>
    rw [foldl_cons] at hrun
    cases hadd : Arch.addTor (some pmp) add with
    | none => rw [hadd, foldl_addTor_none] at hrun; cases hrun
    | some pmp₁ =>
      rw [hadd] at hrun
      obtain ⟨all, hall, hperm⟩ := ih (h.addTor hadd) hrun
      refine ⟨all, hall, hperm.trans ?_⟩
      rw [flatMap_cons, ← append_assoc]
      exact perm_append_comm.append_right _

variable {word : Nat}

lemma Region.Reach.contains (h : r.Aligned) (hpos : 0 < r.size.toNat) (hr : r.Reach word) :
    r.Contains word := by
  obtain ⟨hstart, hsize, hle⟩ := h
  rw [Contains]
  rcases hr with hr | ⟨hlow, hhigh⟩
  · omega
  · have hmod := mod_le (r.start.toNat + r.size.toNat) (2 ^ 32)
    omega

lemma Region.Contains.reach (h : r.Aligned) (hc : r.Contains word)
    (hend : r.start.toNat + r.size.toNat < 2 ^ 32 ∨ r.size.toNat = 4) : r.Reach word := by
  obtain ⟨hstart, hsize, -⟩ := h
  obtain ⟨hlow, hhigh⟩ := hc
  rcases hend with hend | hend
  · refine Or.inr ⟨by omega, ?_⟩
    rw [mod_eq_of_lt hend]
    omega
  · exact Or.inl (by omega)

lemma Region.Disjoint.symm {r r' : Region} (h : r.Disjoint r') : r'.Disjoint r :=
  fun word hw => h word ⟨hw.2, hw.1⟩

instance : Std.Symm Region.Disjoint where
  symm _ _ h := h.symm

lemma eq_of_contains {rs : List Region} (hd : rs.Pairwise Region.Disjoint) {r r' : Region}
    (hr : r ∈ rs) (hr' : r' ∈ rs) (hc : r.Contains word) (hc' : r'.Contains word) : r = r' := by
  by_contra hne
  exact hd.forall hr hr' hne word ⟨hc, hc'⟩

lemma exists_allows (h : r.flag ≠ 0) : ∃ access, r.Allows access := by
  by_contra hnone
  have hread : r.flag &&& pmpR = 0 := by_contra fun h => hnone ⟨.read, h⟩
  have hwrite : r.flag &&& pmpW = 0 := by_contra fun h => hnone ⟨.write, h⟩
  have hexecute : r.flag &&& pmpX = 0 := by_contra fun h => hnone ⟨.execute, h⟩
  exact h (flag_cases (P := fun flag => flag &&& pmpR = 0 → flag &&& pmpW = 0 →
    flag &&& pmpX = 0 → flag = 0) (by decide) r.flag_lt hread hwrite hexecute)

lemma allows_flag {access : Access} (h : r.Allows access) : r.flag ≠ 0 := by
  intro hzero
  rw [Allows, hzero, UInt8.zero_and] at h
  exact h rfl

section

variable {rs : List Region} (haligned : ∀ r ∈ rs, r.Aligned) (hpos : ∀ r ∈ rs, 0 < r.size.toNat)
  (hd : rs.Pairwise Region.Disjoint)

include haligned hpos hd

lemma find_reach_iff (hr : r ∈ rs) (hc : r.Contains word) :
    (∃ r', rs.find? (fun r => r.Reach word) = some r') ↔ r.Reach word := by
  constructor
  · rintro ⟨r', hfind⟩
    have hreach : r'.Reach word := by simpa using find?_some hfind
    have hmem := mem_of_find?_eq_some hfind
    have hc' := hreach.contains (haligned r' hmem) (hpos r' hmem)
    rwa [eq_of_contains hd hr hmem hc hc']
  · intro hreach
    rw [← Option.isSome_iff_exists, find?_isSome]
    exact ⟨r, hr, by simpa using hreach⟩

lemma find_allows_iff (word : Nat) (access : Access) :
    (∃ r, rs.find? (fun r => r.Reach word) = some r ∧ r.Allows access) ↔
      ∃ r ∈ rs, r.Contains word ∧ r.Reach word ∧ r.Allows access := by
  constructor
  · rintro ⟨r, hfind, hallows⟩
    have hreach : r.Reach word := by simpa using find?_some hfind
    have hmem := mem_of_find?_eq_some hfind
    exact ⟨r, hmem, hreach.contains (haligned r hmem) (hpos r hmem), hreach, hallows⟩
  · rintro ⟨r, hr, hc, hreach, hallows⟩
    obtain ⟨r', hfind⟩ := (find_reach_iff haligned hpos hd hr hc).mpr hreach
    have hreach' : r'.Reach word := by simpa using find?_some hfind
    have hmem := mem_of_find?_eq_some hfind
    have hc' := hreach'.contains (haligned r' hmem) (hpos r' hmem)
    exact ⟨r', hfind, eq_of_contains hd hr hmem hc hc' ▸ hallows⟩

lemma isolates_iff :
    (∀ word access, (∃ r, rs.find? (fun r => r.Reach word) = some r ∧ r.Allows access) ↔
      ∃ r ∈ rs, r.Contains word ∧ r.Allows access) ↔
    ∀ r ∈ rs, r.start.toNat + r.size.toNat < 2 ^ 32 ∨ r.size.toNat = 4 ∨ r.flag = 0 := by
  simp only [find_allows_iff haligned hpos hd]
  constructor
  · intro h r hr
    by_contra hnot
    obtain ⟨hend, hsize, hflag⟩ : r.start.toNat + r.size.toNat = 2 ^ 32 ∧ r.size.toNat ≠ 4 ∧
        r.flag ≠ 0 := by
      have hle := (haligned r hr).2.2
      refine ⟨?_, fun h => hnot (Or.inr (Or.inl h)), fun h => hnot (Or.inr (Or.inr h))⟩
      have := fun h => hnot (Or.inl h)
      omega
    obtain ⟨access, hallows⟩ := exists_allows hflag
    have hal := haligned r hr
    have hp := hpos r hr
    -- the second word of the region
    have hc : r.Contains (r.start.toNat / 4 + 1) := by
      obtain ⟨hstart, hmod, -⟩ := hal
      constructor <;> omega
    obtain ⟨r', hr', hc', hreach, -⟩ := (h _ access).mpr ⟨r, hr, hc, hallows⟩
    rw [← eq_of_contains hd hr hr' hc hc', Reach, hend] at hreach
    omega
  · intro h word access
    constructor
    · rintro ⟨r, hr, hc, -, hallows⟩
      exact ⟨r, hr, hc, hallows⟩
    · rintro ⟨r, hr, hc, hallows⟩
      refine ⟨r, hr, hc, hc.reach (haligned r hr) ?_, hallows⟩
      rcases h r hr with hend | hsize | hflag
      · exact Or.inl hend
      · exact Or.inr hsize
      · exact absurd hflag (allows_flag hallows)

end

lemma regionIf_size_pos {start size : UInt32} {h : flag.toNat < 8}
    (hr : r ∈ regionIf start size flag h) : 0 < r.size.toNat := by
  rw [regionIf] at hr
  split at hr
  · rw [mem_singleton.mp hr]
    exact UInt32.lt_iff_toNat_lt.mp ‹_›
  · cases hr

lemma taskRegions_size_pos (hr : r ∈ taskRegions user stackStart stackSize adds) :
    0 < r.size.toNat := by
  rw [taskRegions, reservedRegions] at hr
  simp only [mem_append, mem_flatMap] at hr
  obtain ((hr | hr) | hr) | ⟨add, -, hr⟩ := hr
  · exact regionIf_size_pos hr
  · exact regionIf_size_pos hr
  · exact regionIf_size_pos hr
  · rw [AddTor.region] at hr
    split at hr
    · exact regionIf_size_pos hr
    · cases hr

theorem pmpLoad_isolates_iff {user : Userspace} {stackStart stackSize : UInt32} {malloc : Bool}
    {adds : List AddTor} {pmp : Pmp} (h : pmpTask user stackStart stackSize malloc adds = some pmp)
    (haligned : ∀ r ∈ taskRegions user stackStart stackSize adds, r.Aligned)
    (hd : (taskRegions user stackStart stackSize adds).Pairwise Region.Disjoint)
    (regs : PmpRegisters) :
    (∃ regs', pmpLoad (some pmp) regs = some regs' ∧ ∀ word access, regs'.Grants word access ↔
      ∃ r ∈ taskRegions user stackStart stackSize adds, r.Contains word ∧ r.Allows access) ↔
    ∀ r ∈ taskRegions user stackStart stackSize adds,
      r.start.toNat + r.size.toNat < 2 ^ 32 ∨ r.size.toNat = 4 ∨ r.flag = 0 := by
  rw [pmpTask] at h
  cases hinit : (pmpInitIsolation user stackStart stackSize malloc).1 with
  | none => rw [hinit, foldl_addTor_none] at h; cases h
  | some pmp₀ =>
    rw [hinit] at h
    obtain ⟨all, hconf, hall⟩ := (pmpInitIsolation_configured hinit).run h
    have hperm : List.Perm (reservedRegions user stackStart stackSize ++ all)
        (taskRegions user stackStart stackSize adds) := hall.append_left _
    obtain ⟨regs', n, hload, hentries⟩ := pmpLoad_entries pmp regs (by
      have hle := hconf.le
      rw [Pmp.entries, length_append, hconf.reserve, hconf.tor, length_entries, length_entries]
      omega)
    rw [Pmp.entries, hconf.reserve, hconf.tor, ← flatMap_append] at hentries
    have hgrants (word : Nat) (access : Access) : regs'.Grants word access ↔
        ∃ r, (reservedRegions user stackStart stackSize ++ all).find? (fun r => r.Reach word) =
          some r ∧ r.Allows access := by
      rw [PmpRegisters.Grants, hentries]
      exact grants_regions (fun r hr => haligned r (hperm.mem_iff.mp hr)) 0 n word access
    rw [hload]
    simp only [Option.some.injEq, exists_eq_left', hgrants, ← hperm.mem_iff]
    exact isolates_iff (fun r hr => haligned r (hperm.mem_iff.mp hr))
      (fun r hr => taskRegions_size_pos (hperm.mem_iff.mp hr))
      ((hperm.pairwise_iff fun h => h.symm).mpr hd)

lemma Region.disjoint_of_le {r r' : Region}
    (h : r.start.toNat + r.size.toNat ≤ r'.start.toNat) : r.Disjoint r' := by
  rintro word ⟨⟨-, hr⟩, ⟨hr', -⟩⟩
  omega

def userSample : Userspace where
  textStart := 0x08000000
  textEnd := 0x08001000
  sramStart := 0x20000000
  sramEnd := 0x20000400

def heapSample (start : UInt32) : AddTor where
  start := start
  size := 16
  type := .heap
  malloc := true

theorem pmpLoad_isolates_iff_sample :
    ∃ pmp regs, pmpTask userSample 0x20001000 0x400 true [heapSample 0x30000000] = some pmp ∧
      pmpLoad (some pmp) pmpClear = some regs ∧ ∀ word access, regs.Grants word access ↔
        ∃ r ∈ taskRegions userSample 0x20001000 0x400 [heapSample 0x30000000],
          r.Contains word ∧ r.Allows access := by
  obtain ⟨pmp, hpmp⟩ : ∃ pmp,
      pmpTask userSample 0x20001000 0x400 true [heapSample 0x30000000] = some pmp := ⟨_, rfl⟩
  have hordered : (taskRegions userSample 0x20001000 0x400 [heapSample 0x30000000]).Pairwise
      fun r r' => r.start.toNat + r.size.toNat ≤ r'.start.toNat := by decide +kernel
  obtain ⟨regs, hregs⟩ := (pmpLoad_isolates_iff hpmp (by decide +kernel)
    (hordered.imp Region.disjoint_of_le) pmpClear).mpr (by decide +kernel)
  exact ⟨pmp, regs, hpmp, hregs⟩

theorem pmpLoad_denies_top :
    ∃ pmp regs, pmpTask userSample 0x20001000 0x400 true [heapSample 0xFFFFFFF0] = some pmp ∧
      (∀ r ∈ taskRegions userSample 0x20001000 0x400 [heapSample 0xFFFFFFF0], r.Aligned) ∧
      (taskRegions userSample 0x20001000 0x400 [heapSample 0xFFFFFFF0]).Pairwise
        Region.Disjoint ∧
      (∃ r ∈ taskRegions userSample 0x20001000 0x400 [heapSample 0xFFFFFFF0],
        r.Contains 0x3FFFFFFD ∧ r.Allows .read) ∧
      pmpLoad (some pmp) pmpClear = some regs ∧ ¬ regs.Grants 0x3FFFFFFD .read := by
  have hordered : (taskRegions userSample 0x20001000 0x400 [heapSample 0xFFFFFFF0]).Pairwise
      fun r r' => r.start.toNat + r.size.toNat ≤ r'.start.toNat := by decide +kernel
  exact ⟨_, _, rfl, by decide +kernel, hordered.imp Region.disjoint_of_le,
    by decide +kernel, rfl, by rw [PmpRegisters.Grants]; decide +kernel⟩

end Xiuos.Arch
