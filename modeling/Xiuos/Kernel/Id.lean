import Xiuos.Lib.Ring
import Xiuos.Lib.Sorted

/-! `id.c`: the ids of the objects of the kernel, and their table. -/

namespace Xiuos.Kernel
open Lib Function List Nat Option

/-- An object is its address.  Links that are still zero are taken to point to themselves, which
is what `InitDoubleLinkList` makes of the heads. -/
structure IdManager where
  idMax : UInt16
  hoffset : UInt16
  idMap : Nat → UInt8
  htable : Links (Nat ⊕ Nat)
  id : Nat → UInt16

inductive Found
  | object (a : Nat)
  | missing
  | freed
  deriving DecidableEq

inductive Inserted
  | done (m : IdManager) (id : UInt16)
  | full
  | freed

variable (m : IdManager) (live : List Nat) (a : Nat) (id : UInt16) (fuel : Nat)

namespace IdManager

def declare (idMax hoffset : UInt16) : IdManager where
  idMax
  hoffset
  idMap _ := 0
  htable := { next := fun a => a, prev := fun a => a }
  id _ := 0

def lowOnes : Nat → UInt8 → Nat
  | 0, _ => 0
  | n + 1, entry => if entry &&& 1 = 1 then lowOnes n (entry >>> 1) + 1 else 0

def mask (id : Nat) : UInt8 := 1 <<< UInt8.ofNat (id % 8)

def allocId (m : IdManager) : Option (IdManager × UInt16) := do
  let index ← (List.range ((m.idMax.toNat + 7) / 8)).find? fun index => m.idMap index ≠ 0xff
  let id := index * 8 + lowOnes 8 (m.idMap index)
  if id ≥ m.idMax.toNat then none
  else some ({ m with idMap := update m.idMap index (m.idMap index ||| mask id) }, UInt16.ofNat id)

def freeId (m : IdManager) (id : UInt16) : IdManager :=
  let index := id.toNat / 8
  { m with idMap := update m.idMap index (m.idMap index &&& ~~~ mask id.toNat) }

def head (m : IdManager) (id : UInt16) : Nat := (id % m.hoffset).toNat

def clear (m : IdManager) (a : Nat) : IdManager :=
  { m with htable := m.htable.init (.inr a), id := update m.id a 0 }

def insertObj (m : IdManager) (a : Nat) : IdManager :=
  { m with htable := m.htable.insertAfter (.inl (m.head (m.id a))) (.inr a) }

def getObj (m : IdManager) (live : List Nat) (fuel : Nat) (id : UInt16) : Option Found := do
  let h := Sum.inl (m.head id)
  let node ← m.htable.find h (fun node => match node with
    | .inr a => a ∉ live ∨ m.id a = id
    | .inl _ => false) fuel (m.htable.next h)
  some (match node with
    | .inr a => if a ∈ live then .object a else .freed
    | .inl _ => .missing)

def removeObj (m : IdManager) (a : Nat) : IdManager :=
  { m with htable := m.htable.remove (.inr a) }

def idInsertObj (m : IdManager) (live : List Nat) (a : Nat) : Inserted :=
  match m.allocId with
  | none => .full
  | some (m, id) =>
    let m := { m with id := update m.id a id }
    match m.htable.next (.inl (m.head id)) with
    | .inr b => if b ∈ live then .done (m.insertObj a) id else .freed
    | .inl _ => .done (m.insertObj a) id

def idGetObj (m : IdManager) (live : List Nat) (fuel : Nat) (id : UInt16) : Option Found :=
  if id ≥ m.idMax then some .missing else m.getObj live fuel id

def idRemoveObj (m : IdManager) (live : List Nat) (fuel : Nat) (id : UInt16) :
    Option IdManager := do
  let found ← m.idGetObj live fuel id
  match found with
  | .object a =>
    let m := (m.freeId (m.id a)).removeObj a
    some { m with id := update m.id a 0xffff }
  | .missing => some m
  | .freed => none

def Used (m : IdManager) (i : Nat) : Prop := (m.idMap (i / 8)).toBitVec.getLsbD (i % 8) = true

end IdManager

lemma lowOnes_spec : ∀ entry : UInt8, entry ≠ 0xff → IdManager.lowOnes 8 entry < 8 ∧
    entry.toBitVec.getLsbD (IdManager.lowOnes 8 entry) = false ∧
    ∀ j < 8, j < IdManager.lowOnes 8 entry → entry.toBitVec.getLsbD j = true := by decide +kernel

lemma getLsbD_full {j : Nat} (hj : j < 8) : (0xff : UInt8).toBitVec.getLsbD j = true := by
  have h : ∀ j < 8, (0xff : UInt8).toBitVec.getLsbD j = true := by decide
  exact h j hj

lemma mask_bit (id : Nat) {j : Nat} (hj : j < 8) :
    (IdManager.mask id).toBitVec.getLsbD j = decide (j = id % 8) := by
  have h : ∀ i < 8, ∀ j < 8, ((1 : UInt8) <<< UInt8.ofNat i).toBitVec.getLsbD j =
    decide (j = i) := by decide +kernel
  exact h _ (mod_lt _ (by decide)) j hj

structure IdInv (m : IdManager) (live : List Nat) : Prop where
  nodup : live.Nodup
  ring : ∃ lists, Rings m.htable lists ∧ ∀ h a, a ∈ lists h ↔ a ∈ live ∧ m.head (m.id a) = h
  bound : ∀ a ∈ live, m.id a < m.idMax
  inj : ∀ a ∈ live, ∀ b ∈ live, m.id a = m.id b → a = b
  used : ∀ i, m.Used i ↔ ∃ a ∈ live, (m.id a).toNat = i

section
variable {m m' : IdManager} {id : UInt16}

lemma allocId_none (h : m.allocId = none) (i : Nat) (hi : i < m.idMax.toNat) : m.Used i := by
  have hmod : i % 8 < 8 := mod_lt _ (by decide)
  cases hindex : (range ((m.idMax.toNat + 7) / 8)).find? fun index => m.idMap index ≠ 0xff with
  | none =>
    have hfull : m.idMap (i / 8) = 0xff := by
      simpa using find?_eq_none.mp hindex (i / 8) (mem_range.mpr (by omega))
    rw [IdManager.Used, hfull]
    exact getLsbD_full hmod
  | some index =>
    obtain ⟨hbyte, -, hbefore⟩ := find?_range_eq_some.mp hindex
    obtain ⟨hlt, -, hones⟩ := lowOnes_spec (m.idMap index) (by simpa using hbyte)
    have hge : m.idMax.toNat ≤ index * 8 + IdManager.lowOnes 8 (m.idMap index) := by
      rw [IdManager.allocId, hindex] at h
      simpa using h
    obtain hless | heq : i / 8 < index ∨ i / 8 = index := by omega
    · have hfull : m.idMap (i / 8) = 0xff := by simpa using hbefore _ hless
      rw [IdManager.Used, hfull]
      exact getLsbD_full hmod
    · rw [IdManager.Used, heq]
      exact hones _ hmod (by omega)

lemma allocId_some (h : m.allocId = some (m', id)) :
    id < m.idMax ∧ ¬ m.Used id.toNat ∧ (∀ i, m'.Used i ↔ m.Used i ∨ i = id.toNat) ∧
      ∃ idMap, m' = { m with idMap } := by
  obtain ⟨index, hindex, h⟩ := bind_eq_some_iff.mp h
  obtain ⟨hlt, h⟩ := ite_none_left_eq_some.mp h
  cases h
  have hbyte : m.idMap index ≠ 0xff := by simpa using find?_some hindex
  obtain ⟨hones, hfree, -⟩ := lowOnes_spec _ hbyte
  have hmax := m.idMax.toNat_lt
  have hid : (UInt16.ofNat (index * 8 + IdManager.lowOnes 8 (m.idMap index))).toNat =
      index * 8 + IdManager.lowOnes 8 (m.idMap index) := by
    rw [UInt16.toNat_ofNat', mod_eq_of_lt (by omega)]
  have hdiv : (index * 8 + IdManager.lowOnes 8 (m.idMap index)) / 8 = index := by omega
  have hmod : (index * 8 + IdManager.lowOnes 8 (m.idMap index)) % 8 =
      IdManager.lowOnes 8 (m.idMap index) := by omega
  refine ⟨?_, ?_, fun i => ?_, _, rfl⟩
  · rw [UInt16.lt_iff_toNat_lt, hid]
    omega
  · rw [hid, IdManager.Used, hdiv, hmod, hfree]
    simp
  · rw [hid, IdManager.Used, IdManager.Used]
    dsimp only
    by_cases hi : i / 8 = index
    · rw [hi, update_self, UInt8.toBitVec_or, BitVec.getLsbD_or, Bool.or_eq_true,
        mask_bit _ (mod_lt _ (by decide)), decide_eq_true_iff, hmod]
      refine or_congr_right ?_
      omega
    · have hne : i ≠ index * 8 + IdManager.lowOnes 8 (m.idMap index) := by omega
      rw [update_of_ne hi]
      simp [hne]

lemma freeId_used (i : Nat) : (m.freeId id).Used i ↔ m.Used i ∧ i ≠ id.toNat := by
  rw [IdManager.Used, IdManager.Used, IdManager.freeId]
  dsimp only
  by_cases hi : i / 8 = id.toNat / 8
  · rw [hi, update_self, UInt8.toBitVec_and, UInt8.toBitVec_not, BitVec.getLsbD_and,
      Bool.and_eq_true, BitVec.getLsbD_not, mask_bit _ (mod_lt _ (by decide))]
    have hmod : i % 8 < 8 := mod_lt _ (by decide)
    have heq : i % 8 = id.toNat % 8 ↔ i = id.toNat := by omega
    simp [hmod, heq]
  · have hne : i ≠ id.toNat := fun h => hi (h ▸ rfl)
    rw [update_of_ne hi]
    simp [hne]

end

lemma live_of_idGetObj {m : IdManager} {live : List Nat} {fuel a : Nat} {id : UInt16}
    (h : m.idGetObj live fuel id = some (.object a)) : a ∈ live := by
  rw [IdManager.idGetObj] at h
  split at h
  · cases h
  · obtain ⟨node, -, h⟩ := bind_eq_some_iff.mp h
    cases node with
    | inl => cases h
    | inr b =>
      have h := Option.some.inj h
      dsimp only at h
      split at h
      · cases h
        assumption
      · cases h

def IdManager.lookup (m : IdManager) (live : List Nat) (id : UInt16) : Found :=
  match live.find? fun a => m.id a = id with
  | some a => .object a
  | none => .missing

namespace IdInv
variable {m m' : IdManager} {live : List Nat} {a : Nat} {id : UInt16} (hi : IdInv m live)
include hi

lemma lookup_of_mem (ha : a ∈ live) : m.lookup live (m.id a) = .object a := by
  cases hfind : live.find? fun b => m.id b = m.id a with
  | none => simpa using find?_eq_none.mp hfind a ha
  | some b =>
    have hid : m.id b = m.id a := by simpa using find?_some hfind
    rw [IdManager.lookup, hfind, hi.inj b (mem_of_find?_eq_some hfind) a ha hid]

omit hi in
lemma lookup_of_forall (h : ∀ a ∈ live, m.id a ≠ id) : m.lookup live id = .missing := by
  have hfind : (live.find? fun a => m.id a = id) = none := by
    rw [find?_eq_none]
    intro a ha
    simp [h a ha]
  rw [IdManager.lookup, hfind]

omit hi in
lemma lookup_cases (m : IdManager) (live : List Nat) (id : UInt16) :
    m.lookup live id = .missing ∨ ∃ a ∈ live, m.id a = id ∧ m.lookup live id = .object a := by
  rw [IdManager.lookup]
  cases hfind : live.find? fun a => m.id a = id with
  | none => exact .inl rfl
  | some a =>
    exact .inr ⟨a, mem_of_find?_eq_some hfind, by simpa using find?_some hfind, rfl⟩

lemma idGetObj (id : UInt16) :
    Returns (fun fuel => m.idGetObj live fuel id) fun found => found = m.lookup live id := by
  simp only [IdManager.idGetObj]
  by_cases hmax : id ≥ m.idMax
  · simp only [hmax, if_true]
    refine .pure (lookup_of_forall fun a ha hid => ?_).symm
    exact absurd (hid ▸ hi.bound a ha) (UInt16.not_lt.mpr hmax)
  simp only [hmax, if_false, IdManager.getObj]
  obtain ⟨lists, hr, hmem⟩ := hi.ring
  refine (hr.find_returns (m.head id) _).bind ?_
  rintro _ rfl
  refine .pure ?_
  -- all objects of the list are live, so the search stops at the id
  have hlive : ∀ a ∈ lists (m.head id), (!decide (a ∉ live ∨ m.id a = id)) =
    !decide (m.id a = id) := by
    intro a ha
    simp [((hmem _ a).mp ha).1]
  rw [dropWhile_congr hlive]
  cases hdrop : (lists (m.head id)).dropWhile fun a => !decide (m.id a = id) with
  | nil =>
    refine (lookup_of_forall fun a ha hid => ?_).symm
    have := dropWhile_eq_nil_iff.mp hdrop a ((hmem _ a).mpr ⟨ha, by rw [hid]⟩)
    simp [hid] at this
  | cons a as =>
    have hid : m.id a = id := by
      have := head?_dropWhile_not (fun a => !decide (m.id a = id)) (lists (m.head id))
      simpa [hdrop] using this
    have ha : a ∈ live := by
      have : a ∈ lists (m.head id) := (dropWhile_sublist _).subset (hdrop ▸ mem_cons_self)
      exact ((hmem _ a).mp this).1
    rw [← hid, hi.lookup_of_mem ha]
    simp [Links.entry, ha]

lemma clear (ha : a ∉ live) : IdInv (m.clear a) live := by
  obtain ⟨lists, hr, hmem⟩ := hi.ring
  have hself := hr.self a fun h hm => ha ((hmem h a).mp hm).1
  have hne : ∀ b ∈ live, b ≠ a := fun b hb h => ha (h ▸ hb)
  have hid : ∀ b ∈ live, (m.clear a).id b = m.id b := fun b hb => update_of_ne (hne b hb) _ _
  refine ⟨hi.nodup, ⟨lists, ?_, fun h b => (hmem h b).trans ?_⟩, fun b hb => ?_,
    fun b hb c hc => ?_,
    fun i => (hi.used i).trans ?_⟩
  · rw [IdManager.clear, Links.init_of_self hself.1 hself.2]
    exact hr
  · exact and_congr_right fun hb => by rw [hid b hb]; rfl
  · rw [hid b hb]
    exact hi.bound b hb
  · rw [hid b hb, hid c hc]
    exact hi.inj b hb c hc
  · exact exists_congr fun b => and_congr_right fun hb => by rw [hid b hb]

lemma allocId_ne_none (hlen : live.length < m.idMax.toNat) : m.allocId ≠ none := by
  intro h
  have hsub : range m.idMax.toNat ⊆ live.map fun a => (m.id a).toNat := by
    intro i hrange
    obtain ⟨a, ha, hid⟩ := (hi.used i).mp (allocId_none h i (mem_range.mp hrange))
    exact List.mem_map.mpr ⟨a, ha, hid⟩
  have hle := (nodup_range.subperm hsub).length_le
  rw [length_range, length_map] at hle
  omega

lemma insert (ha : a ∉ live) (h : m.allocId = some (m', id)) :
    m.idInsertObj (a :: live) a = .done ({ m' with id := update m'.id a id }.insertObj a) id ∧
      IdInv ({ m' with id := update m'.id a id }.insertObj a) (a :: live) := by
  obtain ⟨hlt, hfree, hused, idMap, rfl⟩ := allocId_some h
  obtain ⟨lists, hr, hmem⟩ := hi.ring
  have hne : ∀ b ∈ live, b ≠ a := fun b hb h => ha (h ▸ hb)
  have hid : ∀ b ∈ live, update m.id a id b = m.id b := fun b hb => update_of_ne (hne b hb) _ _
  have hfresh : ∀ b ∈ live, m.id b ≠ id := fun b hb heq =>
    hfree ((hi.used _).mpr ⟨b, hb, by rw [heq]⟩)
  have hnot : ∀ h, a ∉ lists h := fun h hm => ha ((hmem h a).mp hm).1
  constructor
  · rw [IdManager.idInsertObj, h]
    have hnext := (hr.seg (m.head id)).next_eq
    cases hlist : lists (m.head id) with
    | nil =>
      rw [hlist] at hnext
      simp [IdManager.head, Links.entry] at hnext ⊢
      simp [hnext]
    | cons b bs =>
      rw [hlist] at hnext
      have hb : b ∈ live := ((hmem (m.head id) b).mp (by simp [hlist])).1
      simp [IdManager.head, Links.entry] at hnext ⊢
      simp [hnext, hb]
  have hself : update m.id a id a = id := update_self _ _ _
  refine ⟨nodup_cons.mpr ⟨ha, hi.nodup⟩, ⟨update lists (m.head id)
    (a :: lists (m.head id)), ?_, fun h b => ?_⟩, fun b hb => ?_, fun b hb c hc heq => ?_,
    fun i => (hused i).trans ?_⟩
  · change Rings (m.htable.insertAfter (.inl (m.head (update m.id a id a))) (.inr a)) _
    rw [hself]
    exact hr.insertAfter_head hnot _
  · change _ ↔ b ∈ a :: live ∧ m.head (update m.id a id b) = h
    have hinsert : b ∈ update lists (m.head id) ([] ++ a :: lists (m.head id)) h ↔
        (h = m.head id ∧ b = a) ∨ b ∈ lists h := Rings.mem_update_insert (nil_append _).symm
    rw [nil_append] at hinsert
    rw [hinsert, hmem, mem_cons]
    by_cases hb : b = a
    · subst hb
      simp [ha, eq_comm]
    · simp [hb]
  · change update m.id a id b < m.idMax
    obtain rfl | hb' := mem_cons.mp hb
    · rwa [hself]
    · rw [hid b hb']
      exact hi.bound b hb'
  · change update m.id a id b = update m.id a id c at heq
    obtain rfl | hb' := mem_cons.mp hb
    · obtain rfl | hc' := mem_cons.mp hc
      · rfl
      · rw [hself, hid c hc'] at heq
        exact absurd heq.symm (hfresh c hc')
    · obtain rfl | hc' := mem_cons.mp hc
      · rw [hself, hid b hb'] at heq
        exact absurd heq (hfresh b hb')
      · rw [hid b hb', hid c hc'] at heq
        exact hi.inj b hb' c hc' heq
  · change _ ↔ ∃ b ∈ a :: live, (update m.id a id b).toNat = i
    rw [hi.used]
    constructor
    · rintro (⟨b, hb, heq⟩ | rfl)
      · exact ⟨b, mem_cons_of_mem a hb, by rw [hid b hb, heq]⟩
      · exact ⟨a, mem_cons_self, by rw [hself]⟩
    · rintro ⟨b, hb, heq⟩
      obtain rfl | hb := mem_cons.mp hb
      · exact .inr (by rw [← heq, hself])
      · exact .inl ⟨b, hb, by rw [← heq, hid b hb]⟩

lemma remove (ha : a ∈ live) :
    Returns (fun fuel => m.idRemoveObj live fuel (m.id a)) fun m' =>
      IdInv m' (live.erase a) ∧ ∀ b ≠ a, m'.id b = m.id b := by
  obtain ⟨lists, hr, hmem⟩ := hi.ring
  simp only [IdManager.idRemoveObj]
  refine (hi.idGetObj (m.id a)).bind ?_
  rintro _ rfl
  rw [hi.lookup_of_mem ha]
  have hid : ∀ b ≠ a, update m.id a 0xffff b = m.id b := fun b hb => update_of_ne hb _ _
  have herase : ∀ b, b ∈ live.erase a ↔ b ≠ a ∧ b ∈ live := fun b => hi.nodup.mem_erase_iff
  refine .pure ⟨⟨hi.nodup.erase a, ⟨_, hr.remove a, fun h b => ?_⟩, fun b hb => ?_,
    fun b hb c hc heq => ?_, fun i => (freeId_used i).trans ?_⟩, hid⟩
  · change b ∈ (lists h).erase a ↔ b ∈ live.erase a ∧ m.head (update m.id a 0xffff b) = h
    rw [(hr.nodup h).mem_erase_iff, hmem, herase]
    by_cases hb : b = a
    · simp [hb]
    · simp [hb]
  · obtain ⟨hne, hb⟩ := (herase b).mp hb
    change update m.id a 0xffff b < m.idMax
    rw [hid b hne]
    exact hi.bound b hb
  · obtain ⟨hneb, hb⟩ := (herase b).mp hb
    obtain ⟨hnec, hc⟩ := (herase c).mp hc
    change update m.id a 0xffff b = update m.id a 0xffff c at heq
    rw [hid b hneb, hid c hnec] at heq
    exact hi.inj b hb c hc heq
  · change _ ↔ ∃ b ∈ live.erase a, (update m.id a 0xffff b).toNat = i
    rw [hi.used]
    constructor
    · rintro ⟨⟨b, hb, rfl⟩, hne⟩
      have hba : b ≠ a := fun h => hne (h ▸ rfl)
      exact ⟨b, (herase b).mpr ⟨hba, hb⟩, by rw [hid b hba]⟩
    · rintro ⟨b, hb, rfl⟩
      obtain ⟨hba, hb⟩ := (herase b).mp hb
      rw [hid b hba]
      exact ⟨⟨b, hb, rfl⟩, fun h => hba (hi.inj b hb a ha (UInt16.toNat_inj.mp h))⟩

lemma idGetObj_freed (ha : a ∈ live) :
    Returns (fun fuel => m.idGetObj (live.erase a) fuel (m.id a)) fun found => found = .freed := by
  have hlt : ¬ m.id a ≥ m.idMax := UInt16.not_le.mpr (hi.bound a ha)
  simp only [IdManager.idGetObj, hlt, if_false, IdManager.getObj]
  obtain ⟨lists, hr, hmem⟩ := hi.ring
  refine (hr.find_returns (m.head (m.id a)) _).bind ?_
  rintro _ rfl
  refine .pure ?_
  have hstop : ∀ b ∈ lists (m.head (m.id a)),
      (!decide (b ∉ live.erase a ∨ m.id b = m.id a)) = !decide (b = a) := by
    intro b hb
    have hb := ((hmem _ b).mp hb).1
    by_cases hba : b = a
    · simp [hba]
    · have hid : m.id b ≠ m.id a := fun h => hba (hi.inj b hb a ha h)
      simp [hba, hid, hi.nodup.mem_erase_iff, hb]
  rw [dropWhile_congr hstop]
  cases hdrop : (lists (m.head (m.id a))).dropWhile fun b => !decide (b = a) with
  | nil =>
    have := dropWhile_eq_nil_iff.mp hdrop a ((hmem _ a).mpr ⟨ha, rfl⟩)
    simp at this
  | cons b bs =>
    have hba : b = a := by
      have := head?_dropWhile_not (fun b => !decide (b = a)) (lists (m.head (m.id a)))
      simpa [hdrop] using this
    subst hba
    simp [Links.entry, hi.nodup.mem_erase_iff]

omit hi in
lemma declare (idMax hoffset : UInt16) : IdInv (.declare idMax hoffset) [] := by
  refine ⟨nodup_nil, ⟨fun _ => [], ⟨fun _ => ⟨rfl, rfl⟩, fun _ => nodup_nil,
    fun h => absurd h not_mem_nil, fun _ _ => ⟨rfl, rfl⟩⟩, by simp⟩, by simp, by simp,
    fun i => ?_⟩
  simp [IdManager.Used, IdManager.declare]

lemma insert_cases (ha : a ∉ live) :
    (m.allocId = none ∧ (m.clear a).idInsertObj (a :: live) a = .full ∧ IdInv (m.clear a) live) ∨
      m.allocId ≠ none ∧ ∃ m', (m.clear a).idInsertObj (a :: live) a = .done m' (m'.id a) ∧
        IdInv m' (a :: live) ∧ ∀ b ∈ live, m'.id b = m.id b := by
  have hclear : (m.clear a).allocId = m.allocId.map fun r => (r.1.clear a, r.2) := by
    simp only [IdManager.allocId, bind_eq_bind, Option.map_bind]
    refine congrArg _ (funext fun index => ?_)
    by_cases h : index * 8 + IdManager.lowOnes 8 (m.idMap index) ≥ m.idMax.toNat
    · simp only [IdManager.clear, comp_apply, h, if_true, map_none]
    · simp only [IdManager.clear, comp_apply, h, if_false, map_some]
  cases halloc : m.allocId with
  | none =>
    rw [halloc] at hclear
    exact .inl ⟨rfl, by rw [IdManager.idInsertObj, hclear]; rfl, hi.clear ha⟩
  | some r =>
    rw [halloc] at hclear
    obtain ⟨hinsert, hi'⟩ := (hi.clear ha).insert ha hclear
    obtain ⟨-, -, -, idMap, heq⟩ := allocId_some halloc
    refine .inr ⟨by simp, _, ?_, hi', fun b hb => ?_⟩
    · rw [hinsert]
      simp [IdManager.insertObj]
    · have hne : b ≠ a := fun h => ha (h ▸ hb)
      simp [IdManager.insertObj, IdManager.clear, hne, heq]

end IdInv
end Xiuos.Kernel
