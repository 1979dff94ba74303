import Xiuos.Kernel.Id
import Xiuos.Lib.Run

namespace Xiuos.Kernel
open Lib Function List Option

inductive IdOp
  | insert (a : Nat)
  | get (id : UInt16)
  | remove (id : UInt16)
  deriving DecidableEq

inductive IdReply
  | id (ret : Int)
  | node (a : Option Nat)
  | done
  deriving DecidableEq

structure IdTable where
  manager : IdManager
  nodes : List Nat
  replies : List IdReply

namespace IdTable

def boot (idMax hoffset : UInt16) : IdTable := ⟨.declare idMax hoffset, [], []⟩

def reply (s : IdTable) (r : IdReply) : IdTable := { s with replies := s.replies ++ [r] }

def step (fuel : Nat) (s : IdTable) : IdOp → Option IdTable
  | .insert a =>
    if a ∈ s.nodes then none
    else match s.manager.idInsertObj (a :: s.nodes) a with
      | .done manager id => some ({ s with manager, nodes := a :: s.nodes }.reply (.id id.toNat))
      | .full => some (s.reply (.id (-1)))
      | .freed => none
  | .get id => do
    match ← s.manager.idGetObj s.nodes fuel id with
    | .object a => some (s.reply (.node (some a)))
    | .missing => some (s.reply (.node none))
    | .freed => none
  | .remove id => do
    let found ← s.manager.idGetObj s.nodes fuel id
    let manager ← s.manager.idRemoveObj s.nodes fuel id
    let nodes := match found with
      | .object a => s.nodes.erase a
      | .missing | .freed => s.nodes
    some ({ s with manager, nodes }.reply .done)

end IdTable

structure IdMap where
  node : Nat → Option Nat
  replies : List IdReply

namespace IdMap

def empty : IdMap := ⟨fun _ => none, []⟩

def reply (f : IdMap) (r : IdReply) : IdMap := { f with replies := f.replies ++ [r] }

def step (idMax : Nat) (f : IdMap) : IdOp → Option IdMap
  | .insert a =>
    if ∃ i < idMax, f.node i = some a then none
    else match (List.range idMax).find? fun i => f.node i = none with
      | some i => some ({ f with node := update f.node i (some a) }.reply (.id i))
      | none => some (f.reply (.id (-1)))
  | .get id => some (f.reply (.node (f.node id.toNat)))
  | .remove id => some ({ f with node := update f.node id.toNat none }.reply .done)

structure Ok (f : IdMap) (idMax : Nat) : Prop where
  lt : ∀ i a, f.node i = some a → i < idMax
  inj : ∀ i j a, f.node i = some a → f.node j = some a → i = j

end IdMap

structure IdTable.Is (s : IdTable) (idMax : Nat) (f : IdMap) : Prop where
  ok : f.Ok idMax
  nodes : ∀ a, a ∈ s.nodes ↔ ∃ i, f.node i = some a
  replies : s.replies = f.replies

structure IdTable.Keeps (s : IdTable) (idMax : UInt16) (f : IdMap) : Prop where
  inv : IdInv s.manager s.nodes
  idMax : s.manager.idMax = idMax
  node : ∀ i a, f.node i = some a ↔ a ∈ s.nodes ∧ (s.manager.id a).toNat = i
  replies : s.replies = f.replies

section
variable {m m' : IdManager} {id : UInt16}

lemma allocId_least (h : m.allocId = some (m', id)) {i : Nat} (hi : i < id.toNat) : m.Used i := by
  obtain ⟨index, hindex, h⟩ := bind_eq_some_iff.mp h
  obtain ⟨-, h⟩ := ite_none_left_eq_some.mp h
  cases h
  obtain ⟨hbyte, -, hbefore⟩ := find?_range_eq_some.mp hindex
  obtain ⟨hones, -, hset⟩ := lowOnes_spec (m.idMap index) (by simpa using hbyte)
  have hmod : i % 8 < 8 := Nat.mod_lt _ (by decide)
  have hle : i < index * 8 + IdManager.lowOnes 8 (m.idMap index) :=
    hi.trans_le ((UInt16.toNat_ofNat' ..).trans_le (Nat.mod_le _ _))
  obtain hless | heq : i / 8 < index ∨ i / 8 = index := by omega
  · have hfull : m.idMap (i / 8) = 0xff := by simpa using hbefore _ hless
    rw [IdManager.Used, hfull]
    exact getLsbD_full hmod
  · rw [IdManager.Used, heq]
    exact hset _ hmod (by omega)

lemma idRemoveObj_idMax {live : List Nat} {fuel : Nat}
    (h : m.idRemoveObj live fuel id = some m') : m'.idMax = m.idMax := by
  obtain ⟨found, -, h⟩ := bind_eq_some_iff.mp h
  cases found with
  | object a =>
    cases h
    rfl
  | missing =>
    cases h
    rfl
  | freed => cases h

end

namespace IdTable.Keeps
variable {s : IdTable} {idMax : UInt16} {f : IdMap}

section
variable (h : s.Keeps idMax f)
include h

lemma is : s.Is idMax.toNat f where
  ok := by
    refine ⟨fun i a hia => ?_, fun i j a hi hj => ?_⟩
    · obtain ⟨ha, rfl⟩ := (h.node i a).mp hia
      exact h.idMax ▸ UInt16.lt_iff_toNat_lt.mp (h.inv.bound a ha)
    · exact ((h.node i a).mp hi).2.symm.trans ((h.node j a).mp hj).2
  nodes a := by
    constructor
    · exact fun ha => ⟨_, (h.node _ a).mpr ⟨ha, rfl⟩⟩
    · rintro ⟨i, hia⟩
      exact ((h.node i a).mp hia).1
  replies := h.replies

lemma reply (r : IdReply) : (s.reply r).Keeps idMax (f.reply r) where
  inv := h.inv
  idMax := h.idMax
  node := h.node
  replies := by rw [IdTable.reply, IdMap.reply, h.replies]

lemma used_iff (i : Nat) : s.manager.Used i ↔ f.node i ≠ none := by
  rw [h.inv.used, ne_none_iff_exists']
  exact exists_congr fun a => (h.node i a).symm

lemma mem_iff (a : Nat) : a ∈ s.nodes ↔ ∃ i < idMax.toNat, f.node i = some a := by
  rw [h.is.nodes]
  exact exists_congr fun i => (and_iff_right_of_imp (h.is.ok.lt i a)).symm

variable (id : UInt16)

lemma lookup : s.manager.lookup s.nodes id = (f.node id.toNat).elim .missing .object := by
  cases hnode : f.node id.toNat with
  | none =>
    refine IdInv.lookup_of_forall fun a ha hid => ?_
    rw [(h.node _ a).mpr ⟨ha, congrArg UInt16.toNat hid⟩] at hnode
    cases hnode
  | some a =>
    obtain ⟨ha, hid⟩ := (h.node _ a).mp hnode
    rw [← UInt16.toNat_inj.mp hid]
    exact h.inv.lookup_of_mem ha

lemma get :
    Returns (fun fuel => s.step fuel (.get id))
      (·.Keeps idMax (f.reply (.node (f.node id.toNat)))) := by
  refine (h.inv.idGetObj id).bind ?_
  rintro _ rfl
  rw [h.lookup]
  cases f.node id.toNat with
  | none => exact .pure (h.reply _)
  | some a => exact .pure (h.reply _)

lemma insert (a : Nat) :
    Follows (fun fuel => s.step fuel (.insert a)) (f.step idMax.toNat (.insert a))
      (IdTable.Keeps · idMax ·) := by
  by_cases ha : a ∈ s.nodes
  · have hmap := (h.mem_iff a).mp ha
    simp only [IdTable.step, IdMap.step, if_pos ha, if_pos hmap]
    exact .none
  have hmap := mt (h.mem_iff a).mpr ha
  simp only [IdTable.step, IdMap.step, if_neg ha, if_neg hmap]
  cases halloc : s.manager.allocId with
  | none =>
    have hfind : ((range idMax.toNat).find? fun i => f.node i = none) = none := by
      rw [find?_eq_none]
      intro i hi
      have hused := allocId_none halloc i (h.idMax ▸ mem_range.mp hi)
      simpa using (h.used_iff i).mp hused
    simp only [IdManager.idInsertObj, halloc, hfind]
    exact .pure (h.reply _)
  | some r =>
    obtain ⟨m', id⟩ := r
    obtain ⟨hlt, hfree, -, idMap, rfl⟩ := allocId_some halloc
    obtain ⟨hinsert, hinv⟩ := h.inv.insert ha halloc
    have hnone : f.node id.toNat = none := Decidable.not_not.mp (mt (h.used_iff _).mpr hfree)
    have hfind : ((range idMax.toNat).find? fun i => f.node i = none) = some id.toNat := by
      rw [find?_range_eq_some]
      refine ⟨by simpa using hnone, mem_range.mpr (h.idMax ▸ UInt16.lt_iff_toNat_lt.mp hlt),
        fun i hi => ?_⟩
      simpa using (h.used_iff i).mp (allocId_least halloc hi)
    simp only [hinsert, hfind]
    have hnode : ∀ i b, update f.node id.toNat (some a) i = some b ↔
        b ∈ a :: s.nodes ∧ (update s.manager.id a id b).toNat = i := by
      intro i b
      rw [mem_cons]
      by_cases hba : b = a
      · subst hba
        rw [update_self]
        by_cases hi : i = id.toNat
        · simp [hi]
        · have hold : f.node i ≠ some b := fun hib => ha ((h.node i b).mp hib).1
          simp [update_of_ne hi, hold, Ne.symm hi]
      · rw [update_of_ne hba]
        by_cases hi : i = id.toNat
        · have hold := h.node i b
          rw [hi, hnone] at hold
          simp [hi, hba, Ne.symm hba, ← hold]
        · simp [update_of_ne hi, hba, h.node]
    have hkeeps : IdTable.Keeps { s with manager := _, nodes := a :: s.nodes } idMax
        { f with node := update f.node id.toNat (some a) } := ⟨hinv, h.idMax, hnode, h.replies⟩
    exact .pure (hkeeps.reply _)

lemma remove :
    Returns (fun fuel => s.step fuel (.remove id))
      (·.Keeps idMax ({ f with node := update f.node id.toNat none }.reply .done)) := by
  simp only [IdTable.step]
  refine (h.inv.idGetObj id).bind ?_
  rintro _ rfl
  rw [h.lookup]
  cases hid : f.node id.toNat with
  | none =>
    have hgone : update f.node id.toNat none = f.node := by rw [← hid, update_eq_self]
    simp only [IdManager.idRemoveObj, bind_eq_bind, bind_assoc]
    refine (h.inv.idGetObj id).bind ?_
    rintro _ rfl
    rw [h.lookup, hid, hgone]
    exact .pure (h.reply _)
  | some a =>
    obtain ⟨ha, hida⟩ := (h.node _ a).mp hid
    obtain rfl := UInt16.toNat_inj.mp hida
    refine ((h.inv.remove ha).and_of_forall fun fuel m => idRemoveObj_idMax).bind ?_
    rintro m ⟨⟨hinv, hids⟩, hmax⟩
    have hnode : ∀ i b, update f.node (s.manager.id a).toNat none i = some b ↔
        b ∈ s.nodes.erase a ∧ (m.id b).toNat = i := by
      intro i b
      rw [h.inv.nodup.mem_erase_iff]
      by_cases hba : b = a
      · subst hba
        by_cases hi : i = (s.manager.id b).toNat
        · simp [hi]
        · have hold := h.node i b
          simp [update_of_ne hi, hold, Ne.symm hi]
      · rw [hids b hba]
        by_cases hi : i = (s.manager.id a).toNat
        · have hother : b ∈ s.nodes → (s.manager.id b).toNat ≠ i := fun hb heq =>
            hba (h.inv.inj b hb a ha (UInt16.toNat_inj.mp (heq.trans hi)))
          simpa [hi, hba] using fun hb => hi ▸ hother hb
        · simp [update_of_ne hi, h.node, hba]
    have hkeeps : IdTable.Keeps { s with manager := m, nodes := s.nodes.erase a } idMax
        { f with node := update f.node (s.manager.id a).toNat none } :=
      ⟨hinv, hmax.trans h.idMax, hnode, h.replies⟩
    exact .pure (hkeeps.reply _)

lemma step (op : IdOp) :
    Follows (fun fuel => s.step fuel op) (f.step idMax.toNat op) (IdTable.Keeps · idMax ·) := by
  cases op with
  | insert a => exact h.insert a
  | get id => exact h.get id
  | remove id => exact h.remove id

end

lemma boot (idMax hoffset : UInt16) : (IdTable.boot idMax hoffset).Keeps idMax .empty where
  inv := .declare idMax hoffset
  idMax := rfl
  node := by simp [IdTable.boot, IdMap.empty]
  replies := rfl

end IdTable.Keeps

theorem idRun_map (idMax hoffset : UInt16) (ops : List IdOp) :
    Follows (fun fuel => runs (IdTable.step fuel) (.boot idMax hoffset) ops)
      (runs (IdMap.step idMax.toNat) .empty ops) (IdTable.Is · idMax.toNat ·) := by
  refine (Follows.runs (R := (IdTable.Keeps · idMax ·)) (fun op h => h.step op)
    (IdTable.Keeps.boot idMax hoffset) ops).mono ?_
  exact fun s f h => h.is

end Xiuos.Kernel
