import Xiuos.Arch.Pmp
import Xiuos.Lib.Run

/-! The two lists of regions: how `PmpClearRegion` and `PmpAccessFaultHandle` change them. -/

namespace Xiuos.Arch
open Lib List
variable {β : Type}

lemma split_of_find {p : β → Bool} {l : List β} {r : β} (h : l.find? p = some r) :
    ∃ us vs, l = us ++ r :: vs ∧ l.eraseP p = us ++ vs := by
  obtain ⟨hr, us, vs, rfl, hus⟩ := find?_eq_some_iff_append.mp h
  refine ⟨us, vs, rfl, ?_⟩
  rw [eraseP_append_right _ (by simpa using hus), eraseP_cons_of_pos hr]

lemma eq_of_splits {us vs us' vs' : List β} {r r' : β} (h : us ++ r :: vs = us' ++ r' :: vs')
    (h' : us ++ vs = us' ++ vs') : r = r' := by
  have hperm : List.Perm (r :: (us ++ vs)) (r' :: (us ++ vs)) :=
    calc
      List.Perm (r :: (us ++ vs)) (us ++ r :: vs) := perm_middle.symm
      _ = us' ++ r' :: vs' := h
      List.Perm _ (r' :: (us' ++ vs')) := perm_middle
      _ = r' :: (us ++ vs) := by rw [h']
  exact singleton_perm_singleton.mp ((perm_append_right_iff (us ++ vs)).mp hperm)

section Clear
variable {α : Type} [DecidableEq α] [OfNat α 0]

/-- The test `addr = tor_node->start` of the two loops, which assigns. -/
def PmpRegionTor.assigned (r : PmpRegionTor α) : Bool := r.start ≠ 0

/-- Behind loops that find nothing `tor_node` is the last node they saw, or the null pointer,
through which the call does not get. -/
def pmpClearRegion (taskPmp : Option (Pmp α)) (_addr : α) : Option (Option (Pmp α) × Int) :=
  match taskPmp with
  | none => some (none, -1)
  | some pmp =>
    if pmp.torList.any (·.assigned) then
      some (some
        { pmp with
          torList := pmp.torList.eraseP (·.assigned)
          count := pmp.count - 2 }, 0)
    else if pmp.torSwapList.any (·.assigned) then
      some (some { pmp with torSwapList := pmp.torSwapList.eraseP (·.assigned) }, 0)
    else if pmp.torSwapList ≠ [] then
      some (some { pmp with torSwapList := pmp.torSwapList.dropLast }, 0)
    else if pmp.torList ≠ [] then some (some { pmp with torList := pmp.torList.dropLast }, 0)
    else none

inductive Clears (pmp : Pmp α) (addr : α) : Pmp α → Prop
  | active {us vs : List (PmpRegionTor α)} {r : PmpRegionTor α} (h : pmp.torList = us ++ r :: vs)
      (hr : r.start = addr) :
      Clears pmp addr { pmp with torList := us ++ vs, count := pmp.count - 2 }
  | swapped {us vs : List (PmpRegionTor α)} {r : PmpRegionTor α}
      (h : pmp.torSwapList = us ++ r :: vs) (hr : r.start = addr) :
      Clears pmp addr { pmp with torSwapList := us ++ vs }
  | absent (h : ∀ r ∈ pmp.torList ++ pmp.torSwapList, r.start ≠ addr) : Clears pmp addr pmp

def ClearsFirst (pmp : Pmp α) (addr : α) : Prop :=
  match (pmp.torList ++ pmp.torSwapList).find? (·.assigned) with
  | some r => r.start = addr
  | none => pmp.torSwapList ≠ [] ∧ addr = 0

omit [DecidableEq α] [OfNat α 0] in
lemma Clears.of_active {pmp : Pmp α} {addr : α} {us vs : List (PmpRegionTor α)}
    {r : PmpRegionTor α} (h : pmp.torList = us ++ r :: vs) {count : UInt8} :
    Clears pmp addr { pmp with torList := us ++ vs, count } ↔
      r.start = addr ∧ count = pmp.count - 2 := by
  have hne : us ++ vs ≠ pmp.torList := fun heq => by simp [h] at heq
  constructor
  · generalize hp : ({ pmp with torList := us ++ vs, count } : Pmp α) = p
    rintro (⟨h', hr⟩ | ⟨h', hr⟩ | h')
    · obtain ⟨rfl, -, -, heq, -⟩ := Pmp.mk.inj hp
      rw [eq_of_splits (h.symm.trans h') heq]
      exact ⟨hr, rfl⟩
    · exact absurd (Pmp.mk.inj hp).2.2.2.1 hne
    · exact absurd (congrArg Pmp.torList hp) hne
  · rintro ⟨hr, rfl⟩
    exact .active h hr

omit [DecidableEq α] [OfNat α 0] in
lemma Clears.of_swapped {pmp : Pmp α} {addr : α} {us vs : List (PmpRegionTor α)}
    {r : PmpRegionTor α} (h : pmp.torSwapList = us ++ r :: vs) :
    Clears pmp addr { pmp with torSwapList := us ++ vs } ↔ r.start = addr := by
  have hne : us ++ vs ≠ pmp.torSwapList := fun heq => by simp [h] at heq
  constructor
  · generalize hp : ({ pmp with torSwapList := us ++ vs } : Pmp α) = p
    rintro (⟨h', hr⟩ | ⟨h', hr⟩ | h')
    · exact absurd (Pmp.mk.inj hp).2.2.2.2 hne
    · rw [eq_of_splits (h.symm.trans h') (Pmp.mk.inj hp).2.2.2.2]
      exact hr
    · exact absurd (congrArg Pmp.torSwapList hp) hne
  · exact .swapped h

lemma any_eq_isSome_find (p : β → Bool) (l : List β) : l.any p = (l.find? p).isSome := by
  rw [Bool.eq_iff_iff, find?_isSome, any_eq_true]

theorem pmpClearRegion_iff (pmp : Pmp α) (addr : α) :
    (∃ pmp' ret, pmpClearRegion (some pmp) addr = some (some pmp', ret) ∧ Clears pmp addr pmp') ↔
      ClearsFirst pmp addr := by
  simp only [ClearsFirst, List.find?_append, pmpClearRegion, any_eq_isSome_find]
  cases ht : pmp.torList.find? (·.assigned) with
  | some r =>
    obtain ⟨us, vs, hlist, herase⟩ := split_of_find ht
    simp [herase, Clears.of_active hlist]
  | none =>
    cases hs : pmp.torSwapList.find? (·.assigned) with
    | some r =>
      obtain ⟨us, vs, hlist, herase⟩ := split_of_find hs
      simp [herase, Clears.of_swapped hlist]
    | none =>
      rcases eq_nil_or_concat' pmp.torSwapList with hnil | ⟨nodes, r, hlast⟩
      · rcases eq_nil_or_concat' pmp.torList with hnil' | ⟨nodes, r, hlast⟩
        · simp [hnil, hnil']
        · have hcount : pmp.count ≠ pmp.count - 2 := by grind
          have hnot : ¬ Clears pmp addr { pmp with torList := nodes ++ [], count := pmp.count } :=
            fun h => hcount ((Clears.of_active hlast).mp h).2
          refine iff_of_false ?_ (fun h => h.1 hnil)
          rw [append_nil] at hnot
          simpa [hnil, hlast] using hnot
      · have hclears : Clears pmp addr { pmp with torSwapList := nodes ++ [] } ↔ r.start = addr :=
          Clears.of_swapped hlast
        have hr : r.start = 0 := by
          simpa [hlast, PmpRegionTor.assigned] using List.find?_eq_none.mp hs r
        rw [append_nil, hr, eq_comm] at hclears
        simp [hlast, hclears]

def twoRegions : Pmp :=
  { pmpZero with
    count := 4
    torList := [torRegion 0x1000 0x100 .data, torRegion 0x2000 0x100 .data] }

theorem pmpClearRegion_other :
    ∃ pmp', pmpClearRegion (some twoRegions) 0x2000 = some (some pmp', 0) ∧
      pmp'.torList.map (·.start) = [0x2000] ∧ ¬ Clears twoRegions 0x2000 pmp' := by
  have hlist : twoRegions.torList = [] ++ torRegion 0x1000 0x100 .data ::
      [torRegion 0x2000 0x100 .data] := rfl
  refine ⟨_, rfl, rfl, fun h => ?_⟩
  have hstart := ((Clears.of_active hlist).mp h).1
  exact absurd hstart (by decide)

end Clear

section Fault
variable {α : Type} [LE α] [DecidableLE α]

def PmpRegionTor.found (addr : α) (r : PmpRegionTor α) : Bool :=
  decide (r.start ≤ addr) && decide (addr ≤ r.stop)

/-- As `insertTor`, the call has no result when it has to make room. -/
def pmpAccessFaultHandle (taskPmp : Option (Pmp α)) (addr : α) :
    Option (Option (Pmp α) × Bool) :=
  match taskPmp with
  | none => some (none, false)
  | some pmp =>
    match pmp.torSwapList.find? (·.found addr) with
    | none => some (some pmp, false)
    | some node =>
      if pmp.count.toNat < pmpMaxEntryNumber - 2 then
        some (some
          { pmp with
            torList := pmp.torList ++ [node]
            torSwapList := pmp.torSwapList.eraseP (·.found addr)
            count := pmp.count + 2 }, true)
      else none

def FaultFits [LT α] (pmp : Pmp α) (addr : α) : Prop :=
  ∀ r, pmp.torSwapList.find? (·.found addr) = some r →
    addr < r.stop ∧ pmp.count.toNat < pmpMaxEntryNumber - 2

def PmpRegionTor.Covers [LT α] (r : PmpRegionTor α) (addr : α) : Prop :=
  r.start ≤ addr ∧ addr < r.stop

lemma PmpRegionTor.Covers.found [LT α] [Std.LawfulOrderLT α] {r : PmpRegionTor α} {addr : α}
    (h : r.Covers addr) : r.found addr := by
  have hle := (Std.LawfulOrderLT.lt_iff addr r.stop).mp h.2
  simp [PmpRegionTor.found, h.1, hle.1]

theorem pmpAccessFaultHandle_iff [LT α] [Std.LawfulOrderLT α] (pmp : Pmp α) (addr : α) :
    (∃ pmp' ret, pmpAccessFaultHandle (some pmp) addr = some (some pmp', ret) ∧
      (ret = true ↔ ∃ r ∈ pmp.torSwapList, r.Covers addr) ∧
      (ret = true → ∃ r ∈ pmp.torSwapList, r.Covers addr ∧
        ∃ us vs, pmp'.torList = us ++ r :: vs ∧ (us ++ vs).Sublist pmp.torList)) ↔
      FaultFits pmp addr := by
  simp only [pmpAccessFaultHandle, FaultFits]
  cases hfind : pmp.torSwapList.find? (·.found addr) with
  | none =>
    have hnone : ¬ ∃ r ∈ pmp.torSwapList, r.Covers addr := fun ⟨r, hr, hcov⟩ =>
      List.find?_eq_none.mp hfind r hr hcov.found
    simp [hnone]
  | some node =>
    have hmem := List.mem_of_find?_eq_some hfind
    have hfound : node.start ≤ addr ∧ addr ≤ node.stop := by
      simpa [PmpRegionTor.found] using List.find?_some hfind
    by_cases hroom : pmp.count.toNat < pmpMaxEntryNumber - 2
    · simp only [hroom, if_true]
      constructor
      · rintro ⟨pmp', ret, hcall, -, hact⟩ r ⟨⟩
        obtain ⟨⟨rfl⟩, rfl⟩ := Prod.mk.inj (Option.some.inj hcall)
        obtain ⟨r, -, hcov, us, vs, hlist, hsub⟩ := hact rfl
        have hlen : (us ++ vs).length = pmp.torList.length := by
          have := congrArg List.length hlist
          grind
        have heq : us ++ vs = pmp.torList ++ [] := by
          rw [append_nil, hsub.eq_of_length hlen]
        have hnode : r = node := eq_of_splits hlist.symm heq
        exact ⟨hnode ▸ hcov.2, trivial⟩
      · intro h
        have hcov : node.Covers addr := ⟨hfound.1, (h node rfl).1⟩
        exact ⟨_, true, rfl, iff_of_true rfl ⟨node, hmem, hcov⟩,
          fun _ => ⟨node, hmem, hcov, pmp.torList, [], rfl, by simp⟩⟩
    · simp [hroom]

def oneSwapped : Pmp :=
  { pmpZero with torSwapList := [torRegion 0x1000 0x100 .data] }

theorem pmpAccessFaultHandle_behind :
    (∃ pmp', pmpAccessFaultHandle (some oneSwapped) 0x1100 = some (some pmp', true)) ∧
      ¬ ∃ r ∈ oneSwapped.torSwapList, r.Covers 0x1100 := by
  refine ⟨⟨_, rfl⟩, ?_⟩
  simp [oneSwapped, PmpRegionTor.Covers, torRegion]

theorem pmpAccessFaultHandle_inside :
    ∃ pmp' ret, pmpAccessFaultHandle (some oneSwapped) 0x1000 = some (some pmp', ret) ∧
      (ret = true ↔ ∃ r ∈ oneSwapped.torSwapList, r.Covers 0x1000) ∧
      (ret = true → ∃ r ∈ oneSwapped.torSwapList, r.Covers 0x1000 ∧
        ∃ us vs, pmp'.torList = us ++ r :: vs ∧ (us ++ vs).Sublist oneSwapped.torList) :=
  (pmpAccessFaultHandle_iff oneSwapped 0x1000).mpr fun r hr => by
    cases hr
    decide

end Fault

def Pmp.regions {α : Type} (pmp : Pmp α) : List (PmpRegionTor α) := pmp.torList ++ pmp.torSwapList

structure Accounted {α : Type} (pmp : Pmp α) : Prop where
  count : pmp.count.toNat = pmp.reserve.toNat + 2 * pmp.torList.length
  count_le : pmp.count.toNat ≤ pmpMaxEntryNumber

lemma Accounted.enter {α : Type} {pmp : Pmp α} (h : Accounted pmp)
    {torList : List (PmpRegionTor α)} (torSwapList : List (PmpRegionTor α))
    (hlen : torList.length = pmp.torList.length + 1)
    (hroom : pmp.count.toNat ≤ pmpMaxEntryNumber - 2) :
    Accounted { pmp with torList, torSwapList, count := pmp.count + 2 } := by
  obtain ⟨hcount, -⟩ := h
  have hle : pmp.count.toNat ≤ 14 := hroom
  have hadd : (pmp.count + 2).toNat = pmp.count.toNat + 2 := by
    rw [UInt8.toNat_add]
    exact Nat.mod_eq_of_lt (by simp; omega)
  constructor
  · simp only [hadd, hcount, hlen]
    omega
  · simp only [hadd, pmpMaxEntryNumber]
    omega

section
variable {α : Type} [LE α] [DecidableLE α] [Add α] [Sub α] [Mul α] [Div α] [ShiftRight α]
variable [DecidableEq α] [OfNat α 0] [OfNat α 1] [OfNat α 2] [OfNat α 4]

inductive PmpCall (α : Type) [OfNat α 0]
  | addTor (start size : α) (type : RegionType) (hsize : size ≠ 0)
  | fault (addr : α)

def pmpCall (pmp : Pmp α) : PmpCall α → Option (Pmp α)
  | .addTor start size type _ => (pmpAddTorRegion (some pmp) start size type true).1
  | .fault addr => pmpAccessFaultHandle (some pmp) addr >>= (·.1)

def PmpCall.added : PmpCall α → List (PmpRegionTor α)
  | .addTor start size type _ => [torRegion start size type]
  | .fault _ => []

def Roomy (pmp : Pmp α) : PmpCall α → Prop
  | .addTor .. => pmp.count.toNat ≤ pmpMaxEntryNumber - 2
  | .fault addr => pmp.torSwapList.any (·.found addr) → pmp.count.toNat < pmpMaxEntryNumber - 2

lemma isSome_pmpCall (pmp : Pmp α) (c : PmpCall α) : (pmpCall pmp c).isSome ↔ Roomy pmp c := by
  cases c with
  | addTor start size type hsize => simp [pmpCall, pmpAddTorRegion, hsize, insertTor, Roomy]
  | fault addr =>
    simp only [pmpCall, pmpAccessFaultHandle, Roomy, any_eq_isSome_find]
    cases pmp.torSwapList.find? (·.found addr) with
    | none => simp
    | some node => by_cases hroom : pmp.count.toNat < pmpMaxEntryNumber - 2 <;> simp [hroom]

lemma Accounted.pmpCall {pmp pmp' : Pmp α} {c : PmpCall α} (h : Accounted pmp)
    (hcall : pmpCall pmp c = some pmp') :
    Accounted pmp' ∧ pmp'.regions.Perm (c.added ++ pmp.regions) := by
  have hroomy : Roomy pmp c := (isSome_pmpCall pmp c).mp (by simp [hcall])
  cases c with
  | addTor start size type hsize =>
    have hroom : pmp.count.toNat ≤ pmpMaxEntryNumber - 2 := hroomy
    simp only [Arch.pmpCall, pmpAddTorRegion, hsize, insertTor, hroom] at hcall
    cases hcall
    exact ⟨h.enter pmp.torSwapList rfl hroom, .refl _⟩
  | fault addr =>
    simp only [Arch.pmpCall, pmpAccessFaultHandle] at hcall
    cases hfind : pmp.torSwapList.find? (·.found addr) with
    | none =>
      simp only [hfind] at hcall
      cases hcall
      exact ⟨h, .refl _⟩
    | some node =>
      have hroom : pmp.count.toNat < pmpMaxEntryNumber - 2 :=
        hroomy (by simp [any_eq_isSome_find, hfind])
      simp only [hfind, hroom] at hcall
      cases hcall
      refine ⟨h.enter _ (by simp) hroom.le, ?_⟩
      obtain ⟨us, vs, hlist, herase⟩ := split_of_find hfind
      simp only [Pmp.regions, PmpCall.added, herase, nil_append, append_assoc, cons_append]
      rw [hlist]
      exact perm_middle.symm.append_left _

theorem pmpCalls_conserve_iff {pmp : Pmp α} (h : Accounted pmp) (calls : List (PmpCall α)) :
    (∃ pmp', runs pmpCall pmp calls = some pmp' ∧ Accounted pmp' ∧
      pmp'.regions.Perm (calls.flatMap PmpCall.added ++ pmp.regions)) ↔
      Meets pmpCall Roomy pmp calls := by
  rw [← isSome_runs_iff isSome_pmpCall, Option.isSome_iff_exists]
  refine exists_congr fun pmp' => and_iff_left_of_imp fun hrun => ?_
  induction calls generalizing pmp with
  | nil =>
    cases hrun
    exact ⟨h, .refl _⟩
  | cons c calls ih =>
    obtain ⟨pmp₁, hcall, hrun⟩ := Option.bind_eq_some_iff.mp hrun
    obtain ⟨h₁, hperm₁⟩ := h.pmpCall hcall
    obtain ⟨h', hperm'⟩ := ih h₁ hrun
    refine ⟨h', hperm'.trans ?_⟩
    calc
      List.Perm (calls.flatMap PmpCall.added ++ pmp₁.regions)
          (calls.flatMap PmpCall.added ++ (c.added ++ pmp.regions)) := hperm₁.append_left _
      List.Perm _ ((c :: calls).flatMap PmpCall.added ++ pmp.regions) := by
        rw [flatMap_cons, ← append_assoc]
        exact perm_append_comm.append_right _

end

def nineRegions : List (PmpCall UInt32) := List.replicate 9 (.addTor 0x1000 0x100 .data (by decide))

theorem pmpCalls_full : Accounted pmpZero ∧ runs pmpCall pmpZero nineRegions = none :=
  ⟨⟨rfl, by decide⟩, rfl⟩

theorem pmpCalls_conserve_eight :
    Accounted pmpZero ∧ ∃ pmp', runs pmpCall pmpZero (nineRegions.take 8) = some pmp' ∧
      Accounted pmp' ∧ pmp'.regions.Perm
        ((nineRegions.take 8).flatMap PmpCall.added ++ pmpZero.regions) := by
  have h : Accounted pmpZero := ⟨rfl, by decide⟩
  exact ⟨h, (pmpCalls_conserve_iff h _).mpr ((isSome_runs_iff isSome_pmpCall).mp rfl)⟩

end Xiuos.Arch
