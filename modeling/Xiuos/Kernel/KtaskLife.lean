import Xiuos.Kernel.Object

/-! Creation of tasks and what the recycler does with them: the task list, ids and memory. -/

namespace Xiuos.Kernel
open Lib Function List Option

structure TaskTable where
  pool : Pool
  link : Links (Unit ⊕ Nat)
  stackStart : Nat → Nat
  stackMem : List Nat

variable (idMax hoffset : UInt16)

namespace TaskTable

def boot (idMax hoffset : UInt16) : TaskTable where
  pool := .boot idMax hoffset
  link := { next := id, prev := id }
  stackStart _ := 0
  stackMem := []

def Valid (live : List Nat) : Unit ⊕ Nat → Prop
  | .inl _ => True
  | .inr a => a ∈ live

instance (live : List Nat) : DecidablePred (Valid live)
  | .inl _ => isTrue True.intro
  | .inr a => inferInstanceAs (Decidable (a ∈ live))

end TaskTable

def kTaskBaseInfoParse (prioMax : Nat) (stack : Option Nat) (priority : UInt8) : Except Int Nat :=
  if priority.toNat ≥ prioMax then .error (-einvaled)
  else match stack with
    | none => .error (-enomemory)
    | some start => .ok start

def initKTask (prioMax : Nat) (stack : Option Nat) (priority : UInt8) : Except Int Nat :=
  match kTaskBaseInfoParse prioMax stack priority with
  | .error _ => .error (-error)
  | .ok start => .ok start

variable (prioMax fuel : Nat) (s : TaskTable) (mem stack : Option Nat)

namespace TaskTable

/-- Without a descriptor or an id nothing is done.  When the initialization fails, the task stays in
the task list. -/
def kTaskCreate (prioMax fuel : Nat) (s : TaskTable) (mem stack : Option Nat) (priority : UInt8) :
    Option (TaskTable × Int) := do
  let (pool, id) ← s.pool.create mem
  match mem with
  | none => some ({ s with pool }, id)
  | some a =>
    let link := s.link.init (.inr a)
    if id < 0 then some ({ s with pool, link }, id)
    else if ¬ Valid pool.live (link.next (.inl ())) then none
    else
      let link := link.insertAfter (.inl ()) (.inr a)
      match initKTask prioMax stack priority with
      | .ok start =>
        some (⟨pool, link, update s.stackStart a start, start :: s.stackMem⟩, id)
      | .error e =>
        let manager ← pool.manager.idRemoveObj pool.live fuel id.toNat.toUInt16
        some ({ s with pool := ⟨manager, pool.live.erase a⟩, link }, e)

def reclaim (fuel : Nat) (s : TaskTable) (a : Nat) : Option TaskTable :=
  if a ∈ s.pool.live ∧ Valid s.pool.live (s.link.next (.inr a)) ∧
      Valid s.pool.live (s.link.prev (.inr a)) then do
    let link := s.link.remove (.inr a)
    let manager ← s.pool.manager.idRemoveObj s.pool.live fuel (s.pool.manager.id a)
    some { s with
      pool := ⟨manager, s.pool.live.erase a⟩
      link
      stackMem := s.stackMem.erase (s.stackStart a) }
  else none

end TaskTable

inductive TaskOp
  | create (mem stack : Option Nat) (priority : UInt8)
  | reclaim (a : Nat)

namespace TaskTable

def Gives (s : TaskTable) (mem stack : Option Nat) : Prop :=
  (∀ a ∈ mem, a ∉ s.pool.live ∧ a ∉ s.stackMem) ∧
    ∀ b ∈ stack, b ∉ s.pool.live ∧ b ∉ s.stackMem ∧ b ∉ mem

instance (s : TaskTable) (mem stack : Option Nat) : Decidable (s.Gives mem stack) :=
  inferInstanceAs (Decidable ((∀ a ∈ mem, _) ∧ ∀ b ∈ stack, _))

def step (prioMax fuel : Nat) (s : TaskTable) : TaskOp → Option TaskTable
  | .create mem stack priority =>
    if s.Gives mem stack then (s.kTaskCreate prioMax fuel mem stack priority).map Prod.fst else none
  | .reclaim a => s.reclaim fuel a

structure Same (s s' : TaskTable) : Prop where
  live : s'.pool.live = s.pool.live
  stackMem : s'.stackMem = s.stackMem
  link : ∀ n, Valid s.pool.live n → s'.link.next n = s.link.next n ∧ s'.link.prev n = s.link.prev n
  idMap : s'.pool.manager.idMap = s.pool.manager.idMap
  htable : ∀ n, (∀ a, n = .inr a → a ∈ s.pool.live) →
    s'.pool.manager.htable.next n = s.pool.manager.htable.next n ∧
      s'.pool.manager.htable.prev n = s.pool.manager.htable.prev n
  id : ∀ a ∈ s.pool.live, s'.pool.manager.id a = s.pool.manager.id a

structure Listed (s : TaskTable) : Prop where
  ids : IdInv s.pool.manager s.pool.live
  ring : ∃ tasks : Unit → List Nat, Rings s.link tasks ∧ ∀ a, a ∈ tasks () ↔ a ∈ s.pool.live

def clean (prioMax : Nat) (s : TaskTable) : TaskOp → Bool
  | .create mem stack priority => mem = none ∨ s.pool.manager.allocId.isNone ∨
      (priority.toNat < prioMax ∧ stack.isSome)
  | .reclaim _ => true

section
variable {s s' : TaskTable} {a fuel prioMax : Nat}

lemma Same.refl (s : TaskTable) : s.Same s where
  live := rfl
  stackMem := rfl
  link _ _ := ⟨rfl, rfl⟩
  idMap := rfl
  htable _ _ := ⟨rfl, rfl⟩
  id _ _ := rfl

lemma initKTask_cases (prioMax : Nat) (stack : Option Nat) (priority : UInt8) :
    (∃ start, stack = some start ∧ priority.toNat < prioMax ∧
      initKTask prioMax stack priority = .ok start) ∨
    ¬ (priority.toNat < prioMax ∧ stack.isSome) ∧
      initKTask prioMax stack priority = .error (-error) := by
  simp only [initKTask, kTaskBaseInfoParse]
  by_cases hprio : priority.toNat ≥ prioMax
  · rw [if_pos hprio]
    exact .inr ⟨fun h => absurd h.1 (Nat.not_lt.mpr hprio), rfl⟩
  · rw [if_neg hprio]
    cases stack with
    | none => exact .inr ⟨fun h => absurd h.2 (by simp), rfl⟩
    | some start => exact .inl ⟨start, rfl, Nat.not_le.mp hprio, rfl⟩

variable {mem stack : Option Nat} {priority : UInt8} {ret : Int}

lemma kTaskCreate_cases (h : s.kTaskCreate prioMax fuel mem stack priority = some (s', ret)) :
    (mem = none ∧ s' = s ∧ ret = -enomemory) ∨ ∃ a, mem = some a ∧
      (((s.pool.manager.clear a).idInsertObj (a :: s.pool.live) a = .full ∧
        s' = { s with
          pool := ⟨s.pool.manager.clear a, s.pool.live⟩
          link := s.link.init (.inr a) } ∧ ret = -enomemory) ∨
      ∃ m id, (s.pool.manager.clear a).idInsertObj (a :: s.pool.live) a = .done m id ∧
        ((∃ start, stack = some start ∧ priority.toNat < prioMax ∧
          s' = ⟨⟨m, a :: s.pool.live⟩, (s.link.init (.inr a)).insertAfter (.inl ()) (.inr a),
            update s.stackStart a start, start :: s.stackMem⟩ ∧ ret = id.toNat) ∨
        ¬ (priority.toNat < prioMax ∧ stack.isSome) ∧
          ∃ m', m.idRemoveObj (a :: s.pool.live) fuel id = some m' ∧
          s' = { s with
            pool := ⟨m', s.pool.live⟩
            link := (s.link.init (.inr a)).insertAfter (.inl ()) (.inr a) } ∧ ret = -error)) := by
  obtain ⟨⟨pool, id⟩, hcreate, h⟩ := bind_eq_some_iff.mp h
  cases mem with
  | none =>
    cases hcreate
    cases h
    exact .inl ⟨rfl, rfl, rfl⟩
  | some a =>
    refine .inr ⟨a, rfl, ?_⟩
    rw [Pool.create] at hcreate
    dsimp only at hcreate h
    cases hins : (s.pool.manager.clear a).idInsertObj (a :: s.pool.live) a with
    | full =>
      rw [hins] at hcreate
      cases hcreate
      cases h
      exact .inl ⟨rfl, rfl, rfl⟩
    | freed =>
      rw [hins] at hcreate
      cases hcreate
    | done m id =>
      rw [hins] at hcreate
      cases hcreate
      rw [if_neg (Int.not_lt.mpr (Int.natCast_nonneg _))] at h
      obtain ⟨-, h⟩ := ite_none_left_eq_some.mp h
      refine .inr ⟨m, id, rfl, ?_⟩
      obtain ⟨start, hstack, hprio, hinit⟩ | ⟨hnot, hinit⟩ := initKTask_cases prioMax stack priority
      · rw [hinit] at h
        cases h
        exact .inl ⟨start, hstack, hprio, rfl, rfl⟩
      · rw [hinit] at h
        obtain ⟨m', hremove, h⟩ := bind_eq_some_iff.mp h
        rw [erase_cons_head] at h
        cases h
        have hid : id.toNat.toUInt16 = id := UInt16.ofNat_toNat
        rw [Int.toNat_natCast, hid] at hremove
        exact .inr ⟨hnot, m', hremove, rfl, rfl⟩

section
variable (hs : s.Listed)
include hs

section
variable (ha : a ∉ s.pool.live)
include ha

lemma Listed.clear :
    Listed { s with
      pool := ⟨s.pool.manager.clear a, s.pool.live⟩
      link := s.link.init (.inr a) } := by
  obtain ⟨tasks, hr, hmem⟩ := hs.ring
  have hself := hr.self a fun _ h => ha ((hmem a).mp h)
  refine ⟨hs.ids.clear ha, tasks, ?_, hmem⟩
  rw [Links.init_of_self hself.1 hself.2]
  exact hr

lemma Listed.same_clear :
    s.Same { s with
      pool := ⟨s.pool.manager.clear a, s.pool.live⟩
      link := s.link.init (.inr a) } := by
  obtain ⟨tasks, hr, hmem⟩ := hs.ring
  obtain ⟨lists, hr', hmem'⟩ := hs.ids.ring
  have hself := hr.self a fun _ h => ha ((hmem a).mp h)
  have hself' := hr'.self a fun h hm => ha ((hmem' h a).mp hm).1
  refine ⟨rfl, rfl, fun n _ => ?_, rfl, fun n _ => ?_, clear_id ha⟩
  · rw [Links.init_of_self hself.1 hself.2]
    exact ⟨rfl, rfl⟩
  · rw [IdManager.clear, Links.init_of_self hself'.1 hself'.2]
    exact ⟨rfl, rfl⟩

lemma Listed.insert :
    ∃ tasks : Unit → List Nat, Rings ((s.link.init (.inr a)).insertAfter (.inl ()) (.inr a)) tasks ∧
        ∀ b, b ∈ tasks () ↔ b ∈ a :: s.pool.live := by
  obtain ⟨tasks, hr, hmem⟩ := (hs.clear ha).ring
  refine ⟨_, hr.insertAfter_head (fun _ h => ha ((hmem a).mp h)) (), fun b => ?_⟩
  rw [update_self, mem_cons, mem_cons, hmem]

lemma Listed.not_same (hlink : s'.link = (s.link.init (.inr a)).insertAfter (.inl ()) (.inr a)) :
    ¬ s.Same s' := by
  intro hsame
  obtain ⟨tasks, hr, hmem⟩ := hs.ring
  have hnext := (hsame.link (.inl ()) True.intro).1
  have hne : s.link.next (.inl ()) ≠ .inr a := by
    rw [(hr.seg ()).next_eq]
    intro h
    have hm := Links.entry_mem (.inl ()) ((tasks ()).map Sum.inr)
    rw [h] at hm
    exact ha ((hmem a).mp (by simpa using hm))
  rw [hlink] at hnext
  exact hne (hnext.symm.trans (by simp [Links.insertAfter, Links.setNext, Links.setPrev]))

end

lemma Listed.create (hmem : ∀ a ∈ mem, a ∉ s.pool.live)
    (h : s.kTaskCreate prioMax fuel mem stack priority = some (s', ret)) :
    ((ret < 0 → s.Same s') ↔ s.clean prioMax (.create mem stack priority)) ∧
      (s.clean prioMax (.create mem stack priority) → s'.Listed) := by
  obtain ⟨rfl, rfl, rfl⟩ | ⟨a, rfl, hcases⟩ := kTaskCreate_cases h
  · exact ⟨iff_of_true (fun _ => .refl s') (by simp [clean]), fun _ => hs⟩
  clear h
  have ha := hmem a rfl
  obtain ⟨hfull, rfl, rfl⟩ | ⟨m, id, hdone, hinit⟩ := hcases
  · have hclean : s.clean prioMax (.create (some a) stack priority) = true := by
      obtain ⟨hnone, -, -⟩ | ⟨-, m', hdone, -⟩ := hs.ids.insert_cases ha
      · simp [clean, hnone]
      · rw [hfull] at hdone
        cases hdone
    exact ⟨iff_of_true (fun _ => hs.same_clear ha) hclean, fun _ => hs.clear ha⟩
  obtain ⟨-, hfull, -⟩ | ⟨hfree, m', hdone', hi', -⟩ := hs.ids.insert_cases ha
  · rw [hdone] at hfull
    cases hfull
  rw [hdone] at hdone'
  cases hdone'
  obtain ⟨start, rfl, hprio, rfl, rfl⟩ | ⟨hnot, m', -, rfl, rfl⟩ := hinit
  · refine ⟨iff_of_true (fun h => absurd h (by omega)) (by simp [clean, hprio]), fun _ => ?_⟩
    exact ⟨hi', hs.insert ha⟩
  · have hunclean : ¬ s.clean prioMax (.create (some a) stack priority) = true := by
      simpa [clean, hfree] using hnot
    refine ⟨iff_of_false (fun h => ?_) hunclean, fun h => absurd h hunclean⟩
    exact hs.not_same ha rfl (h (by decide))

lemma Listed.reclaim (h : s.reclaim fuel a = some s') : s'.Listed := by
  obtain ⟨⟨ha, -, -⟩, h⟩ := ite_none_right_eq_some.mp h
  obtain ⟨m', hremove, h⟩ := bind_eq_some_iff.mp h
  cases h
  obtain ⟨tasks, hr, hmem⟩ := hs.ring
  refine ⟨((hs.ids.remove ha).post hremove).1, _, hr.remove a, fun b => ?_⟩
  rw [(hr.nodup ()).mem_erase_iff, hs.ids.nodup.mem_erase_iff, hmem]

end

lemma Listed.boot : (TaskTable.boot idMax hoffset).Listed :=
  ⟨IdInv.declare idMax hoffset, fun _ => [], ⟨fun _ => ⟨rfl, rfl⟩, fun _ => nodup_nil,
    fun h => absurd h not_mem_nil, fun _ _ => ⟨rfl, rfl⟩⟩, fun _ => Iff.rfl⟩

end

def Unchanged (prioMax fuel : Nat) (s : TaskTable) : TaskOp → TaskTable → Prop
  | .create mem stack priority, s' => ∀ ret,
      s.kTaskCreate prioMax fuel mem stack priority = some (s', ret) → ret < 0 → s.Same s'
  | .reclaim _, _ => True

end TaskTable

theorem taskRun_unchanged_iff (prioMax fuel : Nat) (idMax hoffset : UInt16) (ops : List TaskOp) :
    Along (TaskTable.step prioMax fuel) (TaskTable.Unchanged prioMax fuel) (.boot idMax hoffset)
        ops ↔
      Each (TaskTable.step prioMax fuel) (fun s op => s.clean prioMax op) (.boot idMax hoffset)
        ops := by
  have hstep : ∀ {s op s'}, TaskTable.Listed s → TaskTable.step prioMax fuel s op = some s' →
      (TaskTable.Unchanged prioMax fuel s op s' ↔ s.clean prioMax op) ∧
        (s.clean prioMax op → s'.Listed) := by
    intro s op s' hs h
    cases op with
    | create mem stack priority =>
      obtain ⟨hgives, h⟩ := ite_none_right_eq_some.mp h
      obtain ⟨⟨s₁, ret⟩, hcreate, rfl⟩ := map_eq_some_iff.mp h
      have hspec := hs.create (fun a ha => (hgives.1 a ha).1) hcreate
      refine ⟨?_, hspec.2⟩
      rw [← hspec.1]
      refine ⟨fun h => h ret hcreate, fun h ret' hcreate' => ?_⟩
      rw [hcreate] at hcreate'
      cases hcreate'
      exact h
    | reclaim a => exact ⟨iff_of_true True.intro rfl, fun _ => hs.reclaim h⟩
  exact along_iff_each (I := fun _ => True) (P := TaskTable.Listed) (fun _ _ => True.intro)
    (fun hs h _ hclean => (hstep hs h).2 hclean) (fun _ hs h => (hstep hs h).1) True.intro
    (.boot idMax hoffset)

theorem kTaskCreate_dangles :
    ∃ s, (TaskTable.boot 8 4).kTaskCreate 32 10 (some 100) (some 200) 40 = some (s, -error) ∧
      s.link.next (.inl ()) = .inr 100 ∧ s.pool.live = [] ∧ ¬ (TaskTable.boot 8 4).Same s := by
  have hrun : (do
      let (s, ret) ← (TaskTable.boot 8 4).kTaskCreate 32 10 (some 100) (some 200) 40
      some (decide (ret = -error ∧ s.link.next (.inl ()) = .inr 100 ∧ s.pool.live = []))) =
        some true := by
    decide +kernel
  obtain ⟨⟨s, ret⟩, hs, h⟩ := bind_eq_some_iff.mp hrun
  obtain ⟨rfl, hnext, hlive⟩ := of_decide_eq_true (Option.some.inj h)
  refine ⟨s, hs, hnext, hlive, fun hsame => ?_⟩
  have heq := (hsame.link (.inl ()) True.intro).1
  rw [hnext] at heq
  cases heq

end Xiuos.Kernel
