import Xiuos.Kernel.SofttimerLaws

/-! Creation and deletion of the objects of the kernel, and what becomes of their ids. -/

namespace Xiuos.Kernel
open Lib Function Option

structure Pool where
  manager : IdManager
  live : List Nat

namespace Pool

def boot (idMax hoffset : UInt16) : Pool := ⟨.declare idMax hoffset, []⟩

/-- `mem` is the memory that `x_malloc` gives.  A call that works on freed memory has no result. -/
def create (p : Pool) (mem : Option Nat) : Option (Pool × Int) :=
  match mem with
  | none => some (p, -enomemory)
  | some a =>
    let m := p.manager.clear a
    match m.idInsertObj (a :: p.live) a with
    | .done m id => some (⟨m, a :: p.live⟩, id.toNat)
    | .full => some ({ p with manager := m }, -enomemory)
    | .freed => none

def semaphoreCreate : Pool → Option Nat → Option (Pool × Int) := create

def mutexCreate : Pool → Option Nat → Option (Pool × Int) := create

def eventCreate : Pool → Option Nat → Option (Pool × Int) := create

/-- `buf` says whether `_InitMsgQueue` gets memory for the messages.  When it does not, the queue is
freed, but not its id. -/
def kCreateMsgQueue (p : Pool) (mem : Option Nat) (buf : Bool) : Option (Pool × Int) :=
  match mem with
  | none => some (p, -enomemory)
  | some a =>
    let m := p.manager.clear a
    match m.idInsertObj (a :: p.live) a with
    | .done m id => if buf then some (⟨m, a :: p.live⟩, id.toNat) else some (⟨m, p.live⟩, -error)
    | .full => some ({ p with manager := m }, -enomemory)
    | .freed => none

def getById (fuel : Nat) (p : Pool) (id : Int32) : Option Found :=
  if id < 0 then some .missing else p.manager.idGetObj p.live fuel id.toUInt32.toUInt16

def delete (fuel : Nat) (p : Pool) (id : Int32) : Option Pool := do
  match ← p.getById fuel id with
  | .object a =>
    let m ← p.manager.idRemoveObj p.live fuel (p.manager.id a)
    some ⟨m, p.live.erase a⟩
  | .missing => some p
  | .freed => none

def kSemaphoreDelete : Nat → Pool → Int32 → Option Pool := delete

def kMutexDelete : Nat → Pool → Int32 → Option Pool := delete

def kEventDelete : Nat → Pool → Int32 → Option Pool := delete

/-- `_DeleteMsgQueue` frees the queue, but not its id. -/
def kDeleteMsgQueue (fuel : Nat) (p : Pool) (id : Int32) : Option Pool := do
  match ← p.getById fuel id with
  | .object a => some { p with live := p.live.erase a }
  | .missing => some p
  | .freed => none

end Pool

inductive Kind
  | semaphore
  | mutex
  | event
  | msgQueue
  deriving DecidableEq

inductive ObjectOp
  | create (mem : Option Nat) (buf : Bool)
  | delete (id : Int32)

variable (k : Kind)

namespace Kind

def create : Kind → Pool → Option Nat → Bool → Option (Pool × Int)
  | .semaphore, p, mem, _ => p.semaphoreCreate mem
  | .mutex, p, mem, _ => p.mutexCreate mem
  | .event, p, mem, _ => p.eventCreate mem
  | .msgQueue, p, mem, buf => p.kCreateMsgQueue mem buf

def delete : Kind → Nat → Pool → Int32 → Option Pool
  | .semaphore => Pool.kSemaphoreDelete
  | .mutex => Pool.kMutexDelete
  | .event => Pool.kEventDelete
  | .msgQueue => Pool.kDeleteMsgQueue

def step (k : Kind) (fuel : Nat) (p : Pool) : ObjectOp → Option Pool
  | .create mem buf => if ∀ a ∈ mem, a ∉ p.live then (k.create p mem buf).map Prod.fst else none
  | .delete id => k.delete fuel p id

end Kind

variable (s : Timers)

namespace Timers

def pool (s : Timers) : Pool := ⟨s.manager, s.live⟩

end Timers

inductive Report
  | created (ret : Int)
  | deleted (id : UInt16)
  | other

def Kind.report (k : Kind) (p : Pool) : ObjectOp → Report
  | .create mem buf => match k.create p mem buf with
    | some (_, ret) => .created ret
    | none => .other
  | .delete id => if id < 0 then .other else .deleted id.toUInt32.toUInt16

def Timers.report (s : Timers) : TimerOp → Report
  | .create mem time triggerMode => .created (s.kCreateTimer mem time triggerMode).2.toInt
  | .delete id => .deleted id.toUInt32.toUInt16
  | _ => .other

structure Pool.Sound (p : Pool) : Prop where
  resolves : ∀ id, Returns (fun fuel => p.manager.idGetObj p.live fuel id) fun found =>
    found = p.manager.lookup p.live id
  capacity : p.live.length < p.manager.idMax.toNat → p.manager.allocId ≠ none

def Report.Holds (p p' : Pool) : Report → Prop
  | .created ret => (∃ a, p'.live = a :: p.live ∧ ret = (p'.manager.id a).toNat) ∨
      p'.live = p.live ∧ ∀ id : UInt16, ret = id.toNat → p'.manager.lookup p'.live id = .missing
  | .deleted id => p'.manager.lookup p'.live id = .missing
  | .other => p'.live = p.live

structure Lifetime (p : Pool) (report : Report) (p' : Pool) : Prop where
  sound : p'.Sound
  kept : ∀ a ∈ p.live, a ∈ p'.live → p'.manager.id a = p.manager.id a
  holds : report.Holds p p'

def Kind.clean (k : Kind) (p : Pool) : ObjectOp → Bool
  | .create mem buf => k ≠ .msgQueue ∨ mem = none ∨ p.manager.allocId.isNone ∨ buf
  | .delete id => k ≠ .msgQueue ∨ id < 0 ∨
      p.manager.lookup p.live id.toUInt32.toUInt16 = .missing

def Timers.clean (s : Timers) : TimerOp → Bool
  | .create mem _ _ => (mem.isSome ∧ s.manager.allocId.isSome) ∨
    s.manager.lookup s.live 0 = .missing
  | .delete id => s.manager.lookup s.live id.toUInt32.toUInt16 = .missing
  | _ => true

variable {id : Int32} {mem : Option Nat} {ret : Int}

section
variable {m m' : IdManager} {live : List Nat} {p p' : Pool} {a fuel : Nat}

lemma sound_of_inv (hi : IdInv m live) : Pool.Sound ⟨m, live⟩ := ⟨hi.idGetObj, hi.allocId_ne_none⟩

lemma not_sound_of_freed (hi : IdInv m live) (ha : a ∈ live) :
    ¬ Pool.Sound ⟨m, live.erase a⟩ := by
  intro hs
  obtain ⟨found, ⟨hlookup, hfreed⟩, -⟩ :=
    ((hs.resolves (m.id a)).and (hi.idGetObj_freed ha)).eventually
  rw [hfreed] at hlookup
  obtain h | ⟨b, -, -, h⟩ := IdInv.lookup_cases m (live.erase a) (m.id a)
  · cases hlookup.trans h
  · cases hlookup.trans h

lemma lifetime_same (hi : IdInv m live) {report : Report}
    (hholds : report.Holds ⟨m, live⟩ ⟨m, live⟩) : Lifetime ⟨m, live⟩ report ⟨m, live⟩ :=
  ⟨sound_of_inv hi, fun _ _ _ => rfl, hholds⟩

lemma lifetime_created (hi : IdInv m' (a :: live)) (hids : ∀ b ∈ live, m'.id b = m.id b) :
    Lifetime ⟨m, live⟩ (.created (m'.id a).toNat) ⟨m', a :: live⟩ :=
  ⟨sound_of_inv hi, fun b hb _ => hids b hb, .inl ⟨a, rfl, rfl⟩⟩

lemma lifetime_failed_iff (hi : IdInv m' live) (hids : ∀ b ∈ live, m'.id b = m.id b) :
    Lifetime ⟨m, live⟩ (.created ret) ⟨m', live⟩ ↔
      ∀ id : UInt16, ret = id.toNat → m'.lookup live id = .missing := by
  refine ⟨fun h => ?_, fun h => ⟨sound_of_inv hi, fun b hb _ => hids b hb, .inr ⟨rfl, h⟩⟩⟩
  obtain ⟨b, hlive, -⟩ | ⟨-, h⟩ := h.holds
  · exact absurd (congrArg List.length hlive) (by simp)
  · exact h

lemma lifetime_failed (hi : IdInv m' live) (hids : ∀ b ∈ live, m'.id b = m.id b) (hret : ret < 0)
    : Lifetime ⟨m, live⟩ (.created ret) ⟨m', live⟩ :=
  (lifetime_failed_iff hi hids).mpr fun _ h => absurd h (by omega)

lemma clear_id (ha : a ∉ live) (b : Nat) (hb : b ∈ live) : (m.clear a).id b = m.id b := by
  have hne : b ≠ a := fun h => ha (h ▸ hb)
  exact update_of_ne hne _ _

variable (hi : IdInv p.manager p.live)
include hi

lemma Pool.create_spec (hmem : ∀ a ∈ mem, a ∉ p.live) :
    ∃ p' ret, p.create mem = some (p', ret) ∧
      IdInv p'.manager p'.live ∧ Lifetime p (.created ret) p' := by
  cases mem with
  | none => exact ⟨p, _, rfl, hi, lifetime_failed hi (fun _ _ => rfl) (by decide)⟩
  | some a =>
    have ha := hmem a rfl
    obtain ⟨-, hins, hi'⟩ | ⟨-, m', hins, hi', hids⟩ := hi.insert_cases ha
    · refine ⟨_, _, by rw [Pool.create, hins], hi', ?_⟩
      exact lifetime_failed hi' (clear_id ha) (by decide)
    · exact ⟨_, _, by rw [Pool.create, hins], hi', lifetime_created hi' hids⟩

lemma found_cases {found : Found} (h : p.getById fuel id = some found) :
    (found = .missing ∧ (id < 0 ∨ p.manager.lookup p.live id.toUInt32.toUInt16 = .missing)) ∨
      ¬ id < 0 ∧ ∃ a ∈ p.live, p.manager.id a = id.toUInt32.toUInt16 ∧ found = .object a ∧
        p.manager.lookup p.live id.toUInt32.toUInt16 = .object a := by
  rw [Pool.getById] at h
  split at h
  · cases h
    exact .inl ⟨rfl, .inl ‹_›⟩
  · rename_i hid
    rw [(hi.idGetObj _).post h]
    obtain hlookup | ⟨a, ha, heq, hlookup⟩ :=
      IdInv.lookup_cases p.manager p.live id.toUInt32.toUInt16
    · exact .inl ⟨hlookup, .inr hlookup⟩
    · exact .inr ⟨hid, a, ha, heq, hlookup, hlookup⟩

lemma Pool.delete_spec (h : p.delete fuel id = some p') : IdInv p'.manager p'.live ∧
      Lifetime p (if id < 0 then .other else .deleted id.toUInt32.toUInt16) p' := by
  obtain ⟨found, hfound, h⟩ := bind_eq_some_iff.mp h
  obtain ⟨rfl, hid⟩ | ⟨hid, a, ha, heq, rfl, -⟩ := found_cases hi hfound
  · cases h
    refine ⟨hi, lifetime_same hi ?_⟩
    by_cases hneg : id < 0
    · rw [if_pos hneg]
      rfl
    · rw [if_neg hneg]
      exact hid.resolve_left hneg
  · obtain ⟨m', hremove, h⟩ := bind_eq_some_iff.mp h
    cases h
    obtain ⟨hi', hids⟩ := (hi.remove ha).post hremove
    have hmem : ∀ b ∈ p.live.erase a, b ≠ a ∧ b ∈ p.live := fun b hb =>
      hi.nodup.mem_erase_iff.mp hb
    refine ⟨hi', sound_of_inv hi', fun b _ hb => hids b (hmem b hb).1, ?_⟩
    rw [if_neg hid]
    refine IdInv.lookup_of_forall fun b hb hbid => ?_
    obtain ⟨hne, hb⟩ := hmem b hb
    rw [hids b hne, ← heq] at hbid
    exact hne (hi.inj b hb a ha hbid)

lemma Pool.kCreateMsgQueue_spec (hmem : ∀ a ∈ mem, a ∉ p.live) (buf : Bool) :
    ∃ p' ret, p.kCreateMsgQueue mem buf = some (p', ret) ∧
      (Lifetime p (.created ret) p' ↔ mem = none ∨ p.manager.allocId.isNone ∨ buf) ∧
      ((mem = none ∨ p.manager.allocId.isNone ∨ buf) → IdInv p'.manager p'.live) := by
  cases mem with
  | none =>
    refine ⟨p, _, rfl, iff_of_true ?_ (.inl rfl), fun _ => hi⟩
    exact lifetime_failed hi (fun _ _ => rfl) (by decide)
  | some a =>
    have ha := hmem a rfl
    obtain ⟨hfull, hins, hi'⟩ | ⟨hfree, m', hins, hi', hids⟩ := hi.insert_cases ha
    · refine ⟨_, _, by rw [Pool.kCreateMsgQueue, hins], iff_of_true ?_ (by simp [hfull]),
        fun _ => hi'⟩
      exact lifetime_failed hi' (clear_id ha) (by decide)
    · cases buf with
      | true =>
        exact ⟨_, _, by rw [Pool.kCreateMsgQueue, hins]; rfl,
          iff_of_true (lifetime_created hi' hids) (by simp), fun _ => hi'⟩
      | false =>
        have hnot : ¬ (some a = none ∨ p.manager.allocId.isNone = true ∨ false = true) := by
          simpa using hfree
        refine ⟨_, _, by rw [Pool.kCreateMsgQueue, hins]; rfl, iff_of_false (fun h => ?_) hnot,
          fun h => absurd h hnot⟩
        have hfreed := not_sound_of_freed hi' List.mem_cons_self
        rw [List.erase_cons_head] at hfreed
        exact hfreed h.sound

lemma Pool.kDeleteMsgQueue_spec (h : p.kDeleteMsgQueue fuel id = some p') :
    (Lifetime p (if id < 0 then .other else .deleted id.toUInt32.toUInt16) p' ↔
      id < 0 ∨ p.manager.lookup p.live id.toUInt32.toUInt16 = .missing) ∧
    ((id < 0 ∨ p.manager.lookup p.live id.toUInt32.toUInt16 = .missing) →
      IdInv p'.manager p'.live) := by
  obtain ⟨found, hfound, h⟩ := bind_eq_some_iff.mp h
  obtain ⟨rfl, hid⟩ | ⟨hid, a, ha, -, rfl, hlookup⟩ := found_cases hi hfound
  · cases h
    refine ⟨iff_of_true (lifetime_same hi ?_) hid, fun _ => hi⟩
    by_cases hneg : id < 0
    · rw [if_pos hneg]
      rfl
    · rw [if_neg hneg]
      exact hid.resolve_left hneg
  · cases h
    have hnot : ¬ (id < 0 ∨ p.manager.lookup p.live id.toUInt32.toUInt16 = .missing) := by
      simp [hid, hlookup]
    exact ⟨iff_of_false (fun h => not_sound_of_freed hi ha h.sound) hnot, fun h => absurd h hnot⟩

omit hi in
lemma Kind.eq_create {k : Kind} (hk : k ≠ .msgQueue) (p : Pool) (mem : Option Nat) (buf : Bool) :
    k.create p mem buf = p.create mem := by
  cases k with
  | msgQueue => exact absurd rfl hk
  | semaphore | mutex | event => rfl

omit hi in
lemma Kind.eq_delete {k : Kind} (hk : k ≠ .msgQueue) : k.delete = Pool.delete := by
  cases k with
  | msgQueue => exact absurd rfl hk
  | semaphore | mutex | event => rfl

lemma Kind.step_iff {k : Kind} {op : ObjectOp} (h : k.step fuel p op = some p') :
    (Lifetime p (k.report p op) p' ↔ k.clean p op = true) ∧
      (k.clean p op = true → IdInv p'.manager p'.live) := by
  by_cases hk : k = .msgQueue
  · subst hk
    cases op with
    | create mem buf =>
      obtain ⟨hmem, h⟩ := ite_none_right_eq_some.mp h
      obtain ⟨p₁, ret, hcreate, hspec⟩ := Pool.kCreateMsgQueue_spec hi hmem buf
      have heq : Kind.create .msgQueue p mem buf = some (p₁, ret) := hcreate
      rw [heq] at h
      cases h
      simpa [Kind.report, heq, Kind.clean] using hspec
    | delete id => simpa [Kind.report, Kind.clean] using Pool.kDeleteMsgQueue_spec hi h
  · have hclean : k.clean p op = true := by cases op <;> simp [Kind.clean, hk]
    cases op with
    | create mem buf =>
      obtain ⟨hmem, h⟩ := ite_none_right_eq_some.mp h
      obtain ⟨p₁, ret, hcreate, hi', hlife⟩ := Pool.create_spec hi hmem
      rw [Kind.eq_create hk, hcreate] at h
      cases h
      rw [Kind.report, Kind.eq_create hk, hcreate]
      exact ⟨iff_of_true hlife hclean, fun _ => hi'⟩
    | delete id =>
      rw [Kind.step, Kind.eq_delete hk] at h
      obtain ⟨hi', hlife⟩ := Pool.delete_spec hi h
      exact ⟨iff_of_true hlife hclean, fun _ => hi'⟩

end

section
variable {debug : Bool} {fuel : Nat} {s s' : Timers} {t : Nat}

namespace Timers

lemma pool_rmSortlist (s : Timers) (t : Nat) : (s.rmSortlist t).pool = s.pool := by
  rw [rmSortlist]
  split <;> rfl

lemma pool_startRun (h : startRun debug fuel s t = some s') : s'.pool = s.pool := by
  rw [startRun_eq] at h
  obtain ⟨-, h⟩ := ite_none_left_eq_some.mp h
  obtain ⟨node, -, rfl⟩ := map_eq_some_iff.mp h
  rfl

lemma pool_quitRun (s : Timers) (t : Nat) : (s.quitRun t).pool = s.pool := by
  rw [quitRun]
  split
  · exact pool_rmSortlist _ t
  · rfl

lemma pool_setTimeslice (s : Timers) (t : Nat) (ticks : UInt32) :
    (s.setTimeslice t ticks).pool = s.pool := by
  rw [setTimeslice]
  split <;> rfl

lemma pool_checkTimerList (h : s.checkTimerList debug fuel = some s') : s'.pool = s.pool := by
  induction fuel generalizing s with
  | zero => cases h
  | succ fuel ih =>
    rw [checkTimerList] at h
    split at h
    · cases h
      rfl
    · rename_i t _
      split at h
      · split at h
        · dsimp only at h
          split at h
          · obtain ⟨s₁, h₁, h⟩ := bind_eq_some_iff.mp h
            rw [ih h, pool_startRun h₁, pool_rmSortlist]
          · rw [ih h, pool_quitRun, pool_rmSortlist]
        · exact ih h
      · cases h
        rfl

lemma pool_assign {ticks : UInt32} (h : s.kTimerAssignMemberRun debug fuel id ticks = some s') :
    s'.pool = s.pool := by
  obtain ⟨found, -, h⟩ := bind_eq_some_iff.mp h
  cases found with
  | object t =>
    dsimp only at h
    split at h
    · cases h
      rfl
    · rw [pool_startRun h, pool_setTimeslice]
  | missing =>
    obtain ⟨-, h⟩ := ite_none_left_eq_some.mp h
    split at h
    · cases h
      rfl
    · cases h
      rfl
  | freed =>
    cases h
    rfl

lemma pool_call {f : Nat → Option Timers} (h : s.call fuel id f = some s')
    (hf : ∀ t, f t = some s' → s'.pool = s.pool) : s'.pool = s.pool := by
  obtain ⟨found, -, h⟩ := bind_eq_some_iff.mp h
  cases found with
  | object t => exact hf t h
  | missing | freed =>
    cases h
    rfl

lemma toInt_id (id : UInt16) : id.toUInt32.toInt32.toInt = id.toNat := by
  have hlt := id.toNat_lt
  have h : id.toUInt32.toInt32.toBitVec = id.toUInt32.toBitVec := rfl
  rw [Int32.toInt, h, BitVec.toInt_eq_toNat_of_lt]
  · simp
  · simp only [UInt32.toNat_toBitVec, UInt16.toNat_toUInt32]
    omega

lemma lifetime_zero_iff {m m' : IdManager} {live : List Nat} (hi : IdInv m' live)
    (hids : ∀ b ∈ live, m'.id b = m.id b) :
    Lifetime ⟨m, live⟩ (.created 0) ⟨m', live⟩ ↔ m.lookup live 0 = .missing := by
  have hlookup : m'.lookup live 0 = m.lookup live 0 := by
    rw [IdManager.lookup, List.find?_congr fun b hb => by rw [hids b hb], IdManager.lookup]
  rw [lifetime_failed_iff hi hids, ← hlookup]
  refine ⟨fun h => h 0 rfl, fun h id hid => ?_⟩
  obtain rfl : id = 0 := UInt16.toNat_inj.mp (Int.ofNat_inj.mp hid).symm
  exact h

variable (hi : IdInv s.manager s.live)
include hi

lemma kCreateTimer_pool_iff (hmem : ∀ t ∈ mem, t ∉ s.live) (time : UInt32) (triggerMode : UInt8) :
    (Lifetime s.pool (s.report (.create mem time triggerMode))
        (s.kCreateTimer mem time triggerMode).1.pool ↔
      s.clean (.create mem time triggerMode) = true) ∧
    IdInv (s.kCreateTimer mem time triggerMode).1.manager
      (s.kCreateTimer mem time triggerMode).1.live := by
  cases mem with
  | none =>
    refine ⟨(lifetime_zero_iff hi fun _ _ => rfl).trans ?_, hi⟩
    simp [clean]
  | some t =>
    have ht := hmem t rfl
    rw [report, kCreateTimer, clear_idInsertObj]
    obtain ⟨hfull, hdone, hi'⟩ | ⟨hfree, m', hdone, hi', hids⟩ := hi.insert_cases ht
    · rw [hdone]
      refine ⟨(lifetime_zero_iff hi' (clear_id ht)).trans ?_, hi'⟩
      simp [clean, hfull]
    · rw [hdone]
      refine ⟨iff_of_true ?_ ?_, hi'⟩
      · rw [toInt_id]
        exact lifetime_created hi' hids
      · simp [clean, isSome_iff_ne_none.mpr hfree]

omit hi in
lemma delete_pool (s : Timers) (t : Nat) : (s.delete t).pool = ⟨s.manager, s.live.erase t⟩ := by
  rw [delete]
  have h := pool_rmSortlist s t
  simp only [pool, Pool.mk.injEq] at h ⊢
  rw [h.1, h.2]
  exact ⟨rfl, rfl⟩

lemma delete_pool_iff (h : s.call fuel id (fun t => some (s.delete t)) = some s') :
    (Lifetime s.pool (s.report (.delete id)) s'.pool ↔ s.clean (.delete id) = true) ∧
      (s.clean (.delete id) = true → IdInv s'.manager s'.live) := by
  obtain ⟨found, hfound, h⟩ := bind_eq_some_iff.mp h
  have hfound := (hi.idGetObj _).post hfound
  obtain hlookup | ⟨t, ht, -, hlookup⟩ := IdInv.lookup_cases s.manager s.live id.toUInt32.toUInt16
  · rw [hlookup] at hfound
    subst hfound
    cases h
    exact ⟨iff_of_true (lifetime_same hi hlookup) (by simpa [clean] using hlookup), fun _ => hi⟩
  · rw [hlookup] at hfound
    subst hfound
    cases h
    have hnot : ¬ s.clean (.delete id) = true := by simp [clean, hlookup]
    refine ⟨iff_of_false (fun h => ?_) hnot, fun h => absurd h hnot⟩
    have hsound := h.sound
    rw [delete_pool] at hsound
    exact not_sound_of_freed hi ht hsound

lemma lifetime_iff {op : TimerOp} (h : timerStep debug fuel s op = some s') :
    (Lifetime s.pool (s.report op) s'.pool ↔ s.clean op = true) ∧
      (s.clean op = true → IdInv s'.manager s'.live) := by
  -- the calls that neither create nor delete
  have hsame : s'.pool = s.pool → Lifetime s.pool .other s'.pool ∧ IdInv s'.manager s'.live := by
    intro heq
    rw [heq]
    obtain ⟨hm, hl⟩ := Pool.mk.inj heq
    exact ⟨lifetime_same hi rfl, hm ▸ hl ▸ hi⟩
  obtain ⟨-, h⟩ := ite_none_left_eq_some.mp h
  cases op with
  | create mem time triggerMode =>
    obtain ⟨hmem, h⟩ := ite_none_right_eq_some.mp h
    cases h
    obtain ⟨hiff, hi'⟩ := kCreateTimer_pool_iff hi hmem time triggerMode
    exact ⟨hiff, fun _ => hi'⟩
  | delete id => exact delete_pool_iff hi h
  | startRun id =>
    obtain ⟨hlife, hi'⟩ := hsame (pool_call h fun t h => pool_startRun h)
    exact ⟨iff_of_true hlife rfl, fun _ => hi'⟩
  | quitRun id =>
    obtain ⟨hlife, hi'⟩ := hsame (pool_call h fun t h => by cases h; exact pool_quitRun s t)
    exact ⟨iff_of_true hlife rfl, fun _ => hi'⟩
  | modify id ticks =>
    obtain ⟨hlife, hi'⟩ := hsame (pool_call h
      fun t h => by cases h; exact pool_setTimeslice s t ticks)
    exact ⟨iff_of_true hlife rfl, fun _ => hi'⟩
  | assignMemberRun id ticks =>
    obtain ⟨hlife, hi'⟩ := hsame (pool_assign h)
    exact ⟨iff_of_true hlife rfl, fun _ => hi'⟩
  | tick =>
    have htick : s'.pool = Timers.pool { s with tick := s.tick + 1 } := pool_checkTimerList h
    obtain ⟨hlife, hi'⟩ := hsame htick
    exact ⟨iff_of_true hlife rfl, fun _ => hi'⟩

end Timers
end

/-- Ids and objects stay in step all along exactly when no live message queue or timer is deleted, no
creation of a message queue fails after it got its id, and no creation of a timer fails as long as
there is a timer with id 0. -/
theorem objectRun_lifetime_iff (idMax hoffset : UInt16) (fuel : Nat) :
    (∀ (k : Kind) (ops : List ObjectOp),
      Along (k.step fuel) (fun p op p' => Lifetime p (k.report p op) p') (.boot idMax hoffset) ops ↔
        Each (k.step fuel) (fun p op => k.clean p op) (.boot idMax hoffset) ops) ∧
    ∀ (debug : Bool) (tick : UInt32) (ops : List TimerOp),
      Along (timerStep debug fuel) (fun s op s' => Lifetime s.pool (s.report op) s'.pool)
          (.boot idMax hoffset tick) ops ↔
        Each (timerStep debug fuel) (fun s op => s.clean op) (.boot idMax hoffset tick) ops := by
  refine ⟨fun k ops => ?_, fun debug tick ops => ?_⟩
  · exact along_iff_each (I := fun _ => True) (P := fun p => IdInv p.manager p.live)
      (fun _ _ => True.intro) (fun hi h _ hclean => (Kind.step_iff hi h).2 hclean)
      (fun _ hi h => (Kind.step_iff hi h).1) True.intro (IdInv.declare idMax hoffset)
  · exact along_iff_each (I := fun _ => True) (P := fun s => IdInv s.manager s.live)
      (fun _ _ => True.intro) (fun hi h _ hclean => (Timers.lifetime_iff hi h).2 hclean)
      (fun _ hi h => (Timers.lifetime_iff hi h).1) True.intro (IdInv.declare idMax hoffset)

theorem objectRun_leaked :
    ∃ p, runs (Kind.step .msgQueue 10) (.boot 1 1) [.create (some 100) true, .delete 0] = some p ∧
      p.live = [] ∧ p.manager.idGetObj p.live 10 0 = some .freed ∧ p.manager.allocId.isNone ∧
      ¬ p.Sound := by
  have hrun : (do
      let p ← runs (Kind.step .msgQueue 10) (.boot 1 1) [.create (some 100) true, .delete 0]
      some (decide (p.live = [] ∧ p.manager.idGetObj p.live 10 0 = some .freed ∧
        p.manager.allocId.isNone ∧ p.manager.idMax = 1))) = some true := by
    decide +kernel
  obtain ⟨p, hp, h⟩ := bind_eq_some_iff.mp hrun
  obtain ⟨hlive, hget, halloc, hmax⟩ := of_decide_eq_true (Option.some.inj h)
  refine ⟨p, hp, hlive, hget, halloc, fun hsound => ?_⟩
  exact hsound.capacity (by simp [hlive, hmax]) (isNone_iff_eq_none.mp halloc)

end Xiuos.Kernel
