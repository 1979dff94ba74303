import Xiuos.Kernel.KtaskLife

namespace Xiuos.Kernel
open Lib Function List Option Timers

namespace Pool

def findEventById : Nat → Pool → Int32 → Option Found := getById

def getMsgQueueById : Nat → Pool → Int32 → Option Found := getById

def getTaskWithIdnodeInfo : Nat → Pool → Int32 → Option Found := getById

def Under (p : Pool) (id : Int32) : Prop :=
  ∃ fuel a, p.manager.idGetObj p.live fuel id.toUInt32.toUInt16 = some (.object a)

structure Carries (p : Pool) (issued : Nat → Option Int) : Prop where
  nodup : p.live.Nodup
  inj : ∀ a ∈ p.live, ∀ b ∈ p.live, p.manager.id a = p.manager.id b → a = b
  used : ∀ a ∈ p.live, p.manager.Used (p.manager.id a).toNat
  issued : ∀ a ∈ p.live, issued a = some ↑(p.manager.id a).toNat

end Pool

def Kind.find : Kind → Nat → Pool → Int32 → Option Found
  | .semaphore => Pool.getById
  | .mutex => Pool.getById
  | .event => Pool.findEventById
  | .msgQueue => Pool.getMsgQueueById

def Kind.created (k : Kind) (p : Pool) : ObjectOp → Option (Nat × Int)
  | .create (some a) buf => (k.create p (some a) buf).map fun r => (a, r.2)
  | _ => none

def TaskTable.created (prioMax fuel : Nat) (s : TaskTable) : TaskOp → Option (Nat × Int)
  | .create (some a) stack priority =>
    (s.kTaskCreate prioMax fuel (some a) stack priority).map fun r => (a, r.2)
  | _ => none

def Timers.created (s : Timers) : TimerOp → Option (Nat × Int)
  | .create (some t) time triggerMode =>
    some (t, (s.kCreateTimer (some t) time triggerMode).2.toInt)
  | _ => none

section
variable {σ ι : Type}

def noting (step : σ → ι → Option σ) (created : σ → ι → Option (Nat × Int))
    (s : σ × (Nat → Option Int)) (i : ι) : Option (σ × (Nat → Option Int)) :=
  (step s.1 i).map fun s' => (s', match created s.1 i with
    | some (a, ret) => update s.2 a (some ret)
    | none => s.2)

end

def OnlyIssued (find : Nat → Int32 → Option Found) (issued : Nat → Option Int) (id : Int32) :
    Prop :=
  ∀ fuel a, find fuel id = some (.object a) → issued a = some id.toInt

section
variable {m m' : IdManager} {live : List Nat} {fuel a : Nat} {id : UInt16}

lemma id_of_idGetObj (h : m.idGetObj live fuel id = some (.object a)) : m.id a = id := by
  have ha := live_of_idGetObj h
  rw [IdManager.idGetObj] at h
  split at h
  · cases h
  obtain ⟨node, hfind, h⟩ := bind_eq_some_iff.mp h
  cases node with
  | inl => cases h
  | inr b =>
    have hb : b = a := by
      dsimp only at h
      split at h
      · cases h
        rfl
      · cases h
    subst hb
    obtain hhead | hp := Links.find_spec hfind
    · cases hhead
    · simpa [ha] using hp

lemma idInsertObj_done (h : m.idInsertObj live a = .done m' id) :
    m'.id = update m.id a id ∧ ¬ m.Used id.toNat ∧ ∀ i, m'.Used i ↔ m.Used i ∨ i = id.toNat := by
  rw [IdManager.idInsertObj] at h
  split at h
  · cases h
  rename_i m₁ id₁ halloc
  obtain ⟨-, hfree, hused, idMap, rfl⟩ := allocId_some halloc
  have hdone : m' = IdManager.insertObj { m with idMap, id := update m.id a id₁ } a ∧ id = id₁ := by
    dsimp only at h
    split at h
    · split at h
      · cases h
        exact ⟨rfl, rfl⟩
      · cases h
    · cases h
      exact ⟨rfl, rfl⟩
  obtain ⟨rfl, rfl⟩ := hdone
  exact ⟨rfl, hfree, hused⟩

lemma idRemoveObj_some (h : m.idRemoveObj live fuel id = some m') :
    m' = m ∨ ∃ b ∈ live, m.id b = id ∧ m'.id = update m.id b 0xffff ∧
      ∀ i, m'.Used i ↔ m.Used i ∧ i ≠ id.toNat := by
  obtain ⟨found, hfound, h⟩ := bind_eq_some_iff.mp h
  cases found with
  | object b =>
    cases h
    have hid := id_of_idGetObj hfound
    refine .inr ⟨b, live_of_idGetObj hfound, hid, rfl, fun i => ?_⟩
    rw [← hid]
    exact freeId_used i
  | missing =>
    cases h
    exact .inl rfl
  | freed => cases h

end

namespace Pool.Carries

variable {p p' : Pool} {m : IdManager} {issued issued' : Nat → Option Int} {a fuel : Nat}
  {id : UInt16} {ret : Int}

section
variable (h : p.Carries issued)
include h

lemma mono (hsub : p'.live.Sublist p.live) (hid : ∀ b ∈ p'.live, p'.manager.id b = p.manager.id b)
    (hused : ∀ b ∈ p'.live, p'.manager.Used (p.manager.id b).toNat)
    (hissued : ∀ b ∈ p'.live, issued' b = issued b) : p'.Carries issued' where
  nodup := hsub.nodup h.nodup
  inj b hb c hc heq := by
    rw [hid b hb, hid c hc] at heq
    exact h.inj b (hsub.subset hb) c (hsub.subset hc) heq
  used b hb := by
    rw [hid b hb]
    exact hused b hb
  issued b hb := by
    rw [hissued b hb, hid b hb]
    exact h.issued b (hsub.subset hb)

omit h in
lemma update_of_not_mem {live : List Nat} (ha : a ∉ live) {α : Type} (f : Nat → α) (x : α)
    (b : Nat) (hb : b ∈ live) : update f a x b = f b :=
  update_of_ne (fun h : b = a => ha (h ▸ hb)) _ _

lemma clear (ha : a ∉ p.live) (ret : Int) :
    Carries ⟨p.manager.clear a, p.live⟩ (update issued a (some ret)) :=
  h.mono (List.Sublist.refl _) (update_of_not_mem ha _ _) h.used (update_of_not_mem ha _ _)

lemma insert (ha : a ∉ p.live)
    (hins : (p.manager.clear a).idInsertObj (a :: p.live) a = .done m id) :
    Carries ⟨m, a :: p.live⟩ (update issued a (some id.toNat)) := by
  obtain ⟨hid, hfree, hused⟩ := idInsertObj_done hins
  have hself : m.id a = id := by rw [hid, update_self]
  have hother : ∀ b ∈ p.live, m.id b = p.manager.id b := by
    intro b hb
    rw [hid, update_of_not_mem ha _ _ b hb]
    exact update_of_not_mem ha _ _ b hb
  have hfresh : ∀ b ∈ p.live, p.manager.id b ≠ id := fun b hb heq => hfree (heq ▸ h.used b hb)
  refine ⟨nodup_cons.mpr ⟨ha, h.nodup⟩, fun b hb c hc heq => ?_, fun b hb => ?_,
    fun b hb => ?_⟩
  · dsimp only at heq
    obtain rfl | hb' := mem_cons.mp hb
    · obtain rfl | hc' := mem_cons.mp hc
      · rfl
      · rw [hself, hother c hc'] at heq
        exact absurd heq.symm (hfresh c hc')
    · obtain rfl | hc' := mem_cons.mp hc
      · rw [hself, hother b hb'] at heq
        exact absurd heq (hfresh b hb')
      · rw [hother b hb', hother c hc'] at heq
        exact h.inj b hb' c hc' heq
  · refine (hused _).mpr ?_
    obtain rfl | hb := mem_cons.mp hb
    · exact .inr (by rw [hself])
    · dsimp only
      rw [hother b hb]
      exact .inl (h.used b hb)
  · obtain rfl | hb := mem_cons.mp hb
    · rw [update_self, hself]
    · rw [update_of_not_mem ha _ _ b hb, hother b hb]
      exact h.issued b hb

lemma insert_freed (ha : a ∉ p.live)
    (hins : (p.manager.clear a).idInsertObj (a :: p.live) a = .done m id) (ret : Int) :
    Carries ⟨m, p.live⟩ (update issued a (some ret)) := by
  have hi := h.insert ha hins
  refine hi.mono (sublist_cons_self a p.live) (fun _ _ => rfl) (fun b hb => ?_) fun b hb => ?_
  · exact hi.used b (mem_cons_of_mem a hb)
  · rw [update_of_not_mem ha _ _ b hb, update_of_not_mem ha _ _ b hb]

lemma erase (a : Nat) : Carries ⟨p.manager, p.live.erase a⟩ issued :=
  h.mono erase_sublist (fun _ _ => rfl) (fun b hb => h.used b (mem_of_mem_erase hb))
    fun _ _ => rfl

lemma remove (ha : a ∈ p.live)
    (hremove : p.manager.idRemoveObj p.live fuel (p.manager.id a) = some m) :
    Carries ⟨m, p.live.erase a⟩ issued := by
  obtain rfl | ⟨b, hb, heq, hid, hused⟩ := idRemoveObj_some hremove
  · exact h.erase a
  obtain rfl := h.inj b hb a ha heq
  have hne : ∀ c ∈ p.live.erase b, c ≠ b ∧ c ∈ p.live := fun c hc => h.nodup.mem_erase_iff.mp hc
  refine h.mono erase_sublist (fun c hc => ?_) (fun c hc => (hused _).mpr ?_) fun _ _ => rfl
  · dsimp only
    rw [hid, update_of_ne (hne c hc).1]
  · refine ⟨h.used c (hne c hc).2, fun h' => (hne c hc).1 ?_⟩
    exact h.inj c (hne c hc).2 b hb (UInt16.toNat_inj.mp h')

lemma create (ha : a ∉ p.live) (hcreate : p.create (some a) = some (p', ret)) :
    p'.Carries (update issued a (some ret)) := by
  rw [Pool.create] at hcreate
  cases hins : (p.manager.clear a).idInsertObj (a :: p.live) a with
  | done m id =>
    rw [hins] at hcreate
    cases hcreate
    exact h.insert ha hins
  | full =>
    rw [hins] at hcreate
    cases hcreate
    exact h.clear ha _
  | freed =>
    rw [hins] at hcreate
    cases hcreate

lemma kCreateMsgQueue {buf : Bool} (ha : a ∉ p.live)
    (hcreate : p.kCreateMsgQueue (some a) buf = some (p', ret)) :
    p'.Carries (update issued a (some ret)) := by
  rw [Pool.kCreateMsgQueue] at hcreate
  cases hins : (p.manager.clear a).idInsertObj (a :: p.live) a with
  | done m id =>
    rw [hins] at hcreate
    cases buf with
    | true =>
      cases hcreate
      exact h.insert ha hins
    | false =>
      cases hcreate
      exact h.insert_freed ha hins _
  | full =>
    rw [hins] at hcreate
    cases hcreate
    exact h.clear ha _
  | freed =>
    rw [hins] at hcreate
    cases hcreate

omit h in
lemma live_of_getById {id : Int32} (h : p.getById fuel id = some (.object a)) : a ∈ p.live := by
  rw [Pool.getById] at h
  split at h
  · cases h
  · exact live_of_idGetObj h

lemma delete {id : Int32} (hdelete : p.delete fuel id = some p') : p'.Carries issued := by
  obtain ⟨found, hfound, hdelete⟩ := bind_eq_some_iff.mp hdelete
  cases found with
  | object a =>
    obtain ⟨m, hremove, hdelete⟩ := bind_eq_some_iff.mp hdelete
    cases hdelete
    exact h.remove (live_of_getById hfound) hremove
  | missing =>
    cases hdelete
    exact h
  | freed => cases hdelete

lemma kDeleteMsgQueue {id : Int32} (hdelete : p.kDeleteMsgQueue fuel id = some p') :
    p'.Carries issued := by
  obtain ⟨found, -, hdelete⟩ := bind_eq_some_iff.mp hdelete
  cases found with
  | object a =>
    cases hdelete
    exact h.erase a
  | missing =>
    cases hdelete
    exact h
  | freed => cases hdelete

end

lemma boot (idMax hoffset : UInt16) : (Pool.boot idMax hoffset).Carries fun _ => none where
  nodup := nodup_nil
  inj _ h := absurd h not_mem_nil
  used _ h := absurd h not_mem_nil
  issued _ h := absurd h not_mem_nil

end Pool.Carries

section
variable {fuel prioMax : Nat} {debug : Bool} {issued : Nat → Option Int}

lemma noting_some {σ ι : Type} {step : σ → ι → Option σ} {created : σ → ι → Option (Nat × Int)}
    {s s' : σ × (Nat → Option Int)} {i : ι} (h : noting step created s i = some s') :
    step s.1 i = some s'.1 ∧ s'.2 = match created s.1 i with
      | some (a, ret) => update s.2 a (some ret)
      | none => s.2 := by
  obtain ⟨s₁, hstep, rfl⟩ := map_eq_some_iff.mp h
  exact ⟨hstep, rfl⟩

lemma Kind.carries {k : Kind} {op : ObjectOp} {s s' : Pool × (Nat → Option Int)}
    (hs : s.1.Carries s.2) (h : noting (k.step fuel) k.created s op = some s') :
    s'.1.Carries s'.2 := by
  obtain ⟨hstep, hnote⟩ := noting_some h
  rw [hnote]
  cases op with
  | delete id =>
    by_cases hk : k = .msgQueue
    · subst hk
      exact hs.kDeleteMsgQueue hstep
    · rw [Kind.step, Kind.eq_delete hk] at hstep
      exact hs.delete hstep
  | create mem buf =>
    obtain ⟨hmem, hstep⟩ := ite_none_right_eq_some.mp hstep
    obtain ⟨⟨p', ret⟩, hcreate, hp⟩ := map_eq_some_iff.mp hstep
    rw [← hp]
    cases mem with
    | none =>
      have heq : p' = s.1 := by
        cases k <;> cases hcreate <;> rfl
      rw [heq]
      exact hs
    | some a =>
      simp only [Kind.created, hcreate, map_some]
      by_cases hk : k = .msgQueue
      · subst hk
        exact hs.kCreateMsgQueue (hmem a rfl) hcreate
      · rw [Kind.eq_create hk] at hcreate
        exact hs.create (hmem a rfl) hcreate

lemma TaskTable.carries {op : TaskOp} {s s' : TaskTable × (Nat → Option Int)}
    (hs : s.1.pool.Carries s.2)
    (h : noting (TaskTable.step prioMax fuel) (TaskTable.created prioMax fuel) s op = some s') :
    s'.1.pool.Carries s'.2 := by
  obtain ⟨hstep, hnote⟩ := noting_some h
  rw [hnote]
  cases op with
  | reclaim a =>
    obtain ⟨⟨ha, -, -⟩, hstep⟩ := ite_none_right_eq_some.mp hstep
    obtain ⟨m, hremove, hstep⟩ := bind_eq_some_iff.mp hstep
    rw [← Option.some.inj hstep]
    exact hs.remove ha hremove
  | create mem stack priority =>
    obtain ⟨hgives, hstep⟩ := ite_none_right_eq_some.mp hstep
    obtain ⟨⟨s₁, ret⟩, hcreate, hp⟩ := map_eq_some_iff.mp hstep
    rw [← hp]
    obtain ⟨rfl, rfl, -⟩ | ⟨a, rfl, hcases⟩ := TaskTable.kTaskCreate_cases hcreate
    · exact hs
    have ha := (hgives.1 a rfl).1
    simp only [TaskTable.created, hcreate, map_some]
    obtain ⟨-, rfl, -⟩ | ⟨m, id, hdone, hinit⟩ := hcases
    · exact hs.clear ha ret
    obtain ⟨start, -, -, rfl, rfl⟩ | ⟨-, m', hremove, rfl, -⟩ := hinit
    · exact hs.insert ha hdone
    · have hself : m.id a = id := by rw [(idInsertObj_done hdone).1, update_self]
      rw [← hself] at hremove
      have hgone := (hs.insert ha hdone).remove mem_cons_self hremove
      rw [erase_cons_head] at hgone
      refine hgone.mono (List.Sublist.refl _) (fun _ _ => rfl) hgone.used fun b hb => ?_
      rw [Pool.Carries.update_of_not_mem ha _ _ b hb, Pool.Carries.update_of_not_mem ha _ _ b hb]

lemma Timers.carries_create {s : Timers} (hs : s.pool.Carries issued) {t : Nat} (ht : t ∉ s.live)
    (time : UInt32) (triggerMode : UInt8) :
    (s.kCreateTimer (some t) time triggerMode).1.pool.Carries
      (update issued t (some (s.kCreateTimer (some t) time triggerMode).2.toInt)) := by
  have hins : (s.clear t).manager.idInsertObj (t :: (s.clear t).live) t =
    (s.pool.manager.clear t).idInsertObj (t :: s.pool.live) t := rfl
  rw [kCreateTimer, hins]
  cases hdone : (s.pool.manager.clear t).idInsertObj (t :: s.pool.live) t with
  | done m id =>
    dsimp only
    rw [toInt_id]
    exact hs.insert ht hdone
  | full => exact hs.clear ht _
  | freed => exact hs.clear ht _

lemma Timers.carries {op : TimerOp} {s s' : Timers × (Nat → Option Int)}
    (hs : s.1.pool.Carries s.2)
    (h : noting (timerStep debug fuel) created s op = some s') : s'.1.pool.Carries s'.2 := by
  obtain ⟨hstep, hnote⟩ := noting_some h
  rw [hnote]
  obtain ⟨-, hstep⟩ := ite_none_left_eq_some.mp hstep
  -- the calls that neither create nor delete
  have hsame : s'.1.pool = s.1.pool → s'.1.pool.Carries s.2 := fun heq => heq ▸ hs
  cases op with
  | create mem time triggerMode =>
    obtain ⟨hmem, hstep⟩ := ite_none_right_eq_some.mp hstep
    rw [← Option.some.inj hstep]
    cases mem with
    | none => exact hs
    | some t => exact carries_create hs (hmem t rfl) time triggerMode
  | delete id =>
    obtain ⟨found, -, hstep⟩ := bind_eq_some_iff.mp hstep
    cases found with
    | object t =>
      rw [← Option.some.inj hstep, delete_pool]
      exact hs.erase t
    | missing | freed =>
      rw [← Option.some.inj hstep]
      exact hs
  | startRun id => exact hsame (pool_call hstep fun t h => pool_startRun h)
  | quitRun id =>
    refine hsame (pool_call hstep fun t h => ?_)
    rw [← Option.some.inj h]
    exact pool_quitRun s.1 t
  | modify id ticks =>
    refine hsame (pool_call hstep fun t h => ?_)
    rw [← Option.some.inj h]
    exact pool_setTimeslice s.1 t ticks
  | assignMemberRun id ticks => exact hsame (pool_assign hstep)
  | tick =>
    have htick : s'.1.pool = pool { s.1 with tick := s.1.tick + 1 } :=
      pool_checkTimerList hstep
    exact hsame htick

variable {p : Pool} {id : Int32}

lemma toNat_narrow (id : Int32) :
    (id.toUInt32.toUInt16.toNat : Int) = id.toInt ↔ 0 ≤ id.toInt ∧ id.toInt < 65536 := by
  have hnat : id.toUInt32.toUInt16.toNat = id.toBitVec.toNat % 65536 := rfl
  have hint : id.toInt = id.toBitVec.toInt := rfl
  have hlt := id.toBitVec.isLt
  have hcond := BitVec.toInt_eq_toNat_cond id.toBitVec
  rw [hnat, hint, hcond]
  split <;> omega

lemma Pool.Carries.exact_iff (h : p.Carries issued) (id : Int32) :
    OnlyIssued (fun fuel id => p.manager.idGetObj p.live fuel id.toUInt32.toUInt16) issued id ↔
      (0 ≤ id.toInt ∧ id.toInt < 65536) ∨ ¬ p.Under id := by
  have hfound : ∀ fuel a, p.manager.idGetObj p.live fuel id.toUInt32.toUInt16 = some (.object a) →
      (issued a = some id.toInt ↔ 0 ≤ id.toInt ∧ id.toInt < 65536) := by
    intro fuel a hget
    rw [h.issued a (live_of_idGetObj hget), id_of_idGetObj hget, Option.some.injEq, toNat_narrow]
  constructor
  · intro honly
    by_cases hunder : p.Under id
    · obtain ⟨fuel, a, hget⟩ := hunder
      exact .inl ((hfound fuel a hget).mp (honly fuel a hget))
    · exact .inr hunder
  · rintro (hnarrow | hunder) fuel a hget
    · exact (hfound fuel a hget).mpr hnarrow
    · exact absurd ⟨fuel, a, hget⟩ hunder

lemma Pool.Carries.getById_iff (h : p.Carries issued) (id : Int32) :
    OnlyIssued (fun fuel id => p.getById fuel id) issued id ↔ id.toInt < 65536 ∨ ¬ p.Under id := by
  have hneg : id < 0 ↔ id.toInt < 0 := Int32.lt_iff_toInt_lt
  by_cases hlt : id < 0
  · have hid := hneg.mp hlt
    refine iff_of_true (fun fuel a hget => ?_) (.inl (by omega))
    simp only [Pool.getById, if_pos hlt] at hget
    cases hget
  · have heq : OnlyIssued (fun fuel id => p.getById fuel id) issued id ↔
        OnlyIssued (fun fuel id => p.manager.idGetObj p.live fuel id.toUInt32.toUInt16) issued
          id := by simp only [OnlyIssued, Pool.getById, if_neg hlt]
    have hid := mt hneg.mpr hlt
    rw [heq, h.exact_iff]
    refine or_congr_left ?_
    omega

lemma Kind.find_eq (k : Kind) : k.find = Pool.getById := by
  cases k <;> rfl

end

/-- At any time a number leads only to objects whose creation has returned it, exactly when the
number is below 65536 (and for timers not negative) or the table has no object under its low 16
bits. -/
theorem idCalls_exact_iff (idMax hoffset : UInt16) (fuel : Nat) :
    (∀ (k : Kind) (ops : List ObjectOp),
      Always (noting (k.step fuel) k.created) (fun s => ∀ id : Int32,
        OnlyIssued (fun fuel id => k.find fuel s.1 id) s.2 id ↔ id.toInt < 65536 ∨ ¬ s.1.Under id)
        (.boot idMax hoffset, fun _ => none) ops) ∧
    (∀ (prioMax : Nat) (ops : List TaskOp),
      Always (noting (TaskTable.step prioMax fuel) (TaskTable.created prioMax fuel))
        (fun s => ∀ id : Int32,
          OnlyIssued (fun fuel id => s.1.pool.getTaskWithIdnodeInfo fuel id) s.2 id ↔
            id.toInt < 65536 ∨ ¬ s.1.pool.Under id)
        (.boot idMax hoffset, fun _ => none) ops) ∧
    ∀ (debug : Bool) (tick : UInt32) (ops : List TimerOp),
      Always (noting (timerStep debug fuel) created) (fun s => ∀ id : Int32,
        OnlyIssued (fun fuel id => s.1.kGetTimer fuel id) s.2 id ↔
          (0 ≤ id.toInt ∧ id.toInt < 65536) ∨ ¬ s.1.pool.Under id)
        (.boot idMax hoffset tick, fun _ => none) ops := by
  have hboot := Pool.Carries.boot idMax hoffset
  refine ⟨fun k ops => ?_, fun prioMax ops => ?_, fun debug tick ops => ?_⟩
  · refine Always.mono (P := fun s => s.1.Carries s.2) ?_ fun s hs => ?_
    · exact always_of_step Kind.carries hboot ops
    · rw [Kind.find_eq]
      exact hs.getById_iff
  · refine Always.mono (P := fun s => s.1.pool.Carries s.2) ?_ fun s hs => hs.getById_iff
    exact always_of_step TaskTable.carries hboot ops
  · refine Always.mono (P := fun s => s.1.pool.Carries s.2) ?_ fun s hs => hs.exact_iff
    refine always_of_step carries ?_ ops
    exact hboot

theorem getById_aliases :
    ∃ s, runs (noting (Kind.step .semaphore 10) (Kind.created .semaphore))
        (.boot 8 4, fun _ => none) [.create (some 100) true] = some s ∧
      s.2 100 = some 0 ∧ s.1.getById 10 65536 = some (.object 100) ∧
      ¬ OnlyIssued (fun fuel id => Kind.find .semaphore fuel s.1 id) s.2 65536 := by
  have hrun : (do
      let s ← runs (noting (Kind.step .semaphore 10) (Kind.created .semaphore))
        (.boot 8 4, fun _ => none) [.create (some 100) true]
      some (decide (s.2 100 = some 0 ∧ s.1.getById 10 65536 = some (.object 100)))) =
        some true := by
    decide +kernel
  obtain ⟨s, hs, h⟩ := bind_eq_some_iff.mp hrun
  obtain ⟨hissued, hfind⟩ := of_decide_eq_true (Option.some.inj h)
  refine ⟨s, hs, hissued, hfind, fun honly => ?_⟩
  have heq := honly 10 100 hfind
  rw [hissued] at heq
  exact absurd heq (by decide)

end Xiuos.Kernel
