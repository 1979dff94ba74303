import Xiuos.Kernel.KtaskRun

namespace Xiuos.Kernel
open Lib Function List Nat Option

lemma Marks.unique {prioMax : Nat} {v : OsAssignReadyVector} {S S' : Set Nat}
    (h : Marks prioMax v S) (h' : Marks prioMax v S') {p : Nat} (hp : p < 256) :
    p ∈ S ↔ p ∈ S' := by
  by_cases hmax : 32 < prioMax
  · have hi : p / 8 < 32 := by omega
    have hrow := h.row hmax ⟨p / 8, hi⟩ (p % 8) (mod_lt _ (by decide))
    have hrow' := h'.row hmax ⟨p / 8, hi⟩ (p % 8) (mod_lt _ (by decide))
    simp only [div_add_mod] at hrow hrow'
    rw [← hrow, hrow']
  · rw [← h.single (by omega), h'.single (by omega)]

variable (s : State) (t : Nat) (prio : UInt8)

def Shares (s : State) (t : Nat) (prio : UInt8) : Prop :=
  ∃ m ≠ t, (s.task m).stat = .ready ∧ (s.task m).curPrio = prio

section
variable {cfg : Config} {s : State} {lists : Head → List Node} {t : Nat}

lemma Holds.erase_eq_nil_iff (hs : Holds cfg s lists) (prio : UInt8) :
    (lists (.ready prio.toNat)).erase (.sched t) = [] ↔ ¬ Shares s t prio := by
  rw [eq_nil_iff_forall_not_mem, Shares, not_exists]
  constructor
  · rintro h m ⟨hm, hstat, rfl⟩
    refine h (.sched m) (hs.mem_erase.mpr ⟨by simpa using hm, ?_⟩)
    exact (hs.member _ _).mpr ⟨m, rfl, hstat, rfl⟩
  · intro h n hn
    obtain ⟨hne, hmem⟩ := hs.mem_erase.mp hn
    obtain ⟨m, rfl, hstat, hp⟩ := (hs.member _ _).mp hmem
    exact h m ⟨by simpa using hne, hstat, UInt8.toNat_inj.mp hp⟩

lemma insert_stateSet (fuel : Nat) (stat : Stat) :
    kTaskInsertToReadyVector cfg fuel (s.kTaskStateSet t stat) t =
      kTaskInsertToReadyVector cfg fuel s t := by
  have h : (s.kTaskStateSet t stat).kTaskStateSet t .ready = s.kTaskStateSet t .ready := by
    simp [State.kTaskStateSet, State.modifyTask]
  rw [kTaskInsertToReadyVector, h]
  rfl

variable {prio : UInt8}

lemma Holds.marks_prioSet (hs : Holds cfg s lists) (ht : (s.task t).stat = .ready)
    (hprio : prio.toNat < cfg.prioMax) :
    Returns (fun fuel => kTaskInsertToReadyVector cfg fuel
        ((kTaskOsAssignRemoveKTask cfg (s.modifyTask t ({ · with curPrio := prio }))
          t).bitmapSiteMask cfg t) t) fun s' =>
      (∃ S, Marks cfg.prioMax s'.vector (Insert.insert prio.toNat S) ∧
        ((s.task t).curPrio.toNat ∈ S ↔ Shares s t prio)) ∧
      s'.task = update s.task t { s.task t with
        curPrio := prio
        site := bitmapSiteMask cfg.prioMax prio (s.task t).site } := by
  have hrings := hs.rings.remove (.sched t)
  have hsite : IsSite cfg.prioMax (s.task t).site (s.task t).curPrio.toNat :=
    (hs.site t).resolve_right fun hz => by simp [ht] at hz
  have hmem : (s.task t).curPrio.toNat ∈ readyPrios lists :=
    ne_nil_of_mem ((hs.member _ _).mpr ⟨t, rfl, ht, rfl⟩)
  have hmarks : ∃ S, Marks cfg.prioMax (kTaskOsAssignRemoveKTask cfg
      (s.modifyTask t ({ · with curPrio := prio })) t).vector S ∧
        ((s.task t).curPrio.toNat ∈ S ↔ Shares s t prio) := by
    rw [remove_vector (s := s.modifyTask t _) hs.rings]
    split
    · rename_i herase
      rw [modifyTask_self, hs.erase_eq_nil_iff] at herase
      rw [modifyTask_self]
      exact ⟨_, hs.marks.clear (.inl hsite), iff_of_false (fun h => h.2 rfl) herase⟩
    · rename_i herase
      rw [modifyTask_self, hs.erase_eq_nil_iff, not_not] at herase
      exact ⟨_, hs.marks, iff_of_true hmem herase⟩
  obtain ⟨S, hS, hiff⟩ := hmarks
  have hrings' : Rings (((kTaskOsAssignRemoveKTask cfg (s.modifyTask t
      ({ · with curPrio := prio })) t).bitmapSiteMask cfg t).links)
      fun h => (lists h).erase (.sched t) := by
    simpa [State.bitmapSiteMask, State.modifyTask] using hrings
  refine (insertToReadyVector_returns hrings' (fun h hm => (hs.mem_erase.mp hm).1 rfl) cfg).mono ?_
  rintro _ ⟨l, xs, ys, -, -, rfl⟩
  refine ⟨⟨S, ?_, hiff⟩, ?_⟩
  · have hnew := hS.merge (bitmapSiteMask_isSite hprio (s.task t).site)
    simp only [State.bitmapSiteMask, modifyTask_self, remove_task]
    exact hnew
  · simp [State.bitmapSiteMask, State.kTaskStateSet, State.modifyTask, ht]

lemma Holds.prioSet (hs : Holds cfg s lists) (ht : (s.task t).stat = .ready)
    (hprio : prio.toNat < cfg.prioMax) (hshare : Shares s t prio ↔ Shares s t (s.task t).curPrio) :
    Returns (fun fuel => kTaskInsertToReadyVector cfg fuel
        ((kTaskOsAssignRemoveKTask cfg (s.modifyTask t ({ · with curPrio := prio }))
          t).bitmapSiteMask cfg t) t) (Inv cfg) := by
  obtain ⟨v, hv⟩ := removeKTask_eq cfg s t
  obtain ⟨v', hv'⟩ := removeKTask_eq cfg (s.modifyTask t ({ · with curPrio := prio })) t
  have hvector : v' = v := by
    have h := remove_vector hs.rings cfg t
    have h' := remove_vector (s := s.modifyTask t ({ · with curPrio := prio })) hs.rings cfg t
    have hempty := hs.erase_eq_nil_iff (t := t) (s.task t).curPrio
    have hempty' := hs.erase_eq_nil_iff (t := t) prio
    rw [hv] at h
    rw [hv', modifyTask_self] at h'
    dsimp only at h h'
    by_cases hs : Shares s t prio
    · rw [if_neg (by rw [hempty]; tauto)] at h
      rw [if_neg (by rw [hempty']; tauto)] at h'
      rw [h, h']
      rfl
    · rw [if_pos (by rw [hempty]; tauto)] at h
      rw [if_pos (by rw [hempty']; tauto)] at h'
      rw [h, h']
      rfl
  have hne : Stat.suspend ≠ .ready := by decide
  have hremoved := (hs.remove (t := t) hne
    (.inr ⟨by simp [ht], by simp [ht]⟩)).setPrio (t := t) (by simp [stateSet_stat]) hprio
  have hstate : ((kTaskOsAssignRemoveKTask cfg s t).kTaskStateSet t .suspend).modifyTask t
      (fun task => { task with
        curPrio := prio
        site := bitmapSiteMask cfg.prioMax prio task.site }) =
      ((kTaskOsAssignRemoveKTask cfg (s.modifyTask t ({ · with curPrio := prio }))
        t).bitmapSiteMask cfg t).kTaskStateSet t .suspend := by
    rw [hv, hv', hvector]
    simp [State.bitmapSiteMask, State.kTaskStateSet, State.modifyTask, State.doubleLinkListRmNode]
  rw [hstate] at hremoved
  have hinsert := hremoved.insert (t := t) (fun h hm => (hs.mem_erase.mp hm).1 rfl)
    (.inl (by simp [stateSet_stat]))
  simp only [insert_stateSet] at hinsert
  exact hinsert.mono fun s' hs' => hs'.1

end

structure Reprioritised (cfg : Config) (s s' : State) (t : Nat) (prio : UInt8) : Prop where
  inv : Inv cfg s'
  listed : ∃ ready, ReadyTable cfg s' ready ∧
    ∀ p, t ∈ ready p ↔ (s.task t).stat = .ready ∧ p = prio.toNat
  others : ∀ m ≠ t, s'.task m = s.task m

def prioAfter (s : State) (t : Nat) (prio : UInt8) : UInt8 :=
  if isIdle (s.task t).name then (s.task t).curPrio else prio

def PrioSetOk (s : State) (t : Nat) (prio : UInt8) : Prop :=
  (s.task t).stat = .ready → isIdle (s.task t).name = false →
    (Shares s t prio ↔ Shares s t (s.task t).curPrio)

variable {cfg : Config} {s s' : State} {t : Nat} {prio : UInt8}

lemma reprioritised_of_inv (hs : Inv cfg s') (hstat : (s'.task t).stat = (s.task t).stat)
    (hprio : (s'.task t).curPrio = prio) (hothers : ∀ m ≠ t, s'.task m = s.task m) :
    Reprioritised cfg s s' t prio := by
  obtain ⟨ready, hready⟩ := hs.readyTable
  refine ⟨hs, ⟨ready, hready, fun p => ?_⟩, hothers⟩
  rw [hready.member, hstat, hprio, eq_comm (a := p)]

lemma Holds.prioSet_iff {lists : Head → List Node} (hs : Holds cfg s lists)
    (ht : (s.task t).stat = .ready) (hprio : prio.toNat < cfg.prioMax) :
    Returns (fun fuel => kTaskInsertToReadyVector cfg fuel
        ((kTaskOsAssignRemoveKTask cfg (s.modifyTask t ({ · with curPrio := prio }))
          t).bitmapSiteMask cfg t) t) fun s' =>
      (Inv cfg s' ↔ (Shares s t prio ↔ Shares s t (s.task t).curPrio)) ∧
      s'.task = update s.task t { s.task t with
        curPrio := prio
        site := bitmapSiteMask cfg.prioMax prio (s.task t).site } := by
  by_cases hshare : Shares s t prio ↔ Shares s t (s.task t).curPrio
  · exact ((hs.prioSet ht hprio hshare).and (hs.marks_prioSet ht hprio)).mono
      fun s' h => ⟨iff_of_true h.1 hshare, h.2.2⟩
  · refine (hs.marks_prioSet ht hprio).mono ?_
    rintro s' ⟨⟨S, hS, hiff⟩, htask⟩
    refine ⟨iff_of_false ?_ hshare, htask⟩
    rintro ⟨lists', hs'⟩
    have hne : (s.task t).curPrio ≠ prio := by
      rintro rfl
      exact hshare Iff.rfl
    have hshares : Shares s' t (s.task t).curPrio ↔ Shares s t (s.task t).curPrio := by
      refine exists_congr fun m => and_congr_right fun hm => ?_
      rw [htask, update_of_ne hm]
    have hmem : (s.task t).curPrio.toNat ∈ readyPrios lists' ↔ Shares s' t (s.task t).curPrio := by
      have herase := hs'.erase_eq_nil_iff (t := t) (s.task t).curPrio
      rw [hs'.erase_ready_of_ne] at herase
      · rw [mem_readyPrios, ne_eq, herase, not_not]
      · rw [htask, update_self]
        exact fun he => hne (UInt8.toNat_inj.mp he)
    have hunique := hS.unique hs'.marks (s.task t).curPrio.toNat_lt
    rw [hmem, hshares, Set.mem_insert_iff, hiff] at hunique
    refine hshare (hunique.symm.trans (or_iff_right fun he => ?_)).symm
    exact hne (UInt8.toNat_inj.mp he)

theorem kTaskPrioSet_iff (hs : Inv cfg s) (hclose : (s.task t).stat ≠ .close)
    (hprio : prio.toNat < cfg.prioMax) :
    Returns (fun fuel => kTaskPrioSet cfg fuel s t prio) fun r =>
      Reprioritised cfg s r.1 t (prioAfter s t prio) ↔ PrioSetOk s t prio := by
  simp only [kTaskPrioSet, prioAfter]
  split
  · rename_i hidle
    refine .pure (iff_of_true (reprioritised_of_inv hs rfl rfl fun _ _ => rfl) fun _ hidle' => ?_)
    rw [hidle] at hidle'
    cases hidle'
  rename_i hidle
  rw [Bool.not_eq_true] at hidle
  obtain ⟨lists, h⟩ := hs
  have hquiet : (s.task t).stat ≠ .ready → Reprioritised cfg s
      ((s.modifyTask t ({ · with curPrio := prio })).bitmapSiteMask cfg t) t prio := by
    intro hstat
    have hset := h.setPrio hstat hprio
    have hstate : (s.modifyTask t ({ · with curPrio := prio })).bitmapSiteMask cfg t =
        s.modifyTask t fun task => { task with
          curPrio := prio
          site := bitmapSiteMask cfg.prioMax prio task.site } := by
      simp [State.bitmapSiteMask, State.modifyTask]
    rw [hstate]
    exact reprioritised_of_inv ⟨lists, hset⟩ (by rw [modifyTask_self]) (by rw [modifyTask_self])
      fun m hm => modifyTask_of_ne _ _ _ hm
  have hother : (s.task t).stat ≠ .ready → (Reprioritised cfg s
      ((s.modifyTask t ({ · with curPrio := prio })).bitmapSiteMask cfg t) t prio ↔
        PrioSetOk s t prio) := fun hne =>
    iff_of_true (hquiet hne) fun hready => absurd hready hne
  cases hstat : (s.task t).stat with
  | ready =>
    refine (h.prioSet_iff hstat hprio).bind fun s' hs' => .pure ?_
    obtain ⟨hinv, htask⟩ := hs'
    have hok : PrioSetOk s t prio ↔ (Shares s t prio ↔ Shares s t (s.task t).curPrio) :=
      ⟨fun hok => hok hstat hidle, fun hshare _ _ => hshare⟩
    rw [hok, ← hinv]
    refine ⟨Reprioritised.inv, fun hinv => reprioritised_of_inv hinv ?_ ?_ fun m hm => ?_⟩
    · rw [htask, update_self]
    · rw [htask, update_self]
    · rw [htask, update_of_ne hm]
  | init | suspend | running => exact .pure (hother (by simp [hstat]))
  | close => exact absurd hstat hclose

theorem kTaskPrioSet_iff_sample :
    ∃ s, run sampleConfig 10 (osAssignReadyVectorInit sampleConfig sampleState)
        [.startup 3, .startup 19, .startup 5] = some s ∧ (s.task 19).curPrio = 3 ∧
      Returns (fun fuel => kTaskPrioSet sampleConfig fuel s 19 5) fun r =>
        Reprioritised sampleConfig s r.1 19 (prioAfter s 19 5) := by
  have hrun : ((run sampleConfig 10 (osAssignReadyVectorInit sampleConfig sampleState)
      [.startup 3, .startup 19, .startup 5]).map fun s =>
        ((s.task 19).stat, (s.task 19).curPrio, ((s.task 3).stat, (s.task 3).curPrio),
          (s.task 5).stat, (s.task 5).curPrio)) =
        some (.ready, 3, (.ready, 3), .ready, 5) := by
    decide +kernel
  obtain ⟨s, hs, htasks⟩ := map_eq_some_iff.mp hrun
  simp only [Prod.mk.injEq] at htasks
  obtain ⟨hstat, hprio, hthree, hfive⟩ := htasks
  refine ⟨s, hs, hprio, (kTaskPrioSet_iff ((inv_init sampleState_initial).run hs)
    (by simp [hstat]) (by decide)).mono fun r hr => hr.mpr fun _ _ => ?_⟩
  rw [hprio]
  exact iff_of_true ⟨5, by decide, hfive⟩ ⟨3, by decide, hthree⟩

theorem kTaskPrioSet_loses_flag :
    ∃ s r, run sampleConfig 10 (osAssignReadyVectorInit sampleConfig sampleState)
        [.startup 3, .startup 19] = some s ∧ kTaskPrioSet sampleConfig 10 s 19 5 = some r ∧
      ¬ ∃ ready, ReadyTable sampleConfig r.1 ready := by
  have hrun : (do
      let s ← run sampleConfig 10 (osAssignReadyVectorInit sampleConfig sampleState)
        [.startup 3, .startup 19]
      let r ← kTaskPrioSet sampleConfig 10 s 19 5
      some ((r.1.task 3).stat, (r.1.task 3).curPrio, r.1.vector.readyVector 0)) =
        some (.ready, 3, 32) := by
    decide +kernel
  obtain ⟨s, hs, hrun⟩ := bind_eq_some_iff.mp hrun
  obtain ⟨r, hr, he⟩ := bind_eq_some_iff.mp hrun
  simp only [Option.some.injEq, Prod.mk.injEq] at he
  obtain ⟨hstat, hprio, hrow⟩ := he
  refine ⟨s, r, hs, hr, ?_⟩
  rintro ⟨ready, h⟩
  have hmem : 3 ∈ ready 3 := (h.member 3 3).mpr ⟨hstat, by rw [hprio]; rfl⟩
  have hbit := (h.row (by decide) 0 3 (by decide)).mpr (ne_nil_of_mem hmem)
  rw [hrow] at hbit
  exact absurd hbit (by decide)

end Xiuos.Kernel
