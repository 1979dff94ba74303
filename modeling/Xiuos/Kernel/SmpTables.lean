import Xiuos.Kernel.SmpAssign

namespace Xiuos.Kernel.Smp
open Lib Function List Option
variable {lists : Head → List Nat} {t : Nat}

section
variable {prioMax : Nat} {os v : OsAssignReadyVector} {S : Set Nat} {site : BitmapSite} {p : Nat}

def RowsAgree (os v : OsAssignReadyVector) (site : BitmapSite) : Prop :=
  if os.readyVector site.offset = 0 then v.readyVector site.offset &&& ~~~site.row = 0
  else v.readyVector site.offset &&& ~~~site.row = 0 → v.readyVector site.offset = 0

instance : Decidable (RowsAgree os v site) := inferInstanceAs (Decidable (ite _ _ _))

lemma group_eq_of_marks {v' : OsAssignReadyVector} (hmax : 32 < prioMax) (hv : Marks prioMax v S)
    (hv' : Marks prioMax v' S) : v.priorityReadyGroup = v'.priorityReadyGroup := by
  apply UInt32.toNat_inj.mp
  apply Nat.eq_of_testBit_eq
  intro i
  rw [Bool.eq_iff_iff, hv.column hmax, hv'.column hmax]

lemma marks_clearCoreFlags_iff_group (hmax : 32 < prioMax) (hv : Marks prioMax v S)
    (hsite : IsSite prioMax site p) :
    Marks prioMax (clearCoreFlags prioMax os v site) (S \ {p}) ↔
      (clearCoreFlags prioMax os v site).priorityReadyGroup =
        (clearFlags prioMax v site).priorityReadyGroup := by
  have hclear := hv.clear (.inl hsite)
  refine ⟨fun h => group_eq_of_marks hmax h hclear, fun h => ?_⟩
  have heq : clearCoreFlags prioMax os v site = clearFlags prioMax v site := by
    simp only [clearCoreFlags, clearFlags, hmax, if_true] at h ⊢
    simp only [h]
  rwa [heq]

lemma clear_column_iff (hmax : 32 < prioMax) (hv : Marks prioMax v S)
    (hsite : IsSite prioMax site p) :
    v.priorityReadyGroup &&& ~~~site.column = v.priorityReadyGroup ↔
      v.readyVector site.offset = 0 := by
  have hcolumn := (hsite.column hmax site.offset).mpr (hsite.offset hmax)
  have hrow := fun j hj => hv.row hmax site.offset j hj
  constructor
  · intro h
    by_contra hne
    obtain ⟨j, hj, hbit⟩ := (ne_zero_iff_testBit _).mp hne
    have hset : v.priorityReadyGroup.toNat.testBit site.offset :=
      (hv.column hmax _).mpr ⟨j, hj, (hrow j hj).mp hbit⟩
    rw [← h, testBit_andNot32] at hset
    exact hset.2 hcolumn
  · intro h
    apply UInt32.toNat_inj.mp
    apply Nat.eq_of_testBit_eq
    intro i
    rw [Bool.eq_iff_iff, testBit_andNot32, and_iff_left_iff_imp]
    intro hi hsame
    rw [(hsite.column hmax i).mp hsame, ← hsite.offset hmax] at hi
    obtain ⟨j, hj, hmem⟩ := (hv.column hmax _).mp hi
    have hbit := (hrow j hj).mpr hmem
    simp [h] at hbit

lemma marks_clearCoreFlags_iff (hv : Marks prioMax v S) (hsite : IsSite prioMax site p) :
    Marks prioMax (clearCoreFlags prioMax os v site) (S \ {p}) ↔
      (32 < prioMax → RowsAgree os v site) := by
  by_cases hmax : 32 < prioMax
  · rw [marks_clearCoreFlags_iff_group hmax hv hsite, RowsAgree]
    simp only [clearCoreFlags, clearFlags, hmax, if_true, update_self, forall_const]
    have hcolumn := clear_column_iff hmax hv hsite
    by_cases hrow : v.readyVector site.offset &&& ~~~site.row = 0
    · simp only [hrow, if_true, true_implies]
      split
      · exact iff_of_true rfl trivial
      · rw [eq_comm, hcolumn]
    · have hne : v.readyVector site.offset ≠ 0 := by
        intro h
        rw [h] at hrow
        exact hrow (UInt8.zero_and)
      simp only [hrow, if_false, false_implies]
      split
      · rw [hcolumn]
        exact iff_of_false hne id
      · exact iff_of_true rfl trivial
  · have heq : clearCoreFlags prioMax os v site = clearFlags prioMax v site := by
      simp only [clearCoreFlags, clearFlags, hmax, if_false]
    rw [heq]
    exact iff_of_true (hv.clear (.inl hsite)) fun h => absurd h hmax

end

structure Wired (cfg : Config) (s : State) (lists : Head → List Nat) : Prop where
  rings : Rings s.links lists
  home : ∀ h, ∀ t ∈ lists h, h = (s.task t).head cfg
  site : ∀ t, IsSite cfg.prioMax (s.task t).site (s.task t).curPrio.toNat
  core : ∀ t, (s.task t).combinedCoreid.toNat ≤ cfg.cpuNumbers

def TablesRight (cfg : Config) (s : State) : Prop :=
  ∃ lists, Rings s.links lists ∧
    ∀ table ∈ tables cfg, Marks cfg.prioMax (s.vector table) (prios lists table)

inductive ReadyOp
  | insert (t : Nat)
  | remove (t : Nat)
  deriving DecidableEq

def step (cfg : Config) (fuel : Nat) (s : State) : ReadyOp → Option State
  | .insert t =>
    if s.links.next (.inr t) = .inr t then kTaskInsertToReadyVector cfg fuel s t else none
  | .remove t => some (kTaskOsAssignRemoveKTask cfg s t)

def LeavesInStep (cfg : Config) (s : State) : ReadyOp → Prop
  | .insert _ => True
  | .remove t =>
    match (s.task t).table cfg with
    | .os => True
    | .core coreid =>
      isDoubleLinkListEmpty { s with links := s.links.remove (.inr t) } ((s.task t).head cfg) →
        32 < cfg.prioMax → RowsAgree (s.vector .os) (s.vector (.core coreid)) (s.task t).site

section
variable {cfg : Config} {s : State}

lemma table_mem (hs : Wired cfg s lists) (t : Nat) : (s.task t).table cfg ∈ tables cfg := by
  rw [Task.table, tables]
  split
  · exact mem_cons_self
  · have := hs.core t
    exact mem_cons_of_mem _ (List.mem_map_of_mem (mem_range.mpr (by omega)))

lemma policyInsert_returns (hr : Rings s.links lists) (hfree : ∀ h, t ∉ lists h)
    (policy : Policy) (h : Head) :
    Returns (fun fuel => policyInsert policy fuel s t h) fun links =>
      ∃ xs ys, lists h = xs ++ ys ∧ Rings links (update lists h (xs ++ t :: ys)) := by
  have htail : ∃ xs ys, lists h = xs ++ ys ∧
      Rings (s.links.insertAfter (s.links.prev (.inl h)) (.inr t))
        (update lists h (xs ++ t :: ys)) :=
    ⟨_, [], (append_nil _).symm, hr.insertAfter_last hfree h⟩
  cases policy with
  | fifo => exact .pure htail
  | roundRobin => exact .pure htail
  | roundRobinRemain =>
    simp only [policyInsert]
    split
    · exact (hr.insertSorted_returns hfree h _).mono fun links hlinks =>
        ⟨_, _, takeWhile_append_dropWhile.symm, hlinks⟩
    · exact .pure htail

lemma mergeFlags_highest (prioMax : Nat) (v : OsAssignReadyVector) (site : BitmapSite) (p : Nat) :
    (if (mergeFlags prioMax v site).highestPrio < p then
      { mergeFlags prioMax v site with highestPrio := p } else mergeFlags prioMax v site) =
      mergeFlags prioMax (if v.highestPrio < p then { v with highestPrio := p } else v) site := by
  have hkeep : (mergeFlags prioMax v site).highestPrio = v.highestPrio := by
    simp only [mergeFlags]
    split <;> rfl
  rw [hkeep]
  split
  · simp only [mergeFlags]
    split <;> rfl
  · rfl

lemma insertToReadyVector_eq (cfg : Config) (fuel : Nat) (s : State) (t : Nat) :
    kTaskInsertToReadyVector cfg fuel s t =
      insertInto cfg fuel { s with task := update s.task t { s.task t with stat := .ready } } t
        ((s.task t).table cfg) := by
  simp only [kTaskInsertToReadyVector, update_self, Task.table]
  split <;> rfl

lemma insert_returns (hr : Rings s.links lists) (hfree : ∀ h, t ∉ lists h) :
    Returns (fun fuel => kTaskInsertToReadyVector cfg fuel s t) fun s' =>
      ∃ links xs ys, lists ((s.task t).head cfg) = xs ++ ys ∧
        Rings links (update lists ((s.task t).head cfg) (xs ++ t :: ys)) ∧
        s' = {
          links
          task := update s.task t { s.task t with stat := .ready }
          vector := update s.vector ((s.task t).table cfg) (mergeFlags cfg.prioMax
            (if (s.vector ((s.task t).table cfg)).highestPrio < (s.task t).curPrio.toNat then
              { s.vector ((s.task t).table cfg) with highestPrio := (s.task t).curPrio.toNat }
            else s.vector ((s.task t).table cfg)) (s.task t).site) } := by
  have hhead : (⟨(s.task t).table cfg, (s.task t).curPrio.toNat⟩ : Head) =
    (s.task t).head cfg := rfl
  simp only [insertToReadyVector_eq, insertInto, assignPolicyInsert, update_self, hhead,
    update_idem, mergeFlags_highest, bind_eq_bind]
  refine (policyInsert_returns (by exact hr) hfree _ _).bind ?_
  rintro links ⟨xs, ys, hsplit, hlinks⟩
  exact .pure ⟨links, xs, ys, hsplit, hlinks, rfl⟩

def clearedVector (cfg : Config) (s : State) (t : Nat) : OsAssignReadyVector :=
  match (s.task t).table cfg with
  | .os => clearFlags cfg.prioMax (s.vector .os) (s.task t).site
  | .core coreid =>
    clearCoreFlags cfg.prioMax (s.vector .os) (s.vector (.core coreid)) (s.task t).site

lemma empty_iff (hr : Rings s.links lists) (t : Nat) (h : Head) :
    isDoubleLinkListEmpty { s with links := s.links.remove (.inr t) } h ↔
      (lists h).erase t = [] := decide_eq_true_iff.trans ((hr.remove t).next_head_eq_iff h)

lemma remove_eq (hr : Rings s.links lists) (cfg : Config) (t : Nat) :
    kTaskOsAssignRemoveKTask cfg s t =
      { s with
        links := s.links.remove (.inr t)
        vector := if (lists ((s.task t).head cfg)).erase t = [] then
            update s.vector ((s.task t).table cfg) (clearedVector cfg s t)
          else s.vector } := by
  simp only [← empty_iff hr, kTaskOsAssignRemoveKTask, clearedVector]
  by_cases hcore : (s.task t).combinedCoreid.toNat = cfg.cpuNumbers
  · simp only [hcore, if_true, uncombineRemove, Task.head, Task.table]
    split <;> rfl
  · simp only [hcore, if_false, combineRemove, Task.head, Task.table]
    split <;> rfl

lemma prios_insert (table : Table) (p : Nat) (xs ys : List Nat) :
    prios (update lists ⟨table, p⟩ (xs ++ t :: ys)) table = insert p (prios lists table) := by
  ext q
  rw [mem_prios, Set.mem_insert_iff, mem_prios]
  by_cases hq : q = p
  · subst hq
    simp
  · simp [hq]

lemma prios_insert_of_ne {table table' : Table} (h : table ≠ table') (p : Nat) (xs : List Nat) :
    prios (update lists ⟨table', p⟩ xs) table = prios lists table := by
  ext q
  simp [mem_prios, h]

lemma erase_of_ne (hs : Wired cfg s lists) {h : Head} (hh : h ≠ (s.task t).head cfg) :
    (lists h).erase t = lists h := erase_of_not_mem fun ht => hh (hs.home h t ht)

lemma prios_remove (hs : Wired cfg s lists) (t : Nat) (table : Table) :
    prios (fun h => (lists h).erase t) table =
      if table = (s.task t).table cfg ∧ (lists ((s.task t).head cfg)).erase t = [] then
        prios lists table \ {(s.task t).curPrio.toNat}
      else prios lists table := by
  ext p
  rw [mem_prios]
  by_cases hh : (⟨table, p⟩ : Head) = (s.task t).head cfg
  · obtain ⟨rfl, rfl⟩ := Head.mk.inj hh
    simp only [true_and]
    rw [hh]
    split
    · simp [*]
    · rename_i hne
      refine iff_of_true hne fun hnil => hne ?_
      rw [← hh, hnil]
      rfl
  · rw [erase_of_ne hs hh]
    split
    · rename_i hhome
      have hp : p ≠ (s.task t).curPrio.toNat := by
        rintro rfl
        exact hh (by rw [hhome.1]; rfl)
      rw [Set.mem_sdiff, Set.mem_singleton_iff, and_iff_left hp, mem_prios]
    · rfl

end

variable {fuel : Nat}

namespace Wired
variable {cfg : Config} {s s' : State} (hs : Wired cfg s lists)
include hs

lemma right_iff : TablesRight cfg s ↔
    ∀ table ∈ tables cfg, Marks cfg.prioMax (s.vector table) (prios lists table) := by
  refine ⟨fun ⟨lists', hr, h⟩ => ?_, fun h => ⟨lists, hs.rings, h⟩⟩
  rwa [hs.rings.lists_eq hr]

lemma not_mem (ht : s.links.next (.inr t) = .inr t) (h : Head) : t ∉ lists h :=
  fun hmem => hs.rings.next_ne_self hmem ht

lemma insert (h : step cfg fuel s (.insert t) = some s') :
    ∃ lists', Wired cfg s' lists' ∧ (TablesRight cfg s → TablesRight cfg s') := by
  obtain ⟨hself, h⟩ := ite_none_right_eq_some.mp h
  obtain ⟨links, xs, ys, hsplit, hlinks, rfl⟩ := (insert_returns hs.rings (hs.not_mem hself)).post h
  have htask : ∀ u, (update s.task t { s.task t with stat := .ready } u).head cfg =
      (s.task u).head cfg ∧
      (update s.task t { s.task t with stat := .ready } u).site = (s.task u).site ∧
      (update s.task t { s.task t with stat := .ready } u).curPrio = (s.task u).curPrio ∧
      (update s.task t { s.task t with stat := .ready } u).combinedCoreid =
        (s.task u).combinedCoreid := by
    intro u
    by_cases hu : u = t
    · subst hu
      simp [Task.head, Task.table]
    · simp [hu]
  refine ⟨update lists ((s.task t).head cfg) (xs ++ t :: ys), ⟨hlinks, fun k u hu => ?_,
    fun u => ?_, fun u => ?_⟩, fun hright => ⟨_, hlinks, fun table htable => ?_⟩⟩
  · rw [(htask u).1]
    obtain ⟨rfl, rfl⟩ | hu := (Rings.mem_update_insert hsplit).mp hu
    · rfl
    · exact hs.home k u hu
  · rw [(htask u).2.1, (htask u).2.2.1]
    exact hs.site u
  · rw [(htask u).2.2.2]
    exact hs.core u
  · have hmarks := hs.right_iff.mp hright table htable
    rw [Task.head]
    dsimp only
    by_cases hhome : table = (s.task t).table cfg
    · subst hhome
      rw [prios_insert, update_self]
      exact hmarks.merge (hs.site t)
    · rwa [prios_insert_of_ne hhome, update_of_ne hhome]

lemma remove (t : Nat) :
    Wired cfg (kTaskOsAssignRemoveKTask cfg s t) fun h => (lists h).erase t := by
  rw [remove_eq hs.rings]
  exact ⟨hs.rings.remove t, fun h u hu => hs.home h u (mem_of_mem_erase hu), hs.site, hs.core⟩

lemma remove_right_iff (hright : TablesRight cfg s) (t : Nat) :
    TablesRight cfg (kTaskOsAssignRemoveKTask cfg s t) ↔ LeavesInStep cfg s (.remove t) := by
  have hmarks := hs.right_iff.mp hright
  rw [(hs.remove t).right_iff, remove_eq hs.rings]
  simp only [prios_remove hs, LeavesInStep, empty_iff hs.rings]
  by_cases hlast : (lists ((s.task t).head cfg)).erase t = []
  · have hclear : (∀ table ∈ tables cfg, Marks cfg.prioMax
        (update s.vector ((s.task t).table cfg) (clearedVector cfg s t) table)
        (if table = (s.task t).table cfg then prios lists table \ {(s.task t).curPrio.toNat}
          else prios lists table)) ↔
        Marks cfg.prioMax (clearedVector cfg s t)
          (prios lists ((s.task t).table cfg) \ {(s.task t).curPrio.toNat}) := by
      constructor
      · intro h
        simpa using h _ (table_mem hs t)
      · intro h table htable
        by_cases hhome : table = (s.task t).table cfg
        · subst hhome
          simpa using h
        · simpa [hhome] using hmarks table htable
    simp only [hlast, if_true, and_true, true_implies]
    refine Iff.trans hclear ?_
    rw [clearedVector]
    have hhome := hmarks _ (table_mem hs t)
    cases htable : (s.task t).table cfg with
    | os =>
      rw [htable] at hhome
      exact iff_of_true (hhome.clear (.inl (hs.site t))) trivial
    | core coreid =>
      rw [htable] at hhome
      exact marks_clearCoreFlags_iff hhome (hs.site t)
  · simp only [hlast, if_false, and_false, false_implies]
    refine iff_of_true hmarks ?_
    split <;> trivial

lemma step_iff {op : ReadyOp} (h : step cfg fuel s op = some s') :
    (∃ lists', Wired cfg s' lists') ∧
      (TablesRight cfg s → (TablesRight cfg s' ↔ LeavesInStep cfg s op)) := by
  cases op with
  | insert t =>
    obtain ⟨lists', hs', hright⟩ := hs.insert h
    exact ⟨⟨lists', hs'⟩, fun hp => iff_of_true (hright hp) trivial⟩
  | remove t =>
    cases h
    exact ⟨⟨_, hs.remove t⟩, fun hp => hs.remove_right_iff hp t⟩

end Wired

structure Initial (cfg : Config) (s : State) : Prop where
  links : ∀ a, (∀ table ∈ tables cfg, ∀ p < cfg.prioMax, a ≠ .inl ⟨table, p⟩) →
    s.links.next a = a ∧ s.links.prev a = a
  prio : ∀ t, (s.task t).curPrio.toNat < cfg.prioMax
  site : ∀ t, ∃ site, (s.task t).site = bitmapSiteMask cfg.prioMax (s.task t).curPrio site
  core : ∀ t, (s.task t).combinedCoreid.toNat ≤ cfg.cpuNumbers

section
variable (cfg : Config) (s : State) (ts : List Table)

lemma foldl_init_links : (ts.foldl (osAssignReadyVectorInit cfg) s).links =
    (ts.flatMap fun table => (range cfg.prioMax).map fun p => .inl ⟨table, p⟩).foldl
      Links.init s.links := by
  induction ts generalizing s with
  | nil => rfl
  | cons table ts ih =>
    rw [foldl_cons, ih, flatMap_cons, foldl_append, foldl_map]
    rfl

lemma foldl_init_task : (ts.foldl (osAssignReadyVectorInit cfg) s).task = s.task := by
  induction ts generalizing s with
  | nil => rfl
  | cons table ts ih => exact ih _

lemma foldl_init_vector {table : Table} (h : table ∈ ts ∨ s.vector table = .zero) :
    (ts.foldl (osAssignReadyVectorInit cfg) s).vector table = .zero := by
  induction ts generalizing s with
  | nil => simpa using h
  | cons table' ts ih =>
    refine ih _ ?_
    by_cases hne : table = table'
    · exact .inr (by simp [osAssignReadyVectorInit, hne])
    · refine h.imp (fun h => (mem_cons.mp h).resolve_left hne) fun h => ?_
      simpa [osAssignReadyVectorInit, hne] using h

end

lemma wired_init {cfg : Config} {s : State} (hs : Initial cfg s) :
    Wired cfg (sysInitOsAssign cfg s) fun _ => [] := by
  have hself : ∀ a, (sysInitOsAssign cfg s).links.next a = a ∧
      (sysInitOsAssign cfg s).links.prev a = a := by
    intro a
    rw [sysInitOsAssign, foldl_init_links]
    apply Links.foldl_init
    by_cases ha : ∃ table ∈ tables cfg, ∃ p < cfg.prioMax, a = .inl ⟨table, p⟩
    · obtain ⟨table, htable, p, hp, rfl⟩ := ha
      exact .inl (mem_flatMap.mpr ⟨table, htable, List.mem_map.mpr
        ⟨p, mem_range.mpr hp, rfl⟩⟩)
    · exact .inr (hs.links a fun table htable p hp he => ha ⟨table, htable, p, hp, he⟩)
  have htask : (sysInitOsAssign cfg s).task = s.task := foldl_init_task _ _ _
  refine ⟨⟨fun h => hself _, by simp, by simp, fun n _ => hself _⟩, by simp, fun t => ?_,
    fun t => ?_⟩
  · rw [htask]
    obtain ⟨site, hsite⟩ := hs.site t
    rw [hsite]
    exact bitmapSiteMask_isSite (hs.prio t) site
  · rw [htask]
    exact hs.core t

lemma tablesRight_init {cfg : Config} {s : State} (hs : Initial cfg s) :
    TablesRight cfg (sysInitOsAssign cfg s) := by
  refine (wired_init hs).right_iff.mpr fun table htable => ?_
  have hzero : (sysInitOsAssign cfg s).vector table = .zero := foldl_init_vector _ _ _ (.inl htable)
  have hempty : prios (fun _ => []) table = ∅ := by
    ext p
    simp [mem_prios]
  rw [hzero, hempty]
  exact marks_zero cfg.prioMax

theorem readyRun_tablesRight_iff {cfg : Config} {s : State} (hs : Initial cfg s) (fuel : Nat)
    (ops : List ReadyOp) :
    Always (step cfg fuel) (TablesRight cfg) (sysInitOsAssign cfg s) ops ↔
      Each (step cfg fuel) (LeavesInStep cfg) (sysInitOsAssign cfg s) ops := by
  refine always_iff_each (I := fun s => ∃ lists, Wired cfg s lists) ?_ ?_ ⟨_, wired_init hs⟩
    (tablesRight_init hs)
  · rintro s op s' ⟨lists, hs⟩ h
    exact (hs.step_iff h).1
  · rintro s op s' ⟨lists, hs⟩ hright h
    exact (hs.step_iff h).2 hright

instance (cfg : Config) (s : State) : (op : ReadyOp) → Decidable (LeavesInStep cfg s op)
  | .insert _ => isTrue trivial
  | .remove t =>
    match h : (s.task t).table cfg with
    | .os => isTrue (by simp only [LeavesInStep, h])
    | .core coreid =>
      decidable_of_iff (isDoubleLinkListEmpty { s with links := s.links.remove (.inr t) }
          ((s.task t).head cfg) →
        32 < cfg.prioMax → RowsAgree (s.vector .os) (s.vector (.core coreid)) (s.task t).site)
        (by simp only [LeavesInStep, h])

lemma sampleState_initial : Initial sampleConfig sampleState where
  links _ _ := ⟨rfl, rfl⟩
  prio _ := UInt8.toNat_lt _
  site _ := ⟨.zero, rfl⟩
  core t := by
    simp only [sampleState, sampleConfig]
    split <;> decide

theorem readyRun_tablesRight_iff_sample :
    (runs (step sampleConfig 10) (sysInitOsAssign sampleConfig sampleState)
      [.insert 3, .insert 21, .insert 22, .remove 21, .remove 3]).isSome ∧
    Always (step sampleConfig 10) (TablesRight sampleConfig)
      (sysInitOsAssign sampleConfig sampleState)
      [.insert 3, .insert 21, .insert 22, .remove 21, .remove 3] :=
  ⟨by decide +kernel, (readyRun_tablesRight_iff sampleState_initial _ _).mpr (by decide +kernel)⟩

theorem readyRun_group_stale :
    ∃ s, runs (step sampleConfig 10) (sysInitOsAssign sampleConfig sampleState)
        [.insert 3, .insert 21, .remove 21] = some s ∧ ¬ TablesRight sampleConfig s := by
  have hrun : ((runs (step sampleConfig 10) (sysInitOsAssign sampleConfig sampleState)
      [.insert 3, .insert 21, .remove 21]).map fun s =>
        decide ((s.vector (.core 0)).priorityReadyGroup.toNat.testBit 0 ∧
          ∀ j < 8, isDoubleLinkListEmpty s ⟨.core 0, j⟩)) = some true := by
    decide +kernel
  obtain ⟨s, hs, h⟩ := map_eq_some_iff.mp hrun
  obtain ⟨hbit, hempty⟩ := of_decide_eq_true h
  refine ⟨s, hs, fun ⟨lists, hr, hmarks⟩ => ?_⟩
  obtain ⟨j, hj, hne⟩ := ((hmarks (.core 0) (by decide)).column (by decide) 0).mp hbit
  rw [Nat.mul_zero, Nat.zero_add, mem_prios] at hne
  exact hne ((hr.next_head_eq_iff _).mp (of_decide_eq_true (hempty j hj)))

section
variable {cfg : Config} {s : State} {lists : Head → List Nat} {table : Table} {coreid : Nat}

structure Listed (s : State) (lists : Head → List Nat) : Prop where
  rings : Rings s.links lists
  prio : ∀ h, ∀ t ∈ lists h, (s.task t).curPrio.toNat = h.prio

lemma choose_of_isGreatest (hs : Listed s lists)
    (h : IsGreatest (prios lists table) (s.vector table).highestPrio) :
    ∃ t, chooseTaskWithHighestPrio s table = some t ∧
      t ∈ lists ⟨table, (s.vector table).highestPrio⟩ := by
  obtain ⟨t, ts, hl⟩ := exists_cons_of_ne_nil h.1
  exact ⟨t, by simp [chooseTaskWithHighestPrio, hs.rings.next_head hl], hl ▸ mem_cons_self⟩

lemma choose_of_empty (hs : Listed s lists) (h : prios lists table = ∅) :
    chooseTaskWithHighestPrio s table = none := by
  have hnil : lists ⟨table, (s.vector table).highestPrio⟩ = [] := by
    by_contra hne
    exact h.subset hne
  simp [chooseTaskWithHighestPrio, (hs.rings.next_head_eq_iff _).mpr hnil]

def Selects (s : State) (lists : Head → List Nat) (coreid : Nat) : Prop :=
  ∃ t, smpAssignTargetTaskSelect s coreid = some t ∧
    (∃ p, t ∈ lists ⟨.os, p⟩ ∨ t ∈ lists ⟨.core coreid, p⟩) ∧
    ∀ p, lists ⟨.os, p⟩ ≠ [] ∨ lists ⟨.core coreid, p⟩ ≠ [] → p ≤ (s.task t).curPrio.toNat

theorem smpAssignTargetTaskSelect_iff (hs : Listed s lists)
    (hos : Marks cfg.prioMax (s.vector .os) (prios lists .os))
    (hcore : Marks cfg.prioMax (s.vector (.core coreid)) (prios lists (.core coreid)))
    (hne : (prios lists .os).Nonempty ∨ (prios lists (.core coreid)).Nonempty) :
    Selects s lists coreid ↔
      (prios lists (.core coreid)).Nonempty ∨ ∃ p ∈ prios lists .os, 0 < p := by
  rw [Selects, smpAssignTargetTaskSelect]
  obtain ⟨hempty, hzero⟩ | hgreatest := hcore.highest
  · have hnone := choose_of_empty hs hempty
    have hos' : IsGreatest (prios lists .os) (s.vector .os).highestPrio := by
      refine hos.highest.resolve_left fun ⟨h, _⟩ => ?_
      simp [h, hempty] at hne
    rw [hzero, hempty]
    simp only [Set.not_nonempty_empty, false_or]
    split
    · rename_i hpos
      obtain ⟨t, ht, hmem⟩ := choose_of_isGreatest hs hos'
      refine iff_of_true ⟨t, ht, ⟨_, .inl hmem⟩, fun p hp => ?_⟩ ⟨_, hos'.1, hpos⟩
      rw [hs.prio _ t hmem]
      obtain hp | hp := hp
      · exact hos'.2 hp
      · exact absurd hp (hempty.subset · |>.elim)
    · rename_i hle
      refine iff_of_false (fun ⟨t, ht, _⟩ => ?_) fun ⟨p, hp, hpos⟩ => ?_
      · rw [hnone] at ht
        cases ht
      · have := hos'.2 hp
        omega
  · refine iff_of_true ?_ (.inl ⟨_, hgreatest.1⟩)
    split
    · rename_i hlt
      have hos' : IsGreatest (prios lists .os) (s.vector .os).highestPrio := by
        refine hos.highest.resolve_left fun ⟨_, h⟩ => ?_
        omega
      obtain ⟨t, ht, hmem⟩ := choose_of_isGreatest hs hos'
      refine ⟨t, ht, ⟨_, .inl hmem⟩, fun p hp => ?_⟩
      rw [hs.prio _ t hmem]
      obtain hp | hp := hp
      · exact hos'.2 hp
      · exact (hgreatest.2 hp).trans hlt.le
    · rename_i hle
      obtain ⟨t, ht, hmem⟩ := choose_of_isGreatest hs hgreatest
      refine ⟨t, ht, ⟨_, .inr hmem⟩, fun p hp => ?_⟩
      rw [hs.prio _ t hmem]
      obtain hp | hp := hp
      · obtain ⟨hempty, -⟩ | hos' := hos.highest
        · exact (hempty.subset hp).elim
        · exact (hos'.2 hp).trans (not_lt.mp hle)
      · exact hgreatest.2 hp

end

section
variable {cfg : Config} {s s' : State}

lemma Wired.listed (hs : Wired cfg s lists) : Listed s lists :=
  ⟨hs.rings, fun h t ht => by rw [hs.home h t ht, Task.head]⟩

lemma right_of_inserts (hs : Initial cfg s) {ops : List ReadyOp}
    (hops : ∀ op ∈ ops, ∃ t, op = .insert t)
    (h : runs (step cfg fuel) (sysInitOsAssign cfg s) ops = some s') :
    ∃ lists, Wired cfg s' lists ∧ TablesRight cfg s' := by
  refine (always_of_each (I := fun s => ∃ lists, Wired cfg s lists ∧ TablesRight cfg s)
    (C := fun _ op => ∃ t, op = ReadyOp.insert t) ?_ ⟨_, wired_init hs, tablesRight_init hs⟩
    (Each.of_forall hops)).last h
  rintro s _ s' ⟨lists, hs, hright⟩ ⟨t, rfl⟩ h
  obtain ⟨lists', hs', hright'⟩ := hs.insert h
  exact ⟨lists', hs', hright' hright⟩

end

theorem smpAssignTargetTaskSelect_iff_sample :
    ∃ s lists, runs (step sampleConfig 10) (sysInitOsAssign sampleConfig sampleState)
        [.insert 3, .insert 21] = some s ∧ Rings s.links lists ∧ Selects s lists 0 := by
  have hrun : ((runs (step sampleConfig 10) (sysInitOsAssign sampleConfig sampleState)
      [.insert 3, .insert 21]).map fun s => isDoubleLinkListEmpty s ⟨.core 0, 5⟩) = some false := by
    decide +kernel
  obtain ⟨s, hs, h⟩ := map_eq_some_iff.mp hrun
  obtain ⟨lists, hwired, hright⟩ := right_of_inserts sampleState_initial (by simp) hs
  have hmarks := hwired.right_iff.mp hright
  have hcore : (prios lists (.core 0)).Nonempty :=
    ⟨5, fun hnil => of_decide_eq_false h ((hwired.rings.next_head_eq_iff _).mpr hnil)⟩
  exact ⟨s, lists, hs, hwired.rings, (smpAssignTargetTaskSelect_iff hwired.listed
    (hmarks .os (by decide)) (hmarks (.core 0) (by decide)) (.inr hcore)).mpr (.inl hcore)⟩

theorem smpAssignTargetTaskSelect_none :
    ∃ s lists, runs (step sampleConfig 10) (sysInitOsAssign sampleConfig sampleState)
        [.insert 0] = some s ∧ Listed s lists ∧ TablesRight sampleConfig s ∧
      lists ⟨.os, 0⟩ ≠ [] ∧ smpAssignTargetTaskSelect s 0 = none ∧ ¬ Selects s lists 0 := by
  have hrun : ((runs (step sampleConfig 10) (sysInitOsAssign sampleConfig sampleState)
      [.insert 0]).map fun s => (isDoubleLinkListEmpty s ⟨.os, 0⟩, smpAssignTargetTaskSelect s 0)) =
      some (false, none) := by
    decide +kernel
  obtain ⟨s, hs, h⟩ := map_eq_some_iff.mp hrun
  obtain ⟨hne, hnone⟩ := Prod.mk.inj h
  obtain ⟨lists, hwired, hright⟩ := right_of_inserts sampleState_initial (by simp) hs
  refine ⟨s, lists, hs, hwired.listed, hright, fun hnil => ?_, hnone, fun ⟨t, ht, _⟩ => ?_⟩
  · exact of_decide_eq_false hne ((hwired.rings.next_head_eq_iff _).mpr hnil)
  · rw [hnone] at ht
    cases ht

end Xiuos.Kernel.Smp
