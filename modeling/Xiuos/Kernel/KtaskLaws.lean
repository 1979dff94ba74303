import Xiuos.Kernel.Ktask

namespace Xiuos.Kernel
open Lib Function List Option
variable {lists : Head → List Node}

def readyPrios (lists : Head → List Node) : Set Nat := fun p => lists (.ready p) ≠ []

lemma mem_readyPrios {lists : Head → List Node} {p : Nat} :
    p ∈ readyPrios lists ↔ lists (.ready p) ≠ [] := Iff.rfl

structure Holds (cfg : Config) (s : State) (lists : Head → List Node) : Prop where
  rings : Rings s.links lists
  member : ∀ p n, n ∈ lists (.ready p) ↔
    ∃ t, n = .sched t ∧ (s.task t).stat = .ready ∧ (s.task t).curPrio.toNat = p
  prio : ∀ t, (s.task t).originPrio.toNat < cfg.prioMax ∧ (s.task t).curPrio.toNat < cfg.prioMax
  site : ∀ t, IsSite cfg.prioMax (s.task t).site (s.task t).curPrio.toNat ∨
    ((s.task t).site.row = 0 ∧ (s.task t).site.column = 0 ∧
      ((s.task t).stat = .init ∨ (s.task t).stat = .close))
  running : ∀ t, (s.task t).stat = .running → ∀ h, .sched t ∉ lists h
  delay : ∀ t, (∀ ticks, (s.task t).delay ≠ some ⟨ticks, true⟩) → ∀ h, .delay t ∉ lists h
  marks : Marks cfg.prioMax s.vector (readyPrios lists)

section
variable (cfg : Config) (s : State) (t : Nat)

@[simp] lemma modifyTask_self (f : Task → Task) : (s.modifyTask t f).task t = f (s.task t) := by
  simp [State.modifyTask]

lemma modifyTask_of_ne (f : Task → Task) {m : Nat} (h : m ≠ t) :
    (s.modifyTask t f).task m = s.task m := by simp [State.modifyTask, h]

@[simp] lemma rmNode_task (n : Node) : (s.doubleLinkListRmNode n).task = s.task := rfl

lemma removeKTask_eq : ∃ vector, kTaskOsAssignRemoveKTask cfg s t =
    { s.doubleLinkListRmNode (.sched t) with vector } := by
  rw [kTaskOsAssignRemoveKTask]
  split
  · exact ⟨_, rfl⟩
  · exact ⟨_, rfl⟩

@[simp] lemma remove_links :
    (kTaskOsAssignRemoveKTask cfg s t).links = s.links.remove (.inr (.sched t)) := by
  obtain ⟨_, h⟩ := removeKTask_eq cfg s t
  rw [h]
  rfl

@[simp] lemma remove_task : (kTaskOsAssignRemoveKTask cfg s t).task = s.task := by
  obtain ⟨_, h⟩ := removeKTask_eq cfg s t
  rw [h]
  rfl

@[simp] lemma remove_osRunningTask :
    (kTaskOsAssignRemoveKTask cfg s t).osRunningTask = s.osRunningTask := by
  obtain ⟨_, h⟩ := removeKTask_eq cfg s t
  rw [h]
  rfl

variable (stat : Stat) (m : Nat)

lemma stateSet_stat :
    ((s.kTaskStateSet t stat).task m).stat = if m = t then stat else (s.task m).stat := by
  by_cases h : m = t <;> simp [State.kTaskStateSet, State.modifyTask, h]

@[simp] lemma stateSet_curPrio :
    ((s.kTaskStateSet t stat).task m).curPrio = (s.task m).curPrio := by
  by_cases h : m = t <;> simp [State.kTaskStateSet, State.modifyTask, h]

@[simp] lemma stateSet_originPrio :
    ((s.kTaskStateSet t stat).task m).originPrio = (s.task m).originPrio := by
  by_cases h : m = t <;> simp [State.kTaskStateSet, State.modifyTask, h]

@[simp] lemma stateSet_site : ((s.kTaskStateSet t stat).task m).site = (s.task m).site := by
  by_cases h : m = t <;> simp [State.kTaskStateSet, State.modifyTask, h]

@[simp] lemma stateSet_delay : ((s.kTaskStateSet t stat).task m).delay = (s.task m).delay := by
  by_cases h : m = t <;> simp [State.kTaskStateSet, State.modifyTask, h]

end

def Linked (s : State) (lists : Head → List Node) (h : Head) (n : Node) (s' : State) : Prop :=
  ∃ l xs ys, lists h = xs ++ ys ∧ Rings l (update lists h (xs ++ n :: ys)) ∧
    s' = { s with links := l }

variable {h : Head}

section
variable {s : State} {n : Node} (hr : Rings s.links lists)
include hr

lemma linked_insertTail (hfree : ∀ h, n ∉ lists h) (h : Head) :
    Linked s lists h n (insertTail s h n) :=
  ⟨_, _, [], (append_nil _).symm, hr.insertAfter_last hfree h, rfl⟩

lemma linked_insertBefore (hfree : ∀ h, n ∉ lists h) {xs ys : List Node}
    (hsplit : lists h = xs ++ ys) :
    Linked s lists h n (s.insertNodeBefore (Links.entry (.inl h) (ys.map .inr)) n) :=
  ⟨_, xs, ys, hsplit, hr.insertBefore hfree hsplit, rfl⟩

lemma insertSorted_returns (hfree : ∀ h, n ∉ lists h) (h : Head) (p : Head ⊕ Node → Bool) :
    Returns (fun fuel => insertSorted fuel s h p n) fun s' => ∃ links,
      Rings links (update lists h ((lists h).takeWhile (fun m => !p (.inr m)) ++
        n :: (lists h).dropWhile fun m => !p (.inr m))) ∧ s' = { s with links } := by
  have heq : ∀ fuel, insertSorted fuel s h p n =
      (s.links.insertSorted (.inl h) p (.inr n) fuel).map fun links => { s with links } := by
    intro fuel
    simp only [insertSorted, Links.insertSorted, bind_eq_bind, Option.map_bind, comp_def, map_some]
    refine Option.bind_congr fun node _ => ?_
    split <;> rfl
  simp only [heq]
  exact (hr.insertSorted_returns hfree h p).map fun links hlinks => ⟨links, hlinks, rfl⟩

lemma linked_insertSorted (hfree : ∀ h, n ∉ lists h) (h : Head) (p : Head ⊕ Node → Bool) :
    Returns (fun fuel => insertSorted fuel s h p n) (Linked s lists h n) :=
  (insertSorted_returns hr hfree h p).mono fun _ ⟨links, hlinks, he⟩ =>
    ⟨links, _, _, takeWhile_append_dropWhile.symm, hlinks, he⟩

lemma linked_policyInsert {t : Nat} (hfree : ∀ h, .sched t ∉ lists h) (policy : Policy) :
    Returns (fun fuel => policyInsert policy fuel s t)
      (Linked s lists (.ready (s.task t).curPrio.toNat) (.sched t)) := by
  cases policy with
  | fifo => exact .pure (linked_insertTail hr hfree _)
  | roundRobin => exact .pure (linked_insertTail hr hfree _)
  | roundRobinRemain =>
    simp only [policyInsert, roundRobinRemainReadyVectorInsert]
    split
    · exact linked_insertSorted hr hfree _ _
    · exact .pure (linked_insertTail hr hfree _)

lemma insertToReadyVector_returns {t : Nat} (hfree : ∀ h, .sched t ∉ lists h) (cfg : Config) :
    Returns (fun fuel => kTaskInsertToReadyVector cfg fuel s t) fun s' =>
      ∃ links xs ys, lists (.ready (s.task t).curPrio.toNat) = xs ++ ys ∧
        Rings links (update lists (.ready (s.task t).curPrio.toNat) (xs ++ .sched t :: ys)) ∧
        s' = { s.kTaskStateSet t .ready with
          links
          vector := mergeFlags cfg.prioMax
            (if s.vector.highestPrio < (s.task t).curPrio.toNat then
              { s.vector with highestPrio := (s.task t).curPrio.toNat }
            else s.vector) (s.task t).site } := by
  have hlinked := linked_policyInsert (s := s.kTaskStateSet t .ready) hr hfree cfg.policy
  simp only [kTaskInsertToReadyVector, assignPolicyInsert, bind_eq_bind, bind_assoc]
  refine hlinked.bind ?_
  rintro _ ⟨l, xs, ys, hsplit, hr, rfl⟩
  rw [stateSet_curPrio] at hsplit hr
  refine .pure ⟨l, xs, ys, hsplit, hr, ?_⟩
  simp only [stateSet_curPrio, stateSet_site]
  rfl

lemma remove_vector (cfg : Config) (t : Nat) :
    (kTaskOsAssignRemoveKTask cfg s t).vector =
      if (lists (.ready (s.task t).curPrio.toNat)).erase (.sched t) = [] then
        clearFlags cfg.prioMax s.vector (s.task t).site
      else s.vector := by
  have hempty : (s.doubleLinkListRmNode (.sched t)).isDoubleLinkListEmpty
      (.ready ((s.doubleLinkListRmNode (.sched t)).task t).curPrio.toNat) ↔
        (lists (.ready (s.task t).curPrio.toNat)).erase (.sched t) = [] :=
    decide_eq_true_iff.trans ((hr.remove (.sched t)).next_head_eq_iff _)
  rw [kTaskOsAssignRemoveKTask]
  by_cases h : (lists (.ready (s.task t).curPrio.toNat)).erase (.sched t) = []
  · rw [if_pos h, if_pos (hempty.mpr h)]
    rfl
  · rw [if_neg h, if_neg (mt hempty.mp h)]
    rfl

end

namespace Holds
variable {cfg : Config} {s s' : State} {t : Nat} (hs : Holds cfg s lists)
include hs

lemma not_mem (ht : (s.task t).stat ≠ .ready) (p : Nat) : .sched t ∉ lists (.ready p) := by
  rw [hs.member]
  rintro ⟨m, hm, hr, -⟩
  cases hm
  exact ht hr

lemma mem_erase {n m : Node} : n ∈ (lists h).erase m ↔ n ≠ m ∧ n ∈ lists h :=
  (hs.rings.nodup h).mem_erase_iff

lemma modify (f : Task → Task) (hstat : (f (s.task t)).stat = (s.task t).stat)
    (hcur : (f (s.task t)).curPrio = (s.task t).curPrio)
    (horigin : (f (s.task t)).originPrio = (s.task t).originPrio)
    (hsite : (f (s.task t)).site = (s.task t).site)
    (hdelay : (f (s.task t)).delay = (s.task t).delay ∨ ∀ h, .delay t ∉ lists h) :
    Holds cfg (s.modifyTask t f) lists := by
  have hall : ∀ m, ((s.modifyTask t f).task m).stat = (s.task m).stat ∧
      ((s.modifyTask t f).task m).curPrio = (s.task m).curPrio ∧
      ((s.modifyTask t f).task m).originPrio = (s.task m).originPrio ∧
      ((s.modifyTask t f).task m).site = (s.task m).site := by
    intro m
    by_cases hm : m = t
    · subst hm
      simp [hstat, hcur, horigin, hsite]
    · simp [modifyTask_of_ne s t f hm]
  refine ⟨hs.rings, ?_, ?_, ?_, ?_, fun m hm => ?_, hs.marks⟩ <;> try simp only [hall]
  · exact hs.member
  · exact hs.prio
  · exact hs.site
  · exact hs.running
  · by_cases he : m = t
    · subst he
      rw [modifyTask_self] at hm
      obtain h | h := hdelay
      · exact hs.delay m (h ▸ hm)
      · exact h
    · rw [modifyTask_of_ne s t f he] at hm
      exact hs.delay m hm

lemma erase_ready_of_ne {p : Nat} (hp : p ≠ (s.task t).curPrio.toNat) :
    (lists (.ready p)).erase (.sched t) = lists (.ready p) := by
  apply erase_of_not_mem
  rw [hs.member]
  rintro ⟨m, hm, -, rfl⟩
  cases hm
  exact hp rfl

lemma marks_remove :
    Marks cfg.prioMax (kTaskOsAssignRemoveKTask cfg s t).vector
      (readyPrios fun h => (lists h).erase (.sched t)) := by
  rw [remove_vector hs.rings]
  split
  · rename_i herase
    have hset : (readyPrios fun h => (lists h).erase (.sched t)) =
        readyPrios lists \ {(s.task t).curPrio.toNat} := by
      ext p
      rw [Set.mem_sdiff, Set.mem_singleton_iff, mem_readyPrios, mem_readyPrios]
      by_cases hp : p = (s.task t).curPrio.toNat
      · subst hp
        exact iff_of_false (not_not.mpr herase) fun hc => hc.2 rfl
      · rw [hs.erase_ready_of_ne hp, and_iff_left hp]
    rw [hset]
    refine hs.marks.clear ?_
    obtain hsite | ⟨hrow, hcol, hstat⟩ := hs.site t
    · exact .inl hsite
    · have hnot := hs.not_mem (t := t) (by rcases hstat with h | h <;> simp [h])
        (s.task t).curPrio.toNat
      rw [erase_of_not_mem hnot] at herase
      exact .inr ⟨hrow, hcol, not_not.mpr herase⟩
  · rename_i herase
    have hset : (readyPrios fun h => (lists h).erase (.sched t)) = readyPrios lists := by
      ext p
      rw [mem_readyPrios, mem_readyPrios]
      by_cases hp : p = (s.task t).curPrio.toNat
      · subst hp
        exact iff_of_true herase fun h0 => herase (by rw [h0]; rfl)
      · rw [hs.erase_ready_of_ne hp]
    rw [hset]
    exact hs.marks

lemma remove {stat : Stat} (hne : stat ≠ .ready)
    (hsite : stat = .close ∨ ((s.task t).stat ≠ .init ∧ (s.task t).stat ≠ .close)) :
    Holds cfg ((kTaskOsAssignRemoveKTask cfg s t).kTaskStateSet t stat)
      fun h => (lists h).erase (.sched t) where
  rings := by
    rw [State.kTaskStateSet, State.modifyTask, remove_links]
    exact hs.rings.remove (.sched t)
  member p n := by
    rw [hs.mem_erase, hs.member]
    constructor
    · rintro ⟨hn, m, rfl, hr, hp⟩
      have hm : m ≠ t := fun he => hn (he ▸ rfl)
      exact ⟨m, rfl, by simp [stateSet_stat, hm, hr], by simpa using hp⟩
    · rintro ⟨m, rfl, hr, hp⟩
      rw [stateSet_stat] at hr
      split at hr
      · exact absurd hr hne
      · rename_i hm
        rw [remove_task] at hr
        exact ⟨by simpa using hm, m, rfl, hr, by simpa using hp⟩
  prio m := by simpa using hs.prio m
  site m := by
    simp only [stateSet_curPrio, stateSet_site, stateSet_stat, remove_task]
    by_cases hm : m = t
    · subst hm
      obtain h | ⟨hrow, hcol, hstat⟩ := hs.site m
      · exact .inl h
      · obtain rfl | hsite := hsite
        · exact .inr ⟨hrow, hcol, .inr (by simp)⟩
        · exact absurd hstat (by simp [hsite])
    · simpa [hm] using hs.site m
  running m hm h hmem := by
    rw [stateSet_stat, remove_task] at hm
    rw [hs.mem_erase] at hmem
    split at hm
    · rename_i he
      exact hmem.1 (he ▸ rfl)
    · exact hs.running m hm h hmem.2
  delay m := by
    simp only [stateSet_delay, remove_task]
    intro hm h hmem
    exact hs.delay m hm h (hs.mem_erase.mp hmem).2
  marks := hs.marks_remove

lemma unlink {n : Node} (hn : ∀ p, n ∉ lists (.ready p)) :
    Holds cfg (s.doubleLinkListRmNode n) fun h => (lists h).erase n where
  rings := hs.rings.remove n
  member p m := by
    rw [erase_of_not_mem (hn p)]
    exact hs.member p m
  prio := hs.prio
  site := hs.site
  running m hm h hmem := hs.running m hm h (hs.mem_erase.mp hmem).2
  delay m hm h hmem := hs.delay m hm h (hs.mem_erase.mp hmem).2
  marks := by
    have hset : (readyPrios fun h => (lists h).erase n) = readyPrios lists := by
      ext p
      rw [mem_readyPrios, mem_readyPrios, erase_of_not_mem (hn p)]
    rw [hset]
    exact hs.marks

lemma delay_not_mem_ready (p : Nat) : .delay t ∉ lists (.ready p) := by
  rw [hs.member]
  rintro ⟨m, hm, -⟩
  cases hm

lemma unSetDelay (t : Nat) :
    ∃ lists', Holds cfg (kTaskUnSetDelay s t) lists' ∧
      (∀ h m, .sched m ∈ lists' h → .sched m ∈ lists h) ∧ ∀ h, .delay t ∉ lists' h := by
  rw [kTaskUnSetDelay]
  split
  · rename_i ticks _
    have hu := hs.unlink (n := .delay t) hs.delay_not_mem_ready
    have hfree : ∀ h, .delay t ∉ (lists h).erase (.delay t) := fun h hm =>
      (hs.mem_erase.mp hm).1 rfl
    exact ⟨_, hu.modify (t := t) ({ · with delay := some ⟨ticks, false⟩ }) rfl rfl rfl rfl
      (.inr hfree), fun h m hm => (hs.mem_erase.mp hm).2, hfree⟩
  · rename_i hnot
    exact ⟨lists, hs, fun _ _ hm => hm, hs.delay t fun ticks => hnot ticks⟩

lemma insert (hfree : ∀ h, .sched t ∉ lists h)
    (hsite : (s.task t).stat ≠ .init ∧ (s.task t).stat ≠ .close ∨
      IsSite cfg.prioMax (s.task t).site (s.task t).curPrio.toNat) :
    Returns (fun fuel => kTaskInsertToReadyVector cfg fuel s t) fun s' =>
      (∃ lists', Holds cfg s' lists') ∧
        ∃ links vector, s' = { s.kTaskStateSet t .ready with links, vector } := by
  refine (insertToReadyVector_returns hs.rings hfree cfg).mono ?_
  rintro _ ⟨l, xs, ys, hsplit, hr, rfl⟩
  have hs' : IsSite cfg.prioMax (s.task t).site (s.task t).curPrio.toNat := by
    obtain h | h := hsite
    · exact (hs.site t).resolve_right fun hz => by simp [h] at hz
    · exact h
  refine ⟨⟨_, ⟨hr, fun p n => ?_, fun m => ?_, fun m => ?_, fun m hm h => ?_, fun m hm h => ?_,
    ?_⟩⟩, _, _, rfl⟩
  · rw [Rings.mem_update_insert hsplit, hs.member]
    simp only [stateSet_stat, stateSet_curPrio, Head.ready.injEq]
    constructor
    · rintro (⟨rfl, rfl⟩ | ⟨m, rfl, hm, rfl⟩)
      · exact ⟨t, rfl, by simp, rfl⟩
      · exact ⟨m, rfl, by simp [hm], rfl⟩
    · rintro ⟨m, rfl, hm, rfl⟩
      by_cases he : m = t
      · subst he
        exact .inl ⟨rfl, rfl⟩
      · exact .inr ⟨m, rfl, by simpa [he] using hm, rfl⟩
  · simpa using hs.prio m
  · simp only [stateSet_site, stateSet_curPrio, stateSet_stat]
    by_cases hm : m = t
    · subst hm
      exact .inl hs'
    · simpa [hm] using hs.site m
  · rw [stateSet_stat] at hm
    rw [Rings.mem_update_insert hsplit]
    split at hm
    · cases hm
    · rintro (⟨-, he⟩ | hmem)
      · rename_i hne
        cases he
        exact hne rfl
      · exact hs.running m hm h hmem
  · rw [stateSet_delay] at hm
    rw [Rings.mem_update_insert hsplit]
    rintro (⟨-, he⟩ | hmem)
    · cases he
    · exact hs.delay m hm h hmem
  · have hset : readyPrios (update lists (.ready (s.task t).curPrio.toNat) (xs ++ .sched t :: ys)) =
        Insert.insert (s.task t).curPrio.toNat (readyPrios lists) := by
      ext p
      rw [mem_readyPrios, Set.mem_insert_iff, mem_readyPrios]
      by_cases hp : p = (s.task t).curPrio.toNat
      · subst hp
        simp
      · simp [hp]
    rw [hset]
    exact hs.marks.merge hs'

lemma link (hh : ∀ p, h ≠ .ready p) {n : Node} (hl : Linked s lists h n s')
    (hrun : ∀ t, n = .sched t → (s.task t).stat ≠ .running)
    (hdelay : ∀ t, n = .delay t → ∃ ticks, (s.task t).delay = some ⟨ticks, true⟩) :
    ∃ lists', Holds cfg s' lists' := by
  obtain ⟨l, xs, ys, hsplit, hr, rfl⟩ := hl
  have hready : ∀ p, update lists h (xs ++ n :: ys) (.ready p) = lists (.ready p) :=
    fun p => update_of_ne (hh p).symm _ _
  refine ⟨_, hr, fun p m => ?_, hs.prio, hs.site, fun m hm k => ?_, fun m hm k => ?_, ?_⟩
  · rw [hready]
    exact hs.member p m
  · rw [Rings.mem_update_insert hsplit]
    rintro (⟨-, he⟩ | hmem)
    · exact hrun m he.symm hm
    · exact hs.running m hm k hmem
  · rw [Rings.mem_update_insert hsplit]
    rintro (⟨-, he⟩ | hmem)
    · obtain ⟨ticks, hticks⟩ := hdelay m he.symm
      exact hm ticks hticks
    · exact hs.delay m hm k hmem
  · have hset : readyPrios (update lists h (xs ++ n :: ys)) = readyPrios lists := by
      ext p
      rw [mem_readyPrios, mem_readyPrios, hready]
    rw [hset]
    exact hs.marks

lemma setPrio (ht : (s.task t).stat ≠ .ready) {prio : UInt8} (hprio : prio.toNat < cfg.prioMax) :
    Holds cfg (s.modifyTask t fun task => { task with
      curPrio := prio
      site := bitmapSiteMask cfg.prioMax prio task.site }) lists where
  rings := hs.rings
  member p n := by
    rw [hs.member]
    constructor
    · rintro ⟨m, rfl, hr, hp⟩
      have hm : m ≠ t := fun he => ht (he ▸ hr)
      exact ⟨m, rfl, by rwa [modifyTask_of_ne _ _ _ hm], by rwa [modifyTask_of_ne _ _ _ hm]⟩
    · rintro ⟨m, rfl, hr, hp⟩
      have hm : m ≠ t := by
        rintro rfl
        rw [modifyTask_self] at hr
        exact ht hr
      rw [modifyTask_of_ne _ _ _ hm] at hr hp
      exact ⟨m, rfl, hr, hp⟩
  prio m := by
    by_cases hm : m = t
    · subst hm
      rw [modifyTask_self]
      exact ⟨(hs.prio m).1, hprio⟩
    · rw [modifyTask_of_ne _ _ _ hm]
      exact hs.prio m
  site m := by
    by_cases hm : m = t
    · subst hm
      rw [modifyTask_self]
      exact .inl (bitmapSiteMask_isSite hprio _)
    · rw [modifyTask_of_ne _ _ _ hm]
      exact hs.site m
  running m hm := by
    by_cases he : m = t
    · subst he
      rw [modifyTask_self] at hm
      exact hs.running m hm
    · rw [modifyTask_of_ne _ _ _ he] at hm
      exact hs.running m hm
  delay m hm := by
    by_cases he : m = t
    · subst he
      rw [modifyTask_self] at hm
      exact hs.delay m hm
    · rw [modifyTask_of_ne _ _ _ he] at hm
      exact hs.delay m hm
  marks := hs.marks

lemma restart (ht : (s.task t).stat = .init) :
    Holds cfg (s.modifyTask t fun task => { task with
      curPrio := task.originPrio
      site := bitmapSiteMask cfg.prioMax task.originPrio task.site }) lists :=
  hs.setPrio (by simp [ht]) (hs.prio t).1

lemma congr (hl : s'.links = s.links) (ht : s'.task = s.task) (hv : s'.vector = s.vector) :
    Holds cfg s' lists := by
  obtain ⟨h1, h2, h3, h4, h5, h6, h7⟩ := hs
  rw [← ht] at h2 h3 h4 h5 h6
  exact ⟨hl ▸ h1, h2, h3, h4, h5, h6, hv ▸ h7⟩

lemma mem_of_choose (h : chooseTaskWithHighestPrio s = some t) :
    .sched t ∈ lists (.ready s.vector.highestPrio) := by
  rw [chooseTaskWithHighestPrio] at h
  split at h
  · rename_i m hm
    cases h
    rw [(hs.rings.seg _).next_eq] at hm
    cases hl : lists (.ready s.vector.highestPrio) with
    | nil => simp [hl, Links.entry] at hm
    | cons n ns =>
      rw [hl] at hm
      cases hm
      simp
  · cases h

lemma stat_of_choose (h : chooseTaskWithHighestPrio s = some t) : (s.task t).stat = .ready := by
  obtain ⟨m, he, hr, -⟩ := (hs.member _ _).mp (hs.mem_of_choose h)
  cases he
  exact hr

end Holds
end Xiuos.Kernel
