import Xiuos.Kernel.DataQueue

namespace Xiuos.Kernel
open Lib Function List Option

def DqPc.holds : Option DqPc → Option QueueSem
  | some (.guarded call) => some call.obtains
  | some (.moved call _) => some call.abandons
  | _ => none

@[simp] lemma DqPc.holds_none : holds none = none := rfl

variable (call : DqCall)

@[simp] lemma DqPc.holds_wait : holds (some (.wait call)) = none := rfl

@[simp] lemma DqPc.holds_guarded : holds (some (.guarded call)) = some call.obtains := rfl

variable (elem : Option DataElem)

@[simp] lemma DqPc.holds_moved : holds (some (.moved call elem)) = some call.abandons := rfl

def DqCall.Moves (call : DqCall) (elem : Option DataElem) : Prop :=
  ∃ e, elem = some e ∧ ∀ e' timeout, call = .push e' timeout → e = e'

namespace DqSection

def pushed : DqSection → Option DataElem
  | ⟨_, .push elem _, _⟩ => some elem
  | ⟨_, .pop _, _⟩ => none

def popped : DqSection → Option DataElem
  | ⟨_, .push _ _, _⟩ => none
  | ⟨_, .pop _, elem⟩ => elem

end DqSection

namespace DqWorld
variable (w : DqWorld)

def inProgress (w : DqWorld) (t : Nat) : Bool := (DqPc.holds (w.pc t)).isSome

def value (w : DqWorld) (s : QueueSem) : Nat := (w.queue.sem s).value.toNat

def inHand (t : Nat) : Option DqPc → List DqSection
  | some (.moved call elem) => [⟨t, call, elem⟩]
  | _ => []

/-- What the calls of a task that returned `EOK` have done, and its section that has not returned
yet. -/
def did (w : DqWorld) (t : Nat) : List DqSection :=
  (w.returns.filter fun r => r.task = t ∧ r.ret = eok).map (·.toDqSection) ++ inHand t (w.pc t)

/-- The successful calls of each task are its critical sections in their order. All of them have
moved an element, and what the pops took is what the pushes were called with, in the order of the
sections, up to what is still in the queue. -/
structure Transfers (w : DqWorld) : Prop where
  own : ∀ t, w.did t = w.passed.filter fun d => d.task = t
  moves : ∀ d ∈ w.passed, d.call.Moves d.elem
  order : w.passed.filterMap DqSection.popped ++ w.queue.contents =
    w.passed.filterMap DqSection.pushed

structure Exact (w : DqWorld) : Prop extends Transfers w where
  created : ∀ s, w.queue.live s = true
  accounted : ∃ n, Counts w.inProgress n ∧ w.value .blank + w.value .data + n + 1 = w.queue.maxLen

structure Delivers (w : DqWorld) : Prop extends Transfers w where
  bound : w.queue.contents.length + 1 ≤ w.queue.maxLen

def TakesToken (w : DqWorld) : DqOp → Prop
  | .call _ call =>
    call.timeout = DqCall.forever ∧ w.queue.live call.obtains = true ∨ call.timeout = 0
  | .expire t => ∀ call, w.pc t = some (.wait call) → call.timeout ≠ DqCall.forever
  | _ => True

instance (w : DqWorld) : ∀ op, Decidable (TakesToken w op)
  | .call _ call => inferInstanceAs (Decidable
    (call.timeout = DqCall.forever ∧ w.queue.live call.obtains = true ∨ call.timeout = 0))
  | .expire t =>
    match h : w.pc t with
    | some (.wait call) => decidable_of_iff (call.timeout ≠ DqCall.forever)
      (by simp [TakesToken, h])
    | some (.guarded _) | some (.moved _ _) | none => isTrue (by simp [TakesToken, h])
  | .enter _ | .leave _ _ => isTrue trivial

/-- The tokens of a semaphore that is missing are lost, so that they only add up where both are
there. -/
structure Inv (live : QueueSem → Bool) (w : DqWorld) (held : QueueSem → Nat) : Prop
    extends Transfers w where
  live_eq : w.queue.live = live
  counts : ∀ s, Counts (fun t => decide (DqPc.holds (w.pc t) = some s)) (held s)
  room : w.value .blank + held .blank + w.queue.contents.length + 1 ≤ w.queue.maxLen
  stock : w.value .data + held .data ≤ w.queue.contents.length
  total : (∀ s, live s = true) →
    w.value .blank + held .blank + (w.value .data + held .data) + 1 = w.queue.maxLen
  ring : w.queue.Ring
  len : w.queue.maxLen < 2 ^ 16
  pend : ∀ s, ∀ t ∈ (w.queue.sem s).pend, ∃ call, w.pc t = some (.wait call) ∧ call.obtains = s
  waits : ∀ t call, w.pc t = some (.wait call) → call.timeout = DqCall.forever ∨ call.timeout = 0

variable {live : QueueSem → Bool} {w w' : DqWorld} {held : QueueSem → Nat} {t : Nat}
  {tickPerSecond : UInt32}

lemma Inv.inProgress (h : Inv live w held) : Counts w.inProgress (held .blank + held .data) := by
  refine ((h.counts .blank).add (h.counts .data) ?_).congr fun t => ?_
  · simp only [decide_eq_true_eq]
    intro t hb hd
    rw [hb] at hd
    cases hd
  · rw [DqWorld.inProgress]
    rcases DqPc.holds (w.pc t) with _ | _ | _ <;> rfl

lemma Inv.exact (h : Inv live w held) (hlive : ∀ s, live s = true) : Exact w := by
  refine ⟨h.toTransfers, by rwa [h.live_eq], _, h.inProgress, ?_⟩
  have htotal := h.total hlive
  omega

lemma Inv.delivers (h : Inv live w held) : Delivers w := ⟨h.toTransfers, h.ring.length_lt⟩

lemma counts_setPc (h : ∀ s, Counts (fun t => decide (DqPc.holds (w.pc t) = some s)) (held s))
    (t : Nat) (pc : Option DqPc) : ∃ held' : QueueSem → Nat,
      (∀ s, Counts (fun u => decide (DqPc.holds (update w.pc t pc u) = some s)) (held' s)) ∧
      ∀ s, held' s + (decide (DqPc.holds (w.pc t) = some s)).toNat =
        held s + (decide (DqPc.holds pc = some s)).toNat := by
  have hupdate (s : QueueSem) := (h s).update
    (q := fun u => decide (DqPc.holds (update w.pc t pc u) = some s)) t fun u hu => by
      simp only [update_of_ne hu]
  choose held' hcounts heq using hupdate
  refine ⟨held', hcounts, fun s => ?_⟩
  have hs := heq s
  simpa only [update_self] using hs

variable {call : DqCall}

lemma not_exact_of_skip (h : Inv live w held) (hpc : DqPc.holds (w.pc t) = none)
    (hpcs : w'.pc = update w.pc t (some (.guarded call))) (hvalue : w'.value = w.value)
    (hlive : w'.queue.live = w.queue.live) (hlen : w'.queue.maxLen = w.queue.maxLen) :
    ¬ Exact w' := by
  rintro ⟨-, hcreated, n, hn, hsum⟩
  obtain ⟨n', hn', heq⟩ := h.inProgress.update (q := w'.inProgress) t fun u hu => by
    simp only [DqWorld.inProgress, hpcs, update_of_ne hu]
  have hnew : w'.inProgress t = true := by simp [DqWorld.inProgress, hpcs, DqPc.holds]
  have hold : w.inProgress t = false := by simp [DqWorld.inProgress, hpc]
  rw [hnew, hold, Bool.toNat_true, Bool.toNat_false] at heq
  have hsame : n = n' := hn.ncard_eq.symm.trans hn'.ncard_eq
  have htotal := h.total (h.live_eq ▸ hlive ▸ hcreated)
  rw [hvalue, hlen] at hsum
  omega

lemma Inv.keep {pc' : Option DqPc} (h : Inv live w held) (hpc : w'.pc = update w.pc t pc')
    (hq : ∃ sem, w'.queue = { w.queue with sem })
    (hvalue : ∀ s, w'.value s + (decide (DqPc.holds pc' = some s)).toNat =
        w.value s + (decide (DqPc.holds (w.pc t) = some s)).toNat ∨
      w.queue.live s = false ∧ w'.value s + (decide (DqPc.holds pc' = some s)).toNat ≤
        w.value s + (decide (DqPc.holds (w.pc t) = some s)).toNat)
    (hpend : ∀ s, ∀ u ∈ (w'.queue.sem s).pend, u ∈ (w.queue.sem s).pend ∧ u ≠ t ∨
      u = t ∧ ∃ call, pc' = some (.wait call) ∧ call.obtains = s)
    (hwaits : ∀ call, pc' = some (.wait call) →
      call.timeout = DqCall.forever ∨ call.timeout = 0)
    (hdid : w'.did = w.did) (hpassed : w'.passed = w.passed) : ∃ held', Inv live w' held' := by
  obtain ⟨held', hcounts, hheld⟩ := counts_setPc h.counts t pc'
  obtain ⟨sem, hq⟩ := hq
  have hcontents : w'.queue.contents = w.queue.contents := by
    rw [hq]
    rfl
  have hsame (s : QueueSem) : w'.value s + held' s ≤ w.value s + held s ∧
      (w.queue.live s = true → w'.value s + held' s = w.value s + held s) := by
    have hh := hheld s
    obtain hv | ⟨hdead, hv⟩ := hvalue s
    · exact ⟨by omega, fun _ => by omega⟩
    · exact ⟨by omega, fun hlive => by simp [hdead] at hlive⟩
  have hblank := hsame .blank
  have hdata := hsame .data
  have hpcs (u : Nat) : w'.pc u = if u = t then pc' else w.pc u := by rw [hpc, update_apply]
  obtain ⟨⟨hown, hmoves, horder⟩, rfl, -, hroom, hstock, htotal, ⟨hfront, hrear⟩, hlen, hp, hw⟩ := h
  refine ⟨held', ⟨?_, ?_, ?_⟩, ?_, hpc ▸ hcounts, ?_, ?_, fun hlive => ?_, ⟨?_, ?_⟩, ?_, ?_, ?_⟩
  · rw [hdid, hpassed]
    exact hown
  · rw [hpassed]
    exact hmoves
  · rw [hpassed, hcontents]
    exact horder
  · rw [hq]
  · rw [hcontents, hq]
    dsimp only
    omega
  · rw [hcontents]
    omega
  · have htotal := htotal hlive
    have hb := hblank.2 (hlive _)
    have hd := hdata.2 (hlive _)
    rw [hq]
    dsimp only
    omega
  all_goals grind

@[grind =] lemma value_setSem (w : DqWorld) (s s' : QueueSem) (sem : PendSem) :
    (w.setSem s sem).value s' = if s' = s then sem.value.toNat else w.value s' := by
  rw [value, setSem, DataQueue.setSem]
  simp only [update_apply]
  split <;> rfl

@[grind =] lemma pend_setSem (w : DqWorld) (s s' : QueueSem) (sem : PendSem) :
    ((w.setSem s sem).queue.sem s').pend = if s' = s then sem.pend else (w.queue.sem s').pend := by
  rw [setSem, DataQueue.setSem]
  simp only [update_apply]
  split <;> rfl

lemma setSem_setSem (w : DqWorld) (s : QueueSem) (sem sem' : PendSem) :
    (w.setSem s sem).setSem s sem' = w.setSem s sem' := by simp [setSem, DataQueue.setSem]

lemma inHand_of_holds {pc : Option DqPc} (h : DqPc.holds pc = none) (t : Nat) :
    inHand t pc = [] := by
  rcases pc with _ | _ | _ | _
  · rfl
  · rfl
  · rfl
  · cases h

lemma did_of_pc {pc' : Option DqPc} (hpc : w'.pc = update w.pc t pc')
    (hreturns : w'.returns = w.returns) (hold : inHand t (w.pc t) = []) (hnew : inHand t pc' = []) :
    w'.did = w.did := by
  funext u
  rw [did, did, hpc, hreturns, update_apply]
  split
  case isTrue hu => rw [hu, hold, hnew]
  case isFalse => rfl

lemma did_ret {ret : Int} {elem : Option DataElem} (h : ret ≠ eok ∧ inHand t (w.pc t) = [] ∨
    ret = eok ∧ w.pc t = some (.moved call elem)) : (w.ret t call ret elem).did = w.did := by
  funext u
  simp only [did, DqWorld.ret, setPc, update_apply, filter_append, map_append]
  by_cases hu : u = t
  · subst hu
    obtain ⟨hret, hpc⟩ | ⟨rfl, hpc⟩ := h
    · have hnone : inHand u none = [] := rfl
      simp [hret, hpc, hnone]
    · simp [hpc, inHand]
  · simp [hu, Ne.symm hu]

section
variable (h : Inv live w held)
include h

lemma Inv.value_lt (s : QueueSem) : w.value s < 2 ^ 16 - 1 := by
  have hroom := h.room
  have hstock := h.stock
  have hlen := h.len
  cases s <;> omega

variable {s : QueueSem}

lemma Inv.pend_ne (hpc : ∀ call, w.pc t ≠ some (.wait call)) {u : Nat}
    (hu : u ∈ (w.queue.sem s).pend) : u ≠ t := by
  rintro rfl
  obtain ⟨call, hwait, -⟩ := h.pend s u hu
  exact hpc call hwait

lemma Inv.take (hs : call.obtains = s) (hpc : DqPc.holds (w.pc t) = none) (sem : PendSem)
    (hvalue : sem.value.toNat + 1 = w.value s)
    (hpend : ∀ u ∈ sem.pend, u ∈ (w.queue.sem s).pend ∧ u ≠ t)
    (hother : ∀ s' ≠ s, t ∉ (w.queue.sem s').pend) :
    ∃ held', Inv live ((w.setSem s sem).setPc t (some (.guarded call))) held' := by
  refine h.keep rfl ⟨_, rfl⟩ (fun s' => .inl ?_) (fun s' u hu => ?_) (by simp)
    (did_of_pc rfl rfl (inHand_of_holds hpc t) rfl) rfl
  · change (w.setSem _ _).value s' + _ = _
    rw [hpc, DqPc.holds_guarded, hs, value_setSem]
    by_cases hs' : s' = s
    · simpa [hs'] using hvalue
    · simp [hs', Ne.symm hs']
  · change u ∈ ((w.setSem _ _).queue.sem s').pend at hu
    grind

lemma Inv.obtains_eq (hpc : w.pc t = some (.wait call)) (hu : t ∈ (w.queue.sem s).pend) :
    call.obtains = s := by
  obtain ⟨call', hwait, hs⟩ := h.pend s t hu
  rw [hpc] at hwait
  cases hwait
  exact hs

lemma Inv.grant {next : Nat} {sem : PendSem} (hnext : next ∈ (w.queue.sem s).pend)
    (hwait : w.pc next = some (.wait call)) (hvalue : sem.value.toNat + 1 = w.value s)
    (hpend : sem.pend = (w.queue.sem s).pend.filter (· ≠ next)) :
    ∃ held', Inv live ((w.setSem s sem).setPc next (some (.guarded call))) held' := by
  have hs := h.obtains_eq hwait hnext
  refine h.take hs (by rw [hwait, DqPc.holds_wait]) sem hvalue (fun u hu => ?_)
    fun s' hs' hu => hs' ((h.obtains_eq hwait hu).symm.trans hs)
  rw [hpend] at hu
  simpa using hu

lemma Inv.returned {t : Nat} (call : DqCall) {ret : Int} (elem : Option DataElem) (sem : PendSem)
    (hvalue : sem.value.toNat = w.value s + (decide (DqPc.holds (w.pc t) = some s)).toNat ∨
      w.queue.live s = false ∧ sem.value.toNat = w.value s)
    (hholds : ∀ s', s' ≠ s → DqPc.holds (w.pc t) ≠ some s')
    (hpend : ∀ u ∈ sem.pend, u ∈ (w.queue.sem s).pend ∧ u ≠ t)
    (hother : ∀ s' ≠ s, t ∉ (w.queue.sem s').pend)
    (hdid : (w.ret t call ret elem).did = w.did) :
    ∃ held', Inv live ((w.setSem s sem).ret t call ret elem) held' := by
  refine h.keep rfl ⟨_, rfl⟩ (fun s' => ?_) (fun s' u hu => ?_) (by simp) hdid rfl
  · change (w.setSem _ _).value s' + _ = _ ∨ _ ∧ (w.setSem _ _).value s' + _ ≤ _
    rw [DqPc.holds_none]
    grind
  · change u ∈ ((w.setSem _ _).queue.sem s').pend at hu
    grind

omit h in
lemma calculteTickFromTimeMs_ne_zero (tickPerSecond ms : UInt32) :
    calculteTickFromTimeMs tickPerSecond ms ≠ 0 := by
  intro heq
  have hpos := one_le_ticksOf (product32 tickPerSecond ms)
  rw [← calculteTickFromTimeMs_toNat, heq] at hpos
  exact absurd hpos (by decide)

omit h in
lemma setSem_self (w : DqWorld) (s : QueueSem) : w.setSem s (w.queue.sem s) = w := by
  simp [setSem, DataQueue.setSem]

lemma Inv.refused (hpc : w.pc t = none) (hzero : call.timeout = 0) :
    ∃ held', Inv live (w.refused t call) held' := by
  rw [DqWorld.refused, if_pos hzero, ← setSem_self w .blank]
  refine h.returned call none _ (.inl ?_) (fun s' _ => by simp [hpc]) (fun u hu => ⟨hu, ?_⟩)
    (fun s' _ hu => h.pend_ne (t := t) (fun call => by simp [hpc]) hu rfl)
    (did_ret (.inl ⟨by decide, by rw [hpc]; rfl⟩))
  · simp [hpc, value]
  · exact h.pend_ne (fun call => by simp [hpc]) hu

lemma Inv.enterCall (hpc : w.pc t = none) (hc : TakesToken w (.call t call)) :
    ∃ held', Inv live (w.enterCall tickPerSecond t call) held' := by
  have hnone : DqPc.holds (w.pc t) = none := by rw [hpc]; rfl
  have hne {s : QueueSem} {u : Nat} (hu : u ∈ (w.queue.sem s).pend) : u ≠ t :=
    h.pend_ne (fun call => by simp [hpc]) hu
  have hc' : call.timeout = DqCall.forever ∨ call.timeout = 0 := hc.imp_left And.left
  rw [DqWorld.enterCall, if_pos hc']
  dsimp only
  rw [if_neg (calculteTickFromTimeMs_ne_zero _ _)]
  split_ifs with hdead hpos
  · exact h.refused hpc (hc.resolve_left fun hlive => by simp [hdead] at hlive)
  · exact h.take rfl hnone _ (toNat_sub_one hpos) (fun u hu => ⟨hu, hne hu⟩) fun s _ hu =>
      hne hu rfl
  · refine h.keep rfl ⟨_, rfl⟩ (fun s => .inl ?_) (fun s u hu => ?_) (fun _ hw => ?_)
      (did_of_pc rfl rfl (inHand_of_holds hnone t) rfl) rfl
    · change (w.setSem _ _).value s + _ = _
      rw [hnone, DqPc.holds_wait, value_setSem]
      split <;> simp_all [value]
    · change u ∈ ((w.setSem _ _).queue.sem s).pend at hu
      grind
    · cases hw
      exact hc'

lemma Inv.expire (hpc : w.pc t = some (.wait call)) (hc : call.timeout ≠ DqCall.forever) :
    ∃ held', Inv live ((w.setSem call.obtains { w.queue.sem call.obtains with
        pend := (w.queue.sem call.obtains).pend.filter (· ≠ t) }).refused t call) held' := by
  rw [DqWorld.refused, if_pos ((h.waits t call hpc).resolve_left hc)]
  refine h.returned call none _ (.inl ?_) (fun s' _ => by simp [hpc]) (fun u hu => ?_)
    (fun s' hs' hu => ?_) (did_ret (.inl ⟨by decide, by rw [hpc]; rfl⟩))
  · simp [hpc, value]
  · simpa using hu
  · exact hs' (h.obtains_eq hpc hu).symm

lemma Inv.pass {r : DataQueue × Option DataElem} (hpc : w.pc t = some (.guarded call))
    (hring : r.1.Ring) (hlen : r.1.maxLen = w.queue.maxLen) (hlive : r.1.live = w.queue.live)
    (hsem : r.1.sem = w.queue.sem)
    (hstock : r.1.contents.length + (decide (call.obtains = .data)).toNat =
      w.queue.contents.length + (decide (call.abandons = .data)).toNat)
    (hmoves : call.Moves r.2)
    (horder : (w.pass t call r).passed.filterMap DqSection.popped ++ r.1.contents =
      (w.pass t call r).passed.filterMap DqSection.pushed) :
    ∃ held', Inv live (w.pass t call r) held' := by
  obtain ⟨held', hcounts, hheld⟩ := counts_setPc h.counts t (some (.moved call r.2))
  have hvalue (s : QueueSem) : (w.pass t call r).value s = w.value s := by
    rw [value, value, ← hsem]
    rfl
  have hblank := hheld .blank
  have hdata := hheld .data
  simp only [hpc, DqPc.holds_guarded, DqPc.holds_moved, Option.some.injEq] at hblank hdata
  have hroom := h.room
  have hold := h.stock
  have hne {s : QueueSem} {u : Nat} (hu : u ∈ (w.queue.sem s).pend) : u ≠ t :=
    h.pend_ne (fun call => by simp [hpc]) hu
  refine ⟨held', ⟨fun u => ?_, fun d hd => ?_, horder⟩, hlive.trans h.live_eq, hcounts, ?_, ?_,
    fun hall => ?_, hring, hlen ▸ h.len, fun s u hu => ?_, fun u call' hu => ?_⟩
  · have hown := h.own u
    simp only [did, DqWorld.pass, setPc, update_apply, filter_append] at hown ⊢
    by_cases hu : u = t
    · subst hu
      simpa [hpc, inHand] using hown
    · simpa [hu, Ne.symm hu] using hown
  · obtain hd | hd := mem_append.mp hd
    · exact h.moves d hd
    · cases mem_singleton.mp hd
      exact hmoves
  · rw [hvalue]
    change _ + r.1.contents.length + 1 ≤ r.1.maxLen
    cases call <;> grind [DqCall.obtains, DqCall.abandons]
  · rw [hvalue]
    change _ ≤ r.1.contents.length
    cases call <;> grind [DqCall.obtains, DqCall.abandons]
  · have htotal := h.total hall
    rw [hvalue, hvalue]
    change _ = r.1.maxLen
    cases call <;> grind [DqCall.obtains, DqCall.abandons]
  · change u ∈ (r.1.sem s).pend at hu
    rw [hsem] at hu
    change ∃ call', update w.pc t _ u = _ ∧ _
    rw [update_of_ne (hne hu)]
    exact h.pend s u hu
  · change update w.pc t _ u = _ at hu
    grind [update_apply, h.waits u call']

lemma Inv.held_pos (hpc : DqPc.holds (w.pc t) = some s) :
    0 < held s := (h.counts s).pos (a := t) (by simpa using hpc)

lemma Inv.move (hpc : w.pc t = some (.guarded call)) : ∃ held', Inv live (w.move t call) held' := by
  have hroom := h.room
  have hstock := h.stock
  have horder := h.order
  cases call with
  | push elem timeout =>
    have hpos : 0 < held .blank := h.held_pos (t := t) (by rw [hpc]; rfl)
    obtain ⟨q, hq, hring, hlen, hlive, hsem, hcontents⟩ := h.ring.store_eq elem (by omega)
    rw [DqWorld.move, hq]
    refine h.pass hpc hring hlen hlive hsem ?_ ⟨elem, rfl, fun _ _ heq => ?_⟩ ?_
    · rw [hcontents, length_append]
      rfl
    · cases heq
      rfl
    · simp [DqWorld.pass, hcontents, filterMap_append, ← horder, DqSection.pushed,
        DqSection.popped]
  | pop timeout =>
    have hpos : 0 < held .data := h.held_pos (t := t) (by rw [hpc]; rfl)
    obtain ⟨q, elem, hq, hring, hlen, hlive, hsem, hcontents⟩ := h.ring.take_eq (by omega)
    rw [DqWorld.move, hq]
    refine h.pass hpc hring hlen hlive hsem ?_ ⟨elem, rfl, fun _ _ heq => ?_⟩ ?_
    · rw [hcontents, length_cons]
      rfl
    · cases heq
    · simp [DqWorld.pass, hcontents, filterMap_append, ← horder, DqSection.pushed,
        DqSection.popped]

variable {elem : Option DataElem}

lemma Inv.leave {next : Nat} (hpc : w.pc t = some (.moved call elem))
    (hleave : (w.ret t call eok elem).abandon call.abandons next = some w') :
    ∃ held', Inv live w' held' := by
  have hne {s : QueueSem} {u : Nat} (hu : u ∈ (w.queue.sem s).pend) : u ≠ t :=
    h.pend_ne (fun call => by simp [hpc]) hu
  have hdid : (w.ret t call eok elem).did = w.did := did_ret (.inr ⟨rfl, hpc⟩)
  have hreturned (sem : PendSem) (hpend : sem.pend = (w.queue.sem call.abandons).pend)
      (hvalue : sem.value.toNat = w.value call.abandons + 1 ∨
        w.queue.live call.abandons = false ∧ sem.value.toNat = w.value call.abandons) :
      ∃ held₁, Inv live ((w.setSem call.abandons sem).ret t call eok elem) held₁ :=
    h.returned call elem sem (by simpa [hpc] using hvalue)
      (fun s' hs' => by simpa [hpc] using hs'.symm)
      (fun u hu => ⟨hpend ▸ hu, hne (hpend ▸ hu)⟩) (fun s' _ hu => hne hu rfl) hdid
  rw [abandon] at hleave
  split_ifs at hleave with hdead hnil hnext
  · cases hleave
    have hkept := hreturned _ rfl (.inr ⟨hdead, rfl⟩)
    rwa [setSem_self] at hkept
  all_goals
    have hlt := h.value_lt call.abandons
    have hadd : ((w.queue.sem call.abandons).value + 1).toNat =
        (w.queue.sem call.abandons).value.toNat + 1 := by
      refine toNat_add_one fun heq => ?_
      rw [value, heq] at hlt
      exact absurd hlt (by decide)
    -- When the token is handed over, the semaphore has had it for a moment.
    obtain ⟨held₁, h₁⟩ := hreturned
      ⟨(w.queue.sem call.abandons).value + 1, (w.queue.sem call.abandons).pend⟩ rfl (.inl hadd)
  · cases hleave
    exact ⟨held₁, h₁⟩
  · split at hleave
    case h_2 => cases hleave
    case h_1 call' hwait =>
      cases hleave
      rw [← setSem_setSem _ _ ⟨(w.queue.sem call.abandons).value + 1,
        (w.queue.sem call.abandons).pend⟩]
      refine h₁.grant ?_ hwait ?_ ?_
      · change next ∈ ((w.setSem _ _).queue.sem _).pend
        rw [pend_setSem, if_pos rfl]
        exact hnext
      · change _ = (w.setSem _ _).value _
        rw [value_setSem, if_pos rfl, hadd]
        rfl
      · change _ = ((w.setSem _ _).queue.sem _).pend.filter _
        rw [pend_setSem, if_pos rfl]
        rfl

lemma Inv.step {op : DqOp} (hc : TakesToken w op) (hstep : step tickPerSecond w op = some w') :
    ∃ held', Inv live w' held' := by
  cases op with
  | call t call =>
    obtain ⟨hpc, hstep⟩ := ite_none_right_eq_some.mp hstep
    cases hstep
    exact h.enterCall hpc hc
  | expire t =>
    rw [DqWorld.step] at hstep
    split at hstep
    case h_1 call hpc =>
      cases hstep
      exact h.expire hpc (hc call hpc)
    case h_2 => cases hstep
  | enter t =>
    rw [DqWorld.step] at hstep
    split at hstep
    case h_1 call hpc =>
      cases hstep
      exact h.move hpc
    case h_2 => cases hstep
  | leave t next =>
    rw [DqWorld.step] at hstep
    split at hstep
    case h_1 call elem hpc => exact h.leave hpc hstep
    case h_2 => cases hstep

lemma Inv.exact_iff (hlive : ∀ s, live s = true) {op : DqOp}
    (hstep : DqWorld.step tickPerSecond w op = some w') : Exact w' ↔ TakesToken w op := by
  by_cases hc : TakesToken w op
  case pos =>
    obtain ⟨held', h'⟩ := h.step hc hstep
    exact iff_of_true (h'.exact hlive) hc
  case neg =>
    refine iff_of_false ?_ hc
    cases op with
    | call t call =>
      obtain ⟨hpc, hstep⟩ := ite_none_right_eq_some.mp hstep
      cases hstep
      have hskip : ¬ (call.timeout = DqCall.forever ∨ call.timeout = 0) := fun hor =>
        hc (hor.imp_left fun hforever => ⟨hforever, h.live_eq ▸ hlive _⟩)
      rw [DqWorld.enterCall, if_neg hskip]
      exact not_exact_of_skip h (by rw [hpc]; rfl) rfl rfl rfl rfl
    | expire t =>
      rw [DqWorld.step] at hstep
      split at hstep
      case h_1 call hpc =>
        cases hstep
        have hforever : call.timeout = DqCall.forever := by
          by_contra hne
          refine hc fun call' hpc' => ?_
          rw [hpc] at hpc'
          cases hpc'
          exact hne
        rw [DqWorld.refused, if_neg (by rw [hforever]; decide)]
        refine not_exact_of_skip h (t := t) (by rw [hpc]; rfl) rfl (funext fun s => ?_) rfl rfl
        change (w.setSem _ _).value s = _
        rw [value_setSem]
        split
        case isTrue hs =>
          rw [hs]
          rfl
        case isFalse => rfl
      case h_2 => cases hstep
    | enter t => exact absurd trivial hc
    | leave t next => exact absurd trivial hc

end

variable {nodeNumber : UInt16} {base : Option (Nat → DataElem)} {id : QueueSem → Int32}
  {queue : DataQueue}

lemma inv_start (h : initDataqueue nodeNumber base id = some queue) :
    Inv (fun s => decide (0 < id s)) (start queue) fun _ => 0 := by
  obtain ⟨base, -, h⟩ := bind_eq_some_iff.mp h
  obtain ⟨hne, h⟩ := ite_none_left_eq_some.mp h
  cases h
  have hpos : 0 < nodeNumber := UInt16.pos_iff_ne_zero.mpr fun hzero => hne (.inl hzero)
  have hsub := toNat_sub_one hpos
  have hlt : 0 < nodeNumber.toNat := by omega
  refine ⟨⟨fun t => rfl, nofun, ?_⟩, rfl, fun s => .zero fun t => rfl, ?_, Nat.zero_le _, ?_,
    ⟨hlt, hlt⟩, UInt16.toNat_lt _, fun s t ht => ?_, nofun⟩
  · rw [start, DataQueue.contents_eq_nil rfl]
    rfl
  · rw [start, DataQueue.contents_eq_nil rfl]
    exact hsub.le
  · exact fun _ => hsub
  · cases s <;> cases ht

/-- With the timeouts 0 and `WAITING_FOREVER`, and waits for ever that end with a token, all calls
that succeed transfer their element, in the order of their critical sections. -/
theorem delivers_of_takesToken (h : initDataqueue nodeNumber base id = some queue)
    (tickPerSecond : UInt32) (ops : List DqOp)
    (hops : Each (step tickPerSecond) TakesToken (start queue) ops) :
    Always (step tickPerSecond) Delivers (start queue) ops := by
  have hinv : Always (step tickPerSecond) (fun w => ∃ live held, Inv live w held) (start queue)
      ops := by
    refine always_of_each ?_ ⟨_, _, inv_start h⟩ hops
    rintro w op w' ⟨live, held, hi⟩ hc hstep
    exact ⟨live, hi.step hc hstep⟩
  refine hinv.mono ?_
  rintro w ⟨live, held, hi⟩
  exact hi.delivers

def sampleDataqueue : Option DataQueue := initDataqueue 2 (some fun _ => ⟨0, 0⟩) fun
  | .blank => 1
  | .data => 2

def sampleDqOps : List DqOp :=
  [.call 1 (.push ⟨4096, 8⟩ (-1)), .enter 1, .leave 1 0, .call 2 (.push ⟨8192, 4⟩ (-1)),
    .call 3 (.pop 0), .enter 3, .leave 3 2, .enter 2, .leave 2 0]

theorem delivers_of_takesToken_sample : ∃ queue, sampleDataqueue = some queue ∧
    (runs (step 100) (start queue) sampleDqOps).map (·.passed) =
      some [⟨1, .push ⟨4096, 8⟩ (-1), some ⟨4096, 8⟩⟩, ⟨3, .pop 0, some ⟨4096, 8⟩⟩,
        ⟨2, .push ⟨8192, 4⟩ (-1), some ⟨8192, 4⟩⟩] ∧
    Always (step 100) Delivers (start queue) sampleDqOps := by
  have hinit : sampleDataqueue = some _ := rfl
  exact ⟨_, hinit, by decide +kernel, delivers_of_takesToken hinit 100 _ (by decide)⟩

/-- Success means transfer and the semaphores add up, exactly as long as both semaphores are there
and every call takes a token: with another timeout, or a wait for ever that runs out, one of the
two fails at once. -/
theorem exact_iff_takesToken (h : initDataqueue nodeNumber base id = some queue)
    (tickPerSecond : UInt32) (ops : List DqOp) :
    Always (step tickPerSecond) Exact (start queue) ops ↔
      (∀ s, 0 < id s) ∧ Each (step tickPerSecond) TakesToken (start queue) ops := by
  have hstart := inv_start h
  by_cases hid : ∀ s, 0 < id s
  · have hlive : ∀ s, decide (0 < id s) = true := by simpa using hid
    rw [and_iff_right hid]
    refine always_iff_each_of_keeps (I := fun w => ∃ held, Inv _ w held) ?_ ?_ ⟨_, hstart⟩
      (hstart.exact hlive)
    · rintro w op w' ⟨held, hi⟩ hstep
      exact hi.exact_iff hlive hstep
    · rintro w op w' ⟨held, hi⟩ hc hstep
      exact hi.step hc hstep
  · refine iff_of_false (fun hall => hid fun s => ?_) fun hc => hid hc.1
    have hcreated := hall.head.created s
    rw [hstart.live_eq] at hcreated
    exact of_decide_eq_true hcreated

theorem exact_iff_takesToken_sample : ∃ queue, sampleDataqueue = some queue ∧
    Always (step 100) Exact (start queue) sampleDqOps := by
  have hinit : sampleDataqueue = some _ := rfl
  refine ⟨_, hinit, (exact_iff_takesToken hinit 100 _).mpr ⟨fun s => ?_, by decide⟩⟩
  cases s <;> decide

theorem push_without_token : ∃ queue w, sampleDataqueue = some queue ∧
    runs (step 100) (start queue) [.call 1 (.push ⟨4096, 8⟩ 1), .enter 1, .leave 1 0,
      .call 1 (.push ⟨8192, 4⟩ 1), .enter 1, .leave 1 0] = some w ∧
    w.returns = [⟨⟨1, .push ⟨4096, 8⟩ 1, some ⟨4096, 8⟩⟩, eok⟩,
      ⟨⟨1, .push ⟨8192, 4⟩ 1, none⟩, eok⟩] ∧
    w.queue.contents = [⟨4096, 8⟩] ∧ w.value .blank = 1 ∧ w.value .data = 2 ∧ ¬ Exact w := by
  refine ⟨_, _, rfl, rfl, by decide, by decide, by decide, by decide, fun h => ?_⟩
  obtain ⟨e, he, -⟩ := h.moves ⟨1, .push ⟨8192, 4⟩ 1, none⟩ (by decide)
  cases he

end DqWorld
end Xiuos.Kernel
