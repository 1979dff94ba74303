import Xiuos.Kernel.Sched

/-! Calls that wait: where the task is while it is inside of one, and what its status says when it
goes on. -/

namespace Xiuos.Kernel
open Lib Function View

abbrev Call := Nat × Bool

def CallOk (task : Task) (waits : Nat → Prop) : Option Call → Prop
  | none => ∀ k, ¬ waits k
  | some (m, false) => (waits m ∧ task.exstatus = eok) ∨
      ((∀ k, ¬ waits k) ∧ Active task ∧ task.exstatus = -etimeout)
  | some (_, true) => (∀ k, ¬ waits k) ∧ Active task ∧ task.exstatus = eok

section
variable {task task' : Task} {waits waits' : Nat → Prop} {call : Option Call}

lemma CallOk.congr (h : CallOk task waits call) (hwaits : ∀ k, waits' k ↔ waits k)
    (hactive : call ≠ none → Active task → Active task')
    (hex : call ≠ none → task'.exstatus = task.exstatus) : CallOk task' waits' call := by
  match call with
  | none => exact fun k hk => h k ((hwaits k).mp hk)
  | some (m, false) =>
    have hex := hex (by simp)
    obtain ⟨hm, he⟩ | ⟨hn, hact, he⟩ := h
    · exact .inl ⟨(hwaits m).mpr hm, hex.trans he⟩
    · exact .inr ⟨fun k hk => hn k ((hwaits k).mp hk), hactive (by simp) hact, hex.trans he⟩
  | some (m, true) =>
    obtain ⟨hn, hact, he⟩ := h
    exact ⟨fun k hk => hn k ((hwaits k).mp hk), hactive (by simp) hact, (hex (by simp)).trans he⟩

lemma CallOk.expire (h : CallOk task waits call) (hs : task.stat = .suspend)
    (hwaits : ∀ k, ¬ waits' k) (hready : task'.stat = .ready) (hex : task'.exstatus = -etimeout) :
    CallOk task' waits' call := by
  match call with
  | none => exact hwaits
  | some (m, false) => exact .inr ⟨hwaits, .inl hready, hex⟩
  | some (m, true) =>
    obtain ⟨-, hact, -⟩ := h
    simp [Active, hs] at hact

end

def CallsOk (v : View) (call : Nat → Option Call) : Prop :=
  ∀ t, CallOk (v.task t) (fun k => t ∈ v.pend k) (call t)

namespace CallsOk

variable {cfg : Config} {s : State} {v v' : View} {call : Nat → Option Call} {t k : Nat}
  (hc : CallsOk v call)
include hc

lemma congr (hpend : v'.pend = v.pend) (hstat : ∀ u, (v'.task u).stat = (v.task u).stat)
    (hex : ∀ u, call u ≠ none → (v'.task u).exstatus = (v.task u).exstatus) : CallsOk v' call := by
  intro u
  refine (hc u).congr (fun k => by rw [hpend]) (fun _ hact => ?_) (hex u)
  rw [Active, hstat]
  exact hact

section
variable (hs : Sim s v)
include hs

lemma of_mem (ht : t ∈ v.pend k) : call t = some (k, false) ∧ (v.task t).exstatus = eok := by
  have hct := hc t
  match hcall : call t with
  | none =>
    rw [hcall] at hct
    exact absurd ht (hct k)
  | some (k', false) =>
    rw [hcall] at hct
    obtain ⟨hk', he⟩ | ⟨hn, -⟩ := hct
    · rw [hs.unique ht hk']
      exact ⟨rfl, he⟩
    · exact absurd ht (hn k)
  | some (k', true) =>
    rw [hcall] at hct
    exact absurd ht (hct.1 k)

lemma waiting_iff : (call t = some (k, false) ∧ (v.task t).stat = .suspend) ↔ t ∈ v.pend k := by
  constructor
  · rintro ⟨hcall, hstat⟩
    have hct := hc t
    rw [hcall] at hct
    obtain ⟨hm, -⟩ | ⟨-, hact, -⟩ := hct
    · exact hm
    · simp [Active, hstat] at hact
  · intro hm
    exact ⟨(hc.of_mem hs hm).1, hs.waits k t hm⟩

lemma result {resumed : Bool} (hact : Active (v.task t)) (hcall : call t = some (k, resumed)) :
    (v.task t).exstatus = if resumed then eok else -etimeout := by
  have hct := hc t
  rw [hcall] at hct
  cases resumed with
  | true => exact hct.2.2
  | false =>
    obtain ⟨hm, -⟩ | ⟨-, -, he⟩ := hct
    · exact absurd hm (hs.waits.not_mem hact k)
    · exact he

lemma step {op : KernelOp} (hstep : (viewSched cfg).step v op = some v')
    (hdelay : ∀ now ticks alloc, op = .delay now ticks alloc →
      ∃ t, (viewSched cfg).caller v = some t ∧ call t = none)
    : CallsOk v' call := by
  intro u
  have hu := hc u
  obtain t | ⟨t, hready⟩ | t | ⟨now, ticks, alloc, t, ht⟩ := step_cases hstep
  · refine hu.congr (fun k => by simp) ?_ fun _ => start_exstatus _ _ _ _
    rintro - (h | h) <;> simp [Active, start_stat, h]
  · refine hu.congr (fun k => by simp) ?_ fun _ => by simp
    rintro - (h | h)
    · by_cases he : u = t <;> simp [Active, dispatch_stat, h, he]
    · by_cases he : u = t
      · simp [Active, dispatch_stat, he]
      · by_cases hcur : v.current = some u <;> simp [Active, dispatch_stat, h, he, hcur]
  · by_cases he : u = t ∧ (v.task u).stat = .suspend
    · obtain ⟨rfl, hsus⟩ := he
      refine hu.expire hsus (fun k hk => ?_) ?_ ?_
      · rw [expire_pend _ _ _ hs.waits] at hk
        exact ((hs.nodup k).mem_erase_iff.mp hk).1 rfl
      · simp [expire_stat, hsus]
      · simp [expire_exstatus, hsus]
    · refine hu.congr (fun k => ?_) ?_ fun _ => ?_
      · rw [expire_pend _ _ _ hs.waits, (hs.nodup k).mem_erase_iff]
        refine ⟨fun h => h.2, fun h => ⟨fun hut => he ⟨hut, ?_⟩, h⟩⟩
        exact hs.waits k u h
      · intro _ h
        simpa [Active, expire_stat, he] using h
      · simp [expire_exstatus, he]
  · split
    · exact hu
    · obtain ⟨t', ht', hcall⟩ := hdelay _ _ _ rfl
      rw [ht] at ht'
      cases ht'
      refine hu.congr (fun k => ?_) (fun hne h => ?_) fun _ => by simp
      · by_cases hk : k = 0 <;> simp [suspend_pend, enqueue, hk]
      · have hut : u ≠ t := fun he => hne (he ▸ hcall)
        simpa [Active, suspend_stat, hut] using h

end

lemma setExstatus (ht : call t = none) (exstatus : Int) :
    CallsOk (v.setExstatus t exstatus) call := by
  refine hc.congr rfl (by simp) fun u hne => ?_
  rw [setExstatus_exstatus, if_neg]
  rintro rfl
  exact hne ht

lemma suspend (k : Nat) {flag : LinklistFlag} (hflag : flag ≠ .other)
    (hex : (v.task t).exstatus = eok) :
    CallsOk (v.suspend k t flag) (update call t (some (k, false))) := by
  intro u
  by_cases hu : u = t
  · subst hu
    rw [update_self]
    refine .inl ⟨?_, ?_⟩
    · simp [suspend_pend, mem_enqueue hflag]
    · simpa using hex
  · rw [update_of_ne hu]
    refine (hc u).congr (fun j => ?_) (fun _ h => ?_) fun _ => by simp
    · by_cases hj : j = k
      · subst hj
        simp [suspend_pend, mem_enqueue hflag, hu]
      · simp [suspend_pend, hj]
    · simpa [Active, suspend_stat, hu] using h

lemma begin (ht : call t = none) (k : Nat) :
    CallsOk ((v.setExstatus t eok).suspend k t .prio) (update call t (some (k, false))) :=
  (hc.setExstatus ht eok).suspend k (by decide) (by simp [setExstatus_exstatus])

lemma release (k : Nat) (hnodup : ∀ k, (v.pend k).Nodup) (hex : (v.task t).exstatus = eok) :
    CallsOk (v.release t (v.task t).exstatus) (update call t (some (k, true))) := by
  intro u
  by_cases hu : u = t
  · subst hu
    rw [update_self]
    refine ⟨fun j hj => ?_, .inl ?_, ?_⟩
    · simp only [release_pend] at hj
      exact ((hnodup j).mem_erase_iff.mp hj).1 rfl
    · simp [release_stat]
    · simpa [release_exstatus] using hex
  · rw [update_of_ne hu]
    refine (hc u).congr (fun j => ?_) (fun _ h => ?_) fun _ => ?_
    · rw [release_pend, (hnodup j).mem_erase_iff]
      exact and_iff_right hu
    · simpa [Active, release_stat, hu] using h
    · simp [release_exstatus, hu]

lemma finish (hs : Sim s v) (hact : Active (v.task t)) : CallsOk v (update call t none) := by
  intro u
  by_cases hu : u = t
  · subst hu
    rw [update_self]
    exact hs.waits.not_mem hact
  · rw [update_of_ne hu]
    exact hc u

end CallsOk
end Xiuos.Kernel
