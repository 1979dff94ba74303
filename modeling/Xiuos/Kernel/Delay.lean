import Xiuos.Kernel.Sched
import Xiuos.Lib.Sorted

/-! `delay.c`: the list of delays, and the check at every tick. -/

namespace Xiuos.Kernel
open Lib Function List

def tickHalf : UInt32 := 0x7fffffff

def reached (currentTick deadline : UInt32) : Bool := currentTick - deadline < tickHalf

def DelayRing (links : Links (Head ⊕ Node)) (ts : List Nat) : Prop :=
  ∃ lists, Rings links lists ∧ lists .delay = ts.map .delay

section

variable {cfg : Config} {s : State} {v : View} {lists : Head → List Node} {ts : List Nat}
  {t k : Nat}

lemma delay_injective : Injective Node.delay := fun _ _ h => by
  cases h
  rfl

lemma DelayRing.nodup (h : DelayRing s.links ts) : ts.Nodup := by
  obtain ⟨lists, hr, hts⟩ := h
  have hnodup := hr.nodup .delay
  rw [hts] at hnodup
  exact hnodup.of_map _

lemma DelayRing.next (h : DelayRing s.links ts) :
    s.links.next (.inl .delay) = Links.entry (.inl .delay) (ts.map (.inr ∘ .delay)) := by
  obtain ⟨lists, hr, hts⟩ := h
  rw [(hr.seg _).next_eq, hts, map_map]

end

def Task.deadline (task : Task) : UInt32 :=
  match task.delay with
  | some d => d.ticks
  | none => 0

def Task.Armed (task : Task) : Prop := ∃ ticks, task.delay = some ⟨ticks, true⟩

end Xiuos.Kernel
