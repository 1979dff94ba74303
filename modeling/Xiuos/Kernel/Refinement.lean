import Xiuos.Kernel.EventCount
import Xiuos.Kernel.MsgQueueLaws
import Xiuos.Kernel.MutexRestore
import Xiuos.Kernel.SemaphoreLaws

/-! Whole runs of the kernel with its objects, over pointers and over lists. -/

namespace Xiuos.Kernel
open Lib

/-- On every run from `w` the kernel over pointers returns exactly where the kernel over lists does,
and then stands for the same lists, tasks and objects. -/
def Refines {ο ι : Type}
    (step : ∀ {κ : Type}, Sched κ → World κ ο → WorldOp ι → Option (World κ ο)) (cfg : Config)
    (w : World State ο) : Prop :=
  ∃ a, WorldSim w a ∧ (∀ k, a.kernel.pend k = []) ∧ ∀ ops,
    Follows (fun fuel => runs (step (stateSched cfg fuel)) w ops)
      (runs (step (viewSched cfg)) a ops) WorldSim

lemma World.Fresh.refines {ο ι : Type}
    (step : ∀ {κ : Type}, Sched κ → World κ ο → WorldOp ι → Option (World κ ο)) {cfg : Config}
    (hstep : ∀ {w a} op, WorldSim w a →
      Follows (fun fuel => step (stateSched cfg fuel) w op) (step (viewSched cfg) a op) WorldSim)
    {w : World State ο} (hw : w.Fresh) : Refines step cfg w := by
  obtain ⟨a, hs, -, hpend⟩ := hw.inv
  exact ⟨a, hs, hpend, Follows.runs hstep hs⟩

variable (cfg : Config)

theorem mutexRuns_refine {w : World State Mutexes} (hw : w.Fresh) : Refines mutexStep cfg w :=
  World.Fresh.refines mutexStep (fun op hs => hs.mutexStep op) hw

theorem mutexRuns_refine_sample : Refines mutexStep sampleConfig sampleMutexes :=
  mutexRuns_refine sampleConfig (sampleWorld_fresh _)

theorem semRuns_refine {w : World State Semaphores} (hw : w.Fresh) : Refines semStep cfg w :=
  World.Fresh.refines semStep (fun op hs => hs.semStep op) hw

theorem semRuns_refine_sample : Refines semStep sampleConfig (sampleWorld (sampleSemaphores 1)) :=
  semRuns_refine sampleConfig (sampleWorld_fresh _)

theorem eventRuns_refine {w : World State Events} (hw : w.Fresh) : Refines eventStep cfg w :=
  World.Fresh.refines eventStep (fun op hs => hs.eventStep op) hw

theorem eventRuns_refine_sample : Refines eventStep sampleConfig (sampleEvents 1) :=
  eventRuns_refine sampleConfig (sampleWorld_fresh _)

theorem mqRuns_refine {w : World State MsgQueues} (hw : w.Fresh) : Refines mqStep cfg w :=
  World.Fresh.refines mqStep (fun op hs => hs.mqStep op) hw

theorem mqRuns_refine_sample : Refines mqStep sampleConfig (sampleQueues 0) :=
  mqRuns_refine sampleConfig (sampleWorld_fresh _)

end Xiuos.Kernel
