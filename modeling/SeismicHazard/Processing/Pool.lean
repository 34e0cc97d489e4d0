import SeismicHazard.Processing.TaskManager
import SeismicHazard.Settings.Basic
/-!
# Worker pools

A pool runs batches of tasks on a number of threads and counts what it was given.
-/
namespace SeismicHazard

structure PoolStats where
  batches : Nat := 0
  tasks : Nat := 0
  failures : Nat := 0
  deriving DecidableEq, Repr, Inhabited

def PoolStats.add (s : PoolStats) (tasks : Nat) (failed : Bool) : PoolStats :=
  ⟨s.batches + 1, s.tasks + tasks, s.failures + failed.toNat⟩

structure WorkerPool where
  threads : Nat
  stats : PoolStats := {}
  deriving DecidableEq, Repr, Inhabited

namespace WorkerPool

def ofSettings (s : ProcessingSettings) : WorkerPool := { threads := s.workers.toNat }

def manager (p : WorkerPool) : TaskManager := .threaded p.threads

def mapReduce {α β ε : Type} (p : WorkerPool) (neutral : β) (join : β → β → β) (f : α → Except ε β) (l : List α) :
    WorkerPool × Except ε β :=
  let result := p.manager.mapReduce neutral join f l
  ({ p with stats := p.stats.add l.length (!result.toBool) }, result)

def diagnosticText (p : WorkerPool) : String := s!"RayonTaskManager \x7b threads: {p.threads} \x7d"

end WorkerPool

end SeismicHazard
