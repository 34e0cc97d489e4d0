import SeismicHazard.Processing.Progress
import SeismicHazard.Processing.Reduction
/-!
# Task managers — ways to run many tasks

A `TaskManager` plans a tree of merges for any list of tasks.  It may reorder the tasks and bracket the merges as it
likes, but every task occurs in the tree exactly once.  It also tells how far the work gets when tasks fail; when none
fails, it completes them all.
-/
namespace SeismicHazard

/-- A way to run many tasks. -/
structure TaskManager where
  plan : {α : Type} → List α → Reduction α
  complete : ∀ {α : Type} (l : List α), (plan l).tasks.Perm l
  /-- How far the work gets, given which failures halt it. -/
  progress : {α β ε : Type} → (ε → Bool) → (α → Except ε β) → List α → Progress β ε
  progress_of_ok : ∀ {α β ε : Type} (halts : ε → Bool) (f : α → Except ε β) (g : α → β) (l : List α),
    (∀ a ∈ l, f a = .ok (g a)) → (progress halts f l).done.Perm (l.map g)

namespace TaskManager

variable {α β ε : Type}

def sequential : TaskManager where
  plan := Reduction.sequential
  complete l := by simp
  progress _ := Progress.inTurn
  progress_of_ok _ f g l h := by simp [Progress.inTurn_of_ok f g l h]

def threaded (threads : Nat) : TaskManager where
  plan := Reduction.balanced (Nat.log2 threads + 1)
  complete l := by simp
  progress := Progress.sharedOut threads
  progress_of_ok halts f g l h := by simp [Progress.sharedOut_of_ok threads halts f g l h]

def mapReduce (m : TaskManager) (neutral : β) (join : β → β → β) (f : α → Except ε β) (l : List α) : Except ε β :=
  (m.plan l).run neutral join f

end TaskManager

end SeismicHazard
