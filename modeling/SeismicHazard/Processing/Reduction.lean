/-!
# Reduction — many tasks, one result

Tasks are run and their results merged into one.  A `Reduction` is the tree along which that happens: its leaves are the
tasks and neutral values, its nodes are merges.  The trees of this module hold every task of a list exactly once
(`tasks_sequential`, `tasks_balanced`).
-/
namespace SeismicHazard

/-- A tree of merges over tasks. -/
inductive Reduction (α : Type) where
  | unit
  | task (a : α)
  | merge (left right : Reduction α)
  deriving Repr

namespace Reduction

variable {α β ε : Type}

def tasks : Reduction α → List α
  | unit => []
  | task a => [a]
  | merge l r => l.tasks ++ r.tasks

/-- **The result of a reduction**, or what went wrong with the leftmost task that failed. -/
def run (neutral : β) (join : β → β → β) (f : α → Except ε β) : Reduction α → Except ε β
  | unit => .ok neutral
  | task a => f a
  | merge l r => do return join (← l.run neutral join f) (← r.run neutral join f)

def sequential (l : List α) : Reduction α := l.foldl (fun t a => merge t (task a)) unit

/-- The tree that halves the tasks a number of times and then merges them one after the other. -/
def balanced : Nat → List α → Reduction α
  | 0, l => sequential l
  | n + 1, l =>
    if l.length ≤ 1 then sequential l
    else merge (balanced n (l.take (l.length / 2))) (balanced n (l.drop (l.length / 2)))

theorem tasks_foldl_merge (l : List α) (t : Reduction α) :
    (l.foldl (fun t a => merge t (task a)) t).tasks = t.tasks ++ l := by
  induction l generalizing t with
  | nil => simp
  | cons a l ih => simp [ih, tasks]

@[simp] theorem tasks_sequential (l : List α) : (sequential l).tasks = l := by
  simp [sequential, tasks_foldl_merge, tasks]

@[simp] theorem tasks_balanced (n : Nat) (l : List α) : (balanced n l).tasks = l := by
  induction n generalizing l with
  | zero => exact tasks_sequential l
  | succ n ih =>
    simp only [balanced]
    split
    · exact tasks_sequential l
    · simp [tasks, ih, List.take_append_drop]

end Reduction

end SeismicHazard
