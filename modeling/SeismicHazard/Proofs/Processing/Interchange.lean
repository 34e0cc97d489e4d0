import SeismicHazard.Processing.Pool
import SeismicHazard.Proofs.Processing.Merging
import Mathlib.Data.List.Perm.Basic
/-!
# Interchange — a pool answers as a sequential run does

Workers take the shares of a batch side by side.  Which results meet in a merge is open, and once a task has failed the
shares next to it need not be run: all that is known of the answer is that some tree with every task settles on it
(`MayAnswer`).  If the merges form a commutative monoid, the value of a tree is the fold over its tasks (`value_eq_foldl`)
and does not depend on the tree (`value_perm`), so the answer is the one of a run from left to right.
-/
namespace SeismicHazard

variable {α β ε : Type} {neutral : β} {join : β → β → β}

namespace Reduction

/-! ## The value of a tree -/

/-- **The value of a tree is the fold over its tasks**, whatever its brackets and neutral leaves. -/
theorem value_eq_foldl [Std.Associative join] [Std.LawfulIdentity join neutral] (g : α → β) : ∀ t : Reduction α,
    t.value neutral join g = (t.tasks.map g).foldl join neutral
  | unit => rfl
  | task a => (Std.LawfulLeftIdentity.left_id (g a)).symm
  | merge l r => by
    rw [value, tasks, List.map_append, List.foldl_append, value_eq_foldl g l, value_eq_foldl g r]
    generalize (l.tasks.map g).foldl join neutral = b
    calc join b ((r.tasks.map g).foldl join neutral)
        = (r.tasks.map g).foldl join (join b neutral) := List.foldl_assoc.symm
      _ = (r.tasks.map g).foldl join b := congrArg (List.foldl join · _) (Std.LawfulRightIdentity.right_id b)

theorem value_perm [Std.Associative join] [Std.Commutative join] [Std.LawfulIdentity join neutral] (g : α → β)
    {t t' : Reduction α} (h : t.tasks.Perm t'.tasks) : t.value neutral join g = t'.value neutral join g := by
  rw [value_eq_foldl, value_eq_foldl]
  exact (h.map g).foldl_op_eq

end Reduction

namespace TaskManager

/-! ## Answers -/

/-- What workers may answer to tasks: what some tree that holds each task once settles on. -/
def MayAnswer (neutral : β) (join : β → β → β) (f : α → Except ε β) (tasks : List α) (answer : Except ε β) : Prop :=
  ∃ t : Reduction α, t.tasks.Perm tasks ∧ t.Settles neutral join f answer

theorem mayAnswer_mapReduce (m : TaskManager) (neutral : β) (join : β → β → β) (f : α → Except ε β) (tasks : List α) :
    MayAnswer neutral join f tasks (m.mapReduce neutral join f tasks) :=
  ⟨m.plan tasks, m.complete tasks, Reduction.settles_run _⟩

theorem MayAnswer.isOk_iff {f : α → Except ε β} {tasks : List α} {answer : Except ε β}
    (h : MayAnswer neutral join f tasks answer) : answer.isOk = true ↔ ∀ a ∈ tasks, (f a).isOk = true := by
  obtain ⟨t, complete, settles⟩ := h
  refine ⟨fun ok a ha => settles.isOk_tasks ok a (complete.mem_iff.2 ha), fun ok => ?_⟩
  cases answer with
  | ok b => rfl
  | error e =>
    obtain ⟨a, ha, hfails⟩ := settles.exists_failing rfl
    have hok := ok a (complete.mem_iff.1 ha)
    rw [hfails] at hok
    cases hok

theorem MayAnswer.unique [Std.Associative join] [Std.Commutative join] [Std.LawfulIdentity join neutral]
    {f : α → Except ε β} {tasks : List α} {b c : β} (hb : MayAnswer neutral join f tasks (.ok b))
    (hc : MayAnswer neutral join f tasks (.ok c)) : b = c := by
  have ok := hb.isOk_iff.1 rfl
  obtain ⟨t, complete, settles⟩ := hb
  obtain ⟨t', complete', settles'⟩ := hc
  -- the values of the tasks, and anything for what is no task
  let g : α → β := fun a => (f a).toOption.getD neutral
  have succeeds : ∀ a ∈ tasks, f a = .ok (g a) := fun a ha => by
    obtain ⟨d, hd⟩ := Outcome.isOk_iff.1 (ok a ha)
    simp only [g, hd]
    rfl
  have hvalue := settles.eq_value fun a ha => succeeds a (complete.mem_iff.1 ha)
  have hvalue' := settles'.eq_value fun a ha => succeeds a (complete'.mem_iff.1 ha)
  cases hvalue
  cases hvalue'
  exact Reduction.value_perm g (complete.trans complete'.symm)

/-- **Task managers are interchangeable.**  If merges may be bracketed and swapped at will and the neutral value makes no
difference, workers answer with a value exactly if tasks that are run one after the other do, which is if no task
fails, and with the same one; else they answer with the failure of one of the tasks.  A pool is such a manager. -/
theorem managers_interchangeable (neutral : β) (join : β → β → β) [Std.Associative join] [Std.Commutative join]
    [Std.LawfulIdentity join neutral] (f : α → Except ε β) (tasks : List α) :
    (∀ p : WorkerPool, MayAnswer neutral join f tasks (p.mapReduce neutral join f tasks).2) ∧
    ∀ answer, MayAnswer neutral join f tasks answer →
      (answer.isOk = true ↔ (sequential.mapReduce neutral join f tasks).isOk = true) ∧
      (answer.isOk = true ↔ ∀ a ∈ tasks, (f a).isOk = true) ∧
      (∀ b, answer = .ok b → sequential.mapReduce neutral join f tasks = .ok b) ∧
      ∀ e, answer = .error e → ∃ a ∈ tasks, f a = .error e := by
  have hsequential := sequential.mayAnswer_mapReduce neutral join f tasks
  refine ⟨fun p => p.manager.mayAnswer_mapReduce neutral join f tasks, fun answer h => ⟨?_, h.isOk_iff, ?_, ?_⟩⟩
  · rw [h.isOk_iff, hsequential.isOk_iff]
  · rintro b rfl
    obtain ⟨c, hc⟩ := Outcome.isOk_iff.1 (hsequential.isOk_iff.2 (h.isOk_iff.1 rfl))
    rw [hc] at hsequential ⊢
    rw [h.unique hsequential]
  · rintro e rfl
    obtain ⟨t, complete, settles⟩ := h
    obtain ⟨a, ha, hfails⟩ := settles.exists_failing rfl
    exact ⟨a, complete.mem_iff.1 ha, hfails⟩

def doubled (n : Nat) : Except String Nat := if n < 7 then .ok (2 * n) else .error s!"no {n}"

/-- Tasks that succeed, merged backwards and with a neutral value between them; and tasks of which two fail, where the
second one comes first. -/
theorem managers_interchangeable_backwards :
    MayAnswer 0 (· + ·) doubled [1, 2, 3] (.ok 12) ∧
      sequential.mapReduce 0 (· + ·) doubled [1, 2, 3] = .ok 12 ∧
      MayAnswer 0 (· + ·) doubled [8, 1, 9] (.error "no 9") ∧
      (sequential.mapReduce 0 (· + ·) doubled [8, 1, 9]).isOk = false ∧ ∃ a ∈ [8, 1, 9], doubled a = .error "no 9" := by
  have all : MayAnswer 0 (· + ·) doubled [1, 2, 3] (.ok 12) :=
    ⟨.merge (.task 3) (.merge .unit (.merge (.task 2) (.task 1))), List.reverse_perm [1, 2, 3],
      .merge (b := 6) (c := 6) (.task 3) (.merge (b := 0) (c := 6) .unit (.merge (b := 4) (c := 2) (.task 2) (.task 1)))⟩
  have last : MayAnswer 0 (· + ·) doubled [8, 1, 9] (.error "no 9") :=
    ⟨.merge (.merge (.task 8) (.task 1)) (.task 9), List.Perm.refl _, .failedRight (.task 9)⟩
  obtain ⟨-, hall⟩ := managers_interchangeable 0 (fun b c : Nat => b + c) doubled [1, 2, 3]
  obtain ⟨-, hlast⟩ := managers_interchangeable 0 (fun b c : Nat => b + c) doubled [8, 1, 9]
  obtain ⟨-, -, hvalue, -⟩ := hall _ all
  obtain ⟨hok, -, -, hfailing⟩ := hlast _ last
  exact ⟨all, hvalue 12 rfl, last, Bool.eq_false_iff.2 fun h => Bool.false_ne_true (hok.2 h), hfailing _ rfl⟩

end TaskManager
end SeismicHazard
