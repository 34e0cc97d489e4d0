import SeismicHazard.Processing.Reduction
import SeismicHazard.Processing.SplitResult
import SeismicHazard.Proofs.Outcome
/-!
# Merging — what is in the result of a reduction

When the sides of a merge are run next to each other, a tree settles on a value only if all of its tasks succeed, and
that is the value of the tree (`Settles.eq_value`); on a failure, only if that is the failure of one of its tasks
(`Settles.exists_failing`).  A run from left to right is one way to settle a tree (`settles_run`).  When split results
are merged, the sub-sources of a group are joined (`sourcesOf_merge`), so those of a whole tree are those of its tasks
from left to right (`sourcesOf_value`), and so are its records: nothing is lost and nothing is doubled.
-/
namespace SeismicHazard

variable {α β ε : Type} {neutral : β} {join : β → β → β}

namespace Reduction

def value (neutral : β) (join : β → β → β) (f : α → β) : Reduction α → β
  | unit => neutral
  | task a => f a
  | merge l r => join (l.value neutral join f) (r.value neutral join f)

/-! ## What a tree settles on -/

/-- What a tree of merges may come to when its sides are run next to each other.  Both sides of a merge are waited for
as long as they succeed; the failure of either one is passed on, whatever has become of the other. -/
inductive Settles (neutral : β) (join : β → β → β) (f : α → Except ε β) : Reduction α → Except ε β → Prop where
  | unit : Settles neutral join f unit (.ok neutral)
  | task (a : α) : Settles neutral join f (task a) (f a)
  | merge {l r : Reduction α} {b c : β} (left : Settles neutral join f l (.ok b))
    (right : Settles neutral join f r (.ok c)) : Settles neutral join f (merge l r) (.ok (join b c))
  | failedLeft {l r : Reduction α} {e : ε} (left : Settles neutral join f l (.error e)) :
    Settles neutral join f (merge l r) (.error e)
  | failedRight {l r : Reduction α} {e : ε} (right : Settles neutral join f r (.error e)) :
    Settles neutral join f (merge l r) (.error e)

variable {f : α → Except ε β}

theorem settles_run : ∀ t : Reduction α, t.Settles neutral join f (t.run neutral join f)
  | unit => .unit
  | task a => .task a
  | merge l r => by
    have hl := settles_run l
    have hr := settles_run r
    rw [run]
    cases hrun : l.run neutral join f with
    | error e => exact .failedLeft (hrun ▸ hl)
    | ok b =>
      cases hrun' : r.run neutral join f with
      | error e => exact .failedRight (hrun' ▸ hr)
      | ok c => exact .merge (hrun ▸ hl) (hrun' ▸ hr)

theorem Settles.eq_value {t : Reduction α} {answer : Except ε β} (h : t.Settles neutral join f answer) {g : α → β}
    (succeeds : ∀ a ∈ t.tasks, f a = .ok (g a)) : answer = .ok (t.value neutral join g) := by
  induction h with
  | unit => rfl
  | task a => exact succeeds a (List.mem_singleton_self a)
  | merge _ _ ihl ihr =>
    cases ihl fun a ha => succeeds a (List.mem_append_left _ ha)
    cases ihr fun a ha => succeeds a (List.mem_append_right _ ha)
    rfl
  | failedLeft _ ih => cases ih fun a ha => succeeds a (List.mem_append_left _ ha)
  | failedRight _ ih => cases ih fun a ha => succeeds a (List.mem_append_right _ ha)

theorem Settles.exists_failing {t : Reduction α} {answer : Except ε β} (h : t.Settles neutral join f answer) {e : ε}
    (failed : answer = .error e) : ∃ a ∈ t.tasks, f a = .error e := by
  induction h with
  | unit => cases failed
  | task a => exact ⟨a, List.mem_singleton_self a, failed⟩
  | merge _ _ _ _ => cases failed
  | failedLeft _ ih =>
    obtain ⟨a, ha, hfails⟩ := ih failed
    exact ⟨a, List.mem_append_left _ ha, hfails⟩
  | failedRight _ ih =>
    obtain ⟨a, ha, hfails⟩ := ih failed
    exact ⟨a, List.mem_append_right _ ha, hfails⟩

theorem Settles.isOk_tasks {t : Reduction α} {answer : Except ε β} (h : t.Settles neutral join f answer)
    (ok : answer.isOk = true) : ∀ a ∈ t.tasks, (f a).isOk = true := by
  induction h with
  | unit => exact fun a ha => absurd ha List.not_mem_nil
  | task a => exact fun a' ha => List.mem_singleton.1 ha ▸ ok
  | merge _ _ ihl ihr =>
    intro a ha
    rcases List.mem_append.1 ha with ha | ha
    · exact ihl rfl a ha
    · exact ihr rfl a ha
  | failedLeft _ _ => cases ok
  | failedRight _ _ => cases ok

/-! ## From left to right -/

theorem run_of_ok (neutral : β) (join : β → β → β) {f : α → Except ε β} {g : α → β} (t : Reduction α)
    (h : ∀ a ∈ t.tasks, f a = .ok (g a)) : t.run neutral join f = .ok (t.value neutral join g) :=
  (settles_run t).eq_value h

theorem isOk_of_run {t : Reduction α} {b : β} (h : t.run neutral join f = .ok b) :
    ∀ a ∈ t.tasks, (f a).isOk = true :=
  (settles_run t).isOk_tasks (Outcome.isOk_iff.2 ⟨b, h⟩)

end Reduction

namespace SplitResult

variable {S : Type}

/-! ## Sub-sources by group -/

theorem get?_addTo (m : SortedMap GroupId (List S)) (e : GroupId × List S) (g : GroupId) :
    (addTo m e).get? g = if g = e.1 then some ((m.get? e.1).getD [] ++ e.2) else m.get? g := by
  rw [addTo, SortedMap.get?_update]
  simp

theorem get?_foldl_addTo (g : GroupId) : ∀ {entries : List (GroupId × List S)} (m : SortedMap GroupId (List S)),
    entries.Pairwise (fun a b => compare a.1 b.1 = .lt) →
    (entries.foldl addTo m).get? g = (m.get? g).merge (· ++ ·) (SortedMap.lookupIn g entries)
  | [], m, _ => by simp [SortedMap.lookupIn]
  | e :: entries, m, h => by
    rw [List.foldl_cons, get?_foldl_addTo g _ (List.pairwise_cons.1 h).2, get?_addTo, SortedMap.lookupIn]
    by_cases hg : g = e.1
    · subst hg
      rw [if_pos rfl, SortedMap.lookupIn_behind h, if_pos Std.ReflCmp.compare_self]
      cases m.get? e.1 <;> rfl
    · rw [if_neg hg, if_neg fun heq => hg (Std.LawfulEqCmp.eq_of_compare heq)]

/-- **Merging joins what is stored for a group**, where both results store something. -/
theorem get?_merge (a b : SplitResult S) (g : GroupId) :
    (a.merge b).byGroup.get? g = (a.byGroup.get? g).merge (· ++ ·) (b.byGroup.get? g) :=
  get?_foldl_addTo g a.byGroup b.byGroup.increasing

theorem sourcesOf_merge (a b : SplitResult S) (g : GroupId) :
    (a.merge b).sourcesOf g = a.sourcesOf g ++ b.sourcesOf g := by
  unfold sourcesOf
  rw [get?_merge]
  cases a.byGroup.get? g <;> cases b.byGroup.get? g <;> simp

theorem sourcesOf_value (f : α → SplitResult S) (g : GroupId) : ∀ t : Reduction α,
    (t.value empty merge f).sourcesOf g = t.tasks.flatMap (fun a => (f a).sourcesOf g)
  | .unit => rfl
  | .task a => by rw [Reduction.value, Reduction.tasks, List.flatMap_singleton]
  | .merge l r => by
    rw [Reduction.value, Reduction.tasks, List.flatMap_append, sourcesOf_merge, sourcesOf_value f g l,
      sourcesOf_value f g r]

theorem records_value (f : α → SplitResult S) : ∀ t : Reduction α,
    (t.value empty merge f).records = t.tasks.flatMap (fun a => (f a).records)
  | .unit => rfl
  | .task a => by rw [Reduction.value, Reduction.tasks, List.flatMap_singleton]
  | .merge l r => by
    rw [Reduction.value, Reduction.tasks, List.flatMap_append, merge, records_value f l, records_value f r]

end SplitResult
end SeismicHazard
