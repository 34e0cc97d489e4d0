import SeismicHazard.Proofs.LogicTree.Counting
import SeismicHazard.Proofs.Number.Totals
/-!
# Checking — what the checks of a tree promise

A branch set enters a tree with at least one branch, with weights that are not negative and with a total close to one.
So this holds of every set of a tree that was put together by adding sets (`checked_of_ofSets`), and still does when the
tree is reduced.  Such a set can always be drawn from (`drawable_of_checked`).
-/
namespace SeismicHazard
namespace BranchSetTree

variable {W : Type} [Scalar W]

structure CheckedSet (branches : List (Branch W)) : Prop where
  nonempty : branches ≠ []
  nonneg : ∀ b ∈ branches, Scalar.isNonneg b.weight = true
  balanced : isUnbalanced (setTotal branches) = false

def Checked (t : BranchSetTree W) : Prop := ∀ s ∈ t.sets.toList, CheckedSet s.2

theorem checkedSet_of_setFault? {t : BranchSetTree W} {trt : String} {branches : List (Branch W)}
    (h : t.setFault? trt branches = none) : CheckedSet branches := by
  unfold setFault? at h
  split at h
  · cases h
  · split at h
    · cases h
    · rename_i hne
      split at h
      · cases h
      · rename_i hnonneg
        split at h
        · cases h
        · rename_i hbalanced
          refine ⟨fun hnil => hne (by rw [hnil]; rfl), fun b hb => ?_, by simpa using hbalanced⟩
          simpa using List.find?_eq_none.1 hnonneg b hb

theorem Checked.withBranchSet {t t' : BranchSetTree W} (ht : t.Checked) {trt : String} {branches : List (Branch W)}
    (h : t.withBranchSet trt branches = .ok t') : t'.Checked := by
  unfold BranchSetTree.withBranchSet at h
  split at h
  · cases h
  · rename_i hfault
    cases h
    intro s hs
    rcases SortedMap.mem_insertInto hs with rfl | hs
    · exact checkedSet_of_setFault? hfault
    · exact ht s hs

theorem checked_of_ofSets {sets : List (String × List (Branch W))} {t : BranchSetTree W} (h : ofSets sets = .ok t) :
    t.Checked :=
  Outcome.foldlM_invariant (fun _ _ _ ht h => ht.withBranchSet h) (fun s hs => by cases hs) h

theorem Checked.reduce {t : BranchSetTree W} (h : t.Checked) (keep : SortedSet String) : (t.reduce keep).Checked :=
  fun s hs => h s (List.mem_filter.1 hs).1

theorem drawable_of_checked {branches : List (Branch Float)} (h : CheckedSet branches) : Drawable branches := by
  refine ⟨h.nonempty, ?_⟩
  have hbalanced := h.balanced
  have hnonneg : ∀ w ∈ branches.map Branch.weight, Double.AtLeastZero w.toModel.unpack := fun w hw => by
    obtain ⟨b, hb, rfl⟩ := List.mem_map.1 hw
    exact Double.isNonneg_iff.1 (h.nonneg b hb)
  unfold setTotal at hbalanced
  generalize branches.map Branch.weight = weights at hbalanced hnonneg
  cases weights with
  | nil => rfl
  | cons w ws =>
    have hw := hnonneg w (List.mem_cons_self ..)
    rw [Double.sum_cons hw] at hbalanced
    have hfinite := Double.isFinite_of_balanced
      (Double.atLeastZero_foldl ws hw fun w' hw' => hnonneg w' (List.mem_cons_of_mem _ hw')) hbalanced
    unfold Weighted.ofWeights
    dsimp only
    rw [if_pos hfinite]
    split <;> rfl

theorem sample_of_checked {G : Type} [RandomSource G] {t : BranchSetTree Float} (h : t.Checked) (n : Nat) (g : G) :
    ∃ ps g', t.sample n g = .ok (ps, g') :=
  sample_of_drawable (fun s hs => drawable_of_checked (h s hs)) n g

end BranchSetTree
end SeismicHazard
