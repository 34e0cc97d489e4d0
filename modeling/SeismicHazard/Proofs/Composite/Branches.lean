import SeismicHazard.Proofs.Composite.Grouping
import SeismicHazard.Proofs.Pairing
/-!
# Branches — what a built composite takes over

A model takes over the tree and the number of draws of its branch (`becomes_build`).  So the models of a built
composite are all drawn, in an enumeration once and in a sampling, as far as a word can tell, as often as there are
samples, all together (`drawnEnough_build`).
-/
namespace SeismicHazard

variable {S W : Type} [Scalar W] [Source S]

structure ModelBranch.Becomes (b : ModelBranch S W) (m : SourceModel S W) : Prop where
  faultless : b.fault? = none
  tree_eq : m.tree = b.tree
  samples_eq : m.samples = b.samples

theorem ModelBranch.samples_pos {b : ModelBranch S W} (h : b.fault? = none) : 0 < b.samples := by
  unfold fault? at h
  split at h
  · cases h
  · exact Nat.pos_of_ne_zero ‹_›

namespace Composite

theorem becomes_buildModels : ∀ (branches : List (ModelBranch S W)) {ordinal first : Nat}
    {ms : List (SourceModel S W)}, buildModels ordinal first branches = .ok ms →
    List.Forall₂ ModelBranch.Becomes branches ms
  | [], _, _, _, h => by
    cases h
    exact .nil
  | b :: branches, _, _, _, h => by
    obtain ⟨hb, m, ms, hm, hms, rfl⟩ := buildModels_cons_eq_ok.1 h
    rw [ModelBranch.toModel_eq] at hm
    cases hm
    exact .cons ⟨hb, rfl, rfl⟩ (becomes_buildModels branches hms)

variable {sampling : SamplingSettings} {branches : List (ModelBranch S W)} {c : Composite S W}

/-- **A built composite has the models of its branches**, and its numbers of draws are not at fault. -/
theorem becomes_build (h : build sampling branches = .ok c) : c.sampling = sampling ∧
    samplingFault? sampling branches = none ∧ List.Forall₂ ModelBranch.Becomes branches c.models := by
  unfold build at h
  split at h
  · cases h
  · rename_i hfault
    obtain ⟨ms, hms, rfl⟩ := Outcome.map_eq_ok.1 h
    exact ⟨rfl, hfault, becomes_buildModels branches hms⟩

structure DrawnEnough (c : Composite S W) : Prop where
  drawn : ∀ m ∈ c.models, 0 < m.samples
  once : c.sampling.isSampling = false → ∀ m ∈ c.models, m.samples ≤ 1
  total : c.sampling.isSampling = true → wordTotal (c.models.map SourceModel.samples) = c.sampling.count

theorem drawnEnough_build (h : build sampling branches = .ok c) : c.DrawnEnough := by
  obtain ⟨hsampling, hfault, hbecomes⟩ := becomes_build h
  have hsamples : branches.map ModelBranch.samples = c.models.map SourceModel.samples :=
    map_eq_of_forall₂ (fun _ _ hb => hb.samples_eq.symm) hbecomes
  unfold samplingFault? at hfault
  rw [← hsampling] at hfault
  refine ⟨fun m hm => ?_, fun hs m hm => ?_, fun hs => ?_⟩
  · obtain ⟨b, -, hb⟩ := exists_left_of_forall₂ hbecomes m hm
    rw [hb.samples_eq]
    exact ModelBranch.samples_pos hb.faultless
  · obtain ⟨b, hmem, hb⟩ := exists_left_of_forall₂ hbecomes m hm
    rw [hs, if_neg Bool.false_ne_true, Option.map_eq_none_iff, List.find?_eq_none] at hfault
    rw [hb.samples_eq]
    simpa using hfault b hmem
  · rw [if_pos hs] at hfault
    dsimp only at hfault
    rw [← hsamples]
    by_contra hne
    rw [if_neg hne] at hfault
    cases hfault

end Composite
end SeismicHazard
