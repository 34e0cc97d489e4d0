import SeismicHazard.Association.Build
/-!
# Reducing — which branch sets a build keeps

A reduced tree has those of its branch sets that are to be kept, as they were (`branches?_reduce`).  A build keeps the
branch sets of the tectonic region types with a live group (`contains_liveTrts`).
-/
namespace SeismicHazard

variable {S W : Type}

namespace BranchSetTree

@[simp] theorem branches?_reduce (t : BranchSetTree W) (keep : SortedSet String) (trt : String) :
    (t.reduce keep).branches? trt = if keep.contains trt = true then t.branches? trt else none := by
  unfold branches? reduce
  rw [SortedMap.get?_filter]
  by_cases h : keep.contains trt = true
  · cases t.sets.get? trt <;> simp [h]
  · cases t.sets.get? trt <;> simp [h]

theorem ext_branches? {t t' : BranchSetTree W} (h : ∀ trt, t.branches? trt = t'.branches? trt) : t = t' := by
  obtain ⟨sets⟩ := t
  obtain ⟨sets'⟩ := t'
  exact congrArg mk (SortedMap.ext_get? h)

theorem reduce_congr (t : BranchSetTree W) {keep keep' : SortedSet String}
    (h : ∀ trt, keep.contains trt = true ↔ keep'.contains trt = true) : t.reduce keep = t.reduce keep' :=
  ext_branches? fun trt => by simp [h]

theorem reduce_reduce (t : BranchSetTree W) (keep : SortedSet String) : (t.reduce keep).reduce keep = t.reduce keep :=
  ext_branches? fun trt => by
    by_cases h : keep.contains trt = true <;> simp [h]

@[simp] theorem mem_trts_reduce {t : BranchSetTree W} {keep : SortedSet String} {trt : String} :
    trt ∈ (t.reduce keep).trts ↔ trt ∈ t.trts ∧ keep.contains trt = true := by
  have hget (t : BranchSetTree W) : trt ∈ t.trts ↔ ∃ bs, t.branches? trt = some bs := SortedMap.mem_keys
  rw [hget, hget]
  by_cases h : keep.contains trt = true <;> simp [h]

end BranchSetTree

theorem SourceModel.contains_liveTrts [Scalar W] (weight : SourceGroup S → W) (m : SourceModel S W) (trt : String) :
    (m.liveTrts weight).contains trt = true ↔
      ∃ g ∈ m.groups, g.trt = trt ∧ Scalar.isPositive (weight g) = true := by
  rw [liveTrts, SortedSet.contains_ofList]
  simp only [List.mem_map, List.mem_filter]
  constructor
  · rintro ⟨g, ⟨hg, hpos⟩, htrt⟩
    exact ⟨g, hg, htrt, hpos⟩
  · rintro ⟨g, hg, htrt, hpos⟩
    exact ⟨g, ⟨hg, hpos⟩, htrt⟩

end SeismicHazard
