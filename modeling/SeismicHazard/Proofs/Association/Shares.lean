import SeismicHazard.Proofs.Association.Routing
import SeismicHazard.Proofs.Association.Telling
import SeismicHazard.Proofs.Association.Viability
import SeismicHazard.Proofs.LogicTree.Marginals
/-!
# Shares — how the weight falls to the realizations

In an enumeration a model brings its weight times the totals of the sets that its tree keeps (`sum_pathWeights`), and a
model that is skipped brings nothing, so the weights are divided by what the contributing models bring together
(`sum_added`).
-/
namespace SeismicHazard

theorem SamplingSettings.count_ne_zero {s : SamplingSettings} (h : s.isSampling = true) : s.count ≠ 0 :=
  fun hzero => of_decide_eq_true h (UInt64.toNat_inj.1 hzero)

variable {S : Type}

def SourceModel.liveWeight {W : Type} [Scalar W] (weight : SourceGroup S → W) (m : SourceModel S W) : W :=
  m.weight * Scalar.product ((m.reduceToLive weight).tree.sets.values.map BranchSetTree.setTotal)

namespace Association

section Weights

variable {W : Type} [Scalar W] {sampling : SamplingSettings} {weight : SourceGroup S → W}

theorem of_normalize_enumerated (hs : sampling.isSampling = false) {a b : Association W}
    (h : b.normalize sampling = .ok a) : Scalar.isZero (Scalar.sum (b.realizations.map Realization.weight)) = false ∧
      a = b.reweight (fun w => w / Scalar.sum (b.realizations.map Realization.weight)) := by
  rw [normalize_enumerated hs] at h
  split at h
  · cases h
  · rename_i hnonzero
    cases h
    exact ⟨Bool.eq_false_iff.2 hnonzero, rfl⟩

theorem of_normalize_sampled (hs : sampling.isSampling = true) {a b : Association W}
    (h : b.normalize sampling = .ok a) : b.realizations.length = sampling.count ∧
      a = b.reweight (fun _ => Scalar.one / Scalar.ofNat sampling.count) := by
  rw [normalize_sampled hs] at h
  split at h
  · rename_i hcount
    cases h
    exact ⟨hcount, rfl⟩
  · cases h

theorem pathWeights_of_idle (hs : sampling.isSampling = false) {m : SourceModel S W} (h : ¬m.Yields sampling) :
    pathWeights m = [] := by
  by_contra hne
  refine h ⟨m.tree.enumerate, ?_, fun hnil => hne (by rw [pathWeights, hnil]; rfl)⟩
  rw [SourceModel.paths, if_neg (by simp [hs])]

/-- **Before they are divided, the weights of a part are those of its paths**, times that of the model. -/
theorem weight_of_attributed {ms : List (SourceModel S W)} {cs : List (Contribution S W)} {a : Association W}
    (hcs : List.Forall₂ (Contributes sampling weight) ms cs) (hn : (ms.map SourceModel.ordinal).Nodup)
    (ha : a.Attributed (cs.flatMap Contribution.origins)) {m : SourceModel S W} (hm : m ∈ ms) :
    ∀ r ∈ a.realizationsOf m.ordinal, r.weight = m.weight * r.choice.weight := by
  obtain ⟨x, hmodel, -, first, hpart⟩ := exists_part hcs hn ha hm
  rw [hpart]
  intro r hr
  obtain ⟨o, ho, rfl⟩ := List.mem_map.1 hr
  have hom : o.1.model = m.reduceToLive weight :=
    hmodel ▸ (SourceModel.mem_originsFrom (List.fst_mem_of_mem_zipIdx ho)).1
  change o.1.model.weight * o.1.path.weight = m.weight * o.1.path.weight
  rw [hom]
  rfl

end Weights

/-- **A model with paths brings its weight times the totals of the sets that its tree keeps.** -/
theorem sum_pathWeights {sampling : SamplingSettings} {weight : SourceGroup S → Rat} {m : SourceModel S Rat}
    (h : (m.reduceToLive weight).Yields sampling) : (pathWeights (m.reduceToLive weight)).sum = m.liveWeight weight := by
  rw [pathWeights, List.sum_map_mul_left, ← Exact.sum_eq, BranchSetTree.sum_enumerate (SourceModel.isEmpty_of_yields h)]
  rfl

end Association

namespace Composite

section Weighed

variable {W : Type}

def contributors (c : Composite S W) (a : Association W) : List (SourceModel S W) :=
  c.models.filter (fun m => decide (m.ordinal ∈ a.contributingModels))

theorem mem_contributors {c : Composite S W} {a : Association W} {m : SourceModel S W} :
    m ∈ c.contributors a ↔ m ∈ c.models ∧ m.ordinal ∈ a.contributingModels := by
  rw [contributors, List.mem_filter, decide_eq_true_iff]

variable [Scalar W]

def contributed (weight : SourceGroup S → W) (c : Composite S W) (a : Association W) : W :=
  Scalar.sum ((c.contributors a).map (SourceModel.liveWeight weight))

structure Weighed (weight : SourceGroup S → W) (c : Composite S W) (a : Association W) : Prop where
  total : Scalar.sum (a.realizations.map Realization.weight) = Scalar.one
  attributed : ∀ r ∈ a.realizations, ∃ m ∈ c.contributors a, r ∈ a.realizationsOf m.ordinal
  viable : c.sampling.isSampling = false → Scalar.isZero (c.contributed weight a) = false
  /-- In an enumeration every realization has its part of what the contributing models bring. -/
  enumerated : c.sampling.isSampling = false → ∀ m ∈ c.models, ∀ r ∈ a.realizationsOf m.ordinal,
    r.weight = m.weight * r.choice.weight / c.contributed weight a
  shared : c.sampling.isSampling = false → ∀ m ∈ c.contributors a,
    Scalar.sum ((a.realizationsOf m.ordinal).map Realization.weight) = m.liveWeight weight / c.contributed weight a
  /-- If the weights of every set that was kept add up to one, the models share as they weigh. -/
  balanced : c.sampling.isSampling = false →
    (∀ m ∈ c.contributors a, ∀ branches ∈ (m.reduceToLive weight).tree.sets.values,
      BranchSetTree.setTotal branches = Scalar.one) →
    ∀ m ∈ c.contributors a, Scalar.sum ((a.realizationsOf m.ordinal).map Realization.weight) =
      m.weight / Scalar.sum ((c.contributors a).map SourceModel.weight)
  sampled : c.sampling.isSampling = true → ∀ r ∈ a.realizations, r.weight = Scalar.one / Scalar.ofNat c.sampling.count

variable {weight : SourceGroup S → W} {c : Composite S W} {a : Association W} {m : SourceModel S W}

theorem yields_iff (models : (c.models.map SourceModel.ordinal).Nodup) (h : (c.associateBy weight).2 = .ok a)
    (hm : m ∈ c.models) : m.ordinal ∈ a.contributingModels ↔ (m.reduceToLive weight).Yields c.sampling := by
  rw [(visited_associateBy h).2]
  constructor
  · rintro ⟨m', hm', hord, hyields⟩
    obtain rfl : m' = m := List.inj_on_of_nodup_map models hm' hm hord
    exact hyields
  · exact fun hyields => ⟨m, hm, rfl, hyields⟩

theorem exists_contributor (models : (c.models.map SourceModel.ordinal).Nodup) (h : (c.associateBy weight).2 = .ok a)
    {r : Realization W} (hr : r ∈ a.realizations) : ∃ m ∈ c.contributors a, r ∈ a.realizationsOf m.ordinal := by
  obtain ⟨n, hn⟩ := List.mem_iff_getElem?.1 hr
  obtain ⟨-, m, hm, i, hd⟩ := (isDraw_of_associateBy models h).1 n r hn
  have hpart : r ∈ a.realizationsOf m.ordinal := List.mem_of_getElem? hd.part
  refine ⟨m, mem_contributors.2 ⟨hm, ?_⟩, hpart⟩
  by_contra hnot
  rw [Association.realizationsOf_of_notMem hnot] at hpart
  cases hpart

end Weighed

variable {weight : SourceGroup S → Rat} {c : Composite S Rat} {a b : Association Rat}

/-- **The weights before they are divided add up to what the contributing models bring.** -/
theorem sum_added (models : (c.models.map SourceModel.ordinal).Nodup) (h : (c.associateBy weight).2 = .ok a)
    (hs : c.sampling.isSampling = false)
    (hb : (Association.addModels c.sampling weight ((byOrdinal c.models).map Prod.fst)
      (Association.empty c.composition)).2 = .ok b) :
    Scalar.sum (b.realizations.map Realization.weight) = c.contributed weight a := by
  obtain ⟨cs, hcs, hbuilt, -⟩ := Association.exists_contributions hb
  have hidle : ∀ m ∈ c.models, decide (m.ordinal ∈ a.contributingModels) = false →
      (Association.pathWeights (m.reduceToLive weight)).sum = 0 := by
    intro m hm hnot
    rw [decide_eq_false_iff_not, yields_iff models h hm] at hnot
    rw [Association.pathWeights_of_idle hs hnot]
    rfl
  have hlive : ∀ m ∈ c.contributors a,
      (Association.pathWeights (m.reduceToLive weight)).sum = m.liveWeight weight := by
    intro m hm
    obtain ⟨hm, hmem⟩ := mem_contributors.1 hm
    exact Association.sum_pathWeights ((yields_iff models h hm).1 hmem)
  calc Scalar.sum (b.realizations.map Realization.weight)
      = (((byOrdinal c.models).map Prod.fst).map
          (fun m => (Association.pathWeights (m.reduceToLive weight)).sum)).sum := by
        rw [hbuilt.weights_eq, Association.weights_contributions hs hcs, Exact.sum_eq, Exact.sum_flatMap]
    _ = (c.models.map (fun m => (Association.pathWeights (m.reduceToLive weight)).sum)).sum :=
        ((byOrdinal_perm c.models).map _).sum_eq
    _ = ((c.contributors a).map (fun m => (Association.pathWeights (m.reduceToLive weight)).sum)).sum :=
        (Exact.sum_map_filter hidle).symm
    _ = ((c.contributors a).map (SourceModel.liveWeight weight)).sum := by rw [List.map_congr_left hlive]
    _ = c.contributed weight a := (Exact.sum_eq _).symm

/-- **In an enumeration the weights are divided by what the contributing models bring**, which is not zero. -/
theorem weights_enumerated (models : (c.models.map SourceModel.ordinal).Nodup) (h : (c.associateBy weight).2 = .ok a)
    (hs : c.sampling.isSampling = false) : c.contributed weight a ≠ 0 ∧
      (a.realizations.map Realization.weight).sum = 1 ∧ ∀ m ∈ c.models, ∀ r ∈ a.realizationsOf m.ordinal,
        r.weight = m.weight * r.choice.weight / c.contributed weight a := by
  obtain ⟨b, hnormalized, hb⟩ := associateBy_normalized h
  obtain ⟨hnonzero, hdivided⟩ := Association.of_normalize_enumerated hs hnormalized
  have hsum := sum_added models h hs hb
  rw [hsum] at hnonzero hdivided
  have hne : c.contributed weight a ≠ 0 := fun hzero => by
    rw [Exact.isZero_iff.2 hzero] at hnonzero
    cases hnonzero
  generalize c.contributed weight a = whole at hsum hdivided hne
  subst hdivided
  refine ⟨hne, ?_, fun m hm r hr => ?_⟩
  · change (List.map _ (b.realizations.map _)).sum = 1
    rw [List.map_map]
    change (b.realizations.map (fun r => r.weight / whole)).sum = 1
    rw [Exact.sum_map_div, ← Exact.sum_eq, hsum, div_self hne]
  · rw [Association.realizationsOf_reweight] at hr
    obtain ⟨r', hr', rfl⟩ := List.mem_map.1 hr
    obtain ⟨cs, hcs, -, hattr⟩ := Association.exists_contributions hb
    have hn := (byOrdinal_increasing models).imp Nat.ne_of_lt
    have hweight := Association.weight_of_attributed hcs hn (hattr hn) ((byOrdinal_perm c.models).mem_iff.2 hm) r' hr'
    exact congrArg (· / whole) hweight

theorem weights_sampled (h : (c.associateBy weight).2 = .ok a) (hs : c.sampling.isSampling = true) :
    a.realizations.map Realization.weight = List.replicate c.sampling.count (1 / (c.sampling.count : Rat)) := by
  obtain ⟨b, hnormalized, -⟩ := associateBy_normalized h
  obtain ⟨hcount, rfl⟩ := Association.of_normalize_sampled hs hnormalized
  change List.map _ (b.realizations.map _) = _
  rw [List.map_map, ← hcount]
  exact List.map_const'

/-- **The realizations of a contributing model have the part of the weight that the model brings.** -/
theorem sum_part (models : (c.models.map SourceModel.ordinal).Nodup) (h : (c.associateBy weight).2 = .ok a)
    (hs : c.sampling.isSampling = false) {m : SourceModel S Rat} (hm : m ∈ c.contributors a) :
    ((a.realizationsOf m.ordinal).map Realization.weight).sum = m.liveWeight weight / c.contributed weight a := by
  obtain ⟨hm, hmem⟩ := mem_contributors.1 hm
  have hchoices := (contributed_of_associateBy models h hm).enumerated hs
  have hweights : (a.realizationsOf m.ordinal).map Realization.weight =
      (a.realizationsOf m.ordinal).map (fun r => m.weight * r.choice.weight / c.contributed weight a) :=
    List.map_congr_left ((weights_enumerated models h hs).2.2 m hm)
  have hpaths : Association.pathWeights (m.reduceToLive weight) =
      (a.realizationsOf m.ordinal).map (fun r => m.weight * r.choice.weight) := by
    rw [Association.pathWeights, ← hchoices, List.map_map]
    rfl
  rw [hweights, Exact.sum_map_div, ← hpaths, Association.sum_pathWeights ((yields_iff models h hm).1 hmem)]

/-- **The weights of a built association, as exact rationals.** -/
theorem realizations_weighed (weight : SourceGroup S → Rat) (c : Composite S Rat)
    (models : (c.models.map SourceModel.ordinal).Nodup) (a : Association Rat) (h : (c.associateBy weight).2 = .ok a) :
    c.Weighed weight a := by
  constructor
  case total =>
    rw [Exact.sum_eq]
    cases hs : c.sampling.isSampling with
    | false => exact (weights_enumerated models h hs).2.1
    | true =>
      have hcount : (c.sampling.count : Rat) ≠ 0 := Nat.cast_ne_zero.2 (SamplingSettings.count_ne_zero hs)
      rw [weights_sampled h hs, List.sum_replicate, nsmul_eq_mul, mul_one_div_cancel hcount]
      rfl
  case attributed => exact fun r hr => exists_contributor models h hr
  case viable =>
    intro hs
    exact Bool.eq_false_iff.2 fun hzero => (weights_enumerated models h hs).1 (Exact.isZero_iff.1 hzero)
  case enumerated => exact fun hs => (weights_enumerated models h hs).2.2
  case shared =>
    intro hs m hm
    rw [Exact.sum_eq]
    exact sum_part models h hs hm
  case balanced =>
    intro hs hone m hm
    have hlive : ∀ m ∈ c.contributors a, m.liveWeight weight = m.weight := by
      intro m hm
      rw [SourceModel.liveWeight, Exact.product_of_ones (List.forall_mem_map.2 (hone m hm))]
      exact Rat.mul_one _
    rw [Exact.sum_eq, sum_part models h hs hm, hlive m hm, contributed, List.map_congr_left hlive]
  case sampled =>
    intro hs r hr
    have hmem := List.mem_map_of_mem (f := Realization.weight) hr
    rw [weights_sampled h hs] at hmem
    exact List.eq_of_mem_replicate hmem

/-- Models out of order, one of them without a live group, and one with a branch set that is dropped. -/
def withDropped : Composite Unit Rat :=
  let active := ("Active", [⟨"b1", "A", 1 / 2⟩, ⟨"b2", "B", 1 / 2⟩])
  let stable := ("Stable", [⟨"s1", "C", 1 / 4⟩, ⟨"s2", "T", 3 / 4⟩])
  .ofModels [
    ⟨"late", 1 / 2, ["s3"], [{ id := ⟨1⟩, trt := "Stable", ruptures := 4 }, { id := ⟨2⟩, trt := "Active" }],
      ⟨.ofList [active, stable]⟩, 7, 1⟩,
    ⟨"early", 1 / 4, ["s1"], [{ id := ⟨3⟩, trt := "Active", ruptures := 1 }], ⟨.ofList [active]⟩, 3, 1⟩,
    ⟨"idle", 1 / 4, ["s2"], [{ id := ⟨4⟩, trt := "Active" }], ⟨.ofList [active]⟩, 5, 1⟩] {}

theorem realizations_weighed_withDropped : (withDropped.models.map SourceModel.ordinal).Nodup ∧
    ∃ a, (withDropped.associateBy ruptureCount).2 = .ok a ∧ withDropped.Weighed ruptureCount a ∧
      a.realizations.map Realization.weight = [1 / 6, 1 / 6, 1 / 6, 1 / 2] ∧
      withDropped.contributed ruptureCount a = 3 / 4 := by
  have models : (withDropped.models.map SourceModel.ordinal).Nodup := by decide +kernel
  have weights : (withDropped.associateBy ruptureCount).2.toOption.map (fun a =>
      (a.realizations.map Realization.weight, withDropped.contributed ruptureCount a)) =
        some ([1 / 6, 1 / 6, 1 / 6, 1 / 2], 3 / 4) := by
    decide +kernel
  obtain ⟨a, ha, hweights⟩ := Outcome.map_toOption_eq_some.1 weights
  obtain ⟨hlist, hwhole⟩ := Prod.mk.inj hweights
  exact ⟨models, a, ha, realizations_weighed ruptureCount withDropped models a ha, hlist, hwhole⟩

end Composite
end SeismicHazard
