import SeismicHazard.Proofs.Composite.Collections
import SeismicHazard.Proofs.Composite.Grouping
import SeismicHazard.Proofs.Pairing
import Mathlib.Data.List.Nodup
/-!
# Consistency — what holds of a composite that was built

A composite that was built is consistent (`consistent_build`): its models and groups are numbered without a gap, its
groups are sound and told apart, and a draw of a group has a collection exactly if it needs one.  A composite that
continues a consistent one, group by group, is consistent as well (`Consistent.of_continues`).
-/
namespace SeismicHazard

variable {S W : Type} [Source S]

namespace SourceModel

/-- A model and what became of it: the number and the number of draws are the same, and its groups continue in order. -/
structure Continues (m m' : SourceModel S W) : Prop where
  ordinal_eq : m'.ordinal = m.ordinal
  samples_eq : m'.samples = m.samples
  groups : List.Forall₂ SourceGroup.Continues m.groups m'.groups

variable {m m' m'' : SourceModel S W}

theorem Continues.refl (m : SourceModel S W) : m.Continues m :=
  ⟨rfl, rfl, List.forall₂_same.2 fun g _ => SourceGroup.Continues.refl g⟩

theorem Continues.trans (h : m.Continues m') (h' : m'.Continues m'') : m.Continues m'' :=
  ⟨h'.ordinal_eq.trans h.ordinal_eq, h'.samples_eq.trans h.samples_eq,
    forall₂_trans (fun _ _ _ hg hg' => hg.trans hg') h.groups h'.groups⟩

theorem Continues.ids_eq (h : m.Continues m') : m'.groups.map SourceGroup.id = m.groups.map SourceGroup.id :=
  (map_eq_of_forall₂ (fun _ _ hg => hg.id_eq.symm) h.groups).symm

theorem Continues.sound (h : m.Continues m') (hm : m.Sound) : m'.Sound := by
  constructor
  · have htrts : m.groups.map SourceGroup.trt = m'.groups.map SourceGroup.trt :=
      map_eq_of_forall₂ (fun _ _ hg => hg.trt_eq.symm) h.groups
    rw [← htrts]
    exact hm.apart
  · intro g' hg'
    obtain ⟨g, hg, hgg'⟩ := exists_left_of_forall₂ h.groups g' hg'
    exact hgg'.sound (hm.groups g hg)

theorem Continues.draws_iff (h : m.Continues m') (g : GroupId) (draw : Nat) : m'.Draws g draw ↔ m.Draws g draw := by
  unfold Draws
  rw [h.samples_eq, h.ids_eq]

end SourceModel

namespace Composite

/-- A composite and what became of it: the collections are the same, and its models continue in order. -/
structure Continues (c c' : Composite S W) : Prop where
  composition_eq : c'.composition = c.composition
  models : List.Forall₂ SourceModel.Continues c.models c'.models

variable {c c' c'' : Composite S W}

theorem Continues.refl (c : Composite S W) : c.Continues c :=
  ⟨rfl, List.forall₂_same.2 fun m _ => SourceModel.Continues.refl m⟩

theorem Continues.trans (h : c.Continues c') (h' : c'.Continues c'') : c.Continues c'' :=
  ⟨h'.composition_eq.trans h.composition_eq,
    forall₂_trans (fun _ _ _ hm hm' => hm.trans hm') h.models h'.models⟩

theorem Continues.ids_eq (h : c.Continues c') : c'.groups.map SourceGroup.id = c.groups.map SourceGroup.id := by
  have hids : c.models.map (fun m => m.groups.map SourceGroup.id) =
      c'.models.map (fun m => m.groups.map SourceGroup.id) :=
    map_eq_of_forall₂ (fun _ _ hm => hm.ids_eq.symm) h.models
  unfold groups
  rw [List.map_flatMap, List.map_flatMap, List.flatMap_def, List.flatMap_def, hids]

/-- **What a composite promises** from when it is built. -/
structure Consistent (c : Composite S W) : Prop where
  ordinals : c.models.map SourceModel.ordinal = List.range c.models.length
  /-- The groups are numbered from one, through all models. -/
  ids : c.groups.map SourceGroup.id = (List.range' 1 c.groups.length).map GroupId.mk
  /-- The groups of a model have tectonic region types of their own, and each of them is sound. -/
  sound : ∀ m ∈ c.models, m.Sound
  /-- A draw of a group has a collection exactly if the model of the group is drawn more than once and that often. -/
  collections : ∀ g draw, (c.composition.collection? g draw).isSome = true ↔ ∃ m ∈ c.models, m.Draws g draw

theorem Consistent.nodup_ordinals (h : c.Consistent) : (c.models.map SourceModel.ordinal).Nodup := by
  rw [h.ordinals]
  exact List.nodup_range

theorem Consistent.nodup_ids (h : c.Consistent) : (c.groups.map SourceGroup.id).Nodup := by
  rw [h.ids]
  exact List.Nodup.map (fun _ _ h => GroupId.mk.inj h) List.nodup_range'

theorem consistent_build [Scalar W] {sampling : SamplingSettings} {branches : List (ModelBranch S W)}
    (h : build sampling branches = .ok c) : c.Consistent := by
  unfold build at h
  split at h
  · cases h
  · obtain ⟨ms, hms, rfl⟩ := Outcome.map_eq_ok.1 h
    have hlaid := laidOut_buildModels branches hms
    refine ⟨?_, hlaid.ids, hlaid.sound, Composition.collection?_ofModels ms⟩
    rw [List.range_eq_range']
    exact hlaid.ordinals

theorem fresh_build [Scalar W] {sampling : SamplingSettings} {branches : List (ModelBranch S W)}
    (h : build sampling branches = .ok c) : c.composition.Fresh := by
  unfold build at h
  split at h
  · cases h
  · obtain ⟨ms, -, rfl⟩ := Outcome.map_eq_ok.1 h
    exact Composition.fresh_ofModels ms

theorem Consistent.of_continues (h : c.Consistent) (hc : c.Continues c') : c'.Consistent := by
  have hgroups := congrArg List.length hc.ids_eq
  rw [List.length_map, List.length_map] at hgroups
  refine ⟨?_, ?_, fun m' hm' => ?_, fun g draw => ?_⟩
  · rw [← hc.models.length_eq, ← h.ordinals]
    exact (map_eq_of_forall₂ (fun _ _ hm => hm.ordinal_eq.symm) hc.models).symm
  · rw [hc.ids_eq, hgroups]
    exact h.ids
  · obtain ⟨m, hm, hmm'⟩ := exists_left_of_forall₂ hc.models m' hm'
    exact hmm'.sound (h.sound m hm)
  · rw [hc.composition_eq, h.collections]
    constructor
    · rintro ⟨m, hm, hd⟩
      obtain ⟨m', hm', hmm'⟩ := exists_right_of_forall₂ hc.models m hm
      exact ⟨m', hm', (hmm'.draws_iff g draw).2 hd⟩
    · rintro ⟨m', hm', hd⟩
      obtain ⟨m, hm, hmm'⟩ := exists_left_of_forall₂ hc.models m' hm'
      exact ⟨m, hm, (hmm'.draws_iff g draw).1 hd⟩

theorem Consistent.ruptures_countRuptures (h : c.Consistent) :
    ∀ m ∈ (c.countRuptures false).models, ∀ g ∈ m.groups,
      g.ruptures = wordTotal (g.sources.map Source.ruptures) := by
  intro m hm g hg
  obtain ⟨m', hm', rfl⟩ := List.mem_map.1 hm
  obtain ⟨g', hg', rfl⟩ := List.mem_map.1 hg
  rw [((h.sound m' hm').groups g' hg').ruptures_countRuptures]
  unfold SourceGroup.countRuptures
  split <;> rfl

end Composite
end SeismicHazard
