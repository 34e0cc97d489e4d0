import SeismicHazard.Proofs.Association.Origins
import SeismicHazard.Proofs.LogicTree.Counting
import Mathlib.Data.List.Nodup
/-!
# Partition — each source model has a part of the realizations

The realizations stand in the order of the source models.  A model with paths puts its realizations behind those of the
models before it and takes the next range, so the parts of the models, one after the other, stay all realizations
(`tiled_addModel`, `tiled_addModels`).  The part of a model holds its paths in order (`contributed_of_attributed`).
From the two, a built association gives every model its own part (`realizations_partitioned`).
-/
namespace SeismicHazard

variable {S W : Type}

def SourceModel.Yields [Scalar W] (sampling : SamplingSettings) (m : SourceModel S W) : Prop :=
  ∃ ps, m.paths sampling = .ok ps ∧ ps ≠ []

namespace Association

/-! ## Ranges that tile the realizations -/

structure Tiled (a : Association W) : Prop where
  ranged : a.Ranged
  /-- The parts are taken in the order of the numbers of their models. -/
  parts : a.contributingModels.flatMap a.realizationsOf = a.realizations

theorem tiled_empty (c : Composition) : (empty c : Association W).Tiled :=
  ⟨fun i r h => by simp [empty] at h, rfl⟩

theorem contributingModels_increasing (a : Association W) : a.contributingModels.Pairwise (· < ·) :=
  List.pairwise_map.2 (a.byModel.increasing.imp fun h => Nat.compare_eq_lt.1 h)

theorem realizationsOf_of_notMem {a : Association W} {i : Nat} (h : i ∉ a.contributingModels) :
    a.realizationsOf i = [] := by
  refine realizationsOf_of_none ?_
  cases hr : a.byModel.get? i with
  | none => rfl
  | some r => exact absurd (SortedMap.mem_keys.2 ⟨r, hr⟩) h

theorem contributingModels_noteModel {a : Association W} {model : Nat} (h : ∀ i ∈ a.contributingModels, i < model)
    (first : Nat) : (noteModel model first a).contributingModels = a.contributingModels ++ [model] :=
  SortedMap.keys_insert_of_above (fun i hi => Nat.compare_eq_lt.2 (h i hi)) _

theorem Tiled.noteModel {a b : Association W} {new : List (Realization W)} (ha : a.Tiled)
    (hb : b.realizations = a.realizations ++ new) (hby : b.byModel = a.byModel) {model : Nat}
    (h : ∀ i ∈ a.contributingModels, i < model) : (noteModel model a.realizations.length b).Tiled := by
  have hmodels : b.contributingModels = a.contributingModels := congrArg SortedMap.keys hby
  have hparts := realizationsOf_noteModel ha.ranged hb hby model
  have hold : a.contributingModels.flatMap (Association.noteModel model a.realizations.length b).realizationsOf =
      a.realizations := by
    refine Eq.trans (List.flatMap_congr fun i hi => ?_) ha.parts
    rw [hparts, if_neg (Nat.ne_of_lt (h i hi))]
  refine ⟨ha.ranged.noteModel hb hby model, ?_⟩
  rw [contributingModels_noteModel (hmodels ▸ h), hmodels, List.flatMap_append, List.flatMap_singleton, hold, hparts,
    if_pos rfl]
  exact hb.symm

theorem filter_origins : ∀ {cs : List (Contribution S W)} (n : Nat), (cs.map (fun c => c.model.ordinal)).Nodup →
    ∀ x ∈ cs, ∃ first, ((cs.flatMap Contribution.origins).zipIdx n).filter
      (fun o => o.1.model.ordinal = x.model.ordinal) = x.origins.zipIdx first
  | [], _, _, x, hx => by cases hx
  | c :: cs, n, hn, x, hx => by
    rw [List.map_cons, List.nodup_cons] at hn
    have hc : ∀ o ∈ c.origins, o.model.ordinal = c.model.ordinal := fun o ho => by
      rw [(SourceModel.mem_originsFrom ho).1]
    have hcs : ∀ o ∈ cs.flatMap Contribution.origins, o.model.ordinal ≠ c.model.ordinal := fun o ho heq => by
      obtain ⟨c', hc', ho⟩ := List.mem_flatMap.1 ho
      rw [(SourceModel.mem_originsFrom ho).1] at heq
      exact hn.1 (List.mem_map.2 ⟨c', hc', heq⟩)
    rw [List.flatMap_cons, List.zipIdx_append, List.filter_append]
    rcases List.mem_cons.1 hx with rfl | hx
    · rw [filter_zipIdx_eq_nil hcs, List.append_nil, List.filter_eq_self.2]
      · exact ⟨n, rfl⟩
      · intro o ho
        exact decide_eq_true (hc o.1 (List.fst_mem_of_mem_zipIdx ho))
    · rw [filter_zipIdx_eq_nil, List.nil_append]
      · exact filter_origins _ hn.2 x hx
      · intro o ho heq
        exact hn.1 (List.mem_map.2 ⟨x, hx, heq.symm.trans (hc o ho)⟩)

/-! ## Models that take the next range -/

variable [Scalar W]

theorem addPaths_extends (m : SourceModel S W) : ∀ (ps : List (ChoicePath W)) (draw : Nat)
    (groups : List (SourceGroup S)) (a a' : Association W), (addPaths m ps draw groups a).result = .ok a' →
    ∃ new, a'.realizations = a.realizations ++ new ∧ a'.byModel = a.byModel ∧ a'.composition = a.composition ∧
      new.map Realization.choice = ps
  | [], _, _, a, _, h => by
    cases h
    exact ⟨[], (List.append_nil _).symm, rfl, rfl, rfl⟩
  | p :: ps, draw, groups, a, a', h => by
    rw [addPaths_cons] at h
    dsimp only at h
    split at h
    · cases h
    · obtain ⟨new, hnew, hby, hc, rfl⟩ := addPaths_extends m ps (draw + 1) _ _ a' h
      exact ⟨_, hnew.trans (List.append_assoc ..), hby, hc, rfl⟩

theorem composition_addModel {sampling : SamplingSettings} {m : SourceModel S W} {a a' : Association W}
    (h : (addModel sampling m a).2 = .ok a') : a'.composition = a.composition := by
  rcases addModel_ok h with ⟨-, rfl⟩ | ⟨ps, b, -, -, hb, rfl⟩
  · rfl
  · obtain ⟨_, _, _, hc, -⟩ := addPaths_extends m ps 0 m.groups a b hb
    exact hc

/-- **A model above those that contributed takes the next range**, if it yields a path. -/
theorem tiled_addModel {sampling : SamplingSettings} {m : SourceModel S W} {a a' : Association W} (ha : a.Tiled)
    (hm : ∀ i ∈ a.contributingModels, i < m.ordinal) (h : (addModel sampling m a).2 = .ok a') :
    a'.Tiled ∧ ∀ i, i ∈ a'.contributingModels ↔ i ∈ a.contributingModels ∨ (i = m.ordinal ∧ m.Yields sampling) := by
  rcases addModel_ok h with ⟨hps, rfl⟩ | ⟨ps, b, hne, hps, hb, rfl⟩
  · refine ⟨ha, fun i => ⟨Or.inl, fun hi => ?_⟩⟩
    rcases hi with hi | ⟨-, qs, hqs, hne⟩
    · exact hi
    · cases hps.symm.trans hqs
      exact absurd rfl hne
  · obtain ⟨new, hnew, hby, -⟩ := addPaths_extends m ps 0 m.groups a b hb
    have hmodels : b.contributingModels = a.contributingModels := congrArg SortedMap.keys hby
    refine ⟨ha.noteModel hnew hby hm, fun i => ?_⟩
    rw [contributingModels_noteModel (hmodels ▸ hm), hmodels, List.mem_append, List.mem_singleton]
    exact or_congr_right (and_iff_left ⟨ps, hps, hne⟩).symm

/-- **Models with increasing numbers tile the realizations**, and those that yield a path contribute. -/
theorem tiled_addModels (sampling : SamplingSettings) (weight : SourceGroup S → W) :
    ∀ (ms : List (SourceModel S W)) (a a' : Association W), a.Tiled →
    (ms.map SourceModel.ordinal).Pairwise (· < ·) → (∀ m ∈ ms, ∀ i ∈ a.contributingModels, i < m.ordinal) →
    (addModels sampling weight ms a).2 = .ok a' →
    a'.Tiled ∧ ∀ i, i ∈ a'.contributingModels ↔
      i ∈ a.contributingModels ∨ ∃ m ∈ ms, i = m.ordinal ∧ (m.reduceToLive weight).Yields sampling
  | [], a, _, ha, _, _, h => by
    cases h
    exact ⟨ha, by simp⟩
  | m :: ms, a, a', ha, hms, hm, h => by
    rw [addModels] at h
    dsimp only at h
    split at h
    · cases h
    · rename_i b hb
      rw [List.map_cons, List.pairwise_cons] at hms
      have hmb := hm m (List.mem_cons_self ..)
      obtain ⟨hb', hmodels⟩ := tiled_addModel (m := m.reduceToLive weight) ha hmb hb
      have hlt : ∀ m' ∈ ms, ∀ i ∈ b.contributingModels, i < m'.ordinal := fun m' hm' i hi => by
        rcases (hmodels i).1 hi with hi | ⟨rfl, -⟩
        · exact hm m' (List.mem_cons_of_mem _ hm') i hi
        · exact hms.1 _ (List.mem_map_of_mem hm')
      obtain ⟨ha', hmodels'⟩ := tiled_addModels sampling weight ms b a' hb' hms.2 hlt h
      refine ⟨ha', fun i => ?_⟩
      rw [hmodels', hmodels, or_assoc, List.exists_mem_cons_iff]
      rfl

/-! ## The part of a model -/

/-- The realizations of a model whose tree was reduced: one for each of its paths, in order. -/
structure Contributed (sampling : SamplingSettings) (m : SourceModel S W) (rs : List (Realization W)) : Prop where
  path : ∀ r ∈ rs, r.path = m.path
  /-- In an enumeration they follow the paths of the tree. -/
  enumerated : sampling.isSampling = false → rs.map Realization.choice = m.tree.enumerate
  /-- In a sampling they follow the paths that are drawn with the seed of the model. -/
  drawn : sampling.isSampling = true →
    ∃ g, m.tree.sample m.samples (Generator.seeded (sampling.seedFor m.ordinal)) = .ok (rs.map Realization.choice, g)

theorem contributed_of_paths {sampling : SamplingSettings} {m : SourceModel S W} {rs : List (Realization W)}
    (hpath : ∀ r ∈ rs, r.path = m.path) (h : m.paths sampling = .ok (rs.map Realization.choice)) :
    Contributed sampling m rs := by
  unfold SourceModel.paths at h
  refine ⟨hpath, fun hs => ?_, fun hs => ?_⟩
  · rw [if_neg (by simp [hs])] at h
    exact (Except.ok.inj h).symm
  · rw [if_pos hs] at h
    obtain ⟨⟨ps, g⟩, hg, rfl⟩ := Outcome.map_eq_ok.1 h
    exact ⟨g, hg⟩

theorem Contributed.paths {sampling : SamplingSettings} {m : SourceModel S W} {rs : List (Realization W)}
    (h : Contributed sampling m rs) : m.paths sampling = .ok (rs.map Realization.choice) := by
  unfold SourceModel.paths
  split
  · rename_i hs
    obtain ⟨g, hg⟩ := h.drawn hs
    rw [hg]
    rfl
  · rename_i hs
    rw [h.enumerated (by simpa using hs)]

/-- **A part has one realization for each path of the tree**, or for each draw of the model. -/
theorem Contributed.length_eq {sampling : SamplingSettings} {m : SourceModel S W} {rs : List (Realization W)}
    (h : Contributed sampling m rs) (hrs : rs ≠ []) :
    rs.length = if sampling.isSampling then m.samples else m.tree.numCombinations := by
  rw [← List.length_map Realization.choice]
  split
  · rename_i hs
    obtain ⟨g, hg⟩ := h.drawn hs
    have hlen := BranchSetTree.length_of_sample hg
    split at hlen
    · rw [List.length_map] at hlen
      exact absurd (List.eq_nil_of_length_eq_zero hlen) hrs
    · exact hlen
  · rename_i hs
    rw [h.enumerated (by simpa using hs), BranchSetTree.length_enumerate]

theorem Contributed.reweight {sampling : SamplingSettings} {m : SourceModel S W} {rs : List (Realization W)}
    (h : Contributed sampling m rs) (f : W → W) :
    Contributed sampling m (rs.map (fun r => { r with weight := f r.weight })) := by
  have hchoice : (rs.map (fun r => { r with weight := f r.weight })).map Realization.choice =
      rs.map Realization.choice := by
    rw [List.map_map]
    rfl
  refine ⟨fun r hr => ?_, fun hs => ?_, fun hs => ?_⟩
  · obtain ⟨r', hr', rfl⟩ := List.mem_map.1 hr
    exact h.path r' hr'
  · rw [hchoice]
    exact h.enumerated hs
  · rw [hchoice]
    exact h.drawn hs

theorem Attributed.realizationsOf_eq {cs : List (Contribution S W)} {a : Association W}
    (ha : a.Attributed (cs.flatMap Contribution.origins)) (hn : (cs.map (fun c => c.model.ordinal)).Nodup)
    {x : Contribution S W} (hx : x ∈ cs) : ∃ first, a.realizationsOf x.model.ordinal =
      (x.origins.zipIdx first).map (fun o => o.1.realization a.composition o.2) := by
  obtain ⟨first, hfirst⟩ := filter_origins 0 hn x hx
  refine ⟨first, ?_⟩
  rw [ha.realizationsOf, originated, hfirst]

theorem choices_of_origins (c : Composition) (x : Contribution S W) (first : Nat) :
    ((x.origins.zipIdx first).map (fun o => o.1.realization c o.2)).map Realization.choice = x.paths := by
  have h : ((x.origins.zipIdx first).map Prod.fst).map Origin.path = x.paths := by
    rw [List.zipIdx_map_fst, Contribution.origins, SourceModel.originsFrom, List.map_map]
    exact List.zipIdx_map_fst 0 x.paths
  rw [List.map_map] at h ⊢
  exact h

theorem exists_part {sampling : SamplingSettings} {weight : SourceGroup S → W} {ms : List (SourceModel S W)}
    {cs : List (Contribution S W)} {a : Association W} (hcs : List.Forall₂ (Contributes sampling weight) ms cs)
    (hn : (ms.map SourceModel.ordinal).Nodup) (ha : a.Attributed (cs.flatMap Contribution.origins))
    {m : SourceModel S W} (hm : m ∈ ms) : ∃ x : Contribution S W, x.model = m.reduceToLive weight ∧
      (m.reduceToLive weight).paths sampling = .ok x.paths ∧ ∃ first, a.realizationsOf m.ordinal =
        (x.origins.zipIdx first).map (fun o => o.1.realization a.composition o.2) := by
  obtain ⟨x, hx, hmodel, hpaths⟩ := exists_right_of_forall₂ hcs m hm
  obtain ⟨first, hpart⟩ := ha.realizationsOf_eq (ordinals_contributions hcs ▸ hn) hx
  rw [hmodel] at hpart hpaths
  exact ⟨x, hmodel, hpaths, first, hpart⟩

theorem contributed_of_attributed {sampling : SamplingSettings} {weight : SourceGroup S → W}
    {ms : List (SourceModel S W)} {cs : List (Contribution S W)} {a : Association W}
    (hcs : List.Forall₂ (Contributes sampling weight) ms cs) (hn : (ms.map SourceModel.ordinal).Nodup)
    (ha : a.Attributed (cs.flatMap Contribution.origins)) {m : SourceModel S W} (hm : m ∈ ms) :
    Contributed sampling (m.reduceToLive weight) (a.realizationsOf m.ordinal) := by
  obtain ⟨x, hmodel, hpaths, first, hpart⟩ := exists_part hcs hn ha hm
  rw [hpart]
  refine contributed_of_paths (fun r hr => ?_) ?_
  · obtain ⟨o, ho, rfl⟩ := List.mem_map.1 hr
    rw [← hmodel, ← (SourceModel.mem_originsFrom (List.fst_mem_of_mem_zipIdx ho)).1]
    rfl
  · rw [hpaths, choices_of_origins]

end Association

/-! ## Built associations -/

namespace Composite

theorem byOrdinal_increasing {ms : List (SourceModel S W)} (h : (ms.map SourceModel.ordinal).Nodup) :
    (((byOrdinal ms).map Prod.fst).map SourceModel.ordinal).Pairwise (· < ·) := by
  rw [← List.zipIdx_map_fst 0 ms, List.map_map] at h
  exact List.pairwise_map.2 (List.pairwise_map.2 (sortBy_increasing (fun p : SourceModel S W × Nat => p.1.ordinal) h))

variable [Scalar W]

/-- How the realizations of an association built for a composite are shared out among its models. -/
structure Partitioned (weight : SourceGroup S → W) (c : Composite S W) (a : Association W) : Prop where
  /-- The realizations are numbered by their positions. -/
  ordinals : a.realizations.map Realization.ordinal = List.range a.realizations.length
  /-- The models that contributed are in the order of their numbers. -/
  increasing : a.contributingModels.Pairwise (· < ·)
  /-- They are the models that yield a path once their tree is reduced. -/
  contributing : ∀ i, i ∈ a.contributingModels ↔
    ∃ m ∈ c.models, i = m.ordinal ∧ (m.reduceToLive weight).Yields c.sampling
  /-- Their parts, one after the other, are all realizations. -/
  parts : a.contributingModels.flatMap a.realizationsOf = a.realizations
  /-- The part of a model follows the paths of its reduced tree. -/
  contributed : ∀ m ∈ c.models,
    Association.Contributed c.sampling (m.reduceToLive weight) (a.realizationsOf m.ordinal)
  /-- A model that contributed has one realization for each draw, or for each combination of branches of its reduced
  tree, -/
  lengths : ∀ m ∈ c.models, m.ordinal ∈ a.contributingModels → (a.realizationsOf m.ordinal).length =
    if c.sampling.isSampling then m.samples else (m.reduceToLive weight).tree.numCombinations
  /-- which that tree tells as far as a word holds it. -/
  told : ∀ m ∈ c.models, (m.reduceToLive weight).tree.numPaths = wrap (m.reduceToLive weight).tree.numCombinations
  /-- Any other number has no realizations. -/
  others : ∀ i, i ∉ a.contributingModels → a.realizationsOf i = []

theorem contributed_of_associateBy {weight : SourceGroup S → W} {c : Composite S W}
    (models : (c.models.map SourceModel.ordinal).Nodup) {a : Association W} (h : (c.associateBy weight).2 = .ok a)
    {m : SourceModel S W} (hm : m ∈ c.models) :
    Association.Contributed c.sampling (m.reduceToLive weight) (a.realizationsOf m.ordinal) := by
  obtain ⟨cs, b, f, hcs, -, rfl, hattr⟩ := associateBy_ok h
  rw [Association.realizationsOf_reweight]
  exact (Association.contributed_of_attributed hcs ((byOrdinal_increasing models).imp Nat.ne_of_lt) (hattr models)
    ((byOrdinal_perm c.models).mem_iff.2 hm)).reweight f

/-- **The realizations are partitioned by their models, in order.** -/
theorem realizations_partitioned (weight : SourceGroup S → W) (c : Composite S W)
    (models : (c.models.map SourceModel.ordinal).Nodup) (a : Association W) (h : (c.associateBy weight).2 = .ok a) :
    c.Partitioned weight a := by
  have hpart := fun m hm => contributed_of_associateBy models h (m := m) hm
  obtain ⟨b, f, rfl, hb⟩ := associateBy_added h
  obtain ⟨cs, -, hbuilt, -⟩ := Association.exists_contributions hb
  obtain ⟨htiled, hcontributing⟩ := Association.tiled_addModels c.sampling weight _ _ b
    (Association.tiled_empty c.composition) (byOrdinal_increasing models) (fun m _ i hi => by cases hi) hb
  have hmodels : (b.reweight f).contributingModels = b.contributingModels := rfl
  have hyields : ∀ i, i ∈ b.contributingModels ↔
      ∃ m ∈ c.models, i = m.ordinal ∧ (m.reduceToLive weight).Yields c.sampling := by
    intro i
    rw [hcontributing]
    simp only [(byOrdinal_perm c.models).mem_iff]
    exact or_iff_right (by rintro ⟨⟩)
  constructor
  case ordinals =>
    have hb' : b.realizations.map Realization.ordinal = List.range b.realizations.length := by
      rw [hbuilt.length_eq, List.range_eq_range', ← List.zipIdx_map_snd, hbuilt.realizations, List.map_map]
      rfl
    change (b.realizations.map _).map _ = List.range (b.realizations.map _).length
    rw [List.map_map, List.length_map, ← hb']
    rfl
  case increasing => exact b.contributingModels_increasing
  case contributing => exact hyields
  case parts =>
    rw [hmodels]
    change _ = b.realizations.map _
    rw [← htiled.parts, List.map_flatMap]
    exact List.flatMap_congr fun i _ => Association.realizationsOf_reweight f b i
  case contributed => exact hpart
  case lengths =>
    intro m hm hmem
    refine (hpart m hm).length_eq fun hnil => ?_
    obtain ⟨m', hm', hord, ps, hps, hne⟩ := (hyields _).1 hmem
    obtain rfl : m = m' := List.inj_on_of_nodup_map models hm hm' hord
    have hpaths := (hpart m hm).paths
    rw [hnil, hps] at hpaths
    cases hpaths
    exact hne rfl
  case told => exact fun m _ => BranchSetTree.numPaths_eq _
  case others => exact fun i hi => Association.realizationsOf_of_notMem hi

/-- Models out of order: two that are drawn, and one between them without a live group. -/
def withGap : Composite Unit Rat :=
  let active := ("Active", [⟨"b1", "A", 1 / 2⟩, ⟨"b2", "B", 1 / 2⟩])
  .ofModels [
    ⟨"late", 1 / 2, ["s3"], [{ id := ⟨1⟩, trt := "Active", ruptures := 4 }], ⟨.ofList [active]⟩, 7, 2⟩,
    ⟨"early", 1 / 4, ["s1"], [{ id := ⟨2⟩, trt := "Active", ruptures := 1 }], ⟨.ofList [active]⟩, 3, 1⟩,
    ⟨"idle", 1 / 4, ["s2"], [{ id := ⟨3⟩, trt := "Active" }], ⟨.ofList [active]⟩, 5, 4⟩] { samples := 3 }

theorem realizations_partitioned_withGap : (withGap.models.map SourceModel.ordinal).Nodup ∧
    ∃ a, (withGap.associateBy ruptureCount).2 = .ok a ∧ withGap.Partitioned ruptureCount a ∧
      a.contributingModels = [3, 7] ∧ (a.realizationsOf 7).map Realization.ordinal = [1, 2] := by
  have models : (withGap.models.map SourceModel.ordinal).Nodup := by decide +kernel
  have parts : (withGap.associateBy ruptureCount).2.toOption.map (fun a =>
      (a.contributingModels, (a.realizationsOf 7).map Realization.ordinal)) = some ([3, 7], [1, 2]) := by
    decide +kernel
  obtain ⟨a, ha, hparts⟩ := Outcome.map_toOption_eq_some.1 parts
  obtain ⟨hmodels, hpart⟩ := Prod.mk.inj hparts
  exact ⟨models, a, ha, realizations_partitioned ruptureCount withGap models a ha, hmodels, hpart⟩

end Composite
end SeismicHazard
