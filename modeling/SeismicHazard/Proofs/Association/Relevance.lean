import SeismicHazard.Proofs.Association.Routing
import SeismicHazard.Proofs.Composite.Ownership
import SeismicHazard.Proofs.Composite.Runs
/-!
# Relevance — the groups that a realization needs results of

A realization without collections is told the groups of all models with its path, so none is missing.  One with
collections is told the owners of these.  In a built association they are the groups that its draw uses: every group of
the model has a collection for the draw as soon as one of them has (`isSome_collection?_of_sibling`), and no other draw
shares one.  Groups are looked up in the composition, which is a snapshot.  That is why the numbers of groups must be
final when collections are given out; operations keep them, and the paths and samples too (`madeOf_run`).
-/
namespace SeismicHazard

variable {S W : Type}

/-! ## Summaries -/

/-- The path, the samples and the groups of a model, from which its collections follow. -/
def SourceModel.outline (m : SourceModel S W) : List String × Nat × List GroupId :=
  (m.path, m.samples, m.groups.map SourceGroup.id)

namespace Composition

theorem models_foldl_allocate (n : Nat) : ∀ (ids : List GroupId) (c : Composition),
    (ids.foldl (allocate n) c).models = c.models
  | [], _ => rfl
  | g :: ids, c => models_foldl_allocate n ids (allocate n c g)

theorem models_foldl_addModel : ∀ (ms : List (SourceModel S W)) (c : Composition), (ms.foldl addModel c).models =
    c.models ++ ms.map (fun m => ⟨m.path, m.name, m.groups.map SourceGroup.id, wrap (m.tree.numPaths * m.samples)⟩)
  | [], c => (List.append_nil c.models).symm
  | m :: ms, c => by
    have hmodels : (c.addModel m).models = c.models ++
        [⟨m.path, m.name, m.groups.map SourceGroup.id, wrap (m.tree.numPaths * m.samples)⟩] := by
      unfold addModel
      dsimp only
      split
      · rw [models_foldl_allocate]
      · rfl
    rw [List.foldl_cons, models_foldl_addModel ms, hmodels, List.append_assoc]
    rfl

theorem mem_groupsAt {ms : List (SourceModel S W)} {path : List String} {g : GroupId} :
    g ∈ (ofModels ms).groupsAt path ↔ ∃ m ∈ ms, m.path = path ∧ g ∈ m.groups.map SourceGroup.id := by
  rw [groupsAt, ofModels, models_foldl_addModel]
  simp [empty, and_assoc]

theorem isSome_collection?_of_sibling {ms : List (SourceModel S W)}
    (groups : ((ms.flatMap SourceModel.groups).map SourceGroup.id).Nodup) {m : SourceModel S W} (hm : m ∈ ms)
    (oversampled : 1 < m.samples) {g g' : GroupId} (hg : g ∈ m.groups.map SourceGroup.id)
    (hg' : g' ∈ m.groups.map SourceGroup.id) {i : Nat} (h : ((ofModels ms).collection? g i).isSome = true) :
    ((ofModels ms).collection? g' i).isSome = true := by
  obtain ⟨m', hm', hs', hmem, hi⟩ := (collection?_ofModels ms g i).1 h
  -- the model that gave it is drawn as often, as the group tells how often
  have hdraws := (get?_draws_ofModels groups).2 (mem_blocks.2 ⟨m, hm, oversampled, hg, rfl⟩)
  rw [(get?_draws_ofModels groups).2 (mem_blocks.2 ⟨m', hm', hs', hmem, rfl⟩)] at hdraws
  have hsamples : m'.samples = m.samples := Option.some.inj hdraws
  exact (collection?_ofModels ms g' i).2 ⟨m, hm, oversampled, hg', hsamples ▸ hi⟩

/-- What the groups of some collections are, of those that were given out to some models. -/
structure Owners (ms : List (SourceModel S W)) (cols : SortedSet CollectionId) (gs : List GroupId) : Prop where
  /-- In the order in which they were given theirs, the groups that have one of the collections, -/
  ordered : gs = ((blocks ms).map Prod.fst).filter (fun g => ((ofModels ms).collectionsOf g).any cols.contains)
  /-- so that all that one group was given come before those of the next. -/
  earlier : gs.Pairwise (ofModels ms).Earlier
  /-- Each is listed once. -/
  once : gs.Nodup
  /-- Those are listed that a draw was given one of the collections for. -/
  owning : ∀ g, g ∈ gs ↔ ∃ i col, (ofModels ms).collection? g i = some col ∧ cols.contains col = true

theorem owners_groupsOf {ms : List (SourceModel S W)}
    (groups : ((ms.flatMap SourceModel.groups).map SourceGroup.id).Nodup) (cols : SortedSet CollectionId) :
    Owners ms cols ((ofModels ms).groupsOf cols.keys) := by
  constructor
  case ordered => exact groupsOf_eq groups cols
  case earlier => exact pairwise_groupsOf groups cols
  case once => exact nodup_groupsOf groups cols
  case owning =>
    intro g
    rw [mem_groupsOf (fresh_ofModels ms)]
    constructor
    · rintro ⟨col, ⟨i, hcol⟩, hin⟩
      exact ⟨i, col, hcol, hin⟩
    · rintro ⟨i, col, hcol, hin⟩
      exact ⟨col, ⟨i, hcol⟩, hin⟩

end Composition

namespace Composite

/-! ## Composites of models -/

/-- The collections of a composite are those of models with the paths, samples and groups of its own. -/
structure MadeOf (ms : List (SourceModel S W)) (c : Composite S W) : Prop where
  composition : c.composition = .ofModels ms
  outlines : c.models.map SourceModel.outline = ms.map SourceModel.outline

theorem madeOf_ofModels (ms : List (SourceModel S W)) (sampling : SamplingSettings) :
    (ofModels ms sampling).MadeOf ms := ⟨rfl, rfl⟩

variable {ms : List (SourceModel S W)} {c : Composite S W}

theorem MadeOf.exists_model (h : c.MadeOf ms) {m : SourceModel S W} (hm : m ∈ c.models) :
    ∃ m' ∈ ms, m'.path = m.path ∧ m'.samples = m.samples ∧
      m'.groups.map SourceGroup.id = m.groups.map SourceGroup.id := by
  have hmem : m.outline ∈ ms.map SourceModel.outline := h.outlines ▸ List.mem_map_of_mem hm
  obtain ⟨m', hm', heq⟩ := List.mem_map.1 hmem
  obtain ⟨hpath, hrest⟩ := Prod.mk.inj heq
  obtain ⟨hsamples, hgroups⟩ := Prod.mk.inj hrest
  exact ⟨m', hm', hpath, hsamples, hgroups⟩

theorem MadeOf.of_forall₂ (h : c.MadeOf ms) {c' : Composite S W} (hc : c'.composition = c.composition)
    (hm : List.Forall₂ (fun m m' => m.outline = m'.outline) c.models c'.models) : c'.MadeOf ms :=
  ⟨hc.trans h.composition, (map_eq_of_forall₂ (fun _ _ heq => heq) hm).symm.trans h.outlines⟩

/-! ## Draws -/

structure DrawnFrom (c : Composite S W) (a : Association W) (n : Nat) (r : Realization W) (m : SourceModel S W)
    (i : Nat) : Prop where
  path : r.path = m.path
  listed : ∀ k, n ∈ a.ordinals k ↔ k ∈ Association.linkKeys r.choice m.groups
  collections : r.collections =
    .ofList (Association.drawnCollections c.composition m.samples i (Association.linkKeys r.choice m.groups))

variable {a : Association W} {n : Nat} {r : Realization W}

/-- The groups that are relevant for the realization at a position are those that list it. -/
structure Relevant (a : Association W) (n : Nat) (r : Realization W) : Prop where
  /-- Each group with a key that lists it is relevant, -/
  found : ∀ k, n ∈ a.ordinals k → k.group ∈ r.relevantGroups a.composition
  /-- and only such a group if it has collections; -/
  used : r.collections.isEmpty = false →
    ∀ g, g ∈ r.relevantGroups a.composition ↔ ∃ gsim, n ∈ a.ordinals ⟨g, gsim⟩
  /-- then none is named twice. -/
  once : r.collections.isEmpty = false → (r.relevantGroups a.composition).Nodup

variable {m : SourceModel S W} {i : Nat}

theorem DrawnFrom.contains_iff (h : c.DrawnFrom a n r m i) {col : CollectionId} :
    r.collections.contains col = true ↔
      1 < m.samples ∧ ∃ k, n ∈ a.ordinals k ∧ c.composition.collection? k.group i = some col := by
  simp only [h.listed]
  rw [h.collections, SortedSet.contains_ofList, Association.drawnCollections]
  by_cases hs : 1 < m.samples <;> simp [hs]

theorem DrawnFrom.mem_groups (h : c.DrawnFrom a n r m i) {k : AssocKey} (hk : n ∈ a.ordinals k) :
    k.group ∈ m.groups.map SourceGroup.id := by
  obtain ⟨g, hg, hid, -⟩ := Association.mem_linkKeys.1 ((h.listed k).1 hk)
  exact List.mem_map.2 ⟨g, hg, hid⟩

/-- **The owners of the collections of a draw are the groups that list it**, if it has collections. -/
theorem DrawnFrom.owning_iff (groups : ((ms.flatMap SourceModel.groups).map SourceGroup.id).Nodup)
    (made : c.MadeOf ms) (hm : m ∈ c.models) (h : c.DrawnFrom a n r m i) (hne : r.collections.isEmpty = false)
    (g : GroupId) :
    (∃ j col, (Composition.ofModels ms).collection? g j = some col ∧ r.collections.contains col = true) ↔
      ∃ gsim, n ∈ a.ordinals ⟨g, gsim⟩ := by
  have hcontains : ∀ col, r.collections.contains col = true ↔ 1 < m.samples ∧
      ∃ k, n ∈ a.ordinals k ∧ (Composition.ofModels ms).collection? k.group i = some col := fun col =>
    made.composition ▸ h.contains_iff
  constructor
  · rintro ⟨j, col, hcol, hin⟩
    obtain ⟨-, k, hk, hcol'⟩ := (hcontains col).1 hin
    obtain ⟨rfl, -⟩ := (Composition.fresh_ofModels ms).apart hcol' hcol
    exact ⟨k.gsim, hk⟩
  · rintro ⟨gsim, hk⟩
    -- the draw has a collection for some group, so it has one for this
    obtain ⟨m', hm', -, hsamples, hids⟩ := made.exists_model hm
    obtain ⟨col, hin⟩ := SortedMap.exists_contains hne
    obtain ⟨hs, k, hk', hcol⟩ := (hcontains col).1 hin
    have hgiven : ((Composition.ofModels ms).collection? k.group i).isSome = true := by rw [hcol]; rfl
    have hsibling := Composition.isSome_collection?_of_sibling groups hm' (hsamples ▸ hs) (hids ▸ h.mem_groups hk')
      (hids ▸ h.mem_groups hk) hgiven
    obtain ⟨col', hcol'⟩ := Option.isSome_iff_exists.1 hsibling
    exact ⟨i, col', hcol', (hcontains col').2 ⟨hs, _, hk, hcol'⟩⟩

theorem DrawnFrom.relevant (groups : ((ms.flatMap SourceModel.groups).map SourceGroup.id).Nodup) (made : c.MadeOf ms)
    (hc : a.composition = c.composition) (hm : m ∈ c.models) (h : c.DrawnFrom a n r m i) : Relevant a n r := by
  have howners : r.collections.isEmpty = false →
      Composition.Owners ms r.collections (r.relevantGroups a.composition) := by
    intro hne
    rw [hc, made.composition, Realization.relevantGroups, hne]
    exact Composition.owners_groupsOf groups r.collections
  have hused : r.collections.isEmpty = false →
      ∀ g, g ∈ r.relevantGroups a.composition ↔ ∃ gsim, n ∈ a.ordinals ⟨g, gsim⟩ := fun hne g =>
    ((howners hne).owning g).trans (h.owning_iff groups made hm hne g)
  refine ⟨fun k hk => ?_, hused, fun hne => (howners hne).once⟩
  cases hne : r.collections.isEmpty with
  | false => exact (hused hne k.group).2 ⟨k.gsim, hk⟩
  | true =>
    obtain ⟨m', hm', hpath, -, hids⟩ := made.exists_model hm
    rw [hc, made.composition, Realization.relevantGroups, hne]
    exact Composition.mem_groupsAt.2 ⟨m', hm', hpath.trans h.path.symm, hids ▸ h.mem_groups hk⟩

/-! ## Operations -/

theorem outline_of_regrouped {R : SourceGroup S → SourceGroup S → Prop} (hR : ∀ g g', R g g' → g.id = g'.id)
    {m m' : SourceModel S W} (h : Regrouped R m m') : m.outline = m'.outline := by
  obtain ⟨hm, hgroups⟩ := h
  rw [SourceModel.outline, map_eq_of_forall₂ hR hgroups, hm]
  rfl

theorem outline_of_rebuilt [Scalar W] {weight : SourceGroup S → W} {m m' : SourceModel S W}
    (h : Association.Rebuilt weight m m') : m.outline = m'.outline := by
  rcases h with rfl | h
  · rfl
  · exact outline_of_regrouped (m := m.reduceToLive weight) (fun _ _ htold => htold.id_eq.symm) h

theorem MadeOf.mapGroups (h : c.MadeOf ms) {f : SourceGroup S → SourceGroup S} (hf : ∀ g, (f g).id = g.id) :
    (c.mapGroups f).MadeOf ms :=
  h.of_forall₂ rfl (forall₂_map_self (fun m => by simp [SourceModel.outline, hf]) c.models)

theorem MadeOf.processWith [Source S] (h : c.MadeOf ms) (p : Processor S) (runHeavy : List (GroupId × S) → Half S)
    (stamp : PassStamp) : (p.processWith runHeavy stamp c).composite.MadeOf ms := by
  rcases p.processWith_cases runHeavy stamp c with ⟨e, -, hc⟩ | ⟨report, sources, haccepts, -, hc⟩
  · rwa [hc]
  · have hgroups := forall₂_zipWith (fun _ _ haccept => SourceGroup.continues_refill haccept) haccepts
    rw [hc]
    exact h.of_forall₂ rfl ((forall₂_regroup hgroups).imp fun _ _ hm =>
      outline_of_regrouped (fun _ _ hg => hg.id_eq.symm) hm)

variable [Scalar W] {weight : SourceGroup S → W}

theorem MadeOf.associateBy (h : c.MadeOf ms) (weight : SourceGroup S → W) : (c.associateBy weight).1.MadeOf ms :=
  h.of_forall₂ rfl ((forall₂_associateBy weight c).imp fun _ _ => outline_of_rebuilt)

/-- **An operation keeps paths, samples and groups**, whether it succeeds or not. -/
theorem MadeOf.apply [Source S] (h : c.MadeOf ms) (op : Operation S W) : (c.apply op).MadeOf ms := by
  have hcount : ∀ force, (c.countRuptures force).MadeOf ms := fun force =>
    h.mapGroups fun g => (SourceGroup.continues_countRuptures force g).id_eq
  cases op with
  | flatten => exact h.mapGroups fun g => rfl
  | countRuptures force => exact hcount force
  | process p runHeavy stamp => exact h.processWith p runHeavy stamp
  | associate => exact (hcount false).associateBy ruptureCount
  | associateBy weight => exact h.associateBy weight

theorem madeOf_run [Source S] : ∀ (ops : List (Operation S W)) {c : Composite S W}, c.MadeOf ms → (c.run ops).MadeOf ms
  | [], _, h => h
  | op :: ops, _, h => madeOf_run ops (h.apply op)

/-! ## Built associations -/

theorem composition_associateBy (h : (c.associateBy weight).2 = .ok a) : a.composition = c.composition := by
  obtain ⟨b, f, rfl, hadd⟩ := associateBy_added h
  exact Association.composition_addModels _ _ _ _ _ hadd

/-- **Every realization is drawn from a model**, also if numbers of models repeat. -/
theorem exists_drawnFrom (h : (c.associateBy weight).2 = .ok a) (hr : a.realizations[n]? = some r) :
    ∃ m ∈ c.models, ∃ i, c.DrawnFrom a n r m i := by
  have hcomposition := composition_associateBy h
  obtain ⟨b, f, rfl, hadd⟩ := associateBy_added h
  obtain ⟨cs, hcs, hb, -⟩ := Association.exists_contributions hadd
  change (b.realizations.map _)[n]? = some r at hr
  rw [List.getElem?_map] at hr
  obtain ⟨r, hbefore, rfl⟩ := Option.map_eq_some_iff.1 hr
  obtain ⟨o, ho⟩ : ∃ o, (cs.flatMap Association.Contribution.origins)[n]? = some o :=
    ⟨_, List.getElem?_eq_getElem (hb.length_eq ▸ (List.getElem?_eq_some_iff.1 hbefore).1)⟩
  obtain rfl := Option.some.inj ((hb.realization_eq ho).symm.trans hbefore)
  obtain ⟨m, hm, hom, -⟩ := Association.exists_model_of_mem hcs (List.mem_of_getElem? ho)
  have hpath : o.model.path = m.path := by rw [hom]; rfl
  have hsamples : o.model.samples = m.samples := by rw [hom]; rfl
  have hkeys : o.keys = Association.linkKeys o.path m.groups := by rw [Origin.keys, hom]; rfl
  refine ⟨m, (byOrdinal_perm c.models).mem_iff.1 hm, o.draw, ?_, fun k => ?_, ?_⟩
  · exact hpath
  · exact hkeys ▸ hb.mem_ordinals ho k
  · change o.collections b.composition = _
    rw [Origin.collections, hkeys, hsamples]
    exact congrArg (fun c => SortedSet.ofList (Association.drawnCollections c m.samples o.draw _)) hcomposition

structure RelevantGroups (ms : List (SourceModel S W)) : Prop where
  /-- A realization with collections, whatever they are, has the groups that were given one of them. -/
  collected : ∀ r : Realization W, r.collections.isEmpty = false →
    Composition.Owners ms r.collections (r.relevantGroups (.ofModels ms))
  /-- A realization of an association that was built has the groups that list it. -/
  associated : ∀ (c : Composite S W) (weight : SourceGroup S → W) (a : Association W), c.MadeOf ms →
    (c.associateBy weight).2 = .ok a → ∀ n r, a.realizations[n]? = some r → Relevant a n r

/-- **No relevant group is missing and none is repeated**, if groups are told apart. -/
theorem relevant_groups_exact (ms : List (SourceModel S W))
    (groups : ((ms.flatMap SourceModel.groups).map SourceGroup.id).Nodup) : RelevantGroups ms := by
  constructor
  case collected =>
    intro r hne
    rw [Realization.relevantGroups, hne]
    exact Composition.owners_groupsOf groups r.collections
  case associated =>
    intro c weight a made h n r hr
    obtain ⟨m, hm, i, hd⟩ := exists_drawnFrom h hr
    exact hd.relevant groups made (composition_associateBy h) hm

/-- A model that is drawn twice and one that is drawn once, with numbers of groups in no order. -/
def crossed : List (SourceModel Strip Rat) :=
  let active := ("Active", [⟨"b1", "A", 1 / 2⟩, ⟨"b2", "B", 1 / 2⟩])
  let stable := ("Stable", [⟨"b3", "C", 1⟩])
  let volcanic := ("Volcanic", [⟨"b4", "D", 1⟩])
  [⟨"twice", 1 / 2, ["s1"], [{ id := ⟨7⟩, trt := "Active", ruptures := 3 }, { id := ⟨3⟩, trt := "Volcanic" },
      { id := ⟨5⟩, trt := "Stable", ruptures := 2 }], ⟨.ofList [active, stable, volcanic]⟩, 1, 2⟩,
   ⟨"once", 1 / 2, ["s2"], [{ id := ⟨6⟩, trt := "Active", ruptures := 1 }, { id := ⟨4⟩, trt := "Stable" }],
      ⟨.ofList [active, stable]⟩, 0, 1⟩]

def crossedLater : Composite Strip Rat :=
  (ofModels crossed { samples := 3 }).run [.flatten, .countRuptures false, .associateBy ruptureCount]

/-- A realization that no association has: its collections belong to two draws, and one of them to no group. -/
def straddling : Realization Rat := ⟨9, [], .start 1, 1, .ofList [⟨5⟩, ⟨8⟩, ⟨2⟩, ⟨4⟩]⟩

theorem relevant_groups_exact_crossed : ((crossed.flatMap SourceModel.groups).map SourceGroup.id).Nodup ∧
    RelevantGroups crossed ∧ straddling.relevantGroups (.ofModels crossed) = [⟨3⟩, ⟨5⟩] ∧
    ∃ a, crossedLater.MadeOf crossed ∧ (crossedLater.associateBy ruptureCount).2 = .ok a ∧
      (∀ n r, a.realizations[n]? = some r → Relevant a n r) ∧
      a.realizations.map (Realization.relevantGroups a.composition) = [[⟨6⟩, ⟨4⟩], [⟨7⟩, ⟨5⟩], [⟨7⟩, ⟨5⟩]] := by
  have groups : ((crossed.flatMap SourceModel.groups).map SourceGroup.id).Nodup := by decide +kernel
  have relevant := relevant_groups_exact crossed groups
  have made : crossedLater.MadeOf crossed := madeOf_run _ (madeOf_ofModels crossed _)
  have named : (crossedLater.associateBy ruptureCount).2.toOption.map (fun a =>
      a.realizations.map (Realization.relevantGroups a.composition)) = some [[⟨6⟩, ⟨4⟩], [⟨7⟩, ⟨5⟩], [⟨7⟩, ⟨5⟩]] := by
    decide +kernel
  obtain ⟨a, ha, hnamed⟩ := Outcome.map_toOption_eq_some.1 named
  exact ⟨groups, relevant, by decide +kernel, a, made, ha,
    relevant.associated crossedLater ruptureCount a made ha, hnamed⟩

end Composite
end SeismicHazard
