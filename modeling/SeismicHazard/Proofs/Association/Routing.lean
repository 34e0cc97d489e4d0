import SeismicHazard.Proofs.Association.Combining
import SeismicHazard.Proofs.Association.Partition
import SeismicHazard.Proofs.Association.Reducing
import SeismicHazard.Proofs.Association.ReverseIndex
import SeismicHazard.Proofs.Composite.Branches
import SeismicHazard.Proofs.Composite.Consistency
import SeismicHazard.Source.Strip
import Mathlib.Data.List.Pairwise
/-!
# Routing — each collection goes to one draw

A realization of a model that is drawn more than once has the collections of its draw, one for each group that the model
uses, and no other realization has one of them: a collection tells its group, the group its model, and the collection
also the draw.  So a tagged value of such a model reaches the one realization of the draw that its tag names, if that
draw chose the ground motion model of the value (`draws_routed`).
-/
namespace SeismicHazard

variable {S W : Type}

namespace Association

/-! ## Positions and draws -/

structure DrawnAt [Scalar W] (os : List (Origin S W)) (a : Association W) (n : Nat) (o : Origin S W)
    (r : Realization W) : Prop where
  origin : os[n]? = some o
  realization : a.realizations[n]? = some r
  part : (a.realizationsOf o.model.ordinal)[o.draw]? = some r
  ordinal : r.ordinal = n
  choice : r.choice = o.path
  collections : r.collections = o.collections a.composition

theorem getElem?_origins (x : Contribution S W) (i : Nat) :
    x.origins[i]? = (x.paths[i]?).map (fun p => ⟨x.model, i, p⟩) := by
  rw [Contribution.origins, SourceModel.originsFrom, List.getElem?_map, List.getElem?_zipIdx, Option.map_map,
    Nat.zero_add]
  rfl

variable [Scalar W] {cs : List (Contribution S W)} {a : Association W}

theorem exists_first (ha : a.Attributed (cs.flatMap Contribution.origins))
    (hn : (cs.map (fun c => c.model.ordinal)).Nodup) {x : Contribution S W} (hx : x ∈ cs) : ∃ first,
      (∀ i, (a.realizationsOf x.model.ordinal)[i]? =
        (x.origins[i]?).map (fun o : Origin S W => o.realization a.composition (first + i))) ∧
      ∀ n (o : Origin S W), ((cs.flatMap Contribution.origins)[n]? = some o ∧ o.model.ordinal = x.model.ordinal) ↔
        first ≤ n ∧ x.origins[n - first]? = some o := by
  obtain ⟨first, hfirst⟩ := filter_origins 0 hn x hx
  refine ⟨first, fun i => ?_, fun n o => ?_⟩
  · rw [ha.realizationsOf, originated, hfirst, List.getElem?_map, List.getElem?_zipIdx, Option.map_map]
    rfl
  · have hmem : (o, n) ∈ ((cs.flatMap Contribution.origins).zipIdx 0).filter
        (fun o => o.1.model.ordinal = x.model.ordinal) ↔ (o, n) ∈ x.origins.zipIdx first := by rw [hfirst]
    rw [List.mem_filter, List.mem_zipIdx_iff_getElem?, List.mk_mem_zipIdx_iff_le_and_getElem?_sub,
      decide_eq_true_iff] at hmem
    exact hmem

/-- **Every origin is drawn**: its realization stands at its position and is that of its draw. -/
theorem exists_drawnAt (hb : a.BuiltFrom (cs.flatMap Contribution.origins))
    (ha : a.Attributed (cs.flatMap Contribution.origins)) (hn : (cs.map (fun c => c.model.ordinal)).Nodup)
    {n : Nat} {o : Origin S W} (ho : (cs.flatMap Contribution.origins)[n]? = some o) :
    ∃ r, DrawnAt (cs.flatMap Contribution.origins) a n o r := by
  obtain ⟨x, hx, hox⟩ := List.mem_flatMap.1 (List.mem_of_getElem? ho)
  have hmodel : o.model = x.model := (SourceModel.mem_originsFrom hox).1
  obtain ⟨first, hpart, hpos⟩ := exists_first ha hn hx
  obtain ⟨hle, hget⟩ := (hpos n o).1 ⟨ho, by rw [hmodel]⟩
  have hdraw : o.draw = n - first := by
    rw [getElem?_origins] at hget
    obtain ⟨p, -, rfl⟩ := Option.map_eq_some_iff.1 hget
    rfl
  refine ⟨o.realization a.composition n, ho, hb.realization_eq ho, ?_, rfl, rfl, rfl⟩
  rw [hmodel, hdraw, hpart, hget, Nat.add_sub_cancel' hle]
  rfl

theorem exists_drawnAt_of_part (hb : a.BuiltFrom (cs.flatMap Contribution.origins))
    (ha : a.Attributed (cs.flatMap Contribution.origins)) (hn : (cs.map (fun c => c.model.ordinal)).Nodup)
    {x : Contribution S W} (hx : x ∈ cs) {i : Nat} {r : Realization W}
    (hr : (a.realizationsOf x.model.ordinal)[i]? = some r) :
    ∃ n o, DrawnAt (cs.flatMap Contribution.origins) a n o r ∧ o.model = x.model ∧ o.draw = i := by
  obtain ⟨first, hpart, hpos⟩ := exists_first ha hn hx
  obtain ⟨o, ho, -⟩ := Option.map_eq_some_iff.1 ((hpart i).symm.trans hr)
  obtain ⟨hn', -⟩ := (hpos (first + i) o).2 ⟨Nat.le_add_right .., by rwa [Nat.add_sub_cancel_left]⟩
  rw [getElem?_origins] at ho
  obtain ⟨p, -, rfl⟩ := Option.map_eq_some_iff.1 ho
  obtain ⟨r', hr'⟩ := exists_drawnAt hb ha hn hn'
  obtain rfl : r' = r := Option.some.inj (hr'.part.symm.trans hr)
  exact ⟨_, _, hr', rfl, rfl⟩

theorem DrawnAt.reweight {os : List (Origin S W)} {n : Nat} {o : Origin S W} {r : Realization W}
    (h : DrawnAt os a n o r) (f : W → W) : DrawnAt os (a.reweight f) n o { r with weight := f r.weight } := by
  refine ⟨h.origin, ?_, ?_, h.ordinal, h.choice, h.collections⟩
  · change (a.realizations.map _)[n]? = _
    rw [List.getElem?_map, h.realization]
    rfl
  · rw [realizationsOf_reweight, List.getElem?_map, h.part]
    rfl

theorem composition_addModels (sampling : SamplingSettings) (weight : SourceGroup S → W) :
    ∀ (ms : List (SourceModel S W)) (a a' : Association W), (addModels sampling weight ms a).2 = .ok a' →
      a'.composition = a.composition
  | [], _, _, h => by
    cases h
    rfl
  | m :: ms, a, a', h => by
    rw [addModels] at h
    dsimp only at h
    split at h
    · cases h
    · rename_i b hb
      exact (composition_addModels sampling weight ms b a' h).trans (composition_addModel hb)

end Association

namespace SourceModel

variable [Scalar W]

theorem isEmpty_of_yields {sampling : SamplingSettings} {m : SourceModel S W} (h : m.Yields sampling) :
    m.tree.sets.isEmpty = false := by
  obtain ⟨ps, hps, hne⟩ := h
  refine Bool.eq_false_iff.2 fun hempty => hne ?_
  unfold paths at hps
  split at hps
  · obtain ⟨⟨qs, g⟩, hqs, rfl⟩ := Outcome.map_eq_ok.1 hps
    have hlen := BranchSetTree.length_of_sample hqs
    rw [if_pos hempty] at hlen
    exact List.eq_nil_of_length_eq_zero hlen
  · cases hps
    rw [BranchSetTree.enumerate, if_pos hempty]

theorem exists_uses {sampling : SamplingSettings} {weight : SourceGroup S → W} {m : SourceModel S W}
    (h : (m.reduceToLive weight).Yields sampling) : ∃ g, m.Uses weight g := by
  obtain ⟨e, he⟩ := List.exists_mem_of_ne_nil _ fun hnil : (m.reduceToLive weight).tree.sets.entries = [] => by
    have hempty := isEmpty_of_yields h
    unfold SortedMap.isEmpty at hempty
    rw [hnil] at hempty
    cases hempty
  obtain ⟨g, hg, htrt, -⟩ := (contains_liveTrts weight m e.1).1 (List.mem_filter.1 he).2
  refine ⟨g, hg, ?_⟩
  rw [htrt]
  exact List.mem_map_of_mem he

end SourceModel

namespace Composite

/-! ## Built associations -/

theorem eq_of_shared_group {c : Composite S W} (groups : (c.groups.map SourceGroup.id).Nodup)
    {m m' : SourceModel S W} (hm : m ∈ c.models) (hm' : m' ∈ c.models) {g g' : SourceGroup S} (hg : g ∈ m.groups)
    (hg' : g' ∈ m'.groups) (hid : g.id = g'.id) : m = m' ∧ g = g' := by
  have hgg : g = g' := List.inj_on_of_nodup_map groups ((sublist_groups hm).subset hg)
    ((sublist_groups hm').subset hg') hid
  refine ⟨?_, hgg⟩
  subst hgg
  by_contra hne
  have happart := (List.nodup_flatMap.1 (List.Nodup.of_map _ groups)).2
  have : Std.Symm (Function.onFun List.Disjoint (SourceModel.groups (S := S) (W := W))) :=
    ⟨fun _ _ h _ hg hg' => h hg' hg⟩
  exact happart.forall hm hm' hne hg hg'

variable [Scalar W]

/-- The realization of a draw of a model in an association that was built for a composite. -/
structure IsDraw (weight : SourceGroup S → W) (c : Composite S W) (a : Association W) (m : SourceModel S W) (i : Nat)
    (r : Realization W) : Prop where
  part : (a.realizationsOf m.ordinal)[i]? = some r
  position : a.realizations[r.ordinal]? = some r
  covers : r.choice.Covers (m.reduceToLive weight).tree.trts
  listed : ∀ k, r.ordinal ∈ a.ordinals k ↔ k ∈ Association.linkKeys r.choice m.groups
  collections : r.collections =
    .ofList (Association.drawnCollections c.composition m.samples i (Association.linkKeys r.choice m.groups))

theorem isDraw_of_drawnAt {weight : SourceGroup S → W} {c : Composite S W} {ms : List (SourceModel S W)}
    {cs : List (Association.Contribution S W)} (hcs : List.Forall₂ (Association.Contributes c.sampling weight) ms cs)
    {b : Association W} (hb : b.BuiltFrom (cs.flatMap Association.Contribution.origins))
    (hc : b.composition = c.composition) {f : W → W} {n : Nat} {o : Origin S W} {r : Realization W}
    (hd : (b.reweight f).DrawnAt (cs.flatMap Association.Contribution.origins) n o r) {m : SourceModel S W}
    (hom : o.model = m.reduceToLive weight) : c.IsDraw weight (b.reweight f) m o.draw r := by
  obtain ⟨m', -, hom', hcov⟩ := Association.exists_model_of_mem hcs (List.mem_of_getElem? hd.origin)
  refine ⟨?_, ?_, ?_, fun k => ?_, ?_⟩
  · have hpart := hd.part
    rwa [hom] at hpart
  · rw [hd.ordinal]
    exact hd.realization
  · rw [hd.choice, ← hom, hom']
    exact hcov
  · rw [hd.ordinal, hd.choice]
    refine (hb.mem_ordinals hd.origin k).trans ?_
    rw [Origin.keys, hom]
    rfl
  · rw [hd.collections, hd.choice]
    change o.collections b.composition = _
    rw [hc, Origin.collections, Origin.keys, hom]
    rfl

/-- **A built association consists of draws**: every realization is one, and so is every place in a part. -/
theorem isDraw_of_associateBy {weight : SourceGroup S → W} {c : Composite S W}
    (models : (c.models.map SourceModel.ordinal).Nodup) {a : Association W} (h : (c.associateBy weight).2 = .ok a) :
    (∀ n r, a.realizations[n]? = some r → r.ordinal = n ∧ ∃ m ∈ c.models, ∃ i, c.IsDraw weight a m i r) ∧
      ∀ m ∈ c.models, ∀ i r, (a.realizationsOf m.ordinal)[i]? = some r → c.IsDraw weight a m i r := by
  obtain ⟨b, f, rfl, hadd⟩ := associateBy_added h
  obtain ⟨cs, hcs, hb, hattr⟩ := Association.exists_contributions hadd
  have hn : (((byOrdinal c.models).map Prod.fst).map SourceModel.ordinal).Nodup :=
    (byOrdinal_increasing models).imp Nat.ne_of_lt
  have ha := hattr hn
  have hc : b.composition = c.composition := Association.composition_addModels _ _ _ _ _ hadd
  rw [Association.ordinals_contributions hcs] at hn
  constructor
  · intro n r hr
    have hlt : n < (cs.flatMap Association.Contribution.origins).length := by
      rw [← hb.length_eq, ← List.length_map (fun r : Realization W => { r with weight := f r.weight })]
      exact (List.getElem?_eq_some_iff.1 hr).1
    have ho := List.getElem?_eq_getElem hlt
    obtain ⟨r', hr'⟩ := Association.exists_drawnAt hb ha hn ho
    have hd := hr'.reweight f
    obtain ⟨m, hm, hom, -⟩ := Association.exists_model_of_mem hcs (List.mem_of_getElem? ho)
    obtain rfl := Option.some.inj (hd.realization.symm.trans hr)
    exact ⟨hd.ordinal, m, (byOrdinal_perm c.models).mem_iff.1 hm, _, isDraw_of_drawnAt hcs hb hc hd hom⟩
  · intro m hm i r hr
    obtain ⟨x, hx, hmodel, -⟩ := exists_right_of_forall₂ hcs m ((byOrdinal_perm c.models).mem_iff.2 hm)
    have hord : m.ordinal = x.model.ordinal := by rw [hmodel]; rfl
    rw [Association.realizationsOf_reweight, List.getElem?_map, hord] at hr
    obtain ⟨r', hr', rfl⟩ := Option.map_eq_some_iff.1 hr
    obtain ⟨n, o, hd, hom, rfl⟩ := Association.exists_drawnAt_of_part hb ha hn hx hr'
    exact isDraw_of_drawnAt hcs hb hc (hd.reweight f) (hom.trans hmodel)

/-! ## Collections -/

variable {weight : SourceGroup S → W} {c : Composite S W} {a : Association W} {m : SourceModel S W} {i : Nat}
  {r : Realization W}

/-- **The collections of a draw are those of the groups that its model uses**, if the model is drawn more than once. -/
theorem IsDraw.contains_iff (h : c.IsDraw weight a m i r) {col : CollectionId} :
    r.collections.contains col = true ↔
      1 < m.samples ∧ ∃ g, m.Uses weight g ∧ c.composition.collection? g.id i = some col := by
  rw [h.collections, SortedSet.contains_ofList, Association.drawnCollections]
  by_cases hs : 1 < m.samples
  · rw [if_pos hs, List.mem_filterMap]
    simp only [hs, true_and]
    constructor
    · rintro ⟨k, hk, hcol⟩
      obtain ⟨g, hg, hid, hgsim⟩ := Association.mem_linkKeys.1 hk
      refine ⟨g, ⟨hg, (h.covers g.trt).1 ?_⟩, hid ▸ hcol⟩
      rw [hgsim]
      rfl
    · rintro ⟨g, ⟨hg, htrt⟩, hcol⟩
      obtain ⟨gsim, hgsim⟩ := Option.isSome_iff_exists.1 ((h.covers g.trt).2 htrt)
      exact ⟨⟨g.id, gsim⟩, Association.mem_linkKeys.2 ⟨g, hg, rfl, hgsim⟩, hcol⟩
  · simp [hs]

theorem IsDraw.collections_eq_empty (h : c.IsDraw weight a m i r) (hs : ¬1 < m.samples) : r.collections = .empty := by
  rw [h.collections, Association.drawnCollections, if_neg hs]
  rfl

theorem IsDraw.eq_of_contains (groups : (c.groups.map SourceGroup.id).Nodup) (fresh : c.composition.Fresh)
    (h : c.IsDraw weight a m i r) (hm : m ∈ c.models) {m' : SourceModel S W} (hm' : m' ∈ c.models) {g : SourceGroup S}
    (hg : g ∈ m'.groups) {i' : Nat} {col : CollectionId} (hcol : c.composition.collection? g.id i' = some col)
    (hr : r.collections.contains col = true) : m = m' ∧ i = i' := by
  obtain ⟨-, g', hg', hcol'⟩ := h.contains_iff.1 hr
  obtain ⟨hid, hi⟩ := fresh.apart hcol' hcol
  exact ⟨(eq_of_shared_group groups hm hm' hg'.1 hg hid).1, hi⟩

/-- **A draw of a model that is drawn more than once has a collection**, as each group of the model has one for it. -/
theorem nonempty_of_associateBy [Source S] (hc : c.Consistent) (hs : c.sampling.isSampling = true)
    (h : (c.associateBy weight).2 = .ok a) (hm : m ∈ c.models) (oversampled : 1 < m.samples)
    (hr : (a.realizationsOf m.ordinal)[i]? = some r) :
    (∀ g ∈ m.groups, (c.composition.collection? g.id i).isSome = true) ∧ r.collections.isEmpty = false := by
  have hpart := contributed_of_associateBy hc.nodup_ordinals h hm
  have hne : a.realizationsOf m.ordinal ≠ [] := List.ne_nil_of_mem (List.mem_of_getElem? hr)
  have hi : i < m.samples := by
    have hlen := hpart.length_eq hne
    rw [if_pos hs] at hlen
    exact hlen ▸ (List.getElem?_eq_some_iff.1 hr).1
  have hcol : ∀ g ∈ m.groups, (c.composition.collection? g.id i).isSome = true := fun g hg =>
    (hc.collections g.id i).2 ⟨m, hm, oversampled, List.mem_map_of_mem hg, hi⟩
  have hyields : (m.reduceToLive weight).Yields c.sampling :=
    ⟨_, hpart.paths, fun hnil => hne (List.map_eq_nil_iff.1 hnil)⟩
  obtain ⟨g, hg⟩ := SourceModel.exists_uses hyields
  obtain ⟨col, hgcol⟩ := Option.isSome_iff_exists.1 (hcol g hg.1)
  have hd := (isDraw_of_associateBy hc.nodup_ordinals h).2 m hm i r hr
  exact ⟨hcol, SortedMap.isEmpty_of_contains (hd.contains_iff.2 ⟨oversampled, g, hg, hgcol⟩)⟩

theorem eq_of_shared_collection (groups : (c.groups.map SourceGroup.id).Nodup) (fresh : c.composition.Fresh)
    (draws : ∀ n r, a.realizations[n]? = some r → r.ordinal = n ∧ ∃ m ∈ c.models, ∃ i, c.IsDraw weight a m i r)
    {r' : Realization W} (hr : r ∈ a.realizations) (hr' : r' ∈ a.realizations) {col : CollectionId}
    (hcol : r.collections.contains col = true) (hcol' : r'.collections.contains col = true) : r = r' := by
  obtain ⟨n, hn⟩ := List.mem_iff_getElem?.1 hr
  obtain ⟨n', hn'⟩ := List.mem_iff_getElem?.1 hr'
  obtain ⟨-, m, hm, i, hd⟩ := draws n r hn
  obtain ⟨-, m', hm', i', hd'⟩ := draws n' r' hn'
  obtain ⟨-, g, hg, hg'⟩ := hd'.contains_iff.1 hcol'
  obtain ⟨rfl, rfl⟩ := hd.eq_of_contains groups fresh hm hm' hg.1 hg' hcol
  exact Option.some.inj (hd.part.symm.trans hd'.part)

/-! ## Tagged values -/

theorem nodup_listed (groups : (c.groups.map SourceGroup.id).Nodup) (models : (c.models.map SourceModel.ordinal).Nodup)
    (h : (c.associateBy weight).2 = .ok a) (k : AssocKey) : (a.ordinals k).Nodup := by
  obtain ⟨os, b, f, hb, -, rfl, horigin⟩ := exists_origins models h
  refine (hb.increasing (fun o ho => ?_) k).imp Nat.ne_of_lt
  obtain ⟨m, hm, hom, -⟩ := horigin o ho
  rw [Origin.keys, hom]
  exact Association.nodup_linkKeys _ (groups.sublist ((sublist_groups hm).map SourceGroup.id))

theorem takes_iff (groups : (c.groups.map SourceGroup.id).Nodup) (fresh : c.composition.Fresh)
    (draws : ∀ n r, a.realizations[n]? = some r → r.ordinal = n ∧ ∃ m ∈ c.models, ∃ i, c.IsDraw weight a m i r)
    (parts : ∀ i r, (a.realizationsOf m.ordinal)[i]? = some r →
      c.IsDraw weight a m i r ∧ r.collections.isEmpty = false)
    (hm : m ∈ c.models) (oversampled : 1 < m.samples) {g : SourceGroup S} (hg : g ∈ m.groups) {col : CollectionId}
    (hcol : c.composition.collection? g.id i = some col) {lookup : String → Except Failure CollectionId} {tag : String}
    (htag : lookup tag = .ok col) (gsim : String) (n : Nat) : a.takes lookup ⟨g.id, gsim⟩ tag n = true ↔
      ∃ r, (a.realizationsOf m.ordinal)[i]? = some r ∧ r.ordinal = n ∧ r.choice.gsim? g.trt = some gsim := by
  rw [Association.takes, Bool.and_eq_true, decide_eq_true_iff, Option.any_eq_true]
  constructor
  · rintro ⟨hlist, r, hr, hadmits⟩
    obtain ⟨hord, m', hm', i', hd⟩ := draws n r hr
    rw [← hord, hd.listed] at hlist
    obtain ⟨g', hg', hid, hgsim⟩ := Association.mem_linkKeys.1 hlist
    -- the key names the model, and the collection the draw
    obtain ⟨rfl, rfl⟩ := eq_of_shared_group groups hm' hm hg' hg hid
    rw [Association.admits_eq htag (parts i' r hd.part).2] at hadmits
    obtain ⟨-, rfl⟩ := hd.eq_of_contains groups fresh hm hm hg hcol hadmits
    exact ⟨r, hd.part, hord, hgsim⟩
  · rintro ⟨r, hr, rfl, hgsim⟩
    obtain ⟨hd, hne⟩ := parts i r hr
    have htrt : g.trt ∈ (m.reduceToLive weight).tree.trts := (hd.covers g.trt).1 (by rw [hgsim]; rfl)
    refine ⟨(hd.listed _).2 (Association.mem_linkKeys.2 ⟨g, hg, rfl, hgsim⟩), r, hd.position, ?_⟩
    rw [Association.admits_eq htag hne]
    exact hd.contains_iff.2 ⟨oversampled, g, ⟨hg, htrt⟩, hcol⟩

/-- How the collections of a composite and the values that are tagged with them reach the realizations. -/
structure DrawsRouted (weight : SourceGroup S → W) (c : Composite S W) (a : Association W) : Prop where
  /-- A draw of a model that is drawn more than once has exactly the collections of the groups that the model uses. -/
  collections : ∀ m ∈ c.models, 1 < m.samples → ∀ i r, (a.realizationsOf m.ordinal)[i]? = some r →
    ∀ col, r.collections.contains col = true ↔ ∃ g, m.Uses weight g ∧ c.composition.collection? g.id i = some col
  /-- Each of these groups has a collection for the draw, and there is at least one. -/
  nonempty : ∀ m ∈ c.models, 1 < m.samples → ∀ i r, (a.realizationsOf m.ordinal)[i]? = some r →
    (∀ g ∈ m.groups, (c.composition.collection? g.id i).isSome = true) ∧ r.collections.isEmpty = false
  once : ∀ m ∈ c.models, m.samples ≤ 1 → ∀ r ∈ a.realizationsOf m.ordinal, r.collections = .empty
  disjoint : ∀ r ∈ a.realizations, ∀ r' ∈ a.realizations, ∀ col,
    r.collections.contains col = true → r'.collections.contains col = true → r = r'
  /-- A value of a model that is drawn more than once is taken by the draw that its tag names, if that draw chose its
  ground motion model, and by no other realization. -/
  routed : ∀ m ∈ c.models, 1 < m.samples → ∀ g ∈ m.groups, ∀ i col, c.composition.collection? g.id i = some col →
    ∀ lookup tag, lookup tag = .ok col → ∀ gsim n, a.takes lookup ⟨g.id, gsim⟩ tag n = true ↔
      ∃ r, (a.realizationsOf m.ordinal)[i]? = some r ∧ r.ordinal = n ∧ r.choice.gsim? g.trt = some gsim
  /-- A combination folds into each realization exactly the values that it takes, each once and in order, and it comes
  to a value if all tags can be looked up. -/
  combined : ∀ {V : Type} (lookup : String → Except Failure CollectionId) (agg : V → V → V)
    (results : List (AssocKey × SortedMap String V)),
    (∀ tables, a.combineTagged lookup agg results = .ok tables → tables.length = a.realizations.length ∧ ∀ n tag,
      Association.valueAt tables n tag = Association.gather agg none
        (results.flatMap (fun e => if a.takes lookup e.1 tag n then (e.2.get? tag).toList else []))) ∧
    ((∀ e ∈ results, ∀ tag ∈ e.2.keys, ∃ col, lookup tag = .ok col) →
      ∃ tables, a.combineTagged lookup agg results = .ok tables)

/-- **Each collection is routed to one draw.** -/
theorem draws_routed [Source S] {sampling : SamplingSettings} {branches : List (ModelBranch S W)} {c : Composite S W}
    (built : build sampling branches = .ok c) (drawn : sampling.isSampling = true) (weight : SourceGroup S → W)
    (a : Association W) (h : (c.associateBy weight).2 = .ok a) : c.DrawsRouted weight a := by
  have hc := consistent_build built
  have fresh := fresh_build built
  have hsampling : c.sampling.isSampling = true := by rwa [(becomes_build built).1]
  obtain ⟨hdraws, hparts⟩ := isDraw_of_associateBy hc.nodup_ordinals h
  constructor
  case collections =>
    intro m hm hs i r hr col
    exact (hparts m hm i r hr).contains_iff.trans (and_iff_right hs)
  case nonempty => exact fun m hm hs i r hr => nonempty_of_associateBy hc hsampling h hm hs hr
  case once =>
    intro m hm hs r hr
    obtain ⟨i, hi⟩ := List.mem_iff_getElem?.1 hr
    exact (hparts m hm i r hi).collections_eq_empty (Nat.not_lt.2 hs)
  case disjoint => exact fun r hr r' hr' col => eq_of_shared_collection hc.nodup_ids fresh hdraws hr hr'
  case routed =>
    intro m hm hs g hg i col hcol lookup tag htag gsim n
    have hpart := fun i r hr => And.intro (hparts m hm i r hr) (nonempty_of_associateBy hc hsampling h hm hs hr).2
    exact takes_iff hc.nodup_ids fresh hdraws hpart hm hs hg hcol htag gsim n
  case combined =>
    intro V lookup agg results
    refine ⟨fun tables ht => ?_, Association.exists_combineTagged a⟩
    obtain ⟨hlen, hvalues⟩ := Association.combineTagged_ok ht
    refine ⟨hlen, fun n tag => ?_⟩
    rw [hvalues, Association.given_eq (nodup_listed hc.nodup_ids hc.nodup_ordinals h)]

def onceAndTwice : List (ModelBranch Strip Rat) :=
  let active := ("Active", [⟨"b1", "A", 1 / 2⟩, ⟨"b2", "B", 1 / 2⟩])
  let stable := ("Stable", [⟨"b3", "C", 1⟩])
  [{ name := "once", weight := 1 / 3, tree := ⟨.ofList [active]⟩, sources := [{ id := "a", trt := "Active" }] },
   { name := "twice", weight := 2 / 3, tree := ⟨.ofList [active, stable]⟩, samples := 2,
     sources := [{ id := "b", trt := "Active" }, { id := "c", trt := "Stable" }] }]

theorem draws_routed_onceAndTwice : ({ samples := 3 } : SamplingSettings).isSampling = true ∧
    ∃ c a, build { samples := 3 } onceAndTwice = .ok c ∧ (c.associateBy (fun _ => 1)).2 = .ok a ∧
      c.DrawsRouted (fun _ => 1) a ∧
      a.realizations.map (fun r => r.collections.keys) = [[], [⟨0⟩, ⟨2⟩], [⟨1⟩, ⟨3⟩]] := by
  have drawn : ({ samples := 3 } : SamplingSettings).isSampling = true := by decide
  have collections : (build { samples := 3 } onceAndTwice).toOption.bind (fun c =>
      (c.associateBy (fun _ => 1)).2.toOption.map (fun a => a.realizations.map (fun r => r.collections.keys))) =
        some [[], [⟨0⟩, ⟨2⟩], [⟨1⟩, ⟨3⟩]] := by
    decide +kernel
  cases hc : build { samples := 3 } onceAndTwice with
  | error f =>
    rw [hc] at collections
    cases collections
  | ok c =>
    rw [hc] at collections
    obtain ⟨a, ha, hcollections⟩ := Outcome.map_toOption_eq_some.1 collections
    exact ⟨drawn, c, a, rfl, ha, draws_routed hc drawn (fun _ => 1) a ha, hcollections⟩

end Composite
end SeismicHazard
