import SeismicHazard.Proofs.Association.Origins
import SeismicHazard.Proofs.LogicTree.Coverage
import Mathlib.Data.List.Nodup
/-!
# Reverse index — every realization is found under the keys that it uses

The index of an association is filled while models, paths and groups are gone through.  `reverse_index_exact` says what
it holds in the end: for a group whose tectonic region type the tree of the model kept, a realization of that model is
listed under the one key with the ground motion model that it chose, once; for any other group it is not listed.
-/
namespace SeismicHazard

variable {S W : Type}

/-! ## Positions in a list of repeated numbers -/

theorem le_of_mem_flatMap_replicate {α : Type} {f : α → Nat} {l : List α} {n i : Nat}
    (h : i ∈ (l.zipIdx n).flatMap (fun a => List.replicate (f a.1) a.2)) : n ≤ i := by
  obtain ⟨a, ha, hi⟩ := List.mem_flatMap.1 h
  rw [List.eq_of_mem_replicate hi]
  exact List.le_snd_of_mem_zipIdx ha

theorem count_flatMap_replicate {α : Type} (f : α → Nat) (i : Nat) : ∀ (l : List α) (n : Nat), n ≤ i →
    ((l.zipIdx n).flatMap (fun a => List.replicate (f a.1) a.2)).count i = ((l[i - n]?).map f).getD 0
  | [], n, _ => by simp
  | a :: l, n, h => by
    rw [List.zipIdx_cons, List.flatMap_cons, List.count_append, List.count_replicate]
    rcases Nat.lt_or_eq_of_le h with hlt | rfl
    · have hsub : i - n = (i - (n + 1)) + 1 := by omega
      rw [count_flatMap_replicate f i l (n + 1) hlt, if_neg (by simpa using Nat.ne_of_lt hlt), Nat.zero_add, hsub,
        List.getElem?_cons_succ]
    · have hnone : ((l.zipIdx (n + 1)).flatMap (fun a => List.replicate (f a.1) a.2)).count n = 0 :=
        List.count_eq_zero.2 fun hm => absurd (le_of_mem_flatMap_replicate hm) (by omega)
      simp [hnone]

theorem pairwise_flatMap_replicate {α : Type} {f : α → Nat} : ∀ {l : List α} (n : Nat), (∀ a ∈ l, f a ≤ 1) →
    ((l.zipIdx n).flatMap (fun a => List.replicate (f a.1) a.2)).Pairwise (· < ·)
  | [], _, _ => .nil
  | a :: l, n, h => by
    rw [List.zipIdx_cons, List.flatMap_cons]
    refine List.pairwise_append.2 ⟨?_, ?_, fun i hi j hj => ?_⟩
    · have := h a (List.mem_cons_self ..)
      rcases Nat.le_one_iff_eq_zero_or_eq_one.1 this with h0 | h1
      · simp [h0]
      · simp [h1]
    · exact pairwise_flatMap_replicate (n + 1) fun b hb => h b (List.mem_cons_of_mem _ hb)
    · rw [List.eq_of_mem_replicate hi]
      exact le_of_mem_flatMap_replicate hj

/-! ## Keys of an origin -/

/-- **The keys of a covered group**: the one with the ground motion model of the path. -/
theorem Origin.mem_keys_iff {o : Origin S W} (hn : (o.model.groups.map SourceGroup.id).Nodup) {g : SourceGroup S}
    (hg : g ∈ o.model.groups) {gsim : String} (h : o.path.gsim? g.trt = some gsim) {k : AssocKey}
    (hk : k.group = g.id) : k ∈ o.keys ↔ k = ⟨g.id, gsim⟩ := by
  rw [Origin.keys, Association.mem_linkKeys]
  constructor
  · rintro ⟨g', hg', hid, hgsim⟩
    have hgg : g' = g := List.inj_on_of_nodup_map hn hg' hg (hid.trans hk)
    rw [hgg, h] at hgsim
    cases k
    cases hk
    cases hgsim
    rfl
  · rintro rfl
    exact ⟨g, hg, rfl, h⟩

theorem SourceModel.covers_of_paths [Scalar W] {sampling : SamplingSettings} {m : SourceModel S W}
    {ps : List (ChoicePath W)} (h : m.paths sampling = .ok ps) : ∀ p ∈ ps, p.Covers m.tree.trts := by
  unfold SourceModel.paths at h
  split at h
  · obtain ⟨⟨qs, g⟩, hs, rfl⟩ := Outcome.map_eq_ok.1 h
    exact BranchSetTree.covers_of_sample hs
  · cases h
    exact fun p hp => BranchSetTree.covers_of_mem_enumerate hp

namespace Association

/-! ## Listing -/

/-- A realization is listed for a group once, under the key with the ground motion model that it chose, and under no
other key. -/
structure ListedUnder (a : Association W) (r : Realization W) (g : SourceGroup S) (gsim : String) : Prop where
  /-- The path of the realization chooses the ground motion model. -/
  chosen : r.choice.gsim? g.trt = some gsim
  tabled : (a.gsimByTrt[r.ordinal]?).bind (fun choices => choices.get? g.trt) = some gsim
  once : (a.ordinals ⟨g.id, gsim⟩).count r.ordinal = 1
  only : ∀ k, k.group = g.id → r.ordinal ∈ a.ordinals k → k = ⟨g.id, gsim⟩

def Unlisted (a : Association W) (r : Realization W) (g : SourceGroup S) : Prop :=
  ∀ k, k.group = g.id → r.ordinal ∉ a.ordinals k

theorem ListedUnder.reweight {a : Association W} {r : Realization W} {g : SourceGroup S} {gsim : String}
    (h : a.ListedUnder r g gsim) (f : W → W) : (a.reweight f).ListedUnder r g gsim :=
  ⟨h.chosen, h.tabled, h.once, h.only⟩

variable [Scalar W]

/-- An origin of a build comes from one of the models, and its path covers the reduced tree. -/
theorem exists_model_of_mem {sampling : SamplingSettings} {weight : SourceGroup S → W} {ms : List (SourceModel S W)}
    {cs : List (Contribution S W)} (h : List.Forall₂ (Contributes sampling weight) ms cs) {o : Origin S W}
    (ho : o ∈ cs.flatMap Contribution.origins) :
    ∃ m ∈ ms, o.model = m.reduceToLive weight ∧ o.path.Covers (m.reduceToLive weight).tree.trts := by
  induction h with
  | nil => cases ho
  | cons hc _ ih =>
    rcases List.mem_append.1 ho with ho | ho
    · obtain ⟨hm, hp⟩ := SourceModel.mem_originsFrom ho
      refine ⟨_, List.mem_cons_self .., hm.trans hc.1, ?_⟩
      rw [← hc.1]
      exact SourceModel.covers_of_paths hc.2 _ hp
    · obtain ⟨m, hmem, hm⟩ := ih ho
      exact ⟨m, List.mem_cons_of_mem _ hmem, hm⟩

/-! ## What the index holds -/

variable {os : List (Origin S W)} {a : Association W}

theorem BuiltFrom.count_ordinals (h : a.BuiltFrom os) (k : AssocKey) (n : Nat) :
    (a.ordinals k).count n = ((os[n]?).map (fun o => o.keys.count k)).getD 0 := by
  rw [h.ordinals, count_flatMap_replicate (fun o : Origin S W => o.keys.count k) n os 0 (Nat.zero_le n)]
  rfl

theorem BuiltFrom.mem_ordinals (h : a.BuiltFrom os) {n : Nat} {o : Origin S W} (ho : os[n]? = some o) (k : AssocKey) :
    n ∈ a.ordinals k ↔ k ∈ o.keys := by
  rw [← List.count_pos_iff, h.count_ordinals, ho, ← List.count_pos_iff]
  rfl

theorem BuiltFrom.increasing (h : a.BuiltFrom os) (hk : ∀ o ∈ os, o.keys.Nodup) (k : AssocKey) :
    (a.ordinals k).Pairwise (· < ·) := by
  rw [h.ordinals]
  exact pairwise_flatMap_replicate 0 fun o ho => List.nodup_iff_count_le_one.1 (hk o ho) k

theorem BuiltFrom.realization_eq (h : a.BuiltFrom os) {n : Nat} {o : Origin S W} (ho : os[n]? = some o) :
    a.realizations[n]? = some (o.realization a.composition n) := by
  rw [h.realizations, List.getElem?_map, List.getElem?_zipIdx, ho]
  simp

theorem Attributed.exists_origin (hr : a.Attributed os) {i : Nat} {r : Realization W} (h : r ∈ a.realizationsOf i) :
    ∃ o, os[r.ordinal]? = some o ∧ o.model.ordinal = i ∧ r = o.realization a.composition r.ordinal := by
  rw [hr.realizationsOf] at h
  obtain ⟨o, ho, rfl⟩ := List.mem_map.1 h
  obtain ⟨ho, hi⟩ := List.mem_filter.1 ho
  exact ⟨o.1, List.mem_zipIdx_iff_getElem?.1 ho, by simpa using hi, rfl⟩

/-! ## Exactness -/

theorem BuiltFrom.listedUnder (h : a.BuiltFrom os) {r : Realization W} {o : Origin S W}
    (ho : os[r.ordinal]? = some o) (hr : r.choice = o.path) (hn : (o.model.groups.map SourceGroup.id).Nodup)
    {g : SourceGroup S} (hg : g ∈ o.model.groups) (hc : (o.path.gsim? g.trt).isSome) :
    ∃ gsim, a.ListedUnder r g gsim := by
  obtain ⟨gsim, hgsim⟩ := Option.isSome_iff_exists.1 hc
  have hmem : (⟨g.id, gsim⟩ : AssocKey) ∈ o.keys := (Origin.mem_keys_iff hn hg hgsim rfl).2 rfl
  refine ⟨gsim, ?_, ?_, ?_, fun k hk hlist => ?_⟩
  · rw [hr]
    exact hgsim
  · rw [h.tabled, List.getElem?_map, ho]
    exact hgsim
  · rw [h.count_ordinals, ho]
    exact List.count_eq_one_of_mem (nodup_linkKeys o.path hn) hmem
  · exact (Origin.mem_keys_iff hn hg hgsim hk).1 ((h.mem_ordinals ho k).1 hlist)

theorem BuiltFrom.unlisted (h : a.BuiltFrom os) {r : Realization W} {o : Origin S W} (ho : os[r.ordinal]? = some o)
    {g : SourceGroup S} (hg : ∀ g' ∈ o.model.groups, g'.id = g.id → o.path.gsim? g'.trt = none) : Unlisted a r g := by
  intro k hk hlist
  obtain ⟨g', hg', hid, hgsim⟩ := mem_linkKeys.1 ((h.mem_ordinals ho k).1 hlist)
  rw [hg g' hg' (hid.trans hk)] at hgsim
  cases hgsim

end Association

/-- The group belongs to the model, and the tree of the model, reduced to its live tectonic region types, has branches
for the group. -/
def SourceModel.Uses [Scalar W] (weight : SourceGroup S → W) (m : SourceModel S W) (g : SourceGroup S) : Prop :=
  g ∈ m.groups ∧ g.trt ∈ (m.reduceToLive weight).tree.trts

namespace Composite

structure ReverseIndexed [Scalar W] (weight : SourceGroup S → W) (c : Composite S W) (a : Association W) : Prop where
  attributed : ∀ r ∈ a.realizations, ∃ m ∈ c.models, r ∈ a.realizationsOf m.ordinal
  /-- A group that the model of a realization uses lists it once, under the ground motion model that it chose. -/
  listed : ∀ m ∈ c.models, ∀ r ∈ a.realizationsOf m.ordinal, ∀ g ∈ c.groups, m.Uses weight g →
    ∃ gsim, a.ListedUnder r g gsim
  unlisted : ∀ m ∈ c.models, ∀ r ∈ a.realizationsOf m.ordinal, ∀ g ∈ c.groups, ¬ m.Uses weight g → a.Unlisted r g
  nonempty : ∀ k, a.index.get? k ≠ some []
  increasing : ∀ k l, a.index.get? k = some l → l.Pairwise (· < ·)

theorem sublist_groups {c : Composite S W} {m : SourceModel S W} (h : m ∈ c.models) : m.groups.Sublist c.groups :=
  List.sublist_flatten_of_mem (List.mem_map_of_mem h)

variable [Scalar W]

/-- An association of models with different numbers, and the origins that it comes from. -/
theorem exists_origins {weight : SourceGroup S → W} {c : Composite S W}
    (models : (c.models.map SourceModel.ordinal).Nodup) {a : Association W} (h : (c.associateBy weight).2 = .ok a) :
    ∃ os : List (Origin S W), ∃ b : Association W, ∃ f, b.BuiltFrom os ∧ b.Attributed os ∧ a = b.reweight f ∧
      ∀ o ∈ os, ∃ m ∈ c.models, o.model = m.reduceToLive weight ∧
        o.path.Covers (m.reduceToLive weight).tree.trts := by
  obtain ⟨cs, b, f, hcs, hb, hf, hattr⟩ := associateBy_ok h
  refine ⟨_, b, f, hb, hattr models, hf, fun o ho => ?_⟩
  obtain ⟨m, hm, hom⟩ := Association.exists_model_of_mem hcs ho
  exact ⟨m, (byOrdinal_perm c.models).mem_iff.1 hm, hom⟩

/-- **The reverse index is exact.** -/
theorem reverse_index_exact (weight : SourceGroup S → W) (c : Composite S W)
    (groups : (c.groups.map SourceGroup.id).Nodup) (models : (c.models.map SourceModel.ordinal).Nodup)
    (a : Association W) (h : (c.associateBy weight).2 = .ok a) : c.ReverseIndexed weight a := by
  obtain ⟨os, b, f, hb, hr, rfl, horigin⟩ := exists_origins models h
  have hids : ∀ m ∈ c.models, (m.groups.map SourceGroup.id).Nodup := fun m hm =>
    groups.sublist ((sublist_groups hm).map SourceGroup.id)
  -- a realization of a model comes from an origin of the same model
  have hfrom : ∀ m ∈ c.models, ∀ r ∈ (b.reweight f).realizationsOf m.ordinal, ∃ o, os[r.ordinal]? = some o ∧
      r.choice = o.path ∧ o.model.groups = m.groups ∧ o.path.Covers (m.reduceToLive weight).tree.trts := by
    intro m hm r hmem
    rw [Association.realizationsOf_reweight] at hmem
    obtain ⟨r, hr', rfl⟩ := List.mem_map.1 hmem
    obtain ⟨o, ho, hord, hro⟩ := hr.exists_origin hr'
    obtain ⟨m', hm', hom, hcov⟩ := horigin o (List.mem_of_getElem? ho)
    rw [hom] at hord
    obtain rfl : m' = m := List.inj_on_of_nodup_map models hm' hm hord
    exact ⟨o, ho, by rw [hro]; rfl, by rw [hom]; rfl, hcov⟩
  constructor
  case attributed =>
    intro r hmem
    obtain ⟨r, hr', rfl⟩ := List.mem_map.1 hmem
    rw [hb.realizations] at hr'
    obtain ⟨o, ho, rfl⟩ := List.mem_map.1 hr'
    obtain ⟨m, hm, hom, -⟩ := horigin o.1 (List.fst_mem_of_mem_zipIdx ho)
    refine ⟨m, hm, ?_⟩
    rw [Association.realizationsOf_reweight, hr.realizationsOf]
    refine List.mem_map_of_mem (List.mem_map_of_mem (List.mem_filter.2 ⟨ho, ?_⟩))
    rw [hom]
    exact decide_eq_true rfl
  case listed =>
    rintro m hm r hmem g - ⟨hg, htrt⟩
    obtain ⟨o, ho, hchoice, hgroups, hcov⟩ := hfrom m hm r hmem
    rw [← hgroups] at hg
    obtain ⟨gsim, hl⟩ := hb.listedUnder ho hchoice (hgroups ▸ hids m hm) hg ((hcov g.trt).2 htrt)
    exact ⟨gsim, hl.reweight f⟩
  case unlisted =>
    intro m hm r hmem g hg hnot
    obtain ⟨o, ho, -, hgroups, hcov⟩ := hfrom m hm r hmem
    refine hb.unlisted ho fun g' hg' hid => ?_
    rw [hgroups] at hg'
    obtain rfl : g' = g := List.inj_on_of_nodup_map groups ((sublist_groups hm).subset hg') hg hid
    rw [← Option.not_isSome_iff_eq_none, hcov]
    exact fun htrt => hnot ⟨hg', htrt⟩
  case nonempty => exact hb.listed
  case increasing =>
    intro k l hl
    have hord : b.ordinals k = l := by
      change (b.index.get? k).getD [] = l
      change b.index.get? k = some l at hl
      rw [hl]
      rfl
    rw [← hord]
    refine hb.increasing (fun o ho => ?_) k
    obtain ⟨m, hm, hom, -⟩ := horigin o ho
    rw [Origin.keys, hom]
    exact Association.nodup_linkKeys _ (hids m hm)

/-- Two models out of order.  Both branches of a set of the first name one ground motion model, and another set has no
live group. -/
def outOfOrder : Composite Unit Rat :=
  let active := ("Active", [⟨"b1", "A", 1 / 2⟩, ⟨"b2", "A", 1 / 2⟩])
  let stable := ("Stable", [⟨"b3", "B", 1⟩])
  let later := ("Active", [⟨"b1", "A", 1 / 3⟩, ⟨"b4", "C", 2 / 3⟩])
  .ofModels [
    ⟨"second", 1 / 2, ["s2"], [{ id := ⟨1⟩, trt := "Active", ruptures := 4 }, { id := ⟨2⟩, trt := "Stable" }],
      ⟨.ofList [active, stable]⟩, 1, 1⟩,
    ⟨"first", 1 / 2, ["s1"], [{ id := ⟨3⟩, trt := "Active", ruptures := 2 }], ⟨.ofList [later]⟩, 0, 1⟩] {}

theorem reverse_index_exact_outOfOrder : (outOfOrder.groups.map SourceGroup.id).Nodup ∧
    (outOfOrder.models.map SourceModel.ordinal).Nodup ∧
    ∃ a, (outOfOrder.associateBy ruptureCount).2 = .ok a ∧ outOfOrder.ReverseIndexed ruptureCount a ∧
      a.ordinals ⟨⟨1⟩, "A"⟩ = [2, 3] ∧ a.ordinals ⟨⟨2⟩, "B"⟩ = [] ∧ a.ordinals ⟨⟨3⟩, "C"⟩ = [1] := by
  have groups : (outOfOrder.groups.map SourceGroup.id).Nodup := by decide +kernel
  have models : (outOfOrder.models.map SourceModel.ordinal).Nodup := by decide +kernel
  have keys : (outOfOrder.associateBy ruptureCount).2.toOption.map (fun a =>
      [a.ordinals ⟨⟨1⟩, "A"⟩, a.ordinals ⟨⟨2⟩, "B"⟩, a.ordinals ⟨⟨3⟩, "C"⟩]) = some [[2, 3], [], [1]] := by
    decide +kernel
  refine ⟨groups, models, ?_⟩
  cases h : (outOfOrder.associateBy ruptureCount).2 with
  | error e =>
    rw [h] at keys
    cases keys
  | ok a =>
    rw [h] at keys
    simp only [Except.toOption, Option.map_some, Option.some.injEq, List.cons.injEq, and_true] at keys
    exact ⟨a, rfl, reverse_index_exact ruptureCount outOfOrder groups models a h, keys⟩

end Composite
end SeismicHazard
