import SeismicHazard.Proofs.Association.Routing
/-!
# Completeness — which live groups a realization is listed for

A realization is meant to be listed under exactly one key of every live group of its model.  A build keeps that promise
for the groups whose tectonic region type has a branch set in the tree of the model, and for no others
(`live_groups_listed`): a live group that the tree does not know passes the builder, the reduction and the linking, and
is then missing from the association without a failure (`forgets_live_group`).
-/
namespace SeismicHazard

variable {S W : Type}

theorem eq_singleton_of_mem_iff {α : Type} {l : List α} {a : α} (hl : l.Nodup) (h : ∀ b, b ∈ l ↔ b = a) : l = [a] :=
  List.perm_singleton.1 ((List.perm_ext_iff_of_nodup hl (List.nodup_singleton a)).2 fun b => by simp [h])

namespace Association

def keysListing (a : Association W) (g : GroupId) (n : Nat) : List AssocKey :=
  a.index.keys.filter (fun k => decide (k.group = g ∧ n ∈ a.ordinals k))

theorem mem_keysListing {a : Association W} {g : GroupId} {n : Nat} {k : AssocKey} :
    k ∈ a.keysListing g n ↔ k.group = g ∧ n ∈ a.ordinals k := by
  rw [keysListing, List.mem_filter, decide_eq_true_iff, SortedMap.mem_keys]
  constructor
  · exact fun h => h.2
  · -- a key that lists a position is in the index
    intro h
    cases hget : a.index.get? k with
    | none => simp [ordinals, hget] at h
    | some l => exact ⟨⟨l, rfl⟩, h⟩

theorem nodup_keysListing (a : Association W) (g : GroupId) (n : Nat) : (a.keysListing g n).Nodup :=
  a.index.nodup_keys.filter _

end Association

namespace Composite

variable [Scalar W]

/-- **The promise**: every realization of a model is listed under exactly one key of each live group of the model. -/
def ListsLiveGroups (weight : SourceGroup S → W) (c : Composite S W) (a : Association W) : Prop :=
  ∀ m ∈ c.models, ∀ r ∈ a.realizationsOf m.ordinal, ∀ g ∈ m.groups, Scalar.isPositive (weight g) = true →
    (a.keysListing g.id r.ordinal).length = 1

instance (weight : SourceGroup S → W) (c : Composite S W) (a : Association W) :
    Decidable (c.ListsLiveGroups weight a) :=
  inferInstanceAs (Decidable (∀ m ∈ c.models, ∀ r ∈ a.realizationsOf m.ordinal, ∀ g ∈ m.groups,
    Scalar.isPositive (weight g) = true → (a.keysListing g.id r.ordinal).length = 1))

variable {weight : SourceGroup S → W} {c : Composite S W} {a : Association W} {m : SourceModel S W} {i : Nat}
  {r : Realization W} {g : SourceGroup S}

/-- A draw is listed for a group that its model uses under the key with the ground motion model that it chose. -/
theorem IsDraw.keysListing_of_uses (h : c.IsDraw weight a m i r) (ids : (m.groups.map SourceGroup.id).Nodup)
    (hg : m.Uses weight g) :
    ∃ gsim, r.choice.gsim? g.trt = some gsim ∧ a.keysListing g.id r.ordinal = [⟨g.id, gsim⟩] := by
  obtain ⟨gsim, hgsim⟩ := Option.isSome_iff_exists.1 ((h.covers g.trt).2 hg.2)
  refine ⟨gsim, hgsim, eq_singleton_of_mem_iff (a.nodup_keysListing g.id r.ordinal) fun k => ?_⟩
  rw [Association.mem_keysListing, h.listed]
  have hkeys (hk : k.group = g.id) : k ∈ Association.linkKeys r.choice m.groups ↔ k = ⟨g.id, gsim⟩ :=
    Origin.mem_keys_iff (o := ⟨m, i, r.choice⟩) ids hg.1 hgsim hk
  constructor
  · rintro ⟨hk, hlisted⟩
    exact (hkeys hk).1 hlisted
  · rintro rfl
    exact ⟨rfl, (hkeys rfl).2 rfl⟩

theorem IsDraw.keysListing_of_not_uses (h : c.IsDraw weight a m i r) (ids : (m.groups.map SourceGroup.id).Nodup)
    (hg : g ∈ m.groups) (hnot : ¬m.Uses weight g) : a.keysListing g.id r.ordinal = [] := by
  refine List.eq_nil_iff_forall_not_mem.2 fun k hk => ?_
  rw [Association.mem_keysListing, h.listed, Association.mem_linkKeys] at hk
  obtain ⟨hk, g', hg', hid, hgsim⟩ := hk
  obtain rfl : g' = g := List.inj_on_of_nodup_map ids hg' hg (hid.trans hk)
  exact hnot ⟨hg, (h.covers g'.trt).1 (by simp [hgsim])⟩

/-- **A group is used if it is live and the tree knows its tectonic region type**; no other group of the model can make
that type live. -/
theorem uses_iff (weight : SourceGroup S → W) (apart : (m.groups.map SourceGroup.trt).Nodup) (hg : g ∈ m.groups) :
    m.Uses weight g ↔ Scalar.isPositive (weight g) = true ∧ g.trt ∈ m.tree.trts := by
  change g ∈ m.groups ∧ g.trt ∈ (m.tree.reduce (m.liveTrts weight)).trts ↔ _
  rw [BranchSetTree.mem_trts_reduce, SourceModel.contains_liveTrts]
  constructor
  · rintro ⟨-, htree, g', hg', htrt, hlive⟩
    obtain rfl : g' = g := List.inj_on_of_nodup_map apart hg' hg htrt
    exact ⟨hlive, htree⟩
  · rintro ⟨hlive, htree⟩
    exact ⟨hg, htree, g, hg, rfl, hlive⟩

structure ListsCoveredGroups (weight : SourceGroup S → W) (c : Composite S W) (a : Association W) : Prop where
  /-- A live group that the tree knows lists it under one key, that of the ground motion model that it chose. -/
  listed : ∀ m ∈ c.models, ∀ r ∈ a.realizationsOf m.ordinal, ∀ g ∈ m.groups, Scalar.isPositive (weight g) = true →
    g.trt ∈ m.tree.trts → ∃ gsim, r.choice.gsim? g.trt = some gsim ∧ a.keysListing g.id r.ordinal = [⟨g.id, gsim⟩]
  /-- A live group that the tree does not know is forgotten. -/
  forgotten : ∀ m ∈ c.models, ∀ r ∈ a.realizationsOf m.ordinal, ∀ g ∈ m.groups, Scalar.isPositive (weight g) = true →
    g.trt ∉ m.tree.trts → a.keysListing g.id r.ordinal = []
  dropped : ∀ m ∈ c.models, ∀ r ∈ a.realizationsOf m.ordinal, ∀ g ∈ m.groups, Scalar.isPositive (weight g) = false →
    a.keysListing g.id r.ordinal = []
  /-- So the promise is kept exactly if the trees of the models that contributed know all their live groups. -/
  complete : c.ListsLiveGroups weight a ↔ ∀ m ∈ c.models, a.realizationsOf m.ordinal ≠ [] → ∀ g ∈ m.groups,
    Scalar.isPositive (weight g) = true → g.trt ∈ m.tree.trts

/-- **A realization is listed for the live groups that its tree knows, and for no others.** -/
theorem live_groups_listed [Source S] {sampling : SamplingSettings} {branches : List (ModelBranch S W)}
    {c : Composite S W} (built : build sampling branches = .ok c) (weight : SourceGroup S → W) (a : Association W)
    (h : (c.associateBy weight).2 = .ok a) : c.ListsCoveredGroups weight a := by
  have hc := consistent_build built
  have hids (m : SourceModel S W) (hm : m ∈ c.models) : (m.groups.map SourceGroup.id).Nodup :=
    hc.nodup_ids.sublist ((sublist_groups hm).map SourceGroup.id)
  have hdraw (m : SourceModel S W) (hm : m ∈ c.models) (r : Realization W) (hr : r ∈ a.realizationsOf m.ordinal) :
      ∃ i, c.IsDraw weight a m i r := by
    obtain ⟨i, hi⟩ := List.mem_iff_getElem?.1 hr
    exact ⟨i, (isDraw_of_associateBy hc.nodup_ordinals h).2 m hm i r hi⟩
  have huses (m : SourceModel S W) (hm : m ∈ c.models) (g : SourceGroup S) (hg : g ∈ m.groups) :=
    uses_iff weight (hc.sound m hm).apart hg
  have listed : ∀ m ∈ c.models, ∀ r ∈ a.realizationsOf m.ordinal, ∀ g ∈ m.groups,
      Scalar.isPositive (weight g) = true → g.trt ∈ m.tree.trts →
      ∃ gsim, r.choice.gsim? g.trt = some gsim ∧ a.keysListing g.id r.ordinal = [⟨g.id, gsim⟩] := by
    intro m hm r hr g hg hlive htree
    obtain ⟨i, hd⟩ := hdraw m hm r hr
    exact hd.keysListing_of_uses (hids m hm) ((huses m hm g hg).2 ⟨hlive, htree⟩)
  have unlisted : ∀ m ∈ c.models, ∀ r ∈ a.realizationsOf m.ordinal, ∀ g ∈ m.groups,
      ¬(Scalar.isPositive (weight g) = true ∧ g.trt ∈ m.tree.trts) → a.keysListing g.id r.ordinal = [] := by
    intro m hm r hr g hg hnot
    obtain ⟨i, hd⟩ := hdraw m hm r hr
    exact hd.keysListing_of_not_uses (hids m hm) hg fun hu => hnot ((huses m hm g hg).1 hu)
  constructor
  case listed => exact listed
  case forgotten => exact fun m hm r hr g hg _ htree => unlisted m hm r hr g hg fun hand => htree hand.2
  case dropped => exact fun m hm r hr g hg hdead => unlisted m hm r hr g hg fun hand => by simp [hdead] at hand
  case complete =>
    constructor
    · intro hall m hm hne g hg hlive
      obtain ⟨r, hr⟩ := List.exists_mem_of_ne_nil _ hne
      by_contra htree
      have hone := hall m hm r hr g hg hlive
      rw [unlisted m hm r hr g hg fun hand => htree hand.2] at hone
      simp at hone
    · intro hknown m hm r hr g hg hlive
      obtain ⟨gsim, -, hkeys⟩ := listed m hm r hr g hg hlive (hknown m hm (List.ne_nil_of_mem hr) g hg hlive)
      simp [hkeys]

def halfKnown : List (ModelBranch Strip Float) :=
  [{ name := "m", weight := 1, tree := ⟨.ofList [("Active", [⟨"b1", "A", 1⟩])]⟩,
     sources := [{ id := "a", trt := "Active" }, { id := "b", trt := "Stable" }] }]

theorem live_groups_listed_halfKnown : ∃ c a, build {} halfKnown = .ok c ∧ (c.associateBy (fun _ => 1)).2 = .ok a ∧
    c.ListsCoveredGroups (fun _ => 1) a ∧ a.keysListing ⟨1⟩ 0 = [⟨⟨1⟩, "A"⟩] ∧ a.keysListing ⟨2⟩ 0 = [] := by
  have keys : (build {} halfKnown).toOption.bind (fun c => (c.associateBy (fun _ => 1)).2.toOption.map (fun a =>
      (a.keysListing ⟨1⟩ 0, a.keysListing ⟨2⟩ 0))) = some ([⟨⟨1⟩, "A"⟩], []) := by
    decide +kernel
  obtain ⟨c, hc, hkeys⟩ := Outcome.bind_toOption_eq_some.1 keys
  obtain ⟨a, ha, hkeys⟩ := Outcome.map_toOption_eq_some.1 hkeys
  obtain ⟨hknown, hunknown⟩ := Prod.mk.inj hkeys
  exact ⟨c, a, hc, ha, live_groups_listed hc (fun _ => 1) a ha, hknown, hunknown⟩

/-- **The promise is broken**: the second group is live and its model contributed, and yet no key of the group lists the
realization. -/
theorem forgets_live_group : ∃ c a, build {} halfKnown = .ok c ∧ (c.associateBy (fun _ => 1)).2 = .ok a ∧
    ¬c.ListsLiveGroups (fun _ => 1) a := by
  have broken : (build {} halfKnown).toOption.bind (fun c => (c.associateBy (fun _ => 1)).2.toOption.map (fun a =>
      decide (c.ListsLiveGroups (fun _ => 1) a))) = some false := by
    decide +kernel
  obtain ⟨c, hc, hbroken⟩ := Outcome.bind_toOption_eq_some.1 broken
  obtain ⟨a, ha, hbroken⟩ := Outcome.map_toOption_eq_some.1 hbroken
  exact ⟨c, a, hc, ha, of_decide_eq_false hbroken⟩

end Composite
end SeismicHazard
