import SeismicHazard.Proofs.Association.Partition
import SeismicHazard.Proofs.LogicTree.Identifiers
/-!
# Identity — which realizations count as the same

Realizations are compared by their identifiers, and by nothing else.  Those of one source model have the same first
part, so they are as different as the paths through the tree of the model.  An enumeration takes each path once, and if
the branches of every set are told apart, no two of its realizations are the same (`paths_identified`).  It is not
enough that all branches of a tree have different identifiers (`identifiers_clash`).
-/
namespace SeismicHazard

variable {S W : Type}

theorem SortedSet.size_ofList {l : List String} (h : l.Nodup) : (SortedSet.ofList l).size = l.length := by
  have hkeys : (SortedSet.ofList l).keys.Perm l := by
    refine (List.perm_ext_iff_of_nodup (SortedMap.nodup_keys _) h).2 fun k => ?_
    rw [SortedMap.mem_keys, ← Option.isSome_iff_exists]
    exact SortedSet.contains_ofList
  rw [← hkeys.length_eq]
  exact (List.length_map _).symm

namespace Realization

/-- No two of some realizations count as the same, neither when they are compared nor in a set. -/
structure Distinct (rs : List (Realization W)) : Prop where
  compared : rs.Pairwise (fun r r' => r.agrees r' = false)
  counted : numDistinct rs = rs.length

theorem distinct_of_nodup {rs : List (Realization W)} (h : (rs.map uid).Nodup) : Distinct rs := by
  refine ⟨(List.pairwise_map.1 h).imp fun hne => decide_eq_false hne, ?_⟩
  rw [numDistinct, SortedSet.size_ofList h, List.length_map]

/-- **Realizations with one path of the source model are told apart by their other paths.** -/
theorem distinct_of_choices {rs : List (Realization W)} {path : List String} (hpath : ∀ r ∈ rs, r.path = path)
    (h : ((rs.map Realization.choice).map ChoicePath.uid).Nodup) : Distinct rs := by
  refine distinct_of_nodup ?_
  have huid : rs.map uid = ((rs.map Realization.choice).map ChoicePath.uid).map
      (fun x => "_".intercalate path ++ "," ++ x) := by
    rw [List.map_map, List.map_map]
    exact List.map_congr_left fun r hr => by rw [uid, hpath r hr]; rfl
  rw [huid]
  exact h.map fun x y => (String.append_right_inj _).1

end Realization

namespace Association

variable [Scalar W]

/-- **An enumerated part has different realizations** if the branches of each set are told apart. -/
theorem Contributed.distinct {sampling : SamplingSettings} (hs : sampling.isSampling = false) {m : SourceModel S W}
    (apart : m.tree.IdsApart) {rs : List (Realization W)} (h : Contributed sampling m rs) :
    Realization.Distinct rs := by
  refine Realization.distinct_of_choices h.path ?_
  rw [h.enumerated hs]
  exact (BranchSetTree.toldApart_enumerate apart).nodup

/-- The realizations of contributions, one after the other, are the parts of their models. -/
theorem exists_parts {sampling : SamplingSettings} {weight : SourceGroup S → W} (c : Composition) :
    ∀ {ms : List (SourceModel S W)} {cs : List (Contribution S W)}, List.Forall₂ (Contributes sampling weight) ms cs →
    ∀ n, ∃ parts, ((cs.flatMap Contribution.origins).zipIdx n).map (fun o => o.1.realization c o.2) = parts.flatten ∧
      List.Forall₂ (fun m part => Contributed sampling (m.reduceToLive weight) part) ms parts
  | _, _, .nil, _ => ⟨[], rfl, .nil⟩
  | _, _, .cons (a := m) (b := x) hx hxs, n => by
    obtain ⟨parts, hparts, hall⟩ := exists_parts c hxs (n + x.origins.length)
    have hpart : Contributed sampling (m.reduceToLive weight)
        ((x.origins.zipIdx n).map (fun o => o.1.realization c o.2)) := by
      rw [← hx.1]
      refine contributed_of_paths (fun r hr => ?_) ?_
      · obtain ⟨o, ho, rfl⟩ := List.mem_map.1 hr
        rw [← (SourceModel.mem_originsFrom (List.fst_mem_of_mem_zipIdx ho)).1]
        rfl
      · rw [hx.2, choices_of_origins]
    refine ⟨_ :: parts, ?_, .cons hpart hall⟩
    rw [List.flatMap_cons, List.zipIdx_append, List.map_append, hparts, List.flatten_cons]

end Association

namespace Composite

variable [Scalar W]

/-- **A built association has a part for each model**, in the order of their numbers, also if numbers repeat. -/
theorem exists_parts_of_associateBy {weight : SourceGroup S → W} {c : Composite S W} {a : Association W}
    (h : (c.associateBy weight).2 = .ok a) : ∃ parts, a.realizations = parts.flatten ∧
      List.Forall₂ (fun m part => Association.Contributed c.sampling (m.reduceToLive weight) part)
        ((byOrdinal c.models).map Prod.fst) parts := by
  obtain ⟨cs, b, f, hcs, hb, rfl, -⟩ := associateBy_ok h
  obtain ⟨parts, hparts, hall⟩ := Association.exists_parts b.composition hcs 0
  refine ⟨parts.map (List.map (fun r => { r with weight := f r.weight })), ?_, ?_⟩
  · change b.realizations.map _ = _
    rw [hb.realizations, hparts, List.map_flatten]
  · exact List.forall₂_map_right_iff.2 (hall.imp fun _ _ hpart => hpart.reweight f)

structure Identified (weight : SourceGroup S → W) (c : Composite S W) (a : Association W) : Prop where
  /-- The realizations are those of the models, one model after the other, and no two of one model are the same. -/
  parts : ∃ parts, a.realizations = parts.flatten ∧
    List.Forall₂ (fun m part => Association.Contributed c.sampling (m.reduceToLive weight) part ∧
      Realization.Distinct part) ((byOrdinal c.models).map Prod.fst) parts
  /-- If the models have different numbers, this is the part that is found by the number. -/
  found : (c.models.map SourceModel.ordinal).Nodup → ∀ m ∈ c.models, Realization.Distinct (a.realizationsOf m.ordinal)

/-- **Paths and realizations are identified** if no branch of a set goes on, behind an underscore, from the identifier
of another one: the paths of a tree have different identifiers, and so have the realizations of one model in an
enumeration.  Identifiers that differ and have no underscores are such identifiers. -/
theorem paths_identified :
    (∀ t : BranchSetTree W, t.IdsApart → (t.enumerate.map ChoicePath.uid).Nodup) ∧
    (∀ t : BranchSetTree W, (∀ s ∈ t.sets.toList, (s.2.map Branch.id).Nodup ∧ ∀ b ∈ s.2, '_' ∉ b.id.toList) →
      t.IdsApart) ∧
    ∀ (weight : SourceGroup S → W) (c : Composite S W), (∀ m ∈ c.models, m.tree.IdsApart) →
      c.sampling.isSampling = false → ∀ a, (c.associateBy weight).2 = .ok a → c.Identified weight a := by
  refine ⟨fun t h => (BranchSetTree.toldApart_enumerate h).nodup, fun t h s hs => ?_, ?_⟩
  · obtain ⟨hnodup, hplain⟩ := h s hs
    exact toldApart_of_no_underscore hnodup fun a ha => by
      obtain ⟨b, hb, rfl⟩ := List.mem_map.1 ha
      exact hplain b hb
  · intro weight c apart hs a h
    have hreduced : ∀ m ∈ c.models, (m.reduceToLive weight).tree.IdsApart := fun m hm => (apart m hm).reduce _
    constructor
    case parts =>
      obtain ⟨parts, hparts, hall⟩ := exists_parts_of_associateBy h
      have hordered : ∀ m ∈ (byOrdinal c.models).map Prod.fst, (m.reduceToLive weight).tree.IdsApart :=
        fun m hm => hreduced m ((byOrdinal_perm c.models).mem_iff.1 hm)
      refine ⟨parts, hparts, ((List.forall₂_and_left _ _).2 ⟨hordered, hall⟩).imp ?_⟩
      exact fun m part hpart => ⟨hpart.2, hpart.2.distinct hs hpart.1⟩
    case found => exact fun models m hm => (contributed_of_associateBy models h hm).distinct hs (hreduced m hm)

/-- Two sets whose branches have underscores in their identifiers, one of them in front of what comes next. -/
def underscored : BranchSetTree Rat := ⟨.ofList [("Active", [⟨"a", "A", 1 / 2⟩, ⟨"b_1", "B", 1 / 2⟩]),
  ("Stable", [⟨"c", "C", 1 / 2⟩, ⟨"1_c", "D", 1 / 2⟩])]⟩

def ofTree (t : BranchSetTree Rat) : Composite Unit Rat :=
  .ofModels [⟨"m", 1, ["m"], [{ id := ⟨1⟩, trt := "Active", ruptures := 1 },
    { id := ⟨2⟩, trt := "Stable", ruptures := 1 }], t, 0, 1⟩] {}

theorem paths_identified_underscored : underscored.IdsApart ∧
    (underscored.enumerate.map ChoicePath.uid).Nodup ∧
    underscored.enumerate.map ChoicePath.uid = ["a_c", "a_1_c", "b_1_c", "b_1_1_c"] ∧
    ∃ a, ((ofTree underscored).associateBy ruptureCount).2 = .ok a ∧
      (ofTree underscored).Identified ruptureCount a ∧ Realization.numDistinct a.realizations = 4 := by
  have apart : underscored.IdsApart := by
    unfold BranchSetTree.IdsApart
    decide +kernel
  have counted : ((ofTree underscored).associateBy ruptureCount).2.toOption.map (fun a =>
      Realization.numDistinct a.realizations) = some 4 := by
    decide +kernel
  obtain ⟨a, ha, hcounted⟩ := Outcome.map_toOption_eq_some.1 counted
  have hmodels : ∀ m ∈ (ofTree underscored).models, m.tree.IdsApart := fun m hm => by
    obtain rfl := List.mem_singleton.1 hm
    exact apart
  obtain ⟨hpaths, -, hrealizations⟩ := paths_identified (S := Unit) (W := Rat)
  exact ⟨apart, hpaths underscored apart, by decide +kernel, a, ha,
    hrealizations ruptureCount (ofTree underscored) hmodels rfl a ha, hcounted⟩

def clashing : List (String × List (Branch Rat)) :=
  [("Active", [⟨"a", "A", 1 / 2⟩, ⟨"a_b", "B", 1 / 2⟩]), ("Stable", [⟨"b_c", "C", 1 / 2⟩, ⟨"c", "D", 1 / 2⟩])]

/-- **Different identifiers of all branches are not enough**: the first path takes one branch, the last path the other
branch of each set, and they count as the same. -/
theorem identifiers_clash : ((clashing.flatMap Prod.snd).map Branch.id).Nodup ∧
    (BranchSetTree.ofSets clashing).toOption = some ⟨.ofList clashing⟩ ∧
    ¬((BranchSetTree.mk (.ofList clashing)).enumerate.map ChoicePath.uid).Nodup ∧
    ∃ a, ((ofTree ⟨.ofList clashing⟩).associateBy ruptureCount).2 = .ok a ∧
      a.realizations.map Realization.uid = ["m,a_b_c", "m,a_c", "m,a_b_b_c", "m,a_b_c"] ∧
      Realization.numDistinct a.realizations = 3 := by
  have realized : ((ofTree ⟨.ofList clashing⟩).associateBy ruptureCount).2.toOption.map (fun a =>
      (a.realizations.map Realization.uid, Realization.numDistinct a.realizations)) =
      some (["m,a_b_c", "m,a_c", "m,a_b_b_c", "m,a_b_c"], 3) := by
    decide +kernel
  obtain ⟨a, ha, hrealized⟩ := Outcome.map_toOption_eq_some.1 realized
  obtain ⟨huids, hcounted⟩ := Prod.mk.inj hrealized
  exact ⟨by decide +kernel, by decide +kernel, by decide +kernel, a, ha, huids, hcounted⟩

end Composite
end SeismicHazard
