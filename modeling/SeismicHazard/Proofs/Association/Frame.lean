import SeismicHazard.Proofs.Association.Linking
import SeismicHazard.Proofs.Composite.Groups
import Mathlib.Data.List.Nodup
import Mathlib.Data.List.Perm.Basic
/-!
# Frame — what building an association leaves of a composite

A build that succeeds, fails or breaks down changes two things only: the tree of a model is reduced, and groups are told
the ground motion models of their tectonic region type.  The models are visited in the order of their numbers and put
back to their positions afterwards (`forall₂_byPosition`), so what holds of every visited model holds position by
position (`forall₂_associateBy`).
-/
namespace SeismicHazard
namespace Association

variable {S W : Type} [Scalar W]

/-- A model before and after an association was built: it was not reached, or its tree is reduced to the live tectonic
region types and groups were told their ground motion models. -/
def Rebuilt (weight : SourceGroup S → W) (m m' : SourceModel S W) : Prop :=
  m' = m ∨ Composite.Regrouped (Told (m.reduceToLive weight).tree) (m.reduceToLive weight) m'

theorem addPaths_told (m : SourceModel S W) : ∀ (ps : List (ChoicePath W)) (draw : Nat)
    (groups : List (SourceGroup S)) (a : Association W),
    List.Forall₂ (Told m.tree) groups (addPaths m ps draw groups a).groups
  | [], _, groups, _ => forall₂_told_refl m.tree groups
  | p :: ps, draw, groups, a => by
    have hlink := linkGroups_told a.composition m draw a.realizations.length p groups ⟨a.index, .empty⟩
    rw [addPaths_cons]
    dsimp only
    split
    · exact hlink
    · exact forall₂_told_trans hlink (addPaths_told m ps (draw + 1) _ _)

theorem addModel_regrouped (sampling : SamplingSettings) (m : SourceModel S W) (a : Association W) :
    Composite.Regrouped (Told m.tree) m (addModel sampling m a).1 := by
  unfold addModel
  split
  · exact ⟨rfl, forall₂_told_refl m.tree m.groups⟩
  · exact ⟨rfl, forall₂_told_refl m.tree m.groups⟩
  · exact ⟨rfl, addPaths_told m _ 0 m.groups a⟩

theorem forall₂_addModels (sampling : SamplingSettings) (weight : SourceGroup S → W) :
    ∀ (ms : List (SourceModel S W)) (a : Association W),
      List.Forall₂ (Rebuilt weight) ms (addModels sampling weight ms a).1
  | [], _ => .nil
  | m :: ms, a => by
    have hm := addModel_regrouped sampling (m.reduceToLive weight) a
    rw [addModels]
    dsimp only
    split
    · exact .cons (Or.inr hm) (List.forall₂_same.2 fun _ _ => Or.inl rfl)
    · exact .cons (Or.inr hm) (forall₂_addModels sampling weight ms _)

end Association

namespace Composite

variable {S W : Type}

/-! ## Positions -/

theorem forall₂_zip_positions {R : SourceModel S W → SourceModel S W → Prop} :
    ∀ {ordered : List (SourceModel S W × Nat)} {ms : List (SourceModel S W)},
      List.Forall₂ R (ordered.map Prod.fst) ms →
      List.Forall₂ (fun p p' => R p.1 p'.1 ∧ p.2 = p'.2) ordered (ms.zip (ordered.map Prod.snd))
  | [], _, h => by
    cases h
    exact .nil
  | p :: ordered, _, h => by
    obtain ⟨m, ms, hm, hms, rfl⟩ := List.forall₂_cons_left_iff.1 h
    exact .cons ⟨hm, rfl⟩ (forall₂_zip_positions hms)

theorem byPosition_of_perm {l r : List (SourceModel S W × Nat)} (h : l.Perm r)
    (hl : l.map Prod.snd = List.range l.length) : byPosition r = l.map Prod.fst := by
  have hlt : l.Pairwise (fun a b => a.2 < b.2) :=
    List.pairwise_map.1 (hl ▸ List.pairwise_lt_range)
  have hnodup : (l.map Prod.snd).Nodup := hl ▸ List.nodup_range
  unfold byPosition
  rw [← sortBy_congr Prod.snd h hnodup, sortBy_eq_self (hlt.imp fun hab => decide_eq_true (Nat.le_of_lt hab))]

/-- **Models that were visited in the order of their numbers go back to their positions.** -/
theorem forall₂_byPosition {R : SourceModel S W → SourceModel S W → Prop} {ms ms' : List (SourceModel S W)}
    (h : List.Forall₂ R ((byOrdinal ms).map Prod.fst) ms') :
    List.Forall₂ R ms (byPosition (ms'.zip ((byOrdinal ms).map Prod.snd))) := by
  have hperm : ms.zipIdx.Perm (byOrdinal ms) := (sortBy_perm _ _).symm
  -- the list that the visited models are a permutation of, position by position
  obtain ⟨q, hq, hqperm⟩ := List.perm_comp_forall₂ hperm (forall₂_zip_positions h)
  have hsnd : ms.zipIdx.map Prod.snd = q.map Prod.snd := map_eq_of_forall₂ (fun _ _ hab => hab.2) hq
  have hlen : q.length = ms.length := by rw [← hq.length_eq, List.length_zipIdx]
  have hfst : List.Forall₂ R (ms.zipIdx.map Prod.fst) (q.map Prod.fst) := by
    rw [List.forall₂_map_left_iff, List.forall₂_map_right_iff]
    exact hq.imp fun _ _ hab => hab.1
  rw [byPosition_of_perm hqperm (by rw [← hsnd, List.zipIdx_map_snd, hlen, List.range_eq_range'])]
  rwa [List.zipIdx_map_fst] at hfst

/-- **Building an association rebuilds each model in its place**, whether it succeeds or not. -/
theorem forall₂_associateBy [Scalar W] (weight : SourceGroup S → W) (c : Composite S W) :
    List.Forall₂ (Association.Rebuilt weight) c.models (c.associateBy weight).1.models :=
  forall₂_byPosition (Association.forall₂_addModels c.sampling weight _ _)

end Composite
end SeismicHazard
