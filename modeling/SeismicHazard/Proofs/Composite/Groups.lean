import SeismicHazard.Composite.Basic
import Mathlib.Data.List.Forall2
/-!
# Groups of a composite — putting changed groups back into their models

The groups of a composite are one list; changed groups go back to the models that they came from.  Changing every group
in the list is changing it in its model (`setGroups_map`), and whatever holds between the groups before and after the
change holds model by model (`forall₂_regroup`).
-/
namespace SeismicHazard
namespace Composite

variable {S W : Type}

theorem regroup_map (f : SourceGroup S → SourceGroup S) : ∀ ms : List (SourceModel S W),
    regroup ms ((ms.flatMap SourceModel.groups).map f) = ms.map (fun m => { m with groups := m.groups.map f })
  | [] => rfl
  | m :: ms => by
    rw [List.flatMap_cons, List.map_append, regroup, List.map_cons]
    rw [List.take_left' (List.length_map f), List.drop_left' (List.length_map f), regroup_map f ms]

theorem setGroups_map (f : SourceGroup S → SourceGroup S) (c : Composite S W) :
    c.setGroups (c.groups.map f) = c.mapGroups f := by
  unfold setGroups groups mapGroups
  rw [regroup_map]

theorem groups_mapGroups (f : SourceGroup S → SourceGroup S) (c : Composite S W) :
    (c.mapGroups f).groups = c.groups.map f := by
  unfold groups mapGroups
  dsimp only
  rw [List.flatMap_map, List.map_flatMap]

theorem mapGroups_congr {c : Composite S W} {f g : SourceGroup S → SourceGroup S} (h : ∀ x ∈ c.groups, f x = g x) :
    c.mapGroups f = c.mapGroups g := by
  unfold mapGroups
  congr 1
  refine List.map_congr_left fun m hm => ?_
  rw [List.map_congr_left fun x hx => h x (List.mem_flatMap.2 ⟨m, hm, hx⟩)]

theorem mapGroups_id (c : Composite S W) : c.mapGroups id = c := by
  change ({ c with models := c.models.map (fun m => { m with groups := m.groups.map id }) } : Composite S W) = c
  simp only [List.map_id]
  rw [List.map_id']

theorem groups_setGroups : ∀ {ms : List (SourceModel S W)} {gs : List (SourceGroup S)},
    gs.length = (ms.flatMap SourceModel.groups).length → (regroup ms gs).flatMap SourceModel.groups = gs
  | [], gs, h => by
    rw [regroup, List.length_eq_zero_iff.1 h]
    rfl
  | m :: ms, gs, h => by
    rw [List.flatMap_cons, List.length_append] at h
    rw [regroup, List.flatMap_cons, groups_setGroups (by rw [List.length_drop]; omega)]
    exact List.take_append_drop _ gs

theorem setGroups_groups (c : Composite S W) : c.setGroups c.groups = c := by
  have h := setGroups_map id c
  rwa [List.map_id, mapGroups_id] at h

def Regrouped (R : SourceGroup S → SourceGroup S → Prop) (m m' : SourceModel S W) : Prop :=
  m' = { m with groups := m'.groups } ∧ List.Forall₂ R m.groups m'.groups

theorem forall₂_regroup {R : SourceGroup S → SourceGroup S → Prop} : ∀ {ms : List (SourceModel S W)}
    {gs : List (SourceGroup S)}, List.Forall₂ R (ms.flatMap SourceModel.groups) gs →
    List.Forall₂ (Regrouped R) ms (regroup ms gs)
  | [], _, _ => .nil
  | m :: ms, gs, h => by
    rw [List.flatMap_cons] at h
    have hfirst := List.forall₂_take_append gs m.groups (ms.flatMap SourceModel.groups) h.flip
    have hrest := List.forall₂_drop_append gs m.groups (ms.flatMap SourceModel.groups) h.flip
    exact .cons ⟨rfl, hfirst.flip⟩ (forall₂_regroup hrest.flip)

end Composite
end SeismicHazard
