import SeismicHazard.Proofs.Association.Frame
import SeismicHazard.Proofs.Association.Partition
import SeismicHazard.Proofs.Association.ReverseIndex
/-!
# Telling — what a build of an association writes into the composite

A build reads the composite, and yet it writes into two places of it: trees are reduced, and groups are told the ground
motion models of their tectonic region type.  A model whose paths were all linked has told every group that its reduced
tree covers (`addModel_visited`); a failure in the middle of a model leaves some of its groups told and some not
(`addModel_regrouped`), and the models after it untouched.  `associations_framed` puts the two together.
-/
namespace SeismicHazard

variable {S W : Type}

/-- The group after it was told the ground motion models of a tree, if the tree has a branch set for it. -/
def SourceGroup.tell (t : BranchSetTree W) (g : SourceGroup S) : SourceGroup S :=
  if g.trt ∈ t.trts then { g with gsims := t.values g.trt } else g

namespace SourceGroup

theorem tell_of_mem {t : BranchSetTree W} {g : SourceGroup S} (h : g.trt ∈ t.trts) :
    g.tell t = { g with gsims := t.values g.trt } := by
  simp [tell, h]

theorem tell_of_notMem {t : BranchSetTree W} {g : SourceGroup S} (h : g.trt ∉ t.trts) : g.tell t = g := by
  simp [tell, h]

@[simp] theorem id_tell (t : BranchSetTree W) (g : SourceGroup S) : (g.tell t).id = g.id := by
  unfold tell
  split <;> rfl

@[simp] theorem tell_tell (t : BranchSetTree W) (g : SourceGroup S) : (g.tell t).tell t = g.tell t := by
  by_cases h : g.trt ∈ t.trts <;> simp [tell, h]

end SourceGroup

namespace Association

/-! ## One path -/

theorem linkGroups_groups (c : Composition) (m : SourceModel S W) (draw ordinal : Nat) {p : ChoicePath W}
    (hp : p.Covers m.tree.trts) : ∀ (gs : List (SourceGroup S)) (links links' : Links),
      (linkGroups c m draw ordinal p gs links).result = .ok links' →
      (linkGroups c m draw ordinal p gs links).groups = gs.map (SourceGroup.tell m.tree)
  | [], _, _, _ => rfl
  | g :: gs, links, links', h => by
    have hcovers := hp g.trt
    rw [linkGroups] at h ⊢
    cases hg : p.gsim? g.trt with
    | none =>
      rw [hg] at h hcovers
      have huncovered : g.trt ∉ m.tree.trts := by simpa using hcovers
      simp only [List.map_cons, SourceGroup.tell_of_notMem huncovered]
      rw [linkGroups_groups c m draw ordinal hp gs links links' h]
    | some gsim =>
      rw [hg] at h hcovers
      have hcovered : g.trt ∈ m.tree.trts := by simpa using hcovers
      simp only [List.map_cons, SourceGroup.tell_of_mem hcovered]
      -- a draw without a collection ends the linking here, against `h`
      cases hcol : addCollection c m.samples draw g.id links.collections with
      | error f =>
        rw [hcol] at h
        cases h
      | ok cols =>
        rw [hcol] at h
        simp only
        rw [linkGroups_groups c m draw ordinal hp gs _ links' h]

/-! ## One source model -/

variable [Scalar W]

/-- **A path that was linked tells every group that the tree covers**, and the paths after it tell them the same. -/
theorem addPaths_groups (m : SourceModel S W) : ∀ (ps : List (ChoicePath W)) (p : ChoicePath W) (draw : Nat)
    (groups : List (SourceGroup S)) (a a' : Association W), (∀ q ∈ p :: ps, q.Covers m.tree.trts) →
    (addPaths m (p :: ps) draw groups a).result = .ok a' →
    (addPaths m (p :: ps) draw groups a).groups = groups.map (SourceGroup.tell m.tree)
  | ps, p, draw, groups, a, a', hcov, h => by
    have hlink := linkGroups_groups a.composition m draw a.realizations.length (hcov p (List.mem_cons_self ..)) groups
      ⟨a.index, .empty⟩
    rw [addPaths_cons] at h ⊢
    dsimp only at h ⊢
    split at h
    · cases h
    · rename_i links hlinks
      cases ps with
      | nil => exact hlink links hlinks
      | cons q ps =>
        have hrest := addPaths_groups m ps q (draw + 1) _ _ a' (fun r hr => hcov r (List.mem_cons_of_mem p hr)) h
        rw [hlink links hlinks] at hrest
        simpa [Function.comp_def, hlink links hlinks] using hrest

structure Visited (sampling : SamplingSettings) (m m' : SourceModel S W) : Prop where
  told : m.Yields sampling → m' = { m with groups := m.groups.map (SourceGroup.tell m.tree) }
  skipped : ¬m.Yields sampling → m' = m

theorem addModel_visited {sampling : SamplingSettings} {m : SourceModel S W} {a a' : Association W}
    (h : (addModel sampling m a).2 = .ok a') : Visited sampling m (addModel sampling m a).1 ∧
      ∀ i, i ∈ a'.contributingModels ↔ i ∈ a.contributingModels ∨ (m.ordinal = i ∧ m.Yields sampling) := by
  rcases addModel_ok h with ⟨hps, rfl⟩ | ⟨ps, b, hne, hps, hb, rfl⟩
  · have hidle : ¬m.Yields sampling := by
      rintro ⟨qs, hqs, hne⟩
      cases hps.symm.trans hqs
      exact hne rfl
    refine ⟨⟨fun hyields => absurd hyields hidle, fun _ => ?_⟩, fun i => by simp [hidle]⟩
    rw [addModel, hps]
  · have hyields : m.Yields sampling := ⟨ps, hps, hne⟩
    obtain ⟨p, ps, rfl⟩ := List.exists_cons_of_ne_nil hne
    obtain ⟨-, -, hby, -⟩ := addPaths_extends m (p :: ps) 0 m.groups a b hb
    refine ⟨⟨fun _ => ?_, fun hidle => absurd hyields hidle⟩, fun i => ?_⟩
    · rw [addModel, hps]
      dsimp only
      rw [addPaths_groups m ps p 0 m.groups a b (SourceModel.covers_of_paths hps) hb]
    · simp only [contributingModels, SortedMap.mem_keys, get?_noteModel, hby]
      by_cases hi : i = m.ordinal
      · simp [hi, hyields]
      · simp [hi, Ne.symm hi]

/-! ## All source models -/

/-- **When all models were added, each was visited**, and those that yield a path contributed. -/
theorem addModels_visited (sampling : SamplingSettings) (weight : SourceGroup S → W) :
    ∀ (ms : List (SourceModel S W)) (a a' : Association W), (addModels sampling weight ms a).2 = .ok a' →
      List.Forall₂ (fun m m' => Visited sampling (m.reduceToLive weight) m') ms (addModels sampling weight ms a).1 ∧
      ∀ i, i ∈ a'.contributingModels ↔
        i ∈ a.contributingModels ∨ ∃ m ∈ ms, m.ordinal = i ∧ (m.reduceToLive weight).Yields sampling
  | [], a, a', h => by
    cases h
    exact ⟨.nil, by simp⟩
  | m :: ms, a, a', h => by
    rw [addModels] at h ⊢
    dsimp only at h ⊢
    split at h
    · cases h
    · rename_i b hb
      obtain ⟨hvisited, hm⟩ := addModel_visited hb
      obtain ⟨hrest, hms⟩ := addModels_visited sampling weight ms b a' h
      refine ⟨.cons hvisited hrest, fun i => ?_⟩
      rw [hms, hm, or_assoc, List.exists_mem_cons_iff]
      rfl

end Association

/-! ## The frame -/

structure SourceModel.Framed [Scalar W] (weight : SourceGroup S → W) (m m' : SourceModel S W) : Prop where
  rest : m' = { m with tree := m'.tree, groups := m'.groups }
  /-- The tree is what it was, or it lost the branch sets without a live group. -/
  tree : m'.tree = m.tree ∨ m'.tree = m.tree.reduce (m.liveTrts weight)
  /-- A group is what it was, or it was told the ground motion models of the tree. -/
  groups : List.Forall₂ (Association.Told m'.tree) m.groups m'.groups

structure SourceModel.Completed [Scalar W] (sampling : SamplingSettings) (weight : SourceGroup S → W)
    (m m' : SourceModel S W) : Prop where
  tree : m'.tree = m.tree.reduce (m.liveTrts weight)
  /-- A model that contributed told exactly the groups that its tree covers. -/
  told : (m.reduceToLive weight).Yields sampling → m'.groups = m.groups.map (SourceGroup.tell m'.tree)
  idle : ¬(m.reduceToLive weight).Yields sampling → m'.groups = m.groups

namespace SourceModel

variable [Scalar W] {weight : SourceGroup S → W} {m m' : SourceModel S W}

theorem framed_of_rebuilt (h : Association.Rebuilt weight m m') : m.Framed weight m' := by
  rcases h with rfl | ⟨hm, hgroups⟩
  · exact ⟨rfl, Or.inl rfl, Association.forall₂_told_refl _ _⟩
  · have htree : m'.tree = (m.reduceToLive weight).tree := by rw [hm]
    refine ⟨?_, Or.inr htree, ?_⟩
    · rw [hm]
      rfl
    · rw [htree]
      exact hgroups

theorem completed_of_visited {sampling : SamplingSettings}
    (h : Association.Visited sampling (m.reduceToLive weight) m') : m.Completed sampling weight m' := by
  by_cases hyields : (m.reduceToLive weight).Yields sampling
  · obtain rfl := h.told hyields
    exact ⟨rfl, fun _ => rfl, fun hidle => absurd hyields hidle⟩
  · obtain rfl := h.skipped hyields
    exact ⟨rfl, fun h => absurd h hyields, fun _ => rfl⟩

end SourceModel

structure SourceGroup.Recounted (g g' : SourceGroup S) : Prop where
  rest : g' = { g with ruptures := g'.ruptures }
  kept : g.ruptures ≠ 0 → g'.ruptures = g.ruptures

theorem SourceGroup.recounted_countRuptures [Source S] (g : SourceGroup S) :
    g.Recounted (g.countRuptures false) := by
  by_cases h : g.ruptures = 0
  · refine ⟨?_, fun hcounted => absurd h hcounted⟩
    simp [countRuptures, h]
  · exact ⟨by simp [countRuptures, h], fun _ => by simp [countRuptures, h]⟩

namespace Composite

variable [Scalar W]

structure Framed (weight : SourceGroup S → W) (c : Composite S W)
    (outcome : Composite S W × Except Abort (Association W)) : Prop where
  rest : outcome.1 = { c with models := outcome.1.models }
  /-- The models changed within their frame, whatever the build came to. -/
  models : List.Forall₂ (SourceModel.Framed weight) c.models outcome.1.models
  /-- If it came to an association, the groups that were told are known. -/
  completed : ∀ a, outcome.2 = .ok a →
    List.Forall₂ (SourceModel.Completed c.sampling weight) c.models outcome.1.models
  /-- And the models that contributed are those that yield a path. -/
  contributing : ∀ a, outcome.2 = .ok a → ∀ i, i ∈ a.contributingModels ↔
    ∃ m ∈ c.models, m.ordinal = i ∧ (m.reduceToLive weight).Yields c.sampling

theorem visited_associateBy {weight : SourceGroup S → W} {c : Composite S W} {a : Association W}
    (h : (c.associateBy weight).2 = .ok a) :
    List.Forall₂ (fun m m' => Association.Visited c.sampling (m.reduceToLive weight) m') c.models
      (c.associateBy weight).1.models ∧
    ∀ i, i ∈ a.contributingModels ↔ ∃ m ∈ c.models, m.ordinal = i ∧ (m.reduceToLive weight).Yields c.sampling := by
  obtain ⟨b, f, rfl, hb⟩ := associateBy_added h
  obtain ⟨hvisited, hmodels⟩ := Association.addModels_visited c.sampling weight _ _ b hb
  refine ⟨forall₂_byPosition hvisited, fun i => ?_⟩
  change i ∈ b.contributingModels ↔ _
  simp only [hmodels, (byOrdinal_perm c.models).mem_iff]
  exact or_iff_right (by rintro ⟨⟩)

theorem framed_associateBy (weight : SourceGroup S → W) (c : Composite S W) :
    c.Framed weight (c.associateBy weight) := by
  constructor
  case rest => rfl
  case models => exact (forall₂_associateBy weight c).imp fun _ _ hm => SourceModel.framed_of_rebuilt hm
  case completed => exact fun a h => (visited_associateBy h).1.imp fun _ _ hm => SourceModel.completed_of_visited hm
  case contributing => exact fun a h => (visited_associateBy h).2

/-- **A build changes trees and told groups alone**, whether it succeeds, fails or breaks down; a build by ruptures
first counts those of the groups that were not counted. -/
theorem associations_framed [Source S] (c : Composite S W) :
    (∀ weight : SourceGroup S → W, c.Framed weight (c.associateBy weight)) ∧
    (c.countRuptures false).Framed ruptureCount c.associate ∧
    c.countRuptures false = { c with models := (c.countRuptures false).models } ∧
    List.Forall₂ (Regrouped SourceGroup.Recounted) c.models (c.countRuptures false).models :=
  ⟨fun weight => framed_associateBy weight c, framed_associateBy ruptureCount _, rfl,
    forall₂_map_self (fun m => ⟨rfl, forall₂_map_self SourceGroup.recounted_countRuptures m.groups⟩) c.models⟩

/-- Three models, the second of which has collections for one of its two groups only. -/
def halfAllocated : Composite Unit Rat :=
  let tree : BranchSetTree Rat := ⟨.ofList [("Active", [⟨"b1", "A", 1⟩]), ("Stable", [⟨"b2", "B", 1⟩])]⟩
  let active (id : Nat) : SourceGroup Unit := { id := ⟨id⟩, trt := "Active", ruptures := 1 }
  let stable (id : Nat) : SourceGroup Unit := { id := ⟨id⟩, trt := "Stable" }
  let second (groups : List (SourceGroup Unit)) : SourceModel Unit Rat := ⟨"second", 1, [], groups, tree, 1, 2⟩
  { models := [⟨"first", 1, [], [active 1, stable 2], tree, 0, 1⟩, second [active 3, active 4],
      ⟨"third", 1, [], [active 5], tree, 2, 1⟩],
    composition := .ofModels [second [active 3]], sampling := { samples := 4 } }

-- the build fails at the fourth group: the groups up to it are told, the third model is not reached
example : (halfAllocated.associateBy ruptureCount).2 = .error (.failed (.missingCollection ⟨4⟩ 0)) ∧
    (halfAllocated.associateBy ruptureCount).1.groups.map SourceGroup.gsims = [["A"], [], ["A"], ["A"], []] ∧
    (halfAllocated.associateBy ruptureCount).1.models.map (fun m => m.tree.trts) =
      [["Active"], ["Active"], ["Active", "Stable"]] := by
  decide +kernel

end Composite
end SeismicHazard
