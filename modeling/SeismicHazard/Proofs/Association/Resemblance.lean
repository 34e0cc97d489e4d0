import SeismicHazard.Proofs.Association.Frame
/-!
# Resemblance — what a build of an association does not look at

Of a group a build reads the identifier and the tectonic region type, and nothing else once the weights are known; it
never looks at the sources.  So two composites whose groups resemble each other in these two give the same association
or fail alike (`associateBy_alike`), and what a build leaves of them resembles each other again.  The skeleton of a
composite is such a double (`skeleton_stands_in`).
-/
namespace SeismicHazard

variable {S W : Type}

namespace Association

structure Alike (R : SourceGroup S → SourceGroup S → Prop) : Prop where
  id_eq : ∀ {g g'}, R g g' → g'.id = g.id
  trt_eq : ∀ {g g'}, R g g' → g'.trt = g.trt
  told : ∀ {g g'}, R g g' → ∀ gsims, R { g with gsims } { g' with gsims }

variable {R : SourceGroup S → SourceGroup S → Prop}

/-! ## One path -/

theorem linkGroups_alike (hR : Alike R) (c : Composition) (m : SourceModel S W) (draw ordinal : Nat)
    (p : ChoicePath W) : ∀ {gs gs' : List (SourceGroup S)} (links : Links), List.Forall₂ R gs gs' →
      (linkGroups c m draw ordinal p gs' links).result = (linkGroups c m draw ordinal p gs links).result ∧
      List.Forall₂ R (linkGroups c m draw ordinal p gs links).groups (linkGroups c m draw ordinal p gs' links).groups := by
  intro gs gs' links h
  induction h generalizing links with
  | nil => exact ⟨rfl, .nil⟩
  | @cons g g' gs gs' hg hgs ih =>
    have htold := hR.told hg (m.tree.values g.trt)
    simp only [hR.trt_eq hg, hR.id_eq hg] at htold
    simp only [linkGroups, hR.trt_eq hg, hR.id_eq hg]
    cases p.gsim? g.trt with
    | none =>
      obtain ⟨hresult, hgroups⟩ := ih links
      exact ⟨hresult, .cons hg hgroups⟩
    | some gsim =>
      dsimp only
      cases addCollection c m.samples draw g.id links.collections with
      | error f => exact ⟨rfl, .cons htold hgs⟩
      | ok cols =>
        obtain ⟨hresult, hgroups⟩ := ih _
        exact ⟨hresult, .cons htold hgroups⟩

-- linking is handed the groups; it does not take them from the model
theorem linkGroups_setGroups (c : Composition) (m : SourceModel S W) (groups : List (SourceGroup S))
    (draw ordinal : Nat) (p : ChoicePath W) : ∀ (gs : List (SourceGroup S)) (links : Links),
      linkGroups c { m with groups } draw ordinal p gs links = linkGroups c m draw ordinal p gs links
  | [], _ => rfl
  | g :: gs, links => by
    simp only [linkGroups, linkGroups_setGroups c m groups draw ordinal p gs]

/-! ## One source model -/

variable [Scalar W]

theorem addPaths_setGroups (m : SourceModel S W) (groups : List (SourceGroup S)) : ∀ (ps : List (ChoicePath W))
    (draw : Nat) (gs : List (SourceGroup S)) (a : Association W),
      addPaths { m with groups } ps draw gs a = addPaths m ps draw gs a
  | [], _, _, _ => rfl
  | p :: ps, draw, gs, a => by
    simp only [addPaths, linkGroups_setGroups, addPaths_setGroups m groups ps]
    rfl

theorem addPaths_alike (hR : Alike R) (m : SourceModel S W) : ∀ (ps : List (ChoicePath W)) (draw : Nat)
    {gs gs' : List (SourceGroup S)} (a : Association W), List.Forall₂ R gs gs' →
      (addPaths m ps draw gs' a).result = (addPaths m ps draw gs a).result ∧
      List.Forall₂ R (addPaths m ps draw gs a).groups (addPaths m ps draw gs' a).groups
  | [], _, _, _, _, h => ⟨rfl, h⟩
  | p :: ps, draw, gs, gs', a, h => by
    obtain ⟨hresult, hgroups⟩ := linkGroups_alike hR a.composition m draw a.realizations.length p ⟨a.index, .empty⟩ h
    simp only [addPaths_cons, hresult]
    split
    · exact ⟨rfl, hgroups⟩
    · exact addPaths_alike hR m ps (draw + 1) _ hgroups

theorem addModel_alike (hR : Alike R) (sampling : SamplingSettings) {m m' : SourceModel S W} (a : Association W)
    (h : Composite.Regrouped R m m') : (addModel sampling m' a).2 = (addModel sampling m a).2 ∧
      Composite.Regrouped R (addModel sampling m a).1 (addModel sampling m' a).1 := by
  obtain ⟨hm, hgroups⟩ := h
  have hpaths : m'.paths sampling = m.paths sampling := by rw [hm]; rfl
  unfold addModel
  rw [hpaths]
  split
  · exact ⟨rfl, hm, hgroups⟩
  · exact ⟨rfl, hm, hgroups⟩
  · rename_i ps _ _
    obtain ⟨hresult, hrest⟩ := addPaths_alike hR m ps 0 a hgroups
    rw [hm]
    simp only [addPaths_setGroups]
    exact ⟨by rw [hresult], rfl, hrest⟩

/-! ## All source models -/

/-- Two models that a build takes for one another: with their trees reduced they differ in alike groups.  Before and
after they are related in a way of one's choice, as the build may end before it reaches them. -/
structure Resembles (R : SourceGroup S → SourceGroup S → Prop) (T : SourceModel S W → SourceModel S W → Prop)
    (weight weight' : SourceGroup S → W) (m m' : SourceModel S W) : Prop where
  reduced : Composite.Regrouped R (m.reduceToLive weight) (m'.reduceToLive weight')
  related : T m m'

variable {T : SourceModel S W → SourceModel S W → Prop} {weight weight' : SourceGroup S → W}

theorem addModels_alike (hR : Alike R) (hT : ∀ m m', Composite.Regrouped R m m' → T m m')
    (sampling : SamplingSettings) : ∀ {ms ms' : List (SourceModel S W)} (a : Association W),
      List.Forall₂ (Resembles R T weight weight') ms ms' →
      (addModels sampling weight' ms' a).2 = (addModels sampling weight ms a).2 ∧
      List.Forall₂ T (addModels sampling weight ms a).1 (addModels sampling weight' ms' a).1 := by
  intro ms ms' a h
  induction h generalizing a with
  | nil => exact ⟨rfl, .nil⟩
  | cons hm hms ih =>
    obtain ⟨hresult, hgroups⟩ := addModel_alike hR sampling a hm.reduced
    simp only [addModels, hresult]
    split
    · exact ⟨rfl, .cons (hT _ _ hgroups) (hms.imp fun _ _ h => h.related)⟩
    · obtain ⟨hrest, hmodels⟩ := ih _
      exact ⟨hrest, .cons (hT _ _ hgroups) hmodels⟩

end Association

namespace Composite

/-! ## Positions -/

theorem forall₂_byOrdinal {T : SourceModel S W → SourceModel S W → Prop} {ms ms' : List (SourceModel S W)}
    (h : List.Forall₂ (fun m m' => T m m' ∧ m.ordinal = m'.ordinal) ms ms') :
    List.Forall₂ (fun p p' => T p.1 p'.1 ∧ p.2 = p'.2) (byOrdinal ms) (byOrdinal ms') := by
  refine (forall₂_sortBy (fun a b a' b' ha hb => ?_) (forall₂_zipIdx 0 h)).imp fun _ _ hp => ⟨hp.1.1, hp.2⟩
  simp only [ha.1.2, hb.1.2]

theorem forall₂_zip {T : SourceModel S W → SourceModel S W → Prop} : ∀ {ms ms' : List (SourceModel S W)}
    (positions : List Nat), List.Forall₂ T ms ms' →
      List.Forall₂ (fun p p' => T p.1 p'.1 ∧ p.2 = p'.2) (ms.zip positions) (ms'.zip positions)
  | _, _, _, .nil => by simp
  | _, _, [], .cons _ _ => by simp
  | _, _, _ :: positions, .cons h hs => .cons ⟨h, rfl⟩ (forall₂_zip positions hs)

theorem byPosition_alike {T : SourceModel S W → SourceModel S W → Prop} {l l' : List (SourceModel S W × Nat)}
    (h : List.Forall₂ (fun p p' => T p.1 p'.1 ∧ p.2 = p'.2) l l') :
    List.Forall₂ T (byPosition l) (byPosition l') := by
  have hsorted : List.Forall₂ (fun p p' => T p.1 p'.1 ∧ p.2 = p'.2) (sortBy (fun a b => decide (a.2 ≤ b.2)) l)
      (sortBy (fun a b => decide (a.2 ≤ b.2)) l') :=
    forall₂_sortBy (fun a b a' b' ha hb => by simp only [ha.2, hb.2]) h
  unfold byPosition
  rw [List.forall₂_map_left_iff, List.forall₂_map_right_iff]
  exact hsorted.imp fun _ _ hp => hp.1

/-! ## Whole builds -/

section Builds

variable [Scalar W] {R : SourceGroup S → SourceGroup S → Prop} {T : SourceModel S W → SourceModel S W → Prop}
  {weight weight' : SourceGroup S → W} {c c' : Composite S W}

/-- **Composites whose models resemble each other give the same association**, or the same failure, and what the build
leaves of them is related. -/
theorem associateBy_alike (hR : Association.Alike R) (hT : ∀ m m', Regrouped R m m' → T m m')
    (composition : c'.composition = c.composition) (sampling : c'.sampling = c.sampling)
    (models : List.Forall₂ (fun m m' => Association.Resembles R T weight weight' m m' ∧ m.ordinal = m'.ordinal)
      c.models c'.models) :
    (c'.associateBy weight').2 = (c.associateBy weight).2 ∧
      List.Forall₂ T (c.associateBy weight).1.models (c'.associateBy weight').1.models := by
  have hordered := forall₂_byOrdinal models
  have hvisited : List.Forall₂ (Association.Resembles R T weight weight') ((byOrdinal c.models).map Prod.fst)
      ((byOrdinal c'.models).map Prod.fst) := by
    rw [List.forall₂_map_left_iff, List.forall₂_map_right_iff]
    exact hordered.imp fun _ _ hp => hp.1
  have hpositions : (byOrdinal c.models).map Prod.snd = (byOrdinal c'.models).map Prod.snd :=
    map_eq_of_forall₂ (fun _ _ hp => hp.2) hordered
  obtain ⟨hresult, hmodels⟩ :=
    Association.addModels_alike hR hT c.sampling (Association.empty c.composition) hvisited
  unfold associateBy
  dsimp only
  rw [composition, sampling, hresult, ← hpositions]
  exact ⟨rfl, byPosition_alike (forall₂_zip _ hmodels)⟩

end Builds

/-! ## Skeletons -/

theorem alike_skeleton : Association.Alike (fun g g' : SourceGroup S => g' = g.skeleton) where
  id_eq := by rintro g _ rfl; rfl
  trt_eq := by rintro g _ rfl; rfl
  told := by rintro g _ rfl gsims; rfl

theorem skeleton_of_regrouped {m m' : SourceModel S W} (h : Regrouped (fun g g' => g' = g.skeleton) m m') :
    m' = m.skeleton := by
  obtain ⟨hm, hgroups⟩ := h
  rw [hm, eq_map_of_forall₂ hgroups, SourceModel.skeleton]

/-- **A skeleton stands in for its composite**, for any weight that does not look at the sources. -/
theorem skeleton_associateBy [Scalar W] (weight : SourceGroup S → W) (blind : ∀ g, weight g.skeleton = weight g)
    (c : Composite S W) :
    c.skeleton.associateBy weight = ((c.associateBy weight).1.skeleton, (c.associateBy weight).2) := by
  have hlive (m : SourceModel S W) : m.skeleton.liveTrts weight = m.liveTrts weight := by
    simp only [SourceModel.liveTrts, SourceModel.skeleton, List.filter_map, List.map_map, Function.comp_def, blind]
    rfl
  have hmodels : List.Forall₂ (fun m m' => Association.Resembles (fun g g' => g' = g.skeleton)
      (fun m m' => m' = m.skeleton) weight weight m m' ∧ m.ordinal = m'.ordinal) c.models c.skeleton.models := by
    refine forall₂_map_self (fun m => ⟨⟨⟨?_, ?_⟩, rfl⟩, rfl⟩) c.models
    · simp only [SourceModel.reduceToLive, hlive]
      rfl
    · exact forall₂_map_self (R := fun g g' => g' = SourceGroup.skeleton g) (fun _ => rfl) m.groups
  have hcomposition : c.skeleton.composition = c.composition := rfl
  obtain ⟨hresult, hafter⟩ :=
    associateBy_alike alike_skeleton (fun _ _ => skeleton_of_regrouped) hcomposition rfl hmodels
  refine Prod.ext ?_ hresult
  exact congrArg (fun models => { c with models }) (eq_map_of_forall₂ hafter)

variable [Source S]

theorem countRuptures_skeleton (c : Composite S W) : c.skeleton.countRuptures false = c.skeleton := by
  have hgroup (g : SourceGroup S) : g.skeleton.countRuptures false = g.skeleton := by
    by_cases h : g.ruptures = 0
    · simp [SourceGroup.countRuptures, SourceGroup.skeleton, SourceGroup.totalRuptures, h]
    · simp [SourceGroup.countRuptures, SourceGroup.skeleton, h]
  simp [countRuptures, mapGroups, skeleton, SourceModel.skeleton, Function.comp_def, hgroup]

/-- **To count again what was counted changes nothing**, not even where the count was zero. -/
theorem countRuptures_countRuptures (force : Bool) (c : Composite S W) :
    (c.countRuptures force).countRuptures false = c.countRuptures force := by
  have hgroup (g : SourceGroup S) : (g.countRuptures force).countRuptures false = g.countRuptures force := by
    by_cases h : g.ruptures = 0
    · simp [SourceGroup.countRuptures, SourceGroup.totalRuptures, h]
    · cases force <;> simp [SourceGroup.countRuptures, SourceGroup.totalRuptures, h]
  simp [countRuptures, mapGroups, Function.comp_def, hgroup]

/-- **A skeleton that is taken after the ruptures were counted stands in for the composite**: it gives the same
association by ruptures, or the same failure, and afterwards it is the skeleton of what became of the composite. -/
theorem skeleton_stands_in [Scalar W] (force : Bool) (c : Composite S W) :
    (c.countRuptures force).skeleton.associate.2 = (c.countRuptures force).associate.2 ∧
    (c.countRuptures force).skeleton.associate.1 = (c.countRuptures force).associate.1.skeleton := by
  have hdouble := skeleton_associateBy ruptureCount (fun _ => rfl) (c.countRuptures force)
  simp only [associate, countRuptures_skeleton, countRuptures_countRuptures, hdouble, and_self]

end Composite
end SeismicHazard
