import SeismicHazard.Proofs.Association.Partition
import SeismicHazard.Proofs.Association.Reducing
import SeismicHazard.Proofs.Composite.Branches
import SeismicHazard.Proofs.Composite.Consistency
import SeismicHazard.Proofs.LogicTree.Checking
import SeismicHazard.Source.Strip
/-!
# Viability — when an association can be built

Building an association links every path: a draw that needs a collection was given one when the composite was built, so
adding the models never fails (`exists_addModels`).  What can fail is the weighing at the end.  A sampling lacks the
draws of the models that were skipped (`associateBy_sampled`), unless a word lost as many when the composite was built, and an enumeration may have no weight to share out
(`associateBy_enumerated`).  Which of these happens can be told from the composite beforehand (`associateBy_settled`).
-/
namespace SeismicHazard

variable {S W : Type}

namespace Association

/-! ## Linking never fails -/

/-- The draws below a number have a collection for each group of the model, if the model needs one. -/
def Linkable (c : Composition) (m : SourceModel S W) (draws : Nat) : Prop :=
  1 < m.samples → ∀ g ∈ m.groups.map SourceGroup.id, ∀ i < draws, (c.collection? g i).isSome = true

theorem exists_linkGroups (c : Composition) (m : SourceModel S W) (draw ordinal : Nat) (p : ChoicePath W) :
    ∀ (gs : List (SourceGroup S)) (links : Links),
      (1 < m.samples → ∀ g ∈ gs, (c.collection? g.id draw).isSome = true) →
      ∃ links', (linkGroups c m draw ordinal p gs links).result = .ok links'
  | [], links, _ => ⟨links, rfl⟩
  | g :: gs, links, h => by
    have hrest : 1 < m.samples → ∀ g' ∈ gs, (c.collection? g'.id draw).isSome = true := fun hs g' hg' =>
      h hs g' (List.mem_cons_of_mem g hg')
    rw [linkGroups]
    split
    · exact exists_linkGroups c m draw ordinal p gs links hrest
    · obtain ⟨cols, hcols⟩ : ∃ cols, addCollection c m.samples draw g.id links.collections = .ok cols := by
        unfold addCollection
        split
        · rename_i hs
          obtain ⟨col, hcol⟩ := Option.isSome_iff_exists.1 (h hs g (List.mem_cons_self ..))
          rw [hcol]
          exact ⟨_, rfl⟩
        · exact ⟨_, rfl⟩
      dsimp only
      rw [hcols]
      exact exists_linkGroups c m draw ordinal p gs _ hrest

variable [Scalar W]

theorem exists_addPaths (m : SourceModel S W) : ∀ (ps : List (ChoicePath W)) (draw : Nat)
    (groups : List (SourceGroup S)) (a : Association W), groups.map SourceGroup.id = m.groups.map SourceGroup.id →
    Linkable a.composition m (draw + ps.length) → ∃ a', (addPaths m ps draw groups a).result = .ok a'
  | [], _, _, a, _, _ => ⟨a, rfl⟩
  | p :: ps, draw, groups, a, hids, h => by
    have hlen : draw + (p :: ps).length = draw + 1 + ps.length := by
      rw [List.length_cons]
      omega
    obtain ⟨links, hlinks⟩ := exists_linkGroups a.composition m draw a.realizations.length p groups ⟨a.index, .empty⟩
      fun hs g hg => h hs g.id (hids ▸ List.mem_map_of_mem hg) draw (by omega)
    have htold := linkGroups_told a.composition m draw a.realizations.length p groups ⟨a.index, .empty⟩
    rw [addPaths_cons]
    dsimp only
    rw [hlinks]
    refine exists_addPaths m ps (draw + 1) _ _ (Eq.trans ?_ hids) (hlen ▸ h)
    exact (map_eq_of_forall₂ (fun _ _ hg => hg.id_eq.symm) htold).symm

theorem exists_addModel {sampling : SamplingSettings} {m : SourceModel S W} {ps : List (ChoicePath W)}
    (hps : m.paths sampling = .ok ps) {a : Association W} (h : Linkable a.composition m ps.length) :
    ∃ a', (addModel sampling m a).2 = .ok a' := by
  unfold addModel
  rw [hps]
  cases ps with
  | nil => exact ⟨a, rfl⟩
  | cons p ps =>
    obtain ⟨b, hb⟩ := exists_addPaths m (p :: ps) 0 m.groups a rfl (by rwa [Nat.zero_add])
    dsimp only
    rw [hb]
    exact ⟨_, rfl⟩

/-- **Adding models never fails** if paths can be drawn from their trees and their draws have the collections that they
need. -/
theorem exists_addModels (sampling : SamplingSettings) (weight : SourceGroup S → W) :
    ∀ (ms : List (SourceModel S W)) (a : Association W),
      (∀ m ∈ ms, ∃ ps, (m.reduceToLive weight).paths sampling = .ok ps ∧ Linkable a.composition m ps.length) →
      ∃ a', (addModels sampling weight ms a).2 = .ok a'
  | [], a, _ => ⟨a, rfl⟩
  | m :: ms, a, h => by
    obtain ⟨ps, hps, hlink⟩ := h m (List.mem_cons_self ..)
    obtain ⟨b, hb⟩ := exists_addModel hps (a := a) hlink
    obtain ⟨a', ha'⟩ := exists_addModels sampling weight ms b fun m' hm' => by
      rw [composition_addModel hb]
      exact h m' (List.mem_cons_of_mem m hm')
    refine ⟨a', ?_⟩
    rw [addModels]
    dsimp only
    rw [hb]
    exact ha'

end Association

/-! ## What the models contribute -/

/-- Whether a model is skipped: no tectonic region type of its tree has a group of positive weight. -/
def SourceModel.isSkipped [Scalar W] (weight : SourceGroup S → W) (m : SourceModel S W) : Bool :=
  m.tree.trts.all (fun trt => !m.groups.any (fun g => decide (g.trt = trt) && Scalar.isPositive (weight g)))

theorem SourceModel.isEmpty_reduceToLive [Scalar W] (weight : SourceGroup S → W) (m : SourceModel S W) :
    (m.reduceToLive weight).tree.sets.isEmpty = m.isSkipped weight := by
  have hlive : ∀ trt, (m.liveTrts weight).contains trt =
      m.groups.any (fun g => decide (g.trt = trt) && Scalar.isPositive (weight g)) := by
    intro trt
    rw [Bool.eq_iff_iff, contains_liveTrts]
    simp
  change (m.tree.sets.entries.filter (fun e => (m.liveTrts weight).contains e.1)).isEmpty =
    (m.tree.sets.entries.map Prod.fst).all _
  rw [List.all_map, Bool.eq_iff_iff, List.isEmpty_iff, List.filter_eq_nil_iff, List.all_eq_true]
  simp only [hlive, Function.comp_apply, Bool.not_eq_true', Bool.not_eq_true]

namespace Association

theorem length_origins (x : Contribution S W) : x.origins.length = x.paths.length := by
  rw [Contribution.origins, SourceModel.originsFrom, List.length_map, List.length_zipIdx]

variable [Scalar W] {sampling : SamplingSettings} {weight : SourceGroup S → W}

theorem length_paths (hs : sampling.isSampling = true) {m : SourceModel S W} {ps : List (ChoicePath W)}
    (h : (m.reduceToLive weight).paths sampling = .ok ps) :
    ps.length = if m.isSkipped weight then 0 else m.samples := by
  unfold SourceModel.paths at h
  rw [if_pos hs] at h
  obtain ⟨⟨qs, g⟩, hqs, rfl⟩ := Outcome.map_eq_ok.1 h
  rw [BranchSetTree.length_of_sample hqs, SourceModel.isEmpty_reduceToLive]
  rfl

/-- **In a sampling the models contribute their draws**, except for those that are skipped. -/
theorem length_contributions (hs : sampling.isSampling = true) {ms : List (SourceModel S W)}
    {cs : List (Contribution S W)} (h : List.Forall₂ (Contributes sampling weight) ms cs) :
    (cs.flatMap Contribution.origins).length =
      total ((ms.filter (fun m => !m.isSkipped weight)).map SourceModel.samples) := by
  induction h with
  | nil => rfl
  | @cons m x ms cs hx _ ih =>
    have hpaths := hx.2
    rw [hx.1] at hpaths
    rw [List.flatMap_cons, List.length_append, ih, length_origins, length_paths hs hpaths]
    cases hskip : m.isSkipped weight <;> simp [hskip]

def pathWeights (m : SourceModel S W) : List W := m.tree.enumerate.map (fun p => m.weight * p.weight)

/-- **In an enumeration the weights are those of the paths of the reduced trees**, in order. -/
theorem weights_contributions (hs : sampling.isSampling = false) {ms : List (SourceModel S W)}
    {cs : List (Contribution S W)} (h : List.Forall₂ (Contributes sampling weight) ms cs) :
    (cs.flatMap Contribution.origins).map (fun o => o.model.weight * o.path.weight) =
      ms.flatMap (fun m => pathWeights (m.reduceToLive weight)) := by
  induction h with
  | nil => rfl
  | @cons m x ms cs hx _ ih =>
    have hpaths := hx.2
    unfold SourceModel.paths at hpaths
    rw [if_neg (by simp [hs])] at hpaths
    rw [List.flatMap_cons, List.map_append, ih, List.flatMap_cons, ← hx.1, pathWeights, Except.ok.inj hpaths]
    congr 1
    have hfst : ((x.paths.zipIdx 0).map Prod.fst).map (fun p => x.model.weight * p.weight) =
        x.paths.map (fun p => x.model.weight * p.weight) := by rw [List.zipIdx_map_fst]
    rw [Contribution.origins, SourceModel.originsFrom, List.map_map, ← hfst, List.map_map]
    rfl

theorem BuiltFrom.weights_eq {os : List (Origin S W)} {a : Association W} (h : a.BuiltFrom os) :
    a.realizations.map Realization.weight = os.map (fun o => o.model.weight * o.path.weight) := by
  have hfst : (os.zipIdx.map Prod.fst).map (fun o => o.model.weight * o.path.weight) =
      os.map (fun o => o.model.weight * o.path.weight) := by rw [List.zipIdx_map_fst]
  rw [h.realizations, ← hfst, List.map_map, List.map_map]
  rfl

theorem normalize_sampled (hs : sampling.isSampling = true) (a : Association W) : a.normalize sampling =
    if a.realizations.length = sampling.count then .ok (a.reweight (fun _ => Scalar.one / Scalar.ofNat sampling.count))
    else .error (.sampleCount sampling.count a.realizations.length) := by
  rw [normalize, if_pos hs]

theorem normalize_enumerated (hs : sampling.isSampling = false) (a : Association W) : a.normalize sampling =
    if Scalar.isZero (Scalar.sum (a.realizations.map Realization.weight)) then .error .noViableRealizations
    else .ok (a.reweight (fun w => w / Scalar.sum (a.realizations.map Realization.weight))) := by
  rw [normalize, if_neg (by simp [hs])]

end Association

/-! ## Built associations -/

theorem total_filter_add {α : Type} (f : α → Nat) (p : α → Bool) : ∀ l : List α,
    total ((l.filter p).map f) + total ((l.filter (fun a => !p a)).map f) = total (l.map f)
  | [] => rfl
  | a :: l => by
    have ih := total_filter_add f p l
    cases hp : p a <;> simp only [List.filter_cons, hp, Bool.not_true, Bool.not_false, Bool.false_eq_true, ↓reduceIte,
      List.map_cons, total_cons] <;> omega

theorem total_filter_eq {α : Type} {f : α → Nat} {l : List α} (hpos : ∀ a ∈ l, 0 < f a) (p : α → Bool) :
    total ((l.filter p).map f) = total (l.map f) ↔ ∀ a ∈ l, p a = true := by
  have hadd := total_filter_add f p l
  have hleft := total_pos_iff ((l.filter (fun a => !p a)).map f)
  constructor
  · intro heq a ha
    by_contra hp
    have hmem : a ∈ l.filter (fun a => !p a) := List.mem_filter.2 ⟨ha, by simpa using hp⟩
    have := hleft.2 ⟨f a, List.mem_map_of_mem hmem, hpos a ha⟩
    omega
  · intro hall
    rw [List.filter_eq_self.2 hall]

namespace Composite

theorem byOrdinal_of_ordered {ms : List (SourceModel S W)} (h : (ms.map SourceModel.ordinal).Pairwise (· ≤ ·)) :
    (byOrdinal ms).map Prod.fst = ms := by
  have hsorted : ms.zipIdx.Pairwise (fun a b => decide (a.1.ordinal ≤ b.1.ordinal) = true) := by
    rw [← List.zipIdx_map_fst 0 ms, List.map_map, List.pairwise_map] at h
    exact h.imp fun hab => decide_eq_true hab
  rw [byOrdinal, sortBy_eq_self hsorted, List.zipIdx_map_fst]

theorem byOrdinal_of_consistent [Source S] {c : Composite S W} (hc : c.Consistent) :
    (byOrdinal c.models).map Prod.fst = c.models := by
  refine byOrdinal_of_ordered ?_
  rw [hc.ordinals]
  exact List.pairwise_le_range

variable [Scalar W]

def drawnSamples (weight : SourceGroup S → W) (c : Composite S W) : Nat :=
  total ((c.models.filter (fun m => !m.isSkipped weight)).map SourceModel.samples)

/-- **All draws are left exactly if no model is skipped**, as long as a word holds their number. -/
theorem drawnSamples_eq_iff {weight : SourceGroup S → W} {c : Composite S W} (hd : c.DrawnEnough)
    (hs : c.sampling.isSampling = true) (hfits : total (c.models.map SourceModel.samples) < wordBound) :
    c.drawnSamples weight = c.sampling.count ↔ ∀ m ∈ c.models, m.isSkipped weight = false := by
  rw [← hd.total hs, wordTotal_of_lt hfits, drawnSamples, total_filter_eq hd.drawn]
  simp only [Bool.not_eq_true']

def enumeratedWeight (weight : SourceGroup S → W) (c : Composite S W) : W :=
  Scalar.sum (c.models.flatMap (fun m => Association.pathWeights (m.reduceToLive weight)))

theorem enumeratedWeight_of_skipped {weight : SourceGroup S → W} {c : Composite S W}
    (h : ∀ m ∈ c.models, m.isSkipped weight = true) : c.enumeratedWeight weight = Scalar.emptySum := by
  have hnone : c.models.flatMap (fun m => Association.pathWeights (m.reduceToLive weight)) = [] := by
    refine List.flatMap_eq_nil_iff.2 fun m hm => ?_
    rw [Association.pathWeights, BranchSetTree.enumerate, SourceModel.isEmpty_reduceToLive, if_pos (h m hm)]
    rfl
  rw [enumeratedWeight, hnone]
  rfl

structure Settled (weight : SourceGroup S → W) (c : Composite S W) (result : Except Abort (Association W)) : Prop where
  linked : ∀ g draw, result ≠ .error (.failed (.missingCollection g draw))
  /-- A sampling fails exactly if other than the number of samples are left, and tells how many draws there are. -/
  mismatched : c.sampling.isSampling = true →
    (result = .error (.failed (.sampleCount c.sampling.count (c.drawnSamples weight))) ↔
      c.drawnSamples weight ≠ c.sampling.count)
  /-- Otherwise it gives as many realizations as were asked for, all of the same weight. -/
  sampled : c.sampling.isSampling = true → c.drawnSamples weight = c.sampling.count → ∃ a, result = .ok a ∧
    a.realizations.length = c.sampling.count ∧
    ∀ r ∈ a.realizations, r.weight = Scalar.one / Scalar.ofNat c.sampling.count
  /-- There are other than the number of samples exactly if a model is skipped, if a word holds the number of all draws. -/
  skipped : c.sampling.isSampling = true → total (c.models.map SourceModel.samples) < wordBound →
    (c.drawnSamples weight ≠ c.sampling.count ↔ ∃ m ∈ c.models, m.isSkipped weight = true)
  /-- An enumeration fails exactly if the weight of all paths is zero. -/
  unviable : c.sampling.isSampling = false →
    (result = .error (.failed .noViableRealizations) ↔ Scalar.isZero (c.enumeratedWeight weight) = true)
  enumerated : c.sampling.isSampling = false → Scalar.isZero (c.enumeratedWeight weight) = false → ∃ a, result = .ok a
  weightless : (∀ m ∈ c.models, m.isSkipped weight = true) → Scalar.isZero (c.enumeratedWeight weight) = true

variable [Source S] {c : Composite S W} {weight : SourceGroup S → W}

theorem exists_addModels_of_consistent (hc : c.Consistent) (hd : c.DrawnEnough)
    (paths : ∀ m ∈ c.models, ∃ ps, (m.reduceToLive weight).paths c.sampling = .ok ps) : ∃ b : Association W,
    (Association.addModels c.sampling weight ((byOrdinal c.models).map Prod.fst)
      (Association.empty c.composition)).2 = .ok b := by
  rw [byOrdinal_of_consistent hc]
  refine Association.exists_addModels c.sampling weight c.models (Association.empty c.composition) fun m hm => ?_
  obtain ⟨ps, hps⟩ := paths m hm
  refine ⟨ps, hps, fun hs g hg i hi => (hc.collections g i).2 ⟨m, hm, hs, hg, ?_⟩⟩
  cases hsampling : c.sampling.isSampling with
  | false => exact absurd hs (Nat.not_lt.2 (hd.once hsampling m hm))
  | true =>
    rw [Association.length_paths hsampling hps] at hi
    split at hi
    · exact absurd hi (Nat.not_lt_zero i)
    · exact hi

/-- The association before its weights are made to add up: its realizations and their weights. -/
theorem exists_added (hc : c.Consistent) (hd : c.DrawnEnough)
    (paths : ∀ m ∈ c.models, ∃ ps, (m.reduceToLive weight).paths c.sampling = .ok ps) : ∃ b : Association W,
    (c.associateBy weight).2 = Abort.lift (b.normalize c.sampling) ∧
    (c.sampling.isSampling = true → b.realizations.length = c.drawnSamples weight) ∧
    (c.sampling.isSampling = false → b.realizations.map Realization.weight =
      c.models.flatMap (fun m => Association.pathWeights (m.reduceToLive weight))) := by
  obtain ⟨b, hb⟩ := exists_addModels_of_consistent hc hd paths
  obtain ⟨cs, hcs, hbuilt, -⟩ := Association.exists_contributions hb
  rw [byOrdinal_of_consistent hc] at hcs
  refine ⟨b, ?_, fun hs => ?_, fun hs => ?_⟩
  · unfold associateBy
    dsimp only
    rw [hb]
    rfl
  · rw [hbuilt.length_eq, Association.length_contributions hs hcs]
    rfl
  · rw [hbuilt.weights_eq, Association.weights_contributions hs hcs]

/-- **A sampling ends with all draws or with the number of those that are left.** -/
theorem associateBy_sampled (hc : c.Consistent) (hd : c.DrawnEnough)
    (paths : ∀ m ∈ c.models, ∃ ps, (m.reduceToLive weight).paths c.sampling = .ok ps)
    (hs : c.sampling.isSampling = true) : ∃ b : Association W, b.realizations.length = c.drawnSamples weight ∧
      (c.associateBy weight).2 = if c.drawnSamples weight = c.sampling.count then
        .ok (b.reweight (fun _ => Scalar.one / Scalar.ofNat c.sampling.count))
      else .error (.failed (.sampleCount c.sampling.count (c.drawnSamples weight))) := by
  obtain ⟨b, hresult, hlength, -⟩ := exists_added hc hd paths
  refine ⟨b, hlength hs, ?_⟩
  rw [hresult, Association.normalize_sampled hs, hlength hs]
  split <;> rfl

/-- **An enumeration ends with an association unless the weight of all paths is zero.** -/
theorem associateBy_enumerated (hc : c.Consistent) (hd : c.DrawnEnough)
    (paths : ∀ m ∈ c.models, ∃ ps, (m.reduceToLive weight).paths c.sampling = .ok ps)
    (hs : c.sampling.isSampling = false) : ∃ a : Association W, (c.associateBy weight).2 =
      if Scalar.isZero (c.enumeratedWeight weight) then .error (.failed .noViableRealizations) else .ok a := by
  obtain ⟨b, hresult, -, hweights⟩ := exists_added hc hd paths
  refine ⟨b.reweight (fun w => w / c.enumeratedWeight weight), ?_⟩
  rw [hresult, Association.normalize_enumerated hs, hweights hs, enumeratedWeight]
  split <;> rfl

/-- **How a build ends depends on the last step alone**, the weighing of the realizations. -/
theorem settled_of_paths (hc : c.Consistent) (hd : c.DrawnEnough)
    (hzero : Scalar.isZero (Scalar.emptySum : W) = true)
    (paths : ∀ m ∈ c.models, ∃ ps, (m.reduceToLive weight).paths c.sampling = .ok ps) :
    c.Settled weight (c.associateBy weight).2 := by
  constructor
  case linked =>
    intro g draw h
    cases hs : c.sampling.isSampling with
    | true =>
      obtain ⟨b, -, hb⟩ := associateBy_sampled hc hd paths hs
      rw [hb] at h
      split at h <;> cases h
    | false =>
      obtain ⟨a, ha⟩ := associateBy_enumerated hc hd paths hs
      rw [ha] at h
      split at h <;> cases h
  case mismatched =>
    intro hs
    obtain ⟨b, -, hb⟩ := associateBy_sampled hc hd paths hs
    rw [hb]
    constructor
    · intro h heq
      rw [if_pos heq] at h
      cases h
    · intro hne
      rw [if_neg hne]
  case skipped =>
    intro hs hfits
    rw [ne_eq, drawnSamples_eq_iff hd hs hfits]
    simp only [not_forall, Bool.not_eq_false, exists_prop]
  case sampled =>
    intro hs hall
    obtain ⟨b, hlength, hb⟩ := associateBy_sampled hc hd paths hs
    rw [hb, if_pos hall]
    refine ⟨_, rfl, ?_, fun r hr => ?_⟩
    · exact (List.length_map _).trans (hlength.trans hall)
    · obtain ⟨r, -, rfl⟩ := List.mem_map.1 hr
      rfl
  case unviable =>
    intro hs
    obtain ⟨a, ha⟩ := associateBy_enumerated hc hd paths hs
    rw [ha]
    constructor
    · intro h
      split at h
      · assumption
      · cases h
    · intro h
      rw [if_pos h]
  case enumerated =>
    intro hs h
    obtain ⟨a, ha⟩ := associateBy_enumerated hc hd paths hs
    exact ⟨a, by rw [ha, if_neg (Bool.eq_false_iff.1 h)]⟩
  case weightless =>
    intro h
    rw [enumeratedWeight_of_skipped h, hzero]

/-- A model that is drawn once, and one that is drawn twice but whose tree does not know its sources. -/
def liveAndIdle : List (ModelBranch Strip Float) :=
  let active := ("Active", [⟨"b1", "A", 1 / 2⟩, ⟨"b2", "B", 1 / 2⟩])
  [{ name := "live", weight := 1 / 2, tree := ⟨.ofList [active]⟩, sources := [{ id := "a", trt := "Active" }] },
   { name := "idle", weight := 1 / 2, tree := ⟨.ofList [active]⟩, samples := 2,
     sources := [{ id := "a", trt := "Stable" }] }]

/-- A model that is drawn once, and two without sources that are each drawn half as often as a word has values. -/
def idleFullWord : List (ModelBranch Strip Float) :=
  let tree : BranchSetTree Float := ⟨.ofList [("Active", [⟨"b1", "A", 1⟩])]⟩
  [{ name := "live", weight := 1 / 2, tree, sources := [{ id := "a", trt := "Active" }] },
   { name := "idle", weight := 1 / 4, tree, samples := twoTo 63 },
   { name := "idler", weight := 1 / 4, tree, samples := twoTo 63 }]

end Composite
end SeismicHazard
