import SeismicHazard.Proofs.Composite.Groups
import SeismicHazard.Proofs.Pairing
import SeismicHazard.Proofs.Processing.Scheduling
import SeismicHazard.Proofs.Source.Soundness
/-!
# Repetition — a pass with nothing left to do

A pass labels every sub-source: it writes the weight and the tag.  Written twice, they are what they were
(`labelled_labelled`), so a pass over whole sources, which are all kept and split into themselves, only labels and sorts
them (`processWith_of_whole`).  Sources that a pass leaves are labelled and sorted (`Refills.refilled`); if they are whole,
the next pass changes nothing (`process_repeats`).
-/
namespace SeismicHazard

/-- Sources whose weight and tag are apart from each other and from everything else, and that are not changed when what
they hold is written again. -/
class WrittenApart (S : Type) [Source S] : Prop extends TagApart S where
  kind_setTag : ∀ (s : S) (g : GroupId), Source.kind (Source.setTag s g) = Source.kind s
  id_setWeight : ∀ (s : S) (w : Float), Source.id (Source.setWeight s w) = Source.id s
  trt_setWeight : ∀ (s : S) (w : Float), Source.trt (Source.setWeight s w) = Source.trt s
  kind_setWeight : ∀ (s : S) (w : Float), Source.kind (Source.setWeight s w) = Source.kind s
  ruptures_setWeight : ∀ (s : S) (w : Float), Source.ruptures (Source.setWeight s w) = Source.ruptures s
  setWeight_setTag : ∀ (s : S) (g : GroupId) (w : Float),
    Source.setWeight (Source.setTag s g) w = Source.setTag (Source.setWeight s w) g
  setWeight_setWeight : ∀ (s : S) (w : Float), Source.setWeight (Source.setWeight s w) w = Source.setWeight s w
  setTag_setTag : ∀ (s : S) (g : GroupId), Source.setTag (Source.setTag s g) g = Source.setTag s g

instance : WrittenApart Strip where
  kind_setTag _ _ := rfl
  id_setWeight _ _ := rfl
  trt_setWeight _ _ := rfl
  kind_setWeight _ _ := rfl
  ruptures_setWeight _ _ := rfl
  setWeight_setTag _ _ _ := rfl
  setWeight_setWeight _ _ := rfl
  setTag_setTag _ _ := rfl

variable {S W : Type}

namespace SourceGroup

variable [Source S]

@[simp] theorem refill_refill (g : SourceGroup S) (sources : List S) :
    (g.refill sources).refill sources = g.refill sources := by
  rw [refill_eq, refill_eq]
  rfl

end SourceGroup

namespace Processor

variable [Source S]

/-! ## One source -/

section Labelled

variable [WrittenApart S]

theorem id_labelled (g : GroupId) (s : S) : Source.id (labelled g s) = Source.id s := by
  rw [labelled, TagApart.id_setTag, WrittenApart.id_setWeight]

theorem trt_labelled (g : GroupId) (s : S) : Source.trt (labelled g s) = Source.trt s := by
  rw [labelled, TagApart.trt_setTag, WrittenApart.trt_setWeight]

theorem ruptures_labelled (g : GroupId) (s : S) : Source.ruptures (labelled g s) = Source.ruptures s := by
  rw [labelled, TagApart.ruptures_setTag, WrittenApart.ruptures_setWeight]

theorem sourceWeight_labelled (g : GroupId) (s : S) : sourceWeight (labelled g s) none = sourceWeight s none := by
  have hkind : Source.kind (labelled g s) = Source.kind s := by
    rw [labelled, WrittenApart.kind_setTag, WrittenApart.kind_setWeight]
  unfold sourceWeight
  dsimp only
  rw [hkind, ruptures_labelled]

theorem labelled_labelled (g : GroupId) (s : S) : labelled g (labelled g s) = labelled g s := by
  calc labelled g (labelled g s)
      = Source.setTag (Source.setWeight (labelled g s) (sourceWeight s none)) g := by
        rw [labelled, sourceWeight_labelled]
    _ = Source.setTag (Source.setTag (Source.setWeight s (sourceWeight s none)) g) g := by
        rw [labelled, WrittenApart.setWeight_setTag, WrittenApart.setWeight_setWeight]
    _ = labelled g s := WrittenApart.setTag_setTag _ g

end Labelled

/-! ## Whole sources -/

/-- The sources of the group are kept, for a filter finds sites for them, and each splits into itself and nothing
else. -/
def Whole (p : Processor S) (g : SourceGroup S) : Prop :=
  ∀ s ∈ g.sources, (∀ sites ∈ p.sites, ∃ found, sites s p.settings.maximumDistance = .ok found ∧ found ≠ []) ∧
    Source.split s p.settings.discretization = .ok [s]

theorem Whole.survives {p : Processor S} {g : SourceGroup S} (h : p.Whole g) {s : S} (hs : s ∈ g.sources) :
    p.survives s = true := by
  unfold Processor.survives
  cases hsites : p.sites with
  | none => rfl
  | some sites =>
    obtain ⟨found, hfound, hne⟩ := (h s hs).1 sites hsites
    dsimp only
    rw [hfound]
    change (!found.isEmpty) = true
    rw [List.isEmpty_eq_false_iff.2 hne]
    rfl

theorem Whole.splits {p : Processor S} {g : SourceGroup S} (h : p.Whole g) : p.Splits g :=
  ⟨fun s hs sites hsites => by obtain ⟨_, hfound, -⟩ := (h s hs).1 sites hsites; rw [hfound]; rfl,
    fun s hs _ => by rw [(h s hs).2]; rfl⟩

theorem Whole.offered {p : Processor S} {g : SourceGroup S} (h : p.Whole g) :
    p.offered g = g.sources.map (labelled g.id) := by
  have hkept : g.sources.filter p.survives = g.sources :=
    List.filter_eq_self.2 fun s hs => h.survives hs
  have hpieces : g.sources.flatMap p.piecesOf = g.sources.flatMap (fun s => [s]) :=
    List.flatMap_congr fun s hs => by rw [piecesOf, (h s hs).2]; rfl
  rw [Processor.offered, hkept, hpieces, List.flatMap_singleton']

/-! ## The groups that a pass leaves -/

structure Refilled (g : SourceGroup S) (sources : List S) : Prop where
  accepted : g.Accepts sources
  sorted : sources.Pairwise (fun a b => leById a b = true)
  isLabelled : ∀ s ∈ sources, ∃ t, s = labelled g.id t

theorem exists_labelled_of_yield {p : Processor S} {x : GroupId × S} {g : GroupId} {s : S}
    (h : s ∈ (p.yield x).sourcesOf g) : ∃ t, s = labelled g t := by
  unfold yield filterAndSplit at h
  cases hparts : p.parts x.1 x.2 with
  | error e =>
    rw [hparts] at h
    cases h
  | ok subs =>
    rw [hparts] at h
    change s ∈ ((SortedMap.empty.insert x.1 subs).get? g).getD [] at h
    rw [SortedMap.get?_insert] at h
    split at h
    · rename_i hg
      obtain rfl := Std.LawfulEqCmp.eq_of_compare hg
      unfold parts at hparts
      obtain ⟨kept, -, hparts⟩ := Outcome.bind_eq_ok.1 hparts
      cases kept with
      | false =>
        cases hparts
        cases h
      | true =>
        obtain ⟨pieces, -, hparts⟩ := Outcome.bind_eq_ok.1 hparts
        cases hparts
        obtain ⟨t, -, rfl⟩ := List.mem_map.1 h
        exact ⟨t, rfl⟩
    · cases h

theorem exists_labelled_of_runHalf {p : Processor S} {m : TaskManager} {l : List (GroupId × S)} {r : SplitResult S}
    (h : p.runHalf m l = .ok r) {g : GroupId} {s : S} (hs : s ∈ r.sourcesOf g) : ∃ t, s = labelled g t := by
  rw [sourcesOf_run h] at hs
  obtain ⟨x, -, hs⟩ := List.mem_flatMap.1 hs
  exact exists_labelled_of_yield hs

theorem refilled_of_replacements : ∀ {gs : List (SourceGroup S)} {byGroup : SortedMap GroupId (List S)}
    {sources : List (List S)}, (∀ g s, s ∈ (byGroup.get? g).getD [] → ∃ t, s = labelled g t) →
    replacements gs byGroup = .ok sources → List.Forall₂ Refilled gs sources
  | [], _, _, _, h => by
    cases h
    exact .nil
  | g :: gs, byGroup, sources, hlabelled, h => by
    obtain ⟨u, hcheck, h⟩ := Outcome.bind_eq_ok.1 h
    obtain ⟨rest, hrest, h⟩ := Outcome.bind_eq_ok.1 h
    cases h
    refine .cons ⟨hcheck, sortBy_pairwise leById_trans leById_total _, fun s hs => ?_⟩
      (refilled_of_replacements (fun g' s hs => ?_) hrest)
    · exact hlabelled g.id s ((sortBy_perm leById _).mem_iff.1 hs)
    · rw [SortedMap.get?_erase] at hs
      split at hs
      · cases hs
      · exact hlabelled g' s hs

/-- **A pass refills every group with labelled sources in order**, whoever runs the heavy ones. -/
theorem Refills.refilled {p : Processor S} {runHeavy : List (GroupId × S) → Half S} (managed : p.Manages runHeavy)
    {c : Composite S W} {sources : List (List S)} (h : p.Refills runHeavy c sources) :
    List.Forall₂ Refilled c.groups sources := by
  -- the heavy sources may as well be run one after the other
  obtain ⟨-, r, hjoin, hr⟩ := managed.refills (p.manages_half .sequential .parallel) h
  obtain ⟨light, heavy, hlight, hheavy, rfl⟩ := joinHalves_eq_ok.1 hjoin
  refine refilled_of_replacements (fun g s hs => ?_) hr
  change s ∈ (light.merge heavy).sourcesOf g at hs
  rw [SplitResult.sourcesOf_merge, List.mem_append] at hs
  rcases hs with hs | hs
  · exact exists_labelled_of_runHalf hlight hs
  · exact exists_labelled_of_runHalf hheavy hs

/-- A group that a pass left: it accepted its sources, which are in order and labelled. -/
def LeftBy (g g' : SourceGroup S) : Prop := ∃ sources, Refilled g sources ∧ g' = g.refill sources

theorem LeftBy.id_eq {g g' : SourceGroup S} (h : LeftBy g g') : g.id = g'.id := by
  obtain ⟨sources, -, rfl⟩ := h
  rw [SourceGroup.refill_eq]
  rfl

theorem LeftBy.accepts {g g' : SourceGroup S} (h : LeftBy g g') : g'.Accepts g'.sources := by
  obtain ⟨sources, hrefilled, rfl⟩ := h
  have hsound := SourceGroup.sound_refill hrefilled.accepted
  exact SourceGroup.accepts_iff.2 ⟨hsound.trts, hsound.distinct⟩

theorem leftBy_processWith {p : Processor S} {runHeavy : List (GroupId × S) → Half S} (managed : p.Manages runHeavy)
    {stamp : PassStamp} {c : Composite S W} (h : (p.processWith runHeavy stamp c).result.isOk = true) :
    List.Forall₂ LeftBy c.groups (p.processWith runHeavy stamp c).composite.groups := by
  obtain ⟨sources, hrefills⟩ := (isOk_processWith_iff p runHeavy stamp c).1 h
  have hleft : List.Forall₂ LeftBy c.groups (List.zipWith SourceGroup.refill c.groups sources) :=
    forall₂_zipWith (fun g l hrefilled => ⟨l, hrefilled, rfl⟩) (hrefills.refilled managed)
  obtain ⟨valid, r, hjoin, hrepl⟩ := hrefills
  rw [(processWith_of_ok stamp valid hjoin hrepl).2]
  change List.Forall₂ LeftBy c.groups ((Composite.regroup c.models _).flatMap SourceModel.groups)
  rw [Composite.groups_setGroups hleft.length_eq.symm]
  exact hleft

/-! ## Passes -/

/-- **A pass moves every sub-source to its own group**, whoever runs the heavy sources. -/
theorem processWith_of_splits {p : Processor S} {runHeavy : List (GroupId × S) → Half S} (managed : p.Manages runHeavy)
    (stamp : PassStamp) {c : Composite S W} (groups : (c.groups.map SourceGroup.id).Nodup)
    (valid : p.settings.validate = .ok ()) (splits : ∀ g ∈ c.groups, p.Splits g)
    (accepts : ∀ g ∈ c.groups, g.Accepts (p.offered g)) :
    (p.processWith runHeavy stamp c).result = .ok stamp.times ∧
      ∃ report, (p.processWith runHeavy stamp c).composite =
        { c.mapGroups p.redistributed with report := some report } := by
  obtain ⟨r, hjoin, hrepl⟩ := exists_joined .sequential groups splits accepts
  -- a pass that runs the heavy sources one after the other gets this far, so any pass does
  obtain ⟨-, r', hjoin', hrepl'⟩ := (p.manages_half .sequential .parallel).refills managed ⟨valid, r, hjoin, hrepl⟩
  exact processWith_of_joined stamp valid hjoin' hrepl'

/-- The group with its sources in the order of their identifiers, each with its weight and the tag of the group, and
with their ruptures and their magnitude range. -/
def tidied (g : SourceGroup S) : SourceGroup S :=
  let sorted := sortBy (fun a b => (compare (Source.id a) (Source.id b)).isLE) g.sources
  { g.setSources (sorted.map (fun s => Source.setTag (Source.setWeight s (sourceWeight s none)) g.id)) with
    ruptures := wordTotal (g.sources.map Source.ruptures) }

theorem tidied_eq (g : SourceGroup S) :
    tidied g = { g.setSources ((sortBy leById g.sources).map (labelled g.id)) with ruptures := g.totalRuptures } := rfl

variable [WrittenApart S]

theorem sortBy_map_labelled (g : GroupId) (sources : List S) :
    sortBy leById (sources.map (labelled g)) = (sortBy leById sources).map (labelled g) := by
  refine eq_map_of_forall₂ (forall₂_sortBy (fun a b a' b' ha hb => ?_)
    (forall₂_map_self (R := fun a b => b = labelled g a) (fun _ => rfl) sources))
  unfold leById
  rw [ha, hb, id_labelled, id_labelled]

theorem redistributed_of_whole {p : Processor S} {g : SourceGroup S} (h : p.Whole g) :
    p.redistributed g = tidied g := by
  have hruptures : wordTotal (((sortBy leById g.sources).map (labelled g.id)).map Source.ruptures) = g.totalRuptures := by
    have hsame : Source.ruptures ∘ labelled (S := S) g.id = Source.ruptures := funext fun s => ruptures_labelled g.id s
    rw [List.map_map, hsame]
    exact wordTotal_perm ((sortBy_perm leById g.sources).map Source.ruptures)
  have hsorted : sortBy leById (p.offered g) = (sortBy leById g.sources).map (labelled g.id) := by
    rw [h.offered, sortBy_map_labelled]
  have hredistributed : p.redistributed g = { g.setSources (sortBy leById (p.offered g)) with
      ruptures := wordTotal ((sortBy leById (p.offered g)).map Source.ruptures) } := rfl
  rw [hredistributed, tidied_eq, hsorted, hruptures]

theorem Whole.accepts_offered {p : Processor S} {g : SourceGroup S} (h : p.Whole g) (accepts : g.Accepts g.sources) :
    g.Accepts (p.offered g) := by
  obtain ⟨htrt, hnodup⟩ := SourceGroup.accepts_iff.1 accepts
  have hids : Source.id ∘ labelled (S := S) g.id = Source.id := funext fun s => id_labelled g.id s
  rw [h.offered]
  refine SourceGroup.accepts_iff.2 ⟨fun s hs => ?_, by rwa [List.map_map, hids]⟩
  obtain ⟨t, ht, rfl⟩ := List.mem_map.1 hs
  rw [trt_labelled]
  exact htrt t ht

theorem processWith_of_whole {p : Processor S} {runHeavy : List (GroupId × S) → Half S} (managed : p.Manages runHeavy)
    (stamp : PassStamp) {c : Composite S W} (groups : (c.groups.map SourceGroup.id).Nodup)
    (valid : p.settings.validate = .ok ()) (whole : ∀ g ∈ c.groups, p.Whole g)
    (accepts : ∀ g ∈ c.groups, g.Accepts g.sources) :
    (p.processWith runHeavy stamp c).result = .ok stamp.times ∧
      ∃ report, (p.processWith runHeavy stamp c).composite = { c.mapGroups tidied with report := some report } := by
  obtain ⟨hok, report, hcomp⟩ := processWith_of_splits managed stamp groups valid (fun g hg => (whole g hg).splits)
    fun g hg => (whole g hg).accepts_offered (accepts g hg)
  rw [Composite.mapGroups_congr fun g hg => redistributed_of_whole (whole g hg)] at hcomp
  exact ⟨hok, report, hcomp⟩

theorem LeftBy.tidied_eq {g g' : SourceGroup S} (h : LeftBy g g') : tidied g' = g' := by
  obtain ⟨sources, hrefilled, rfl⟩ := h
  have hlabelled : sources.map (labelled g.id) = sources := by
    refine (List.map_congr_left fun s hs => ?_).trans (List.map_id sources)
    obtain ⟨t, rfl⟩ := hrefilled.isLabelled s hs
    exact labelled_labelled g.id t
  have hsources : (g.refill sources).sources = sources := by rw [SourceGroup.refill_eq]; rfl
  have hid : (g.refill sources).id = g.id := by rw [SourceGroup.refill_eq]; rfl
  rw [Processor.tidied_eq, SourceGroup.totalRuptures, hsources, hid, sortBy_eq_self hrefilled.sorted, hlabelled,
    ← SourceGroup.refill_eq, SourceGroup.refill_refill]

structure Repeats (p : Processor S) (c : Composite S W) : Prop where
  /-- Once a pass has succeeded and left whole sources, the next one succeeds and changes nothing but the report,
  whoever runs the heavy sources. -/
  again : ∀ run₁ run₂, p.Manages run₁ → p.Manages run₂ → ∀ stamp₁ stamp₂ first,
    p.processWith run₁ stamp₁ c = first → first.result.isOk = true → (∀ g ∈ first.composite.groups, p.Whole g) →
    (p.processWith run₂ stamp₂ first.composite).result = .ok stamp₂.times ∧
      ∃ report, (p.processWith run₂ stamp₂ first.composite).composite = { first.composite with report := some report }
  /-- If the sources are whole to begin with, have the tectonic region types of their groups and differ in their
  identifiers, the groups are tidied up. -/
  once : (∀ g ∈ c.groups, p.Whole g) → (∀ g ∈ c.groups, ∀ s ∈ g.sources, Source.trt s = g.trt) →
    (∀ g ∈ c.groups, (g.sources.map Source.id).Nodup) → ∀ runHeavy, p.Manages runHeavy → ∀ stamp,
    (p.processWith runHeavy stamp c).result = .ok stamp.times ∧
      ∃ report, (p.processWith runHeavy stamp c).composite = { c.mapGroups tidied with report := some report }
  managed : ∀ (m : TaskManager) mode, p.Manages (p.half m mode)

/-- A group with a heavy source that is cut in two and a light one, in no order, and a source out of reach. -/
def cutOnce : Composite Strip Rat :=
  .ofModels [⟨"model", 1, ["m"], [
    { id := ⟨1⟩, trt := "Active", sources := [{ id := "light", trt := "Active", kind := .point, ruptures := 3 },
      { id := "cut", trt := "Active", ruptures := 4, extent := 20 },
      { id := "far", trt := "Active", distances := [300] }] },
    { id := ⟨2⟩, trt := "Stable", sources := [{ id := "b", trt := "Stable" }, { id := "a", trt := "Stable" }] }],
    .empty, 0, 1⟩] {}

theorem split_short {s : Strip} {d : Float} (plain : s.breaks = false ∧ s.splitFault = none ∧ s.splitTrt = none ∧
    s.parts.isNone = true) (short : s.pieceCount d = 1) : Source.split s d = .ok [s] := by
  obtain ⟨hbreaks, hfault, htrt, hparts⟩ := plain
  change s.split d = .ok [s]
  unfold Strip.split Strip.pieces
  rw [hbreaks, hfault, Option.isNone_iff_eq_none.1 hparts, htrt, short]
  rfl

end Processor
end SeismicHazard
