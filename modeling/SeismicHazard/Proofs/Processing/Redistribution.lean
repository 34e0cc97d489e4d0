import SeismicHazard.Proofs.Composite.Groups
import SeismicHazard.Proofs.Processing.Installation
import SeismicHazard.Proofs.Processing.Merging
import Mathlib.Data.List.Nodup
/-!
# Redistribution — every sub-source comes back to its own group

A pass takes the sources out of their groups, sorts them by cost, runs the two halves apart and merges the results.
`process_redistributes` says that nothing is lost, doubled or moved on the way: each group ends up with the sub-sources
of its own surviving sources, sorted by identifier, and nothing else of the composite is touched.
-/
namespace SeismicHazard

variable {S W : Type} [Source S]

namespace Processor

/-! ## One source -/

/-- Whether a source is in reach of a site; without a filter every source is. -/
def survives (p : Processor S) (s : S) : Bool :=
  match p.sites with
  | none => true
  | some sites => !((sites s p.settings.maximumDistance).toOption.getD []).isEmpty

def piecesOf (p : Processor S) (s : S) : List S := (Source.split s p.settings.discretization).toOption.getD []

/-- A sub-source as its group gets it: with the weight of its own ruptures and the tag of the group. -/
def labelled (g : GroupId) (s : S) : S := Source.setTag (Source.setWeight s (sourceWeight s none)) g

/-- The sub-sources of the surviving sources of a group, in order, each with its weight and its tag. -/
def offered (p : Processor S) (g : SourceGroup S) : List S :=
  ((g.sources.filter p.survives).flatMap p.piecesOf).map (labelled g.id)

/-- No filter and no split fails for the sources of the group. -/
structure Splits (p : Processor S) (g : SourceGroup S) : Prop where
  filtered : ∀ s ∈ g.sources, ∀ sites ∈ p.sites, (sites s p.settings.maximumDistance).isOk = true
  split : ∀ s ∈ g.sources, p.survives s = true → (Source.split s p.settings.discretization).isOk = true

def subsOf (p : Processor S) (x : GroupId × S) : List S :=
  if p.survives x.2 then (p.piecesOf x.2).map (labelled x.1) else []

theorem finish_eq_labelled (g : GroupId) : finish (S := S) g = labelled g := rfl

omit [Source S] in
theorem survives_of_keeps {p : Processor S} {s : S} {kept : Bool} (h : p.keeps s = .ok kept) : p.survives s = kept := by
  unfold keeps at h
  unfold survives
  cases hsites : p.sites with
  | none =>
    rw [hsites] at h
    cases h
    rfl
  | some sites =>
    rw [hsites] at h
    obtain ⟨found, hfound, rfl⟩ := Outcome.map_eq_ok.1 h
    dsimp only
    rw [hfound]
    rfl

omit [Source S] in
theorem keeps_of_isOk {p : Processor S} {s : S}
    (h : ∀ sites ∈ p.sites, (sites s p.settings.maximumDistance).isOk = true) : p.keeps s = .ok (p.survives s) := by
  unfold keeps survives
  cases hsites : p.sites with
  | none => rfl
  | some sites =>
    obtain ⟨found, hfound⟩ := Outcome.isOk_iff.1 (h sites hsites)
    dsimp only
    rw [hfound]
    rfl

def resultOf (p : Processor S) (x : GroupId × S) : SplitResult S :=
  ⟨SortedMap.empty.insert x.1 (p.subsOf x), [p.recordOf x.1 x.2 (p.subsOf x).length]⟩

theorem parts_of_splits {p : Processor S} {g : SourceGroup S} (h : p.Splits g) {s : S} (hs : s ∈ g.sources) :
    p.parts g.id s = .ok (p.subsOf (g.id, s)) := by
  unfold parts subsOf
  rw [keeps_of_isOk (h.filtered s hs), finish_eq_labelled]
  cases hsurvives : p.survives s with
  | false => rfl
  | true =>
    obtain ⟨pieces, hp⟩ := Outcome.isOk_iff.1 (h.split s hs hsurvives)
    rw [piecesOf, hp]
    rfl

theorem filterAndSplit_of_splits {p : Processor S} {g : SourceGroup S} (h : p.Splits g) {s : S} (hs : s ∈ g.sources) :
    p.filterAndSplit g.id s = .ok (p.resultOf (g.id, s)) := by
  rw [filterAndSplit, parts_of_splits h hs]
  rfl

theorem sourcesOf_resultOf (p : Processor S) (x : GroupId × S) (g : GroupId) :
    (p.resultOf x).sourcesOf g = if x.1 = g then p.subsOf x else [] := by
  unfold resultOf SplitResult.sourcesOf
  rw [SortedMap.get?_insert]
  by_cases h : x.1 = g
  · simp [h]
  · have hg : g ≠ x.1 := fun e => h e.symm
    simp [h, hg]

theorem flatMap_subsOf (p : Processor S) (g : GroupId) : ∀ sources : List S,
    sources.flatMap (fun s => p.subsOf (g, s)) = ((sources.filter p.survives).flatMap p.piecesOf).map (labelled g)
  | [] => rfl
  | s :: sources => by
    rw [List.flatMap_cons, flatMap_subsOf p g sources]
    by_cases h : p.survives s = true
    · rw [List.filter_cons_of_pos h, List.flatMap_cons, List.map_append, subsOf, if_pos h]
    · rw [List.filter_cons_of_neg h, subsOf, if_neg h, List.nil_append]

/-! ## Both halves -/

theorem halves_perm (l : List (GroupId × S)) : ((halves l).2 ++ (halves l).1).Perm l := by
  rw [halves, List.partition_eq_filter_filter]
  exact List.perm_append_comm.trans (List.filter_append_perm (fun s => isHeavy s.2) l)

def valueOf (p : Processor S) (m : TaskManager) (l : List (GroupId × S)) : SplitResult S :=
  (m.plan l).value .empty SplitResult.merge p.resultOf

theorem runHalf_of_ok {p : Processor S} (m : TaskManager) {l : List (GroupId × S)}
    (h : ∀ x ∈ l, p.filterAndSplit x.1 x.2 = .ok (p.resultOf x)) : p.runHalf m l = .ok (p.valueOf m l) :=
  Reduction.run_of_ok _ _ (m.plan l) fun x hx => h x ((m.complete l).mem_iff.1 hx)

theorem sourcesOf_valueOf (p : Processor S) (m : TaskManager) (l : List (GroupId × S)) (g : GroupId) :
    ((p.valueOf m l).sourcesOf g).Perm (l.flatMap (fun x => if x.1 = g then p.subsOf x else [])) := by
  rw [valueOf, SplitResult.sourcesOf_value]
  simp only [sourcesOf_resultOf]
  exact (m.complete l).flatMap_right _

theorem joinHalves_of_ok {p : Processor S} (m : TaskManager) {l : List (GroupId × S)}
    (h : ∀ x ∈ l, p.filterAndSplit x.1 x.2 = .ok (p.resultOf x)) :
    ∃ r, joinHalves (p.half .sequential .sequential (halves l).2).result (p.half m .parallel (halves l).1).result =
        .ok r ∧
      ∀ g, (r.sourcesOf g).Perm (l.flatMap (fun x => if x.1 = g then p.subsOf x else [])) := by
  have hperm := halves_perm l
  have hlight := runHalf_of_ok .sequential fun x hx => h x (hperm.mem_iff.1 (List.mem_append_left _ hx))
  have hheavy := runHalf_of_ok m fun x hx => h x (hperm.mem_iff.1 (List.mem_append_right _ hx))
  refine ⟨(p.valueOf .sequential (halves l).2).merge (p.valueOf m (halves l).1), ?_, fun g => ?_⟩
  · unfold half
    rw [hlight, hheavy]
    rfl
  · rw [SplitResult.sourcesOf_merge]
    refine ((sourcesOf_valueOf p .sequential _ g).append (sourcesOf_valueOf p m _ g)).trans ?_
    rw [← List.flatMap_append]
    exact hperm.flatMap_right _

/-! ## Back to the groups -/

theorem flatMap_eq_of_nodup {α β γ : Type} [DecidableEq γ] (f : α → γ) (h : α → List β) : ∀ {l : List α},
    (l.map f).Nodup → ∀ a ∈ l, l.flatMap (fun b => if f b = f a then h b else []) = h a
  | [], _, a, ha => by cases ha
  | b :: l, hn, a, ha => by
    rw [List.map_cons, List.nodup_cons] at hn
    rw [List.flatMap_cons]
    rcases List.mem_cons.1 ha with rfl | ha
    · have hne : ∀ b ∈ l, f b ≠ f a := fun b hb e => hn.1 (List.mem_map.2 ⟨b, hb, e⟩)
      rw [if_pos rfl, List.flatMap_eq_nil_iff.2 fun b hb => if_neg (hne b hb), List.append_nil]
    · have hne : f b ≠ f a := fun e => hn.1 (List.mem_map.2 ⟨a, ha, e.symm⟩)
      rw [if_neg hne, List.nil_append]
      exact flatMap_eq_of_nodup f h hn.2 a ha

/-- **The sub-sources of all sources that belong to a group** are what the group is offered. -/
theorem flatMap_taggedSources {p : Processor S} {c : Composite S W} (groups : (c.groups.map SourceGroup.id).Nodup)
    {g : SourceGroup S} (hg : g ∈ c.groups) :
    c.taggedSources.flatMap (fun x => if x.1 = g.id then p.subsOf x else []) = p.offered g := by
  have hgroup : ∀ g' : SourceGroup S, (g'.sources.map (fun s => (g'.id, s))).flatMap
      (fun x => if x.1 = g.id then p.subsOf x else []) = if g'.id = g.id then p.offered g' else [] := by
    intro g'
    rw [List.flatMap_map]
    by_cases h : g'.id = g.id
    · simp only [h, if_true]
      rw [offered, ← h, flatMap_subsOf]
    · simp [h]
  rw [Composite.taggedSources, List.flatMap_assoc]
  simp only [hgroup]
  exact flatMap_eq_of_nodup SourceGroup.id p.offered groups g hg

theorem leById_trans (a b c : S) (hab : leById a b = true) (hbc : leById b c = true) : leById a c = true :=
  Std.TransCmp.isLE_trans hab hbc

theorem leById_total (a b : S) : (leById a b || leById b a) = true := by
  have hswap : compare (Source.id b) (Source.id a) = (compare (Source.id a) (Source.id b)).swap :=
    Std.OrientedCmp.eq_swap
  unfold leById
  rw [hswap]
  cases compare (Source.id a) (Source.id b) <;> rfl

theorem id_eq_of_leById {a b : S} (hab : leById a b = true) (hba : leById b a = true) :
    Source.id a = Source.id b :=
  Std.LawfulEqCmp.eq_of_compare (Std.OrientedCmp.isLE_antisymm hab hba)

theorem sortBy_leById_congr {l r : List S} (h : l.Perm r) (hn : (r.map Source.id).Nodup) :
    sortBy leById l = sortBy leById r := by
  refine sortBy_eq_of_perm leById_trans leById_total h fun a ha b hb hab hba => ?_
  exact List.inj_on_of_nodup_map hn (h.mem_iff.1 ha) (h.mem_iff.1 hb) (id_eq_of_leById hab hba)

theorem replacements_of_accepts (f : SourceGroup S → List S) {gs : List (SourceGroup S)}
    {byGroup : SortedMap GroupId (List S)} (groups : (gs.map SourceGroup.id).Nodup)
    (hf : ∀ g ∈ gs, sortBy leById ((byGroup.get? g.id).getD []) = f g) (accepts : ∀ g ∈ gs, g.Accepts (f g)) :
    replacements gs byGroup = .ok (gs.map f) :=
  (meets_replacements f groups hf).eq_ok
    (List.filterMap_eq_nil_iff.2 fun g hg => SourceGroup.accepts_iff_fault?.1 (accepts g hg))

/-! ## The pass -/

/-- The group with the sub-sources of its own sources, sorted by identifier, their magnitude range and the sum of their
ruptures in a word. -/
def redistributed (p : Processor S) (g : SourceGroup S) : SourceGroup S :=
  let sources := sortBy (fun a b => (compare (Source.id a) (Source.id b)).isLE) (p.offered g)
  { g.setSources sources with ruptures := wordTotal (sources.map Source.ruptures) }

theorem taggedSources_of_splits {p : Processor S} {c : Composite S W} (splits : ∀ g ∈ c.groups, p.Splits g) :
    ∀ x ∈ c.taggedSources, p.filterAndSplit x.1 x.2 = .ok (p.resultOf x) := by
  intro x hx
  obtain ⟨g, hg, hx⟩ := List.mem_flatMap.1 hx
  obtain ⟨s, hs, rfl⟩ := List.mem_map.1 hx
  exact filterAndSplit_of_splits (splits g hg) hs

/-- **If no filter and no split fails, every group is offered its own sub-sources**, which it accepts if they fit. -/
theorem exists_joined {p : Processor S} (m : TaskManager) {c : Composite S W}
    (groups : (c.groups.map SourceGroup.id).Nodup) (splits : ∀ g ∈ c.groups, p.Splits g)
    (accepts : ∀ g ∈ c.groups, g.Accepts (p.offered g)) :
    ∃ r, joinHalves (p.half .sequential .sequential (halves c.taggedSources).2).result
        (p.half m .parallel (halves c.taggedSources).1).result = .ok r ∧
      replacements c.groups r.byGroup = .ok (c.groups.map (fun g => sortBy leById (p.offered g))) := by
  obtain ⟨r, hjoin, hr⟩ := joinHalves_of_ok m (taggedSources_of_splits splits)
  refine ⟨r, hjoin, replacements_of_accepts (fun g => sortBy leById (p.offered g)) groups (fun g hg => ?_) fun g hg =>
    (accepts g hg).of_perm (sortBy_perm leById _)⟩
  refine sortBy_leById_congr ?_ (SourceGroup.accepts_iff.1 (accepts g hg)).2
  rw [← flatMap_taggedSources groups hg]
  exact hr g.id

theorem processWith_of_joined {p : Processor S} {runHeavy : List (GroupId × S) → Half S} (stamp : PassStamp)
    {c : Composite S W} {r : SplitResult S} (valid : p.settings.validate = .ok ())
    (hjoin : joinHalves (p.half .sequential .sequential (halves c.taggedSources).2).result
      (runHeavy (halves c.taggedSources).1).result = .ok r)
    (hrepl : replacements c.groups r.byGroup = .ok (c.groups.map (fun g => sortBy leById (p.offered g)))) :
    (p.processWith runHeavy stamp c).result = .ok stamp.times ∧
      ∃ report, (p.processWith runHeavy stamp c).composite =
        { c.mapGroups p.redistributed with report := some report } := by
  obtain ⟨hok, hcomp⟩ := processWith_of_ok stamp valid hjoin hrepl
  have hgroups : List.zipWith SourceGroup.refill c.groups (c.groups.map (fun g => sortBy leById (p.offered g))) =
      c.groups.map p.redistributed := by
    rw [List.zipWith_map_right, List.zipWith_self]
    simp only [SourceGroup.refill_eq]
    rfl
  rw [hgroups, Composite.setGroups_map] at hcomp
  exact ⟨hok, _, hcomp⟩

/-- Two models.  One source of the first group is heavy and is cut in two, another is out of reach of the site; the source
of the second group is light. -/
def heavyAndLight : Composite Strip Rat :=
  .ofModels [
    ⟨"first", 1 / 2, ["m1"], [{ id := ⟨1⟩, trt := "Active", sources :=
      [{ id := "cut", trt := "Active", extent := 20 }, { id := "far", trt := "Active", distances := [300] }] }],
      .empty, 0, 1⟩,
    ⟨"second", 1 / 2, ["m2"], [{ id := ⟨2⟩, trt := "Stable", sources :=
      [{ id := "light", trt := "Stable", kind := .point, ruptures := 3 }] }], .empty, 1, 1⟩] {}

/-- A group with two sources, each with half as many ruptures as a word has values. -/
def fullWord : Composite Strip Rat :=
  .ofModels [⟨"model", 1, ["m"], [{ id := ⟨1⟩, trt := "Active", sources :=
    [{ id := "a", trt := "Active", ruptures := twoTo 63 }, { id := "b", trt := "Active", ruptures := twoTo 63 }] }],
    .empty, 0, 1⟩] {}

end Processor
end SeismicHazard
