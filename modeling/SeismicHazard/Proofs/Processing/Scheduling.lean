import SeismicHazard.Proofs.Processing.Redistribution
/-!
# Scheduling — the order of the heavy work does not show

Results of heavy sources are merged by joining lists, so what comes of a batch depends on the order of its tasks.  The
groups do not see it: a batch with the same tasks holds the same sub-sources for every group up to their order
(`sourcesOf_run`), and a group sorts what it is offered and takes it only if the identifiers differ
(`replacements_congr`).  So any two ways to run the heavy sources end a pass alike (`process_schedule_independent`).
-/
namespace SeismicHazard

namespace Processor

variable {S W : Type}

theorem joinHalves_eq_ok {light heavy : Except Abort (SplitResult S)} {r : SplitResult S} :
    joinHalves light heavy = .ok r ↔ ∃ l h, light = .ok l ∧ heavy = .ok h ∧ r = l.merge h := by
  constructor
  · intro hr
    unfold joinHalves at hr
    split at hr <;> cases hr
    exact ⟨_, _, rfl, rfl, rfl⟩
  · rintro ⟨l, h, rfl, rfl, rfl⟩
    rfl

theorem perm_erase {m₁ m₂ : SortedMap GroupId (List S)}
    (h : ∀ g, ((m₁.get? g).getD []).Perm ((m₂.get? g).getD [])) (g' g : GroupId) :
    (((m₁.erase g').get? g).getD []).Perm (((m₂.erase g').get? g).getD []) := by
  rw [SortedMap.get?_erase, SortedMap.get?_erase]
  split
  · exact List.Perm.refl _
  · exact h g

/-! ## Batches of tasks -/

variable [Source S]

def yield (p : Processor S) (x : GroupId × S) : SplitResult S := (p.filterAndSplit x.1 x.2).toOption.getD .empty

theorem filterAndSplit_of_isOk {p : Processor S} {x : GroupId × S} (h : (p.filterAndSplit x.1 x.2).isOk = true) :
    p.filterAndSplit x.1 x.2 = .ok (p.yield x) := by
  obtain ⟨r, hr⟩ := Outcome.isOk_iff.1 h
  rw [yield, hr]
  rfl

theorem sourcesOf_run {p : Processor S} {t : Reduction (GroupId × S)} {r : SplitResult S}
    (h : t.run .empty SplitResult.merge (fun x => p.filterAndSplit x.1 x.2) = .ok r) (g : GroupId) :
    r.sourcesOf g = t.tasks.flatMap (fun x => (p.yield x).sourcesOf g) := by
  have hvalue := Reduction.run_of_ok .empty SplitResult.merge t fun x hx =>
    filterAndSplit_of_isOk (Reduction.isOk_of_run h x hx)
  rw [h] at hvalue
  cases hvalue
  exact SplitResult.sourcesOf_value p.yield g t

/-- A way to run the heavy sources of a pass.  It is aborted if filtering or splitting fails for one of them; else the
results of all of them, each taken once, are merged with any number of empty results, in any order and bracketing. -/
structure Manages (p : Processor S) (runHeavy : List (GroupId × S) → Half S) : Prop where
  merged : ∀ l, (∀ x ∈ l, (p.filterAndSplit x.1 x.2).isOk = true) → ∃ t : Reduction (GroupId × S), t.tasks.Perm l ∧
    (runHeavy l).result = t.run .empty SplitResult.merge (fun x => p.filterAndSplit x.1 x.2)
  aborted : ∀ l, (∃ x ∈ l, (p.filterAndSplit x.1 x.2).isOk = false) → (runHeavy l).result.isOk = false

theorem manages_of_plan (p : Processor S) (plan : List (GroupId × S) → Reduction (GroupId × S))
    (complete : ∀ l, (plan l).tasks.Perm l) (events : List (GroupId × S) → List TelemetryEvent) :
    p.Manages fun l =>
      ⟨(plan l).run .empty SplitResult.merge (fun x => p.filterAndSplit x.1 x.2), events l⟩ := by
  refine ⟨fun l _ => ⟨plan l, complete l, rfl⟩, fun l ⟨x, hx, hfails⟩ => ?_⟩
  refine Bool.eq_false_iff.2 fun hok => ?_
  obtain ⟨r, hr⟩ := Outcome.isOk_iff.1 hok
  have hx' := Reduction.isOk_of_run hr x ((complete l).mem_iff.2 hx)
  rw [hfails] at hx'
  cases hx'

theorem manages_half (p : Processor S) (m : TaskManager) (mode : RunMode) : p.Manages (p.half m mode) :=
  p.manages_of_plan m.plan m.complete (p.eventsOf m mode)

/-- Two ways to run heavy sources hold the same sub-sources for every group, in some order. -/
theorem Manages.perm_sourcesOf {p : Processor S} {run₁ run₂ : List (GroupId × S) → Half S} (h₁ : p.Manages run₁)
    (h₂ : p.Manages run₂) {l : List (GroupId × S)} {r₁ : SplitResult S} (h : (run₁ l).result = .ok r₁) :
    ∃ r₂, (run₂ l).result = .ok r₂ ∧ ∀ g, (r₁.sourcesOf g).Perm (r₂.sourcesOf g) := by
  have hok : ∀ x ∈ l, (p.filterAndSplit x.1 x.2).isOk = true := fun x hx => by
    refine Bool.not_eq_false _ ▸ fun hfails => ?_
    have := h₁.aborted l ⟨x, hx, hfails⟩
    rw [h] at this
    cases this
  obtain ⟨t₁, hperm₁, hrun₁⟩ := h₁.merged l hok
  obtain ⟨t₂, hperm₂, hrun₂⟩ := h₂.merged l hok
  have hvalue := Reduction.run_of_ok .empty SplitResult.merge t₂ fun x hx =>
    filterAndSplit_of_isOk (hok x (hperm₂.mem_iff.1 hx))
  refine ⟨_, hrun₂.trans hvalue, fun g => ?_⟩
  rw [sourcesOf_run (hrun₁.symm.trans h) g, sourcesOf_run hvalue g]
  exact (hperm₁.trans hperm₂.symm).flatMap_right _

/-! ## Back to the groups -/

/-- **Groups do not see the order of what they are offered**: they accept the same sources or refuse both times. -/
theorem replacements_congr : ∀ {gs : List (SourceGroup S)} {m₁ m₂ : SortedMap GroupId (List S)}
    {sources : List (List S)}, (∀ g, ((m₁.get? g).getD []).Perm ((m₂.get? g).getD [])) →
    replacements gs m₁ = .ok sources → replacements gs m₂ = .ok sources
  | [], _, _, _, _, h => h
  | g :: gs, m₁, m₂, sources, hm, h => by
    obtain ⟨u, hcheck, h⟩ := Outcome.bind_eq_ok.1 h
    obtain ⟨rest, hrest, h⟩ := Outcome.bind_eq_ok.1 h
    cases h
    have hids : (((m₁.get? g.id).getD []).map Source.id).Nodup :=
      ((sortBy_perm leById _).map Source.id).nodup_iff.1 (SourceGroup.accepts_iff.1 hcheck).2
    -- sources that a group accepts can be told apart, so there is one way to sort them
    have hsort : sortBy leById ((m₂.get? g.id).getD []) = sortBy leById ((m₁.get? g.id).getD []) :=
      sortBy_leById_congr (hm g.id).symm hids
    rw [replacements, hsort, hcheck, replacements_congr (perm_erase hm g.id) hrest]
    rfl

/-! ## The pass -/

def Refills (p : Processor S) (runHeavy : List (GroupId × S) → Half S) (c : Composite S W)
    (sources : List (List S)) : Prop :=
  p.settings.validate = .ok () ∧ ∃ r, joinHalves (p.half .sequential .sequential (halves c.taggedSources).2).result
    (runHeavy (halves c.taggedSources).1).result = .ok r ∧ replacements c.groups r.byGroup = .ok sources

theorem isOk_processWith_iff (p : Processor S) (runHeavy : List (GroupId × S) → Half S) (stamp : PassStamp)
    (c : Composite S W) :
    (p.processWith runHeavy stamp c).result.isOk = true ↔ ∃ sources, p.Refills runHeavy c sources := by
  constructor
  · intro h
    obtain ⟨times, htimes⟩ := Outcome.isOk_iff.1 h
    rw [result_processWith] at htimes
    obtain ⟨_, hv, htimes⟩ := Outcome.bind_eq_ok.1 htimes
    obtain ⟨r, hj, htimes⟩ := Outcome.bind_eq_ok.1 htimes
    obtain ⟨sources, hr, -⟩ := Outcome.bind_eq_ok.1 htimes
    exact ⟨sources, Outcome.lift_eq_ok.1 hv, r, hj, Outcome.lift_eq_ok.1 hr⟩
  · rintro ⟨sources, hv, r, hj, hr⟩
    exact Outcome.isOk_iff.2 ⟨_, (processWith_of_ok stamp hv hj hr).1⟩

theorem Manages.refills {p : Processor S} {run₁ run₂ : List (GroupId × S) → Half S} (h₁ : p.Manages run₁)
    (h₂ : p.Manages run₂) {c : Composite S W} {sources : List (List S)} (h : p.Refills run₁ c sources) :
    p.Refills run₂ c sources := by
  obtain ⟨hv, r, hj, hr⟩ := h
  obtain ⟨light, heavy₁, hlight, hheavy₁, rfl⟩ := joinHalves_eq_ok.1 hj
  obtain ⟨heavy₂, hheavy₂, hperm⟩ := h₁.perm_sourcesOf h₂ hheavy₁
  refine ⟨hv, light.merge heavy₂, joinHalves_eq_ok.2 ⟨light, heavy₂, hlight, hheavy₂, rfl⟩, ?_⟩
  refine replacements_congr (fun g => ?_) hr
  change ((light.merge heavy₁).sourcesOf g).Perm ((light.merge heavy₂).sourcesOf g)
  rw [SplitResult.sourcesOf_merge, SplitResult.sourcesOf_merge]
  exact (hperm g).append_left _

/-- Two passes over a composite end alike: both succeed and leave the same composite but for the report, or both are
aborted and leave the composite as it was. -/
inductive EndAlike (c : Composite S W) (one two : Pass S W) : Prop where
  | complete (first : one.result.isOk = true) (second : two.result.isOk = true)
    (same : two.composite = { one.composite with report := two.composite.report })
  | abort (first : one.result.isOk = false) (second : two.result.isOk = false)
    (unchanged : one.composite = c ∧ two.composite = c)

theorem composite_of_not_isOk {p : Processor S} {runHeavy : List (GroupId × S) → Half S} {stamp : PassStamp}
    {c : Composite S W} (h : (p.processWith runHeavy stamp c).result.isOk = false) :
    (p.processWith runHeavy stamp c).composite = c := by
  rcases p.processWith_cases runHeavy stamp c with ⟨_, -, hc⟩ | ⟨_, _, -, hok, -⟩
  · exact hc
  · rw [hok] at h
    cases h

/-- **A pass does not depend on the order of the heavy work.**  Any two ways to run the heavy sources, each of which
takes every source once, end a pass alike, whatever the order and the bracketing of their merges: with the same sources
in every group, their weights and tags, and the same rupture counts and magnitude ranges, or both without a change. -/
theorem process_schedule_independent (p : Processor S) (run₁ run₂ : List (GroupId × S) → Half S)
    (h₁ : p.Manages run₁) (h₂ : p.Manages run₂) (stamp₁ stamp₂ : PassStamp) (c : Composite S W) :
    EndAlike c (p.processWith run₁ stamp₁ c) (p.processWith run₂ stamp₂ c) := by
  have hiff : (∃ sources, p.Refills run₁ c sources) ↔ ∃ sources, p.Refills run₂ c sources :=
    ⟨fun ⟨s, hs⟩ => ⟨s, h₁.refills h₂ hs⟩, fun ⟨s, hs⟩ => ⟨s, h₂.refills h₁ hs⟩⟩
  rw [← isOk_processWith_iff p run₁ stamp₁, ← isOk_processWith_iff p run₂ stamp₂] at hiff
  cases hfirst : (p.processWith run₁ stamp₁ c).result.isOk with
  | false =>
    have hsecond : (p.processWith run₂ stamp₂ c).result.isOk = false :=
      Bool.eq_false_iff.2 fun hok => by rw [hiff.2 hok] at hfirst; cases hfirst
    exact .abort hfirst hsecond ⟨composite_of_not_isOk hfirst, composite_of_not_isOk hsecond⟩
  | true =>
    obtain ⟨sources, hs⟩ := (isOk_processWith_iff p run₁ stamp₁ c).1 hfirst
    obtain ⟨hv, r₁, hj₁, hr₁⟩ := hs
    obtain ⟨-, r₂, hj₂, hr₂⟩ := h₁.refills h₂ ⟨hv, r₁, hj₁, hr₁⟩
    have hone := (processWith_of_ok stamp₁ hv hj₁ hr₁).2
    have htwo := (processWith_of_ok stamp₂ hv hj₂ hr₂).2
    refine .complete hfirst (hiff.1 hfirst) ?_
    rw [hone, htwo]
    rfl

/-- The heavy sources run one after the other, the last one first, with an empty result merged in after each. -/
def runBackwards (p : Processor S) (l : List (GroupId × S)) : Half S :=
  ⟨(l.foldl (fun t x => Reduction.merge (.task x) (.merge .unit t)) .unit).run .empty SplitResult.merge
    (fun x => p.filterAndSplit x.1 x.2), []⟩

theorem tasks_backwards {α : Type} : ∀ (l : List α) (t : Reduction α),
    (l.foldl (fun t x => Reduction.merge (.task x) (.merge .unit t)) t).tasks.Perm (l ++ t.tasks)
  | [], _ => List.Perm.refl _
  | _ :: l, _ => (tasks_backwards l _).trans List.perm_middle

/-- One group with a light source and two heavy ones, of which the first is cut in two. -/
def mixedGroup : Composite Strip Rat :=
  .ofModels [⟨"model", 1, ["m"], [{ id := ⟨1⟩, trt := "Active", sources := [
    { id := "cut", trt := "Active", extent := 20 }, { id := "light", trt := "Active", kind := .point, ruptures := 3 },
    { id := "fault", trt := "Active", ruptures := 2 }] }], .empty, 0, 1⟩] {}

theorem process_schedule_independent_mixedGroup :
    let p : Processor Strip := {}
    p.Manages (p.half .sequential .parallel) ∧ p.Manages p.runBackwards ∧
      EndAlike mixedGroup (p.processWith (p.half .sequential .parallel) default mixedGroup)
        (p.processWith p.runBackwards default mixedGroup) ∧
      (p.processWith p.runBackwards default mixedGroup).composite.groups.map (fun g => g.sources.map Strip.id) =
        [["cut:0", "cut:1", "fault", "light"]] := by
  intro p
  have forwards : p.Manages (p.half .sequential .parallel) := p.manages_half .sequential .parallel
  have backwards : p.Manages p.runBackwards := p.manages_of_plan _ (fun l => by
    simpa [Reduction.tasks] using tasks_backwards l .unit) fun _ => []
  exact ⟨forwards, backwards, process_schedule_independent p _ _ forwards backwards default default mixedGroup,
    by decide +kernel⟩

end Processor
end SeismicHazard
