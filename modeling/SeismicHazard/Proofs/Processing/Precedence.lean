import SeismicHazard.Proofs.Processing.Accounting
import SeismicHazard.Proofs.Source.Refusal
/-!
# Precedence — which of several failures ends a pass

A pass may meet more than one failure: its settings may be invalid, sources of both halves may fail, and groups may refuse
what they are offered.  Each of its parts ends with the first of its own faults (`meets_run`, `meets_joinHalves`,
`meets_replacements`), and the parts are looked at in a fixed order, so the pass ends with the first fault in the order of
`faults` (`meets_process`).  `process_precedence` says it part by part.
-/
namespace SeismicHazard

open Outcome (Meets)

variable {S W : Type}

theorem Reduction.meets_run {α β ε : Type} {neutral : β} {join : β → β → β} {f : α → Except ε β} {faults : α → List ε}
    {g : α → β} : ∀ {t : Reduction α}, (∀ a ∈ t.tasks, Meets (faults a) (· = g a) (f a)) →
    Meets (t.tasks.flatMap faults) (· = t.value neutral join g) (t.run neutral join f)
  | unit, _ => ⟨neutral, rfl, rfl⟩
  | task a, h => by
    rw [tasks, List.flatMap_singleton]
    exact h a (List.mem_singleton_self a)
  | merge l r, h => by
    rw [tasks, List.flatMap_append, run]
    refine (meets_run fun a ha => h a (List.mem_append_left r.tasks ha)).bind fun b hb => ?_
    refine (meets_run fun a ha => h a (List.mem_append_right l.tasks ha)).map fun c hc => ?_
    rw [hb, hc]
    rfl

/-! ## Light and heavy sources -/

section Cost

variable [Source S]

def SourceGroup.ofCost (cost : CostClass) (g : SourceGroup S) : SourceGroup S :=
  { g with sources := g.sources.filter (fun s => (Source.kind s).costClass = cost) }

def Composite.sourcesOf (cost : CostClass) (c : Composite S W) : List S :=
  c.groups.flatMap (fun g => (g.ofCost cost).sources)

namespace Composite

omit [Source S] in
theorem map_taggedSources (c : Composite S W) : c.taggedSources.map Prod.snd = c.groups.flatMap SourceGroup.sources := by
  rw [taggedSources, List.map_flatMap]
  simp [Function.comp_def]

theorem taggedSources_ofCost (cost : CostClass) (c : Composite S W) :
    (c.mapGroups (SourceGroup.ofCost cost)).taggedSources =
      c.taggedSources.filter (fun x => (Source.kind x.2).costClass = cost) := by
  rw [taggedSources, groups_mapGroups, List.flatMap_map, taggedSources, List.filter_flatMap]
  refine List.flatMap_congr fun g _ => ?_
  rw [List.filter_map]
  rfl

theorem sourcesOf_eq (cost : CostClass) (c : Composite S W) :
    c.sourcesOf cost = (c.mapGroups (SourceGroup.ofCost cost)).taggedSources.map Prod.snd := by
  rw [map_taggedSources, groups_mapGroups, List.flatMap_map]
  rfl

end Composite

theorem Processor.halves_taggedSources (c : Composite S W) : halves c.taggedSources =
    ((c.mapGroups (SourceGroup.ofCost .heavy)).taggedSources, (c.mapGroups (SourceGroup.ofCost .light)).taggedSources) := by
  have hlight : ∀ x : GroupId × S, (!isHeavy x.2) = decide ((Source.kind x.2).costClass = .light) := fun x => by
    unfold isHeavy
    cases (Source.kind x.2).costClass <;> rfl
  rw [halves, List.partition_eq_filter_filter, Composite.taggedSources_ofCost, Composite.taggedSources_ofCost]
  congr 1
  exact List.filter_congr fun x _ => hlight x

end Cost

namespace Processor

variable [Source S]

/-! ## The faults of the parts -/

/-- Why a source cannot be filtered and split: the failure of its filter or, if it is kept, that of its split. -/
def failure? (p : Processor S) (s : S) : Option Failure :=
  match p.keeps s with
  | .error f => some f
  | .ok false => none
  | .ok true =>
    match Source.split s p.settings.discretization with
    | .error (.failed f) => some f
    | _ => none

/-- The sub-sources of a group as they are offered to it: those of its light sources in front of those of its heavy ones,
sorted by identifier. -/
def gathered (p : Processor S) (g : SourceGroup S) : List S :=
  sortBy leById (p.offered (g.ofCost .light) ++ p.offered (g.ofCost .heavy))

def refusal? (p : Processor S) (g : SourceGroup S) : Option Failure := g.fault? [] (p.gathered g)

def settingsFaults (p : Processor S) : List Failure :=
  match p.settings.validate with
  | .error f => [f]
  | .ok () => []

/-- **All that is wrong with a pass**, in the order of precedence. -/
def faults (p : Processor S) (c : Composite S W) : List Failure :=
  p.settingsFaults ++ ((c.sourcesOf .light).filterMap p.failure? ++ (c.sourcesOf .heavy).filterMap p.failure?) ++
    c.groups.filterMap p.refusal?

def aborts (faults : List Failure) : List Abort := faults.map .failed

/-! ## The two halves -/

theorem meets_filterAndSplit {p : Processor S} {x : GroupId × S}
    (calm : Source.split x.2 p.settings.discretization ≠ .error .crashed) :
    Meets (aborts (p.failure? x.2).toList) (· = p.resultOf x) (p.filterAndSplit x.1 x.2) := by
  have hparts : Meets (aborts (p.failure? x.2).toList) (fun _ => True) (p.parts x.1 x.2) := by
    unfold failure? parts
    cases p.keeps x.2 with
    | error f => rfl
    | ok kept =>
      cases kept with
      | false => exact ⟨[], rfl, trivial⟩
      | true =>
        cases hsplit : Source.split x.2 p.settings.discretization with
        | ok pieces => exact ⟨pieces.map (finish x.1), rfl, trivial⟩
        | error e =>
          cases e with
          | failed f => rfl
          | crashed => exact absurd hsplit calm
  cases hfailure : p.failure? x.2 with
  | some f =>
    rw [hfailure] at hparts
    obtain hparts : p.parts x.1 x.2 = .error (.failed f) := hparts
    rw [filterAndSplit, hparts]
    rfl
  | none =>
    rw [hfailure] at hparts
    obtain ⟨subs, hsubs, -⟩ := hparts
    exact ⟨_, filterAndSplit_eq (parts_eq hsubs), rfl⟩

theorem flatMap_aborts (p : Processor S) : ∀ l : List (GroupId × S),
    l.flatMap (fun x => aborts (p.failure? x.2).toList) = aborts ((l.map Prod.snd).filterMap p.failure?)
  | [] => rfl
  | x :: l => by
    rw [List.flatMap_cons, flatMap_aborts p l, List.map_cons, List.filterMap_cons]
    cases p.failure? x.2 <;> rfl

theorem meets_runHalf {p : Processor S} {l : List (GroupId × S)}
    (calm : ∀ x ∈ l, Source.split x.2 p.settings.discretization ≠ .error .crashed) :
    Meets (aborts ((l.map Prod.snd).filterMap p.failure?)) (· = p.valueOf .sequential l) (p.runHalf .sequential l) := by
  have htasks : (TaskManager.sequential.plan l).tasks = l := Reduction.tasks_sequential l
  have hrun : Meets ((TaskManager.sequential.plan l).tasks.flatMap fun x => aborts (p.failure? x.2).toList)
      (· = p.valueOf .sequential l) (p.runHalf .sequential l) :=
    Reduction.meets_run fun x hx => meets_filterAndSplit (calm x (htasks ▸ hx))
  rwa [htasks, flatMap_aborts] at hrun

omit [Source S] in
theorem meets_joinHalves {light heavy : Except Abort (SplitResult S)} {l h : SplitResult S}
    {lightFaults heavyFaults : List Failure} (hl : Meets (aborts lightFaults) (· = l) light)
    (hh : Meets (aborts heavyFaults) (· = h) heavy) :
    Meets (aborts (lightFaults ++ heavyFaults)) (· = l.merge h) (joinHalves light heavy) := by
  cases lightFaults with
  | nil =>
    obtain ⟨_, rfl, rfl⟩ := hl
    cases heavyFaults with
    | nil =>
      obtain ⟨_, rfl, rfl⟩ := hh
      exact ⟨_, rfl, rfl⟩
    | cons f fs =>
      obtain rfl : heavy = .error (.failed f) := hh
      rfl
  | cons f fs =>
    obtain rfl : light = .error (.failed f) := hl
    cases heavyFaults with
    | nil =>
      obtain ⟨_, rfl, rfl⟩ := hh
      rfl
    | cons f' fs' =>
      obtain rfl : heavy = .error (.failed f') := hh
      rfl

/-! ## The pass -/

/-- The merged halves of a pass in which no source fails and the heavy sources are run one after the other. -/
def joined (p : Processor S) (c : Composite S W) : SplitResult S :=
  (p.valueOf .sequential (c.mapGroups (SourceGroup.ofCost .light)).taggedSources).merge
    (p.valueOf .sequential (c.mapGroups (SourceGroup.ofCost .heavy)).taggedSources)

/-- **A group is offered the sub-sources of its light sources in front of those of its heavy ones.** -/
theorem sourcesOf_joined {p : Processor S} {c : Composite S W} (groups : (c.groups.map SourceGroup.id).Nodup)
    {g : SourceGroup S} (hg : g ∈ c.groups) :
    (p.joined c).sourcesOf g.id = p.offered (g.ofCost .light) ++ p.offered (g.ofCost .heavy) := by
  have hhalf : ∀ cost, (p.valueOf .sequential (c.mapGroups (SourceGroup.ofCost cost)).taggedSources).sourcesOf g.id =
      p.offered (g.ofCost cost) := by
    intro cost
    have hgroups := Composite.groups_mapGroups (SourceGroup.ofCost cost) c
    have hids : ((c.mapGroups (SourceGroup.ofCost cost)).groups.map SourceGroup.id).Nodup := by
      rw [hgroups, List.map_map]
      exact groups
    have htasks := Reduction.tasks_sequential (c.mapGroups (SourceGroup.ofCost cost)).taggedSources
    rw [valueOf, SplitResult.sourcesOf_value]
    simp only [sourcesOf_resultOf]
    change ((Reduction.sequential _).tasks.flatMap _) = _
    rw [htasks]
    exact flatMap_taggedSources hids (hgroups ▸ List.mem_map_of_mem hg)
  rw [joined, SplitResult.sourcesOf_merge, hhalf, hhalf]

omit [Source S] in
theorem meets_lift {α : Type} {faults : List Failure} {P : α → Prop} {x : Except Failure α} (h : Meets faults P x) :
    Meets (aborts faults) P (Abort.lift x) := by
  cases faults with
  | nil =>
    obtain ⟨a, rfl, ha⟩ := h
    exact ⟨a, rfl, ha⟩
  | cons f fs =>
    obtain rfl : x = .error f := h
    rfl

omit [Source S] in
theorem meets_validate (p : Processor S) : Meets p.settingsFaults (fun _ => True) p.settings.validate := by
  unfold settingsFaults
  cases p.settings.validate with
  | error f => rfl
  | ok u => exact ⟨u, rfl, trivial⟩

theorem meets_process {p : Processor S} (stamp : PassStamp) {c : Composite S W}
    (groups : (c.groups.map SourceGroup.id).Nodup)
    (calm : ∀ g ∈ c.groups, ∀ s ∈ g.sources, Source.split s p.settings.discretization ≠ .error .crashed) :
    Meets (aborts (p.faults c)) (· = stamp.times) (p.process .sequential stamp c).result := by
  have hcalm : ∀ cost, ∀ x ∈ (c.mapGroups (SourceGroup.ofCost cost)).taggedSources,
      Source.split x.2 p.settings.discretization ≠ .error .crashed := by
    intro cost x hx
    rw [Composite.taggedSources_ofCost] at hx
    obtain ⟨g, hg, hx⟩ := List.mem_flatMap.1 (List.mem_filter.1 hx).1
    obtain ⟨s, hs, rfl⟩ := List.mem_map.1 hx
    exact calm g hg s hs
  have hjoin := meets_joinHalves (meets_runHalf (hcalm .light)) (meets_runHalf (hcalm .heavy))
  rw [← Composite.sourcesOf_eq, ← Composite.sourcesOf_eq] at hjoin
  have hrepl : Meets (c.groups.filterMap p.refusal?) (· = c.groups.map p.gathered)
      (replacements c.groups (p.joined c).byGroup) :=
    meets_replacements p.gathered groups fun g hg => congrArg (sortBy leById) (sourcesOf_joined groups hg)
  rw [process, result_processWith, halves_taggedSources, faults, aborts, List.map_append, List.map_append,
    List.append_assoc]
  refine (meets_lift p.meets_validate).bind fun _ _ => hjoin.bind fun r hr => ?_
  subst hr
  exact (meets_lift hrepl).map fun _ _ => rfl

theorem refusal?_eq_none {p : Processor S} {g : SourceGroup S} : p.refusal? g = none ↔ g.Fits (p.gathered g) :=
  SourceGroup.fault?_nil_eq_none

theorem refusal?_eq_some {p : Processor S} {g : SourceGroup S} {f : Failure} :
    p.refusal? g = some f ↔ g.checkReplacement (p.gathered g) = .error f := by
  unfold refusal? SourceGroup.checkReplacement
  cases g.fault? [] (p.gathered g) <;> simp

structure Precedence (p : Processor S) (c : Composite S W) (times : PassTimes) (result : Except Abort PassTimes) :
    Prop where
  /-- Invalid settings come first. -/
  settings : ∀ f, p.settings.validate = .error f → result = .error (.failed f)
  /-- Then the first light source that fails, -/
  light : p.settings.validate = .ok () → ∀ f, (c.sourcesOf .light).findSome? p.failure? = some f →
    result = .error (.failed f)
  /-- then the first heavy source that fails, -/
  heavy : p.settings.validate = .ok () → (∀ s ∈ c.sourcesOf .light, p.failure? s = none) →
    ∀ f, (c.sourcesOf .heavy).findSome? p.failure? = some f → result = .error (.failed f)
  /-- then the first group that does not accept what was gathered for it, behind others whose sub-sources fit. -/
  refused : p.settings.validate = .ok () → (∀ s ∈ c.sourcesOf .light, p.failure? s = none) →
    (∀ s ∈ c.sourcesOf .heavy, p.failure? s = none) → ∀ before g after f, c.groups = before ++ g :: after →
    (∀ g' ∈ before, g'.Fits (p.gathered g')) → g.checkReplacement (p.gathered g) = .error f →
    result = .error (.failed f)
  /-- Without a fault the pass succeeds. -/
  complete : p.settings.validate = .ok () → (∀ s ∈ c.sourcesOf .light, p.failure? s = none) →
    (∀ s ∈ c.sourcesOf .heavy, p.failure? s = none) → (∀ g ∈ c.groups, g.Fits (p.gathered g)) → result = .ok times

/-- Two groups in which everything can go wrong: in the first one a heavy source cannot be split, and in the second one
the sites of a light source cannot be found and another light source cannot be split. -/
def troubled : Composite Strip Rat :=
  .ofModels [⟨"model", 1, ["m"], [
    { id := ⟨1⟩, trt := "Active", sources := [{ id := "heavy", trt := "Active", splitFault := some "no mesh" }] },
    { id := ⟨2⟩, trt := "Stable", sources := [
      { id := "lost", trt := "Stable", kind := .point, filterFault := some "no sites", splitFault := some "no mesh" },
      { id := "light", trt := "Stable", kind := .area, splitFault := some "no mesh" }] }], .empty, 0, 1⟩] {}

end Processor
end SeismicHazard
