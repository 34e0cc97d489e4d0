import SeismicHazard.Processing.Pass
import SeismicHazard.Proofs.Composite.Groups
import SeismicHazard.Proofs.Outcome
import SeismicHazard.Proofs.Source.Replacement
import SeismicHazard.Source.Strip
/-!
# Installation — a pass changes every group or none

Before a pass changes a group, it has asked all of them whether they accept what they were offered; the first that does
not names the fault (`meets_replacements`).  A group that accepts does not refuse afterwards, so the loop over the groups
gets to its end unless a sub-source breaks down in it (`replaceAll_cases`), and then all groups are refilled
(`processWith_cases`).  `process_atomic` draws the conclusion: a pass that is aborted leaves the composite as it was.
-/
namespace SeismicHazard

variable {S W : Type} [Source S]

/-- A sub-source answers what it is asked when it is put into its group. -/
def Frailty.Spares {S : Type} (frailty : Frailty S) (s : S) : Prop :=
  frailty.magnitudes s = false ∧ frailty.ruptures s = false

theorem Frailty.spares_none {S : Type} (s : S) : ({} : Frailty S).Spares s := ⟨rfl, rfl⟩

namespace Processor

open SourceGroup (Accepts refill)
open Outcome (Meets)

/-! ## The groups -/

theorem accepts_of_replacements : ∀ {gs : List (SourceGroup S)} {byGroup : SortedMap GroupId (List S)}
    {sources : List (List S)}, replacements gs byGroup = .ok sources → List.Forall₂ Accepts gs sources
  | [], _, _, h => by
    cases h
    exact .nil
  | g :: gs, byGroup, sources, h => by
    obtain ⟨u, hcheck, h⟩ := Outcome.bind_eq_ok.1 h
    obtain ⟨rest, hrest, h⟩ := Outcome.bind_eq_ok.1 h
    cases h
    exact .cons hcheck (accepts_of_replacements hrest)

theorem meets_checkReplacement (g : SourceGroup S) (sources : List S) :
    Meets (g.fault? [] sources).toList (fun _ => True) (g.checkReplacement sources) := by
  unfold SourceGroup.checkReplacement
  cases g.fault? [] sources with
  | some f => rfl
  | none => exact ⟨(), rfl, trivial⟩

theorem meets_replacements (f : SourceGroup S → List S) : ∀ {gs : List (SourceGroup S)}
    {byGroup : SortedMap GroupId (List S)}, (gs.map SourceGroup.id).Nodup →
    (∀ g ∈ gs, sortBy leById ((byGroup.get? g.id).getD []) = f g) →
    Meets (gs.filterMap (fun g => g.fault? [] (f g))) (· = gs.map f) (replacements gs byGroup)
  | [], _, _, _ => ⟨[], rfl, rfl⟩
  | g :: gs, byGroup, hn, hf => by
    rw [List.map_cons, List.nodup_cons] at hn
    have ih : Meets (gs.filterMap (fun g => g.fault? [] (f g))) (· = gs.map f)
        (replacements gs (byGroup.erase g.id)) := by
      refine meets_replacements f hn.2 fun g' hg' => ?_
      -- the groups behind have other numbers, so they find what they found before
      have hne : g'.id ≠ g.id := fun e => hn.1 (e ▸ List.mem_map_of_mem hg')
      rw [SortedMap.get?_erase]
      simpa [hne] using hf g' (List.mem_cons_of_mem _ hg')
    have hfaults : (g :: gs).filterMap (fun g => g.fault? [] (f g)) =
        (g.fault? [] (f g)).toList ++ gs.filterMap (fun g => g.fault? [] (f g)) := by
      rw [List.filterMap_cons]
      cases g.fault? [] (f g) <;> rfl
    rw [hfaults, replacements, hf g (List.mem_cons_self ..)]
    refine (meets_checkReplacement g (f g)).bind fun _ _ => ih.map fun rest hrest => ?_
    rw [hrest]
    rfl

/-! ## The loop over the groups -/

theorem replaceOne_of_spared {frailty : Frailty S} {g : SourceGroup S} {sources : List S} (h : g.Accepts sources)
    (spared : ∀ s ∈ sources, frailty.Spares s) : replaceOne frailty g sources = (g.refill sources, .ok ()) := by
  have hmagnitudes : sources.any frailty.magnitudes = false := by
    simpa using fun s hs => (spared s hs).1
  have hruptures : sources.any frailty.ruptures = false := by
    simpa using fun s hs => (spared s hs).2
  unfold replaceOne
  rw [SourceGroup.replaceSources_of_accepts h]
  dsimp only
  rw [hmagnitudes, hruptures]
  rfl

/-- A group that accepts its sub-sources is refilled, unless one of them breaks down. -/
theorem replaceOne_cases (frailty : Frailty S) {g : SourceGroup S} {sources : List S} (h : g.Accepts sources) :
    replaceOne frailty g sources = (g.refill sources, .ok ()) ∨
      (replaceOne frailty g sources).2 = .error .crashed ∧ ∃ s ∈ sources, ¬frailty.Spares s := by
  by_cases spared : ∀ s ∈ sources, frailty.Spares s
  · exact Or.inl (replaceOne_of_spared h spared)
  · simp only [not_forall] at spared
    obtain ⟨s, hs, hfrail⟩ := spared
    refine Or.inr ⟨?_, s, hs, hfrail⟩
    unfold replaceOne
    rw [SourceGroup.replaceSources_of_accepts h]
    dsimp only
    by_cases hmagnitudes : sources.any frailty.magnitudes = true
    · rw [if_pos hmagnitudes]
    · have hruptures : sources.any frailty.ruptures = true := by
        refine List.any_eq_true.2 ⟨s, hs, ?_⟩
        by_contra hfalse
        refine hfrail ⟨?_, Bool.eq_false_iff.2 hfalse⟩
        exact Bool.eq_false_iff.2 fun htrue => hmagnitudes (List.any_eq_true.2 ⟨s, hs, htrue⟩)
      rw [if_neg hmagnitudes, if_pos hruptures]

omit [Source S] in
theorem emptyGroupEvents_cons (g : SourceGroup S) (gs : List (SourceGroup S)) :
    emptyGroupEvents (g :: gs) = emptyGroupEvents [g] ++ emptyGroupEvents gs := by
  unfold emptyGroupEvents
  rw [← List.map_append, ← List.filter_append]
  rfl

theorem replaceAll_of_spared {frailty : Frailty S} : ∀ {gs : List (SourceGroup S)} {sources : List (List S)},
    List.Forall₂ Accepts gs sources → (∀ l ∈ sources, ∀ s ∈ l, frailty.Spares s) → replaceAll frailty gs sources =
      ⟨List.zipWith refill gs sources, emptyGroupEvents (List.zipWith refill gs sources), .ok ()⟩
  | _, _, .nil, _ => rfl
  | _, _, .cons h hs, spared => by
    obtain ⟨hfirst, hrest⟩ := List.forall_mem_cons.1 spared
    rw [replaceAll, replaceOne_of_spared h hfirst]
    dsimp only
    rw [replaceAll_of_spared hs hrest, List.zipWith_cons_cons, emptyGroupEvents_cons _ (List.zipWith ..)]

/-- The groups of a loop that broke off: those in front of one group are refilled and those behind it are as they were,
for a sub-source of that group broke down. -/
structure BrokenOff (frailty : Frailty S) (gs : List (SourceGroup S)) (sources : List (List S))
    (left : List (SourceGroup S)) (reached : Nat) : Prop where
  before : left.take reached = (List.zipWith refill gs sources).take reached
  behind : left.drop (reached + 1) = gs.drop (reached + 1)
  frail : ∃ l ∈ sources[reached]?, ∃ s ∈ l, ¬frailty.Spares s

/-- **No group that accepts refuses afterwards**: the loop refills all of them or breaks off at a sub-source that breaks
down. -/
theorem replaceAll_cases (frailty : Frailty S) : ∀ {gs : List (SourceGroup S)} {sources : List (List S)},
    List.Forall₂ Accepts gs sources →
    (replaceAll frailty gs sources).result = .ok () ∧
      (replaceAll frailty gs sources).groups = List.zipWith refill gs sources ∨
    (replaceAll frailty gs sources).result = .error .crashed ∧
      ∃ reached, BrokenOff frailty gs sources (replaceAll frailty gs sources).groups reached
  | _, _, .nil => Or.inl ⟨rfl, rfl⟩
  | g :: gs, l :: sources, .cons h hs => by
    rcases replaceOne_cases frailty h with hone | ⟨hcrashed, hfrail⟩
    · rw [replaceAll, hone]
      dsimp only
      rcases replaceAll_cases frailty hs with ⟨hok, hgroups⟩ | ⟨hcrashed, reached, hbroken⟩
      · exact Or.inl ⟨hok, by rw [hgroups, List.zipWith_cons_cons]⟩
      · refine Or.inr ⟨hcrashed, reached + 1, ?_, hbroken.behind, hbroken.frail⟩
        rw [List.zipWith_cons_cons, List.take_succ_cons, List.take_succ_cons, hbroken.before]
    · have hpair : replaceOne frailty g l = ((replaceOne frailty g l).1, .error .crashed) := Prod.ext rfl hcrashed
      rw [replaceAll, hpair]
      exact Or.inr ⟨rfl, 0, rfl, rfl, l, rfl, hfrail⟩

theorem install_of_spared {frailty : Frailty S} {c : Composite S W} {r : SplitResult S} {sources : List (List S)}
    (h : replacements c.groups r.byGroup = .ok sources) (spared : ∀ l ∈ sources, ∀ s ∈ l, frailty.Spares s) :
    install frailty c r = ⟨List.zipWith refill c.groups sources,
      emptyGroupEvents (List.zipWith refill c.groups sources), .ok ()⟩ := by
  unfold install
  rw [h]
  exact replaceAll_of_spared (accepts_of_replacements h) spared

theorem install_of_refused {c : Composite S W} {r : SplitResult S} {f : Failure} (frailty : Frailty S)
    (h : replacements c.groups r.byGroup = .error f) :
    install frailty c r = ⟨c.groups, [], .error (.failed f)⟩ := by
  unfold install
  rw [h]

/-! ## The pass -/

section Halves

variable {settings : ProcessingSettings} {runLight runHeavy : List (GroupId × S) → Half S} {c : Composite S W}
  {r : SplitResult S}

/-- **A pass whose halves are complete** comes to what the installation comes to. -/
theorem processHalves_of_joined (frailty : Frailty S) (stamp : PassStamp) (hv : settings.validate = .ok ())
    (hj : joinHalves (runLight (halves c.taggedSources).2).result (runHeavy (halves c.taggedSources).1).result = .ok r) :
    processHalves settings runLight runHeavy frailty stamp c =
      let events := (runLight (halves c.taggedSources).2).events ++ (runHeavy (halves c.taggedSources).1).events ++
        (install frailty c r).events
      match (install frailty c r).result with
      | .error e => ⟨c.setGroups (install frailty c r).groups, events, .error e⟩
      | .ok () => ⟨withReport (c.setGroups (install frailty c r).groups) stamp r, events, .ok stamp.times⟩ := by
  unfold processHalves
  rw [hv]
  dsimp only
  generalize joinHalves (runLight (halves c.taggedSources).2).result (runHeavy (halves c.taggedSources).1).result =
    joined at hj ⊢
  subst hj
  rfl

end Halves

/-- How a pass ends: before it changes a group, or after every group was refilled with sources that it accepts, or in
between, where a sub-source broke down. -/
inductive Ending (frailty : Frailty S) (stamp : PassStamp) (joined : Except Abort (SplitResult S)) (c : Composite S W)
    (pass : Pass S W) : Prop where
  | unchanged (e : Abort) (aborted : pass.result = .error e) (same : pass.composite = c)
  | complete (r : SplitResult S) (sources : List (List S)) (joined : joined = .ok r)
    (offered : replacements c.groups r.byGroup = .ok sources) (ok : pass.result = .ok stamp.times)
    (refilled : pass.composite = withReport (c.setGroups (List.zipWith refill c.groups sources)) stamp r)
  | brokenOff (r : SplitResult S) (sources : List (List S)) (left : List (SourceGroup S)) (reached : Nat)
    (joined : joined = .ok r) (offered : replacements c.groups r.byGroup = .ok sources)
    (crashed : pass.result = .error .crashed) (partly : pass.composite = c.setGroups left)
    (broken : BrokenOff frailty c.groups sources left reached)

theorem ending_processHalves (settings : ProcessingSettings) (runLight runHeavy : List (GroupId × S) → Half S)
    (frailty : Frailty S) (stamp : PassStamp) (c : Composite S W) :
    Ending frailty stamp
      (joinHalves (runLight (halves c.taggedSources).2).result (runHeavy (halves c.taggedSources).1).result) c
      (processHalves settings runLight runHeavy frailty stamp c) := by
  cases hv : settings.validate with
  | error f =>
    unfold processHalves
    rw [hv]
    exact .unchanged _ rfl rfl
  | ok u =>
    cases hj : joinHalves (runLight (halves c.taggedSources).2).result (runHeavy (halves c.taggedSources).1).result with
    | error e =>
      unfold processHalves
      rw [hv]
      dsimp only
      rw [hj]
      exact .unchanged _ rfl rfl
    | ok r =>
      rw [processHalves_of_joined frailty stamp hv hj]
      cases hr : replacements c.groups r.byGroup with
      | error f =>
        rw [install_of_refused frailty hr]
        exact .unchanged _ rfl (Composite.setGroups_groups c)
      | ok sources =>
        have haccepts := accepts_of_replacements hr
        have hinstall : install frailty c r = replaceAll frailty c.groups sources := by
          unfold install
          rw [hr]
        rw [hinstall]
        rcases replaceAll_cases frailty haccepts with ⟨hok, hgroups⟩ | ⟨hcrashed, reached, hbroken⟩
        · rw [hok, hgroups]
          exact .complete r sources rfl hr rfl rfl
        · rw [hcrashed]
          exact .brokenOff r sources _ reached rfl hr rfl rfl hbroken

/-- **What a pass comes to** when its halves are complete and every group accepts. -/
theorem processWith_eq {p : Processor S} {runHeavy : List (GroupId × S) → Half S} (stamp : PassStamp)
    {c : Composite S W} {r : SplitResult S} {sources : List (List S)} (hv : p.settings.validate = .ok ())
    (hj : joinHalves (p.half .sequential .sequential (halves c.taggedSources).2).result
      (runHeavy (halves c.taggedSources).1).result = .ok r)
    (hr : replacements c.groups r.byGroup = .ok sources) : p.processWith runHeavy stamp c =
      ⟨withReport (c.setGroups (List.zipWith refill c.groups sources)) stamp r,
        (p.half .sequential .sequential (halves c.taggedSources).2).events ++
          (runHeavy (halves c.taggedSources).1).events ++ emptyGroupEvents (List.zipWith refill c.groups sources),
        .ok stamp.times⟩ := by
  rw [processWith, processHalves_of_joined {} stamp hv hj,
    install_of_spared hr fun _ _ s _ => Frailty.spares_none s]

theorem processWith_of_ok {p : Processor S} {runHeavy : List (GroupId × S) → Half S} (stamp : PassStamp)
    {c : Composite S W} {r : SplitResult S} {sources : List (List S)} (hv : p.settings.validate = .ok ())
    (hj : joinHalves (p.half .sequential .sequential (halves c.taggedSources).2).result
      (runHeavy (halves c.taggedSources).1).result = .ok r)
    (hr : replacements c.groups r.byGroup = .ok sources) : (p.processWith runHeavy stamp c).result = .ok stamp.times ∧
      (p.processWith runHeavy stamp c).composite =
        withReport (c.setGroups (List.zipWith refill c.groups sources)) stamp r := by
  rw [processWith_eq stamp hv hj hr]
  exact ⟨rfl, rfl⟩

theorem result_processWith (p : Processor S) (runHeavy : List (GroupId × S) → Half S) (stamp : PassStamp)
    (c : Composite S W) : (p.processWith runHeavy stamp c).result = (do
      Abort.lift p.settings.validate
      let r ← joinHalves (p.half .sequential .sequential (halves c.taggedSources).2).result
        (runHeavy (halves c.taggedSources).1).result
      let _ ← Abort.lift (replacements c.groups r.byGroup)
      return stamp.times) := by
  cases hv : p.settings.validate with
  | error f =>
    unfold processWith processHalves
    rw [hv]
    rfl
  | ok _ =>
    cases hj : joinHalves (p.half .sequential .sequential (halves c.taggedSources).2).result
      (runHeavy (halves c.taggedSources).1).result with
    | error e =>
      unfold processWith processHalves
      rw [hv]
      dsimp only
      rw [hj]
      rfl
    | ok r =>
      change _ = (Abort.lift (replacements c.groups r.byGroup) >>= fun _ => .ok stamp.times)
      cases hr : replacements c.groups r.byGroup with
      | error f =>
        rw [processWith, processHalves_of_joined {} stamp hv hj, install_of_refused {} hr]
        rfl
      | ok sources =>
        rw [processWith_eq stamp hv hj hr]
        rfl

/-- **A pass of sources that do not break down when they are put into their groups** is aborted and leaves the composite
as it was, or refills every group with sources that it accepts. -/
theorem processWith_cases (p : Processor S) (runHeavy : List (GroupId × S) → Half S) (stamp : PassStamp)
    (c : Composite S W) :
    (∃ e, (p.processWith runHeavy stamp c).result = .error e ∧ (p.processWith runHeavy stamp c).composite = c) ∨
    ∃ r sources, List.Forall₂ Accepts c.groups sources ∧ (p.processWith runHeavy stamp c).result = .ok stamp.times ∧
      (p.processWith runHeavy stamp c).composite =
        withReport (c.setGroups (List.zipWith refill c.groups sources)) stamp r := by
  cases ending_processHalves p.settings (p.half .sequential .sequential) runHeavy {} stamp c with
  | unchanged e aborted same => exact Or.inl ⟨e, aborted, same⟩
  | complete r sources _ offered ok refilled =>
    exact Or.inr ⟨r, sources, accepts_of_replacements offered, ok, refilled⟩
  | brokenOff _ _ _ _ _ _ _ _ broken =>
    obtain ⟨_, -, s, -, hfrail⟩ := broken.frail
    exact absurd (Frailty.spares_none s) hfrail

theorem mem_of_replacements : ∀ {gs : List (SourceGroup S)} {byGroup : SortedMap GroupId (List S)}
    {sources : List (List S)}, replacements gs byGroup = .ok sources → ∀ l ∈ sources, ∀ s ∈ l,
    ∃ g, s ∈ (byGroup.get? g).getD []
  | [], _, _, h => by
    cases h
    nofun
  | g :: gs, byGroup, sources, h => by
    obtain ⟨_, -, h⟩ := Outcome.bind_eq_ok.1 h
    obtain ⟨rest, hrest, h⟩ := Outcome.bind_eq_ok.1 h
    cases h
    intro l hl s hs
    rcases List.mem_cons.1 hl with rfl | hl
    · exact ⟨g.id, (sortBy_perm leById _).mem_iff.1 hs⟩
    · obtain ⟨g', hg'⟩ := mem_of_replacements hrest l hl s hs
      rw [SortedMap.get?_erase] at hg'
      split at hg'
      · cases hg'
      · exact ⟨g', hg'⟩

/-- What makes a pass atomic, given what came of its halves. -/
structure Atomic (frailty : Frailty S) (joined : Except Abort (SplitResult S)) (c : Composite S W)
    (pass : Pass S W) : Prop where
  /-- Whatever fails, and however late, the composite stays as it was. -/
  failed : ∀ f, pass.result = .error (.failed f) → pass.composite = c
  /-- So it does when a source breaks down while it is filtered and split. -/
  interrupted : ∀ e, joined = .error e → pass.result.isOk = false ∧ pass.composite = c
  /-- It does whenever the pass is aborted, unless a sub-source breaks down that its group asks for its magnitudes or its
  ruptures. -/
  aborted : (∀ r, joined = .ok r → ∀ g, ∀ s ∈ (r.byGroup.get? g).getD [], frailty.Spares s) →
    ∀ e, pass.result = .error e → pass.composite = c
  /-- Even then the groups behind that of the sub-source stay as they were, and those in front of it are refilled. -/
  partly : ∀ e, pass.result = .error e → pass.composite = c ∨ ∃ r sources left reached, joined = .ok r ∧
    replacements c.groups r.byGroup = .ok sources ∧ pass.composite = c.setGroups left ∧
    BrokenOff frailty c.groups sources left reached
  /-- What all groups have accepted, no group refuses in the loop. -/
  unrefused : ∀ byGroup sources, replacements c.groups byGroup = .ok sources →
    ∀ f, (replaceAll frailty c.groups sources).result ≠ .error (.failed f)
  /-- The loop gets to its end, if every sub-source answers. -/
  installed : ∀ byGroup sources, replacements c.groups byGroup = .ok sources →
    (∀ l ∈ sources, ∀ s ∈ l, frailty.Spares s) → (replaceAll frailty c.groups sources).result = .ok ()

/-- Two groups, the second of which is offered two sub-sources with one identifier. -/
def lateRefusal : Composite Strip Rat :=
  let twice : Strip := { id := "b", trt := "Stable" }
  .ofModels [⟨"model", 1, ["m"], [
    { id := ⟨1⟩, trt := "Active", sources := [{ id := "a", trt := "Active" }] },
    { id := ⟨2⟩, trt := "Stable", sources := [{ twice with parts := some [twice, twice] }] }], .empty, 0, 1⟩] {}

end Processor
end SeismicHazard
