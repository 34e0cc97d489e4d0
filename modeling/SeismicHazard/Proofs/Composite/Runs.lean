import SeismicHazard.Proofs.Association.Frame
import SeismicHazard.Proofs.Association.Reducing
import SeismicHazard.Proofs.Composite.Consistency
import SeismicHazard.Proofs.Number.Positivity
import SeismicHazard.Proofs.Processing.Installation
/-!
# Runs — what no sequence of operations breaks

After it is built, a composite is flattened, counted, processed and associated, in any order and as often as one likes;
passes and builds of an association may fail on the way.  Each operation only continues the composite
(`continues_apply`), so any number of them does (`continues_run`), and what was promised when the composite was built
still holds at the end (`consistent_run`).
-/
namespace SeismicHazard

variable {S W : Type} [Source S]

theorem SourceGroup.continues_told {t : BranchSetTree W} {g g' : SourceGroup S} (h : Association.Told t g g') :
    g.Continues g' := by
  rcases h with rfl | rfl
  · exact Continues.refl g'
  · exact ⟨rfl, rfl, fun hg => ⟨hg.trts, hg.distinct, hg.least, hg.greatest, hg.counted⟩⟩

namespace SourceModel

theorem continues_regrouped {m m' : SourceModel S W} (h : Composite.Regrouped SourceGroup.Continues m m') :
    m.Continues m' := by
  obtain ⟨hm, hgroups⟩ := h
  refine ⟨?_, ?_, hgroups⟩ <;> rw [hm]

theorem continues_rebuilt [Scalar W] {weight : SourceGroup S → W} {m m' : SourceModel S W}
    (h : Association.Rebuilt weight m m') : m.Continues m' := by
  rcases h with rfl | ⟨hm, htold⟩
  · exact Continues.refl m'
  · have hgroups := htold.imp fun _ _ hg => SourceGroup.continues_told hg
    have hlive : (m.reduceToLive weight).Continues m' := continues_regrouped ⟨hm, hgroups⟩
    exact ⟨hlive.ordinal_eq, hlive.samples_eq, hlive.groups⟩

end SourceModel

namespace Composite

/-! ## Operations -/

inductive Operation (S W : Type) where
  | flatten
  | countRuptures (force : Bool)
  /-- The sources are filtered and split, whatever comes of the heavy ones. -/
  | process (p : Processor S) (runHeavy : List (GroupId × S) → Half S) (stamp : PassStamp)
  /-- An association is built, the live groups being those with ruptures. -/
  | associate
  | associateBy (weight : SourceGroup S → W)

def apply [Scalar W] (c : Composite S W) : Operation S W → Composite S W
  | .flatten => c.tagSources
  | .countRuptures force => c.countRuptures force
  | .process p runHeavy stamp => (p.processWith runHeavy stamp c).composite
  | .associate => c.associate.1
  | .associateBy weight => (c.associateBy weight).1

def run [Scalar W] (c : Composite S W) (ops : List (Operation S W)) : Composite S W := ops.foldl apply c

theorem continues_mapGroups {f : SourceGroup S → SourceGroup S} (h : ∀ g : SourceGroup S, g.Continues (f g))
    (c : Composite S W) : c.Continues (c.mapGroups f) :=
  ⟨rfl, forall₂_map_self (fun m => ⟨rfl, rfl, forall₂_map_self h m.groups⟩) c.models⟩

theorem continues_processWith (p : Processor S) (runHeavy : List (GroupId × S) → Half S) (stamp : PassStamp)
    (c : Composite S W) : c.Continues (p.processWith runHeavy stamp c).composite := by
  rcases p.processWith_cases runHeavy stamp c with ⟨e, -, hc⟩ | ⟨r, sources, haccepts, -, hc⟩
  · rw [hc]
    exact Continues.refl c
  · rw [hc]
    have hgroups := forall₂_zipWith (fun _ _ h => SourceGroup.continues_refill h) haccepts
    exact ⟨rfl, (forall₂_regroup hgroups).imp fun _ _ hm => SourceModel.continues_regrouped hm⟩

variable [Scalar W]

theorem continues_associateBy (weight : SourceGroup S → W) (c : Composite S W) :
    c.Continues (c.associateBy weight).1 :=
  ⟨rfl, (forall₂_associateBy weight c).imp fun _ _ hm => SourceModel.continues_rebuilt hm⟩

theorem continues_apply [TagApart S] (c : Composite S W) (op : Operation S W) : c.Continues (c.apply op) := by
  have hcount (force : Bool) : c.Continues (c.countRuptures force) :=
    continues_mapGroups (SourceGroup.continues_countRuptures force) c
  cases op with
  | flatten => exact continues_mapGroups SourceGroup.continues_tagSources c
  | countRuptures force => exact hcount force
  | process p runHeavy stamp => exact continues_processWith p runHeavy stamp c
  | associate => exact (hcount false).trans (continues_associateBy ruptureCount _)
  | associateBy weight => exact continues_associateBy weight c

theorem continues_run [TagApart S] : ∀ (ops : List (Operation S W)) (c : Composite S W), c.Continues (c.run ops)
  | [], c => Continues.refl c
  | op :: ops, c => (continues_apply c op).trans (continues_run ops (c.apply op))

/-! ## Live groups -/

/-- When an association by ruptures takes a group of a model for live: if the count of its ruptures is not zero, and so,
as long as a word holds their number, exactly if its sources generate a rupture. -/
structure LiveByRuptures (m : SourceModel S Float) (g : SourceGroup S) : Prop where
  counted : (m.liveTrts ruptureCount).contains g.trt = true ↔ 0 < wordTotal (g.sources.map Source.ruptures)
  generated : total (g.sources.map Source.ruptures) < wordBound →
    ((m.liveTrts ruptureCount).contains g.trt = true ↔ ∃ s ∈ g.sources, 0 < Source.ruptures s)

/-- **A group of a sound model is live exactly if its count is not zero**, once the groups were counted. -/
theorem contains_liveTrts_iff {m : SourceModel S Float} (hm : m.Sound)
    (hcounted : ∀ g ∈ m.groups, g.ruptures = wordTotal (g.sources.map Source.ruptures)) {g : SourceGroup S}
    (hg : g ∈ m.groups) :
    (m.liveTrts ruptureCount).contains g.trt = true ↔ 0 < wordTotal (g.sources.map Source.ruptures) := by
  have hpos : Scalar.isPositive (ruptureCount g : Float) = true ↔ 0 < wordTotal (g.sources.map Source.ruptures) := by
    rw [ruptureCount, Double.isPositive_ofNat, hcounted g hg]
  rw [SourceModel.contains_liveTrts, ← hpos]
  constructor
  · rintro ⟨g', hg', htrt, hlive⟩
    have heq : g' = g := List.inj_on_of_nodup_map hm.apart hg' hg htrt
    rwa [← heq]
  · exact fun hlive => ⟨g, hg, rfl, hlive⟩

/-- Two branches, the second of which is drawn twice and has sources of two tectonic region types. -/
def sampledBranches : List (ModelBranch Strip Float) :=
  let active := ("Active", [⟨"b1", "A", 1 / 2⟩, ⟨"b2", "B", 1 / 2⟩])
  let stable := ("Stable", [⟨"b3", "C", 1⟩])
  [{ name := "north", weight := 1 / 2, tree := ⟨.ofList [active]⟩, sources := [
      { id := "a", trt := "Active", ruptures := 4, extent := 25 },
      { id := "b", trt := "Active", ruptures := 3, magnitudes := (4.5, 6) }] },
   { name := "south", weight := 1 / 2, tree := ⟨.ofList [active, stable]⟩, samples := 2, sources := [
      { id := "a", trt := "Stable", ruptures := 0 },
      { id := "c", trt := "Active", kind := .point, magnitudes := (6, 8) }] }]

/-- A pass that its settings forbid, an association that a model is missing from, a pass that succeeds, and an
association by ruptures. -/
def busyDay : List (Operation Strip Float) :=
  let p : Processor Strip := {}
  let forbidden : Processor Strip := { settings := { discretization := 0 } }
  [.process forbidden (forbidden.half .sequential .parallel) default, .countRuptures false,
    .associateBy (fun g => if g.id = ⟨1⟩ then 0 else 1), .flatten, .process p (p.half .sequential .parallel) default,
    .associate]

/-- One branch with two sources, each with half as many ruptures as a word has values. -/
def fullWordBranch : List (ModelBranch Strip Float) :=
  [{ name := "model", weight := 1, tree := ⟨.ofList [("Active", [⟨"b1", "A", 1⟩])]⟩, sources := [
      { id := "a", trt := "Active", ruptures := twoTo 63 }, { id := "b", trt := "Active", ruptures := twoTo 63 }] }]

end Composite
end SeismicHazard
