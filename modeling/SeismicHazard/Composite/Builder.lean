import SeismicHazard.Number.Natural
import SeismicHazard.Composite.Basic
import SeismicHazard.Sorting
/-!
# Building a composite

A composite is built from branches, each with its sources in one list.  The sources of a branch are put into one group
for each tectonic region type, and the groups, smallest first, are numbered through all branches from one.  In an
enumeration every branch counts once; in a sampling the draws of the branches add up to the number of samples.
-/
namespace SeismicHazard

structure ModelBranch (S W : Type) where
  name : String
  weight : W
  path : List String := []
  tree : BranchSetTree W
  samples : Nat := 1
  sources : List S := []

namespace ModelBranch

variable {S W : Type}

def repeated? (seen : List String) : List String → Option String
  | [] => none
  | s :: rest => if s ∈ seen then some s else repeated? (s :: seen) rest

def fault? [Scalar W] [Source S] (b : ModelBranch S W) : Option Failure :=
  if b.samples = 0 then some (.settings (.neverSampled b.name))
  else if !(Scalar.isFinite b.weight && Scalar.isNonneg b.weight) then
    some (.settings (.modelWeight b.name (Scalar.text b.weight)))
  else (repeated? [] (b.sources.map Source.id)).map (fun s => .repeatedId s s!"source model {b.name}")

/-- The sources of a branch by tectonic region type, each group in the order of the branch. -/
def byTrt [Source S] (b : ModelBranch S W) : Except Failure (SortedMap String (SourceGroup S)) :=
  b.sources.foldlM (fun m s => do
    let g ← ((m.get? (Source.trt s)).getD { trt := Source.trt s }).update s
    return m.insert (Source.trt s) g) .empty

def number (first : Nat) (groups : List (SourceGroup S)) : List (SourceGroup S) :=
  groups.zipIdx.map (fun p => { p.1 with id := ⟨first + p.2⟩ })

def toModel [Source S] (b : ModelBranch S W) (ordinal first : Nat) : Except Failure (SourceModel S W) := do
  let groups ← b.byTrt
  return { name := b.name, weight := b.weight, path := b.path, tree := b.tree, ordinal, samples := b.samples,
           groups := number first (sortBy SourceGroup.le groups.values) }

end ModelBranch

namespace Composite

variable {S W : Type} [Scalar W] [Source S]

def samplingFault? (sampling : SamplingSettings) (branches : List (ModelBranch S W)) : Option Failure :=
  if sampling.isSampling then
    let count := wordTotal (branches.map ModelBranch.samples)
    if count = sampling.count then none else some (.settings (.sampleTotal count sampling.count))
  else
    (branches.find? (fun b => 1 < b.samples)).map (fun b => .settings (.sampledInEnumeration b.name b.samples))

/-- The source models of some branches, numbered from `ordinal` on and their groups from `first` on. -/
def buildModels (ordinal first : Nat) : List (ModelBranch S W) → Except Failure (List (SourceModel S W))
  | [] => .ok []
  | b :: rest => do
    match b.fault? with
    | some f => .error f
    | none =>
      let m ← b.toModel ordinal first
      let ms ← buildModels (ordinal + 1) (first + m.groups.length) rest
      return m :: ms

def build (sampling : SamplingSettings) (branches : List (ModelBranch S W)) : Except Failure (Composite S W) :=
  match samplingFault? sampling branches with
  | some f => .error f
  | none => (buildModels 0 1 branches).map (fun ms => .ofModels ms sampling)

end Composite

end SeismicHazard
