import SeismicHazard.Number.Natural
import SeismicHazard.Composition
import SeismicHazard.Processing.Report
import SeismicHazard.Settings.Basic
/-!
# Composite — all source models of a calculation

A composite holds the source models, the collections that were given out when it was made, the sampling parameters and
the report of the last pass over its sources.
-/
namespace SeismicHazard

/-- All source models of a calculation. -/
structure Composite (S W : Type) where
  models : List (SourceModel S W)
  composition : Composition
  sampling : SamplingSettings
  report : Option Report := none
  deriving DecidableEq, Inhabited

namespace Composite

variable {S W : Type}

def ofModels (models : List (SourceModel S W)) (sampling : SamplingSettings) : Composite S W :=
  { models, composition := .ofModels models, sampling }

def groups (c : Composite S W) : List (SourceGroup S) := c.models.flatMap SourceModel.groups

def regroup : List (SourceModel S W) → List (SourceGroup S) → List (SourceModel S W)
  | [], _ => []
  | m :: ms, gs => { m with groups := gs.take m.groups.length } :: regroup ms (gs.drop m.groups.length)

def setGroups (c : Composite S W) (gs : List (SourceGroup S)) : Composite S W :=
  { c with models := regroup c.models gs }

def mapGroups (f : SourceGroup S → SourceGroup S) (c : Composite S W) : Composite S W :=
  { c with models := c.models.map (fun m => { m with groups := m.groups.map f }) }

def taggedSources (c : Composite S W) : List (GroupId × S) :=
  c.groups.flatMap (fun g => g.sources.map (fun s => (g.id, s)))

def numSources (c : Composite S W) : Nat := total (c.models.map SourceModel.numSources)

def skeleton (c : Composite S W) : Composite S W := { c with models := c.models.map SourceModel.skeleton }

def tagSources [Source S] (c : Composite S W) : Composite S W := c.mapGroups SourceGroup.tagSources

def countRuptures [Source S] (force : Bool) (c : Composite S W) : Composite S W :=
  c.mapGroups (SourceGroup.countRuptures force)

def totalRuptures (c : Composite S W) : Nat := wordTotal (c.groups.map SourceGroup.ruptures)

def modelText [Scalar W] (m : SourceModel S W) : String :=
  let weight := Scalar.text m.weight
  s!"{m.ordinal}-{m.name}-{m.pathText},w={weight} [{m.groups.length} group(s)]"

def text [Scalar W] (c : Composite S W) : String :=
  "<CompositeSourceModel\n" ++ "\n".intercalate (c.models.map modelText) ++ ">"

end Composite

end SeismicHazard
