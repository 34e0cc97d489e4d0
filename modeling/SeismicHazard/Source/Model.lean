import SeismicHazard.Number.Natural
import SeismicHazard.LogicTree.Tree
import SeismicHazard.Source.Group
/-!
# Source models — the branches of the source model logic tree

A source model is one alternative description of the seismicity: a weight, the groups of its sources and the logic tree
of their ground motion models.
-/
namespace SeismicHazard

/-- A branch of the source model logic tree. -/
structure SourceModel (S W : Type) where
  name : String
  weight : W
  path : List String
  groups : List (SourceGroup S)
  tree : BranchSetTree W
  ordinal : Nat
  samples : Nat
  deriving DecidableEq, Inhabited

namespace SourceModel

variable {S W : Type}

def pathText (m : SourceModel S W) : String := "_".intercalate m.path

def isOversampled (m : SourceModel S W) : Bool := 1 < m.samples

def skeleton (m : SourceModel S W) : SourceModel S W := { m with groups := m.groups.map SourceGroup.skeleton }

def numSources (m : SourceModel S W) : Nat := total (m.groups.map SourceGroup.size)

end SourceModel

end SeismicHazard
