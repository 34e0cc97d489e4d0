import SeismicHazard.LogicTree.Tree
/-!
# Enumeration — every path once

The paths of a tree are the combinations of one branch from each set, in the order of the sets, the last set varying
fastest.  The weight of a path is the product of its branch weights, from left to right, starting from one.
-/
namespace SeismicHazard

namespace BranchSetTree

variable {W : Type} [Scalar W]

def extend (paths : List (ChoicePath W)) (set : String × List (Branch W)) : List (ChoicePath W) :=
  paths.flatMap (fun p => set.2.map (fun b => p.take set.1 b))

/-- **Every path of the tree**; a tree without branch sets has none. -/
def enumerate (t : BranchSetTree W) : List (ChoicePath W) :=
  if t.sets.isEmpty then [] else t.sets.toList.foldl extend [ChoicePath.start Scalar.one]

end BranchSetTree

end SeismicHazard
