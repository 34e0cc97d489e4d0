import SeismicHazard.Capacity
import SeismicHazard.LogicTree.Tree
import SeismicHazard.Random.Weighted
/-!
# Sampling — paths drawn by weight

A path is drawn by choosing one branch from each set in turn, with one random word for every set that has a
distribution; a set whose weights have none gives its first branch.  Drawing from a set without branches is a
break-down, and so is a set whose total weight is not finite, even when no path is asked for.
-/
namespace SeismicHazard

namespace BranchSetTree

variable {W : Type} [Scalar W] {G : Type} [RandomSource G]

structure DrawSet (W : Type) where
  trt : String
  branches : List (Branch W)
  /-- The distribution of their weights, if there is one. -/
  weights : Option (Weighted W)

def drawSets (t : BranchSetTree W) : Except Abort (List (DrawSet W)) :=
  t.sets.toList.mapM (fun s => do
    let weights ← Weighted.ofWeights (s.2.map Branch.weight)
    return ⟨s.1, s.2, weights⟩)

def drawPath : List (DrawSet W) → ChoicePath W → G → Except Abort (ChoicePath W × G)
  | [], p, g => .ok (p, g)
  | s :: rest, p, g =>
    let (i, g) := Weighted.draw s.weights g
    match s.branches[i]? with
    | none => .error .crashed
    | some b => drawPath rest (p.take s.trt b) g

def drawPaths (sets : List (DrawSet W)) : Nat → G → Except Abort (List (ChoicePath W) × G)
  | 0, g => .ok ([], g)
  | n + 1, g => do
    let (p, g) ← drawPath sets (ChoicePath.start Scalar.one) g
    let (ps, g) ← drawPaths sets n g
    return (p :: ps, g)

/-- **Draws `n` paths**, with repetition; a tree without branch sets has none to draw. -/
def sample (t : BranchSetTree W) (n : Nat) (g : G) : Except Abort (List (ChoicePath W) × G) :=
  if t.sets.isEmpty then .ok ([], g)
  else do
    let sets ← t.drawSets
    drawPaths sets n g

/-- Draws as many paths as memory can hold; to ask for more of them is a break-down. -/
def sampleHeld (t : BranchSetTree W) (n : Nat) (g : G) : Except Abort (List (ChoicePath W) × G) :=
  if t.sets.isEmpty then .ok ([], g) else (Capacity.check n).bind (fun _ => t.sample n g)

end BranchSetTree

end SeismicHazard
