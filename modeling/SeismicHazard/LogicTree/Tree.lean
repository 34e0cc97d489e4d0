import SeismicHazard.Number.Natural
import SeismicHazard.Failure
import SeismicHazard.LogicTree.Path
/-!
# Trees — one branch set for every tectonic region type

The logic tree of a source model holds an independent set of branches for each tectonic region type.  Sets are added
one by one and checked on the way; a tree that was read from a document may hold any sets.
-/
namespace SeismicHazard

/-- A tree with one branch set for each tectonic region type. -/
structure BranchSetTree (W : Type) where
  sets : SortedMap String (List (Branch W))
  deriving DecidableEq, Inhabited

namespace BranchSetTree

variable {W : Type}

def empty : BranchSetTree W := ⟨.empty⟩

def trts (t : BranchSetTree W) : List String := t.sets.keys

def branches? (t : BranchSetTree W) (trt : String) : Option (List (Branch W)) := t.sets.get? trt

def values (t : BranchSetTree W) (trt : String) : List String := ((t.branches? trt).getD []).map Branch.gsim

def reduce (t : BranchSetTree W) (keep : SortedSet String) : BranchSetTree W :=
  ⟨t.sets.filter (fun trt _ => keep.contains trt)⟩

/-- The number of paths as the tree tells it: the product of the sizes of the sets in a word, and zero for no set. -/
def numPaths (t : BranchSetTree W) : Nat :=
  if t.sets.isEmpty then 0 else wordProduct (t.sets.values.map List.length)

/-! ## Adding branch sets -/

section Checked

variable [Scalar W]

def tolerance : W := Scalar.one / Scalar.ofNat (tenTo 9)

def isUnbalanced (total : W) : Bool :=
  Scalar.lt tolerance (total - Scalar.one) || Scalar.lt tolerance (Scalar.one - total)

def setTotal (branches : List (Branch W)) : W := Scalar.sum (branches.map Branch.weight)

def setFault? (t : BranchSetTree W) (trt : String) (branches : List (Branch W)) : Option TreeFault :=
  if t.sets.contains trt then some (.repeatedSet trt)
  else if branches.isEmpty then some (.emptySet trt)
  else
    match branches.find? (fun b => !Scalar.isNonneg b.weight) with
    | some b => some (.branchWeight b.id (Scalar.text b.weight))
    | none =>
      if isUnbalanced (setTotal branches) then some (.setWeight trt (Scalar.text (setTotal branches))) else none

/-- **Adds a branch set**: for a new tectonic region type, with at least one branch, weights that are not negative and a
total of one. -/
def withBranchSet (t : BranchSetTree W) (trt : String) (branches : List (Branch W)) :
    Except Failure (BranchSetTree W) :=
  match t.setFault? trt branches with
  | some fault => .error (.tree fault)
  | none => .ok ⟨t.sets.insert trt branches⟩

def ofSets (sets : List (String × List (Branch W))) : Except Failure (BranchSetTree W) :=
  sets.foldlM (fun t s => t.withBranchSet s.1 s.2) empty

end Checked

end BranchSetTree

end SeismicHazard
