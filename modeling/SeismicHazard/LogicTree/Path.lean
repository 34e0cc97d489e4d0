import SeismicHazard.SortedMap
import SeismicHazard.Number.Scalar
/-!
# Paths — one choice for every tectonic region type

A branch is a weighted ground motion model.  A path collects the branches taken on the way through a tree: their
identifiers in order, the model chosen for each tectonic region type, and the product of their weights.
-/
namespace SeismicHazard

structure Branch (W : Type) where
  id : String
  gsim : String
  weight : W
  deriving DecidableEq, Repr, Inhabited

structure ChoicePath (W : Type) where
  /-- The identifiers of the branches, in the order in which they were taken. -/
  branchIds : List String
  /-- The ground motion model of each tectonic region type. -/
  choices : SortedMap String String
  weight : W
  deriving DecidableEq, Inhabited

namespace ChoicePath

variable {W : Type}

def start (weight : W) : ChoicePath W := ⟨[], .empty, weight⟩

def withChoice (p : ChoicePath W) (trt branch gsim : String) : ChoicePath W :=
  { p with branchIds := p.branchIds ++ [branch], choices := p.choices.insert trt gsim }

def take [Scalar W] (p : ChoicePath W) (trt : String) (b : Branch W) : ChoicePath W :=
  { p.withChoice trt b.id b.gsim with weight := p.weight * b.weight }

def uid (p : ChoicePath W) : String := "_".intercalate p.branchIds

def gsim? (p : ChoicePath W) (trt : String) : Option String := p.choices.get? trt

def agrees [Scalar W] (a b : ChoicePath W) : Bool :=
  decide (a.branchIds = b.branchIds) && decide (a.choices = b.choices) &&
    Scalar.le a.weight b.weight && Scalar.le b.weight a.weight

end ChoicePath

end SeismicHazard
