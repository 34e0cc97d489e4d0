import SeismicHazard.Composition
import SeismicHazard.Json.Record
/-!
# Realizations — one path through everything

A realization crosses the path of a source model with a path through its logic tree, and carries the weight of the two.
It is identified by the texts of the two paths.  A realization of an oversampled model also names the collections that
its draw was given; results of other draws do not concern it.
-/
namespace SeismicHazard

/-- A path of the source model logic tree with a path through the logic tree of that model. -/
structure Realization (W : Type) where
  ordinal : Nat
  path : List String
  /-- The path through the logic tree of ground motion models. -/
  choice : ChoicePath W
  weight : W
  /-- The collections of its draw; none for a model that is drawn once. -/
  collections : SortedSet CollectionId := .empty
  deriving DecidableEq, Inhabited

namespace Realization

variable {W : Type}

/-- The identifier: the path of the source model joined by underscores, and the identifier of the other path. -/
def uid (r : Realization W) : String := "_".intercalate r.path ++ "," ++ r.choice.uid

def agrees (a b : Realization W) : Bool := a.uid = b.uid

def numDistinct (rs : List (Realization W)) : Nat := (SortedSet.ofList (rs.map uid)).size

def text [Scalar W] (r : Realization W) : String :=
  let cols := if r.collections.isEmpty then "" else ",col=" ++ ",".intercalate (r.collections.keys.map toString)
  "<" ++ toString r.ordinal ++ "," ++ r.uid ++ ",w=" ++ Scalar.text r.weight ++ cols ++ ">"

/-- **The groups that a realization needs results of**: those of its collections or, if it has none, those of the models
with its path. -/
def relevantGroups (c : Composition) (r : Realization W) : List GroupId :=
  if r.collections.isEmpty then c.groupsAt r.path else c.groupsOf r.collections.keys

end Realization

/-! ## The document values -/

def ChoicePath.toJson (p : ChoicePath Float) : Json :=
  .record [("branch_ids", .array (p.branchIds.map Json.text)),
    ("choices", .record (p.choices.toList.map (fun c => (c.1, .text c.2)))), ("weight", .float p.weight)]

def Realization.toJson (r : Realization Float) : Json :=
  .record [("ordinal", .nat r.ordinal), ("sm_lt_path", .array (r.path.map Json.text)),
    ("gsim_path", r.choice.toJson), ("weight", .float r.weight),
    ("col_ids", .array (r.collections.keys.map (fun c => .nat c.val))), ("uid", .text r.uid)]

end SeismicHazard
