import SeismicHazard.Association.Realization
/-!
# Associations — which realizations use which result

Results are computed for pairs of a group and a ground motion model.  An association says for every such pair which
realizations use it: the realizations in order, an index from pairs to their positions, and the part of the realizations
that each source model contributed.  What the realizations choose is kept once more in a table of its own.
-/
namespace SeismicHazard

/-- The index of an association: the positions of the realizations that use a group with a ground motion model. -/
abbrev AssocIndex : Type := SortedMap AssocKey (List Nat)

/-- Which realizations use which result. -/
structure Association (W : Type) where
  /-- The collections that the association was made with. -/
  composition : Composition
  index : AssocIndex := .empty
  /-- The realizations, each at the position that is its number. -/
  realizations : List (Realization W) := []
  /-- The ground motion model of every tectonic region type, for each realization. -/
  gsimByTrt : List (SortedMap String String) := []
  /-- By the number of a source model, the first position of its realizations and the position after the last. -/
  byModel : SortedMap Nat (Nat × Nat) := .empty
  deriving DecidableEq, Inhabited

namespace Association

variable {W : Type}

def empty (composition : Composition) : Association W := { composition }

/-! ## Assembly from parts -/

/-- The first realization that does not stand at the position that is its number. -/
def misplaced? (rs : List (Realization W)) : Option SettingsFault :=
  (rs.zipIdx.find? (fun p => p.1.ordinal ≠ p.2)).map (fun p => .misplacedRealization p.2 p.1.ordinal)

def dangling? (count : Nat) (index : AssocIndex) : Option SettingsFault :=
  (index.toList.find? (fun e => e.2.any (fun o => count ≤ o))).map (fun e => .unknownRealization e.1)

/-- **The association of given realizations and index.**  All realizations count as those of the model zero. -/
def ofParts (composition : Composition) (realizations : List (Realization W)) (index : AssocIndex) :
    Except Failure (Association W) :=
  match (misplaced? realizations).orElse (fun _ => dangling? realizations.length index) with
  | some fault => .error (.settings fault)
  | none =>
    let byModel := if realizations.isEmpty then .empty else SortedMap.empty.insert 0 (0, realizations.length)
    let gsimByTrt := realizations.map (fun r => r.choice.choices)
    .ok { composition, index, realizations, gsimByTrt, byModel }

/-! ## Questions -/

def size (a : Association W) : Nat := a.index.size

def isEmpty (a : Association W) : Bool := a.index.isEmpty

def ordinals (a : Association W) (k : AssocKey) : List Nat := (a.index.get? k).getD []

def select (a : Association W) (positions : List Nat) : List (Realization W) :=
  positions.filterMap (fun o => a.realizations[o]?)

def get (a : Association W) (k : AssocKey) : List (Realization W) := a.select (a.ordinals k)

def realization? (a : Association W) (ordinal : Nat) : Option (Realization W) := a.realizations[ordinal]?

def contributingModels (a : Association W) : List Nat := a.byModel.keys

def realizationsOf (a : Association W) (model : Nat) : List (Realization W) :=
  match a.byModel.get? model with
  | some (first, stop) => (a.realizations.drop first).take (stop - first)
  | none => []

def gsimsByGroup (a : Association W) : SortedMap GroupId (List String) :=
  a.index.keys.foldl (fun m k => m.update k.group (fun gsims => gsims.getD [] ++ [k.gsim])) .empty

def gsimsByCollection (a : Association W) : Except Failure (List (List String)) :=
  (List.range a.composition.count).mapM (fun c => do
    let g ← a.composition.groupOf ⟨c⟩
    return (a.gsimsByGroup.get? g).getD [])

/-! ## Text -/

def listedAtMost : Nat := 10

/-- The text of the realizations of a key: all of them or, if they are too many, how many there are. -/
def listText [Scalar W] (a : Association W) (positions : List Nat) : String :=
  if listedAtMost < positions.length then s!"{positions.length} realizations"
  else ", ".intercalate ((a.select positions).map Realization.text)

def text [Scalar W] (a : Association W) : String :=
  let lines := a.index.toList.map (fun e => s!"{e.1}: [" ++ a.listText e.2 ++ "]\n")
  "<RlzsAssoc\n" ++ "".intercalate lines ++ ">"

end Association

end SeismicHazard
