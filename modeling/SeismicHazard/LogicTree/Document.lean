import SeismicHazard.LogicTree.Tree
import SeismicHazard.Json.Record
/-!
# The tree document

A tree is written as a record with one field, the branch sets by tectonic region type.  A tree that is read is not
checked: it may hold empty sets and any weights.  Of two sets for one tectonic region type the later one counts.
-/
namespace SeismicHazard

def Branch.fieldNames : List String := ["id", "gsim", "weight"]

def Branch.ofJson? (v : Json) : Option (Branch Float) := do
  match ← v.fields? fieldNames with
  | [some id, some gsim, some weight] => return ⟨← id.text?, ← gsim.text?, ← weight.float?⟩
  | _ => none

def Branch.toJson (b : Branch Float) : Json :=
  .record [("id", .text b.id), ("gsim", .text b.gsim), ("weight", .float b.weight)]

namespace BranchSetTree

def setsOfJson? : Json → Option (SortedMap String (List (Branch Float)))
  | .object members =>
    members.foldlM (fun sets m => do return sets.insert (← m.1) (← m.2.list? Branch.ofJson?)) .empty
  | _ => none

def ofJson? (v : Json) : Option (BranchSetTree Float) := do
  match ← v.fields? ["branch_sets"] with
  | [some sets] => return ⟨← setsOfJson? sets⟩
  | _ => none

def toJson (t : BranchSetTree Float) : Json :=
  .record [("branch_sets", .record (t.sets.toList.map (fun s => (s.1, .array (s.2.map Branch.toJson)))))]

end BranchSetTree

end SeismicHazard
