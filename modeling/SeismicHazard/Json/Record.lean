import SeismicHazard.Number.Natural
import SeismicHazard.Json.Basic
import SeismicHazard.Number.Layout
/-!
# Records — typed values of a document

A record is read from an object, by the names of its fields in any order, or from an array, by their positions.  Members
with other names are skipped; a field that occurs twice is refused, and so is an array with more items than fields.  An
integer has to be written as one and to lie in its range; a number may be written in any way but must not overflow.
-/
namespace SeismicHazard

namespace Json

def member? (name : String) : List (Option String × Json) → Option Json
  | [] => none
  | (k, v) :: ms => if k = some name then some v else member? name ms

def occurrences (name : String) (members : List (Option String × Json)) : Nat :=
  members.countP (fun m => m.1 = some name)

/-- **The fields of a record**, none for a field that is not given. -/
def fields? (names : List String) : Json → Option (List (Option Json))
  | .object members =>
    if members.all (fun m => m.1.isSome) && names.all (fun n => occurrences n members ≤ 1) then
      some (names.map (fun n => member? n members))
    else none
  | .array items =>
    if items.length ≤ names.length then
      some (items.map some ++ List.replicate (names.length - items.length) none)
    else none
  | _ => none

def natBelow? (bound : Nat) : Json → Option Nat
  | .number x => x.toNat?.bind (fun n => if n < bound then some n else none)
  | _ => none

def word? (v : Json) : Option UInt64 := (natBelow? wordBound v).map UInt64.ofNat

def float? : Json → Option Float
  | .number x => x.toFloat?
  | _ => none

def text? : Json → Option String
  | .string s => s
  | _ => none

def list? {α : Type} (read : Json → Option α) : Json → Option (List α)
  | .array items => items.mapM read
  | _ => none

def fieldOr {α : Type} (default : α) (read : Json → Option α) : Option Json → Option α
  | none => some default
  | some v => read v

/-- A double as a document writes it: the undefined value and the infinities are `null`. -/
def float (x : Float) : Json :=
  match Layout.document.numeral? x with
  | some n => .number n
  | none => .null

def word (n : UInt64) : Json := .nat n.toNat

end Json

end SeismicHazard
