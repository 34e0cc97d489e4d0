import SeismicHazard.Failure
/-!
# Tags — the collection in the name of an event

The results of a draw are tagged with text such as `col=01|ses=0001`.  The part before the first bar names the
collection: `col=`, at most one plus sign, and decimal digits.  Nothing else is read.
-/
namespace SeismicHazard

namespace CollectionId

def digit? (c : Char) : Option Nat := if '0' ≤ c ∧ c ≤ '9' then some (c.toNat - 48) else none

/-- The number that decimal digits write, if there is at least one and nothing else. -/
def ofDigits? : List Char → Option Nat
  | [] => none
  | cs => cs.foldlM (fun n c => (digit? c).map (fun d => 10 * n + d)) 0

def ofSigned? : List Char → Option Nat
  | '+' :: cs => ofDigits? cs
  | cs => ofDigits? cs

def head (tag : List Char) : List Char := tag.takeWhile (· ≠ '|')

def ofHead? : List Char → Option CollectionId
  | 'c' :: 'o' :: 'l' :: '=' :: cs => (ofSigned? cs).bind (fun n => if n < identifierBound then some ⟨n⟩ else none)
  | _ => none

/-- **The collection that a tag names.** -/
def ofTag (tag : String) : Except Failure CollectionId :=
  match ofHead? (head tag.toList) with
  | some c => .ok c
  | none => .error (.malformedTag tag)

end CollectionId

end SeismicHazard
