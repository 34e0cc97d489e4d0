/-!
# Ranges — sets of characters given by their numbers

A set of characters is a list of closed ranges of code points that ascend and lie apart, so a search stops at the first
range that begins behind the character.
-/
namespace SeismicHazard

abbrev CodeRanges := List (Nat × Nat)

namespace CodeRanges

/-- Whether every range is in order and ends before the next begins, with a gap between them. -/
def isAscending : CodeRanges → Bool
  | [] => true
  | [r] => r.1 ≤ r.2
  | r :: s :: rs => r.1 ≤ r.2 && r.2 + 1 < s.1 && isAscending (s :: rs)

def size : CodeRanges → Nat
  | [] => 0
  | r :: rs => r.2 + 1 - r.1 + size rs

def has : CodeRanges → Nat → Bool
  | [], _ => false
  | r :: rs, n => r.1 ≤ n && (n ≤ r.2 || has rs n)

end CodeRanges

end SeismicHazard
