import SeismicHazard.Failure
import SeismicHazard.Number.Scalar
import SeismicHazard.Random.Source
/-!
# Weighted — one index out of several, by weight

A distribution over the positions of a list of weights is the list of its partial sums and their total.  A draw takes a
portion of the total and counts the partial sums, the total excluded, that it has reached.  Weights that are negative or
add up to zero have no distribution; a total that is not finite is a break-down.
-/
namespace SeismicHazard

/-- A distribution over the positions of a list of weights. -/
structure Weighted (W : Type) where
  /-- The partial sums, from the first weight to the sum of all weights but the last. -/
  sums : List W
  total : W
  deriving Repr

namespace Weighted

variable {W : Type} [Scalar W]

/-- The partial sums that start with `s` and go on with the weights after it, the last one excluded. -/
def partialSums (s : W) : List W → List W
  | [] => []
  | w :: ws => s :: partialSums (s + w) ws

def ofWeights : List W → Except Abort (Option (Weighted W))
  | [] => .ok none
  | w :: ws =>
    let total := ws.foldl (· + ·) w
    if (w :: ws).all Scalar.isNonneg && !Scalar.isZero total then
      if Scalar.isFinite total then .ok (some ⟨partialSums w ws, total⟩) else .error .crashed
    else .ok none

/-- The position that a point below the total falls on: the number of partial sums that are not above it. -/
def position (d : Weighted W) (x : W) : Nat := d.sums.countP (fun s => Scalar.le s x)

/-- The point of the total that a random word stands for: its upper 52 bits as a portion. -/
def point (d : Weighted W) (word : UInt64) : W := Scalar.portion (word >>> 12).toNat d.total

/-- A drawn position and the next state.  Without a distribution the position is the first and no word is drawn. -/
def draw {G : Type} [RandomSource G] (d : Option (Weighted W)) (g : G) : Nat × G :=
  match d with
  | none => (0, g)
  | some d =>
    let (word, g) := RandomSource.next g
    (d.position (d.point word), g)

end Weighted

end SeismicHazard
