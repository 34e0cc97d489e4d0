import SeismicHazard.Number.Layout
/-!
# Scalar — the numbers that weights are made of

Branch weights, path weights, probabilities and counters are computed with a handful of operations.  `Scalar` names
them, so that one definition runs on doubles, in the order it is written in, and can be read on exact rationals, where
the laws of arithmetic hold.
-/
namespace SeismicHazard

class Scalar (W : Type) extends Add W, Sub W, Mul W, Div W where
  ofNat : Nat → W
  emptySum : W
  lt : W → W → Bool
  le : W → W → Bool
  /-- Whether a number is neither infinite nor undefined. -/
  isFinite : W → Bool
  /-- The part `k / 2 ^ 52` of a positive total; below the total for every `k` below `2 ^ 52`. -/
  portion : Nat → W → W
  text : W → String

namespace Scalar

variable {W : Type} [Scalar W]

def zero : W := ofNat 0

def one : W := ofNat 1

def isZero (x : W) : Bool := le x zero && le zero x

def isNonneg (x : W) : Bool := le zero x

def isPositive (x : W) : Bool := lt zero x

def sum (xs : List W) : W := xs.foldl (· + ·) emptySum

end Scalar

/-! ## Doubles

The sum of no doubles is `-0`, the one double that changes nothing when a number is added to it.  A portion is taken of
a total that is first lowered by one unit in the last place when the largest portion would round up to it. -/

def doublePortion (k : Nat) (total : Float) : Float :=
  let largest := Float.ofNat (twoTo 52 - 1) / Float.ofNat (twoTo 52)
  let scale := if total ≤ total * largest then Binary.lowered total else total
  Float.ofNat k / Float.ofNat (twoTo 52) * scale

instance : Scalar Float where
  ofNat := Float.ofNat
  emptySum := -0.0
  lt a b := decide (a < b)
  le a b := decide (a ≤ b)
  isFinite := Float.isFinite
  portion := doublePortion
  text := Layout.plain.text

/-! ## Rationals -/

instance : Scalar Rat where
  add := Rat.add
  sub := Rat.sub
  mul := Rat.mul
  div := Rat.div
  ofNat n := Rat.ofInt (Int.ofNat n)
  emptySum := Rat.ofInt (Int.ofNat 0)
  lt := Rat.blt
  le a b := !Rat.blt b a
  isFinite _ := true
  portion k total := Rat.mul (mkRat (Int.ofNat k) (twoTo 52)) total
  text x := if x.den = 1 then toString x.num else toString x.num ++ "/" ++ toString x.den

end SeismicHazard
