import SeismicHazard.Number.Natural
/-!
# Binary — what the bits of a double say

A finite double is a sign, a mantissa and a power of two.  Everything that has to be exact about a double (its shortest
decimal text, its ceiling, its place in the total order) is computed in `Nat` and `Int` from this reading.
-/
namespace SeismicHazard

/-- The reading of a double's bits. -/
inductive Binary where
  | undefined
  | infinite (negative : Bool)
  /-- The number `± mantissa · 2 ^ exponent`. -/
  | finite (negative : Bool) (mantissa : Nat) (exponent : Int)
  deriving DecidableEq, Repr, Inhabited

namespace Binary

def ofFloat (x : Float) : Binary :=
  let bits : Nat := x.toBits.toNat
  let negative := decide (bits / twoTo 63 = 1)
  let field : Nat := bits / twoTo 52 % twoTo 11
  let fraction : Nat := bits % twoTo 52
  if field = 2047 then
    if fraction = 0 then .infinite negative else .undefined
  else if field = 0 then .finite negative fraction (-1074)
  else .finite negative (twoTo 52 + fraction) ((field : Int) - 1075)

/-- The least natural number that is not below the value, and `cap` for what is larger than it; zero for a negative
value and for no value. -/
def ceiling (cap : Nat) : Binary → Nat
  | .undefined => 0
  | .infinite true => 0
  | .infinite false => cap
  | .finite true _ _ => 0
  | .finite false m e =>
    min cap (if 0 ≤ e then m * twoTo e.toNat else (m + twoTo (-e).toNat - 1) / twoTo (-e).toNat)

/-- The place of a double in the total order that puts `-0` below `0` and the undefined values at the ends. -/
def totalRank (x : Float) : Int :=
  let bits : Nat := x.toBits.toNat
  if bits / twoTo 63 = 1 then -((bits % twoTo 63 : Nat) : Int) - 1 else (bits : Int)

/-- The next smaller magnitude of a double other than zero. -/
def lowered (x : Float) : Float := Float.ofBits (x.toBits - 1)

end Binary

end SeismicHazard
