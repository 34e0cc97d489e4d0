import SeismicHazard.Number.Binary
/-!
# Shortest — the fewest decimal digits that read back

The reals that round to a double `m · 2 ^ q` form an interval around it, closed exactly when `m` is even.  The shortest
decimal is the first of the grids `10 ^ e`, from coarse to fine, that has a point in the interval; of two such points
the nearer one is taken, and a `Tie` says which one when both are equally near.  All comparisons are between natural
numbers.
-/
namespace SeismicHazard

inductive Tie where
  | even
  | up
  deriving DecidableEq, Repr

structure Decimal where
  significand : Nat
  exponent : Int
  deriving DecidableEq, Repr, Inhabited

def digitCount (n : Nat) : Nat := (Nat.toDigits 10 n).length

namespace Decimal

def normalize : Nat → Decimal → Decimal
  | 0, d => d
  | fuel + 1, d =>
    if d.significand ≠ 0 ∧ d.significand % 10 = 0 then normalize fuel ⟨d.significand / 10, d.exponent + 1⟩ else d

end Decimal

/-- The reals that round to a double, over one denominator: the value and both ends of the interval around it. -/
structure Rounding where
  low : Nat
  value : Nat
  high : Nat
  unit : Nat
  /-- Whether the ends round to the value too. -/
  closed : Bool
  deriving Repr

namespace Rounding

/-- The interval of `m · 2 ^ q`.  Below a power of two the doubles are twice as dense, so there the lower end is half as
far away. -/
def ofBinary (m : Nat) (q : Int) : Rounding :=
  let scale := twoTo (q - 2).toNat
  let below := if m = twoTo 52 ∧ -1074 < q then 1 else 2
  { low := (4 * m - below) * scale
    value := 4 * m * scale
    high := (4 * m + 2) * scale
    unit := twoTo (2 - q).toNat
    closed := m % 2 = 0 }

/-- The numerator of `c · 10 ^ e`, and the factor that brings the interval to the same denominator. -/
def onGrid (c : Nat) (e : Int) (unit : Nat) : Nat × Nat :=
  (c * tenTo e.toNat * unit, tenTo (-e).toNat)

def admits (r : Rounding) (c : Nat) (e : Int) : Bool :=
  let (x, k) := onGrid c e r.unit
  if r.closed then r.low * k ≤ x && x ≤ r.high * k else r.low * k < x && x < r.high * k

def below (r : Rounding) (e : Int) : Nat :=
  r.value * tenTo (-e).toNat / (r.unit * tenTo e.toNat)

/-- Of the two neighbours `c` and `c + 1` of the value on the grid `10 ^ e`, the nearer one. -/
def nearer (r : Rounding) (tie : Tie) (c : Nat) (e : Int) : Nat :=
  let (x, k) := onGrid c e r.unit
  let (y, _) := onGrid (c + 1) e r.unit
  let down := r.value * k - x
  let up := y - r.value * k
  if down < up then c
  else if up < down then c + 1
  else match tie with
    | .up => c + 1
    | .even => if c % 2 = 0 then c else c + 1

def onePoint (r : Rounding) (tie : Tie) (e : Int) : Option Nat :=
  let c := r.below e
  match r.admits c e, r.admits (c + 1) e with
  | true, true => some (r.nearer tie c e)
  | true, false => some c
  | false, true => some (c + 1)
  | false, false => none

def search (r : Rounding) (tie : Tie) : Nat → Int → Decimal
  | 0, e => ⟨r.nearer tie (r.below e) e, e⟩
  | fuel + 1, e =>
    match r.onePoint tie e with
    | some c => ⟨c, e⟩
    | none => search r tie fuel (e - 1)

def leading (r : Rounding) : Int :=
  let e : Int := (digitCount r.value : Int) - digitCount r.unit
  if r.below e = 0 then e - 1 else e

end Rounding

/-- **The shortest decimal** of the positive double `m · 2 ^ q`.  Seventeen digits always suffice. -/
def shortest (tie : Tie) (m : Nat) (q : Int) : Decimal :=
  let r := Rounding.ofBinary m q
  (r.search tie 17 r.leading).normalize 20

end SeismicHazard
