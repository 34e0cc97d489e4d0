import SeismicHazard.Number.Binary
/-!
# Numeral — decimal numbers as they are written

A numeral is a written decimal number: sign, whole part, digits after the point and, if there is one, an exponent.  It
is what the layouts of a double produce and what a document's numbers are read into.  `Numeral.toFloat?` says which
double a written number stands for.
-/
namespace SeismicHazard

structure Numeral where
  negative : Bool
  whole : Nat
  /-- The digits after the point; none when there is no point. -/
  fraction : List Nat
  exponent : Option Int
  deriving DecidableEq, Repr, Inhabited

def lastDigits (count n : Nat) : List Nat :=
  (List.range count).map (fun i => n / tenTo (count - 1 - i) % 10)

namespace Numeral

def ofNat (n : Nat) : Numeral := ⟨false, n, [], none⟩

def toNat? : Numeral → Option Nat
  | ⟨false, n, [], none⟩ => some n
  | _ => none

def digitChar (d : Nat) : Char := Char.ofNat (48 + d)

def natChars (n : Nat) : List Char := Nat.toDigits 10 n

/-- How an exponent is written: always with a minus sign when negative, and with a plus sign otherwise if asked for. -/
def exponentChars (plus : Bool) : Option Int → List Char
  | none => []
  | some e => 'e' :: ((if e < 0 then ['-'] else if plus then ['+'] else []) ++ natChars e.natAbs)

def chars (plus : Bool) (x : Numeral) : List Char :=
  (if x.negative then ['-'] else []) ++ natChars x.whole ++
    (if x.fraction.isEmpty then [] else '.' :: x.fraction.map digitChar) ++ exponentChars plus x.exponent

/-! ## The double that a numeral stands for

The digits enter a significand as long as it fits into 64 bits; later digits only count towards the power of ten.  The
significand is rounded to a double and then multiplied or divided by a rounded power of ten, so a numeral of up to
fifteen digits and a small exponent is read exactly and a longer one may be off in the last place. -/

def significandBound : Nat := wordBound

/-- The digits that still fit into the significand, and the digits from the first that does not. -/
def absorb (s : Nat) : List Nat → Nat × List Nat
  | [] => (s, [])
  | d :: ds => if s * 10 + d < significandBound then absorb (s * 10 + d) ds else (s, d :: ds)

def powerOfTen (k : Nat) : Float := Float.ofScientific 1 false k

def largestPower : Nat := 308

/-- A double divided a number of times by the largest power of ten, and then by `10 ^ k`.  A zero stays as it is. -/
def divide : Nat → Float → (k : Nat) → Float
  | 0, f, k => f / powerOfTen k
  | n + 1, f, k => if f == 0 then f else divide n (f / powerOfTen largestPower) k

/-- The double `f · 10 ^ e`, by one multiplication or by divisions; none where it overflows. -/
def scale (f : Float) (e : Int) : Option Float :=
  if e < 0 then
    let steps := (e.natAbs - 1) / largestPower
    some (divide steps f (e.natAbs - steps * largestPower))
  else if e.natAbs ≤ largestPower then
    let r := f * powerOfTen e.natAbs
    if r.isInf then none else some r
  else if f == 0 then some f
  else none

def largestExponent : Nat := twoTo 31 - 1

def magnitude? (x : Numeral) : Option Float :=
  let (s, left) := absorb 0 ((natChars x.whole).map (fun c => c.toNat - 48))
  let (s, rest) := absorb s x.fraction
  let point : Int := (left.length : Int) - ((x.fraction.length : Int) - rest.length)
  let e := x.exponent.getD 0
  if largestExponent < e.natAbs then
    if s ≠ 0 ∧ 0 ≤ e then none else some 0
  else scale (Float.ofNat s) (point + e)

/-- **The double that a numeral stands for**; none when it is too large. -/
def toFloat? (x : Numeral) : Option Float :=
  x.magnitude?.map (fun f => if x.negative then -f else f)

end Numeral

end SeismicHazard
