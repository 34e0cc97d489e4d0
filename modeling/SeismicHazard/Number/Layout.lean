import SeismicHazard.Number.Shortest
import SeismicHazard.Number.Numeral
/-!
# Layout — how doubles are written

Every written double has the shortest digits that read back.  A `Layout` says the rest: which magnitudes are written
positionally, whether a whole number keeps its point, whether a positive exponent has a sign and which way a tie between
two shortest decimals goes.  There are three: `Layout.plain` for messages and answers, `Layout.document` for numbers of
a document, `Layout.diagnostic` for diagnostic texts.
-/
namespace SeismicHazard

structure Layout where
  /-- The exponents of the leading digit that are written positionally: from the first, below the second.  None: all. -/
  positional : Option (Int × Int)
  point : Bool
  plus : Bool
  /-- Which of two equally near shortest decimals is written. -/
  tie : Tie
  deriving DecidableEq, Repr

namespace Layout

def plain : Layout := ⟨none, false, false, .up⟩

/-- Numbers of a document: positional from `1e-5` to below `1e16`, whole numbers with `.0`, exponents with a sign. -/
def document : Layout := ⟨some (-5, 16), true, true, .even⟩

/-- Diagnostic texts: positional from `1e-4` to below `1e16`, whole numbers with `.0`. -/
def diagnostic : Layout := ⟨some (-4, 16), true, false, .up⟩

/-- Whether a number with this exponent of the leading digit is written positionally. -/
def isPositional (l : Layout) (lead : Int) : Bool :=
  match l.positional with
  | none => true
  | some (first, bound) => first ≤ lead && lead < bound

def ofDecimal (l : Layout) (negative : Bool) (d : Decimal) : Numeral :=
  let count := digitCount d.significand
  let lead := d.exponent + (count - 1 : Nat)
  if l.isPositional lead then
    if 0 ≤ d.exponent then
      ⟨negative, d.significand * tenTo d.exponent.toNat, if l.point then [0] else [], none⟩
    else
      let places := (-d.exponent).toNat
      ⟨negative, d.significand / tenTo places, lastDigits places d.significand, none⟩
  else
    ⟨negative, d.significand / tenTo (count - 1), lastDigits (count - 1) d.significand, some lead⟩

def numeral? (l : Layout) (x : Float) : Option Numeral :=
  match Binary.ofFloat x with
  | .undefined => none
  | .infinite _ => none
  | .finite negative m q =>
    if m = 0 then some ⟨negative, 0, if l.point then [0] else [], none⟩
    else some (l.ofDecimal negative (shortest l.tie m q))

def text (l : Layout) (x : Float) : String :=
  match l.numeral? x with
  | some n => String.ofList (n.chars l.plus)
  | none =>
    match Binary.ofFloat x with
    | .infinite true => "-inf"
    | .infinite false => "inf"
    | _ => "NaN"

end Layout

end SeismicHazard
