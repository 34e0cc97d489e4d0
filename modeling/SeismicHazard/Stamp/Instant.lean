import SeismicHazard.Number.Natural
/-!
# Instants — points in time

An instant is a day, counted from the first of January 1970, a second of that day in universal time and a nanosecond.  A
leap second is the last second of its minute with a billion more nanoseconds.  Instants are written in universal time;
they are read with any offset, and the parts of a date or time may be set apart by blanks.  The calendar has a first and
a last year, and the date lies in it both as it is written and in universal time.
-/
namespace SeismicHazard

structure Instant where
  /-- The days since the first of January 1970. -/
  day : Int
  second : Nat
  /-- The nanosecond; a billion or more in a leap second. -/
  nano : Nat
  deriving DecidableEq, Repr, Inhabited

namespace Instant

/-! ## The calendar

A year that begins in March has its leap day last, so the days before a month do not depend on the year. -/

def isLeap (y : Int) : Bool := y % 4 = 0 && (y % 100 ≠ 0 || y % 400 = 0)

def monthDays (y : Int) (m : Nat) : Nat :=
  if m = 2 then (if isLeap y then 29 else 28) else if m = 4 ∨ m = 6 ∨ m = 9 ∨ m = 11 then 30 else 31

def dayOf (y : Int) (m d : Nat) : Int :=
  let y := if m ≤ 2 then y - 1 else y
  let fromMarch : Int := (m + 9) % 12
  365 * y + y / 4 - y / 100 + y / 400 + (153 * fromMarch + 2) / 5 + d - 719469

def dateOf (day : Int) : Int × Nat × Nat :=
  let z := day + 719468
  let era := z / 146097
  let dayOfEra := z % 146097
  let yearOfEra := (dayOfEra - dayOfEra / 1460 + dayOfEra / 36524 - dayOfEra / 146096) / 365
  let dayOfYear := dayOfEra - (365 * yearOfEra + yearOfEra / 4 - yearOfEra / 100)
  let fromMarch := (5 * dayOfYear + 2) / 153
  let d := dayOfYear - (153 * fromMarch + 2) / 5 + 1
  let m := (fromMarch + 2) % 12 + 1
  let y := yearOfEra + era * 400
  (if m ≤ 2 then y + 1 else y, m.toNat, d.toNat)

/-! ## Writing -/

def padded (width n : Nat) : String :=
  let s := toString n
  String.ofList (List.replicate (width - s.length) '0') ++ s

def yearText (y : Int) : String :=
  if 0 ≤ y ∧ y ≤ 9999 then padded 4 y.toNat else (if y < 0 then "-" else "+") ++ padded 4 y.natAbs

def fractionText (nano : Nat) : String :=
  if nano = 0 then ""
  else if nano % 1000000 = 0 then "." ++ padded 3 (nano / 1000000)
  else if nano % 1000 = 0 then "." ++ padded 6 (nano / 1000)
  else "." ++ padded 9 nano

def text (t : Instant) : String :=
  let (y, m, d) := dateOf t.day
  let leap := t.nano / 1000000000
  yearText y ++ "-" ++ padded 2 m ++ "-" ++ padded 2 d ++ "T" ++ padded 2 (t.second / 3600) ++ ":" ++
    padded 2 (t.second / 60 % 60) ++ ":" ++ padded 2 (t.second % 60 + leap) ++ fractionText (t.nano % 1000000000) ++ "Z"

/-! ## Reading

Every reader takes characters from the front and gives back what it read with the rest. -/

def isBlank (c : Char) : Bool :=
  let n := c.toNat
  (9 ≤ n && n ≤ 13) || n = 0x20 || n = 0x85 || n = 0xa0 || n = 0x1680 || (0x2000 ≤ n && n ≤ 0x200a) || n = 0x2028 ||
    n = 0x2029 || n = 0x202f || n = 0x205f || n = 0x3000

def skipBlanks (cs : List Char) : List Char := cs.dropWhile isBlank

def digitsValue (ds : List Char) : Nat := ds.foldl (fun n c => n * 10 + (c.toNat - 48)) 0

def number? (most : Nat) (cs : List Char) : Option (Nat × List Char) :=
  let ds := (cs.take most).takeWhile Char.isDigit
  if ds.isEmpty then none else some (digitsValue ds, cs.drop ds.length)

def field? (least greatest : Nat) (cs : List Char) : Option (Nat × List Char) := do
  let (n, cs) ← number? 2 (skipBlanks cs)
  if least ≤ n ∧ n ≤ greatest then some (n, cs) else none

def firstYear : Int := -262143

def lastYear : Int := 262142

/-- Whether a day lies in the calendar: from the first day of its first year to the last day of its last year. -/
def inCalendar (day : Int) : Bool := dayOf firstYear 1 1 ≤ day && day ≤ dayOf lastYear 12 31

def year? (cs : List Char) : Option (Int × List Char) := do
  let (y, cs) ← match skipBlanks cs with
    | '-' :: cs => (number? cs.length cs).map (fun r => (-(r.1 : Int), r.2))
    | '+' :: cs => (number? cs.length cs).map (fun r => ((r.1 : Int), r.2))
    | cs => (number? 4 cs).map (fun r => ((r.1 : Int), r.2))
  if firstYear ≤ y ∧ y ≤ lastYear then some (y, cs) else none

def mark? (c : Char) (cs : List Char) : Option (List Char) :=
  match skipBlanks cs with
  | x :: rest => if x = c then some rest else none
  | [] => none

def date? (cs : List Char) : Option (Int × List Char) := do
  let (y, cs) ← year? cs
  let (m, cs) ← field? 1 12 (← mark? '-' cs)
  let (d, cs) ← field? 1 31 (← mark? '-' cs)
  if d ≤ monthDays y m then some (dayOf y m d, cs) else none

def fraction? : List Char → Option (Nat × List Char)
  | '.' :: cs =>
    let ds := cs.takeWhile Char.isDigit
    if ds.isEmpty then none
    else
      let kept := ds.take 9
      some (digitsValue kept * tenTo (9 - kept.length), cs.drop ds.length)
  | cs => some (0, cs)

def time? (cs : List Char) : Option (Nat × Nat × List Char) := do
  let (h, cs) ← field? 0 23 cs
  let (m, cs) ← field? 0 59 (← mark? ':' cs)
  let (s, cs) ← field? 0 60 (← mark? ':' cs)
  let (nano, cs) ← fraction? cs
  let leap := if s = 60 then 1 else 0
  some (h * 3600 + m * 60 + (s - leap), nano + leap * 1000000000, skipBlanks cs)

def twoDigits? : List Char → Option (Nat × List Char)
  | a :: b :: cs => if a.isDigit && b.isDigit then some (digitsValue [a, b], cs) else none
  | _ => none

/-- The magnitude of an offset in seconds: hours and minutes, perhaps with colons or blanks between them. -/
def offsetSize? (cs : List Char) : Option (Nat × List Char) := do
  let (h, cs) ← twoDigits? cs
  let (m, cs) ← twoDigits? (cs.dropWhile (fun c => c = ':' || isBlank c))
  if m ≤ 59 ∧ h ≤ 23 then some (h * 3600 + m * 60, cs) else none

/-- The offset from universal time in seconds: a letter for none, its name, or a sign with hours and minutes. -/
def offset? (cs : List Char) : Option (Int × List Char) :=
  if (cs.take 3).map Char.toUpper = "UTC".toList then some (0, cs.drop 3)
  else
    match cs with
    | 'Z' :: cs => some (0, cs)
    | 'z' :: cs => some (0, cs)
    | '+' :: cs => (offsetSize? cs).map (fun r => ((r.1 : Int), r.2))
    | '-' :: cs => (offsetSize? cs).map (fun r => (-(r.1 : Int), r.2))
    | '\u2212' :: cs => (offsetSize? cs).map (fun r => (-(r.1 : Int), r.2))
    | _ => none

/-- **The instant that a text writes**: a date, a `T` or a blank, a time and an offset. -/
def ofText? (s : String) : Option Instant := do
  let (day, cs) ← date? s.toList
  let cs ← match cs with
    | 'T' :: cs => some cs
    | 't' :: cs => some cs
    | ' ' :: cs => some cs
    | _ => none
  let (second, nano, cs) ← time? cs
  let (offset, cs) ← offset? cs
  if (skipBlanks cs).isEmpty then
    let t := day * 86400 + second - offset
    if inCalendar (t / 86400) then some ⟨t / 86400, (t % 86400).toNat, nano⟩ else none
  else none

end Instant

end SeismicHazard
