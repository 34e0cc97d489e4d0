import SeismicHazard.Number.Natural
/-!
# Unique identifiers

A unique identifier is a 128-bit number.  It is written as thirty-two hexadecimal digits, with hyphens after the eighth,
twelfth, sixteenth and twentieth; it may be read without hyphens, in braces or behind the prefix `urn:uuid:`, where the
case of a letter does not count.
-/
namespace SeismicHazard

structure Uuid where
  val : Nat
  deriving DecidableEq, Repr, Inhabited

namespace Uuid

def hexDigit? (c : Char) : Option Nat :=
  if '0' ≤ c ∧ c ≤ '9' then some (c.toNat - 48)
  else if 'a' ≤ c ∧ c ≤ 'f' then some (c.toNat - 87)
  else if 'A' ≤ c ∧ c ≤ 'F' then some (c.toNat - 55)
  else none

def ofDigits? (cs : List Char) : Option Uuid :=
  if cs.length = 32 then
    (cs.foldlM (fun n c => (hexDigit? c).map (fun d => n * 16 + d)) 0).map Uuid.mk
  else none

def partSizes : List Nat := [8, 4, 4, 4, 12]

def unhyphen? : List Nat → List Char → Option (List Char)
  | [], [] => some []
  | [], _ :: _ => none
  | [n], cs => if cs.length = n then some cs else none
  | n :: ns, cs =>
    match cs.drop n with
    | '-' :: rest => (unhyphen? ns rest).map (cs.take n ++ ·)
    | _ => none

def ofHyphenated? (cs : List Char) : Option Uuid := (unhyphen? partSizes cs).bind ofDigits?

def nameMark : List Char := "urn:uuid:".toList

def ofText? (s : String) : Option Uuid :=
  let cs := s.toList
  match cs.length with
  | 32 => ofDigits? cs
  | 36 => ofHyphenated? cs
  | 38 => if cs.head? = some '\x7b' ∧ cs.getLast? = some '\x7d' then ofHyphenated? (cs.drop 1).dropLast else none
  | 45 => if (cs.take 9).map Char.toLower = nameMark then ofHyphenated? (cs.drop 9) else none
  | _ => none

def digits (u : Uuid) : List Char := (List.range 32).map (fun i => Nat.digitChar (u.val / twoTo (4 * (31 - i)) % 16))

def hyphenate : List Nat → List Char → List Char
  | [], cs => cs
  | [_], cs => cs
  | n :: ns, cs => cs.take n ++ '-' :: hyphenate ns (cs.drop n)

def text (u : Uuid) : String := String.ofList (hyphenate partSizes u.digits)

end Uuid

end SeismicHazard
