import SeismicHazard.Json.Basic
/-!
# Tokens — the lexical half of reading a document

A document's characters are cut into brackets, commas, colons, string literals and words; a word is a longest run of
other characters that are not blank.  The cut looks at one character at a time and never back.  A second step reads
each piece: a word is a number or one of three names, a literal is decoded.
-/
namespace SeismicHazard

namespace Json

inductive Piece where
  | mark (c : Char)
  | word (cs : List Char)
  | literal (cs : List Char)
  deriving DecidableEq, Repr

def isBlank (c : Char) : Bool := c = ' ' || c = '\t' || c = '\n' || c = '\r'

def isMark (c : Char) : Bool :=
  c = '[' || c = ']' || c = '\x7b' || c = '\x7d' || c = ',' || c = ':'

/-- Where the cut stands: between pieces, or inside one with the characters seen so far, last first. -/
inductive Cut where
  | gap
  | word (seen : List Char)
  /-- Inside a literal; the flag says that the next character is escaped. -/
  | literal (seen : List Char) (escaped : Bool)
  deriving DecidableEq, Repr

/-- The pieces of a text, last first, added to those before it; none when a literal is not closed. -/
def cut : Cut → List Piece → List Char → Option (List Piece)
  | .gap, out, [] => some out
  | .word seen, out, [] => some (.word seen.reverse :: out)
  | .literal _ _, _, [] => none
  | .gap, out, c :: cs =>
    if isBlank c then cut .gap out cs
    else if c = '"' then cut (.literal [] false) out cs
    else if isMark c then cut .gap (.mark c :: out) cs
    else cut (.word [c]) out cs
  | .word seen, out, c :: cs =>
    if isBlank c then cut .gap (.word seen.reverse :: out) cs
    else if c = '"' then cut (.literal [] false) (.word seen.reverse :: out) cs
    else if isMark c then cut .gap (.mark c :: .word seen.reverse :: out) cs
    else cut (.word (c :: seen)) out cs
  | .literal seen true, out, c :: cs => cut (.literal (c :: seen) false) out cs
  | .literal seen false, out, c :: cs =>
    if c = '"' then cut .gap (.literal seen.reverse :: out) cs
    else cut (.literal (c :: seen) (c = '\\')) out cs

def pieces (cs : List Char) : Option (List Piece) := (cut .gap [] cs).map List.reverse

/-! ## Literals

A literal is decoded into code units first, because an escape names a unit and two escapes may name one character. -/

def hexValue? (c : Char) : Option Nat :=
  if '0' ≤ c ∧ c ≤ '9' then some (c.toNat - 48)
  else if 'a' ≤ c ∧ c ≤ 'f' then some (c.toNat - 87)
  else if 'A' ≤ c ∧ c ≤ 'F' then some (c.toNat - 55)
  else none

def hex4? (a b c d : Char) : Option Nat := do
  let a ← hexValue? a
  let b ← hexValue? b
  let c ← hexValue? c
  let d ← hexValue? d
  return ((a * 16 + b) * 16 + c) * 16 + d

def shortEscape? (c : Char) : Option Nat :=
  match c with
  | '"' => some 0x22
  | '\\' => some 0x5c
  | '/' => some 0x2f
  | 'b' => some 0x08
  | 'f' => some 0x0c
  | 'n' => some 0x0a
  | 'r' => some 0x0d
  | 't' => some 0x09
  | _ => none

/-- The code units of a literal; none when an escape is not one or a control character stands unescaped. -/
def units? : List Char → Option (List Nat)
  | [] => some []
  | '\\' :: 'u' :: a :: b :: c :: d :: rest => do return (← hex4? a b c d) :: (← units? rest)
  | '\\' :: c :: rest => do return (← shortEscape? c) :: (← units? rest)
  | c :: rest => if c.toNat < 0x20 || c = '\\' then none else (units? rest).map (c.toNat :: ·)

def isLead (n : Nat) : Bool := 0xd800 ≤ n && n < 0xdc00

def isTrail (n : Nat) : Bool := 0xdc00 ≤ n && n < 0xe000

/-- The characters of code units; none when a half of a surrogate pair stands alone. -/
def joinUnits : List Nat → Option (List Char)
  | [] => some []
  | [n] => if isLead n || isTrail n then none else some [Char.ofNat n]
  | n :: m :: rest =>
    if isLead n then
      if isTrail m then (joinUnits rest).map (Char.ofNat (0x10000 + (n - 0xd800) * 0x400 + (m - 0xdc00)) :: ·)
      else none
    else if isTrail n then none
    else (joinUnits (m :: rest)).map (Char.ofNat n :: ·)

/-! ## Words -/

def digitsOf (cs : List Char) : List Nat × List Char :=
  ((cs.takeWhile Char.isDigit).map (fun c => c.toNat - 48), cs.dropWhile Char.isDigit)

def ofDigits (ds : List Nat) : Nat := ds.foldl (fun n d => n * 10 + d) 0

/-- The exponent at the end of a number: none when it is malformed, and no exponent for no text. -/
def exponent? : List Char → Option (Option Int)
  | [] => some none
  | c :: cs =>
    if c = 'e' ∨ c = 'E' then
      let (negative, cs) := match cs with
        | '-' :: r => (true, r)
        | '+' :: r => (false, r)
        | r => (false, r)
      match digitsOf cs with
      | ([], _) => none
      | (ds, []) => some (some (if negative then -(ofDigits ds : Int) else ofDigits ds))
      | _ => none
    else none

/-- A number without its sign.  A whole part of several digits does not start with a zero, and a digit follows the
point. -/
def unsigned? (negative : Bool) (cs : List Char) : Option Numeral :=
  match digitsOf cs with
  | ([], _) => none
  | (d :: ds, rest) =>
    if d = 0 ∧ ds ≠ [] then none
    else
      match rest with
      | '.' :: rest =>
        match digitsOf rest with
        | ([], _) => none
        | (fs, rest) => (exponent? rest).map (fun e => ⟨negative, ofDigits (d :: ds), fs, e⟩)
      | rest => (exponent? rest).map (fun e => ⟨negative, ofDigits (d :: ds), [], e⟩)

def numeral? : List Char → Option Numeral
  | '-' :: cs => unsigned? true cs
  | cs => unsigned? false cs

/-! ## Tokens -/

inductive Token where
  | mark (c : Char)
  | scalar (v : Json)
  /-- A string literal, which may be a value or the name of a member. -/
  | string (s : Option String)

def wordToken? (cs : List Char) : Option Token :=
  if cs = "null".toList then some (.scalar .null)
  else if cs = "true".toList then some (.scalar (.bool true))
  else if cs = "false".toList then some (.scalar (.bool false))
  else (numeral? cs).map (fun n => .scalar (.number n))

def token? : Piece → Option Token
  | .mark c => some (.mark c)
  | .word cs => wordToken? cs
  | .literal cs => (units? cs).map (fun us => .string ((joinUnits us).map String.ofList))

def tokens? (s : String) : Option (List Token) := do
  (← pieces s.toList).mapM token?

end Json

end SeismicHazard
