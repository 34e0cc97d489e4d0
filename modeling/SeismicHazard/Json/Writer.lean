import SeismicHazard.Json.Basic
/-!
# Writer — the text of a value

`Json.compact` writes a value without blanks, `Json.pretty` writes every item and every member on a line of its own,
indented by two blanks for each open array or object.  In a string only the characters that must be escaped are.
-/
namespace SeismicHazard

namespace Json

def hexChar (n : Nat) : Char := Nat.digitChar n

def escape (c : Char) : List Char :=
  match c with
  | '"' => ['\\', '"']
  | '\\' => ['\\', '\\']
  | '\x08' => ['\\', 'b']
  | '\x0c' => ['\\', 'f']
  | '\n' => ['\\', 'n']
  | '\r' => ['\\', 'r']
  | '\t' => ['\\', 't']
  | c => if c.toNat < 0x20 then ['\\', 'u', '0', '0', hexChar (c.toNat / 16), hexChar (c.toNat % 16)] else [c]

/-- A literal; one without text is written as an escape that has none. -/
def literalChars : Option String → List Char
  | some s => '"' :: (s.toList.flatMap escape ++ ['"'])
  | none => "\"\\ud800\"".toList

/-! ## Without blanks -/

mutual

def compactChars : Json → List Char
  | .null => "null".toList
  | .bool true => "true".toList
  | .bool false => "false".toList
  | .number n => n.chars true
  | .string s => literalChars s
  | .array items => '[' :: (compactItems items ++ [']'])
  | .object members => '\x7b' :: (compactMembers members ++ ['\x7d'])

def compactItems : List Json → List Char
  | [] => []
  | [v] => compactChars v
  | v :: vs => compactChars v ++ ',' :: compactItems vs

def compactMembers : List (Option String × Json) → List Char
  | [] => []
  | [(k, v)] => literalChars k ++ ':' :: compactChars v
  | (k, v) :: ms => literalChars k ++ ':' :: (compactChars v ++ ',' :: compactMembers ms)

end

def compact (v : Json) : String := String.ofList (compactChars v)

/-! ## On lines of their own -/

def newLine (depth : Nat) : List Char := '\n' :: List.replicate (2 * depth) ' '

mutual

def prettyChars (depth : Nat) : Json → List Char
  | .null => "null".toList
  | .bool true => "true".toList
  | .bool false => "false".toList
  | .number n => n.chars true
  | .string s => literalChars s
  | .array [] => ['[', ']']
  | .array (v :: vs) => '[' :: (prettyItems (depth + 1) (v :: vs) ++ newLine depth ++ [']'])
  | .object [] => ['\x7b', '\x7d']
  | .object (m :: ms) => '\x7b' :: (prettyMembers (depth + 1) (m :: ms) ++ newLine depth ++ ['\x7d'])

def prettyItems (depth : Nat) : List Json → List Char
  | [] => []
  | [v] => newLine depth ++ prettyChars depth v
  | v :: vs => newLine depth ++ prettyChars depth v ++ ',' :: prettyItems depth vs

def prettyMembers (depth : Nat) : List (Option String × Json) → List Char
  | [] => []
  | [(k, v)] => newLine depth ++ literalChars k ++ ':' :: ' ' :: prettyChars depth v
  | (k, v) :: ms =>
    newLine depth ++ literalChars k ++ ':' :: ' ' :: (prettyChars depth v ++ ',' :: prettyMembers depth ms)

end

def pretty (v : Json) : String := String.ofList (prettyChars 0 v)

end Json

end SeismicHazard
