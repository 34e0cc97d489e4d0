import SeismicHazard.Number.Numeral
/-!
# Documents — the values of a JSON text

A document value keeps what its reader may need later: a number as it is written, and every member of an object in
order, repeated names included.  A string literal has no text when an escape in it names half of a surrogate pair
without the other half; such a literal is well formed and may be skipped, but it cannot be read.
-/
namespace SeismicHazard

inductive Json where
  | null
  | bool (value : Bool)
  | number (numeral : Numeral)
  /-- A string literal; none when it has no text. -/
  | string (text : Option String)
  | array (items : List Json)
  | object (members : List (Option String × Json))
  deriving Inhabited

namespace Json

def text (s : String) : Json := .string (some s)

def nat (n : Nat) : Json := .number (.ofNat n)

def record (members : List (String × Json)) : Json := .object (members.map (fun m => (some m.1, m.2)))

end Json

end SeismicHazard
