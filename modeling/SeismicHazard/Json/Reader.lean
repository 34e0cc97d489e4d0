import SeismicHazard.Json.Token
/-!
# Reader — the values of a text

Tokens are fed one at a time to a stack of the arrays and objects that are still open.  Each state says what may come
next, and `Json.parse?` is the fold of `feed` over the tokens; a text has a value exactly when the fold ends with one.
-/
namespace SeismicHazard

namespace Json

inductive Frame where
  | array (items : List Json)
  /-- An object with its members so far and the name of the member whose value is being read. -/
  | object (members : List (Option String × Json)) (name : Option String)

/-- What the reader expects, above the open frames. -/
inductive Reading where
  | value (open_ : List Frame)
  | item (open_ : List Frame)
  | member (open_ : List Frame)
  | name (members : List (Option String × Json)) (open_ : List Frame)
  | colon (members : List (Option String × Json)) (name : Option String) (open_ : List Frame)
  | afterItem (items : List Json) (open_ : List Frame)
  | afterMember (members : List (Option String × Json)) (open_ : List Frame)
  | done (v : Json)

def complete (v : Json) : List Frame → Reading
  | [] => .done v
  | .array items :: rest => .afterItem (v :: items) rest
  | .object members name :: rest => .afterMember ((name, v) :: members) rest

def begin? (open_ : List Frame) : Token → Option Reading
  | .scalar v => some (complete v open_)
  | .string s => some (complete (.string s) open_)
  | .mark '[' => some (.item open_)
  | .mark '\x7b' => some (.member open_)
  | .mark _ => none

def feed : Reading → Token → Option Reading
  | .value open_, t => begin? open_ t
  | .item open_, .mark ']' => some (complete (.array []) open_)
  | .item open_, t => begin? (.array [] :: open_) t
  | .member open_, .mark '\x7d' => some (complete (.object []) open_)
  | .member open_, .string s => some (.colon [] s open_)
  | .name members open_, .string s => some (.colon members s open_)
  | .colon members name open_, .mark ':' => some (.value (.object members name :: open_))
  | .afterItem items open_, .mark ',' => some (.value (.array items :: open_))
  | .afterItem items open_, .mark ']' => some (complete (.array items.reverse) open_)
  | .afterMember members open_, .mark ',' => some (.name members open_)
  | .afterMember members open_, .mark '\x7d' => some (complete (.object members.reverse) open_)
  | _, _ => none

/-- **The value of a text**; none when the text is no document. -/
def parse? (s : String) : Option Json := do
  match ← (← tokens? s).foldlM feed (.value []) with
  | .done v => some v
  | _ => none

end Json

end SeismicHazard
