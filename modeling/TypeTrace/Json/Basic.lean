import TypeTrace.Decimal.Binary64

/-!
# JSON values

Numbers written without a fraction and an exponent are integers and stay apart
from all others. An object keeps its members in the order of the text, repeated
names included.

A text may follow the grammar and still denote no value: a string with half of
a surrogate pair, a number past the range of a double, a nesting too deep to be
taken apart. Such a part is `unreadable`. It does no harm where it is skipped,
and no decoder accepts it.
-/

namespace TypeTrace

/-- A JSON value. -/
inductive Json where
  | null
  | bool (b : Bool)
  | int (n : Int)
  | float (x : Binary64)
  | str (s : String)
  | arr (items : List Json)
  | obj (members : List (String × Json))
  | unreadable
  deriving Inhabited, Repr

namespace Json

mutual

/-- Does every part of the value denote something? -/
def isReadable : Json → Bool
  | .unreadable => false
  | .arr items => areReadable items
  | .obj members => membersReadable members
  | _ => true

def areReadable : List Json → Bool
  | [] => true
  | v :: vs => isReadable v && areReadable vs

def membersReadable : List (String × Json) → Bool
  | [] => true
  | (_, v) :: rest => isReadable v && membersReadable rest

end

end Json

end TypeTrace
