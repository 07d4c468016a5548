import TypeTrace.Decimal.Shortest
import TypeTrace.Text.Utf8

/-!
# Literals

The values of Python constants. They are compared as Python compares them:
truth values count as 0 and 1, integers and floats are equal when they denote
the same number, and a NaN is equal to nothing.
-/

namespace TypeTrace

/-- The value of a constant. -/
inductive Literal where
  | none
  | bool (b : Bool)
  | int (i : Int64)
  | float (x : Binary64)
  | str (s : String)
  | bytes (bs : List UInt8)
  | ellipsis
  deriving DecidableEq, Repr, Inhabited

namespace Literal

/-- What sort of constant a literal is. -/
inductive Kind where
  | none
  | bool
  | int
  | float
  | str
  | bytes
  | ellipsis
  deriving DecidableEq, Repr

def kind : Literal → Kind
  | .none => .none
  | .bool _ => .bool
  | .int _ => .int
  | .float _ => .float
  | .str _ => .str
  | .bytes _ => .bytes
  | .ellipsis => .ellipsis

def str? : Literal → Option String
  | .str s => some s
  | _ => Option.none

/-- The number that a truth value or an integer counts as. -/
def integer? : Literal → Option Int
  | .bool b => some (if b then 1 else 0)
  | .int i => some i.toInt
  | _ => Option.none

/-- Is the literal the truth value or the integer that a float denotes? -/
def isInteger (l : Literal) (x : Binary64) : Bool :=
  match l.integer?, x.toInt? with
  | some i, some j => i == j
  | _, _ => false

/-- Equality of values. -/
def equal : Literal → Literal → Bool
  | .none, .none => true
  | .ellipsis, .ellipsis => true
  | .str a, .str b => a == b
  | .bytes a, .bytes b => a == b
  | .float x, .float y => x.sameValue y
  | .float x, l => l.isInteger x
  | l, .float x => l.isInteger x
  | a, b =>
    match a.integer?, b.integer? with
    | some i, some j => i == j
    | _, _ => false

/-- The text of a value. Strings and bytes stand between quotes as they are;
bytes that are no text show replacement characters. -/
def display : Literal → String
  | .none => "None"
  | .bool true => "True"
  | .bool false => "False"
  | .int i => Text.Numeral.ofInt i.toInt
  | .float x => x.display
  | .str s => "'" ++ s ++ "'"
  | .bytes bs => "b'" ++ String.ofList (Text.Utf8.decodeLenient bs) ++ "'"
  | .ellipsis => "Ellipsis"

end Literal

end TypeTrace
