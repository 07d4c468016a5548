import TypeTrace.Json.Basic
import TypeTrace.Decimal.Shortest

/-!
# Writing JSON

Two layouts: `Json.compact` without white space, and `Json.pretty` with one item
or member a line and two blanks a level. In strings the quote, the backslash and
the control characters below U+0020 are escaped, and nothing else.
-/

namespace TypeTrace.Json

/-- A digit of a small hexadecimal number. -/
def hexDigit (n : Nat) : Char :=
  if n < 10 then Char.ofNat (0x30 + n) else Char.ofNat (0x57 + n)

/-- A character as it stands in a string. -/
def escapeChar (c : Char) : String :=
  if c == '"' then "\\\""
  else if c == '\\' then "\\\\"
  else if c == '\x08' then "\\b"
  else if c == '\x0c' then "\\f"
  else if c == '\n' then "\\n"
  else if c == '\r' then "\\r"
  else if c == '\t' then "\\t"
  else if c.toNat < 0x20 then
    "\\u00" ++ String.ofList [hexDigit (c.toNat / 16), hexDigit (c.toNat % 16)]
  else c.toString

/-- A text as a JSON string. -/
def quote (s : String) : String := "\"" ++ String.join (s.toList.map escapeChar) ++ "\""

/-- The text of a value that holds no others. A number that is not finite has no
text in JSON and is written as `null`. -/
def atom : Json → String
  | .bool true => "true"
  | .bool false => "false"
  | .int n => Text.Numeral.ofInt n
  | .float x => if x.isFinite then x.display else "null"
  | .str s => quote s
  | _ => "null"

mutual

/-- The text of a value, without white space. -/
def compact : Json → String
  | .arr items => "[" ++ compactItems items ++ "]"
  | .obj members => "\x7b" ++ compactMembers members ++ "\x7d"
  | v => atom v

def compactItems : List Json → String
  | [] => ""
  | [v] => compact v
  | v :: w :: vs => compact v ++ "," ++ compactItems (w :: vs)

def compactMembers : List (String × Json) → String
  | [] => ""
  | [(k, v)] => quote k ++ ":" ++ compact v
  | (k, v) :: m :: ms => quote k ++ ":" ++ compact v ++ "," ++ compactMembers (m :: ms)

end

/-- The end of a line and the blanks at the start of the next one. -/
def newLine (level : Nat) : String := "\n" ++ String.ofList (List.replicate (2 * level) ' ')

mutual

/-- The text of a value that stands `level` containers deep, over several lines. -/
def prettyAt (level : Nat) : Json → String
  | .arr [] => "[]"
  | .arr (v :: vs) =>
    "[" ++ newLine (level + 1) ++ prettyItems (level + 1) (v :: vs) ++ newLine level ++ "]"
  | .obj [] => "\x7b\x7d"
  | .obj (m :: ms) =>
    "\x7b" ++ newLine (level + 1) ++ prettyMembers (level + 1) (m :: ms) ++ newLine level ++
      "\x7d"
  | v => atom v

def prettyItems (level : Nat) : List Json → String
  | [] => ""
  | [v] => prettyAt level v
  | v :: w :: vs => prettyAt level v ++ "," ++ newLine level ++ prettyItems level (w :: vs)

def prettyMembers (level : Nat) : List (String × Json) → String
  | [] => ""
  | [(k, v)] => quote k ++ ": " ++ prettyAt level v
  | (k, v) :: m :: ms =>
    quote k ++ ": " ++ prettyAt level v ++ "," ++ newLine level ++ prettyMembers level (m :: ms)

end

/-- The text of a value over several lines. -/
def pretty (v : Json) : String := prettyAt 0 v

end TypeTrace.Json
