import TypeTrace.Json.Basic
import TypeTrace.Decimal.Reading
import TypeTrace.Text.Numeral

/-!
# Reading JSON

`Json.parse?` accepts exactly the texts of the grammar, with nothing but white
space around the value. An integer is kept exactly as long as it fits into 64
bits, with or without a sign; any other number becomes a double. Arrays and
objects may stand in at most 126 others; a deeper one is unreadable.
-/

namespace TypeTrace.Json

open TypeTrace.Text

/-- The text after the white space of the grammar. -/
def skipBlank (cs : List Char) : List Char :=
  cs.dropWhile fun c => c == ' ' || c == '\n' || c == '\t' || c == '\r'

/-! ## Strings -/

/-- One element of a written string: a character or half of a surrogate pair. -/
inductive Piece where
  | char (c : Char)
  | half (unit : Nat)
  deriving DecidableEq, Repr

/-- The value of a hexadecimal digit. -/
def hexDigit? (c : Char) : Option Nat :=
  if '0' ≤ c ∧ c ≤ '9' then some (c.toNat - 0x30)
  else if 'a' ≤ c ∧ c ≤ 'f' then some (c.toNat - 0x57)
  else if 'A' ≤ c ∧ c ≤ 'F' then some (c.toNat - 0x37)
  else none

/-- The number that a row of hexadecimal digits denotes. -/
def hexValue? (ds : List Char) : Option Nat :=
  ds.foldlM (fun n c => (hexDigit? c).map (n * 16 + ·)) 0

/-- The element that a code unit stands for. -/
def Piece.ofUnit (u : Nat) : Piece :=
  if 0xd800 ≤ u ∧ u < 0xe000 then .half u else .char (Char.ofNat u)

/-- The character that a backslash and another character stand for. -/
def escaped? : Char → Option Char
  | '"' => some '"'
  | '\\' => some '\\'
  | '/' => some '/'
  | 'b' => some '\x08'
  | 'f' => some '\x0c'
  | 'n' => some '\n'
  | 'r' => some '\r'
  | 't' => some '\t'
  | _ => none

/-- The elements up to the closing quote, and the text after it. -/
def pieces? : List Char → Option (List Piece × List Char)
  | [] => none
  | '"' :: rest => some ([], rest)
  | '\\' :: 'u' :: a :: b :: c :: d :: rest => do
    let u ← hexValue? [a, b, c, d]
    let (ps, after) ← pieces? rest
    return (.ofUnit u :: ps, after)
  | '\\' :: c :: rest => do
    let e ← escaped? c
    let (ps, after) ← pieces? rest
    return (.char e :: ps, after)
  | c :: rest =>
    if c.toNat < 0x20 then none
    else do
      let (ps, after) ← pieces? rest
      return (.char c :: ps, after)

/-- The characters that the elements denote; none if half of a pair stands alone. -/
def assemble? : List Piece → Option (List Char)
  | [] => some []
  | .char c :: rest => (assemble? rest).map (c :: ·)
  | .half u :: .half v :: rest =>
    if u < 0xdc00 ∧ 0xdc00 ≤ v then
      (assemble? rest).map (Char.ofNat (0x10000 + (u - 0xd800) * 0x400 + (v - 0xdc00)) :: ·)
    else none
  | .half _ :: _ => none

/-- A string after its opening quote; the inner option is empty if it denotes no
text. -/
def string? (cs : List Char) : Option (Option String × List Char) := do
  let (ps, after) ← pieces? cs
  return ((assemble? ps).map String.ofList, after)

/-! ## Numbers -/

/-- A number as it is written. -/
structure Written where
  negative : Bool
  whole : List Char
  fraction : Option (List Char)
  exponent : Option Int

/-- A row of at least one ASCII digit, and the text after it. -/
def digitRow? (cs : List Char) : Option (List Char × List Char) :=
  let ds := cs.takeWhile Char.isDigit
  if ds.isEmpty then none else some (ds, cs.dropWhile Char.isDigit)

/-- The digits before the point: a zero stands alone. -/
def whole? (cs : List Char) : Option (List Char × List Char) := do
  let (ds, rest) ← digitRow? cs
  if ds.length = 1 ∨ ds.head? ≠ some '0' then return (ds, rest) else none

/-- The point and the digits after it, if there is a point. -/
def fraction? : List Char → Option (Option (List Char) × List Char)
  | '.' :: cs => (digitRow? cs).map fun (ds, rest) => (some ds, rest)
  | cs => some (none, cs)

/-- The exponent, if there is one. -/
def exponent? : List Char → Option (Option Int × List Char)
  | [] => some (none, [])
  | e :: cs =>
    if e == 'e' || e == 'E' then do
      let (negative, cs) := match cs with
        | '-' :: rest => (true, rest)
        | '+' :: rest => (false, rest)
        | cs => (false, cs)
      let (ds, rest) ← digitRow? cs
      let n ← Numeral.valueFrom? 0 ds
      return (some (if negative then -(n : Int) else n), rest)
    else some (none, e :: cs)

/-- A number as it is written, and the text after it. -/
def written? (cs : List Char) : Option (Written × List Char) := do
  let (negative, cs) := match cs with
    | '-' :: rest => (true, rest)
    | cs => (false, cs)
  let (whole, cs) ← whole? cs
  let (fraction, cs) ← fraction? cs
  let (exponent, cs) ← exponent? cs
  return (⟨negative, whole, fraction, exponent⟩, cs)

/-- Continues a significand by as many digits as fit into 64 bits; gives the
digits left over. -/
def absorb (significand : Nat) : List Char → Nat × List Char
  | [] => (significand, [])
  | c :: cs =>
    let next := significand * 10 + (c.toNat - 0x30)
    if next < UInt64.size then absorb next cs else (significand, c :: cs)

/-- The value of a written number. -/
def Written.toJson (w : Written) : Json :=
  let (start, restWhole) := absorb 0 w.whole
  let isPlain := w.fraction.isNone && w.exponent.isNone && restWhole.isEmpty
  if isPlain && !w.negative then .int start
  else if isPlain && start != 0 && start ≤ 0x8000000000000000 then .int (-start)
  else
    let digits := w.fraction.getD []
    let (significand, restFraction) := absorb start digits
    let places : Int := restWhole.length - (digits.length - restFraction.length : Nat)
    let exponent := places + w.exponent.getD 0
    match Decimal.toBinary64? w.negative significand.toUInt64 exponent with
    | some x => .float x
    | none => .unreadable

/-! ## Values -/

/-- The number of containers that a readable container may stand in. -/
def maxDepth : Nat := 126

/-- A container with `depth` others around it. -/
def nest (depth : Nat) (v : Json) : Json := if depth ≤ maxDepth then v else .unreadable

/-- An object, unless one of its names denotes no text. -/
def ofMembers (members : List (Option String × Json)) : Json :=
  match members.mapM fun m => m.1.map fun k => (k, m.2) with
  | some members => .obj members
  | none => .unreadable

mutual

/-- A value with `depth` containers around it, and the text after it. -/
def value? : (fuel depth : Nat) → List Char → Option (Json × List Char)
  | 0, _, _ => none
  | fuel + 1, depth, cs =>
    match skipBlank cs with
    | 'n' :: 'u' :: 'l' :: 'l' :: rest => some (.null, rest)
    | 't' :: 'r' :: 'u' :: 'e' :: rest => some (.bool true, rest)
    | 'f' :: 'a' :: 'l' :: 's' :: 'e' :: rest => some (.bool false, rest)
    | '"' :: rest => do
      let (s, rest) ← string? rest
      return ((s.map Json.str).getD .unreadable, rest)
    | '[' :: rest =>
      match skipBlank rest with
      | ']' :: rest => some (nest depth (.arr []), rest)
      | rest => do
        let (items, rest) ← items? fuel (depth + 1) rest
        return (nest depth (.arr items), rest)
    | '\x7b' :: rest =>
      match skipBlank rest with
      | '\x7d' :: rest => some (nest depth (.obj []), rest)
      | rest => do
        let (members, rest) ← members? fuel (depth + 1) rest
        return (nest depth (ofMembers members), rest)
    | rest => do
      let (w, rest) ← written? rest
      return (w.toJson, rest)

/-- The items of an array up to its closing bracket: at least one. -/
def items? : (fuel depth : Nat) → List Char → Option (List Json × List Char)
  | 0, _, _ => none
  | fuel + 1, depth, cs => do
    let (v, rest) ← value? fuel depth cs
    match skipBlank rest with
    | ']' :: rest => return ([v], rest)
    | ',' :: rest =>
      let (vs, rest) ← items? fuel depth rest
      return (v :: vs, rest)
    | _ => none

/-- The members of an object up to its closing brace: at least one. -/
def members? :
    (fuel depth : Nat) → List Char → Option (List (Option String × Json) × List Char)
  | 0, _, _ => none
  | fuel + 1, depth, cs =>
    match skipBlank cs with
    | '"' :: rest => do
      let (name, rest) ← string? rest
      match skipBlank rest with
      | ':' :: rest =>
        let (v, rest) ← value? fuel depth rest
        match skipBlank rest with
        | '\x7d' :: rest => return ([(name, v)], rest)
        | ',' :: rest =>
          let (ms, rest) ← members? fuel depth rest
          return ((name, v) :: ms, rest)
        | _ => none
      | _ => none
    | _ => none

end

/-- The value of a text. Every step of the reader but one per container takes a
character, so twice the length of the text is enough fuel. -/
def parse? (text : String) : Option Json :=
  let cs := text.toList
  match value? (2 * cs.length + 2) 0 cs with
  | some (v, rest) => if (skipBlank rest).isEmpty then some v else none
  | none => none

end TypeTrace.Json
