import TypeTrace.Json.Reader

/-!
# The statements of a TOML text

A TOML text is read line by line into statements: table headers, headers of
elements of arrays of tables, and assignments of values to dotted keys. Values
keep their written structure; the tables they describe are put together in a
later step, where keys can clash.
-/

namespace TypeTrace.Toml

open TypeTrace.Text

/-- A key with its dots taken apart; it has at least one part. -/
abbrev Path := List String

/-- A written value. -/
inductive Value where
  | plain (v : Json)
  | array (items : List Value)
  | inlineTable (members : List (Path × Value))
  deriving Inhabited

/-- One statement of a text. -/
inductive Statement where
  | table (path : Path)
  | element (path : Path)
  | assign (path : Path) (value : Value)

/-! ## White space and comments -/

def isSpace (c : Char) : Bool := c == ' ' || c == '\t'

def skipSpace (cs : List Char) : List Char := cs.dropWhile isSpace

/-- May the character stand in a comment or, but for its quotes, in a string? -/
def isTextChar (c : Char) : Bool := c == '\t' || (0x20 ≤ c.toNat && c.toNat != 0x7f)

/-- The text after a line end. -/
def newline? : List Char → Option (List Char)
  | '\n' :: rest => some rest
  | '\r' :: '\n' :: rest => some rest
  | _ => none

/-- The text after a comment, if one starts here. -/
def skipComment : List Char → List Char
  | '#' :: rest => rest.dropWhile isTextChar
  | cs => cs

/-- The text after the end of a statement: blanks, a comment and a line end or
the end of the text. -/
def lineEnd? (cs : List Char) : Option (List Char) :=
  match skipComment (skipSpace cs) with
  | [] => some []
  | rest => newline? rest

/-- The text after blanks, line ends and comments. -/
def skipLines : (fuel : Nat) → List Char → List Char
  | 0, cs => cs
  | fuel + 1, cs =>
    match newline? (skipComment (skipSpace cs)) with
    | some rest => skipLines fuel rest
    | none => skipSpace cs

/-! ## Strings -/

/-- The character of a Unicode scalar value. -/
def scalar? (n : Nat) : Option Char := if n.isValidChar then some (Char.ofNat n) else none

/-- The character of an escape sequence after its backslash, and the text after
it. -/
def escape? : List Char → Option (Char × List Char)
  | 'b' :: rest => some ('\x08', rest)
  | 't' :: rest => some ('\t', rest)
  | 'n' :: rest => some ('\n', rest)
  | 'f' :: rest => some ('\x0c', rest)
  | 'r' :: rest => some ('\r', rest)
  | '"' :: rest => some ('"', rest)
  | '\\' :: rest => some ('\\', rest)
  | 'u' :: rest => do
    if rest.length < 4 then none else
    return (← scalar? (← Json.hexValue? (rest.take 4)), rest.drop 4)
  | 'U' :: rest => do
    if rest.length < 8 then none else
    return (← scalar? (← Json.hexValue? (rest.take 8)), rest.drop 8)
  | _ => none

/-- The rest of a basic string on one line. -/
def basicString? : (fuel : Nat) → List Char → Option (List Char × List Char)
  | 0, _ => none
  | _ + 1, [] => none
  | _ + 1, '"' :: rest => some ([], rest)
  | fuel + 1, '\\' :: rest => do
    let (c, rest) ← escape? rest
    let (s, rest) ← basicString? fuel rest
    return (c :: s, rest)
  | fuel + 1, c :: rest => do
    if !isTextChar c then none else
    let (s, rest) ← basicString? fuel rest
    return (c :: s, rest)

/-- The text after blanks and line ends. -/
def skipBlankLines : List Char → List Char
  | ' ' :: rest | '\t' :: rest | '\n' :: rest | '\r' :: '\n' :: rest => skipBlankLines rest
  | cs => cs

/-- The text after a backslash that joins two lines: the blanks and line ends
after it are no part of the string. -/
def joinLines? (cs : List Char) : Option (List Char) :=
  (newline? (skipSpace cs)).map skipBlankLines

/-- The closing quotes of a string over several lines: three, after at most two
that belong to the string. -/
def closing? (quote : Char) (cs : List Char) : Option (List Char × List Char) :=
  let run := (cs.takeWhile (· == quote)).length
  if run < 3 then none
  else
    let own := min (run - 3) 2
    some (List.replicate own quote, cs.drop (own + 3))

/-- The rest of a basic string over several lines. -/
def basicLines? : (fuel : Nat) → List Char → Option (List Char × List Char)
  | 0, _ => none
  | fuel + 1, cs =>
    match closing? '"' cs, cs with
    | some done, _ => some done
    | none, [] => none
    | none, '\\' :: rest =>
      match joinLines? rest with
      | some rest => basicLines? fuel rest
      | none => do
        let (c, rest) ← escape? rest
        let (s, rest) ← basicLines? fuel rest
        return (c :: s, rest)
    | none, c :: rest =>
      match newline? (c :: rest) with
      | some rest => do
        let (s, rest) ← basicLines? fuel rest
        return ('\n' :: s, rest)
      | none => do
        if !isTextChar c then none else
        let (s, rest) ← basicLines? fuel rest
        return (c :: s, rest)

/-- The rest of a literal string on one line. -/
def literalString? (cs : List Char) : Option (List Char × List Char) :=
  let s := cs.takeWhile (· != '\x27')
  match cs.dropWhile (· != '\x27') with
  | [] => none
  | _ :: rest => if s.all isTextChar then some (s, rest) else none

/-- The rest of a literal string over several lines. -/
def literalLines? : (fuel : Nat) → List Char → Option (List Char × List Char)
  | 0, _ => none
  | fuel + 1, cs =>
    match closing? '\x27' cs, cs with
    | some done, _ => some done
    | none, [] => none
    | none, c :: rest =>
      match newline? (c :: rest) with
      | some rest => do
        let (s, rest) ← literalLines? fuel rest
        return ('\n' :: s, rest)
      | none => do
        if !isTextChar c then none else
        let (s, rest) ← literalLines? fuel rest
        return (c :: s, rest)

/-- The text after a line end, if there is one right here. -/
def skipNewline (cs : List Char) : List Char := (newline? cs).getD cs

/-- A string of any of the four kinds. -/
def string? (cs : List Char) : Option (List Char × List Char) :=
  match cs with
  | '"' :: '"' :: '"' :: rest => basicLines? (rest.length + 1) (skipNewline rest)
  | '"' :: rest => basicString? (rest.length + 1) rest
  | '\x27' :: '\x27' :: '\x27' :: rest => literalLines? (rest.length + 1) (skipNewline rest)
  | '\x27' :: rest => literalString? rest
  | _ => none

/-! ## Keys -/

def isBareKeyChar (c : Char) : Bool := c.isAlphanum || c == '_' || c == '-'

/-- One part of a key. -/
def keyPart? (cs : List Char) : Option (String × List Char) :=
  match cs with
  | '"' :: rest => (basicString? (rest.length + 1) rest).map fun (s, rest) => (.ofList s, rest)
  | '\x27' :: rest => (literalString? rest).map fun (s, rest) => (.ofList s, rest)
  | cs =>
    let s := cs.takeWhile isBareKeyChar
    if s.isEmpty then none else some (.ofList s, cs.dropWhile isBareKeyChar)

/-- The number of parts that a key, and of levels that a value, stays below. -/
def depthLimit : Nat := 80

/-- The parts of a key and the blanks around each of them. -/
def keyParts? : (fuel : Nat) → List Char → Option (Path × List Char)
  | 0, _ => none
  | fuel + 1, cs => do
    let (part, rest) ← keyPart? (skipSpace cs)
    match skipSpace rest with
    | '.' :: rest =>
      let (parts, rest) ← keyParts? fuel rest
      return (part :: parts, rest)
    | rest => return ([part], rest)

/-- A key with fewer parts than the limit. -/
def key? (cs : List Char) : Option (Path × List Char) := keyParts? (depthLimit - 1) cs

/-! ## Numbers and dates -/

/-- Digits with single underscores between them. -/
def digitRun (isDigit : Char → Bool) : List Char → List Char × List Char
  | '_' :: c :: rest =>
    if isDigit c then
      let (ds, after) := digitRun isDigit rest
      (c :: ds, after)
    else ([], '_' :: c :: rest)
  | c :: rest =>
    if isDigit c then
      let (ds, after) := digitRun isDigit rest
      (c :: ds, after)
    else ([], c :: rest)
  | [] => ([], [])

/-- At least one digit, with single underscores between digits. -/
def digits? (isDigit : Char → Bool) : List Char → Option (List Char × List Char)
  | [] => none
  | c :: rest =>
    if isDigit c then
      let (ds, after) := digitRun isDigit rest
      some (c :: ds, after)
    else none

/-- The sign of a number: is it a minus? -/
def sign : List Char → Bool × List Char
  | '-' :: rest => (true, rest)
  | '+' :: rest => (false, rest)
  | cs => (false, cs)

/-- The digits before the point of a decimal number: a zero stands alone. -/
def whole? : List Char → Option (List Char × List Char)
  | '0' :: rest => some (['0'], rest)
  | cs => digits? Char.isDigit cs

/-- The number that a row of digits denotes in a base of at most sixteen. -/
def valueIn (base : Nat) (ds : List Char) : Nat :=
  ds.foldl (fun n c => n * base + (Json.hexDigit? c).getD 0) 0

/-- An integer of 64 bits. -/
def integer64? (n : Int) : Option Json :=
  if -0x8000000000000000 ≤ n ∧ n < 0x8000000000000000 then some (.int n) else none

/-- An integer in base two, eight or sixteen, after its two-letter mark. -/
def based? (base : Nat) (cs : List Char) : Option (Json × List Char) := do
  let isDigit := fun c => (Json.hexDigit? c).any (· < base)
  let (ds, rest) ← digits? isDigit cs
  return (← integer64? (valueIn base ds), rest)

/-- An integer. -/
def integer? (cs : List Char) : Option (Json × List Char) :=
  match cs with
  | '0' :: 'x' :: rest => based? 16 rest
  | '0' :: 'o' :: rest => based? 8 rest
  | '0' :: 'b' :: rest => based? 2 rest
  | cs => do
    let (negative, rest) := sign cs
    let (ds, rest) ← whole? rest
    let n : Int := valueIn 10 ds
    return (← integer64? (if negative then -n else n), rest)

/-- The exponent of a number. -/
def exponent? : List Char → Option (Int × List Char)
  | e :: rest =>
    if e == 'e' || e == 'E' then do
      let (negative, rest) := sign rest
      let (ds, rest) ← digits? Char.isDigit rest
      let n : Int := valueIn 10 ds
      return (if negative then -n else n, rest)
    else none
  | [] => none

/-- The digits after the point, and the exponent; one of the two is there. -/
def fractionExponent? (cs : List Char) : Option (List Char × Int × List Char) :=
  match cs with
  | '.' :: rest => do
    let (ds, rest) ← digits? Char.isDigit rest
    match exponent? rest with
    | some (e, rest) => return (ds, e, rest)
    | none => return (ds, 0, rest)
  | cs => (exponent? cs).map fun (e, rest) => ([], e, rest)

/-- A number with a fraction or an exponent. One above the range is refused, but
not one below it. -/
def decimal? (cs : List Char) : Option (Json × List Char) := do
  let (negative, rest) := sign cs
  let (whole, rest) ← whole? rest
  let (fraction, e, rest) ← fractionExponent? rest
  let x := Decimal.nearest negative (valueIn 10 (whole ++ fraction)) (e - fraction.length)
  if !x.isFinite && !negative then none else return (.float x, rest)

/-- An infinity or a NaN. -/
def special? (cs : List Char) : Option (Json × List Char) :=
  let (negative, rest) := sign cs
  let signed := fun (x : Float) => Json.float (.ofFloat (if negative then -x else x))
  match rest with
  | 'i' :: 'n' :: 'f' :: rest => some (signed (1.0 / 0.0), rest)
  | 'n' :: 'a' :: 'n' :: rest => some (signed (0.0 / 0.0), rest)
  | _ => none

/-- A number of exactly `n` digits between two bounds. -/
def fixed? (n low high : Nat) (cs : List Char) : Option (Nat × List Char) :=
  let ds := cs.take n
  let v := valueIn 10 ds
  if ds.length = n ∧ ds.all Char.isDigit ∧ low ≤ v ∧ v ≤ high then some (v, cs.drop n) else none

/-- The text after a given character. -/
def after? (c : Char) : List Char → Option (List Char)
  | d :: rest => if c == d then some rest else none
  | [] => none

/-- The number of days of a month. -/
def daysIn (year month : Nat) : Nat :=
  let leap := year % 4 == 0 && (year % 100 != 0 || year % 400 == 0)
  if month == 2 then (if leap then 29 else 28)
  else if month == 4 || month == 6 || month == 9 || month == 11 then 30
  else 31

/-- The text after a date. -/
def date? (cs : List Char) : Option (List Char) := do
  let (year, cs) ← fixed? 4 0 9999 cs
  let (month, cs) ← fixed? 2 1 12 (← after? '-' cs)
  let (_, cs) ← fixed? 2 1 (daysIn year month) (← after? '-' cs)
  return cs

/-- The text after a time of day. -/
def time? (cs : List Char) : Option (List Char) := do
  let (_, cs) ← fixed? 2 0 23 cs
  let (_, cs) ← fixed? 2 0 59 (← after? ':' cs)
  let (_, cs) ← fixed? 2 0 60 (← after? ':' cs)
  match cs with
  | '.' :: rest =>
    match Json.digitRow? rest with
    | some (_, rest) => return rest
    | none => return cs
  | cs => return cs

/-- The text after an offset from universal time. -/
def offset? (cs : List Char) : Option (List Char) :=
  match cs with
  | 'Z' :: rest | 'z' :: rest => some rest
  | '+' :: rest | '-' :: rest => do
    let (_, cs) ← fixed? 2 0 23 rest
    let (_, cs) ← fixed? 2 0 59 (← after? ':' cs)
    return cs
  | _ => none

/-- The text after the time that follows a date. -/
def timeOfDate? (cs : List Char) : Option (List Char) := do
  match cs with
  | c :: rest =>
    if c == 'T' || c == 't' || c == ' ' then
      let rest ← time? rest
      return (offset? rest).getD rest
    else none
  | [] => none

/-- A date, a time or both. Its value is an object of its own form, which is no
string and no number. -/
def dateTime? (cs : List Char) : Option (Json × List Char) := do
  let rest ← match date? cs with
    | some rest => some ((timeOfDate? rest).getD rest)
    | none => time? cs
  let text := cs.take (cs.length - rest.length)
  return (.obj [("datetime", .str (.ofList text))], rest)

/-! ## Values -/

mutual

/-- A value inside `depth` arrays and inline tables. -/
def value? : (fuel depth : Nat) → List Char → Option (Value × List Char)
  | 0, _, _ => none
  | fuel + 1, depth, cs =>
    match cs with
    | '[' :: rest =>
      if depth + 1 < depthLimit then do
        let (items, rest) ← items? fuel (depth + 1) (skipLines rest.length rest)
        return (.array items, rest)
      else none
    | '\x7b' :: rest =>
      if depth + 1 < depthLimit then
        match skipSpace rest with
        | '\x7d' :: rest => some (.inlineTable [], rest)
        | rest => do
          let (members, rest) ← members? fuel (depth + 1) rest
          return (.inlineTable members, rest)
      else none
    | 't' :: 'r' :: 'u' :: 'e' :: rest => some (.plain (.bool true), rest)
    | 'f' :: 'a' :: 'l' :: 's' :: 'e' :: rest => some (.plain (.bool false), rest)
    | '"' :: _ | '\x27' :: _ =>
      (string? cs).map fun (s, rest) => (.plain (.str (.ofList s)), rest)
    | cs =>
      (((dateTime? cs).or (decimal? cs)).or (special? cs)).or (integer? cs)
        |>.map fun (v, rest) => (.plain v, rest)

/-- The items of an array up to its closing bracket. A comma may follow the last
one. -/
def items? : (fuel depth : Nat) → List Char → Option (List Value × List Char)
  | 0, _, _ => none
  | _ + 1, _, ']' :: rest => some ([], rest)
  | fuel + 1, depth, cs => do
    let (v, rest) ← value? fuel depth cs
    match skipLines rest.length rest with
    | ']' :: rest => return ([v], rest)
    | ',' :: rest =>
      let (vs, rest) ← items? fuel depth (skipLines rest.length rest)
      return (v :: vs, rest)
    | _ => none

/-- The members of an inline table up to its closing brace, all on one line. -/
def members? : (fuel depth : Nat) → List Char → Option (List (Path × Value) × List Char)
  | 0, _, _ => none
  | fuel + 1, depth, cs => do
    let (path, rest) ← key? cs
    let (v, rest) ← value? fuel depth (skipSpace (← after? '=' rest))
    match skipSpace rest with
    | '\x7d' :: rest => return ([(path, v)], rest)
    | ',' :: rest =>
      let (ms, rest) ← members? fuel depth rest
      return ((path, v) :: ms, rest)
    | _ => none

end

/-! ## Statements -/

/-- One statement and the text after its line. -/
def statement? (cs : List Char) : Option (Statement × List Char) :=
  match cs with
  | '[' :: '[' :: rest => do
    let (path, rest) ← key? rest
    return (.element path, ← lineEnd? (← after? ']' (← after? ']' rest)))
  | '[' :: rest => do
    let (path, rest) ← key? rest
    return (.table path, ← lineEnd? (← after? ']' rest))
  | cs => do
    let (path, rest) ← key? cs
    let rest := skipSpace (← after? '=' rest)
    let (v, rest) ← value? (2 * rest.length + 2) 0 rest
    return (.assign path v, ← lineEnd? rest)

/-- The statements of a text. Every round takes a line end or a statement. -/
def statementsFrom? : (fuel : Nat) → List Char → Option (List Statement)
  | 0, _ => none
  | fuel + 1, cs =>
    match skipSpace cs with
    | [] => some []
    | rest =>
      match lineEnd? rest with
      | some rest => statementsFrom? fuel rest
      | none => do
        let (s, rest) ← statement? rest
        return s :: (← statementsFrom? fuel rest)

/-- The statements of a text, which may start with a byte order mark. -/
def statements? (text : String) : Option (List Statement) :=
  let cs := match text.toList with
    | '\uFEFF' :: rest => rest
    | cs => cs
  statementsFrom? (cs.length + 1) cs

end TypeTrace.Toml
