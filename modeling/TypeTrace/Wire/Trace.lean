import TypeTrace.Decimal.Reading
import TypeTrace.Trace.Alignment
import TypeTrace.Wire.Place
import TypeTrace.Wire.Types

/-!
# Literals and traces in JSON

A literal has its kind under `kind` and its value, if there is one, under `value`,
in any order; as an array it gives both, and the kind is then its bare name. An
operation is given by its name.
-/

namespace TypeTrace

/-! ## Literals -/

namespace Literal

/-- The name of the kind of a literal. -/
def Kind.name : Kind → String
  | .none => "none"
  | .bool => "bool"
  | .int => "int"
  | .float => "float"
  | .str => "str"
  | .bytes => "bytes"
  | .ellipsis => "ellipsis"

def Kind.all : List Kind := [.none, .bool, .int, .float, .str, .bytes, .ellipsis]

/-- The kind of a name. -/
def Kind.ofName? (s : String) : Option Kind := all.find? (·.name == s)

/-- The value of a literal that has one. -/
def content? : Literal → Option Json
  | .none | .ellipsis => Option.none
  | .bool b => some (.bool b)
  | .int i => some (.int i.toInt)
  | .float x => some (.float x)
  | .str s => some (.str s)
  | .bytes bs => some (Json.ofList (fun b => .int b.toNat) bs)

/-- A literal by its kind and, if the kind does not say it all, its value. -/
def toJson (l : Literal) : Json :=
  .obj (("kind", .str l.kind.name) :: (l.content?.map fun v => ("value", v)).toList)

/-- A number as a float; integers are rounded. -/
def float? : Json → Option Binary64
  | .float x => some x
  | .int n => some (Decimal.nearest (n < 0) n.natAbs 0)
  | _ => Option.none

/-- Reads a number of eight bits. -/
def byte? (v : Json) : Option UInt8 := (v.natBelow? UInt8.size).map UInt8.ofNat

/-- A literal of a kind, with its value. -/
def build? (kind : Kind) (content : Option Json) : Option Literal :=
  match kind, content with
  | .none, Option.none | .none, some .null => some .none
  | .ellipsis, Option.none | .ellipsis, some .null => some .ellipsis
  | .bool, some v => v.bool?.map .bool
  | .int, some v =>
    (v.intBetween? (-0x8000000000000000) 0x8000000000000000).map fun n => .int (.ofInt n)
  | .float, some v => (float? v).map .float
  | .str, some v => v.str?.map .str
  | .bytes, some v => (v.list? byte?).map .bytes
  | _, Option.none => Option.none
  | _, _ => Option.none

/-- The literal that a value describes. -/
def ofJson? : Json → Option Literal
  | .obj members => do
    let fields ← Json.ofMembers? ["kind", "value"] members
    let kind ← Json.required? fields "kind" Json.caseName?
    build? (← Kind.ofName? kind) (fields.lookup "value")
  | .arr [kind, content] => do build? (← Kind.ofName? (← kind.str?)) content
  | _ => Option.none

end Literal

/-! ## Traces -/

/-- An operation by its name. -/
def Opcode.toJson (op : Opcode) : Json := .str op.name

/-- Reads an operation. Every name is one, since those that are not known count as one. -/
def Opcode.ofJson? (v : Json) : Option Opcode := v.str?.map ofName

namespace Trace

/-- A trace as a record. -/
def toJson (t : Trace) : Json :=
  .obj [("op", t.op.toJson), ("symbol", t.symbol.toJson), ("types", Json.ofList Ty.toJson t.types)]

def ofJson? (v : Json) : Option Trace := do
  let fields ← v.fields? ["op", "symbol", "types"]
  return { op := ← Json.required? fields "op" Opcode.ofJson?
           symbol := ← Json.required? fields "symbol" Literal.ofJson?
           types := ← Json.defaulted? fields "types" [] (Json.list? Ty.ofJson?) }

end Trace

namespace TraceKey

/-- A key as a record of its two numbers. -/
def toJson (key : TraceKey) : Json :=
  .obj [("line", .int key.line.toNat), ("index", .int key.index)]

/-- An index has 64 bits at most. -/
def ofJson? (v : Json) : Option TraceKey := do
  let fields ← v.fields? ["line", "index"]
  return { line := ← Json.required? fields "line" Json.uint32?
           index := ← Json.required? fields "index" (Json.natBelow? UInt64.size) }

end TraceKey

/-- A record of an alignment, with the place, the key and the trace. -/
def Alignment.toJson (a : Alignment) : Json :=
  .obj [("location", a.location.toJson), ("key", a.key.toJson), ("trace", a.trace.toJson)]

end TypeTrace
