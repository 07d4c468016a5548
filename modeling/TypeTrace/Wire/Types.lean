import TypeTrace.Json.Record
import TypeTrace.Types.Slot

/-!
# Types and slots in JSON

A type is a record whose first field, `kind`, names the case; as an array it
starts with that name. A slot has the case under `state` and the type, if there
is one, under `type`, in any order; as an array it gives both, and the case is
then its bare name.

Where a type stands inside another one, the case may also be given by its number.
The same holds of the type of a slot that precedes the case of the slot.
-/

namespace TypeTrace

/-! ## Cases of types -/

/-- The case of a type, as it is written. -/
inductive TyCase where
  | named
  | union
  | callable
  | tuple
  | any
  | nothing
  | unknown
  deriving DecidableEq, Repr

namespace TyCase

def all : List TyCase := [named, union, callable, tuple, any, nothing, unknown]

/-- The name of a case. -/
def name : TyCase → String
  | named => "named"
  | union => "union"
  | callable => "callable"
  | tuple => "tuple"
  | any => "any"
  | nothing => "nothing"
  | unknown => "unknown"

/-- The case of a name. -/
def ofName? (s : String) : Option TyCase := all.find? (·.name == s)

@[simp]
theorem ofName?_name (c : TyCase) : ofName? c.name = some c := by cases c <;> decide

/-- The fields of a case besides its name. -/
def fieldNames : TyCase → List String
  | named => ["name", "args"]
  | union => ["members"]
  | callable => ["params", "returns"]
  | tuple => ["elements"]
  | any | nothing | unknown => []

end TyCase

/-! ## Encoding -/

namespace Ty

mutual

/-- A type as a record that names its case. Arguments are left out where there are none. -/
def toJson : Ty → Json
  | .named name [] => .obj [("kind", .str TyCase.named.name), ("name", .str name)]
  | .named name args =>
    .obj [("kind", .str TyCase.named.name), ("name", .str name), ("args", .arr (allToJson args))]
  | .union members =>
    .obj [("kind", .str TyCase.union.name), ("members", .arr (allToJson members))]
  | .callable params returns =>
    .obj [("kind", .str TyCase.callable.name), ("params", .arr (allToJson params)),
      ("returns", toJson returns)]
  | .tuple elements =>
    .obj [("kind", .str TyCase.tuple.name), ("elements", .arr (allToJson elements))]
  | .any => .obj [("kind", .str TyCase.any.name)]
  | .nothing => .obj [("kind", .str TyCase.nothing.name)]
  | .unknown => .obj [("kind", .str TyCase.unknown.name)]

def allToJson : List Ty → List Json
  | [] => []
  | t :: ts => toJson t :: allToJson ts

end

theorem allToJson_eq_map (ts : List Ty) : allToJson ts = ts.map toJson := by
  induction ts with
  | nil => rfl
  | cons t ts ih => simp [allToJson, ih]

end Ty

/-! ## Decoding -/

/-- What a value says in each of the roles that it can have in a type. -/
structure TyPart where
  case? : Option TyCase
  text? : Option String
  type? : Option Ty
  types? : Option (List Ty)

namespace TyPart

/-- A value without a role. -/
def none : TyPart := { case? := .none, text? := .none, type? := .none, types? := .none }

/-- A type of a case and its fields. -/
def build? (case : TyCase) (fields : List (String × TyPart)) : Option Ty :=
  match case with
  | .named => do
    let name ← Json.required? fields "name" text?
    let args ← Json.defaulted? fields "args" [] types?
    return .named name args
  | .union => (Json.required? fields "members" types?).map .union
  | .callable => do
    let params ← Json.required? fields "params" types?
    let returns ← Json.required? fields "returns" type?
    return .callable params returns
  | .tuple => (Json.required? fields "elements" types?).map .tuple
  | .any => some .any
  | .nothing => some .nothing
  | .unknown => some .unknown

/-- The type that an object describes; its case has to be given once. -/
def ofMembers? (members : List (String × TyPart)) : Option Ty :=
  match members.filter fun m => m.1 = "kind" with
  | [(_, tag)] => do
    let case ← tag.case?
    build? case (← Json.ofMembers? case.fieldNames members)
  | _ => .none

/-- The type that an array describes. -/
def ofItems? : List TyPart → Option Ty
  | [] => .none
  | tag :: rest => do
    let case ← tag.case?
    build? case (← Json.ofItems? case.fieldNames rest)

mutual

/-- The roles of a value. -/
def ofJson : Json → TyPart
  | .str s => { none with case? := TyCase.ofName? s, text? := some s }
  | .int (.ofNat n) => { none with case? := TyCase.all[n]? }
  | .arr items =>
    let parts := ofItems items
    { none with type? := ofItems? parts, types? := parts.mapM type? }
  | .obj members => { none with type? := ofMembers? (ofMembers members) }
  | _ => none

def ofItems : List Json → List TyPart
  | [] => []
  | v :: vs => ofJson v :: ofItems vs

def ofMembers : List (String × Json) → List (String × TyPart)
  | [] => []
  | (name, v) :: rest => (name, ofJson v) :: ofMembers rest

end

theorem ofItems_eq_map (items : List Json) : ofItems items = items.map ofJson := by
  induction items with
  | nil => rfl
  | cons v vs ih => simp [ofItems, ih]

end TyPart

namespace Ty

/-- The type that a value inside another type describes. -/
def ofPart? (v : Json) : Option Ty := if v.isReadable then (TyPart.ofJson v).type? else none

/-- Does a value name its case, if it gives one at all? -/
def namesCase : Json → Bool
  | .obj members => members.all fun m => m.1 ≠ "kind" || m.2.str?.isSome
  | .arr (tag :: _) => tag.str?.isSome
  | _ => true

/-- The type that a value describes. -/
def ofJson? (v : Json) : Option Ty := if namesCase v then ofPart? v else none

end Ty

namespace Slot

/-- A slot as a record that names its state. -/
def toJson : Slot → Json
  | .unresolved => .obj [("state", .str "unresolved")]
  | .inferredAny => .obj [("state", .str "inferred_any")]
  | .concrete t => .obj [("state", .str "concrete"), ("type", t.toJson)]

/-- A slot of a case, with its content and the way to decode that content. -/
def build? (state : String) (content : Option Json) (decode : Json → Option Ty) : Option Slot :=
  match state, content with
  | "unresolved", none | "unresolved", some .null => some .unresolved
  | "inferred_any", none | "inferred_any", some .null => some .inferredAny
  | "concrete", some v => (decode v).map .concrete
  | _, _ => none

/-- The slot that a value describes. -/
def ofJson? : Json → Option Slot
  | .obj members => do
    match ← Json.ofMembers? ["state", "type"] members with
    | [("state", state)] => build? (← state.caseName?) none Ty.ofJson?
    | [("state", state), (_, content)] => build? (← state.caseName?) content Ty.ofJson?
    | [(_, content), (_, state)] => build? (← state.caseName?) content Ty.ofPart?
    | _ => none
  | .arr [state, content] => do build? (← state.str?) content Ty.ofJson?
  | _ => none

end Slot

end TypeTrace
