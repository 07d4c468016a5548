import TypeTrace.Index.SymbolIndex
import TypeTrace.Json.Reader
import TypeTrace.Wire.Place
import TypeTrace.Wire.Types

/-!
# Symbol indices in JSON

Each entry of an index is a record. A table is an object with a member for each
id; of members of one id the last one holds.
-/

namespace TypeTrace

/-! ## Tables -/

namespace SortedMap

/-- A table as an object, with a member for each key in the order of the keys. -/
def toJson {ν : Type} (encode : ν → Json) (m : SortedMap String ν) : Json :=
  .obj (m.toList.map fun e => (e.1, encode e.2))

/-- The table of an object. It fails if one of the members does. -/
def ofJson? {ν : Type} (decode : Json → Option ν) : Json → Option (SortedMap String ν)
  | .obj members => (members.mapM fun e => (decode e.2).map fun v => (e.1, v)).map ofList
  | _ => none

end SortedMap

/-! ## Definitions and references -/

/-- The kind of a definition by its name. -/
def DefKind.toJson (k : DefKind) : Json := .str k.name

def DefKind.ofJson? (v : Json) : Option DefKind := v.caseName?.bind ofName?

/-- The kind of a reference by its name. -/
def RefKind.toJson (k : RefKind) : Json := .str k.label

def RefKind.ofJson? (v : Json) : Option RefKind := v.caseName?.bind ofLabel?

namespace Definition

/-- A definition as a record; a type that is not known is null. -/
def toJson (d : Definition) : Json :=
  .obj [("name", .str d.name), ("kind", d.kind.toJson), ("scope", .str d.scope),
    ("ty", Json.ofOption Ty.toJson d.type)]

/-- Reads a definition. The type may be left out. -/
def ofJson? (v : Json) : Option Definition := do
  let fields ← v.fields? ["name", "kind", "scope", "ty"]
  return { name := ← Json.required? fields "name" Json.str?
           kind := ← Json.required? fields "kind" DefKind.ofJson?
           scope := ← Json.required? fields "scope" Json.str?
           type := ← Json.optional? fields "ty" Ty.ofJson? }

end Definition

namespace DefLocation

/-- A place of a definition as a record, with the id of the definition. -/
def toJson (l : DefLocation) : Json :=
  .obj [("def_id", .str l.defId), ("location", l.location.toJson)]

def ofJson? (v : Json) : Option DefLocation := do
  let fields ← v.fields? ["def_id", "location"]
  return { defId := ← Json.required? fields "def_id" Json.str?
           location := ← Json.required? fields "location" Location.ofJson? }

end DefLocation

namespace Reference

/-- A reference as a record; what is not known is null. -/
def toJson (r : Reference) : Json :=
  .obj [("name", .str r.name), ("kind", r.kind.toJson), ("scope", .str r.scope),
    ("ref_scope", Json.ofOption .str r.refScope), ("target", Json.ofOption .str r.target),
    ("location", r.location.toJson), ("ty", Json.ofOption Ty.toJson r.type)]

/-- Reads a reference. The scope of the symbol, the object and the type may be left out. -/
def ofJson? (v : Json) : Option Reference := do
  let fields ← v.fields? ["name", "kind", "scope", "ref_scope", "target", "location", "ty"]
  return { name := ← Json.required? fields "name" Json.str?
           kind := ← Json.required? fields "kind" RefKind.ofJson?
           scope := ← Json.required? fields "scope" Json.str?
           refScope := ← Json.optional? fields "ref_scope" Json.str?
           target := ← Json.optional? fields "target" Json.str?
           location := ← Json.required? fields "location" Location.ofJson?
           type := ← Json.optional? fields "ty" Ty.ofJson? }

end Reference

/-! ## Calls -/

namespace Funcall

/-- A call as a record, with the names of the arguments. -/
def toJson (c : Funcall) : Json :=
  .obj [("name", .str c.name), ("scope", .str c.scope), ("function_id", .str c.functionId),
    ("location", c.location.toJson), ("args", Json.ofList .str c.args),
    ("return_type", Json.ofOption Ty.toJson c.returnType)]

/-- Reads a call. The arguments and the returned type may be left out. -/
def ofJson? (v : Json) : Option Funcall := do
  let fields ← v.fields? ["name", "scope", "function_id", "location", "args", "return_type"]
  return { name := ← Json.required? fields "name" Json.str?
           scope := ← Json.required? fields "scope" Json.str?
           functionId := ← Json.required? fields "function_id" Json.str?
           location := ← Json.required? fields "location" Location.ofJson?
           args := ← Json.defaulted? fields "args" [] (Json.list? Json.str?)
           returnType := ← Json.optional? fields "return_type" Ty.ofJson? }

end Funcall

namespace Signature

/-- A recorded call as a record, with pairs of a name and a type. -/
def toJson (s : Signature) : Json :=
  .obj [("params", Json.ofList (fun p => .arr [.str p.1, p.2.toJson]) s.params)]

def ofJson? (v : Json) : Option Signature := do
  let fields ← v.fields? ["params"]
  return { params := ← Json.required? fields "params"
             (Json.list? (Json.pair? Json.str? Ty.ofJson?)) }

end Signature

/-! ## Scopes and indices -/

namespace Env

/-- A scope as a record, with the table of its symbols. -/
def toJson (e : Env) : Json :=
  .obj [("scope", .str e.scope), ("parent", Json.ofOption .str e.parent),
    ("env", e.symbols.toJson Definition.toJson), ("ret", Json.ofOption Ty.toJson e.ret)]

/-- Reads a scope. The scope around it, the symbols and the returned type may be left out. -/
def ofJson? (v : Json) : Option Env := do
  let fields ← v.fields? ["scope", "parent", "env", "ret"]
  return { scope := ← Json.required? fields "scope" Json.str?
           parent := ← Json.optional? fields "parent" Json.str?
           symbols := ← Json.defaulted? fields "env" .empty (SortedMap.ofJson? Definition.ofJson?)
           ret := ← Json.optional? fields "ret" Ty.ofJson? }

end Env

namespace SymbolIndex

/-- An index as a record. Links are pairs of a reference and a definition. -/
def toJson (index : SymbolIndex) : Json :=
  .obj [("envs", index.envs.toJson Env.toJson), ("defs", index.defs.toJson Definition.toJson),
    ("locs", index.locs.toJson (Json.ofList DefLocation.toJson)),
    ("links", Json.ofList (fun l => .arr [l.1.toJson, l.2.toJson]) index.links),
    ("calls", Json.ofList Funcall.toJson index.calls),
    ("signatures", index.signatures.toJson (Json.ofList Signature.toJson))]

/-- Reads an index. A table or list that is left out is empty. -/
def ofJson? (v : Json) : Option SymbolIndex := do
  let fields ← v.fields? ["envs", "defs", "locs", "links", "calls", "signatures"]
  return { envs := ← Json.defaulted? fields "envs" .empty (SortedMap.ofJson? Env.ofJson?)
           defs := ← Json.defaulted? fields "defs" .empty (SortedMap.ofJson? Definition.ofJson?)
           locs := ← Json.defaulted? fields "locs" .empty
             (SortedMap.ofJson? (Json.list? DefLocation.ofJson?))
           links := ← Json.defaulted? fields "links" []
             (Json.list? (Json.pair? Reference.ofJson? Definition.ofJson?))
           calls := ← Json.defaulted? fields "calls" [] (Json.list? Funcall.ofJson?)
           signatures := ← Json.defaulted? fields "signatures" .empty
             (SortedMap.ofJson? (Json.list? Signature.ofJson?)) }

/-- The index that a JSON text describes. -/
def parse? (text : String) : Option SymbolIndex := (Json.parse? text).bind ofJson?

end SymbolIndex

end TypeTrace
