import TypeTrace.Collections.SortedMap
import TypeTrace.Index.Symbol

/-!
# Symbol indices

The scopes, definitions, references and calls of one module, as tables by id.

A definition is recorded under its id: the first one is kept, and each one adds
a place. In the table of its scope every definition replaces the one before it
of the same name.

A name is looked up in a scope and then in the scopes around it. A chain of
scopes that meets none twice is no longer than the table of scopes, so a lookup
takes as many steps at most.
-/

namespace TypeTrace

/-- The symbols of one scope. -/
structure Env where
  scope : String
  /-- The id of the scope around it. -/
  parent : Option String
  symbols : SortedMap String Definition
  /-- The type that is returned, if the scope is a function. -/
  ret : Option Ty
  deriving DecidableEq

namespace Env

/-- A scope that nothing is known of. -/
def ofScope (scope : String) : Env :=
  { scope, parent := none, symbols := .empty, ret := none }

/-- The symbol of a name in this scope itself. -/
def find? (e : Env) (name : String) : Option Definition := e.symbols.find? name

/-- Binds the name of a definition to it. -/
def bind (e : Env) (d : Definition) : Env := { e with symbols := e.symbols.insert d.name d }

end Env

/-- All that is known of the symbols of a module. -/
structure SymbolIndex where
  envs : SortedMap String Env
  defs : SortedMap String Definition
  locs : SortedMap String (List DefLocation)
  /-- References with what they refer to. -/
  links : List (Reference × Definition)
  calls : List Funcall
  /-- The recorded calls of each function. -/
  signatures : SortedMap String (List Signature)
  deriving DecidableEq

namespace SymbolIndex

/-- The index without entries. -/
def empty : SymbolIndex :=
  { envs := .empty, defs := .empty, locs := .empty, links := [], calls := [],
    signatures := .empty }

instance : Inhabited SymbolIndex := ⟨empty⟩

/-- Records a scope; it replaces a scope of the same id. -/
def addEnv (index : SymbolIndex) (env : Env) : SymbolIndex :=
  { index with envs := index.envs.insert env.scope env }

/-- Records a definition at a place and binds its name in its scope. -/
def addDef (index : SymbolIndex) (d : Definition) (location : Location) : SymbolIndex :=
  { index with
    defs := index.defs.upsert d.id fun present => present.getD d
    locs := index.locs.upsert d.id fun present => present.getD [] ++ [⟨d.id, location⟩]
    envs := index.envs.upsert d.scope fun present => (present.getD (.ofScope d.scope)).bind d }

/-- Records a reference with what it refers to. -/
def addLink (index : SymbolIndex) (r : Reference) (d : Definition) : SymbolIndex :=
  { index with links := index.links ++ [(r, d)] }

def addCall (index : SymbolIndex) (call : Funcall) : SymbolIndex :=
  { index with calls := index.calls ++ [call] }

/-- Records the types of one call of a function. -/
def addSignature (index : SymbolIndex) (id : String) (s : Signature) : SymbolIndex :=
  { index with signatures := index.signatures.upsert id fun present => present.getD [] ++ [s] }

/-- The symbol of a name in the table of one scope, by the id of the scope. -/
def symbol? (index : SymbolIndex) (scope name : String) : Option Definition :=
  (index.envs.find? scope).bind fun env => env.find? name

/-- Looks a name up in a scope and in the scopes around it, in a number of scopes
at most. -/
def lookupWithin (index : SymbolIndex) (name : String) :
    Nat → String → Option (Env × Definition)
  | 0, _ => none
  | steps + 1, scope =>
    match index.envs.find? scope with
    | none => none
    | some env =>
      match env.find? name with
      | some d => some (env, d)
      | none => env.parent.bind (index.lookupWithin name steps)

/-- Looks a name up in a scope and in the scopes around it. -/
def lookup (index : SymbolIndex) (scope name : String) : Option (Env × Definition) :=
  index.lookupWithin name index.envs.size scope

/-- The ids of the functions, in order. -/
def functionIds (index : SymbolIndex) : List String :=
  (index.defs.toList.filter fun e => e.2.kind = .functionDef).map (·.1)

end SymbolIndex

end TypeTrace
