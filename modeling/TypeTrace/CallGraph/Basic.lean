import TypeTrace.CallGraph.Function
import TypeTrace.Index.SymbolIndex

/-!
# Call graphs

The functions of a symbol index by id, with one more function for the top level
of the module. Links and calls are folded in one after the other.

A link to an attribute is a reading of it in the function whose scope it refers
to, from an object bound in that scope itself. A link to a parameter tells about
the type of the parameter, unless the recorded calls have settled it. A call is
filed with the function that makes it. What has no function, or whose object is
not known, is dropped.
-/

namespace TypeTrace

/-- The functions collected from a symbol index. -/
structure CallGraph where
  index : SymbolIndex
  functions : SortedMap String Function
  deriving DecidableEq

namespace CallGraph

/-- What an index alone tells about a function. -/
def functionOf (index : SymbolIndex) (id : String) : Function :=
  { Function.ofId id with
    params := Param.ofSignatures ((index.signatures.find? id).getD [])
    ret := (index.envs.find? id).bind (·.ret)
    location := ((index.locs.find? id).bind List.getLast?).map (·.location) }

/-- One function for each definition of a function, and an empty one for the top
level of the module. -/
def start (index : SymbolIndex) (moduleId : String) : CallGraph :=
  let functions := SortedMap.ofList (index.functionIds.map fun id => (id, functionOf index id))
  { index, functions := functions.insert moduleId (.ofId moduleId) }

/-- The function of an id. -/
def function? (g : CallGraph) (id : String) : Option Function := g.functions.find? id

/-! ## Attributes -/

/-- Why the reading of an attribute is dropped. -/
inductive LostRead where
  /-- It is not known which scope the reference refers to. -/
  | noScope
  /-- The object is not bound in that scope. -/
  | noTarget (scope : String)
  /-- The scope is not the scope of a function. -/
  | noFunction (scope : String)
  deriving DecidableEq, Repr

/-- The reading that a link to an attribute stands for, with the id of the function
that it is filed with. -/
def readOf (g : CallGraph) (r : Reference) (d : Definition) :
    Except LostRead (String × AttributeRead) :=
  match r.refScope with
  | none => .error .noScope
  | some scope =>
    match r.target.bind (g.index.symbol? scope) with
    | none => .error (.noTarget scope)
    | some target =>
      if (g.function? scope).isSome then
        .ok (scope,
          { object := target.name, objectKind := target.kind, typeName := d.typeName,
            attr := r.name, location := r.location })
      else .error (.noFunction scope)

/-- Files the reading of an attribute, unless it is lost. -/
def addRead (g : CallGraph) (r : Reference) (d : Definition) : CallGraph :=
  match g.readOf r d with
  | .error _ => g
  | .ok (scope, read) => { g with functions := g.functions.modify scope (·.addRead read) }

/-! ## Parameters, links and calls -/

/-- Takes the type of a reference to a parameter over to the parameter. -/
def refineParam (g : CallGraph) (r : Reference) (d : Definition) : CallGraph :=
  match r.refScope with
  | none => g
  | some scope =>
    { g with functions := g.functions.modify scope (·.refineParam d.name r.resolvedType) }

/-- Folds one link in. -/
def addLink (g : CallGraph) (r : Reference) (d : Definition) : CallGraph :=
  let g := if r.kind = .attr then g.addRead r d else g
  if d.kind = .param then g.refineParam r d else g

/-- A variable passed to a call, as it is bound in the scope of the caller itself. -/
def argOf (g : CallGraph) (scope name : String) : Arg :=
  match g.index.symbol? scope name with
  | some d => { name, kind := some d.kind, typeName := d.typeName }
  | none => { name, kind := none, typeName := Ty.anyName }

/-- Folds one call in. -/
def addCall (g : CallGraph) (call : Funcall) : CallGraph :=
  let edge : Call :=
    { functionId := call.functionId, args := call.args.map (g.argOf call.scope),
      location := call.location }
  { g with functions := g.functions.modify call.scope (·.addCall edge) }

/-- Folds all links and then all calls of an index in. -/
def build (index : SymbolIndex) (moduleId : String) : CallGraph :=
  let linked := index.links.foldl (fun g l => g.addLink l.1 l.2) (start index moduleId)
  index.calls.foldl addCall linked

end CallGraph

end TypeTrace
