import TypeTrace.CallGraph.Basic
import TypeTrace.Event
import TypeTrace.Json.Printer
import TypeTrace.Wire.Index

/-!
# Reports of a call graph

The JSON form of the collected functions, in which types are given by name, and
the events that building a call graph gives rise to.
-/

namespace TypeTrace

/-! ## The JSON form -/

def Param.toJson (p : Param) : Json :=
  .obj [("name", .str p.name), ("type", .str p.slot.typeName)]

def AttributeRead.toJson (r : AttributeRead) : Json :=
  .obj [("name", .str r.object), ("node_type", r.objectKind.toJson), ("type", .str r.typeName),
    ("attrib", .str r.attr), ("location", r.location.toJson)]

def Arg.toJson (a : Arg) : Json :=
  .obj [("name", .str a.name), ("node_type", Json.ofOption DefKind.toJson a.kind),
    ("type", .str a.typeName)]

def Call.toJson (c : Call) : Json :=
  .obj [("function_id", .str c.functionId), ("args", Json.ofList Arg.toJson c.args),
    ("location", c.location.toJson)]

def Function.toJson (f : Function) : Json :=
  .obj [("id", .str f.id), ("params", Json.ofList Param.toJson f.params),
    ("param_attrs", Json.ofList AttributeRead.toJson f.paramReads),
    ("local_attrs", Json.ofList AttributeRead.toJson f.localReads),
    ("calls", Json.ofList Call.toJson f.calls),
    ("ret", Json.ofOption (fun t => .str t.typeName) f.ret),
    ("location", Json.ofOption Location.toJson f.location)]

namespace CallGraph

/-- The functions by id. -/
def toJson (g : CallGraph) : Json :=
  .obj (g.functions.toList.map fun e => (e.1, e.2.toJson))

/-- The functions by id, as a text with indentation. -/
def text (g : CallGraph) : String := g.toJson.pretty

/-! ## Events -/

/-- The report of an attribute that is dropped. -/
def LostRead.event (r : Reference) : LostRead → Event
  | .noScope =>
    { level := .debug, message := "attribute reference without scope"
      data := [("attrib", r.name)] }
  | .noTarget scope =>
    { level := .debug, message := "attribute target escaped tracking"
      data := [("attrib", r.name), ("scope", scope), ("target", r.target.getD "")] }
  | .noFunction scope =>
    { level := .debug, message := "attribute access outside a function"
      data := [("scope", scope), ("attrib", r.name)] }

/-- What is reported of a link to an attribute. -/
def readEvents (g : CallGraph) (r : Reference) (d : Definition) : List Event :=
  match g.readOf r d with
  | .ok _ => []
  | .error e => [e.event r]

/-- What is reported of a link to a parameter. -/
def paramEvents (g : CallGraph) (r : Reference) (d : Definition) : List Event :=
  match r.refScope with
  | none => []
  | some scope =>
    match g.function? scope with
    | none =>
      [{ level := .debug, message := "parameter of an unknown function"
         data := [("scope", scope), ("param", d.name)] }]
    | some f =>
      match f.param? d.name with
      | none => []
      | some p =>
        let (slot, changed) := p.slot.refine r.resolvedType
        if changed then
          [{ level := .trace, message := "refined parameter type"
             data := [("function", f.id), ("param", p.name), ("ty", slot.typeName)] }]
        else []

/-- What is reported when a link is folded in. -/
def linkEvents (g : CallGraph) (r : Reference) (d : Definition) : List Event :=
  (if r.kind = .attr then g.readEvents r d else []) ++
    if d.kind = .param then g.paramEvents r d else []

/-- What is reported when a call is folded in. -/
def callEvents (g : CallGraph) (call : Funcall) : List Event :=
  match g.function? call.scope with
  | some _ => []
  | none =>
    [{ level := .debug, message := "call from an unknown function"
       data := [("scope", call.scope), ("callee", call.functionId)] }]

/-- The events of folding a list in, one step after the other, and the last graph. -/
def foldEvents {α : Type} (step : CallGraph → α → CallGraph) (events : CallGraph → α → List Event)
    (g : CallGraph) : List α → List Event × CallGraph
  | [] => ([], g)
  | a :: as =>
    let (later, last) := foldEvents step events (step g a) as
    (events g a ++ later, last)

/-- What is reported while the call graph of an index is built. -/
def buildEvents (index : SymbolIndex) (moduleId : String) : List Event :=
  let (ofLinks, linked) := foldEvents (fun g l => g.addLink l.1 l.2)
    (fun g l => g.linkEvents l.1 l.2) (start index moduleId) index.links
  let (ofCalls, built) := foldEvents addCall callEvents linked index.calls
  ofLinks ++ ofCalls ++
    [{ level := .debug, message := "collected function map"
       data := [("functions", Text.Numeral.ofNat built.functions.size),
        ("links", Text.Numeral.ofNat index.links.length),
        ("calls", Text.Numeral.ofNat index.calls.length)] }]

end CallGraph

end TypeTrace
