import TypeTrace.Ast.Walk
import TypeTrace.Settings.PythonVersion
import TypeTrace.Trace.Claim
import TypeTrace.Trace.Columns

/-!
# Matching one node

Which traces a node stands for. An attribute, a call, a constant, a name and a
subscript make one request each, an import makes one for every name it binds.
A request is answered by one trace at most.

Before version 3.7 a name that is assigned was traced on the last line of the
assigned value, so inside the target of an assignment names ask on that line.

Main statement: `isSome_requests?`, a node has requests exactly when its kind has
a rule.
-/

namespace TypeTrace

/-- A claimed trace with the place in the text that it belongs to. -/
structure Alignment extends Claim where
  location : Location
  deriving DecidableEq, Repr

/-- A request, with the place at which its answer is recorded. -/
structure PlacedRequest where
  request : Request
  location : Location
  deriving DecidableEq, Repr

/-- Why a node could not be matched. -/
inductive AlignError where
  /-- There is no rule for nodes of this kind. -/
  | noRule (kindName : String) (location : Location)
  deriving DecidableEq, Repr

def AlignError.message : AlignError → String
  | .noRule kindName location =>
    "no alignment rule for " ++ kindName ++ " node at " ++ location.display

/-! ## Requests -/

/-- The dotted name of what is called. What has no name goes by its kind. -/
def Node.dottedName : Node → String
  | .mk (.attr value name _) _ => value.dottedName ++ "." ++ name
  | .mk (.call func _ _) _ => func.dottedName
  | .mk (.lambda _ _) _ => "<lambda>"
  | .mk (.name id _) _ => id
  | .mk kind _ => kind.kindName

/-- The part of a dotted name behind its last dot. -/
def lastSegment (name : String) : String :=
  String.ofList (name.toList.reverse.takeWhile (· != '.')).reverse

namespace Node

/-- The request for a name or a constant on the line of a node. -/
def ask (n : Node) (group : OpGroup) (symbol : Literal) : Request :=
  { line := n.line, ops := group.ops, symbols := [symbol] }

/-- The request of one name of an import statement. -/
def importRequest (store : Store) (n : Node) (fromModule : Bool) (a : Alias) : PlacedRequest :=
  let group := if a.asName.isSome || fromModule then OpGroup.boundImports else .plainImports
  { request := n.ask group (.str a.boundName)
    location := store.importLocation a.boundName n.location }

/-- The requests of a node; none if its kind has no rule. Names ask on the line
`nameLine`, all others on the line of the node. -/
def requests? (store : Store) (nameLine : UInt32) (n : Node) : Option (List PlacedRequest) :=
  match n.kind with
  | .attr _ name _ =>
    some [⟨n.ask .attributes (.str name), store.attributeLocation name n.location⟩]
  | .call .. => some [⟨n.ask .calls (.str (lastSegment n.dottedName)), n.location⟩]
  | .constant value => some [⟨n.ask .constants value, n.location⟩]
  | .name id .load => some [⟨{ n.ask .loads (.str id) with line := nameLine }, n.location⟩]
  | .name id .store => some [⟨{ n.ask .stores (.str id) with line := nameLine }, n.location⟩]
  | .name _ .del | .name _ .param => some []
  | .subscript .. =>
    some [⟨⟨n.line, OpGroup.subscripts.ops, subscriptMethods.map .str⟩, n.location⟩]
  | .imports names => some (names.map (n.importRequest store false))
  | .importFrom _ names _ => some (names.map (n.importRequest store true))
  | _ => none

theorem isSome_requests? (store : Store) (nameLine : UInt32) (n : Node) :
    (n.requests? store nameLine).isSome = n.kind.hasMatchRule := by
  rcases n with ⟨kind, location⟩
  cases kind with
  | name id ctx => cases ctx <;> rfl
  | _ => rfl

end Node

/-- The line on which a name at `line` was traced. -/
def Traversal.nameLine (tr : Traversal) (line : UInt32) : UInt32 :=
  if tr.inTarget then tr.assignEndLine.getD line else line

/-! ## Answers -/

/-- Answers requests one after the other, each with one trace at most. -/
def answerAll (store : Store) :
    List PlacedRequest → Traversal → List Alignment × Traversal
  | [], tr => ([], tr)
  | r :: rs, tr =>
    let (claims, tr) := r.request.claim (some 1) store tr
    let (rest, tr) := answerAll store rs tr
    (claims.map (fun c => { c with location := r.location }) ++ rest, tr)

/-- The traces of a store, to be aligned with trees of one language version. -/
structure Aligner where
  store : Store
  version : PythonVersion

/-- Matches one node. -/
def Aligner.matchNode (a : Aligner) (n : Node) (tr : Traversal) :
    Except AlignError (List Alignment × Traversal) :=
  match n.requests? a.store (tr.nameLine n.line) with
  | none => .error (.noRule n.kind.kindName n.location)
  | some requests => .ok (answerAll a.store requests tr)

/-! ## Reports -/

/-- The report of a node without a rule. -/
def AlignError.event : AlignError → Event
  | .noRule kindName location =>
    { level := .warn
      message := "no alignment rule"
      data := [("kind", kindName), ("location", location.display)] }

/-- The warning about a constant whose trace has a constant of another sort. -/
def Alignment.kindEvents (a : Alignment) (value : Literal) : List Event :=
  if a.trace.symbol.kind = value.kind then []
  else
    [{ level := .warn
       message := "constant matched a trace of a different literal kind"
       data := [("location", a.location.display), ("literal", value.display),
        ("symbol", a.trace.symbol.display)] }]

/-- The reports of the traces found for a node. -/
def Node.matchEvents (n : Node) (found : List Alignment) : List Event :=
  found.map (fun a => a.toClaim.event) ++
    match n.kind with
    | .constant value => found.flatMap fun a => a.kindEvents value
    | _ => []

end TypeTrace
