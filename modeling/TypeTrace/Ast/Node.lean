import TypeTrace.Ast.Literal
import TypeTrace.Location

/-!
# Syntax trees

The nodes of a Python module as far as traces are aligned with them. A
`NodeKind` is the form of one node over a type of subtrees; a `Node` is a form
over nodes, at a location.

A node has two lists of subtrees: the targets, if it is an assignment, and all
others. Together they are its children, in the order of the source text.

Main statements:

* `Node.sizeOf_lt_of_mem_children`: recursion over children ends;
* `Node.induct`: induction with the hypothesis for every child.
-/

namespace TypeTrace

/-- How the value of a name, an attribute or a subscript is used. -/
inductive ExprContext where
  | load
  | store
  | del
  | param
  deriving DecidableEq, Repr, Inhabited

/-- One name of an import statement. -/
structure Alias where
  name : String
  asName : Option String
  deriving DecidableEq, Repr

/-- The name that the import binds. -/
def Alias.boundName (a : Alias) : String := a.asName.getD a.name

/-- A named argument of a call; without a name it is an unpacked mapping. -/
structure Keyword (α : Type) where
  arg : Option String
  value : α

/-- The form of a node with subtrees of type `α`. -/
inductive NodeKind (α : Type) where
  | module (body : List α)
  | functionDef (name : String) (args body decorators : List α)
  | classDef (name : String) (bases body decorators : List α)
  | returns (value : Option α)
  | assign (targets : List α) (value : α)
  | augAssign (target : α) (op : String) (value : α)
  | expr (value : α)
  | ifThen (test : α) (body orelse : List α)
  | forIn (target iter : α) (body orelse : List α)
  | whileDo (test : α) (body orelse : List α)
  | imports (names : List Alias)
  | importFrom (source : Option String) (names : List Alias) (level : UInt32)
  | globals (names : List String)
  | pass
  | breakLoop
  | continueLoop
  | attr (value : α) (name : String) (ctx : ExprContext)
  | call (func : α) (args : List α) (keywords : List (Keyword α))
  | name (id : String) (ctx : ExprContext)
  | subscript (value index : α) (ctx : ExprContext)
  | constant (value : Literal)
  | binOp (left : α) (op : String) (right : α)
  | boolOp (op : String) (values : List α)
  | unaryOp (op : String) (operand : α)
  | compare (left : α) (ops : List String) (comparators : List α)
  | ifExp (test body orelse : α)
  | lambda (args : List α) (body : α)
  | tuple (elements : List α) (ctx : ExprContext)
  | list (elements : List α) (ctx : ExprContext)
  | dict (keys values : List α)
  | slice (lower upper step : Option α)
  | starred (value : α) (ctx : ExprContext)
  | arg (name : String)

namespace NodeKind

variable {α β : Type}

/-- The name of the kind. -/
def kindName : NodeKind α → String
  | .module .. => "Module"
  | .functionDef .. => "FunctionDef"
  | .classDef .. => "ClassDef"
  | .returns .. => "Return"
  | .assign .. => "Assign"
  | .augAssign .. => "AugAssign"
  | .expr .. => "Expr"
  | .ifThen .. => "If"
  | .forIn .. => "For"
  | .whileDo .. => "While"
  | .imports .. => "Import"
  | .importFrom .. => "ImportFrom"
  | .globals .. => "Global"
  | .pass => "Pass"
  | .breakLoop => "Break"
  | .continueLoop => "Continue"
  | .attr .. => "Attribute"
  | .call .. => "Call"
  | .name .. => "Name"
  | .subscript .. => "Subscript"
  | .constant .. => "Constant"
  | .binOp .. => "BinOp"
  | .boolOp .. => "BoolOp"
  | .unaryOp .. => "UnaryOp"
  | .compare .. => "Compare"
  | .ifExp .. => "IfExp"
  | .lambda .. => "Lambda"
  | .tuple .. => "Tuple"
  | .list .. => "List"
  | .dict .. => "Dict"
  | .slice .. => "Slice"
  | .starred .. => "Starred"
  | .arg .. => "arg"

/-- Can traces be matched with nodes of this kind? -/
def hasMatchRule : NodeKind α → Bool
  | .attr .. | .call .. | .name .. | .subscript .. | .constant .. | .imports ..
  | .importFrom .. => true
  | _ => false

/-- The targets of an assignment. -/
def targets : NodeKind α → List α
  | .assign targets _ => targets
  | _ => []

/-- The subtrees that are no targets of an assignment. -/
def others : NodeKind α → List α
  | .module body => body
  | .functionDef _ args body decorators => args ++ body ++ decorators
  | .classDef _ bases body decorators => bases ++ body ++ decorators
  | .returns value => value.toList
  | .assign _ value => [value]
  | .augAssign target _ value => [target, value]
  | .expr value => [value]
  | .ifThen test body orelse | .whileDo test body orelse => test :: body ++ orelse
  | .forIn target iter body orelse => target :: iter :: body ++ orelse
  | .imports _ | .importFrom .. | .globals _ | .pass | .breakLoop | .continueLoop
  | .name .. | .constant _ | .arg _ => []
  | .attr value .. | .starred value _ => [value]
  | .call func args keywords => func :: args ++ keywords.map Keyword.value
  | .subscript value index _ => [value, index]
  | .binOp left _ right => [left, right]
  | .boolOp _ values => values
  | .unaryOp _ operand => [operand]
  | .compare left _ comparators => left :: comparators
  | .ifExp test body orelse => [test, body, orelse]
  | .lambda args body => args ++ [body]
  | .tuple elements _ | .list elements _ => elements
  | .dict keys values => keys ++ values
  | .slice lower upper step => lower.toList ++ upper.toList ++ step.toList

/-- All subtrees, in the order of the source text. -/
def children (k : NodeKind α) : List α := k.targets ++ k.others

/-- Do two forms agree in all but their subtrees? They have the same kind, equal
texts, numbers, literals and contexts, and as many subtrees at each place. -/
def sameLabel : NodeKind α → NodeKind β → Bool
  | .module b, .module b' => b.length == b'.length
  | .functionDef n a b d, .functionDef n' a' b' d'
  | .classDef n a b d, .classDef n' a' b' d' =>
    n == n' && a.length == a'.length && b.length == b'.length && d.length == d'.length
  | .returns v, .returns v' => v.isSome == v'.isSome
  | .assign t _, .assign t' _ => t.length == t'.length
  | .augAssign _ op _, .augAssign _ op' _ => op == op'
  | .expr _, .expr _ => true
  | .ifThen _ b o, .ifThen _ b' o'
  | .whileDo _ b o, .whileDo _ b' o'
  | .forIn _ _ b o, .forIn _ _ b' o' => b.length == b'.length && o.length == o'.length
  | .imports n, .imports n' => n == n'
  | .importFrom m n l, .importFrom m' n' l' => m == m' && n == n' && l == l'
  | .globals n, .globals n' => n == n'
  | .pass, .pass | .breakLoop, .breakLoop | .continueLoop, .continueLoop => true
  | .attr _ a c, .attr _ a' c' => a == a' && c == c'
  | .call _ a k, .call _ a' k' =>
    a.length == a'.length && k.map Keyword.arg == k'.map Keyword.arg
  | .name i c, .name i' c' => i == i' && c == c'
  | .subscript _ _ c, .subscript _ _ c' => c == c'
  | .constant v, .constant v' => v.equal v'
  | .binOp _ op _, .binOp _ op' _ => op == op'
  | .boolOp op v, .boolOp op' v' => op == op' && v.length == v'.length
  | .unaryOp op _, .unaryOp op' _ => op == op'
  | .compare _ ops c, .compare _ ops' c' => ops == ops' && c.length == c'.length
  | .ifExp .., .ifExp .. => true
  | .lambda a _, .lambda a' _ => a.length == a'.length
  | .tuple e c, .tuple e' c' | .list e c, .list e' c' => e.length == e'.length && c == c'
  | .dict k v, .dict k' v' => k.length == k'.length && v.length == v'.length
  | .slice l u s, .slice l' u' s' =>
    l.isSome == l'.isSome && u.isSome == u'.isSome && s.isSome == s'.isSome
  | .starred _ c, .starred _ c' => c == c'
  | .arg n, .arg n' => n == n'
  | _, _ => false

end NodeKind

/-- A node of a syntax tree. -/
inductive Node where
  | mk (kind : NodeKind Node) (location : Location)

namespace Node

def kind : Node → NodeKind Node
  | .mk kind _ => kind

def location : Node → Location
  | .mk _ location => location

/-- The line of a node. -/
def line (n : Node) : UInt32 := n.location.line

/-- The subtrees of a node, in the order of the source text. -/
def children (n : Node) : List Node := n.kind.children

instance : Inhabited Node := ⟨.mk .pass ⟨1, 0⟩⟩

/-- A module; it stands at the start of its text. -/
def ofBody (body : List Node) : Node := .mk (.module body) ⟨1, 0⟩

/-- An expression as a statement, at the place of the expression. -/
def ofExpr (value : Node) : Node := .mk (.expr value) value.location

end Node

/-! ## Recursion over children -/

theorem NodeKind.sizeOf_lt_of_mem_children {α : Type} [SizeOf α] {k : NodeKind α} {c : α}
    (h : c ∈ k.children) : sizeOf c < sizeOf k := by
  have inList : ∀ {l : List α}, c ∈ l → sizeOf c < sizeOf l := fun h => List.sizeOf_lt_of_mem h
  have inOption : ∀ {o : Option α}, o = some c → sizeOf c < sizeOf o := by
    rintro o rfl
    simp
  have inKeywords : ∀ {l : List (Keyword α)} {w : Keyword α},
      w ∈ l → w.value = c → sizeOf c < sizeOf l := by
    intro l w hw hc
    have := List.sizeOf_lt_of_mem hw
    have : sizeOf w = 1 + sizeOf w.arg + sizeOf w.value := by cases w; simp
    subst hc
    omega
  cases k <;> simp only [NodeKind.children, NodeKind.targets, NodeKind.others, List.nil_append,
    List.mem_append, List.mem_cons, List.mem_map, Option.mem_toList, List.not_mem_nil,
    or_false] at h
  all_goals
    simp only [NodeKind.module.sizeOf_spec, NodeKind.functionDef.sizeOf_spec,
      NodeKind.classDef.sizeOf_spec, NodeKind.returns.sizeOf_spec, NodeKind.assign.sizeOf_spec,
      NodeKind.augAssign.sizeOf_spec, NodeKind.expr.sizeOf_spec, NodeKind.ifThen.sizeOf_spec,
      NodeKind.forIn.sizeOf_spec, NodeKind.whileDo.sizeOf_spec, NodeKind.attr.sizeOf_spec,
      NodeKind.call.sizeOf_spec, NodeKind.subscript.sizeOf_spec, NodeKind.binOp.sizeOf_spec,
      NodeKind.boolOp.sizeOf_spec, NodeKind.unaryOp.sizeOf_spec, NodeKind.compare.sizeOf_spec,
      NodeKind.ifExp.sizeOf_spec, NodeKind.lambda.sizeOf_spec, NodeKind.tuple.sizeOf_spec,
      NodeKind.list.sizeOf_spec, NodeKind.dict.sizeOf_spec, NodeKind.slice.sizeOf_spec,
      NodeKind.starred.sizeOf_spec]
  all_goals grind

namespace Node

theorem sizeOf_lt_of_mem_children {n c : Node} (h : c ∈ n.children) : sizeOf c < sizeOf n := by
  cases n with
  | mk kind location =>
    have := NodeKind.sizeOf_lt_of_mem_children (show c ∈ kind.children from h)
    simp only [mk.sizeOf_spec]
    omega

/-- Induction over trees, with the hypothesis for every child. -/
theorem induct {motive : Node → Prop} (step : ∀ n, (∀ c ∈ n.children, motive c) → motive n)
    (n : Node) : motive n :=
  step n fun c _h => induct step c
termination_by sizeOf n
decreasing_by exact sizeOf_lt_of_mem_children _h

/-- Equality of trees, with literals compared by value. -/
def equal (a b : Node) : Bool :=
  a.location == b.location && a.kind.sameLabel b.kind &&
    (a.children.attach.zip b.children).all fun p => equal p.1.1 p.2
termination_by sizeOf a
decreasing_by exact sizeOf_lt_of_mem_children p.1.2

end Node

end TypeTrace
