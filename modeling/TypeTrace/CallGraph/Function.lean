import TypeTrace.CallGraph.Params

/-!
# Functions of a call graph

What is collected about one function: its parameters, the attributes that it
reads, the calls that it makes, its return type and where it is defined.
-/

namespace TypeTrace

/-- The reading of an attribute in the body of a function. -/
structure AttributeRead where
  /-- The name of the object that is read from. -/
  object : String
  /-- What introduced that object. -/
  objectKind : DefKind
  /-- The name of the type of what is read. -/
  typeName : String
  attr : String
  location : Location
  deriving DecidableEq, Repr

/-- A variable that is passed to a call. -/
structure Arg where
  name : String
  /-- What introduced the variable, if it is known. -/
  kind : Option DefKind
  typeName : String
  deriving DecidableEq, Repr

/-- A call that a function makes. -/
structure Call where
  functionId : String
  args : List Arg
  location : Location
  deriving DecidableEq, Repr

/-- All that is collected about one function. -/
structure Function where
  id : String
  params : List Param
  /-- The attributes read from parameters. -/
  paramReads : List AttributeRead
  /-- The attributes read from all other objects. -/
  localReads : List AttributeRead
  calls : List Call
  ret : Option Ty
  location : Option Location
  deriving DecidableEq, Repr

namespace Function

/-- A function that nothing is known of. -/
def ofId (id : String) : Function :=
  { id, params := [], paramReads := [], localReads := [], calls := [], ret := none,
    location := none }

/-- The parameter of a name. -/
def param? (f : Function) (name : String) : Option Param := f.params.find? (·.name = name)

/-- Files the reading of an attribute by what is read from. -/
def addRead (f : Function) (r : AttributeRead) : Function :=
  if r.objectKind = .param then { f with paramReads := f.paramReads ++ [r] }
  else { f with localReads := f.localReads ++ [r] }

def addCall (f : Function) (call : Call) : Function := { f with calls := f.calls ++ [call] }

/-- Fills the slot of a parameter from a type. -/
def refineParam (f : Function) (name : String) (t : Ty) : Function :=
  { f with params := Param.refineFirst name t f.params }

end Function

end TypeTrace
