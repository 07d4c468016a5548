import TypeTrace.Location
import TypeTrace.Types.Ty

/-!
# Definitions, references and calls

The entries of a symbol index. Scopes have dotted ids such as `module.Foo.bar`;
the id of a definition is the id of its scope and its name, with a dot between
them.
-/

namespace TypeTrace

/-- The id of a name in a scope. -/
def scopedId (scope name : String) : String := scope ++ "." ++ name

/-- What introduced a definition. -/
inductive DefKind where
  | functionDef
  | classDef
  | param
  /-- A name bound by assignment. -/
  | store
  /-- An attribute bound by assignment. -/
  | attr
  | imports
  | importFrom
  deriving DecidableEq, Repr, Inhabited

namespace DefKind

def all : List DefKind :=
  [functionDef, classDef, param, store, attr, imports, importFrom]

def name : DefKind → String
  | functionDef => "FunctionDef"
  | classDef => "ClassDef"
  | param => "Param"
  | store => "Store"
  | attr => "Attribute"
  | imports => "Import"
  | importFrom => "ImportFrom"

def ofName? (s : String) : Option DefKind := all.find? (·.name == s)

@[simp]
theorem ofName?_name (k : DefKind) : ofName? k.name = some k := by cases k <;> decide

end DefKind

/-- In what a reference was found. -/
inductive RefKind where
  | name
  | attr
  | imports
  | importFrom
  deriving DecidableEq, Repr, Inhabited

namespace RefKind

def all : List RefKind := [name, attr, imports, importFrom]

/-- The name of the kind. -/
def label : RefKind → String
  | name => "Name"
  | attr => "Attribute"
  | imports => "Import"
  | importFrom => "ImportFrom"

def ofLabel? (s : String) : Option RefKind := all.find? (·.label == s)

@[simp]
theorem ofLabel?_label (k : RefKind) : ofLabel? k.label = some k := by cases k <;> decide

end RefKind

/-- A symbol that is defined in a scope. -/
structure Definition where
  name : String
  kind : DefKind
  scope : String
  /-- The type of what is bound, where it is known. -/
  type : Option Ty
  deriving DecidableEq, Repr, Inhabited

namespace Definition

def id (d : Definition) : String := scopedId d.scope d.name

/-- The name under which the type is reported. -/
def typeName (d : Definition) : String := (d.type.map Ty.typeName).getD Ty.anyName

end Definition

/-- One of the places at which a symbol is defined. -/
structure DefLocation where
  defId : String
  location : Location
  deriving DecidableEq, Repr, Inhabited

/-- A use of a symbol. -/
structure Reference where
  name : String
  kind : RefKind
  /-- The scope that the reference stands in. -/
  scope : String
  /-- The scope of the symbol, where it is known. -/
  refScope : Option String
  /-- The name of the object whose attribute is read. -/
  target : Option String
  location : Location
  type : Option Ty
  deriving DecidableEq, Repr, Inhabited

namespace Reference

/-- A reference to a symbol of the scope that it stands in. -/
def ofUse (name : String) (kind : RefKind) (scope : String) (location : Location) : Reference :=
  { name, kind, scope, refScope := some scope, target := none, location, type := none }

def id (r : Reference) : String := scopedId r.scope r.name

/-- The type of the symbol; it is `Any` where it is not known. -/
def resolvedType (r : Reference) : Ty := r.type.getD .any

end Reference

/-- A call, with the names of the variables that are passed. -/
structure Funcall where
  /-- The dotted name of what is called. -/
  name : String
  /-- The scope of the caller. -/
  scope : String
  /-- The id of the definition of what is called. -/
  functionId : String
  location : Location
  args : List String
  returnType : Option Ty
  deriving DecidableEq, Repr, Inhabited

/-- The types of the parameters at one call that was recorded. -/
structure Signature where
  params : List (String × Ty)
  deriving DecidableEq, Repr, Inhabited

end TypeTrace
