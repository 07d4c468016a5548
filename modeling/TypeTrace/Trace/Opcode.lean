import TypeTrace.Ast.Literal

/-!
# Bytecode operations

The operations that are told apart when traces are aligned, and the groups of
operations that one kind of node stands for. All other operations count as one.

Main statement: `ofName_name`, an operation is known by its name.
-/

namespace TypeTrace

/-- A bytecode operation. -/
inductive Opcode where
  | loadAttr
  | storeAttr
  | callFunction
  | callFunctionEx
  | callFunctionKw
  | callFunctionVar
  | callFunctionVarKw
  | callMethod
  | loadDeref
  | loadFast
  | loadGlobal
  | loadName
  | storeDeref
  | storeFast
  | storeGlobal
  | storeName
  | binarySubscr
  | slice0
  | slice1
  | slice2
  | slice3
  | loadConst
  | importName
  | loadBuildClass
  /-- Any operation that no node stands for. -/
  | other
  deriving DecidableEq, Repr, Inhabited

namespace Opcode

/-- The operations with a name of their own. -/
def named : List Opcode :=
  [.loadAttr, .storeAttr, .callFunction, .callFunctionEx, .callFunctionKw, .callFunctionVar,
    .callFunctionVarKw, .callMethod, .loadDeref, .loadFast, .loadGlobal, .loadName, .storeDeref,
    .storeFast, .storeGlobal, .storeName, .binarySubscr, .slice0, .slice1, .slice2, .slice3,
    .loadConst, .importName, .loadBuildClass]

def name : Opcode → String
  | loadAttr => "LOAD_ATTR"
  | storeAttr => "STORE_ATTR"
  | callFunction => "CALL_FUNCTION"
  | callFunctionEx => "CALL_FUNCTION_EX"
  | callFunctionKw => "CALL_FUNCTION_KW"
  | callFunctionVar => "CALL_FUNCTION_VAR"
  | callFunctionVarKw => "CALL_FUNCTION_VAR_KW"
  | callMethod => "CALL_METHOD"
  | loadDeref => "LOAD_DEREF"
  | loadFast => "LOAD_FAST"
  | loadGlobal => "LOAD_GLOBAL"
  | loadName => "LOAD_NAME"
  | storeDeref => "STORE_DEREF"
  | storeFast => "STORE_FAST"
  | storeGlobal => "STORE_GLOBAL"
  | storeName => "STORE_NAME"
  | binarySubscr => "BINARY_SUBSCR"
  | slice0 => "SLICE_0"
  | slice1 => "SLICE_1"
  | slice2 => "SLICE_2"
  | slice3 => "SLICE_3"
  | loadConst => "LOAD_CONST"
  | importName => "IMPORT_NAME"
  | loadBuildClass => "LOAD_BUILD_CLASS"
  | other => "OTHER"

/-- The operation of a name; every name that is not known is another operation. -/
def ofName (s : String) : Opcode := (named.find? (·.name == s)).getD .other

@[simp]
theorem ofName_name (op : Opcode) : ofName op.name = op := by cases op <;> decide

end Opcode

/-- The groups of operations that nodes stand for. -/
inductive OpGroup where
  | attributes
  | calls
  | loads
  | stores
  | subscripts
  | constants
  /-- A plain import binds its name by importing it. -/
  | plainImports
  /-- An import under another name, or from a module, binds its name by storing it. -/
  | boundImports
  deriving DecidableEq, Repr

namespace OpGroup

def all : List OpGroup :=
  [.attributes, .calls, .loads, .stores, .subscripts, .constants, .plainImports, .boundImports]

/-- The operations of a group. -/
def ops : OpGroup → List Opcode
  | attributes => [.loadAttr, .storeAttr]
  | calls => [.callFunction, .callFunctionEx, .callFunctionKw, .callFunctionVar,
      .callFunctionVarKw, .callMethod]
  | loads => [.loadDeref, .loadFast, .loadGlobal, .loadName]
  | stores => [.storeDeref, .storeFast, .storeGlobal, .storeName]
  | subscripts => [.binarySubscr, .slice0, .slice1, .slice2, .slice3]
  | constants => [.loadConst]
  | plainImports => [.importName]
  | boundImports => [.storeName]

end OpGroup

/-- The methods that a subscript may call; traces of subscripts name one of them. -/
def subscriptMethods : List String := ["__getitem__", "__getslice__"]

end TypeTrace
