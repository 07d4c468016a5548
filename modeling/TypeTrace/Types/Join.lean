import TypeTrace.Types.Ty

/-!
# Unions of types

`Ty.join` is the union of a list of types. Nested unions are opened, the empty
type adds nothing, `Any` absorbs all else, and of equal members the first one
stays. Members are collected in one pass from left to right.
-/

namespace TypeTrace.Ty

/-- Adds a member at the end unless it is there already. -/
def addMember (members : List Ty) (t : Ty) : List Ty :=
  if t ∈ members then members else members ++ [t]

mutual

/-- Adds what a type contributes to the members of a union; none once `Any` is
met. -/
def collect? (members : List Ty) : Ty → Option (List Ty)
  | .any => none
  | .nothing => some members
  | .union inner => collectAll? members inner
  | .named name args => some (addMember members (.named name args))
  | .callable params returns => some (addMember members (.callable params returns))
  | .tuple elements => some (addMember members (.tuple elements))
  | .unknown => some (addMember members .unknown)

/-- Adds what the types of a list contribute, from left to right. -/
def collectAll? (members : List Ty) : List Ty → Option (List Ty)
  | [] => some members
  | t :: ts => (collect? members t).bind fun more => collectAll? more ts

end

/-- The type of a value that has one of the given types. A union is built only
for two members or more. -/
def ofMembers : List Ty → Ty
  | [] => .nothing
  | [t] => t
  | members => .union members

/-- The union of types. -/
def join (types : List Ty) : Ty :=
  match collectAll? [] types with
  | none => .any
  | some members => ofMembers members

example : join [.named "str" [], .union [.named "int" [], .named "str" []], .nothing] =
    .union [.named "str" [], .named "int" []] := by decide

end TypeTrace.Ty
