import TypeTrace.Text.Search

/-!
# Types

The types that an inference engine reports for traced operations: named types
with arguments, unions, callables, tuples, `Any`, the empty type and types that
inference could not solve.

A type has two texts. `Ty.display` writes its structure. `Ty.typeName` is the
name under which the type is reported, in which `Any` is qualified and a type
with an unsolved part is `typing.Any`.

Main statements:

* `Ty.same_iff`: structural comparison decides equality;
* `Ty.induct`: induction with the hypothesis for every part of a type.
-/

namespace TypeTrace

/-- A type reported by inference. -/
inductive Ty where
  | named (name : String) (args : List Ty)
  | union (members : List Ty)
  | callable (params : List Ty) (returns : Ty)
  | tuple (elements : List Ty)
  | any
  | nothing
  | unknown
  deriving Inhabited, Repr

namespace Ty

/-! ## Equality -/

mutual

/-- Structural comparison. -/
def same : Ty → Ty → Bool
  | .named n as, .named m bs => n == m && sameAll as bs
  | .union as, .union bs => sameAll as bs
  | .callable ps r, .callable qs s => sameAll ps qs && same r s
  | .tuple as, .tuple bs => sameAll as bs
  | .any, .any => true
  | .nothing, .nothing => true
  | .unknown, .unknown => true
  | _, _ => false

/-- Structural comparison of lists of types. -/
def sameAll : List Ty → List Ty → Bool
  | [], [] => true
  | a :: as, b :: bs => same a b && sameAll as bs
  | _, _ => false

end

mutual

theorem same_iff : ∀ {s t : Ty}, same s t = true ↔ s = t
  | .named n as, t => by cases t <;> simp [same, sameAll_iff]
  | .union as, t => by cases t <;> simp [same, sameAll_iff]
  | .callable ps r, t => by cases t <;> simp [same, sameAll_iff, same_iff]
  | .tuple as, t => by cases t <;> simp [same, sameAll_iff]
  | .any, t => by cases t <;> simp [same]
  | .nothing, t => by cases t <;> simp [same]
  | .unknown, t => by cases t <;> simp [same]

theorem sameAll_iff : ∀ {as bs : List Ty}, sameAll as bs = true ↔ as = bs
  | [], bs => by cases bs <;> simp [sameAll]
  | a :: as, bs => by cases bs <;> simp [sameAll, sameAll_iff, same_iff]

end

instance : DecidableEq Ty := fun _ _ => decidable_of_iff _ same_iff

/-! ## Induction -/

/-- The types that a type is put together from. -/
def parts : Ty → List Ty
  | .named _ args => args
  | .union members => members
  | .callable params returns => params ++ [returns]
  | .tuple elements => elements
  | .any | .nothing | .unknown => []

theorem sizeOf_lt_of_mem_parts {s t : Ty} (h : s ∈ t.parts) : sizeOf s < sizeOf t := by
  cases t with
  | named _ args | union args | tuple args =>
    have := List.sizeOf_lt_of_mem (show s ∈ args from h)
    simp only [named.sizeOf_spec, union.sizeOf_spec, tuple.sizeOf_spec]
    omega
  | callable params returns =>
    simp only [callable.sizeOf_spec]
    rcases List.mem_append.1 (show s ∈ params ++ [returns] from h) with h | h
    · have := List.sizeOf_lt_of_mem h
      omega
    · have := List.mem_singleton.1 h
      subst this
      omega
  | any | nothing | unknown => simp [parts] at h

/-- Induction over types, with the hypothesis for every part. -/
theorem induct {motive : Ty → Prop} (step : ∀ t, (∀ s ∈ t.parts, motive s) → motive t)
    (t : Ty) : motive t :=
  step t fun s _h => induct step s
termination_by sizeOf t
decreasing_by exact sizeOf_lt_of_mem_parts _h

/-! ## Texts -/

/-- The mark in the text of a type that inference could not solve. -/
def unknownMark : String := "~unknown"

/-- The name under which values of any type are reported. -/
def anyName : String := "typing.Any"

/-- Does a text hold the mark of an unsolved type? -/
def isMarked (s : String) : Bool := Text.occurs unknownMark.toList s.toList

/-- A reported name, with `typing.Any` in place of every marked one. -/
def unknownToAny (name : String) : String := if isMarked name then anyName else name

/-- Texts with a comma and a space between neighbours. -/
def commaSep : List String → String
  | [] => ""
  | [s] => s
  | s :: t :: rest => s ++ ", " ++ commaSep (t :: rest)

mutual

/-- The text of a type, as it is written in annotations. -/
def display : Ty → String
  | .named name [] => name
  | .named name (a :: as) => name ++ "[" ++ commaSep (displayAll (a :: as)) ++ "]"
  | .union members => "Union[" ++ commaSep (displayAll members) ++ "]"
  | .callable params returns =>
    "Callable[[" ++ commaSep (displayAll params) ++ "], " ++ display returns ++ "]"
  | .tuple [] => "Tuple[()]"
  | .tuple (a :: as) => "Tuple[" ++ commaSep (displayAll (a :: as)) ++ "]"
  | .any => "Any"
  | .nothing => "nothing"
  | .unknown => unknownMark

/-- The texts of several types. -/
def displayAll : List Ty → List String
  | [] => []
  | t :: ts => display t :: displayAll ts

end

mutual

/-- The name under which a type is reported. The members of a union are named
one by one; any other type with an unsolved part is `typing.Any` as a whole. -/
def typeName : Ty → String
  | .union members => unknownToAny ("Union[" ++ commaSep (typeNames members) ++ "]")
  | .any | .unknown => anyName
  | t => unknownToAny (display t)

/-- The reported names of several types. -/
def typeNames : List Ty → List String
  | [] => []
  | t :: ts => typeName t :: typeNames ts

end

@[simp]
theorem displayAll_eq_map (ts : List Ty) : displayAll ts = ts.map display := by
  induction ts with
  | nil => rfl
  | cons t ts ih => simp [displayAll, ih]

@[simp]
theorem typeNames_eq_map (ts : List Ty) : typeNames ts = ts.map typeName := by
  induction ts with
  | nil => rfl
  | cons t ts ih => simp [typeNames, ih]

/-! ## Classification -/

/-- Does the type stand for the absence of an answer? -/
def isPlaceholder : Ty → Bool
  | .nothing | .unknown => true
  | .named name _ => isMarked name
  | _ => false

def isAny : Ty → Bool
  | .any => true
  | _ => false

end Ty

end TypeTrace
