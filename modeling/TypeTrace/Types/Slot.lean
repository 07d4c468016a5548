import TypeTrace.Types.Ty

/-!
# Type slots

The type of a parameter as far as it is known: nothing yet, `Any`, or a
definite type. What is known grows and is never taken back, so an observation
at a call site outlives a declaration that is folded in later.
-/

namespace TypeTrace

/-- What is known about the type of a parameter. -/
inductive Slot where
  | unresolved
  | inferredAny
  | concrete (type : Ty)
  deriving DecidableEq, Repr, Inhabited

namespace Slot

/-- What a single type tells. -/
def ofTy (t : Ty) : Slot :=
  if t.isPlaceholder then .unresolved
  else if t.isAny then .inferredAny
  else .concrete t

/-- Is the definite type still missing? -/
def isPlaceholder : Slot → Bool
  | .concrete _ => false
  | _ => true

def concrete? : Slot → Option Ty
  | .concrete t => some t
  | _ => none

/-- Does the second slot know more than the first one? -/
def yieldsTo : Slot → Slot → Bool
  | .unresolved, .unresolved => false
  | .unresolved, _ => true
  | .inferredAny, .concrete _ => true
  | _, _ => false

/-- Takes over the other slot if it knows more, and says whether it did. -/
def merge (s other : Slot) : Slot × Bool :=
  if s.yieldsTo other then (other, true) else (s, false)

/-- Fills a slot without a definite type from a type. -/
def refine (s : Slot) (t : Ty) : Slot × Bool :=
  if s.isPlaceholder then s.merge (.ofTy t) else (s, false)

/-- The name under which the type of the parameter is reported. -/
def typeName : Slot → String
  | .concrete t => t.typeName
  | .unresolved | .inferredAny => Ty.anyName

end Slot

end TypeTrace
