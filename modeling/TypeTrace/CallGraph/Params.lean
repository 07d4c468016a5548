import TypeTrace.Index.Symbol
import TypeTrace.Types.Join
import TypeTrace.Types.Slot

/-!
# Parameters of a function

The parameters that the recorded calls of a function show, with what the calls
tell about their types. Parameters come in the order in which they are met
first. The type of a parameter is the union of all types it was met with, but
for those that were still unsolved.

Main statements: `mem_firstSeen` and `nodup_firstSeen`, every name is listed once.
-/

namespace TypeTrace

/-- A parameter with what is known about its type. -/
structure Param where
  name : String
  slot : Slot
  deriving DecidableEq, Repr

/-- The names of a list, each at the place where it is met first. -/
def firstSeen : List String → List String
  | [] => []
  | n :: ns => n :: (firstSeen ns).filter (· ≠ n)

theorem mem_firstSeen {n : String} {ns : List String} : n ∈ firstSeen ns ↔ n ∈ ns := by
  induction ns with
  | nil => simp [firstSeen]
  | cons m ms ih =>
    by_cases h : n = m
    · simp [firstSeen, h]
    · simp [firstSeen, h, ih]

theorem nodup_firstSeen (ns : List String) : (firstSeen ns).Nodup := by
  induction ns with
  | nil => exact .nil
  | cons m ms ih => exact List.nodup_cons.2 ⟨by simp, List.Pairwise.filter _ ih⟩

namespace Param

/-- The types that a parameter was met with, without the unsolved ones. -/
def observedTypes (observed : List (String × Ty)) (name : String) : List Ty :=
  observed.filterMap fun o => if o.1 = name ∧ ¬o.2.isPlaceholder then some o.2 else none

/-- The parameters that the recorded calls of a function show. -/
def ofSignatures (signatures : List Signature) : List Param :=
  let observed := signatures.flatMap (·.params)
  (firstSeen (observed.map (·.1))).map fun name =>
    { name, slot := .ofTy (.join (observedTypes observed name)) }

/-- Fills the slot of the first parameter of a name from a type. -/
def refineFirst (name : String) (t : Ty) : List Param → List Param
  | [] => []
  | p :: ps =>
    if p.name = name then { p with slot := (p.slot.refine t).1 } :: ps
    else p :: refineFirst name t ps

end Param

end TypeTrace
