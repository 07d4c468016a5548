import TypeTrace.Trace.Alignment

/-!
# Types at places of the text

The traces that were aligned with a tree, grouped by the place they belong to.
At one place they keep the order in which they were found.

Main statement: `entriesAt_add`, what one more alignment changes.
-/

namespace TypeTrace

/-- A trace with the type of its result. -/
structure Annotation where
  trace : Trace
  type : Ty
  deriving DecidableEq, Repr

/-- What a trace says about the place it belongs to. -/
def Annotation.ofTrace (t : Trace) : Annotation := { trace := t, type := t.resultType }

/-- Annotations by place. -/
structure Annotations where
  table : SortedMap Location (List Annotation)

namespace Annotations

/-- Adds what an aligned trace says. -/
def add (m : Annotations) (a : Alignment) : Annotations :=
  ⟨m.table.upsert a.location fun entries => entries.getD [] ++ [.ofTrace a.trace]⟩

/-- Groups aligned traces by place. -/
def ofAlignments (found : List Alignment) : Annotations := found.foldl add ⟨.empty⟩

/-- The annotations at exactly this place. -/
def entriesAt (m : Annotations) (loc : Location) : List Annotation :=
  (m.table.find? loc).getD []

/-- The types at exactly this place. -/
def typesAt (m : Annotations) (loc : Location) : List Ty := (m.entriesAt loc).map (·.type)

/-- The places with their annotations, in the order of the places. -/
def toList (m : Annotations) : List (Location × List Annotation) := m.table.toList

/-- The number of places. -/
def size (m : Annotations) : Nat := m.table.size

def isEmpty (m : Annotations) : Bool := m.toList.isEmpty

theorem entriesAt_add (m : Annotations) (a : Alignment) (loc : Location) :
    (m.add a).entriesAt loc =
      if loc = a.location then m.entriesAt loc ++ [.ofTrace a.trace] else m.entriesAt loc := by
  unfold entriesAt add
  rw [SortedMap.find?_upsert]
  split <;> simp_all

end Annotations

/-- Aligns a tree and groups what was found by place. -/
def Aligner.annotate (a : Aligner) (n : Node) : Except AlignError Annotations :=
  (a.align n).map .ofAlignments

end TypeTrace
