import TypeTrace.Trace.Matching

/-!
# Aligning a tree with traces

A tree is walked once, and every node with a rule is matched when it is visited.
While the target of an assignment is walked, the last line of the assigned value
is at hand for the names in it.
-/

namespace TypeTrace

/-- What one walk has come to. -/
structure AlignRun where
  traversal : Traversal
  /-- The matched nodes in the order of the walk, each with what was found. -/
  trail : List (Node × List Alignment)
  error : Option AlignError

namespace AlignRun

/-- The state before the walk. -/
def start : AlignRun := { traversal := .fresh, trail := [], error := none }

/-- All traces found, in the order of the walk. -/
def found (run : AlignRun) : List Alignment := run.trail.flatMap (·.2)

end AlignRun

namespace Aligner

/-- The state in which the parts of a node are walked. -/
def enter (a : Aligner) (n : Node) (tr : Traversal) : Traversal :=
  match n.kind with
  | .assign _ value =>
    if a.version.hasAssignLineSkew then { tr with assignEndLine := some value.lastLine } else tr
  | _ => tr

/-- The state after a node was walked. -/
def exit (n : Node) (tr : Traversal) : Traversal :=
  match n.kind with
  | .assign .. => { tr with assignEndLine := none }
  | _ => tr

/-- The visitor that matches every node with a rule. -/
def visitor (a : Aligner) : Visitor AlignRun where
  visit n run :=
    let tr := a.enter n run.traversal
    if n.kind.hasMatchRule then
      match a.matchNode n tr with
      | .ok (found, tr) =>
        (.descend, { run with traversal := tr, trail := run.trail ++ [(n, found)] })
      | .error e => (.stop, { run with traversal := tr, error := some e })
    else (.descend, { run with traversal := tr })
  leave n run := { run with traversal := exit n run.traversal }
  enterTarget _ _ run := { run with traversal := { run.traversal with inTarget := true } }
  leaveTarget _ _ run := { run with traversal := { run.traversal with inTarget := false } }

/-- Walks a tree with a fresh state. -/
def run (a : Aligner) (n : Node) : AlignRun := (walk a.visitor n .start).state

/-- The traces of all nodes of a tree, in the order of the walk. -/
def align (a : Aligner) (n : Node) : Except AlignError (List Alignment) :=
  match (a.run n).error with
  | some e => .error e
  | none => .ok (a.run n).found

/-- The report at the end of an alignment. -/
def summary (a : Aligner) (run : AlignRun) : Event :=
  { level := .debug
    message := "aligned traces"
    data := [("matches", Text.Numeral.ofNat run.found.length),
      ("consumed", Text.Numeral.ofNat run.traversal.claimedCount),
      ("traces", Text.Numeral.ofNat a.store.size)] }

/-- What is reported while a tree is aligned. -/
def alignEvents (a : Aligner) (n : Node) : List Event :=
  let run := a.run n
  (run.trail.flatMap fun p => p.1.matchEvents p.2) ++
    match run.error with
    | some e => [e.event]
    | none => [a.summary run]

end Aligner

end TypeTrace
