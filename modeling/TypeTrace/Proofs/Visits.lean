import TypeTrace.Proofs.Serving
import TypeTrace.Proofs.WalkLog
import TypeTrace.Trace.Alignment

/-!
# The visits of an alignment

While a tree is aligned, two fields of the traversal move along: the last line of
the value that is assigned and whether the walk is inside a target. They do not
depend on any trace. So the walk of a tree fixes beforehand which nodes ask for
traces and on which line the names among them ask, and aligning the tree serves
the requests of these visits in order.

Main results:

* `apply_visitor`: what one call of the walk does to a run;
* `replay_visitor`: what a list of calls does to a run;
* `align_eq_serve`: aligning a tree serves the requests of its visits.
-/

namespace TypeTrace

/-- Is the node an assignment? -/
def NodeKind.isAssign {α : Type} : NodeKind α → Bool
  | .assign .. => true
  | _ => false

/-! ## The skew of a traversal -/

/-- What a traversal knows of the assignment around the place where it is. -/
structure Skew where
  /-- The last line of the assigned value, as far as it matters. -/
  endLine : Option UInt32
  inTarget : Bool
  deriving DecidableEq, Repr

namespace Skew

/-- Outside of all assignments. -/
def outside : Skew := { endLine := none, inTarget := false }

/-- The line on which all names were traced, if that is not their own line. -/
def targetLine (s : Skew) : Option UInt32 := if s.inTarget then s.endLine else none

/-- The line on which a name at `line` was traced. -/
def nameLine (s : Skew) (line : UInt32) : UInt32 := s.targetLine.getD line

end Skew

/-- The part of a traversal that does not depend on traces. -/
def Traversal.skew (tr : Traversal) : Skew :=
  { endLine := tr.assignEndLine, inTarget := tr.inTarget }

@[simp]
theorem Traversal.skew_take (tr : Traversal) (claims : List Claim) :
    (tr.take claims).skew = tr.skew :=
  rfl

theorem Traversal.nameLine_eq (tr : Traversal) (line : UInt32) :
    tr.nameLine line = tr.skew.nameLine line := by
  unfold nameLine Skew.nameLine Skew.targetLine skew
  cases tr.inTarget <;> rfl

namespace Aligner

/-- The line to which a node moves the names in its targets: the last line of the
assigned value, if the node is an assignment and the version has the skew. -/
def targetLine? (a : Aligner) (n : Node) : Option UInt32 :=
  match n.kind with
  | .assign _ value => if a.version.hasAssignLineSkew then some value.lastLine else none
  | _ => none

/-- The skew after one call of a walk. -/
def skewAfter (a : Aligner) : Callback → Skew → Skew
  | .visit n, s => { s with endLine := (a.targetLine? n).or s.endLine }
  | .leave n, s => { s with endLine := if n.kind.isAssign then none else s.endLine }
  | .enterTarget .., s => { s with inTarget := true }
  | .leaveTarget .., s => { s with inTarget := false }

/-- Entering a node claims nothing and moves the skew as a visit does. -/
theorem enter_spec (a : Aligner) (n : Node) (tr : Traversal) :
    (a.enter n tr).claimed = tr.claimed ∧
      (a.enter n tr).skew = a.skewAfter (.visit n) tr.skew := by
  rcases n with ⟨kind, location⟩
  cases kind with
  | assign targets value =>
      dsimp only [enter, skewAfter, targetLine?, Node.kind]
      cases a.version.hasAssignLineSkew <;> exact ⟨rfl, rfl⟩
  | _ => exact ⟨rfl, rfl⟩

/-- Leaving a node claims nothing and moves the skew as a leaving call does. -/
theorem exit_spec (a : Aligner) (n : Node) (tr : Traversal) :
    (exit n tr).claimed = tr.claimed ∧
      (exit n tr).skew = a.skewAfter (.leave n) tr.skew := by
  rcases n with ⟨kind, location⟩
  cases kind <;> exact ⟨rfl, rfl⟩

end Aligner

/-! ## Visits -/

/-- A node of a walk, with the line on which it asks if it is a name. -/
structure Visit where
  node : Node
  nameLine : UInt32

/-- The requests of a visited node. -/
def Visit.requests (store : Store) (v : Visit) : List PlacedRequest :=
  (v.node.requests? store v.nameLine).getD []

/-- A node without a rule has no requests. -/
theorem Visit.requests_eq_nil {n : Node} (h : n.kind.hasMatchRule = false) (store : Store)
    (nameLine : UInt32) : Visit.requests store ⟨n, nameLine⟩ = [] := by
  have hrule := n.isSome_requests? store nameLine
  rw [h, Option.isSome_eq_false_iff, Option.isNone_iff_eq_none] at hrule
  unfold requests
  rw [hrule, Option.getD_none]

namespace Aligner

/-- The visit that a call of a walk makes, if it makes one. -/
def visitAt (a : Aligner) : Callback → Skew → List Visit
  | .visit n, s => [{ node := n, nameLine := (a.skewAfter (.visit n) s).nameLine n.line }]
  | _, _ => []

/-- The visits that calls of a walk make from a skew on. -/
def visits (a : Aligner) : List Callback → Skew → List Visit
  | [], _ => []
  | c :: calls, s => a.visitAt c s ++ visits a calls (a.skewAfter c s)

/-- The skew after several calls of a walk. -/
def skewAfterAll (a : Aligner) (calls : List Callback) (s : Skew) : Skew :=
  calls.foldl (fun s c => a.skewAfter c s) s

@[simp]
theorem visits_nil (a : Aligner) (s : Skew) : a.visits [] s = [] :=
  rfl

@[simp]
theorem visits_cons (a : Aligner) (c : Callback) (calls : List Callback) (s : Skew) :
    a.visits (c :: calls) s = a.visitAt c s ++ a.visits calls (a.skewAfter c s) :=
  rfl

@[simp]
theorem skewAfterAll_nil (a : Aligner) (s : Skew) : a.skewAfterAll [] s = s :=
  rfl

@[simp]
theorem skewAfterAll_cons (a : Aligner) (c : Callback) (calls : List Callback) (s : Skew) :
    a.skewAfterAll (c :: calls) s = a.skewAfterAll calls (a.skewAfter c s) :=
  rfl

@[simp]
theorem skewAfterAll_append (a : Aligner) (before after : List Callback) (s : Skew) :
    a.skewAfterAll (before ++ after) s = a.skewAfterAll after (a.skewAfterAll before s) :=
  List.foldl_append

@[simp]
theorem visits_append (a : Aligner) (before after : List Callback) (s : Skew) :
    a.visits (before ++ after) s =
      a.visits before s ++ a.visits after (a.skewAfterAll before s) := by
  induction before generalizing s with
  | nil => rfl
  | cons c before ih =>
      rw [List.cons_append, visits_cons, ih, visits_cons, skewAfterAll_cons, List.append_assoc]

/-! ## What a walk does to a run -/

/-- Matching a node answers its requests if its kind has a rule, and fails if not. -/
theorem matchNode_eq (a : Aligner) (n : Node) (tr : Traversal) :
    a.matchNode n tr =
      if n.kind.hasMatchRule then
        .ok (answerAll a.store (Visit.requests a.store ⟨n, tr.nameLine n.line⟩) tr)
      else .error (.noRule n.kind.kindName n.location) := by
  have hrule := n.isSome_requests? a.store (tr.nameLine n.line)
  unfold matchNode Visit.requests
  cases hrequests : n.requests? a.store (tr.nameLine n.line) with
  | none =>
      rw [hrequests, Option.isSome_none] at hrule
      rw [← hrule, if_neg Bool.false_ne_true]
  | some rs =>
      rw [hrequests, Option.isSome_some] at hrule
      rw [← hrule, if_pos rfl]
      rfl

/-- A visit never stops or skips, since a node is matched only if its kind has a
rule. -/
theorem visit_spec (a : Aligner) (n : Node) (run : AlignRun) :
    let tr := a.enter n run.traversal
    let answered := answerAll a.store (Visit.requests a.store ⟨n, tr.nameLine n.line⟩) tr
    a.visitor.visit n run =
      (.descend,
        { traversal := answered.2
          trail := run.trail ++ if n.kind.hasMatchRule then [(n, answered.1)] else []
          error := run.error }) := by
  intro tr answered
  unfold visitor
  dsimp only
  rw [matchNode_eq]
  cases hmatch : n.kind.hasMatchRule with
  | true => rfl
  | false =>
      have hnone : answered = ([], tr) := by
        simp only [answered, Visit.requests_eq_nil hmatch, answerAll]
      rw [hnone, if_neg Bool.false_ne_true, if_neg Bool.false_ne_true, List.append_nil]

/-- What a visit finds is what the trail grows by. -/
theorem found_visit (a : Aligner) (n : Node) (run : AlignRun) :
    let tr := a.enter n run.traversal
    (a.visitor.visit n run).2.found =
      run.found ++ (answerAll a.store (Visit.requests a.store ⟨n, tr.nameLine n.line⟩) tr).1 := by
  intro tr
  rw [visit_spec]
  unfold AlignRun.found
  rw [List.flatMap_append]
  congr 1
  cases hmatch : n.kind.hasMatchRule with
  | true => rw [if_pos rfl, List.flatMap_singleton]
  | false =>
      rw [if_neg Bool.false_ne_true, Visit.requests_eq_nil hmatch]
      rfl

/-- What a run is after one call of the walk: the requests of the visit are served,
and the skew has moved. -/
theorem apply_visitor (a : Aligner) (c : Callback) (run : AlignRun) :
    let answers := answersOf (serveEach a.store run.traversal.claimed
      ((a.visitAt c run.traversal.skew).flatMap (Visit.requests a.store)))
    let next := a.visitor.apply c run
    next.found = run.found ++ answers ∧
      next.traversal.claimed = takenAfter answers run.traversal.claimed ∧
      next.traversal.skew = a.skewAfter c run.traversal.skew ∧ next.error = run.error := by
  intro answers next
  cases c with
  | visit n =>
      have henter := a.enter_spec n run.traversal
      have hanswers : answers = answersOf (serveEach a.store (a.enter n run.traversal).claimed
          (Visit.requests a.store ⟨n, (a.enter n run.traversal).nameLine n.line⟩)) := by
        rw [Traversal.nameLine_eq, henter.1, henter.2]
        simp only [answers, visitAt, List.flatMap_singleton]
      have hnext : next = (a.visitor.visit n run).2 := rfl
      rw [hnext, found_visit, visit_spec, answerAll_eq_serveEach, ← hanswers]
      refine ⟨rfl, ?_, henter.2, rfl⟩
      rw [claimed_take_claimsOf, henter.1]
  | leave n =>
      have hexit := a.exit_spec n run.traversal
      exact ⟨(List.append_nil _).symm, hexit.1, hexit.2, rfl⟩
  | enterTarget n t => exact ⟨(List.append_nil _).symm, rfl, rfl, rfl⟩
  | leaveTarget n t => exact ⟨(List.append_nil _).symm, rfl, rfl, rfl⟩

/-- What a run is after a list of calls: the requests of all visits are served in
order. -/
theorem replay_visitor (a : Aligner) (calls : List Callback) (run : AlignRun) :
    let answers := answersOf (serveEach a.store run.traversal.claimed
      ((a.visits calls run.traversal.skew).flatMap (Visit.requests a.store)))
    let last := a.visitor.replay calls run
    last.found = run.found ++ answers ∧
      last.traversal.claimed = takenAfter answers run.traversal.claimed ∧
      last.error = run.error := by
  induction calls generalizing run with
  | nil => exact ⟨(List.append_nil _).symm, rfl, rfl⟩
  | cons c calls ih =>
      rcases a.apply_visitor c run with ⟨hfound, hclaimed, hskew, herror⟩
      rcases ih (a.visitor.apply c run) with ⟨hfound', hclaimed', herror'⟩
      intro answers last
      have hanswers : answers =
          answersOf (serveEach a.store run.traversal.claimed
            ((a.visitAt c run.traversal.skew).flatMap (Visit.requests a.store))) ++
          answersOf (serveEach a.store (a.visitor.apply c run).traversal.claimed
            ((a.visits calls (a.visitor.apply c run).traversal.skew).flatMap
              (Visit.requests a.store))) := by
        rw [hclaimed, hskew, ← answersOf_append, ← serveEach_append, ← List.flatMap_append]
        rfl
      refine ⟨?_, ?_, herror'.trans herror⟩
      · rw [hanswers, ← List.append_assoc, ← hfound]
        exact hfound'
      · rw [hanswers, takenAfter_append, ← hclaimed]
        exact hclaimed'

/-! ## Aligning a tree -/

/-- The requests that aligning a tree makes, in order. -/
def requested (a : Aligner) (n : Node) : List PlacedRequest :=
  (a.visits n.calls .outside).flatMap (Visit.requests a.store)

/-- The run of a tree replays the calls of the tree. -/
theorem run_eq_replay (a : Aligner) (n : Node) :
    a.run n = a.visitor.replay n.calls .start := by
  unfold run
  rw [walk_eq_replay fun _ => false]
  · rfl
  · intro m run
    rw [visit_spec, if_neg Bool.false_ne_true]

/-- Aligning a tree never fails, and it returns what its run has found. -/
theorem align_eq_found (a : Aligner) (n : Node) : a.align n = .ok (a.run n).found := by
  have herror : (a.run n).error = none := by
    rw [run_eq_replay]
    exact (a.replay_visitor n.calls .start).2.2
  unfold align
  rw [herror]

/-- Aligning a tree serves the requests of the tree. -/
theorem align_eq_serve (a : Aligner) (n : Node) :
    a.align n = .ok (serve a.store (a.requested n)) := by
  rw [align_eq_found, run_eq_replay, (a.replay_visitor n.calls .start).1]
  rfl

/-- The records of a tree are what serving its requests gives. -/
theorem eq_serve_of_align {a : Aligner} {n : Node} {records : List Alignment}
    (h : a.align n = .ok records) : records = serve a.store (a.requested n) := by
  rw [align_eq_serve] at h
  exact (Except.ok.inj h).symm

end Aligner

end TypeTrace
